import Admission.Proofs.Deployment.Endings
import Admission.Proofs.Deployment.JourneyRun
import Admission.Proofs.Deployment.Settling
import Admission.Proofs.Number.Exact

/-!
The deadline of a check.

A check on a store in Redis holds one timer, and one listener if it was handed a signal, for exactly
as long as nothing has put an end to its wait. The first end settles it. Only an end that cannot be
put into words settles nothing: timer and listener are gone, and the check stays open for good.
-/
namespace Admission

/-- How a store that was asked directly answers. -/
def Settlement.ofVerdict {α : Type} : Except (Fault α) Bool → Settlement α
  | .ok allowed => .verdict allowed
  | .error fault => .failed fault

namespace Deployment

variable {α : Type}

/-- The check that a direct question to a store comes to. -/
def asking [Textual α] (s : Deployment α) (key now : Option (Value α)) (signal : Option SignalId) :
    Check α :=
  ⟨.store, key, s.callKey key, now, signal⟩

section

variable [Scalar α] [Textual α]

theorem settlementOf_asking (s : Deployment α) (key now : Option (Value α))
    (signal : Option SignalId) : s.settlementOf (s.asking key now signal) = .ofVerdict := by
  funext verdict
  cases verdict <;> rfl

/-- A check waits under its deadline: this is its one timer, and its signal, if it was handed one,
is what it listens to. -/
structure Awaits (s : Deployment α) (t : TaskId) (deadline : Timer α) (signal : Option SignalId) :
    Prop where
  waiting : s.tasks[t]?.map Task.progress = some (.waiting .verdict)
  deadlines : (s.share t).deadlines = [deadline]
  listeners : (s.share t).listeners = signal.toList
  unsettled : (s.share t).settled = []

/-- The wait of a check is over. Nothing else comes of the check than this settlement, if any, and
it comes once the work that is ready has taken its turns. -/
structure ComesTo (s : Deployment α) (t : TaskId) (settlement? : Option (Settlement α)) :
    Prop where
  finished : s.tasks[t]?.map Task.progress ≠ some (.waiting .verdict)
  deadlines : (s.share t).deadlines = []
  listeners : (s.share t).listeners = []
  settled : (s.share t).settled = [] ∨ (s.share t).settled = settlement?.toList
  drained : (s.drain.share t).settled = settlement?.toList

namespace Journey

variable {j : Journey α} {s : Deployment α} {events : List (Event α)} {e : Errand α} {w : Wait α}

theorem RunsTo.end?_eq (h : j.RunsTo s events .waiting [] 0 e w) :
    w.end? = (s.firstEnding? j.task j.check.signal events).map
      (Ending.outcome? j.milliseconds) := by
  have hend := h.wait
  rwa [show (Wait.waiting : Wait α).end? = none from rfl, Option.none_or] at hend

theorem RunsTo.awaits (h : j.RunsTo s events .waiting [] 0 e w)
    (hnone : s.firstEnding? j.task j.check.signal events = none) :
    (s.after events).Awaits j.task j.deadline j.check.signal := by
  have hend := h.end?_eq
  rw [hnone, Option.map_none] at hend
  obtain rfl := Wait.end?_eq_none_iff.mp hend
  refine ⟨by rw [h.stands.task]; rfl, ?_, ?_, ?_⟩ <;> rw [h.stands.share] <;> rfl

theorem RunsTo.comesTo (h : j.RunsTo s events .waiting [] 0 e w) (hs : (s.after events).Prompt)
    {ending : Ending α} (hsome : s.firstEnding? j.task j.check.signal events = some ending) :
    (s.after events).ComesTo j.task
      (((ending.outcome? j.milliseconds).map Fault.verdictOf).map j.settlement) := by
  have hend : w.end? = some (ending.outcome? j.milliseconds) := by rw [h.end?_eq, hsome]; rfl
  have hdrained := h.stands.settled_drain hs (h.rests trivial) h.past hend
  rw [Option.map_map]
  refine ⟨fun hwaiting => ?_, ?_, ?_, ?_, hdrained⟩
  · obtain rfl := h.stands.eq_waiting hwaiting
    cases hend
  all_goals rw [h.stands.share]
  · cases w with
    | waiting => cases hend
    | _ => rfl
  · cases w with
    | waiting => cases hend
    | _ => rfl
  · cases w with
    | settled outcome =>
      obtain hheard := Option.some.inj hend
      exact Or.inr (by rw [← hheard]; rfl)
    | waiting => cases hend
    | _ => exact Or.inl rfl

end Journey

theorem start_ask_eq {s : Deployment α} {i : StoreId} {store : RedisStore α}
    (hstore : s.remote? i = some store) (key now : Option (Value α)) (signal : Option SignalId) :
    s.start (.ask i key now signal) = s.startCheck i (s.asking key now signal) := by
  have hlt : i < s.stores.length :=
    (List.getElem?_eq_some_iff.mp (remote?_eq_some_iff.mp hstore)).1
  simp only [start, onStore, hlt, if_true]
  rfl

/-! Checks that are abandoned before they begin -/

theorem startCheck_of_aborted {s : Deployment α} {i : StoreId} {store : RedisStore α}
    (hstore : s.remote? i = some store) {c : Check α} (haborted : s.isAborted c.signal = true) :
    s.startCheck i c =
      (s.newTask i (.check c)).2.post 0 (.conclude s.tasks.length (.error .aborted)) := by
  have hstores : (s.newTask i (.check c)).2.stores[i]? = some (.redis store) :=
    remote?_eq_some_iff.mp hstore
  have haborted' : (s.newTask i (.check c)).2.isAborted c.signal = true := haborted
  show (s.newTask i (.check c)).2.check s.tasks.length i c = _
  simp only [check, hstores, checkRedis, haborted', if_true]

/-- A check that only its verdict is left of neither sends the script nor waits for a connection. -/
theorem Delivers.idle {s₀ s : Deployment α} {t : TaskId} {i : StoreId} {c : Check α}
    {verdict : Except (Fault α) Bool} {d : Delivery} (h : Delivers s₀ t i c verdict s d) :
    .evaluate t ∉ (s.share t).ready ∧ ∀ j, t ∉ s.waiters j := by
  refine ⟨fun hready => ?_, fun j => List.count_eq_zero.mp ?_⟩
  · rw [h.share] at hready
    cases d <;> simp [Delivery.share] at hready
  · rw [← queued_share, h.share]
    cases d <;> rfl

theorem Delivers.sendings_eq_zero {s₀ s : Deployment α} {t : TaskId} {i : StoreId} {c : Check α}
    {verdict : Except (Fault α) Bool} {d : Delivery} (h : Delivers s₀ t i c verdict s d)
    (hs : s.Prompt) (hd : d ≠ .taken) (events : List (Event α)) : s.sendings t events = 0 := by
  induction events generalizing s d with
  | nil => rfl
  | cons ev events ih =>
    obtain ⟨d', hnext, hd', -⟩ := h.happen hs hd ev
    have hact : s.act? t ev ≠ some .sends := by
      intro hsends
      obtain ⟨n, -, hentry⟩ := exists_of_sends hsends
      exact h.idle.1 (mem_ready_share hentry rfl)
    have hnone : Act.isSending (s.act? t ev) = false := by
      generalize s.act? t ev = act at hact ⊢
      rcases act with _ | act
      · rfl
      · cases act <;> first | rfl | exact absurd rfl hact
    simp only [sendings, hnone, Bool.toNat_false, Nat.zero_add]
    exact ih hnext (hs.happen ev) hd'

theorem Delivers.after_ready {s₀ s : Deployment α} {t : TaskId} {i : StoreId} {c : Check α}
    {verdict : Except (Fault α) Bool} (h : Delivers s₀ t i c verdict s .ready) (hs : s.Prompt)
    (events : List (Event α)) :
    ∃ d, Delivers s₀ t i c verdict (s.after events) d ∧ (d = .ready ∨ d = .settled) ∧
      s.sendings t events = 0 := by
  obtain ⟨d, hd, htaken, -, hsilent, hawaited⟩ := h.after hs nofun events
  refine ⟨d, hd, ?_, h.sendings_eq_zero hs nofun events⟩
  cases d with
  | ready => exact Or.inl rfl
  | settled => exact Or.inr rfl
  | taken => exact absurd rfl htaken
  | silent => exact nomatch hsilent.mp rfl
  | awaited => exact nomatch hawaited rfl

theorem startCheck_aborted {s : Deployment α} (hs : s.Clear) {i : StoreId}
    {store : RedisStore α} (hstore : s.remote? i = some store) {c : Check α}
    (haborted : s.isAborted c.signal = true) :
    Delivers s s.tasks.length i c (.error .aborted) (s.startCheck i c) .ready :=
  startCheck_of_aborted hstore haborted ▸ (delivers_newTask hs i c _).post_ready 0

/-- A check whose store cannot even try to connect has only its failure left. -/
theorem startCheck_unlinkable {s : Deployment α} (hs : s.Clear) {i : StoreId}
    {store : RedisStore α} (hstore : s.remote? i = some store) {c : Check α}
    (hlive : s.isAborted c.signal = false) (howned : store.owned = true)
    (hnone : store.attempt = none) (hstatus : s.linkStatus store.client = .waiting)
    {fault : Fault α} (hthrows : (s.callClient store.client .connect).1 = .throws fault) :
    Delivers s s.tasks.length i c (.error fault) (s.startCheck i c) .ready := by
  have hstores : (s.newTask i (.check c)).2.stores[i]? = some (.redis store) :=
    remote?_eq_some_iff.mp hstore
  have hlive' : (s.newTask i (.check c)).2.isAborted c.signal = false := hlive
  have hstatus' : (s.newTask i (.check c)).2.linkStatus store.client = .waiting := hstatus
  have hthrows' : ((s.newTask i (.check c)).2.callClient store.client .connect).1 = .throws fault :=
    (reply_congr s (s.newTask i (.check c)).2 rfl rfl rfl _ _).trans hthrows
  have hcalled : Delivers s s.tasks.length i c (.error fault)
      ((s.newTask i (.check c)).2.callClient store.client .connect).2 .taken :=
    (delivers_newTask hs i c _).moves
      ((Moves.refl _).callClient (p := { call := fun _ => True }) _ _ trivial) id
      (fun _ h => h.elim) fun _ h => h.elim
  have hcheck : s.startCheck i c =
      ((s.newTask i (.check c)).2.callClient store.client .connect).2.post 0
        (.conclude s.tasks.length (.error fault)) := by
    show (s.newTask i (.check c)).2.check s.tasks.length i c = _
    simp only [check, hstores, checkRedis, hlive', connectFor, hnone, howned, hstatus']
    generalize (s.newTask i (.check c)).2.callClient store.client .connect = called at hthrows' ⊢
    obtain ⟨reply, s'⟩ := called
    subst hthrows'
    rfl
  exact hcheck ▸ hcalled.post_ready 0

/-- A check that does not come to wait has only its verdict left. -/
theorem startCheck_unwaiting {s : Deployment α} (hs : s.Clear) {i : StoreId}
    {store : RedisStore α} (hstore : s.remote? i = some store) {c : Check α}
    (hwaits : ¬(s.isAborted c.signal = false ∧ s.Promises store)) :
    ∃ verdict, Delivers s s.tasks.length i c verdict (s.startCheck i c) .ready := by
  cases hlive : s.isAborted c.signal with
  | true => exact ⟨_, startCheck_aborted hs hstore hlive⟩
  | false =>
    have hunlinkable : ¬s.Promises store := fun hpromise => hwaits ⟨hlive, hpromise⟩
    simp only [Promises, Classical.not_imp, not_forall, not_not] at hunlinkable
    obtain ⟨howned, hnone, hstatus, fault, hthrows⟩ := hunlinkable
    exact ⟨_, startCheck_unlinkable hs hstore hlive howned hnone hstatus hthrows⟩

/-- A timer that is set for whole milliseconds falls due after as many, unless it is set for longer
than the timers of a running process hold. -/
theorem dueAfter_number (s : Deployment α) {x : α} (hself : x ≤ x) (hleast : 1 ≤ x) :
    let due := s.dueAfter (numeral (some (.number x)))
    (s.clockwork = .simulated → due = s.clock + x) ∧
    (s.clockwork = .real → x ≤ 2147483647 → Scalar.isWhole x = true → due = s.clock + x) ∧
    (s.clockwork = .real → ¬x ≤ 2147483647 → due = s.clock + 1) := by
  have hnumeral : numeral (some (.number x)) = x := by simp [numeral, Value.asNumber?, hself]
  dsimp only
  rw [hnumeral, dueAfter]
  refine ⟨fun hclock => ?_, fun hclock hheld hwhole => ?_, fun hclock hlong => ?_⟩ <;>
    rw [hclock, Clockwork.delay]
  · rw [if_pos hleast]
  · rw [if_pos ⟨hleast, hheld⟩, if_pos hwhole]
  · rw [if_neg fun h => hlong h.2]

/-- The deadline protocol of a store in Redis. A question to it whose signal is not aborted holds
one timer, due when its timeout has passed since it was asked, and one listener if it was handed a
signal, until an outcome reaches it, the deadline passes or the signal aborts. The first of these
settles it, whatever else happens to it and to others before and after; an outcome that reaches it
is all that it was ever told. A question whose signal is aborted already has none of this. The
timers of a running process do not hold every timeout: a longer one is over after one
millisecond. -/
theorem deadline_protocol {s : Deployment α} (hs : s.Reachable) {i : StoreId} {store : RedisStore α}
    (hstore : s.remote? i = some store) {milliseconds : String}
    (htext : textOrMissing? store.options.timeout = some milliseconds)
    (hpromise : s.Promises store) (key now : Option (Value α)) (signal : Option SignalId)
    (events : List (Event α)) :
    let t := s.tasks.length
    let asked := s.start (.ask i key now signal)
    let due := s.dueAfter (numeral store.options.timeout)
    let ending? := asked.firstEnding? t signal events
    (∀ x, store.options.timeout = some (.number x) → x ≤ x → 1 ≤ x →
      (s.clockwork = .simulated → due = s.clock + x) ∧
      (s.clockwork = .real → x ≤ 2147483647 → Scalar.isWhole x = true → due = s.clock + x) ∧
      (s.clockwork = .real → ¬x ≤ 2147483647 → due = s.clock + 1)) ∧
    (s.isAborted signal = false →
      (ending? = none → (asked.after events).Awaits t ⟨due, .deadline t milliseconds⟩ signal) ∧
      (∀ ending, ending? = some ending → ∃ verdict?, ending.Brings milliseconds verdict? ∧
        (asked.after events).ComesTo t (verdict?.map .ofVerdict)) ∧
      ∀ outcome, ending? = some (.answered outcome) →
        asked.tellings store (s.asking key now signal) t events = [outcome]) ∧
    (s.isAborted signal = true →
      asked.calls = s.calls ∧ asked.timers = s.timers ∧ asked.listeners = s.listeners ∧
      asked.sendings t events = 0 ∧ ((asked.after events).share t).deadlines = [] ∧
      ((asked.after events).share t).listeners = [] ∧
      (((asked.after events).share t).settled = [] ∨
        ((asked.after events).share t).settled = [.failed .aborted]) ∧
      ((asked.after events).drain.share t).settled = [.failed .aborted]) ∧
    ∀ (fault : Fault α) name, fault.reason?.map FailureReason.text = some name ↔
      ∃ reason, fault.HasReason reason ∧ reason.Reads name := by
  have hprompt := hs.prompt.startCheck i (s.asking key now signal)
  dsimp only
  rw [start_ask_eq hstore]
  refine ⟨fun x hx hself hleast => ?_, fun hlive => ?_, fun haborted => ?_,
    fun fault name => Fault.reason?_text_eq_some_iff⟩
  · rw [hx]
    exact s.dueAfter_number hself hleast
  · obtain ⟨e, w, hrun⟩ :=
      startCheck_runsTo hs.clear hstore (c := s.asking key now signal) hlive htext hpromise events
    have hsettlement : (s.journey i store (s.asking key now signal) milliseconds).settlement =
        .ofVerdict := settlementOf_asking s key now signal
    refine ⟨fun hnone => hrun.awaits hnone, fun ending hending => ?_,
      fun outcome hanswered => hrun.answered outcome rfl hanswered⟩
    have hcomes := hrun.comesTo (hprompt.after events) hending
    rw [hsettlement] at hcomes
    exact ⟨_, ending.brings_verdictOf milliseconds, hcomes⟩
  · obtain ⟨d, hd, hend, hunsent⟩ :=
      (startCheck_aborted hs.clear hstore (c := s.asking key now signal) haborted).after_ready
        hprompt events
    have hdrained := hd.drain (hprompt.after events) hend
    rw [startCheck_of_aborted hstore haborted] at *
    refine ⟨rfl, rfl, rfl, hunsent, ?_, ?_, ?_, hdrained⟩
    all_goals rw [hd.share]
    · rcases hend with rfl | rfl <;> rfl
    · rcases hend with rfl | rfl <;> rfl
    · rcases hend with rfl | rfl
      · exact Or.inl rfl
      · exact Or.inr rfl

end

/-! A rejection that has no text -/

/-- One store in Redis on a client that follows a script, and nothing under way. -/
def patient (timeout : ℚ) (owned : Bool) (script : ClientScript ℚ) : Deployment ℚ where
  clock := 1000
  stores := [.redis
    { options :=
        { rate := some (.number 10), capacity := some (.number 2), keyLead := some (.text "test:")
          ttlSeconds := some (.number 60), timeout := some (.number timeout), redis := {} }
      client := 0
      owned
      attempt := none }]
  clients := [⟨.scripted script, .waiting⟩]

theorem patient_reachable (timeout : ℚ) (owned : Bool) (script : ClientScript ℚ) :
    (patient timeout owned script).Reachable := by
  refine Fresh.reachable ⟨rfl, rfl, rfl, rfl, rfl, rfl, fun i => ?_⟩
  cases i <;> rfl

def lone (owned : Bool) (script : ClientScript ℚ) : Deployment ℚ := patient 50 owned script

theorem lone_reachable (owned : Bool) (script : ClientScript ℚ) :
    (lone owned script).Reachable := patient_reachable 50 owned script

/-- The script fails with a value that cannot be put into words. -/
def wordlessScript : ClientScript ℚ :=
  { eval := [.settles none (.error (.bare (some (.object [(Value.textField, .number 1)])))) none] }

/-- Once the script has failed so, timer and listener are released and the check is never settled.
With a timeout that is too long for a timer the deadline comes after one millisecond. -/
theorem deadline_protocol_wordless :
    let s := lone false wordlessScript
    let signal := some (.named "stop")
    let ask : Start ℚ := .ask 0 (some (.text "k")) (some (.number 1000)) signal
    let asked := s.start ask
    let long := patient 3000000000 false {}
    s.Reachable ∧ s.isAborted signal = false ∧
      asked.Awaits 0 ⟨1050, .deadline 0 "50"⟩ signal ∧
      (asked.after (List.replicate 4 (.work 0))).ComesTo 0 none ∧
      long.Reachable ∧ (long.start ask).Awaits 0 ⟨1001, .deadline 0 "3000000000"⟩ signal := by
  intro s signal ask asked long
  have hs : s.Reachable := lone_reachable false wordlessScript
  have hlong : long.Reachable := patient_reachable _ _ _
  have htext : textOrMissing? (some (.number (50 : ℚ))) = some "50" := rfl
  have hlaw := deadline_protocol hs (i := 0) rfl htext nofun (some (.text "k"))
    (some (.number 1000)) signal
  obtain ⟨-, hlive, -⟩ := hlaw []
  have hdue : s.dueAfter (numeral (some (.number 50))) = 1050 := by decide +kernel
  obtain ⟨-, hended, -⟩ := (hlaw (List.replicate 4 (.work 0))).2.1 rfl
  obtain ⟨verdict?, hbrings, hcomes⟩ := hended _ rfl
  obtain rfl : verdict? = none := by
    cases hbrings with
    | unheard => rfl
    | rejected h => cases h
    | unavailable _ hmessage => cases hmessage
  have hlongText : textOrMissing? (some (.number (3000000000 : ℚ))) = some "3000000000" := rfl
  obtain ⟨hlongDue, hlongLive, -⟩ := deadline_protocol hlong (i := 0) rfl hlongText nofun
    (some (.text "k")) (some (.number 1000)) signal []
  have hafter : long.dueAfter (numeral (some (.number 3000000000))) = 1001 :=
    ((hlongDue 3000000000 rfl (by decide +kernel) (by decide +kernel)).2.2 rfl
      (by decide +kernel)).trans (by decide +kernel)
  exact ⟨hs, rfl, hdue ▸ (hlive rfl).1 rfl, hcomes, hlong, hafter ▸ (hlongLive rfl).1 rfl⟩

end Deployment

end Admission
