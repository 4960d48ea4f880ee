import Admission.Proofs.Deployment.Requests
import Mathlib.Algebra.Order.Group.Multiset
import Mathlib.Data.Multiset.Filter

/-!
Deployments that differ only in who stands at the door.

A request may pass through a limiter on its way to a handler, or a guard may let it through to a
route. Either way the limiter is asked the same question; what differs is who asks, whether the end
of the request can abandon the check, and what the decision is turned into. Two deployments are
alike if they agree on everything else, and whatever happens to both of them leaves them alike, as
long as no request goes away while it is held.
-/
namespace Admission

variable {α : Type}

namespace SignalId

/-- Whether callers share a signal by name, and it is not the end of one request. -/
def isNamed : SignalId → Bool
  | .named _ => true
  | .request _ => false

end SignalId

/-- Who asks for a check if a guard stands in for the middleware. -/
def Origin.asGuarded : Origin → Origin
  | .middleware l => .guard l
  | origin => origin

/-- A check as a guard asks for it, which no end of a request abandons. -/
def Check.asGuarded (c : Check α) : Check α :=
  { c with origin := c.origin.asGuarded, signal := c.signal.filter SignalId.isNamed }

def Purpose.asGuarded : Purpose α → Purpose α
  | .check c => .check c.asGuarded
  | purpose => purpose

def Task.asGuarded (task : Task α) : Task α := { task with purpose := task.purpose.asGuarded }

/-- A call as its collaborator sees it, apart from the signal that it is handed. -/
def Call.unsigned : Call α → Call α
  | .storeAllow key now _ => .storeAllow key now .none
  | call => call

/-- How a guard tells what the middleware does with a request. -/
def Exchange.answer : Exchange → Settlement α
  | .handedOn => .admitted
  | .refused _ => .failed .limitExceeded

def Settlement.isDone : Settlement α → Bool
  | .done => true
  | _ => false

theorem Purpose.asGuarded_eq {purpose purpose' : Purpose α}
    (h : purpose'.asGuarded = purpose.asGuarded) :
    (∃ c c', purpose = .check c ∧ purpose' = .check c' ∧ c'.asGuarded = c.asGuarded) ∨
      purpose' = purpose ∧ ∀ c, purpose ≠ .check c := by
  cases purpose <;> cases purpose' <;> simp_all [Purpose.asGuarded]

/-- The signal that a caller hands over with a call. -/
def Start.signal? : Start α → Option SignalId
  | .ask _ _ _ signal | .allow _ _ _ signal | .decide _ _ signal => signal
  | _ => none

namespace Deployment

/-- What the caller of a task is told. A task that only says that it is done tells nothing by that,
and what becomes of a request counts as its answer. -/
def told (s : Deployment α) (t : TaskId) : Multiset (Settlement α) :=
  ((s.exchanges.filter (·.1 == t)).map fun entry => entry.2.answer : List (Settlement α)) +
    ((s.share t).settled.filter fun settlement => !settlement.isDone : List (Settlement α))

/-- What a caller is told at the end of a task. -/
def answers (exchanges : List Exchange) (settlement : Settlement α) : Multiset (Settlement α) :=
  (exchanges.map Exchange.answer : List (Settlement α)) +
    ([settlement].filter fun settlement => !settlement.isDone : List (Settlement α))

theorem told_settle (s : Deployment α) (u : TaskId) (attached : List TaskId)
    (exchanges : List Exchange) (settlement : Settlement α) (t : TaskId) :
    ({ s with attached, exchanges := s.exchanges ++ exchanges.map (u, ·) }.settle u
      settlement).told t = s.told t + if u = t then answers exchanges settlement else 0 := by
  simp only [told, share, settle, setProgress, List.filter_append, List.map_append]
  by_cases hu : u = t
  · subst hu
    have hown : (exchanges.map (u, ·)).filter (·.1 == u) = exchanges.map (u, ·) :=
      List.filter_eq_self.mpr (by simp)
    rw [if_pos rfl, hown, answers, List.map_map, add_add_add_comm]
    simp only [beq_self_eq_true, List.filter_cons_of_pos, List.filter_nil, List.map_cons,
      List.map_nil, Multiset.coe_add]
    rfl
  · have hnone : (exchanges.map (u, ·)).filter (·.1 == t) = [] :=
      List.filter_eq_nil_iff.mpr (by simp [hu])
    simp [hu, hnone]

/-- Two deployments differ only in who asks for some of their checks, and in what follows from
that. -/
structure Alike (s s' : Deployment α) : Prop where
  clockwork : s'.clockwork = s.clockwork
  clock : s'.clock = s.clock
  timers : s'.timers = s.timers
  agenda : s'.agenda = s.agenda
  tasks : s'.tasks.map Task.asGuarded = s.tasks.map Task.asGuarded
  listeners : s'.listeners.filter (·.1.isNamed) = s.listeners.filter (·.1.isNamed)
  aborted : s'.abortedSignals.filter SignalId.isNamed = s.abortedSignals.filter SignalId.isNamed
  /-- No request goes away before it comes. -/
  unborn : ∀ t, s.tasks.length ≤ t →
    s.isAborted (some (.request t)) = false ∧ s'.isAborted (some (.request t)) = false
  stores : s'.stores = s.stores
  clients : s'.clients = s.clients
  keyspace : s'.keyspace = s.keyspace
  limiters : s'.limiters = s.limiters
  intervals : s'.intervals = s.intervals
  intervalCount : s'.intervalCount = s.intervalCount
  calls : s'.calls.map Call.unsigned = s.calls.map Call.unsigned
  notices : s'.notices = s.notices
  raised : s'.raised = s.raised
  told : s'.told = s.told

namespace Alike

variable {s s' : Deployment α} {t : TaskId} {i : StoreId} {l : LimiterId}

theorem refl (hunborn : ∀ t, s.tasks.length ≤ t → s.isAborted (some (.request t)) = false) :
    Alike s s where
  clockwork := rfl
  clock := rfl
  timers := rfl
  agenda := rfl
  tasks := rfl
  listeners := rfl
  aborted := rfl
  unborn t ht := ⟨hunborn t ht, hunborn t ht⟩
  stores := rfl
  clients := rfl
  keyspace := rfl
  limiters := rfl
  intervals := rfl
  intervalCount := rfl
  calls := rfl
  notices := rfl
  raised := rfl
  told := rfl

/-! Single changes -/

theorem post (h : Alike s s') (turns : Nat) (job : Job α) :
    Alike (s.post turns job) (s'.post turns job) :=
  { h with agenda := congrArg (· ++ [(turns, job)]) h.agenda }

theorem notes (h : Alike s s') (notices : List (Notice α)) :
    Alike { s with notices := s.notices ++ notices }
      { s' with notices := s'.notices ++ notices } :=
  { h with notices := congrArg (· ++ notices) h.notices }

theorem note (h : Alike s s') (notice : Notice α) : Alike (s.note notice) (s'.note notice) :=
  h.notes [notice]

theorem raise (h : Alike s s') (fault : Fault α) : Alike (s.raise fault) (s'.raise fault) :=
  { h with raised := congrArg (· ++ [fault]) h.raised }

theorem record (h : Alike s s') {call call' : Call α} (hcall : call'.unsigned = call.unsigned) :
    Alike (s.record call) (s'.record call') :=
  { h with calls := by simp [Deployment.record, h.calls, hcall] }

theorem setTimer [Scalar α] (h : Alike s s') (delay : α) (alarm : Alarm α) :
    Alike (s.setTimer delay alarm) (s'.setTimer delay alarm) :=
  { h with timers := by simp [Deployment.setTimer, dueAfter, h.timers, h.clock, h.clockwork] }

theorem setStore (h : Alike s s') (i : StoreId) (store : Store α) :
    Alike (s.setStore i store) (s'.setStore i store) :=
  { h with stores := congrArg (·.set i store) h.stores }

theorem setLimiter (h : Alike s s') (l : LimiterId) (limiter : Limiter α) :
    Alike (s.setLimiter l limiter) (s'.setLimiter l limiter) :=
  { h with limiters := congrArg (·.set l limiter) h.limiters }

theorem setClient (h : Alike s s') (i : ClientId) (client : Client α) :
    Alike (s.setClient i client) (s'.setClient i client) :=
  { h with clients := congrArg (·.set i client) h.clients }

theorem setLinkStatus (h : Alike s s') (i : ClientId) (status : LinkStatus) :
    Alike (s.setLinkStatus i status) (s'.setLinkStatus i status) :=
  { h with clients := congrArg (·.modify i fun client => { client with status }) h.clients }

theorem removeInterval (h : Alike s s') (name : String) :
    Alike (s.removeInterval name) (s'.removeInterval name) :=
  { h with
    intervals := congrArg (·.filter (· != name)) h.intervals
    timers := by simp [Deployment.removeInterval, h.timers] }

theorem release (h : Alike s s') (t : TaskId) : Alike (s.release t) (s'.release t) :=
  { h with
    timers := by simp [Deployment.release, h.timers]
    listeners := by
      have hsame := congrArg (List.filter fun l : SignalId × TaskId => l.2 != t) h.listeners
      simp only [Deployment.release, List.filter_filter] at hsame ⊢
      simpa only [Bool.and_comm] using hsame }

theorem setProgress (h : Alike s s') (t : TaskId) (progress : Progress α) :
    Alike (s.setProgress t progress) (s'.setProgress t progress) :=
  { h with
    tasks := by
      have hcomm : ∀ tasks : List (Task α),
          (tasks.modify t fun task => { task with progress }).map Task.asGuarded =
            (tasks.map Task.asGuarded).modify t fun task => { task with progress } := by
        intro tasks
        refine List.ext_getElem? fun u => ?_
        simp only [List.getElem?_map, List.getElem?_modify]
        cases tasks[u]? with
        | none => rfl
        | some task => by_cases hu : t = u <;> simp [hu, Task.asGuarded]
      simp only [Deployment.setProgress, hcomm, h.tasks]
    unborn := fun u hu => h.unborn u (by simpa [Deployment.setProgress] using hu) }

/-- A task ends with the same answer in both. -/
theorem finish (h : Alike s s') (t : TaskId) {attached attached' : List TaskId}
    {exchanges exchanges' : List Exchange} {settlement settlement' : Settlement α}
    (hanswers : answers exchanges' settlement' = answers exchanges settlement) :
    Alike
      ({ s with attached, exchanges := s.exchanges ++ exchanges.map (t, ·) }.settle t settlement)
      ({ s' with attached := attached',
                 exchanges := s'.exchanges ++ exchanges'.map (t, ·) }.settle t settlement') :=
  { h.setProgress t .ended with
    told := funext fun u => by rw [told_settle, told_settle, h.told, hanswers] }

theorem settle (h : Alike s s') (t : TaskId) (settlement : Settlement α) :
    Alike (s.settle t settlement) (s'.settle t settlement) := by
  have hfinish : Alike
      ({ s with attached := s.attached, exchanges := s.exchanges ++ [].map (t, ·) }.settle t
        settlement)
      ({ s' with attached := s'.attached, exchanges := s'.exchanges ++ [].map (t, ·) }.settle t
        settlement) := h.finish t rfl
  simpa only [List.map_nil, List.append_nil] using hfinish

/-- Two tasks for the same purpose, or for a check that differs in who asks. -/
theorem newTask (h : Alike s s') (i : StoreId) {purpose purpose' : Purpose α}
    (hpurpose : purpose'.asGuarded = purpose.asGuarded) :
    Alike (s.newTask i purpose).2 (s'.newTask i purpose').2 :=
  { h with
    tasks := by simp [Deployment.newTask, h.tasks, Task.asGuarded, hpurpose]
    unborn := fun u hu => h.unborn u (by simp [Deployment.newTask] at hu; omega) }

/-! What a task is -/

theorem length_eq (h : Alike s s') : s'.tasks.length = s.tasks.length := by
  simpa using congrArg List.length h.tasks

/-- A task stands in both at the same point, for the same purpose or for a check that differs in
who asks. -/
theorem task_cases (h : Alike s s') (t : TaskId) :
    s.tasks[t]? = none ∧ s'.tasks[t]? = none ∨
      ∃ task purpose, s.tasks[t]? = some task ∧ s'.tasks[t]? = some { task with purpose } ∧
        purpose.asGuarded = task.purpose.asGuarded := by
  have htask := congrArg (·[t]?) h.tasks
  simp only [List.getElem?_map] at htask
  cases hs : s.tasks[t]? with
  | none => exact Or.inl ⟨rfl, by simpa [hs] using htask⟩
  | some task =>
    rw [hs] at htask
    obtain ⟨⟨i, purpose, progress⟩, hs', hsame⟩ := Option.map_eq_some_iff.mp htask
    obtain ⟨rfl, hpurpose, rfl⟩ := Task.mk.inj hsame
    exact Or.inr ⟨task, purpose, rfl, hs', hpurpose⟩

theorem progress_eq (h : Alike s s') (t : TaskId) :
    s'.tasks[t]?.map Task.progress = s.tasks[t]?.map Task.progress := by
  obtain ⟨hs, hs'⟩ | ⟨task, purpose, hs, hs', -⟩ := h.task_cases t <;> simp [hs, hs']

/-- What a task is for is a check in both, or the same. -/
theorem purpose_cases (h : Alike s s') (t : TaskId) :
    (∃ c c', s.tasks[t]?.map Task.purpose = some (.check c) ∧
      s'.tasks[t]?.map Task.purpose = some (.check c') ∧ c'.asGuarded = c.asGuarded) ∨
    s'.tasks[t]?.map Task.purpose = s.tasks[t]?.map Task.purpose ∧
      ∀ c, s.tasks[t]?.map Task.purpose ≠ some (.check c) := by
  obtain ⟨hs, hs'⟩ | ⟨task, purpose, hs, hs', hpurpose⟩ := h.task_cases t
  · exact Or.inr ⟨by rw [hs, hs'], by simp [hs]⟩
  · obtain ⟨c, c', hc, hc', hsame⟩ | ⟨hsame, hnone⟩ := Purpose.asGuarded_eq hpurpose
    · exact Or.inl ⟨c, c', by simp [hs, hc], by simp [hs', hc'], hsame⟩
    · exact Or.inr ⟨by simp [hs, hs', hsame], fun c => by simpa [hs] using hnone c⟩

/-! Waiting -/

theorem leaveWait (h : Alike s s') (t : TaskId) (stage : Stage) (outcome : Outcome α) :
    Alike (s.leaveWait t stage outcome) (s'.leaveWait t stage outcome) :=
  (h.setProgress t (.leaving stage outcome)).post 0 (.resume t)

/-- A task listens to a signal, if that is shared by name in both, or in neither. -/
theorem listen (h : Alike s s') (t : TaskId) {signal signal' : Option SignalId}
    (hsignal : signal'.filter SignalId.isNamed = signal.filter SignalId.isNamed) :
    Alike { s with listeners := s.listeners ++ signal.toList.map (·, t) }
      { s' with listeners := s'.listeners ++ signal'.toList.map (·, t) } :=
  { h with
    listeners := by
      have hkept : ∀ signal : Option SignalId,
          (signal.toList.map (·, t)).filter (·.1.isNamed) =
            (signal.filter SignalId.isNamed).toList.map (·, t) := by
        rintro (_ | signal)
        · rfl
        · cases hnamed : signal.isNamed <;> simp [Option.filter, hnamed]
      rw [List.filter_append, List.filter_append, h.listeners, hkept, hkept, hsignal] }

theorem startWait [Scalar α] [Textual α] (h : Alike s s') (t : TaskId) (stage : Stage)
    (milliseconds : Option (Value α)) {signal signal' : Option SignalId}
    (hsignal : signal'.filter SignalId.isNamed = signal.filter SignalId.isNamed) :
    Alike (s.startWait t stage milliseconds signal)
      (s'.startWait t stage milliseconds signal') := by
  cases htext : textOrMissing? milliseconds with
  | none =>
    unfold Deployment.startWait
    rw [htext]
    exact h.leaveWait t stage _
  | some text =>
    have hlisten : ∀ (s : Deployment α) (signal : Option SignalId),
        let set := (s.setProgress t (.waiting stage)).setTimer (numeral milliseconds)
          (.deadline t text)
        s.startWait t stage milliseconds signal =
          { set with listeners := set.listeners ++ signal.toList.map (·, t) } := by
      intro s signal
      unfold Deployment.startWait
      rw [htext]
      cases signal <;> simp
    rw [hlisten, hlisten]
    exact ((h.setProgress t _).setTimer _ _).listen t hsignal

theorem endWait (h : Alike s s') (t : TaskId) (outcome? : Option (Outcome α)) :
    Alike (s.endWait t outcome?) (s'.endWait t outcome?) := by
  unfold Deployment.endWait
  rw [h.progress_eq t]
  split
  · exact (h.leaveWait t _ _).release t
  · exact (h.setProgress t .lost).release t
  · exact h

theorem answer [Textual α] (h : Alike s s') (t : TaskId) (outcome : Outcome α) :
    Alike (s.answer t outcome) (s'.answer t outcome) := by
  cases outcome <;> exact h.endWait t _

/-- What is done for one after the other is done in both. -/
theorem foldl {β : Type} {f f' : Deployment α → β → Deployment α}
    (hf : ∀ s s' x, Alike s s' → Alike (f s x) (f' s' x)) (h : Alike s s') (xs : List β) :
    Alike (xs.foldl f s) (xs.foldl f' s') := by
  induction xs generalizing s s' with
  | nil => exact h
  | cons x xs ih => exact ih (hf _ _ x h)

/-- A signal that callers share by name is aborted in both or in neither. -/
theorem isAborted_eq (h : Alike s s') (signal : Option SignalId)
    (hnamed : signal.all SignalId.isNamed = true) : s'.isAborted signal = s.isAborted signal := by
  cases signal with
  | none => rfl
  | some signal =>
    have hkept : ∀ signals : List SignalId,
        (signals.filter SignalId.isNamed).contains signal = signals.contains signal := by
      intro signals
      rw [Bool.eq_iff_iff, List.contains_iff_mem, List.contains_iff_mem, List.mem_filter]
      exact and_iff_left hnamed
    rw [Deployment.isAborted, Deployment.isAborted, ← hkept, h.aborted, hkept]

theorem abort (h : Alike s s') {signal : SignalId} (hnamed : signal.isNamed = true) :
    Alike (s.abort signal) (s'.abort signal) := by
  have hcontains : s'.abortedSignals.contains signal = s.abortedSignals.contains signal :=
    h.isAborted_eq (some signal) hnamed
  have hwaiting : ∀ listeners : List (SignalId × TaskId),
      (listeners.filter (·.1.isNamed)).filter (·.1 == signal) =
        listeners.filter (·.1 == signal) := by
    intro listeners
    rw [List.filter_filter]
    refine List.filter_congr fun l _ => ?_
    cases hl : l.1 == signal with
    | false => rfl
    | true => rw [eq_of_beq hl, hnamed]; rfl
  have hother : ∀ (s : Deployment α) (t : TaskId),
      ({ s with abortedSignals := signal :: s.abortedSignals } : Deployment α).isAborted
        (some (.request t)) = s.isAborted (some (.request t)) := by
    intro s t
    cases signal with
    | request u => cases hnamed
    | named name => simp [Deployment.isAborted]
  have hlisteners : s'.listeners.filter (·.1 == signal) = s.listeners.filter (·.1 == signal) := by
    rw [← hwaiting, h.listeners, hwaiting]
  have haborted : Alike { s with abortedSignals := signal :: s.abortedSignals }
      { s' with abortedSignals := signal :: s'.abortedSignals } :=
    { h with
      aborted := by
        rw [List.filter_cons_of_pos hnamed, List.filter_cons_of_pos hnamed, h.aborted]
      unborn := fun t ht => (h.unborn t ht).imp (hother s t).trans (hother s' t).trans }
  unfold Deployment.abort
  dsimp only
  rw [hcontains, hlisteners]
  split
  · exact h
  · exact haborted.foldl (fun s s' t hs => hs.endWait t _) _

/-! Clients -/

theorem evalHere [Scalar α] [Textual α] (h : Alike s s') (evaluation : Evaluation α) :
    ∃ reply u u', s.evalHere evaluation = (reply, u) ∧ s'.evalHere evaluation = (reply, u') ∧
      Alike u u' := by
  unfold Deployment.evalHere
  cases evaluation.command? with
  | none => exact ⟨_, s, s', rfl, rfl, h⟩
  | some command =>
    have hran : Shared.run .textual s'.clock command s'.keyspace =
        Shared.run .textual s.clock command s.keyspace := by rw [h.clock, h.keyspace]
    dsimp only
    rw [hran]
    obtain ⟨answer, keyspace⟩ := Shared.run .textual s.clock command s.keyspace
    have hkept : Alike { s with keyspace } { s' with keyspace } := { h with keyspace := rfl }
    cases answer <;> exact ⟨_, _, _, rfl, rfl, hkept⟩

/-- A client replies the same in both. -/
theorem callClient [Scalar α] [Textual α] (h : Alike s s') (i : ClientId) (call : ClientCall α) :
    ∃ reply u u', s.callClient i call = (reply, u) ∧ s'.callClient i call = (reply, u') ∧
      Alike u u' := by
  unfold Deployment.callClient
  rw [h.clients]
  rcases s.clients[i]? with _ | ⟨script | _ | _, status⟩
  · exact ⟨_, s, s', rfl, rfl, h⟩
  · exact ⟨_, _, _, rfl, rfl, (h.setClient i _).record rfl⟩
  · cases call with
    | eval evaluation => exact h.evalHere evaluation
    | _ => exact ⟨_, s, s', rfl, rfl, h⟩
  · exact ⟨_, s, s', rfl, rfl, h⟩

theorem arrange [Scalar α] (h : Alike s s') (reply : Reply α) (turnsNow turnsLater : Nat)
    (job : Outcome α → Job α) :
    Alike (s.arrange reply turnsNow turnsLater job) (s'.arrange reply turnsNow turnsLater job) := by
  cases reply with
  | throws fault => exact h
  | never => exact h
  | settles delay outcome status =>
    cases delay with
    | none => exact h.post _ _
    | some delay => exact h.setTimer _ _

theorem arrangeLink [Scalar α] (h : Alike s s') (i : StoreId) (client : ClientId)
    (reply : Reply α) : Alike (s.arrangeLink i client reply) (s'.arrangeLink i client reply) := by
  cases reply with
  | throws fault => exact h
  | never => exact h.setLinkStatus _ _
  | settles delay outcome status =>
    cases delay with
    | none => exact h.post _ _
    | some delay => exact (h.setLinkStatus _ _).setTimer _ _

theorem linkStatus_eq (h : Alike s s') (i : ClientId) : s'.linkStatus i = s.linkStatus i := by
  rw [Deployment.linkStatus, Deployment.linkStatus, h.clients]

theorem connectFor [Scalar α] [Textual α] (h : Alike s s') (t : TaskId) (i : StoreId)
    (store : RedisStore α) (whenReady : Job α) :
    ∃ fault? u u', s.connectFor t i store whenReady = (fault?, u) ∧
      s'.connectFor t i store whenReady = (fault?, u') ∧ Alike u u' := by
  unfold Deployment.connectFor
  cases store.attempt with
  | some waiters => exact ⟨_, _, _, rfl, rfl, h.setStore i _⟩
  | none =>
    dsimp only
    rw [h.linkStatus_eq]
    split
    · obtain ⟨reply, u, u', hs, hs', hcalled⟩ := h.callClient store.client .connect
      have hlinked := hcalled.setStore i (.redis { store with attempt := some [t] })
      rw [hs, hs']
      cases reply with
      | throws fault => exact ⟨_, u, u', rfl, rfl, hcalled⟩
      | _ => exact ⟨_, _, _, rfl, rfl, hlinked.arrangeLink i store.client _⟩
    · exact ⟨_, _, _, rfl, rfl, h.post 0 whenReady⟩

theorem wake (h : Alike s s') (outcome : Outcome α) (t : TaskId) :
    Alike (wake outcome s t) (wake outcome s' t) := by
  unfold Deployment.wake
  obtain ⟨c, c', hc, hc', -⟩ | ⟨hsame, hnone⟩ := h.purpose_cases t
  · rw [hc, hc']
    cases outcome <;> exact h.post _ _
  · rw [hsame]
    split
    · next c _ hc => exact absurd hc (hnone c)
    · next c _ hc => exact absurd hc (hnone c)
    · exact h.post _ _
    · exact h

theorem linkSettled (h : Alike s s') (i : StoreId) (outcome : Outcome α) (status : LinkStatus) :
    Alike (s.linkSettled i outcome status) (s'.linkSettled i outcome status) := by
  unfold Deployment.linkSettled
  rw [h.stores]
  rcases s.stores[i]? with _ | _ | store | _
  · exact h
  · exact h
  · refine ((h.setLinkStatus _ _).setStore _ _).foldl (fun s s' t hs => hs.wake outcome t) _
  · exact h

/-! Checks -/

end Alike

/-- What a check leads to does not depend on whether a guard asks for it. -/
theorem reportOf_asGuarded [Scalar α] [Textual α] (s : Deployment α) (c : Check α) :
    s.reportOf c.asGuarded = s.reportOf c := by
  funext verdict
  simp only [reportOf, Check.asGuarded]
  cases c.origin <;> rfl

/-- The callers of a check are told the same, whether a guard asks for it or not. -/
theorem answers_asGuarded [Scalar α] [Textual α] (s : Deployment α) (c : Check α)
    (verdict : Except (Fault α) Bool) :
    answers (s.exchangeOf c.asGuarded verdict).toList (s.settlementOf c.asGuarded verdict) =
      answers (s.exchangeOf c verdict).toList (s.settlementOf c verdict) := by
  simp only [exchangeOf, settlementOf, Check.asGuarded]
  cases c.origin with
  | middleware l =>
    dsimp only [Origin.asGuarded]
    obtain fault | _ | _ := s.rulingOf l c.bucket verdict <;> rfl
  | _ => rfl

namespace Alike

variable [Scalar α] [Textual α] {s s' : Deployment α}

omit [Scalar α] [Textual α] in
theorem config?_eq (h : Alike s s') (l : LimiterId) : s'.config? l = s.config? l := by
  rw [config?, config?, h.limiters]

theorem conclude (h : Alike s s') (t : TaskId) (verdict : Except (Fault α) Bool) :
    Alike (s.conclude t verdict) (s'.conclude t verdict) := by
  obtain ⟨c, c', hc, hc', hsame⟩ | ⟨hsame, hnone⟩ := h.purpose_cases t
  · have hreport : s'.reportOf c' verdict = s.reportOf c verdict := by
      rw [reportOf_congr h.config?_eq, ← reportOf_asGuarded, hsame, reportOf_asGuarded]
    have hanswers : answers (s'.exchangeOf c' verdict).toList (s'.settlementOf c' verdict) =
        answers (s.exchangeOf c verdict).toList (s.settlementOf c verdict) := by
      rw [exchangeOf_congr h.config?_eq, settlementOf_congr h.config?_eq, ← answers_asGuarded,
        hsame, answers_asGuarded]
    rw [conclude_eq_settle hc, conclude_eq_settle hc', hreport]
    exact (h.notes (s.reportOf c verdict)).finish t hanswers
  · have hleft : ∀ s : Deployment α,
        (∀ c, s.tasks[t]?.map Task.purpose ≠ some (.check c)) → s.conclude t verdict = s := by
      intro s hnone
      unfold Deployment.conclude
      split
      · next c hc => exact absurd hc (hnone c)
      · rfl
    rw [hleft s hnone, hleft s' (hsame ▸ hnone)]
    exact h

theorem checkMemory (h : Alike s s') (t : TaskId) (i : StoreId)
    (store : MemoryStore Key (Unchecked α)) {c c' : Check α} (hc : c'.asGuarded = c.asGuarded) :
    Alike (s.checkMemory t i store c) (s'.checkMemory t i store c') := by
  obtain ⟨-, -, hbucket, hnow, -⟩ := Check.mk.inj hc
  have hasked := (h.setStore i (.memory (store.attempt c.bucket ⟨c.now⟩).store)).notes
    ((store.attempt c.bucket ⟨c.now⟩).evicted.map Notice.evicted)
  simp only [Deployment.checkMemory, hbucket, hnow]
  cases (store.attempt c.bucket ⟨c.now⟩).allowed with
  | some allowed => exact hasked.post 0 _
  | none => exact hasked.conclude t _

theorem checkScripted (h : Alike s s') (t : TaskId) (i : StoreId) (script : StoreScript α)
    {c c' : Check α} (hc : c'.asGuarded = c.asGuarded) :
    Alike (s.checkScripted t i script c) (s'.checkScripted t i script c') := by
  obtain ⟨-, hkey, -, hnow, -⟩ := Check.mk.inj hc
  have hcall : (Call.storeAllow c'.key c'.now (s'.signalState c'.signal)).unsigned =
      (Call.storeAllow c.key c.now (s.signalState c.signal)).unsigned := by
    rw [hkey, hnow]
    rfl
  unfold Deployment.checkScripted
  obtain ⟨reply, allow⟩ := script.allow.next (.value (.bool true))
  have hasked := (h.setStore i (.scripted { script with allow })).record hcall
  cases reply with
  | throws fault => exact hasked.conclude t _
  | _ => exact hasked.arrange _ 0 0 _

theorem checkRedis (h : Alike s s') (t : TaskId) (i : StoreId) (store : RedisStore α)
    {c c' : Check α} (hc : c'.asGuarded = c.asGuarded)
    (haborted : s'.isAborted c'.signal = s.isAborted c.signal) :
    Alike (s.checkRedis t i store c) (s'.checkRedis t i store c') := by
  obtain ⟨-, -, -, -, hsignal⟩ := Check.mk.inj hc
  unfold Deployment.checkRedis
  rw [haborted]
  split
  · exact h.post 0 _
  · obtain ⟨fault?, u, u', hs, hs', hlinked⟩ := h.connectFor t i store (.evaluate t)
    rw [hs, hs']
    cases fault? with
    | some fault => exact hlinked.post 0 _
    | none => exact hlinked.startWait t .verdict _ hsignal

theorem check (h : Alike s s') (t : TaskId) (i : StoreId) {c c' : Check α}
    (hc : c'.asGuarded = c.asGuarded) (haborted : s'.isAborted c'.signal = s.isAborted c.signal) :
    Alike (s.check t i c) (s'.check t i c') := by
  unfold Deployment.check
  rw [h.stores]
  split
  · exact h.checkMemory t i _ hc
  · exact h.checkScripted t i _ hc
  · exact h.checkRedis t i _ hc haborted
  · exact h

theorem evaluate (h : Alike s s') (t : TaskId) : Alike (s.evaluate t) (s'.evaluate t) := by
  unfold Deployment.evaluate
  obtain ⟨htask, htask'⟩ | ⟨⟨i, purpose, progress⟩, purpose', htask, htask', hpurpose⟩ :=
    h.task_cases t
  · rw [htask, htask']
    exact h
  · rw [htask, htask']
    obtain ⟨c, c', rfl, rfl, hc⟩ | ⟨rfl, hnone⟩ := Purpose.asGuarded_eq hpurpose
    · dsimp only
      rw [h.stores]
      split
      · next store hstore =>
        obtain ⟨-, hkey, -, hnow, -⟩ := Check.mk.inj hc
        have hevaluation : store.options.evaluation? c' = store.options.evaluation? c := by
          simp only [RedisOptions.evaluation?, hkey, hnow]
        rw [hevaluation]
        cases store.options.evaluation? c with
        | none => exact h.post 0 _
        | some evaluation =>
          obtain ⟨reply, u, u', hs, hs', hcalled⟩ := h.callClient store.client (.eval evaluation)
          simp only [hs, hs']
          cases reply with
          | throws fault => exact hcalled.post 0 _
          | _ => exact hcalled.arrange _ 2 1 _
      · exact h
    · cases purpose' with
      | check c => exact absurd rfl (hnone c)
      | _ => exact h

/-! Startup, sweeps and shutdown -/

omit [Scalar α] in
theorem giveUpBoot (h : Alike s s') (t : TaskId) (fault : Fault α) :
    Alike (s.giveUpBoot t fault) (s'.giveUpBoot t fault) := by
  unfold Deployment.giveUpBoot
  cases fault.message? with
  | some message => exact (h.note _).post 0 _
  | none => exact h.post 0 _

theorem bootRedis (h : Alike s s') (t : TaskId) (i : StoreId) (store : RedisStore α) :
    Alike (s.bootRedis t i store) (s'.bootRedis t i store) := by
  obtain ⟨fault?, u, u', hs, hs', hlinked⟩ := h.connectFor t i store (.answer t (.ok none))
  unfold Deployment.bootRedis
  rw [hs, hs']
  cases fault? with
  | some fault => exact hlinked.giveUpBoot t fault
  | none => exact hlinked.startWait t .link _ rfl

theorem boot (h : Alike s s') (t : TaskId) (i : StoreId) (failed : Fault α → Settlement α) :
    Alike (s.boot t i failed) (s'.boot t i failed) := by
  unfold Deployment.boot
  rw [h.stores]
  split
  · exact h.post 0 _
  · exact h.bootRedis t i _
  · next script _ =>
    have hasked : Alike (s.record .storeStart) (s'.record .storeStart) := h.record rfl
    cases script.start.getD (.value .null) with
    | throws fault => exact hasked.settle t _
    | _ => exact hasked.arrange _ 0 0 _
  · exact h

theorem bootLinked (h : Alike s s') (t : TaskId) (store : RedisStore α) (outcome : Outcome α) :
    Alike (s.bootLinked t store outcome) (s'.bootLinked t store outcome) := by
  cases outcome with
  | error fault => exact h.giveUpBoot t fault
  | ok answer =>
    obtain ⟨reply, u, u', hs, hs', hcalled⟩ := h.callClient store.client .ping
    unfold Deployment.bootLinked
    rw [hs, hs']
    cases reply with
    | throws fault => exact hcalled.giveUpBoot t fault
    | _ => exact (hcalled.arrange _ 0 0 _).startWait t .ping _ rfl

omit [Scalar α] in
theorem bootAnswered (h : Alike s s') (t : TaskId) (store : RedisStore α) (outcome : Outcome α) :
    Alike (s.bootAnswered t store outcome) (s'.bootAnswered t store outcome) := by
  cases outcome with
  | error fault => exact h.giveUpBoot t fault
  | ok answer =>
    unfold Deployment.bootAnswered
    cases textOrMissing? store.options.keyLead with
    | some keyLead => exact (h.note _).post 0 _
    | none => exact h.giveUpBoot t _

omit [Textual α] in
theorem registerSweep (h : Alike s s') (t : TaskId) (l : LimiterId) (limiter : Limiter α) :
    Alike (s.registerSweep t l limiter) (s'.registerSweep t l limiter) := by
  let period := limiter.config.sweepInterval
  let name := sweepName (s.intervalCount + 1)
  have hcounted : Alike { s with intervalCount := s.intervalCount + 1 }
      { s' with intervalCount := s.intervalCount + 1 } := { h with intervalCount := rfl }
  have hset := hcounted.setTimer period (.sweep l name period)
  have hregistered : ∀ {s s' : Deployment α}, Alike s s' →
      Alike { s with intervals := s.intervals ++ [name] }
        { s' with intervals := s.intervals ++ [name] } := fun h => { h with intervals := rfl }
  have hdone := (((hregistered hset).setLimiter l { limiter with interval := some name }).note
    (.sweeping period)).settle t .done
  unfold Deployment.registerSweep
  rw [h.intervalCount]
  dsimp only
  rw [hset.intervals]
  split
  · exact hset.settle t _
  · exact hdone

omit [Textual α] in
theorem limiterReady (h : Alike s s') (t : TaskId) (l : LimiterId) (limiter : Limiter α)
    (store : Store α) :
    Alike (s.limiterReady t l limiter store) (s'.limiterReady t l limiter store) := by
  unfold Deployment.limiterReady
  dsimp only
  split
  · exact (h.note _).registerSweep t l limiter
  · exact (h.note _).settle t _

omit [Textual α] in
theorem started (h : Alike s s') (t : TaskId) (outcome : Outcome α) :
    Alike (s.started t outcome) (s'.started t outcome) := by
  cases outcome with
  | error fault => exact h.settle t _
  | ok answer =>
    unfold Deployment.started
    obtain ⟨c, c', hc, hc', -⟩ | ⟨hsame, -⟩ := h.purpose_cases t
    · rw [hc, hc']
      exact h.settle t _
    · rw [hsame]
      split
      · exact h.settle t _
      · rw [h.limiters]
        split
        · rw [h.stores]
          split
          · exact h.limiterReady t _ _ _
          · exact h.settle t _
        · exact h.settle t _
      · exact h.settle t _

theorem sweepStore (h : Alike s s') (i : StoreId) (now : Option (Value α)) :
    Alike (s.sweepStore i now).2 (s'.sweepStore i now).2 := by
  unfold Deployment.sweepStore
  rw [h.stores]
  split
  · next store _ =>
    have hswept := h.setStore i (.memory (store.attemptSweep ⟨now⟩).2)
    dsimp only
    split
    · exact hswept.raise _
    · split
      · exact hswept
      · exact hswept.note _
  · next script _ =>
    cases script.sweep with
    | none => exact h
    | some counts => exact (h.setStore i _).record rfl
  · exact h

theorem sweep (h : Alike s s') (l : LimiterId) (now : Option (Value α)) :
    Alike (s.sweep l now).2 (s'.sweep l now).2 := by
  unfold Deployment.sweep
  rw [h.limiters]
  cases s.limiters[l]? with
  | none => exact h
  | some limiter => exact h.sweepStore limiter.store now

omit [Scalar α] [Textual α] in
theorem cancelSweep (h : Alike s s') (l : LimiterId) :
    Alike (s.cancelSweep l) (s'.cancelSweep l) := by
  unfold Deployment.cancelSweep
  rw [h.limiters]
  cases s.limiters[l]? with
  | none => exact h
  | some limiter =>
    dsimp only
    cases limiter.interval with
    | none => exact h
    | some name => exact (h.removeInterval name).setLimiter l _

omit [Scalar α] [Textual α] in
theorem finishClose (h : Alike s s') (t : TaskId) (closer : Closer) (answer : Option (Value α)) :
    Alike (s.finishClose t closer answer) (s'.finishClose t closer answer) := by
  cases closer with
  | store | limiter => exact h.settle t _
  | application =>
    have hnone : Alike s.removeIntervals s'.removeIntervals := by
      unfold Deployment.removeIntervals
      rw [h.intervals]
      exact h.foldl (fun s s' name hs => hs.removeInterval name) _
    exact hnone.settle t _

omit [Scalar α] in
theorem disconnect (h : Alike s s') (t : TaskId) (closer : Closer) (fault : Fault α) :
    Alike (s.disconnect t closer fault) (s'.disconnect t closer fault) := by
  unfold Deployment.disconnect
  cases fault.message? with
  | some message => exact ((h.note _).record rfl).finishClose t closer _
  | none => exact h.settle t _

theorem close (h : Alike s s') (t : TaskId) (i : StoreId) (closer : Closer) :
    Alike (s.close t i closer) (s'.close t i closer) := by
  unfold Deployment.close
  rw [h.stores]
  split
  · exact (h.setStore i _).post 0 _
  · next store _ =>
    split
    · obtain ⟨reply, u, u', hs, hs', hcalled⟩ := h.callClient store.client .quit
      rw [hs, hs']
      cases reply with
      | throws fault => exact hcalled.disconnect t closer fault
      | _ => exact hcalled.arrange _ 0 0 _
    · exact h.post 0 _
  · next script _ =>
    have hasked : Alike (s.record .storeClose) (s'.record .storeClose) := h.record rfl
    cases script.close.getD (.value .null) with
    | throws fault => exact hasked.settle t _
    | _ => exact hasked.arrange _ 0 0 _
  · exact h

omit [Scalar α] in
theorem closed (h : Alike s s') (t : TaskId) (outcome : Outcome α) :
    Alike (s.closed t outcome) (s'.closed t outcome) := by
  unfold Deployment.closed
  obtain ⟨hs, hs'⟩ | ⟨⟨i, purpose, progress⟩, purpose', hs, hs', hpurpose⟩ := h.task_cases t
  · rw [hs, hs']
    exact h
  · rw [hs, hs']
    obtain ⟨c, c', rfl, rfl, -⟩ | ⟨rfl, -⟩ := Purpose.asGuarded_eq hpurpose
    · exact h
    · cases purpose' with
      | close closer =>
        dsimp only
        rw [h.stores]
        split
        · exact h.finishClose t closer _
        · exact h.disconnect t closer _
        · exact h.finishClose t closer _
        · exact h.settle t _
      | _ => exact h

/-! Work and timers -/

theorem resume (h : Alike s s') (t : TaskId) : Alike (s.resume t) (s'.resume t) := by
  unfold Deployment.resume
  obtain ⟨hs, hs'⟩ | ⟨⟨i, purpose, progress⟩, purpose', hs, hs', -⟩ := h.task_cases t
  · rw [hs, hs']
    exact h
  · rw [hs, hs']
    cases progress with
    | leaving stage outcome =>
      dsimp only
      rw [h.stores]
      split
      · exact h.post 0 _
      · exact h.bootLinked t _ _
      · exact h.bootAnswered t _ _
      · exact h
    | _ => exact h

theorem run (h : Alike s s') (job : Job α) : Alike (s.run job) (s'.run job) := by
  cases job with
  | evaluate t => exact h.evaluate t
  | answer t outcome => exact h.answer t outcome
  | resume t => exact h.resume t
  | conclude t verdict => exact h.conclude t verdict
  | linkSettled i outcome status => exact h.linkSettled i outcome status
  | started t outcome => exact h.started t outcome
  | closed t outcome => exact h.closed t outcome

theorem turn (h : Alike s s') (entry : Nat × Job α) : Alike (s.turn entry) (s'.turn entry) := by
  obtain ⟨_ | turns, job⟩ := entry
  · exact h.run job
  · exact h.post turns job

theorem fire (h : Alike s s') (alarm : Alarm α) : Alike (s.fire alarm) (s'.fire alarm) := by
  cases alarm with
  | deadline t milliseconds => exact h.endWait t _
  | reply turns job => exact h.post turns job
  | sweep l name period =>
    unfold Deployment.fire
    dsimp only
    rw [h.clock]
    exact (h.sweep l _).setTimer period _

/-! Calls -/

omit [Scalar α] [Textual α] in
/-- Which requests are held makes no difference. -/
theorem attached (h : Alike s s') (attached attached' : List TaskId) :
    Alike { s with attached } { s' with attached := attached' } := { h with }

theorem startCheck (h : Alike s s') (i : StoreId) {c c' : Check α} (hc : c'.asGuarded = c.asGuarded)
    (haborted : s'.isAborted c'.signal = s.isAborted c.signal) :
    Alike (s.startCheck i c) (s'.startCheck i c') := by
  have hnew : Alike (s.newTask i (.check c)).2 (s'.newTask i (.check c')).2 :=
    h.newTask i (congrArg Purpose.check hc)
  show Alike ((s.newTask i (.check c)).2.check s.tasks.length i c)
    ((s'.newTask i (.check c')).2.check s'.tasks.length i c')
  rw [h.length_eq]
  exact hnew.check s.tasks.length i hc haborted

omit [Scalar α] [Textual α] in
theorem timeOr_eq (h : Alike s s') (now : Option (Value α)) : s'.timeOr now = s.timeOr now := by
  rw [timeOr, timeOr, h.clock]

theorem startRequest (h : Alike s s') (limiter : Limiter α) {origin origin' : Origin}
    (horigin : origin'.asGuarded = origin.asGuarded) (request : Option (Request α))
    {signal signal' : Option SignalId}
    (hsignal : signal'.filter SignalId.isNamed = signal.filter SignalId.isNamed)
    (haborted : s'.isAborted signal' = s.isAborted signal) (failed : Fault α → Settlement α) :
    Alike (s.startRequest limiter origin request signal failed)
      (s'.startRequest limiter origin' request signal' failed) := by
  have hcheck : ∀ key bucket,
      Check.asGuarded ⟨origin', key, bucket, s.timeOr none, signal'⟩ =
        Check.asGuarded ⟨origin, key, bucket, s.timeOr none, signal⟩ := by
    intro key bucket
    simp only [Check.asGuarded, horigin, hsignal]
  unfold Deployment.startRequest
  rw [h.timeOr_eq, h.length_eq]
  cases limiter.config.keyRule.key request with
  | ok key => exact h.startCheck limiter.store (hcheck _ _) haborted
  | error e =>
    let failing (origin : Origin) (signal : Option SignalId) : Purpose α :=
      .check ⟨origin, none, .missing, s.timeOr none, signal⟩
    have hnew : Alike (s.newTask limiter.store (failing origin signal)).2
        (s'.newTask limiter.store (failing origin' signal')).2 :=
      h.newTask limiter.store (congrArg Purpose.check (hcheck none .missing))
    show Alike (((s.newTask limiter.store (failing origin signal)).2.detach s.tasks.length).settle
        s.tasks.length _)
      (((s'.newTask limiter.store (failing origin' signal')).2.detach s'.tasks.length).settle
        s'.tasks.length _)
    rw [h.length_eq]
    exact (hnew.attached _ _).settle s.tasks.length _

omit [Scalar α] [Textual α] in
theorem refuse (h : Alike s s') (purpose : Purpose α) :
    Alike (s.refuse purpose) (s'.refuse purpose) := by
  have hnew : Alike (s.newTask s.stores.length purpose).2 (s'.newTask s.stores.length purpose).2 :=
    h.newTask s.stores.length rfl
  show Alike ((s.newTask s.stores.length purpose).2.settle s.tasks.length _)
    ((s'.newTask s'.stores.length purpose).2.settle s'.tasks.length _)
  rw [h.stores, h.length_eq]
  exact hnew.settle s.tasks.length _

omit [Scalar α] [Textual α] in
theorem onStore (h : Alike s s') (i : StoreId) (purpose : Purpose α)
    {f : TaskId → Deployment α → Deployment α}
    (hf : ∀ {u u' : Deployment α} t, Alike u u' → Alike (f t u) (f t u')) :
    Alike (s.onStore i purpose f) (s'.onStore i purpose f) := by
  unfold Deployment.onStore
  rw [h.stores]
  split
  · show Alike (f s.tasks.length (s.newTask i purpose).2)
      (f s'.tasks.length (s'.newTask i purpose).2)
    rw [h.length_eq]
    exact hf s.tasks.length (h.newTask i rfl)
  · exact h.refuse purpose

omit [Scalar α] [Textual α] in
theorem onLimiter (h : Alike s s') (l : LimiterId) {f f' : Limiter α → Deployment α}
    (hf : ∀ limiter, Alike (f limiter) (f' limiter)) :
    Alike (s.onLimiter l f) (s'.onLimiter l f') := by
  unfold Deployment.onLimiter
  rw [h.limiters]
  split
  · exact hf _
  · exact h.refuse _

theorem bootLimiter (h : Alike s s') (limiter : Limiter α) (l : LimiterId) :
    Alike (s.bootLimiter limiter l) (s'.bootLimiter limiter l) := by
  have hnew := h.newTask limiter.store (rfl : (Purpose.boot (some l)).asGuarded (α := α) = _)
  show Alike ((s.newTask limiter.store _).2.boot s.tasks.length limiter.store _)
    ((s'.newTask limiter.store _).2.boot s'.tasks.length limiter.store _)
  rw [h.length_eq]
  exact hnew.boot s.tasks.length limiter.store _

theorem closeLimiter (h : Alike s s') (limiter : Limiter α) (l : LimiterId) (closer : Closer) :
    Alike (s.closeLimiter limiter l closer) (s'.closeLimiter limiter l closer) := by
  have hcancelled := h.cancelSweep l
  have hnew : Alike ((s.cancelSweep l).newTask limiter.store (.close closer)).2
      ((s'.cancelSweep l).newTask limiter.store (.close closer)).2 :=
    hcancelled.newTask limiter.store rfl
  show Alike (((s.cancelSweep l).newTask limiter.store _).2.close (s.cancelSweep l).tasks.length
      limiter.store closer)
    (((s'.cancelSweep l).newTask limiter.store _).2.close (s'.cancelSweep l).tasks.length
      limiter.store closer)
  rw [hcancelled.length_eq]
  exact hnew.close _ limiter.store closer

/-- The same call in both. -/
theorem start (h : Alike s s') (call : Start α)
    (hsignal : call.signal?.all SignalId.isNamed = true) :
    Alike (s.start call) (s'.start call) := by
  have hkey : ∀ key, s'.callKey key = s.callKey key := fun key => by
    rw [callKey, callKey, h.length_eq]
  cases call with
  | ask i key now signal =>
    simp only [Deployment.start, hkey]
    exact h.onStore i _ fun t hu => hu.check t i rfl (hu.isAborted_eq signal hsignal)
  | bootStore i => exact h.onStore i _ fun t hu => hu.boot t i _
  | closeStore i => exact h.onStore i _ fun t hu => hu.close t i _
  | allow l key now signal =>
    simp only [Deployment.start, hkey, h.timeOr_eq]
    exact h.onLimiter l fun limiter =>
      h.startCheck limiter.store rfl (h.isAborted_eq signal hsignal)
  | decide l request signal =>
    exact h.onLimiter l fun limiter =>
      h.startRequest limiter rfl request rfl (h.isAborted_eq signal hsignal) _
  | pass l request =>
    refine h.onLimiter l fun limiter => ?_
    obtain ⟨hborn, hborn'⟩ := h.unborn s.tasks.length (Nat.le_refl _)
    have hheld := h.attached (s.attached ++ [s.tasks.length]) (s'.attached ++ [s.tasks.length])
    unfold Deployment.startPass
    rw [h.length_eq]
    refine hheld.startRequest limiter rfl request rfl ?_ _
    exact hborn'.trans hborn.symm
  | enter l request =>
    exact h.onLimiter l fun limiter => h.startRequest limiter rfl request rfl rfl _
  | bootLimiter l => exact h.onLimiter l fun limiter => h.bootLimiter limiter l
  | closeLimiter l => exact h.onLimiter l fun limiter => h.closeLimiter limiter l _
  | shutDown l => exact h.onLimiter l fun limiter => h.closeLimiter limiter l _

/-- A request passes through a limiter in one, and meets a guard in the other. -/
theorem start_enter (h : Alike s s') (l : LimiterId) (request : Option (Request α)) :
    Alike (s.start (.pass l request)) (s'.start (.enter l request)) := by
  have hheld := h.attached (s.attached ++ [s.tasks.length]) s'.attached
  refine h.onLimiter l fun limiter => hheld.startRequest limiter ?_ request ?_ ?_ _
  · rfl
  · rfl
  · exact (h.unborn s.tasks.length (Nat.le_refl _)).1.symm

/-! What happens -/

omit [Scalar α] [Textual α] in
theorem linkFault (h : Alike s s') (i : StoreId) (message : String) :
    Alike (s.linkFault i message) (s'.linkFault i message) := by
  unfold Deployment.linkFault
  rw [h.stores, h.clients]
  split
  · split
    · exact h.note _
    · split
      · exact h.raise _
      · exact h.raise _
      · exact h.raise _
  · exact h.raise _

end Alike

/-- No request goes away as long as it is held, and nobody but the request itself is told of its
end. -/
def Spares (s : Deployment α) : Event α → Prop
  | .start call => call.signal?.all SignalId.isNamed = true
  | .abort signal => signal.isNamed = true
  | .hangUp t => t ∉ s.attached
  | _ => True

/-- What happens to both leaves them alike. -/
theorem Alike.happen [Scalar α] [Textual α] {s s' : Deployment α} (h : Alike s s') {ev : Event α}
    (hspares : s.Spares ev) (hspares' : s'.Spares ev) : Alike (s.happen ev) (s'.happen ev) := by
  cases ev with
  | start call => exact h.start call hspares
  | work n =>
    have htaken : Alike { s with agenda := s.agenda.eraseIdx n }
        { s' with agenda := s.agenda.eraseIdx n } := { h with agenda := rfl }
    unfold Deployment.happen
    dsimp only
    rw [h.agenda]
    split
    · exact htaken.turn _
    · exact h
  | alarm n =>
    have htaken : Alike { s with timers := s.timers.eraseIdx n }
        { s' with timers := s.timers.eraseIdx n } := { h with timers := rfl }
    unfold Deployment.happen
    dsimp only
    rw [h.timers]
    split
    · exact htaken.fire _
    · exact h
  | tick clock => exact { h with clock := rfl }
  | abort signal => exact h.abort hspares
  | hangUp t =>
    show Alike (s.hangUp t) (s'.hangUp t)
    rw [hangUp_eq hspares, hangUp_eq hspares']
    exact h
  | relink client status => exact h.setLinkStatus client status
  | linkFault i message => exact h.linkFault i message
  | sweep l now => exact h.sweep l now

end Deployment

end Admission
