import Admission.Proofs.Deployment.Errand

/-!
The journey of a check on a store in Redis.

Such a check has two parts that run side by side. Its errand goes through the connection to the
script and back with an outcome; its wait ends with the first of an outcome, the deadline and the
signal, and what follows from it. The wait ends without the errand: an errand whose check is no
longer waiting goes on all the same, and what it comes back with finds nobody.
-/
namespace Admission

namespace Deployment

variable {α : Type}

/-- How far a check has come with its wait, and what ended it. -/
inductive Wait (α : Type) where
  | waiting
  | leaving (outcome : Outcome α)
  /-- The check has its turn after its wait. -/
  | resuming (outcome : Outcome α)
  | concluding (outcome : Outcome α)
  | settled (outcome : Outcome α)
  | lost

namespace Wait

def progress : Wait α → Progress α
  | waiting => .waiting .verdict
  | leaving outcome | resuming outcome | concluding outcome => .leaving .verdict outcome
  | settled _ => .ended
  | lost => .lost

def ready [Scalar α] [Textual α] (t : TaskId) : Wait α → Multiset (Job α)
  | leaving _ => {.resume t}
  | concluding outcome => {.conclude t (Fault.verdictOf outcome)}
  | _ => 0

/-- What ended the wait, if it is over; `some none` is an end that nobody hears of. -/
def end? : Wait α → Option (Option (Outcome α))
  | waiting => none
  | leaving outcome | resuming outcome | concluding outcome | settled outcome => some (some outcome)
  | lost => some none

theorem end?_eq_none_iff {w : Wait α} : w.end? = none ↔ w = waiting := by
  cases w <;> simp [end?]

/-- Whether the check is not having its turn. -/
def Rests : Wait α → Prop
  | resuming _ => False
  | _ => True

end Wait

/-- A check on a store in Redis, and what is fixed when it begins to wait. -/
structure Journey (α : Type) where
  task : TaskId
  store : StoreId
  remote : RedisStore α
  check : Check α
  due : α
  milliseconds : String
  /-- What a verdict settles the check with. -/
  settlement : Except (Fault α) Bool → Settlement α

/-- What the client of a store replies to the script that is sent for a check. -/
def scriptReply [Scalar α] [Textual α] (s : Deployment α) (store : RedisStore α) (c : Check α) :
    Reply α :=
  match store.options.evaluation? c with
  | some evaluation => (s.callClient store.client (.eval evaluation)).1
  | none => .throws .wordless

/-- How an errand goes on, given what the client replies to the script. -/
inductive Errand.Step (reply : Option (Outcome α)) : Option (Act α) → Errand α → Errand α → Prop
  | rest (e : Errand α) : Step reply none e e
  | linked (outcome : Outcome α) : Step reply (some (.links outcome)) .linking (.linked outcome)
  | sent {outcome : Outcome α} (h : reply = some outcome) :
      Step reply (some .sends) .sending (.awaiting outcome)
  | replied {outcome : Outcome α} (h : reply = some outcome) :
      Step reply (some .sends) .sending (.told outcome)
  | unanswered (h : reply = none) : Step reply (some .sends) .sending .finished
  | arrived (outcome : Outcome α) : Step reply (some .arrives) (.awaiting outcome) (.told outcome)
  | delivered (outcome : Outcome α) :
      Step reply (some (.delivers outcome)) (.told outcome) .finished

/-- If a call connected the client of a store now, it would be given something to wait for. -/
def Promises [Scalar α] [Textual α] (s : Deployment α) (store : RedisStore α) : Prop :=
  store.owned = true → store.attempt = none → s.linkStatus store.client = .waiting →
    ∀ fault, (s.callClient store.client .connect).1 ≠ .throws fault

theorem Promises.linkNow?_ne_error [Scalar α] [Textual α] {s : Deployment α} {i : StoreId}
    {store : RedisStore α} (h : s.Promises store) (hstore : s.remote? i = some store)
    (fault : Fault α) : s.linkNow? i ≠ some (.error fault) := by
  unfold linkNow?
  simp only [hstore]
  split
  · nofun
  · next hattempt =>
    split
    · next hopens =>
      obtain ⟨howned, hstatus⟩ := Bool.and_eq_true_iff.mp hopens
      have hnone : store.attempt = none := by simpa using hattempt
      split
      · next thrown hthrows =>
        exact absurd hthrows (h howned hnone (beq_iff_eq.mp hstatus) thrown)
      · nofun
    · nofun

theorem scriptReply_taken [Scalar α] [Textual α] (s : Deployment α) (n : Nat) (store : RedisStore α)
    (c : Check α) : (s.taken (.work n)).scriptReply store c = s.scriptReply store c := by
  unfold scriptReply
  split
  · exact reply_congr s (s.taken (.work n)) rfl rfl rfl _ _
  · rfl

namespace Journey

variable [Scalar α] [Textual α]

def deadline (j : Journey α) : Timer α := ⟨j.due, .deadline j.task j.milliseconds⟩

/-- What the check has in a deployment. -/
def share (j : Journey α) (e : Errand α) (w : Wait α) : Share α where
  deadlines := match w with
    | .waiting => [j.deadline]
    | _ => []
  listeners := match w with
    | .waiting => j.check.signal.toList
    | _ => []
  settled := match w with
    | .settled outcome => [j.settlement (Fault.verdictOf outcome)]
    | _ => []
  ready := e.ready j.task + w.ready j.task
  awaited := e.awaited j.task
  queued := e.queued j.store

/-- The check stands so in a deployment. -/
structure Stands (j : Journey α) (s : Deployment α) (e : Errand α) (w : Wait α) : Prop where
  remote : s.fixed? j.store = some { j.remote with attempt := none }
  task : s.tasks[j.task]? = some ⟨j.store, .check j.check, w.progress⟩
  share : s.share j.task = j.share e w
  settlement : s.settlementOf j.check = j.settlement

variable {j : Journey α} {s s' : Deployment α} {e : Errand α} {w : Wait α} {outcome : Outcome α}

/-- The check as a task that sends an errand. -/
def caller (j : Journey α) : Caller α := ⟨j.task, j.store, j.remote, .check j.check⟩

omit [Scalar α] [Textual α] in
@[simp] theorem caller_task (j : Journey α) : j.caller.task = j.task := rfl

omit [Scalar α] [Textual α] in
@[simp] theorem caller_store (j : Journey α) : j.caller.store = j.store := rfl

/-- What the check has apart from its errand. -/
def own (j : Journey α) (w : Wait α) : Share α :=
  { j.share .finished w with ready := w.ready j.task }

theorem Stands.caller (h : j.Stands s e w) : j.caller.Stands s e w.progress (j.own w) :=
  ⟨h.remote, h.task, h.share⟩

theorem stands_of_caller (h : j.caller.Stands s e w.progress (j.own w))
    (hsettlement : s.settlementOf j.check = j.settlement) : j.Stands s e w :=
  ⟨h.remote, h.task, h.share, hsettlement⟩

theorem Stands.lt (h : j.Stands s e w) : j.task < s.tasks.length := h.caller.lt

theorem Stands.exists_remote (h : j.Stands s e w) :
    ∃ attempt, s.remote? j.store = some { j.remote with attempt } := h.caller.exists_remote

theorem Stands.eq_waiting (h : j.Stands s e w) {stage : Stage}
    (hwaiting : s.tasks[j.task]?.map Task.progress = some (.waiting stage)) : w = .waiting := by
  rw [h.task] at hwaiting
  cases w with
  | waiting => rfl
  | _ => cases hwaiting

/-- Moves for other tasks leave the check where it stands. -/
theorem Stands.moves (h : j.Stands s e w) {p : Scope α} (hmoves : Moves p s s')
    (ht : ¬p.task j.task) (hjob : ∀ job, p.job job → job.owner? ≠ some j.task)
    (hunlink : ∀ i, p.unlink i → (s.share j.task).queued i = 0) : j.Stands s' e w :=
  stands_of_caller (h.caller.moves hmoves ht hjob hunlink)
    ((hmoves.settlementOf_eq j.check).trans h.settlement)

/-- What does not concern the check leaves it where it stands. -/
theorem Stands.happen_other (h : j.Stands s e w) (hs : s.Prompt) {ev : Event α}
    (hother : ¬s.Concerns j.task ev) : j.Stands (s.happen ev) e w :=
  stands_of_caller (h.caller.happen_other hs hother)
    ((settlementOf_happen hs ev j.check).trans h.settlement)

/-! Work that becomes ready -/

theorem Stands.post_evaluate (h : j.Stands s .finished w) (turns : Nat) :
    j.Stands (s.post turns (.evaluate j.task)) .sending w :=
  stands_of_caller (h.caller.post_evaluate turns) h.settlement

theorem Stands.post_answer (h : j.Stands s .finished w) (turns : Nat) (outcome : Outcome α) :
    j.Stands (s.post turns (.answer j.task outcome)) (.told outcome) w :=
  stands_of_caller (h.caller.post_answer turns outcome) h.settlement

theorem Stands.post_resume (h : j.Stands s e (.resuming outcome)) (turns : Nat) :
    j.Stands (s.post turns (.resume j.task)) e (.leaving outcome) :=
  stands_of_caller (h.caller.post_own rfl turns) h.settlement

theorem Stands.post_conclude (h : j.Stands s e (.resuming outcome)) (turns : Nat) :
    j.Stands (s.post turns (.conclude j.task (Fault.verdictOf outcome))) e (.concluding outcome) :=
  stands_of_caller (h.caller.post_own rfl turns) h.settlement

/-! Work that is taken up -/

/-- The work of a check that is ready tells how far it is. -/
theorem Stands.of_ready (h : j.Stands s e w) {n turns : Nat} {job : Job α}
    (hentry : s.agenda[n]? = some (turns, job)) (hown : job.owner? = some j.task) :
    (job = .evaluate j.task ∧ e = .sending ∧ j.Stands (s.taken (.work n)) .finished w) ∨
    (∃ outcome, job = .answer j.task outcome ∧ e = .told outcome ∧
      j.Stands (s.taken (.work n)) .finished w) ∨
    (∃ outcome, job = .resume j.task ∧ w = .leaving outcome ∧
      j.Stands (s.taken (.work n)) e (.resuming outcome)) ∨
    (∃ outcome, job = .conclude j.task (Fault.verdictOf outcome) ∧ w = .concluding outcome ∧
      j.Stands (s.taken (.work n)) e (.resuming outcome)) := by
  obtain ⟨rfl, rfl, htaken⟩ | ⟨outcome, rfl, rfl, htaken⟩ | ⟨hmem, htaken⟩ :=
    h.caller.of_ready hentry hown
  · exact Or.inl ⟨rfl, rfl, stands_of_caller htaken h.settlement⟩
  · exact Or.inr (Or.inl ⟨outcome, rfl, rfl, stands_of_caller htaken h.settlement⟩)
  · cases w with
    | leaving outcome =>
      obtain rfl := Multiset.mem_singleton.mp hmem
      have hresuming := htaken (j.own (.resuming outcome)) rfl
      exact Or.inr (Or.inr (Or.inl
        ⟨outcome, rfl, rfl, stands_of_caller hresuming h.settlement⟩))
    | concluding outcome =>
      obtain rfl := Multiset.mem_singleton.mp hmem
      have hresuming := htaken (j.own (.resuming outcome)) rfl
      exact Or.inr (Or.inr (Or.inr
        ⟨outcome, rfl, rfl, stands_of_caller hresuming h.settlement⟩))
    | _ => exact absurd hmem (Multiset.notMem_zero job)

/-! The end of the wait -/

/-- The wait ends, whatever is left of the deadline. -/
theorem exists_endWait {deadlines : List (Timer α)}
    (h : j.caller.Stands s e (.waiting .verdict) { j.own .waiting with deadlines })
    (hsettlement : s.settlementOf j.check = j.settlement) (outcome? : Option (Outcome α)) :
    ∃ w', w'.end? = some outcome? ∧ w'.Rests ∧ j.Stands (s.endWait j.task outcome?) e w' := by
  have hends : Moves .any s (s.endWait j.task outcome?) :=
    (Moves.refl s).endWait trivial trivial outcome?
  have hkept := (hends.settlementOf_eq j.check).trans hsettlement
  cases outcome? with
  | none => exact ⟨.lost, rfl, trivial, stands_of_caller h.endWait_none hkept⟩
  | some outcome =>
    exact ⟨.leaving outcome, rfl, trivial, stands_of_caller (h.endWait_some outcome) hkept⟩

/-- An event of a wait that is over changes nothing. -/
theorem Stands.endWait_eq (h : j.Stands s e w) (hover : w ≠ .waiting)
    (outcome? : Option (Outcome α)) : s.endWait j.task outcome? = s := by
  refine h.caller.endWait_eq (fun stage => ?_) outcome?
  cases w with
  | waiting => exact absurd rfl hover
  | _ => nofun

/-- What is told to a check ends its wait, unless it is over already. -/
theorem Stands.hear (h : j.Stands s e w) (outcome? : Option (Outcome α)) :
    ∃ w', w'.end? = some (w.end?.getD outcome?) ∧ (w.Rests → w'.Rests) ∧
      j.Stands (s.endWait j.task outcome?) e w' := by
  by_cases hwaiting : w = .waiting
  · subst hwaiting
    obtain ⟨w', hend, hrests, hstands⟩ := exists_endWait h.caller h.settlement outcome?
    exact ⟨w', hend, fun _ => hrests, hstands⟩
  · refine ⟨w, ?_, id, (h.endWait_eq hwaiting outcome?).symm ▸ h⟩
    cases w with
    | waiting => exact absurd rfl hwaiting
    | _ => rfl

theorem Stands.resume (h : j.Stands s e (.resuming outcome)) :
    j.Stands (s.resume j.task) e (.concluding outcome) := by
  have hresume : s.resume j.task = s.post 0 (.conclude j.task (Fault.verdictOf outcome)) := by
    simp only [Deployment.resume, h.task, Wait.progress]
  exact hresume ▸ h.post_conclude 0

theorem Stands.conclude (h : j.Stands s e (.resuming outcome)) :
    j.Stands (s.conclude j.task (Fault.verdictOf outcome)) e (.settled outcome) := by
  obtain ⟨s', heq, htasks, hshare, -⟩ := conclude_eq h.task (Fault.verdictOf outcome)
  have hmoves : Moves .any s (s.conclude j.task (Fault.verdictOf outcome)) :=
    (Moves.refl s).conclude trivial trivial (fun _ _ => trivial) _
  refine ⟨(hmoves.fixed?_eq _).trans h.remote, ?_, ?_,
    (settlementOf_congr hmoves.config?_eq j.check).trans h.settlement⟩
  · rw [heq]
    simp [settle, setProgress, htasks, h.task, Wait.progress]
  · rw [heq, share_settle_own, hshare, h.share, h.settlement]
    rfl

/-! The errand -/

theorem Stands.evaluate (h : j.Stands s .finished w) :
    ∃ e', j.Stands (s.evaluate j.task) e' w ∧
      match (s.scriptReply j.remote j.check).outcome? with
      | some outcome => e' = .awaiting outcome ∨ e' = .told outcome
      | none => e' = .finished := by
  have hkept := ((s.run_moves (.evaluate j.task)).settlementOf_eq j.check).trans h.settlement
  suffices hcaller : ∃ e', j.caller.Stands (s.evaluate j.task) e' w.progress (j.own w) ∧
      match (s.scriptReply j.remote j.check).outcome? with
      | some outcome => e' = .awaiting outcome ∨ e' = .told outcome
      | none => e' = .finished by
    obtain ⟨e', hstands, he⟩ := hcaller
    exact ⟨e', stands_of_caller hstands hkept, he⟩
  obtain ⟨attempt, hremote⟩ := h.exists_remote
  unfold Deployment.evaluate scriptReply
  simp only [h.task, remote?_eq_some_iff.mp hremote]
  cases j.remote.options.evaluation? j.check with
  | none => exact ⟨_, h.caller.post_answer 0 _, Or.inr rfl⟩
  | some evaluation =>
    have hcalled := h.caller.callClient j.remote.client (.eval evaluation)
    dsimp only
    generalize s.callClient j.remote.client (.eval evaluation) = called at hcalled ⊢
    obtain ⟨reply, s'⟩ := called
    cases reply with
    | throws fault => exact ⟨_, hcalled.post_answer 0 _, Or.inr rfl⟩
    | _ => exact hcalled.arrange (by simp) 2 1

/-- The attempt to connect that a check waits for is over. -/
theorem Stands.linkSettled (h : j.Stands s .linking w) (outcome : Outcome α) (status : LinkStatus) :
    j.Stands (s.linkSettled j.store outcome status) (.linked outcome) w :=
  stands_of_caller (h.caller.linkSettled outcome status)
    (((s.run_moves (.linkSettled j.store outcome status)).settlementOf_eq j.check).trans
      h.settlement)

/-! Signals -/

theorem Stands.hear_aborts (h : j.Stands s e w) (line : List TaskId) :
    ∃ w', j.Stands (line.foldl (fun s t => s.endWait t (some (.error .aborted))) s) e w' ∧
      (w.Rests → w'.Rests) ∧
      w'.end? =
        if j.task ∈ line then some (w.end?.getD (some (.error .aborted))) else w.end? := by
  induction line generalizing s w with
  | nil => exact ⟨w, h, id, rfl⟩
  | cons t line ih =>
    by_cases ht : t = j.task
    · subst ht
      obtain ⟨w₁, hend, hrests, hheard⟩ := h.hear (some (.error .aborted))
      obtain ⟨w₂, hstands, hrests', hend'⟩ := ih hheard
      refine ⟨w₂, hstands, hrests' ∘ hrests, ?_⟩
      rw [hend', hend, if_pos List.mem_cons_self]
      split <;> rfl
    · have hother := h.moves (p := { task := (· = t), job := (· = .resume t) })
        ((Moves.refl s).endWait rfl rfl (some (.error .aborted))) (Ne.symm ht)
        (fun job hjob => hjob ▸ fun hown => ht (Option.some.inj hown)) fun _ h => h.elim
      obtain ⟨w₁, hstands, hrests, hend⟩ := ih hother
      refine ⟨w₁, hstands, hrests, ?_⟩
      simpa [Ne.symm ht] using hend

/-- A signal that the check listens to ends its wait. -/
theorem Stands.abort (h : j.Stands s e .waiting) {signal : SignalId}
    (hsignal : j.check.signal = some signal) (hlive : s.isAborted j.check.signal = false) :
    ∃ w', w'.end? = some (some (.error .aborted)) ∧ w'.Rests ∧ j.Stands (s.abort signal) e w' := by
  have hheard : (signal, j.task) ∈ s.listeners := by
    rw [← mem_listeners_share, h.share]
    simp [Journey.share, hsignal]
  have hwaits : j.task ∈ (s.listeners.filter fun l => l.1 == signal).map Prod.snd :=
    List.mem_map.mpr ⟨_, List.mem_filter.mpr ⟨hheard, beq_self_eq_true _⟩, rfl⟩
  have habort : j.Stands { s with abortedSignals := signal :: s.abortedSignals } e .waiting :=
    ⟨h.remote, h.task, h.share, h.settlement⟩
  obtain ⟨w', hstands, hrests, hend⟩ :=
    habort.hear_aborts ((s.listeners.filter fun l => l.1 == signal).map Prod.snd)
  refine ⟨w', by rw [hend, if_pos hwaits]; rfl, hrests trivial, ?_⟩
  have hnew : s.abortedSignals.contains signal = false := by
    rw [hsignal] at hlive
    exact hlive
  unfold Deployment.abort
  rwa [if_neg (Bool.eq_false_iff.mp hnew)]

/-! Steps -/

/-- How a check stands after an event. -/
structure StepsTo (j : Journey α) (s : Deployment α) (ev : Event α) (e : Errand α) (w : Wait α)
    (e' : Errand α) (w' : Wait α) : Prop where
  stands : j.Stands (s.happen ev) e' w'
  errand : Errand.Step (s.scriptReply j.remote j.check).outcome? (s.act? j.task ev) e e'
  wait : w'.end? =
    w.end?.or ((s.ending? j.task j.check.signal ev).map (Ending.outcome? j.milliseconds))
  rests : w.Rests → w'.Rests

/-- An event that only moves work of the check on changes neither its errand nor its wait. -/
theorem StepsTo.rest {ev : Event α} {w' : Wait α} (h : j.Stands (s.happen ev) e w')
    (hact : s.act? j.task ev = none) (hending : s.ending? j.task j.check.signal ev = none)
    (hend : w'.end? = w.end?) (hrests : w.Rests → w'.Rests) : j.StepsTo s ev e w e w' :=
  ⟨h, hact ▸ .rest e, by rw [hend, hending, Option.map_none, Option.or_none], hrests⟩

/-- The script is sent for the check. -/
theorem happen_evaluate {n : Nat} (hentry : s.agenda[n]? = some (0, .evaluate j.task))
    (htaken : j.Stands (s.taken (.work n)) .finished w) :
    ∃ e', j.StepsTo s (.work n) .sending w e' w := by
  have hhappen : s.happen (.work n) = (s.taken (.work n)).evaluate j.task := by
    simp only [Deployment.happen, hentry, taken, turn, run]
  have hact : s.act? j.task (.work n) = some .sends := by simp [act?, hentry]
  have hending : s.ending? j.task j.check.signal (.work n) = none := by simp [ending?, hentry]
  obtain ⟨e', hstands, hreply⟩ := htaken.evaluate
  rw [scriptReply_taken] at hreply
  refine ⟨e', hhappen ▸ hstands, hact ▸ ?_, by rw [hending, Option.map_none, Option.or_none], id⟩
  generalize (s.scriptReply j.remote j.check).outcome? = reply at hreply ⊢
  cases reply with
  | none => exact hreply ▸ .unanswered rfl
  | some outcome => rcases hreply with rfl | rfl <;> constructor <;> rfl

/-- An outcome reaches the check. -/
theorem happen_answer {n : Nat} (hentry : s.agenda[n]? = some (0, .answer j.task outcome))
    (htaken : j.Stands (s.taken (.work n)) .finished w) :
    ∃ w', j.StepsTo s (.work n) (.told outcome) w .finished w' := by
  have hhappen : s.happen (.work n) = (s.taken (.work n)).endWait j.task
      ((Ending.answered outcome).outcome? j.milliseconds) := by
    simp only [Deployment.happen, hentry, taken, turn, run]
    cases outcome <;> rfl
  have hact : s.act? j.task (.work n) = some (.delivers outcome) := by simp [act?, hentry]
  have hending : s.ending? j.task j.check.signal (.work n) = some (.answered outcome) := by
    simp [ending?, hentry]
  obtain ⟨w', hend, hrests, hstands⟩ :=
    htaken.hear ((Ending.answered outcome).outcome? j.milliseconds)
  refine ⟨w', hhappen ▸ hstands, hact ▸ .delivered outcome, ?_, hrests⟩
  rw [hend, hending]
  cases w.end? <;> rfl

theorem Stands.happen_own (h : j.Stands s e w) {n turns : Nat} {job : Job α}
    (hentry : s.agenda[n]? = some (turns, job)) (hown : job.owner? = some j.task) :
    ∃ e' w', j.StepsTo s (.work n) e w e' w' := by
  have hhappen : s.happen (.work n) = (s.taken (.work n)).turn (turns, job) := by
    simp only [happen, hentry, taken]
  have hready := h.of_ready hentry hown
  cases turns with
  | succ turns =>
    -- The work lets a turn pass, and nothing else changes.
    have hact : s.act? j.task (.work n) = none := by simp [act?, hentry]
    have hending : s.ending? j.task j.check.signal (.work n) = none := by simp [ending?, hentry]
    have hrest : j.Stands ((s.taken (.work n)).post turns job) e w := by
      obtain ⟨rfl, rfl, htaken⟩ | ⟨outcome, rfl, rfl, htaken⟩ | ⟨outcome, rfl, rfl, htaken⟩ |
        ⟨outcome, rfl, rfl, htaken⟩ := hready
      · exact htaken.post_evaluate turns
      · exact htaken.post_answer turns outcome
      · exact htaken.post_resume turns
      · exact htaken.post_conclude turns
    exact ⟨e, w, .rest (hhappen ▸ hrest) hact hending rfl id⟩
  | zero =>
    obtain ⟨rfl, rfl, htaken⟩ | ⟨outcome, rfl, rfl, htaken⟩ | ⟨outcome, rfl, rfl, htaken⟩ |
      ⟨outcome, rfl, rfl, htaken⟩ := hready
    · obtain ⟨e', hstep⟩ := happen_evaluate hentry htaken
      exact ⟨e', w, hstep⟩
    · obtain ⟨w', hstep⟩ := happen_answer hentry htaken
      exact ⟨.finished, w', hstep⟩
    · exact ⟨e, .concluding outcome, .rest (hhappen ▸ htaken.resume) (by simp [act?, hentry])
        (by simp [ending?, hentry]) rfl id⟩
    · exact ⟨e, .settled outcome, .rest (hhappen ▸ htaken.conclude) (by simp [act?, hentry])
        (by simp [ending?, hentry]) rfl id⟩

theorem Stands.happen_link (h : j.Stands s e w) {n turns : Nat} {job : Job α} {i : StoreId}
    (hentry : s.agenda[n]? = some (turns, job)) (hlink : job.link? = some i)
    (hqueued : 0 < (s.share j.task).queued i) : ∃ e' w', j.StepsTo s (.work n) e w e' w' := by
  have hhappen : s.happen (.work n) = (s.taken (.work n)).turn (turns, job) := by
    simp only [happen, hentry, taken]
  obtain ⟨outcome, status, rfl, rfl, hwaits, hcaller⟩ := h.caller.of_queued hentry hlink hqueued
  have htaken : j.Stands (s.taken (.work n)) .linking w := stands_of_caller hcaller h.settlement
  cases turns with
  | zero =>
    have hact : s.act? j.task (.work n) = some (.links outcome) := by
      simpa [act?, hentry] using hwaits
    refine ⟨.linked outcome, w, hhappen ▸ htaken.linkSettled outcome status,
      hact ▸ .linked outcome, ?_, id⟩
    simp [ending?, hentry]
  | succ turns =>
    have hposted : j.Stands ((s.taken (.work n)).post turns (.linkSettled j.store outcome status))
        .linking w := stands_of_caller (htaken.caller.post_link _ _ _ _) h.settlement
    exact ⟨_, w, .rest (hhappen ▸ hposted) (by simp [act?, hentry]) (by simp [ending?, hentry]) rfl
      id⟩

theorem Stands.happen_deadline (h : j.Stands s e w) {n : Nat} {timer : Timer α}
    (htimer : s.timers[n]? = some timer) (hdeadline : timer.isDeadlineOf j.task = true) :
    ∃ e' w', j.StepsTo s (.alarm n) e w e' w' := by
  have hmem := mem_deadlines_share htimer hdeadline
  rw [h.share] at hmem
  cases w with
  | waiting =>
    obtain rfl : timer = j.deadline := List.mem_singleton.mp hmem
    obtain ⟨deadlines, htaken⟩ := h.caller.taken_deadline htimer rfl
    obtain ⟨w', hend, hrests, hstands⟩ := exists_endWait htaken h.settlement
      (some (.error (.timedOut j.milliseconds)))
    refine ⟨e, w', happen_deadline_eq htimer ▸ hstands, ?_, ?_, fun _ => hrests⟩
    · have hact : s.act? j.task (.alarm n) = none := by
        simp [act?, htimer, deadline, Timer.reply?]
      exact hact ▸ .rest e
    · rw [hend]
      simp [ending?, htimer, deadline, Ending.outcome?, Wait.end?]
  | _ => cases hmem

/-- What listens is a check that still waits. -/
theorem Stands.of_listens (h : j.Stands s e w) {signal : SignalId}
    (hlistens : signal ∈ (s.share j.task).listeners) :
    w = .waiting ∧ j.check.signal = some signal := by
  rw [h.share] at hlistens
  cases w with
  | waiting => exact ⟨rfl, Option.mem_toList.mp hlistens⟩
  | _ => cases hlistens

theorem Stands.happen_reply (h : j.Stands s e w) (hs : s.Prompt) {n : Nat} {timer : Timer α}
    {job : Job α} (htimer : s.timers[n]? = some timer) (hreply : timer.reply? = some job)
    (hown : job.owner? = some j.task) : ∃ e' w', j.StepsTo s (.alarm n) e w e' w' := by
  obtain ⟨outcome, rfl, rfl, htold, -⟩ := h.caller.happen_reply htimer hreply hown
  have hstands := stands_of_caller htold ((settlementOf_happen hs _ j.check).trans h.settlement)
  have hact : s.act? j.task (.alarm n) = some .arrives := by
    simp [act?, htimer, hreply]
  refine ⟨.told outcome, w, hstands, hact ▸ .arrived outcome, ?_, id⟩
  rw [ending?_of_reply htimer hreply, Option.map_none, Option.or_none]

theorem Stands.happen_abort (h : j.Stands s e .waiting) {signal : SignalId}
    (hsignal : j.check.signal = some signal) (hlive : s.isAborted j.check.signal = false) :
    ∃ e' w', j.StepsTo s (.abort signal) e .waiting e' w' := by
  obtain ⟨w', hend, hrests, hstands⟩ := h.abort hsignal hlive
  refine ⟨e, w', hstands, .rest e, ?_, fun _ => hrests⟩
  rw [hend]
  simp [ending?, hsignal, Wait.end?, Ending.outcome?]

/-- A request that hangs up ends the wait of its check as long as it is attached to it. -/
theorem Stands.happen_hangUp (h : j.Stands s e .waiting) {u : TaskId}
    (hsignal : j.check.signal = some (.request u)) (hlive : s.isAborted j.check.signal = false) :
    ∃ e' w', j.StepsTo s (.hangUp u) e .waiting e' w' := by
  by_cases hattached : s.attached.contains u = true
  · have hmem : u ∈ s.attached := by simpa using hattached
    have hdetached : j.Stands (s.detach u) e .waiting := ⟨h.remote, h.task, h.share, h.settlement⟩
    obtain ⟨w', hend, hrests, hstands⟩ := hdetached.abort hsignal hlive
    refine ⟨e, w', ?_, .rest e, ?_, fun _ => hrests⟩
    · simpa only [Deployment.happen, hangUp, if_pos hattached] using hstands
    · rw [hend]
      simp [ending?, hsignal, hmem, Wait.end?, Ending.outcome?]
  · have hmem : u ∉ s.attached := by simpa using hattached
    refine ⟨e, .waiting, .rest ?_ rfl ?_ rfl id⟩
    · simpa only [Deployment.happen, hangUp, if_neg hattached] using h
    · simp [ending?, hmem]

theorem Stands.happen (h : j.Stands s e w) (hs : s.Prompt)
    (hlive : w = .waiting → s.isAborted j.check.signal = false) (ev : Event α) :
    ∃ e' w', j.StepsTo s ev e w e' w' := by
  by_cases hconcerns : s.Concerns j.task ev
  · cases ev with
    | start call => exact absurd hconcerns (Nat.ne_of_gt h.lt)
    | work n =>
      obtain ⟨turns, job, hentry, hown | ⟨i, hlink, hqueued⟩⟩ := hconcerns
      · exact h.happen_own hentry hown
      · exact h.happen_link hentry hlink hqueued
    | alarm n =>
      obtain ⟨timer, htimer, hdeadline | ⟨job, hreply, hown⟩⟩ := hconcerns
      · exact h.happen_deadline htimer hdeadline
      · exact h.happen_reply hs htimer hreply hown
    | abort signal =>
      obtain ⟨rfl, hsignal⟩ := h.of_listens hconcerns
      exact h.happen_abort hsignal (hlive rfl)
    | hangUp u =>
      obtain ⟨rfl, hsignal⟩ := h.of_listens hconcerns
      exact h.happen_hangUp hsignal (hlive rfl)
    | _ => exact hconcerns.elim
  · refine ⟨e, w, h.happen_other hs hconcerns, act?_eq_none hconcerns ▸ .rest e, ?_,
      id⟩
    cases w with
    | waiting =>
      have hheard : ∀ signal ∈ j.check.signal, signal ∈ (s.share j.task).listeners := by
        intro signal hsignal
        rw [h.share]
        exact Option.mem_toList.mpr hsignal
      rw [ending?_eq_none hconcerns hheard, Option.map_none, Option.or_none]
    | _ => rfl

/-- A check that waits on has a signal that is not aborted. -/
theorem live_happen (hs : s.Prompt) {ev : Event α}
    (hlive : s.isAborted j.check.signal = false)
    (hending : s.ending? j.task j.check.signal ev = none) :
    (s.happen ev).isAborted j.check.signal = false := by
  cases hsignal : j.check.signal with
  | none => rfl
  | some signal =>
    rw [hsignal] at hlive hending
    have hkept : ¬(s.scope ev).signal signal →
        (s.happen ev).isAborted (some signal) = false := by
      intro hother
      rw [(happen_moves hs ev).isAborted_eq hother]
      cases ev <;> exact hlive
    cases ev with
    | work n =>
      refine hkept ?_
      simp only [scope]
      split
      · next job _ => cases job <;> exact id
      · exact id
      · exact id
    | alarm n =>
      refine hkept ?_
      simp only [scope]
      split <;> exact id
    | abort other =>
      refine hkept ?_
      rintro rfl
      simp [ending?] at hending
    | hangUp u =>
      by_cases hu : signal = .request u
      · have hattached : ¬s.attached.contains u = true := by
          simpa [ending?, hu] using hending
        simpa only [Deployment.happen, hangUp, if_neg hattached] using hlive
      · exact hkept hu
    | _ => exact hkept id

/-! The beginning -/

/-- The check has been handed to its store, but does not wait yet. -/
structure Prepares (j : Journey α) (s : Deployment α) (e : Errand α) : Prop where
  remote : s.fixed? j.store = some { j.remote with attempt := none }
  task : s.tasks[j.task]? = some ⟨j.store, .check j.check, .running⟩
  share : s.share j.task = j.share e .lost
  settlement : s.settlementOf j.check = j.settlement
  due : j.due = s.dueAfter (numeral j.remote.options.timeout)

theorem Prepares.caller (h : j.Prepares s e) : j.caller.Stands s e .running (j.own .lost) :=
  ⟨h.remote, h.task, h.share⟩

theorem Prepares.startWait (h : j.Prepares s e)
    (htext : textOrMissing? j.remote.options.timeout = some j.milliseconds) :
    j.Stands (s.startWait j.task .verdict j.remote.options.timeout j.check.signal) e .waiting := by
  have hmoves : Moves .any s
      (s.startWait j.task .verdict j.remote.options.timeout j.check.signal) :=
    (Moves.refl s).startWait trivial trivial _ _ _
  have hwaits := h.caller.startWait .verdict htext j.check.signal
  rw [← h.due] at hwaits
  exact stands_of_caller hwaits ((hmoves.settlementOf_eq j.check).trans h.settlement)

theorem Prepares.startWait_unreadable (h : j.Prepares s e)
    (htext : textOrMissing? j.remote.options.timeout = none) :
    j.Stands (s.startWait j.task .verdict j.remote.options.timeout j.check.signal) e
      (.leaving (.error .wordless)) := by
  have hwait : s.startWait j.task .verdict j.remote.options.timeout j.check.signal =
      s.leaveWait j.task .verdict (.error .wordless) := by
    unfold Deployment.startWait
    rw [htext]
  rw [hwait]
  exact stands_of_caller (h.caller.leaveWait .verdict _) h.settlement

theorem Prepares.connectFor (h : j.Prepares s .finished) (attempt : Option (List TaskId))
    (hstore : s.stores[j.store]? = some (.redis { j.remote with attempt }))
    (hpromise : s.Promises { j.remote with attempt }) :
    ∃ s' e, s.connectFor j.task j.store { j.remote with attempt } (.evaluate j.task) = (none, s') ∧
      j.Prepares s' e ∧ (e = .linking ∨ e = .sending) := by
  obtain ⟨fault?, s', hconnect, hdue, -, hthen⟩ :=
    h.caller.connectFor attempt hstore (h.caller.post_evaluate 0)
  have hmoves : Moves .any s (s.connectFor j.task j.store { j.remote with attempt }
      (.evaluate j.task)).2 :=
    (Moves.refl s).connectFor hstore trivial trivial trivial fun _ _ _ =>
      ⟨trivial, fun _ _ => trivial⟩
  have hconnect' : s.connectFor j.task j.store { j.remote with attempt } (.evaluate j.task) =
      (fault?, s') := hconnect
  rw [hconnect'] at hmoves
  have hprepared : ∀ {e}, j.caller.Stands s' e .running (j.own .lost) → j.Prepares s' e :=
    fun hstands => ⟨hstands.remote, hstands.task, hstands.share,
      (hmoves.settlementOf_eq j.check).trans h.settlement, hdue ▸ h.due⟩
  cases fault? with
  | some fault =>
    exact absurd hthen.1 (hpromise.linkNow?_ne_error (remote?_eq_some_iff.mpr hstore) fault)
  | none =>
    obtain ⟨-, hstands⟩ | ⟨-, hstands⟩ := hthen
    · exact ⟨s', .linking, hconnect, hprepared hstands, Or.inl rfl⟩
    · exact ⟨s', .sending, hconnect, hprepared hstands, Or.inr rfl⟩

end Journey

section

variable [Scalar α] [Textual α]

/-- The journey of a check that is about to be handed to a store in Redis. -/
def journey (s : Deployment α) (i : StoreId) (store : RedisStore α) (c : Check α)
    (milliseconds : String) : Journey α where
  task := s.tasks.length
  store := i
  remote := store
  check := c
  due := s.dueAfter (numeral store.options.timeout)
  milliseconds := milliseconds
  settlement := s.settlementOf c

theorem prepares_newTask {s : Deployment α} (hs : s.Clear) {i : StoreId} {store : RedisStore α}
    (hstore : s.remote? i = some store) (c : Check α) (milliseconds : String) :
    (s.journey i store c milliseconds).Prepares (s.newTask i (.check c)).2 .finished where
  remote := by
    show (s.remote? i).map _ = _
    rw [hstore]
    rfl
  task := List.getElem?_concat_length
  share := hs.share
  settlement := rfl
  due := rfl

/-- A check that is handed to a store in Redis comes to its wait, if nothing abandons it before. -/
theorem prepares_startCheck {s : Deployment α} (hs : s.Clear) {i : StoreId} {store : RedisStore α}
    (hstore : s.remote? i = some store) {c : Check α} (hlive : s.isAborted c.signal = false)
    (hpromise : s.Promises store) (milliseconds : String) :
    ∃ s' e, s.startCheck i c =
        s'.startWait s.tasks.length .verdict store.options.timeout c.signal ∧
      (s.journey i store c milliseconds).Prepares s' e ∧ (e = .linking ∨ e = .sending) := by
  have hprepares := prepares_newTask hs hstore c milliseconds
  have hstores := remote?_eq_some_iff.mp hstore
  obtain ⟨s', e, hconnect, hprepared, he⟩ := hprepares.connectFor store.attempt hstores
    fun howned hnone hstatus fault hthrows => hpromise howned hnone hstatus fault
      ((reply_congr s (s.newTask i (.check c)).2 rfl rfl rfl _ _).symm.trans hthrows)
  refine ⟨s', e, ?_, hprepared, he⟩
  have hconnect' : (s.newTask i (.check c)).2.connectFor s.tasks.length i store
      (.evaluate s.tasks.length) = (none, s') := hconnect
  have hlive' : (s.newTask i (.check c)).2.isAborted c.signal = false := hlive
  have hstores' : (s.newTask i (.check c)).2.stores[i]? = some (.redis store) := hstores
  show (s.newTask i (.check c)).2.check s.tasks.length i c = _
  simp only [check, hstores', checkRedis, hlive', hconnect', Bool.false_eq_true, if_false]

/-- Under a deadline that can be read, such a check begins to wait. -/
theorem stands_startCheck {s : Deployment α} (hs : s.Clear) {i : StoreId} {store : RedisStore α}
    (hstore : s.remote? i = some store) {c : Check α} (hlive : s.isAborted c.signal = false)
    {milliseconds : String} (htext : textOrMissing? store.options.timeout = some milliseconds)
    (hpromise : s.Promises store) : ∃ e, (e = .linking ∨ e = .sending) ∧
      (s.journey i store c milliseconds).Stands (s.startCheck i c) e .waiting := by
  obtain ⟨s', e, hcheck, hprepared, he⟩ :=
    prepares_startCheck hs hstore hlive hpromise milliseconds
  exact ⟨e, he, hcheck ▸ hprepared.startWait htext⟩

/-- A deadline that cannot be read is the end of the wait. -/
theorem stands_startCheck_unreadable {s : Deployment α} (hs : s.Clear) {i : StoreId}
    {store : RedisStore α} (hstore : s.remote? i = some store) {c : Check α}
    (hlive : s.isAborted c.signal = false) (htext : textOrMissing? store.options.timeout = none)
    (hpromise : s.Promises store) (milliseconds : String) : ∃ e, (e = .linking ∨ e = .sending) ∧
      (s.journey i store c milliseconds).Stands (s.startCheck i c) e
        (.leaving (.error .wordless)) := by
  obtain ⟨s', e, hcheck, hprepared, he⟩ :=
    prepares_startCheck hs hstore hlive hpromise milliseconds
  exact ⟨e, he, hcheck ▸ hprepared.startWait_unreadable htext⟩

end

end Deployment

end Admission
