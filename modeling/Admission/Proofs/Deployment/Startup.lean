import Admission.Proofs.Deployment.Attempts

/-!
A store in Redis is made ready.

A startup waits twice, for the connection and then for the answer to its first command, each time
under a deadline. Beside its waits runs an errand, which brings back what a wait is for; an errand
that comes too late finds nobody. The startup gives up with the first thing that fails, and reports
that instead of failing itself, as long as it can be put into words.
-/
namespace Admission

namespace Deployment

variable {α : Type}

/-- The two waits of a startup. -/
inductive Leg where
  | link
  | ping
deriving DecidableEq

def Leg.stage : Leg → Stage
  | link => .link
  | ping => .ping

/-- How far a startup has come. -/
inductive Boot (α : Type) where
  | waiting (leg : Leg) (due : α)
  | leaving (leg : Leg) (outcome : Outcome α)
  /-- It has its turn, after the wait that it left last. -/
  | busy (left : Option (Leg × Outcome α))
  /-- All that is left is to end, well if everything could be put into words. -/
  | ending (left : Option (Leg × Outcome α)) (worded : Bool)
  | settled (worded : Bool)
  | lost

namespace Boot

/-- What a startup ends with. -/
def verdict (worded : Bool) : Outcome α := if worded then .ok none else .error .wordless

def settlement (worded : Bool) : Settlement α :=
  if worded then .answered none else .failed .wordless

def progress : Boot α → Progress α
  | waiting leg _ => .waiting leg.stage
  | leaving leg outcome => .leaving leg.stage outcome
  | busy left | ending left _ => left.elim .running fun l => .leaving l.1.stage l.2
  | settled _ => .ended
  | lost => .lost

def ready (t : TaskId) : Boot α → Multiset (Job α)
  | leaving .. => {.resume t}
  | ending _ worded => {.started t (verdict worded)}
  | _ => 0

/-- Where the end of a wait leads; an end that nobody hears of leads nowhere. -/
def hear (leg : Leg) : Option (Outcome α) → Boot α
  | some outcome => leaving leg outcome
  | none => lost

def IsWaiting : Boot α → Prop
  | waiting .. => True
  | _ => False

end Boot

/-- A startup of a store in Redis, and what is fixed when it begins. -/
structure Startup (α : Type) where
  task : TaskId
  store : StoreId
  remote : RedisStore α
  milliseconds : String

/-- What is reported of a fault that keeps a store from being reached. -/
def unreachableLine [Textual α] (fault : Fault α) : List (Notice α) :=
  (fault.message?.map Notice.unreachable).toList

theorem giveUpBoot_eq [Textual α] (s : Deployment α) (t : TaskId) (fault : Fault α) :
    s.giveUpBoot t fault = { s with notices := s.notices ++ unreachableLine fault }.post 0
      (.started t (Boot.verdict fault.message?.isSome)) := by
  unfold giveUpBoot unreachableLine
  cases fault.message? with
  | none => simp [Boot.verdict]
  | some message => simp [Boot.verdict, note]

namespace Startup

def share (j : Startup α) (e : Errand α) (b : Boot α) : Share α where
  deadlines := match b with
    | .waiting _ due => [⟨due, .deadline j.task j.milliseconds⟩]
    | _ => []
  settled := match b with
    | .settled worded => [Boot.settlement worded]
    | _ => []
  ready := e.ready j.task + b.ready j.task
  awaited := e.awaited j.task
  queued := e.queued j.store

/-- The startup stands so in a deployment. It never sends a script. -/
structure Stands (j : Startup α) (s : Deployment α) (e : Errand α) (b : Boot α) : Prop where
  remote : s.fixed? j.store = some { j.remote with attempt := none }
  task : s.tasks[j.task]? = some ⟨j.store, .boot none, b.progress⟩
  share : s.share j.task = j.share e b
  unsent : e ≠ .sending

variable {j : Startup α} {s s' : Deployment α} {e : Errand α} {b : Boot α}
  {left : Option (Leg × Outcome α)}

/-- The startup as a task that sends an errand. -/
def caller (j : Startup α) : Caller α := ⟨j.task, j.store, j.remote, .boot none⟩

@[simp] theorem caller_task (j : Startup α) : j.caller.task = j.task := rfl

@[simp] theorem caller_store (j : Startup α) : j.caller.store = j.store := rfl

/-- What the startup has apart from its errand. -/
def own (j : Startup α) (b : Boot α) : Share α :=
  { j.share .finished b with ready := b.ready j.task }

theorem Stands.caller (h : j.Stands s e b) : j.caller.Stands s e b.progress (j.own b) :=
  ⟨h.remote, h.task, h.share⟩

theorem stands_of_caller (h : j.caller.Stands s e b.progress (j.own b)) (hunsent : e ≠ .sending) :
    j.Stands s e b :=
  ⟨h.remote, h.task, h.share, hunsent⟩

theorem Stands.lt (h : j.Stands s e b) : j.task < s.tasks.length := h.caller.lt

theorem Stands.exists_remote (h : j.Stands s e b) :
    ∃ attempt, s.remote? j.store = some { j.remote with attempt } := h.caller.exists_remote

theorem Stands.happen_other [Scalar α] [Textual α] (h : j.Stands s e b) (hs : s.Prompt)
    {ev : Event α} (hother : ¬s.Concerns j.task ev) : j.Stands (s.happen ev) e b :=
  stands_of_caller (h.caller.happen_other hs hother) h.unsent

/-! Work that becomes ready -/

theorem Stands.post_answer (h : j.Stands s .finished b) (turns : Nat) (outcome : Outcome α) :
    j.Stands (s.post turns (.answer j.task outcome)) (.told outcome) b :=
  stands_of_caller (h.caller.post_answer turns outcome) (Errand.told_ne_sending outcome)

theorem Stands.post_started (h : j.Stands s e (.busy left)) (turns : Nat) (worded : Bool) :
    j.Stands (s.post turns (.started j.task (Boot.verdict worded))) e (.ending left worded) :=
  stands_of_caller (h.caller.post_own rfl turns) h.unsent

theorem Stands.post_resume {leg : Leg} {outcome : Outcome α}
    (h : j.Stands s e (.busy (some (leg, outcome)))) (turns : Nat) :
    j.Stands (s.post turns (.resume j.task)) e (.leaving leg outcome) :=
  stands_of_caller (h.caller.post_own rfl turns) h.unsent

/-- What has been said does not matter to the startup. -/
theorem Stands.notes (h : j.Stands s e b) (notices : List (Notice α)) :
    j.Stands { s with notices } e b := ⟨h.remote, h.task, h.share, h.unsent⟩

theorem Stands.giveUp [Textual α] (h : j.Stands s e (.busy left)) (fault : Fault α) :
    j.Stands (s.giveUpBoot j.task fault) e (.ending left fault.message?.isSome) := by
  rw [giveUpBoot_eq]
  exact (h.notes _).post_started 0 _

/-- How a reply to a command leaves an errand: on its way back, back already, or nowhere. -/
inductive Dispatched : Reply α → Errand α → Prop
  | awaiting {reply : Reply α} {outcome : Outcome α} (h : reply.outcome? = some outcome) :
      Dispatched reply (.awaiting outcome)
  | told {reply : Reply α} {outcome : Outcome α} (h : reply.outcome? = some outcome) :
      Dispatched reply (.told outcome)
  | silent : Dispatched .never .finished

theorem Stands.arrange [Scalar α] (h : j.Stands s .finished b) {reply : Reply α}
    (hreply : ∀ fault, reply ≠ .throws fault) (turnsNow turnsLater : Nat) :
    ∃ e, Dispatched reply e ∧
      j.Stands (s.arrange reply turnsNow turnsLater (.answer j.task)) e b := by
  obtain ⟨e, hstands, he⟩ := h.caller.arrange hreply turnsNow turnsLater
  cases houtcome : reply.outcome? with
  | none =>
    rw [houtcome] at he
    obtain rfl : reply = .never := by cases reply <;> first | rfl | cases houtcome
    exact ⟨e, he ▸ .silent, stands_of_caller hstands (by simp [he])⟩
  | some outcome =>
    rw [houtcome] at he
    obtain rfl | rfl := he
    · exact ⟨_, .awaiting houtcome, stands_of_caller hstands (by simp)⟩
    · exact ⟨_, .told houtcome, stands_of_caller hstands (Errand.told_ne_sending outcome)⟩

theorem Stands.startWait [Scalar α] [Textual α] (h : j.Stands s e (.busy left)) (leg : Leg)
    (htext : textOrMissing? j.remote.options.timeout = some j.milliseconds) :
    j.Stands (s.startWait j.task leg.stage j.remote.options.timeout none) e
      (.waiting leg (s.dueAfter (numeral j.remote.options.timeout))) :=
  stands_of_caller (h.caller.startWait leg.stage htext none) h.unsent

/-! Work that is taken up -/

/-- The work of a startup that is ready tells how far it is. -/
theorem Stands.of_ready (h : j.Stands s e b) {n turns : Nat} {job : Job α}
    (hentry : s.agenda[n]? = some (turns, job)) (hown : job.owner? = some j.task) :
    (∃ outcome, job = .answer j.task outcome ∧ e = .told outcome ∧
      j.Stands (s.taken (.work n)) .finished b) ∨
    (∃ leg outcome, job = .resume j.task ∧ b = .leaving leg outcome ∧
      j.Stands (s.taken (.work n)) e (.busy (some (leg, outcome)))) ∨
    (∃ left worded, job = .started j.task (Boot.verdict worded) ∧ b = .ending left worded ∧
      j.Stands (s.taken (.work n)) e (.busy left)) := by
  obtain ⟨-, rfl, -⟩ | ⟨outcome, rfl, rfl, htaken⟩ | ⟨hmem, htaken⟩ :=
    h.caller.of_ready hentry hown
  · exact absurd rfl h.unsent
  · exact Or.inl ⟨outcome, rfl, rfl, stands_of_caller htaken (by simp)⟩
  · cases b with
    | leaving leg outcome =>
      obtain rfl := Multiset.mem_singleton.mp hmem
      have hbusy := htaken (j.own (.busy (some (leg, outcome)))) rfl
      exact Or.inr (Or.inl ⟨leg, outcome, rfl, rfl, stands_of_caller hbusy h.unsent⟩)
    | ending left worded =>
      obtain rfl := Multiset.mem_singleton.mp hmem
      have hbusy := htaken (j.own (.busy left)) rfl
      exact Or.inr (Or.inr ⟨left, worded, rfl, rfl, stands_of_caller hbusy h.unsent⟩)
    | _ => exact absurd hmem (Multiset.notMem_zero job)

/-! The end of a wait -/

/-- The wait ends, whatever is left of the deadline. -/
theorem stands_endWait {leg : Leg} {due : α} {deadlines : List (Timer α)}
    (h : j.caller.Stands s e (.waiting leg.stage) { j.own (.waiting leg due) with deadlines })
    (hunsent : e ≠ .sending) (outcome? : Option (Outcome α)) :
    j.Stands (s.endWait j.task outcome?) e (.hear leg outcome?) := by
  cases outcome? with
  | none => exact stands_of_caller h.endWait_none hunsent
  | some outcome => exact stands_of_caller (h.endWait_some outcome) hunsent

/-- What is told to a startup that waits ends its wait. -/
theorem Stands.hear {leg : Leg} {due : α} (h : j.Stands s e (.waiting leg due))
    (outcome? : Option (Outcome α)) : j.Stands (s.endWait j.task outcome?) e (.hear leg outcome?) :=
  stands_endWait h.caller h.unsent outcome?

/-- An event of a wait that is over changes nothing. -/
theorem Stands.endWait_eq (h : j.Stands s e b) (hover : ¬b.IsWaiting)
    (outcome? : Option (Outcome α)) : s.endWait j.task outcome? = s := by
  refine h.caller.endWait_eq (fun stage => ?_) outcome?
  cases b with
  | waiting => exact absurd trivial hover
  | busy left => cases left <;> nofun
  | ending left worded => cases left <;> nofun
  | _ => nofun

theorem Stands.started [Scalar α] [Textual α] (h : j.Stands s e (.busy left)) (worded : Bool) :
    s.started j.task (Boot.verdict worded) = s.settle j.task (Boot.settlement worded) ∧
      j.Stands (s.settle j.task (Boot.settlement worded)) e (.settled worded) := by
  refine ⟨?_, stands_of_caller (h.caller.settle _) h.unsent⟩
  simp only [Deployment.started, h.task, Option.map_some]
  cases worded <;> rfl

/-! The connection -/

/-- The attempt to connect that a startup waits for is over. -/
theorem Stands.linkSettled [Scalar α] (h : j.Stands s .linking b) (outcome : Outcome α)
    (status : LinkStatus) : j.Stands (s.linkSettled j.store outcome status) (.told outcome) b :=
  stands_of_caller (h.caller.linkSettled outcome status) (Errand.told_ne_sending outcome)

end Startup

end Deployment

end Admission
