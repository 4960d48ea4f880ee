import Admission.Proofs.Deployment.Startup
import Admission.Proofs.Deployment.Reports

/-!
How a startup goes on.

Every event leaves a startup where it is or takes it one step further, and each step shows what it
is: the connection turns out one way or the other, something ends a wait, the first command is sent,
a line is reported.
-/
namespace Admission

namespace Deployment

variable {α : Type}

/-! What a course shows of a task -/

/-- The end that an event puts to the wait of a task, if the task waits. -/
def hears? (s : Deployment α) (t : TaskId) (ev : Event α) : Option (Ending α) :=
  match s.tasks[t]?.map Task.progress with
  | some (.waiting _) => s.ending? t none ev
  | _ => none

theorem hears?_of_unheard {s : Deployment α} {t : TaskId} {ev : Event α}
    (hunheard : s.ending? t none ev = none) : s.hears? t ev = none := by
  unfold hears?
  split
  · exact hunheard
  · rfl

/-- Whether an event starts a task, is a turn of its work, or is its deadline. -/
def isTurnOf (s : Deployment α) (t : TaskId) : Event α → Bool
  | .start _ => s.tasks.length == t
  | .work n => s.agenda[n]?.any fun entry => entry.2.owner? == some t
  | .alarm n => s.timers[n]?.any (·.isDeadlineOf t)
  | _ => false

/-- What is seen of a startup: how the connection turned out that it needs, what ended its waits,
what its first command met with, and what it reported. -/
@[ext]
structure Account (α : Type) where
  links : List (Outcome α) := []
  heard : List (Ending α) := []
  pings : List (Reply α) := []
  lines : List (Notice α) := []

instance : Append (Account α) where
  append a b := ⟨a.links ++ b.links, a.heard ++ b.heard, a.pings ++ b.pings, a.lines ++ b.lines⟩

namespace Account

@[simp] theorem links_append (a b : Account α) : (a ++ b).links = a.links ++ b.links := rfl

@[simp] theorem heard_append (a b : Account α) : (a ++ b).heard = a.heard ++ b.heard := rfl

@[simp] theorem pings_append (a b : Account α) : (a ++ b).pings = a.pings ++ b.pings := rfl

@[simp] theorem lines_append (a b : Account α) : (a ++ b).lines = a.lines ++ b.lines := rfl

@[simp] theorem mk_append_mk (links links' : List (Outcome α)) (heard heard' : List (Ending α))
    (pings pings' : List (Reply α)) (lines lines' : List (Notice α)) :
    (⟨links, heard, pings, lines⟩ : Account α) ++ ⟨links', heard', pings', lines'⟩ =
      ⟨links ++ links', heard ++ heard', pings ++ pings', lines ++ lines'⟩ := rfl

theorem append_assoc (a b c : Account α) : a ++ b ++ c = a ++ (b ++ c) := by
  ext1 <;> simp

@[simp] theorem append_empty (a : Account α) : a ++ {} = a := by
  ext1 <;> simp

end Account

section

variable [Scalar α] [Textual α]

/-- What the client replies if an event sends the first command for a startup. -/
def pinged? (s : Deployment α) (t : TaskId) : Event α → Option (Reply α)
  | .work n =>
    match s.agenda[n]?, s.tasks[t]? with
    | some (0, .resume u), some ⟨i, _, .leaving .link (.ok _)⟩ =>
      if u = t then (s.remote? i).map fun store => (s.callClient store.client .ping).1 else none
    | _, _ => none
  | _ => none

/-- How an event makes the connection turn out that a task needs. -/
def linked? (s : Deployment α) (t : TaskId) (ev : Event α) : Option (Outcome α) :=
  match ev, s.act? t ev with
  | .start call, _ => if s.tasks.length = t then (s.storeOf? call).bind s.linkNow? else none
  | _, some (.links outcome) => some outcome
  | _, _ => none

def accountAt (s : Deployment α) (t : TaskId) (ev : Event α) : Account α where
  links := (s.linked? t ev).toList
  heard := (s.hears? t ev).toList
  pings := (s.pinged? t ev).toList
  lines := if s.isTurnOf t ev then (s.happen ev).notices.drop s.notices.length else []

/-- What a course shows of a task. -/
def account (s : Deployment α) (t : TaskId) : List (Event α) → Account α
  | [] => {}
  | ev :: events => s.accountAt t ev ++ (s.happen ev).account t events

theorem accountAt_other {s : Deployment α} {t : TaskId} {ev : Event α}
    (hother : ¬s.Concerns t ev) : s.accountAt t ev = {} := by
  have hturn : s.isTurnOf t ev = false := by
    refine Bool.eq_false_iff.mpr fun hturn => hother ?_
    cases ev with
    | start call => exact beq_iff_eq.mp hturn
    | work n =>
      obtain ⟨entry, hentry, hown⟩ := (Option.any_eq_true _ _).mp hturn
      exact ⟨entry.1, entry.2, hentry, Or.inl (beq_iff_eq.mp hown)⟩
    | alarm n =>
      obtain ⟨timer, htimer, hdeadline⟩ := (Option.any_eq_true _ _).mp hturn
      exact ⟨timer, htimer, Or.inl hdeadline⟩
    | _ => cases hturn
  have hunheard : s.ending? t none ev = none := ending?_eq_none hother nofun
  have hunpinged : s.pinged? t ev = none := by
    cases ev with
    | work n =>
      simp only [pinged?]
      split
      · next u i _ answer hentry _ =>
        exact if_neg fun hu => hother ⟨0, _, hentry, Or.inl (congrArg some hu)⟩
      · rfl
    | _ => rfl
  have hunlinked : s.linked? t ev = none := by
    unfold linked?
    rw [act?_eq_none hother]
    cases ev with
    | start call => exact if_neg hother
    | _ => rfl
  ext1
  · simp [accountAt, hunlinked]
  · simp [accountAt, hears?_of_unheard hunheard]
  · simp [accountAt, hunpinged]
  · simp [accountAt, hturn]

omit [Scalar α] [Textual α] in
@[simp] theorem notices_endWait (s : Deployment α) (t : TaskId) (outcome? : Option (Outcome α)) :
    (s.endWait t outcome?).notices = s.notices := by
  unfold endWait
  split <;> rfl

end

namespace Startup

variable [Scalar α] [Textual α]

/-- What is reported once the first command has been answered. -/
def answeredLine (store : RedisStore α) : List (Notice α) :=
  match textOrMissing? store.options.keyLead with
  | some keyLead => [.linked keyLead]
  | none => unreachableLine .wordless

/-- How a startup goes on, and what is seen of it. A wait that it begins has this deadline. -/
inductive Step (j : Startup α) (deadline : α) :
    Account α → Errand α → Boot α → Errand α → Boot α → Prop
  | rest (e : Errand α) (b : Boot α) : Step j deadline {} e b e b
  | linked (outcome : Outcome α) (b : Boot α) :
      Step j deadline { links := [outcome] } .linking b (.told outcome) b
  | arrived (outcome : Outcome α) (b : Boot α) :
      Step j deadline {} (.awaiting outcome) b (.told outcome) b
  | heard (outcome : Outcome α) (leg : Leg) (due : α) :
      Step j deadline { heard := [.answered outcome] } (.told outcome) (.waiting leg due) .finished
        (.hear leg ((Ending.answered outcome).outcome? j.milliseconds))
  | missed (outcome : Outcome α) {b : Boot α} (h : ¬b.IsWaiting) :
      Step j deadline {} (.told outcome) b .finished b
  | expired (e : Errand α) (leg : Leg) (due : α) :
      Step j deadline { heard := [.expired] } e (.waiting leg due) e
        (.leaving leg (.error (.timedOut j.milliseconds)))
  | failed (e : Errand α) (leg : Leg) (fault : Fault α) :
      Step j deadline { lines := unreachableLine fault } e (.leaving leg (.error fault)) e
        (.ending (some (leg, .error fault)) fault.message?.isSome)
  | unsendable (e : Errand α) (answer : Option (Value α)) (fault : Fault α) :
      Step j deadline { pings := [.throws fault], lines := unreachableLine fault } e
        (.leaving .link (.ok answer)) e (.ending (some (.link, .ok answer)) fault.message?.isSome)
  | sent (answer : Option (Value α)) {reply : Reply α} (hreply : ∀ fault, reply ≠ .throws fault)
      {e : Errand α} (he : Dispatched reply e) :
      Step j deadline { pings := [reply] } .finished (.leaving .link (.ok answer)) e
        (.waiting .ping deadline)
  | answered (e : Errand α) (answer : Option (Value α)) :
      Step j deadline { lines := answeredLine j.remote } e (.leaving .ping (.ok answer)) e
        (.ending (some (.ping, .ok answer)) true)
  | ended (e : Errand α) (left : Option (Leg × Outcome α)) (worded : Bool) :
      Step j deadline {} e (.ending left worded) e (.settled worded)

/-- Once the connection stands nothing is left of the errand for it. -/
def Free (e : Errand α) (b : Boot α) : Prop :=
  ∀ answer, b = .leaving .link (.ok answer) → e = .finished

variable {j : Startup α} {s : Deployment α} {e e' : Errand α} {b b' : Boot α}

omit [Scalar α] in
theorem Free.step {deadline : α} {seen : Account α} (h : Free e b)
    (hstep : j.Step deadline seen e b e' b') : Free e' b' := by
  intro answer hb
  cases hstep with
  | rest => exact h answer hb
  | linked => cases h answer hb
  | arrived => cases h answer hb
  | heard => rfl
  | missed => rfl
  | _ => cases hb

/-- How a startup stands after an event. -/
def StepsTo (j : Startup α) (s : Deployment α) (ev : Event α) (e : Errand α) (b : Boot α)
    (e' : Errand α) (b' : Boot α) : Prop :=
  j.Stands (s.happen ev) e' b' ∧
    j.Step (s.dueAfter (numeral j.remote.options.timeout)) (s.accountAt j.task ev) e b e' b'

omit [Scalar α] [Textual α] in
theorem Stands.isWaiting_iff (h : j.Stands s e b) :
    b.IsWaiting ↔ ∃ stage, s.tasks[j.task]?.map Task.progress = some (.waiting stage) := by
  rw [h.task, Option.map_some]
  cases b with
  | busy left => rcases left with _ | ⟨leg, outcome⟩ <;> simp [Boot.IsWaiting, Boot.progress]
  | ending left worded =>
    rcases left with _ | ⟨leg, outcome⟩ <;> simp [Boot.IsWaiting, Boot.progress]
  | _ => simp [Boot.IsWaiting, Boot.progress]

omit [Scalar α] [Textual α] in
theorem Stands.hears?_waiting {leg : Leg} {due : α} (h : j.Stands s e (.waiting leg due))
    (ev : Event α) : s.hears? j.task ev = s.ending? j.task none ev := by
  simp [hears?, h.task, Boot.progress]

omit [Scalar α] [Textual α] in
theorem Stands.hears?_over (h : j.Stands s e b) (hover : ¬b.IsWaiting) (ev : Event α) :
    s.hears? j.task ev = none := by
  unfold hears?
  split
  · next stage hwaiting => exact absurd (h.isWaiting_iff.mpr ⟨stage, hwaiting⟩) hover
  · rfl

/-- A turn that reports nothing. -/
theorem accountAt_of_silent {t : TaskId} {ev : Event α} (hunlinked : s.linked? t ev = none)
    (hunpinged : s.pinged? t ev = none) (hsilent : (s.happen ev).notices = s.notices) :
    s.accountAt t ev = { heard := (s.hears? t ev).toList } := by
  refine Account.ext ?_ rfl ?_ ?_
  · simp [accountAt, hunlinked]
  · simp [accountAt, hunpinged]
  · simp [accountAt, hsilent]

/-- An event that shows nothing of a task. -/
theorem accountAt_of_unseen {t : TaskId} {ev : Event α} (hunlinked : s.linked? t ev = none)
    (hunheard : s.hears? t ev = none) (hunpinged : s.pinged? t ev = none)
    (hsilent : (s.happen ev).notices = s.notices) : s.accountAt t ev = {} := by
  rw [accountAt_of_silent hunlinked hunpinged hsilent, hunheard]
  rfl

theorem Stands.happen_answer (h : j.Stands s e b) {n : Nat} {outcome : Outcome α}
    (hentry : s.agenda[n]? = some (0, .answer j.task outcome)) (he : e = .told outcome)
    (htaken : j.Stands (s.taken (.work n)) .finished b) :
    ∃ e' b', j.StepsTo s (.work n) e b e' b' := by
  subst he
  have hhappen : s.happen (.work n) = (s.taken (.work n)).endWait j.task
      ((Ending.answered outcome).outcome? j.milliseconds) := by
    simp only [Deployment.happen, hentry, taken, turn, run]
    cases outcome <;> rfl
  have hseen : s.accountAt j.task (.work n) = { heard := (s.hears? j.task (.work n)).toList } := by
    refine accountAt_of_silent ?_ ?_ ?_
    · simp [linked?, act?, hentry]
    · simp [pinged?, hentry]
    · rw [hhappen, notices_endWait, notices_taken]
  by_cases hwaiting : b.IsWaiting
  · cases b with
    | waiting leg due =>
      have hheard : s.hears? j.task (.work n) = some (.answered outcome) := by
        simp [h.hears?_waiting, ending?, hentry]
      refine ⟨_, _, hhappen ▸ htaken.hear _, ?_⟩
      rw [hseen, hheard]
      exact .heard outcome leg due
    | _ => exact hwaiting.elim
  · refine ⟨.finished, b, ?_, ?_⟩
    · rw [hhappen, htaken.endWait_eq hwaiting]
      exact htaken
    · rw [hseen, h.hears?_over hwaiting]
      exact .missed outcome hwaiting

/-! Turns after a wait -/

theorem Stands.resume_eq {leg : Leg} {outcome : Outcome α}
    (h : j.Stands s e (.busy (some (leg, outcome)))) : ∃ attempt,
    (leg = .link → s.resume j.task = s.bootLinked j.task { j.remote with attempt } outcome) ∧
    (leg = .ping → s.resume j.task = s.bootAnswered j.task { j.remote with attempt } outcome) := by
  obtain ⟨attempt, hremote⟩ := h.exists_remote
  have hstores := remote?_eq_some_iff.mp hremote
  refine ⟨attempt, ?_, ?_⟩ <;> rintro rfl <;>
    simp only [Deployment.resume, h.task, Boot.progress, Option.elim, hstores, Leg.stage]

theorem Stands.resume_failed {leg : Leg} {fault : Fault α}
    (h : j.Stands s e (.busy (some (leg, .error fault)))) :
    j.Stands (s.resume j.task) e (.ending (some (leg, .error fault)) fault.message?.isSome) ∧
      (s.resume j.task).notices = s.notices ++ unreachableLine fault := by
  have hresume : s.resume j.task = s.giveUpBoot j.task fault := by
    obtain ⟨attempt, hlink, hping⟩ := h.resume_eq
    cases leg with
    | link => exact hlink rfl
    | ping => exact hping rfl
  rw [hresume]
  exact ⟨h.giveUp fault, by rw [giveUpBoot_eq]; rfl⟩

theorem Stands.resume_answered {answer : Option (Value α)}
    (h : j.Stands s e (.busy (some (.ping, .ok answer)))) :
    j.Stands (s.resume j.task) e (.ending (some (.ping, .ok answer)) true) ∧
      (s.resume j.task).notices = s.notices ++ answeredLine j.remote := by
  obtain ⟨attempt, -, hping⟩ := h.resume_eq
  rw [hping rfl]
  dsimp only [bootAnswered, answeredLine]
  cases textOrMissing? j.remote.options.keyLead with
  | none => exact ⟨h.giveUp .wordless, by simp only [giveUpBoot_eq]; rfl⟩
  | some keyLead => exact ⟨(h.notes _).post_started 0 true, rfl⟩

/-- With the connection the first command is sent, unless it cannot be sent at all. -/
theorem Stands.resume_linked {answer : Option (Value α)}
    (h : j.Stands s .finished (.busy (some (.link, .ok answer))))
    (htext : textOrMissing? j.remote.options.timeout = some j.milliseconds) :
    (s.resume j.task).calls = s.calls ++ s.shown j.remote.client .ping ∧
    ((∃ fault, (s.callClient j.remote.client .ping).1 = .throws fault ∧
      j.Stands (s.resume j.task) .finished
        (.ending (some (.link, .ok answer)) fault.message?.isSome) ∧
      (s.resume j.task).notices = s.notices ++ unreachableLine fault) ∨
    ((∀ fault, (s.callClient j.remote.client .ping).1 ≠ .throws fault) ∧
      (s.resume j.task).notices = s.notices ∧
      ∃ e', Dispatched (s.callClient j.remote.client .ping).1 e' ∧
        j.Stands (s.resume j.task) e'
          (.waiting .ping (s.dueAfter (numeral j.remote.options.timeout))))) := by
  obtain ⟨attempt, hlink, -⟩ := h.resume_eq
  have hcalls := (Moves.refl s).callClient (p := { call := fun _ => True }) j.remote.client
    .ping trivial
  have hcalled := stands_of_caller (h.caller.callClient j.remote.client .ping) h.unsent
  have hdue := hcalls.dueAfter_eq
  have hnotices := hcalls.notices_eq fun _ => id
  have hshown := calls_callClient s j.remote.client .ping
  rw [hlink rfl]
  dsimp only [bootLinked]
  generalize s.callClient j.remote.client .ping = called at hcalled hdue hnotices hshown ⊢
  obtain ⟨reply, s'⟩ := called
  by_cases hthrows : ∃ fault, reply = .throws fault
  · obtain ⟨fault, rfl⟩ := hthrows
    simp only [giveUpBoot_eq]
    refine ⟨hshown, Or.inl ⟨fault, rfl, (hcalled.notes _).post_started 0 _, ?_⟩⟩
    exact congrArg (· ++ unreachableLine fault) hnotices
  · have hreply : ∀ fault, reply ≠ .throws fault := fun fault h => hthrows ⟨fault, h⟩
    obtain ⟨e', he', harranged⟩ := hcalled.arrange hreply 0 0
    have harranges : Moves { job := fun _ => True, task := fun _ => True } s'
        (s'.arrange reply 0 0 (.answer j.task)) :=
      (Moves.refl s').arrange reply (Nat.le_refl 0) (Nat.zero_le mostTurns) fun _ => trivial
    have hwaits := harranges.startWait (t := j.task) trivial trivial Leg.ping.stage
      j.remote.options.timeout none
    have hstands := harranged.startWait .ping htext
    rw [harranges.dueAfter_eq.trans hdue] at hstands
    have hsilent := (hwaits.notices_eq fun _ => id).trans hnotices
    have hmade := (hwaits.calls_eq fun _ => id).trans hshown
    cases reply with
    | throws fault => exact absurd rfl (hreply fault)
    | _ => exact ⟨hmade, Or.inr ⟨hreply, hsilent, e', he', hstands⟩⟩

theorem Stands.accountAt_resume {leg : Leg} {outcome : Outcome α}
    (h : j.Stands s e (.leaving leg outcome)) {n : Nat}
    (hentry : s.agenda[n]? = some (0, .resume j.task)) {lines : List (Notice α)}
    (hlines : (s.happen (.work n)).notices = s.notices ++ lines) :
    s.accountAt j.task (.work n) =
      { pings := (s.pinged? j.task (.work n)).toList, lines } := by
  ext1
  · simp [accountAt, linked?, act?, hentry]
  · simp [accountAt, h.hears?_over id]
  · rfl
  · simp [accountAt, isTurnOf, hentry, Job.owner?, hlines]

theorem Stands.pinged?_linked {answer : Option (Value α)}
    (h : j.Stands s e (.leaving .link (.ok answer))) {n : Nat}
    (hentry : s.agenda[n]? = some (0, .resume j.task)) :
    s.pinged? j.task (.work n) =
      some ((s.taken (.work n)).callClient j.remote.client .ping).1 := by
  obtain ⟨attempt, hremote⟩ := h.exists_remote
  simp only [pinged?, hentry, h.task, Boot.progress, Leg.stage, if_true, hremote, Option.map_some]
  exact congrArg some (reply_congr s (s.taken (.work n)) rfl rfl rfl _ _).symm

theorem Stands.pinged?_other {leg : Leg} {outcome : Outcome α}
    (h : j.Stands s e (.leaving leg outcome))
    (hother : leg = .ping ∨ ∃ fault, outcome = .error fault) (ev : Event α) :
    s.pinged? j.task ev = none := by
  cases ev with
  | work n =>
    simp only [pinged?, h.task, Boot.progress]
    obtain rfl | ⟨fault, rfl⟩ := hother
    · split <;> simp_all [Leg.stage]
    · split <;> simp_all
  | _ => rfl

theorem Stands.happen_resume {leg : Leg} {outcome : Outcome α}
    (h : j.Stands s e (.leaving leg outcome)) (hfree : Free e (.leaving leg outcome))
    (htext : textOrMissing? j.remote.options.timeout = some j.milliseconds) {n : Nat}
    (hentry : s.agenda[n]? = some (0, .resume j.task))
    (htaken : j.Stands (s.taken (.work n)) e (.busy (some (leg, outcome)))) :
    ∃ e' b', j.StepsTo s (.work n) e (.leaving leg outcome) e' b' := by
  have hhappen : s.happen (.work n) = (s.taken (.work n)).resume j.task := by
    simp only [Deployment.happen, hentry, taken, turn, run]
  unfold StepsTo
  cases outcome with
  | error fault =>
    obtain ⟨hstands, hlines⟩ := htaken.resume_failed
    rw [← hhappen] at hstands hlines
    refine ⟨e, _, hstands, ?_⟩
    rw [h.accountAt_resume hentry hlines, h.pinged?_other (Or.inr ⟨fault, rfl⟩)]
    exact .failed e leg fault
  | ok answer =>
    cases leg with
    | ping =>
      obtain ⟨hstands, hlines⟩ := htaken.resume_answered
      rw [← hhappen] at hstands hlines
      refine ⟨e, _, hstands, ?_⟩
      rw [h.accountAt_resume hentry hlines, h.pinged?_other (Or.inl rfl)]
      exact .answered e answer
    | link =>
      obtain rfl := hfree answer rfl
      have hpinged := h.pinged?_linked hentry
      obtain ⟨-, ⟨fault, hthrows, hstands, hlines⟩ | ⟨hreply, hsilent, e', he', hstands⟩⟩ :=
        htaken.resume_linked htext
      · rw [← hhappen] at hstands hlines
        refine ⟨_, _, hstands, ?_⟩
        rw [h.accountAt_resume hentry hlines, hpinged, hthrows]
        exact .unsendable .finished answer fault
      · rw [← hhappen] at hstands hsilent
        refine ⟨e', _, hstands, ?_⟩
        rw [h.accountAt_resume hentry (hsilent.trans (List.append_nil _).symm), hpinged]
        exact .sent answer hreply he'

theorem Stands.happen_own (h : j.Stands s e b) (hfree : Free e b)
    (htext : textOrMissing? j.remote.options.timeout = some j.milliseconds) {n turns : Nat}
    {job : Job α} (hentry : s.agenda[n]? = some (turns, job))
    (hown : job.owner? = some j.task) : ∃ e' b', j.StepsTo s (.work n) e b e' b' := by
  have hready := h.of_ready hentry hown
  cases turns with
  | succ turns =>
    -- The work lets a turn pass, and nothing else changes.
    have hhappen : s.happen (.work n) = (s.taken (.work n)).post turns job := by
      simp only [Deployment.happen, hentry, taken, turn]
    have hunheard : s.hears? j.task (.work n) = none :=
      hears?_of_unheard (by simp [ending?, hentry])
    have hseen : s.accountAt j.task (.work n) = {} := by
      refine accountAt_of_unseen ?_ hunheard ?_ ?_
      · simp [linked?, act?, hentry]
      · simp [pinged?, hentry]
      · rw [hhappen]
        rfl
    refine ⟨e, b, hhappen ▸ ?_, hseen ▸ .rest e b⟩
    obtain ⟨outcome, rfl, rfl, htaken⟩ | ⟨leg, outcome, rfl, rfl, htaken⟩ |
      ⟨left, worded, rfl, rfl, htaken⟩ := hready
    · exact htaken.post_answer turns outcome
    · exact htaken.post_resume turns
    · exact htaken.post_started turns worded
  | zero =>
    obtain ⟨outcome, rfl, he, htaken⟩ | ⟨leg, outcome, rfl, rfl, htaken⟩ |
      ⟨left, worded, rfl, rfl, htaken⟩ := hready
    · exact h.happen_answer hentry he htaken
    · exact h.happen_resume hfree htext hentry htaken
    · have hhappen : s.happen (.work n) =
          (s.taken (.work n)).started j.task (Boot.verdict worded) := by
        simp only [Deployment.happen, hentry, taken, turn, run]
      obtain ⟨hstarted, hsettled⟩ := htaken.started worded
      have hseen : s.accountAt j.task (.work n) = {} := by
        refine accountAt_of_unseen ?_ (h.hears?_over id _) ?_ ?_
        · simp [linked?, act?, hentry]
        · simp [pinged?, hentry]
        · rw [hhappen, hstarted]
          rfl
      exact ⟨e, _, (hhappen.trans hstarted) ▸ hsettled, hseen ▸ .ended e left worded⟩

theorem Stands.happen_link (h : j.Stands s e b) {n turns : Nat} {job : Job α} {i : StoreId}
    (hentry : s.agenda[n]? = some (turns, job)) (hlink : job.link? = some i)
    (hqueued : 0 < (s.share j.task).queued i) : ∃ e' b', j.StepsTo s (.work n) e b e' b' := by
  have hhappen : s.happen (.work n) = (s.taken (.work n)).turn (turns, job) := by
    simp only [happen, hentry, taken]
  obtain ⟨outcome, status, rfl, rfl, hwaits, hcaller⟩ := h.caller.of_queued hentry hlink hqueued
  have htaken : j.Stands (s.taken (.work n)) .linking b := stands_of_caller hcaller h.unsent
  have hunheard : s.hears? j.task (.work n) = none :=
    hears?_of_unheard (by simp [ending?, hentry])
  have hrest : s.accountAt j.task (.work n) =
      { links := (s.linked? j.task (.work n)).toList } := by
    ext1
    · rfl
    · simp [accountAt, hunheard]
    · simp [accountAt, pinged?, hentry]
    · simp [accountAt, isTurnOf, hentry, Job.owner?]
  unfold StepsTo
  rw [hrest]
  cases turns with
  | zero =>
    refine ⟨_, b, by rw [hhappen]; exact htaken.linkSettled outcome status, ?_⟩
    have hlinked : s.linked? j.task (.work n) = some outcome := by
      simp [linked?, act?, hentry, show j.task ∈ s.waiters j.store from hwaits]
    rw [hlinked]
    exact .linked outcome b
  | succ turns =>
    have hposted : j.Stands ((s.taken (.work n)).post turns (.linkSettled j.store outcome status))
        .linking b := stands_of_caller (hcaller.post_link _ _ _ _) h.unsent
    refine ⟨_, b, by rw [hhappen]; exact hposted, ?_⟩
    have hunlinked : s.linked? j.task (.work n) = none := by simp [linked?, act?, hentry]
    rw [hunlinked]
    exact .rest _ b

theorem Stands.happen_deadline (h : j.Stands s e b) {n : Nat} {timer : Timer α}
    (htimer : s.timers[n]? = some timer) (hdeadline : timer.isDeadlineOf j.task = true) :
    ∃ e' b', j.StepsTo s (.alarm n) e b e' b' := by
  have hmem := mem_deadlines_share htimer hdeadline
  rw [h.share] at hmem
  cases b with
  | waiting leg due =>
    obtain rfl : timer = ⟨due, .deadline j.task j.milliseconds⟩ := List.mem_singleton.mp hmem
    have hhappen := happen_deadline_eq htimer
    obtain ⟨deadlines, htaken⟩ := h.caller.taken_deadline htimer rfl
    have hended := stands_endWait htaken h.unsent (some (.error (.timedOut j.milliseconds)))
    refine ⟨e, _, hhappen ▸ hended, ?_⟩
    have hseen : s.accountAt j.task (.alarm n) = { heard := [.expired] } := by
      refine (accountAt_of_silent ?_ rfl ?_).trans ?_
      · simp [linked?, act?, htimer, Timer.reply?]
      · rw [hhappen, notices_endWait, notices_taken]
      · simp [h.hears?_waiting, ending?, htimer]
    exact hseen ▸ .expired e leg due
  | _ => cases hmem

theorem Stands.happen_reply (h : j.Stands s e b) {n : Nat} {timer : Timer α} {job : Job α}
    (htimer : s.timers[n]? = some timer) (hreply : timer.reply? = some job)
    (hown : job.owner? = some j.task) : ∃ e' b', j.StepsTo s (.alarm n) e b e' b' := by
  obtain ⟨outcome, rfl, rfl, htold, hsilent⟩ := h.caller.happen_reply htimer hreply hown
  have hunended := ending?_of_reply htimer hreply j.task none
  have hseen : s.accountAt j.task (.alarm n) = {} := by
    refine accountAt_of_unseen ?_ (hears?_of_unheard hunended) rfl hsilent
    simp [linked?, act?, htimer, hreply]
  exact ⟨_, b, stands_of_caller htold (Errand.told_ne_sending outcome), hseen ▸ .arrived outcome b⟩

omit [Scalar α] [Textual α] in
/-- A startup listens to nothing. -/
theorem Stands.deaf (h : j.Stands s e b) (signal : SignalId) :
    signal ∉ (s.share j.task).listeners := by
  rw [h.share]
  exact List.not_mem_nil

theorem Stands.happen (h : j.Stands s e b) (hs : s.Prompt) (hfree : Free e b)
    (htext : textOrMissing? j.remote.options.timeout = some j.milliseconds) (ev : Event α) :
    ∃ e' b', j.StepsTo s ev e b e' b' := by
  by_cases hconcerns : s.Concerns j.task ev
  · cases ev with
    | start call => exact absurd hconcerns (Nat.ne_of_gt h.lt)
    | work n =>
      obtain ⟨turns, job, hentry, hown | ⟨i, hlink, hqueued⟩⟩ := hconcerns
      · exact h.happen_own hfree htext hentry hown
      · exact h.happen_link hentry hlink hqueued
    | alarm n =>
      obtain ⟨timer, htimer, hdeadline | ⟨job, hreply, hown⟩⟩ := hconcerns
      · exact h.happen_deadline htimer hdeadline
      · exact h.happen_reply htimer hreply hown
    | abort signal => exact absurd hconcerns (h.deaf signal)
    | hangUp u => exact absurd hconcerns (h.deaf _)
    | _ => exact hconcerns.elim
  · exact ⟨e, b, h.happen_other hs hconcerns, accountAt_other hconcerns ▸ .rest e b⟩

end Startup

/-! The beginning -/

section

variable [Scalar α] [Textual α]

/-- The startup of a store in Redis that is about to begin. -/
def startup (s : Deployment α) (i : StoreId) (store : RedisStore α) (milliseconds : String) :
    Startup α := ⟨s.tasks.length, i, store, milliseconds⟩

variable {s : Deployment α} {i : StoreId} {store : RedisStore α}

omit [Scalar α] [Textual α] in
theorem stands_newTask (hs : s.Clear) (hstore : s.remote? i = some store) (milliseconds : String) :
    (s.startup i store milliseconds).Stands (s.newTask i (.boot none)).2 .finished
      (.busy none) where
  remote := by
    show (s.remote? i).map _ = _
    rw [hstore]
    rfl
  task := List.getElem?_concat_length
  share := hs.share
  unsent := nofun

theorem linkNow?_newTask (s : Deployment α) (i k : StoreId) (purpose : Purpose α) :
    (s.newTask k purpose).2.linkNow? i = s.linkNow? i := by
  have hremote : (s.newTask k purpose).2.remote? i = s.remote? i := rfl
  have hstatus : ∀ c, (s.newTask k purpose).2.linkStatus c = s.linkStatus c := fun _ => rfl
  have hreply : ∀ c, ((s.newTask k purpose).2.callClient c .connect).1 =
      (s.callClient c .connect).1 := fun c =>
    reply_congr s (s.newTask k purpose).2 rfl rfl rfl c .connect
  simp only [linkNow?, hremote, hstatus, hreply]

theorem start_bootStore_eq (hstore : s.remote? i = some store) :
    s.start (.bootStore i) =
      (s.newTask i (.boot none)).2.bootRedis s.tasks.length i store := by
  have hstores := remote?_eq_some_iff.mp hstore
  have hlt : i < s.stores.length := (List.getElem?_eq_some_iff.mp hstores).1
  have hstores' : (s.newTask i (.boot none)).2.stores[i]? = some (.redis store) := hstores
  simp only [start, onStore, hlt, if_true]
  show (s.newTask i (.boot none)).2.boot s.tasks.length i .thrown = _
  simp only [boot, hstores']

theorem accountAt_start {lines : List (Notice α)}
    (hlines : (s.start (.bootStore i)).notices = s.notices ++ lines) :
    s.accountAt s.tasks.length (.start (.bootStore i)) =
      { links := (s.linkNow? i).toList, lines } := by
  ext1
  · simp [accountAt, linked?, storeOf?]
  · simp [accountAt, hears?]
  · rfl
  · simp [accountAt, isTurnOf, happen, hlines]

/-- A startup begins by asking for the connection. -/
theorem stands_connectFor (hs : s.Clear) (hstore : s.remote? i = some store)
    (milliseconds : String) :
    let j := s.startup i store milliseconds
    ∃ fault? s', (s.newTask i (.boot none)).2.connectFor s.tasks.length i store
        (.answer s.tasks.length (.ok none)) = (fault?, s') ∧
      s'.dueAfter = s.dueAfter ∧ s'.notices = s.notices ∧
      match fault? with
      | some fault => s.linkNow? i = some (.error fault) ∧ j.Stands s' .finished (.busy none)
      | none => ∃ e, j.Stands s' e (.busy none) ∧
          (s.linkNow? i = none ∧ e = .linking ∨
            s.linkNow? i = some (.ok none) ∧ e = .told (.ok none)) := by
  intro j
  have hbegins : j.Stands (s.newTask i (.boot none)).2 .finished (.busy none) :=
    stands_newTask hs hstore milliseconds
  have hstores : (s.newTask i (.boot none)).2.stores[i]? =
      some (.redis { store with attempt := store.attempt }) := remote?_eq_some_iff.mp hstore
  obtain ⟨fault?, s', hconnect, hdue, hnotices, hthen⟩ :=
    hbegins.caller.connectFor store.attempt hstores (hbegins.caller.post_answer 0 (.ok none))
  have hlink : (s.newTask i (.boot none)).2.linkNow? j.caller.store = s.linkNow? i :=
    linkNow?_newTask s i i _
  rw [hlink] at hthen
  refine ⟨fault?, s', hconnect, hdue, hnotices, ?_⟩
  cases fault? with
  | some fault => exact ⟨hthen.1, Startup.stands_of_caller hthen.2 hbegins.unsent⟩
  | none =>
    obtain ⟨hnow, hstands⟩ | ⟨hnow, hstands⟩ := hthen
    · exact ⟨.linking, Startup.stands_of_caller hstands (by simp), Or.inl ⟨hnow, rfl⟩⟩
    · exact ⟨.told (.ok none), Startup.stands_of_caller hstands (by simp), Or.inr ⟨hnow, rfl⟩⟩

/-- A startup gives up at once if the connection cannot even be attempted. Otherwise it begins to
wait. -/
theorem stands_start (hs : s.Clear) (hstore : s.remote? i = some store) {milliseconds : String}
    (htext : textOrMissing? store.options.timeout = some milliseconds) :
    let j := s.startup i store milliseconds
    let booted := s.start (.bootStore i)
    let seen := s.accountAt s.tasks.length (.start (.bootStore i))
    (∃ fault, seen = { links := [.error fault], lines := unreachableLine fault } ∧
      j.Stands booted .finished (.ending none fault.message?.isSome)) ∨
    ∃ e, (seen = {} ∧ e = .linking ∨ seen = { links := [.ok none] } ∧ e = .told (.ok none)) ∧
      j.Stands booted e
        (.waiting .link (s.dueAfter (numeral store.options.timeout))) := by
  intro j booted seen
  obtain ⟨fault?, s', hconnect, hdue, hnotices, hthen⟩ :=
    stands_connectFor hs hstore milliseconds
  cases fault? with
  | some fault =>
    obtain ⟨hnow, hstands⟩ := hthen
    have hboot : booted = s'.giveUpBoot s.tasks.length fault := by
      rw [show booted = _ from start_bootStore_eq hstore, bootRedis, hconnect]
    refine Or.inl ⟨fault, ?_, hboot ▸ hstands.giveUp fault⟩
    have hlines : booted.notices = s.notices ++ unreachableLine fault := by
      rw [hboot, giveUpBoot_eq]
      exact congrArg (· ++ unreachableLine fault) hnotices
    rw [show seen = _ from accountAt_start hlines, hnow]
    rfl
  | none =>
    obtain ⟨e, hstands, he⟩ := hthen
    have hboot : booted = s'.startWait s.tasks.length .link store.options.timeout none := by
      rw [show booted = _ from start_bootStore_eq hstore, bootRedis, hconnect]
    have hwaits := (Moves.refl (p := { task := fun _ => True, job := fun _ => True }) s').startWait
      (t := s.tasks.length) trivial trivial .link store.options.timeout none
    have hlines : booted.notices = s.notices ++ [] := by
      rw [hboot, List.append_nil]
      exact (hwaits.notices_eq fun _ => id).trans hnotices
    have hwaiting := hstands.startWait .link htext
    rw [hdue] at hwaiting
    refine Or.inr ⟨e, ?_, hboot ▸ hwaiting⟩
    rw [show seen = _ from accountAt_start hlines]
    obtain ⟨hnow, rfl⟩ | ⟨hnow, rfl⟩ := he
    · exact Or.inl ⟨by rw [hnow]; rfl, rfl⟩
    · exact Or.inr ⟨by rw [hnow]; rfl, rfl⟩

end

end Deployment

end Admission
