import Admission.Proofs.Deployment.Journey
import Admission.Proofs.Deployment.Rounds

/-!
The journey of a check along a whole course.

What ends the wait is the first of its endings in the course. What reaches the check as an answer is
what it was told before, by its connection or by its script, and it is told something at most once.
Once all ready work has taken its turns, a check whose wait was ended is settled.
-/
namespace Admission.Deployment

variable {α : Type}

/-- The first end that a course puts to the wait of a task with a signal. -/
def firstEnding? [Scalar α] [Textual α] (s : Deployment α) (t : TaskId) (signal : Option SignalId) :
    List (Event α) → Option (Ending α)
  | [] => none
  | ev :: events => (s.ending? t signal ev).or ((s.happen ev).firstEnding? t signal events)

/-- What a task is told by an event: that its connection failed, or what its script came to. -/
def Act.told? (reply : Option (Outcome α)) : Option (Act α) → Option (Outcome α)
  | some (.links (.error fault)) => some (.error fault)
  | some .sends => reply
  | _ => none

/-- Whether an event sends the script for a task. -/
def Act.isSending : Option (Act α) → Bool
  | some .sends => true
  | _ => false

section

variable [Scalar α] [Textual α]

/-- All that a check is told in a course. -/
def tellings (s : Deployment α) (store : RedisStore α) (c : Check α) (t : TaskId) :
    List (Event α) → List (Outcome α)
  | [] => []
  | ev :: events =>
    (Act.told? (s.scriptReply store c).outcome? (s.act? t ev)).toList ++
      (s.happen ev).tellings store c t events

/-- How often the script is sent for a task in a course. -/
def sendings (s : Deployment α) (t : TaskId) : List (Event α) → Nat
  | [] => 0
  | ev :: events =>
    (Act.isSending (s.act? t ev)).toNat + (s.happen ev).sendings t events

end

/-- The script is sent for a task when that work of it has its turn. -/
theorem exists_of_sends {s : Deployment α} {t : TaskId} {ev : Event α}
    (h : s.act? t ev = some .sends) : ∃ n, ev = .work n ∧ s.agenda[n]? = some (0, .evaluate t) := by
  cases ev with
  | work n =>
    simp only [act?] at h
    split at h
    · split at h <;> cases h
    · next u hentry =>
      split at h
      · next hu => exact ⟨n, rfl, hu ▸ hentry⟩
      · cases h
    · split at h <;> cases h
    · cases h
  | alarm n =>
    simp only [act?] at h
    split at h
    · split at h <;> cases h
    · cases h
  | _ => cases h

/-- What reaches a task as an outcome is what ends its wait as an answer. -/
theorem act?_eq_delivers_iff {s : Deployment α} {t : TaskId} {signal : Option SignalId}
    {ev : Event α} {outcome : Outcome α} :
    s.act? t ev = some (.delivers outcome) ↔ s.ending? t signal ev = some (.answered outcome) := by
  cases ev with
  | work n =>
    simp only [act?, ending?]
    rcases s.agenda[n]? with _ | ⟨_ | turns, _ | ⟨u, other⟩ | _ | _ | _ | _ | _⟩ <;>
      try simp only [reduceCtorEq]
    · split <;> simp
    · split <;> simp
    · split <;> simp
  | alarm n =>
    simp only [act?, ending?]
    refine iff_of_false ?_ ?_ <;> intro h
    · split at h
      · split at h <;> cases h
      · cases h
    · split at h
      · split at h <;> cases h
      · cases h
  | abort signal =>
    simp only [act?, ending?]
    split <;> simp
  | hangUp u =>
    simp only [act?, ending?]
    split <;> simp
  | _ => simp [act?, ending?]

theorem exists_answered_of_work {s : Deployment α} {t : TaskId} {signal : Option SignalId}
    {n : Nat} {ending : Ending α} (h : s.ending? t signal (.work n) = some ending) :
    ∃ outcome, ending = .answered outcome := by
  simp only [ending?] at h
  split at h
  · next u outcome hentry =>
    split at h
    · exact ⟨outcome, (Option.some.inj h).symm⟩
    · cases h
  · cases h

theorem exists_answered_of_works [Scalar α] [Textual α] {s : Deployment α} {t : TaskId}
    {signal : Option SignalId} {turns : Nat} {ending : Ending α}
    (h : s.firstEnding? t signal (List.replicate turns (.work 0)) = some ending) :
    ∃ outcome, ending = .answered outcome := by
  induction turns generalizing s with
  | zero => cases h
  | succ turns ih =>
    obtain hnow | ⟨-, hlater⟩ := Option.or_eq_some_iff.mp h
    · exact exists_answered_of_work hnow
    · exact ih hlater

/-- What an errand has been told so far, and how often its script was sent. -/
inductive Errand.Past : Errand α → List (Outcome α) → Nat → Prop
  | linking : Past .linking [] 0
  | sending : Past .sending [] 0
  | awaiting (outcome : Outcome α) : Past (.awaiting outcome) [outcome] 1
  | told (outcome : Outcome α) {n : Nat} (hn : n ≤ 1) : Past (.told outcome) [outcome] n
  | finished {heard : List (Outcome α)} (hheard : heard.length ≤ 1) {n : Nat} (hn : n ≤ 1) :
      Past .finished heard n

namespace Errand.Past

variable {e e' : Errand α} {heard : List (Outcome α)} {n : Nat} {reply : Option (Outcome α)}
  {act : Option (Act α)}

/-- Nothing has been told at the start. -/
theorem start (he : e = .linking ∨ e = .sending) : e.Past [] 0 := by
  rcases he with rfl | rfl <;> constructor

theorem length_le (h : e.Past heard n) : heard.length ≤ 1 := by
  cases h with
  | linking => exact Nat.zero_le 1
  | sending => exact Nat.zero_le 1
  | awaiting => exact Nat.le_refl 1
  | told => exact Nat.le_refl 1
  | finished hheard => exact hheard

theorem le_one (h : e.Past heard n) : n ≤ 1 := by
  cases h with
  | linking => exact Nat.zero_le 1
  | sending => exact Nat.zero_le 1
  | awaiting => exact Nat.le_refl 1
  | told _ hn => exact hn
  | finished _ hn => exact hn

theorem step (h : e.Past heard n) (hstep : Errand.Step reply act e e') :
    e'.Past (heard ++ (Act.told? reply act).toList) (n + (Act.isSending act).toNat) := by
  cases hstep with
  | rest => simpa [Act.told?, Act.isSending] using h
  | linked outcome =>
    cases h
    cases outcome with
    | ok answer => exact .sending
    | error fault => exact .told _ (Nat.zero_le 1)
  | sent hreply =>
    cases h
    subst hreply
    exact .awaiting _
  | replied hreply =>
    cases h
    subst hreply
    exact .told _ (Nat.le_refl 1)
  | unanswered hreply =>
    cases h
    subst hreply
    exact .finished (by simp [Act.told?]) (Nat.le_refl 1)
  | arrived outcome =>
    cases h
    exact .told _ (Nat.le_refl 1)
  | delivered outcome =>
    cases h with
    | told _ hn =>
      exact .finished (by simp [Act.told?]) hn

end Errand.Past

namespace Journey

variable [Scalar α] [Textual α] {j : Journey α} {s : Deployment α} {e : Errand α} {w : Wait α}

/-- How a check stands after a course, given what it had been told before. -/
structure RunsTo (j : Journey α) (s : Deployment α) (events : List (Event α)) (w : Wait α)
    (heard : List (Outcome α)) (n : Nat) (e' : Errand α) (w' : Wait α) : Prop where
  stands : j.Stands (s.after events) e' w'
  wait : w'.end? =
    w.end?.or ((s.firstEnding? j.task j.check.signal events).map (Ending.outcome? j.milliseconds))
  rests : w.Rests → w'.Rests
  live : w' = .waiting → (s.after events).isAborted j.check.signal = false
  past : e'.Past (heard ++ s.tellings j.remote j.check j.task events)
    (n + s.sendings j.task events)
  answered : ∀ outcome, w.end? = none →
    s.firstEnding? j.task j.check.signal events = some (.answered outcome) →
    heard ++ s.tellings j.remote j.check j.task events = [outcome]
  unheard : w' = .waiting → e' = .finished → heard ++ s.tellings j.remote j.check j.task events = []

theorem StepsTo.live {ev : Event α} {e' : Errand α} {w' : Wait α} (h : j.StepsTo s ev e w e' w')
    (hs : s.Prompt) (hlive : w = .waiting → s.isAborted j.check.signal = false)
    (hwaiting : w' = .waiting) : (s.happen ev).isAborted j.check.signal = false := by
  subst hwaiting
  obtain ⟨hend, hnone⟩ := Option.or_eq_none_iff.mp h.wait.symm
  exact live_happen hs (hlive (Wait.end?_eq_none_iff.mp hend)) (Option.map_eq_none_iff.mp hnone)

/-- A check that waits on and whose errand is over has been told nothing. -/
theorem StepsTo.unheard {ev : Event α} {e' : Errand α} {w' : Wait α} {heard : List (Outcome α)}
    {n : Nat} (h : j.StepsTo s ev e w e' w') (hpast : e.Past heard n)
    (hunheard : w = .waiting → e = .finished → heard = []) (hwaiting : w' = .waiting)
    (hover : e' = .finished) :
    heard ++ (Act.told? (s.scriptReply j.remote j.check).outcome? (s.act? j.task ev)).toList =
      [] := by
  subst hwaiting
  obtain ⟨hend, hnone⟩ := Option.or_eq_none_iff.mp h.wait.symm
  have hbefore := Wait.end?_eq_none_iff.mp hend
  have hunended := Option.map_eq_none_iff.mp hnone
  have herrand := h.errand
  generalize hact : s.act? j.task ev = act at herrand ⊢
  cases herrand with
  | rest => simp [hunheard hbefore hover, Act.told?]
  | linked outcome => cases outcome <;> cases hover
  | unanswered hreply =>
    cases hpast
    simp [Act.told?, hreply]
  | delivered outcome => simp [act?_eq_delivers_iff.mp hact] at hunended
  | _ => cases hover

theorem Stands.after (h : j.Stands s e w) (hs : s.Prompt)
    (hlive : w = .waiting → s.isAborted j.check.signal = false) {heard : List (Outcome α)} {n : Nat}
    (hpast : e.Past heard n) (hunheard : w = .waiting → e = .finished → heard = [])
    (events : List (Event α)) : ∃ e' w', j.RunsTo s events w heard n e' w' := by
  induction events generalizing s e w heard n with
  | nil =>
    refine ⟨e, w, h, by simp [firstEnding?], id, hlive,
      by simpa [tellings, sendings] using hpast, ?_, by simpa [tellings] using hunheard⟩
    intro outcome _ hnone
    cases hnone
  | cons ev events ih =>
    obtain ⟨e₁, w₁, hstep⟩ := h.happen hs hlive ev
    obtain ⟨e', w', hrun⟩ := ih hstep.stands (hs.happen ev) (hstep.live hs hlive)
      (hpast.step hstep.errand)
      (hstep.unheard hpast hunheard)
    refine ⟨e', w', hrun.stands, ?_, hrun.rests ∘ hstep.rests, hrun.live, ?_, ?_, ?_⟩
    · rw [hrun.wait, hstep.wait, firstEnding?, Option.or_assoc, Option.map_or]
    · have hpast' := hrun.past
      rwa [List.append_assoc, Nat.add_assoc] at hpast'
    · intro outcome hend hfirst
      rw [firstEnding?, Option.or_eq_some_iff] at hfirst
      obtain hnow | ⟨hnone, hlater⟩ := hfirst
      · have htold : e = .told outcome := by
          have herrand := hstep.errand
          rw [act?_eq_delivers_iff.mpr hnow] at herrand
          cases herrand
          rfl
        subst htold
        cases hpast with
        | told _ hn =>
          have hlength := hrun.past.length_le
          rw [List.append_assoc, List.singleton_append, List.length_cons] at hlength
          have hrest := Nat.le_zero.mp (Nat.le_of_succ_le_succ hlength)
          exact congrArg ([outcome] ++ ·) (List.eq_nil_of_length_eq_zero hrest)
      · have hend₁ : w₁.end? = none := by rw [hstep.wait, hend, hnone]; rfl
        have hheard := hrun.answered outcome hend₁ hlater
        rwa [List.append_assoc] at hheard
    · intro hwaiting hover
      have hheard := hrun.unheard hwaiting hover
      rwa [List.append_assoc] at hheard

/-! When all ready work has taken its turns -/

/-- A check whose wait is over and that has nothing ready is settled by its end, unless nobody hears
of that end. -/
theorem settled_share (hrests : w.Rests) (hidle : w.ready j.task = 0)
    {outcome? : Option (Outcome α)} (hend : w.end? = some outcome?) :
    (j.share e w).settled =
      (outcome?.map fun outcome => j.settlement (Fault.verdictOf outcome)).toList := by
  cases w with
  | settled outcome =>
    cases hend
    rfl
  | lost =>
    cases hend
    rfl
  | waiting => cases hend
  | resuming outcome => exact hrests.elim
  | _ => exact absurd hidle (Multiset.singleton_ne_zero _)

/-- Draining is a course, and nothing of the check is ready after it. -/
theorem Stands.drain (h : j.Stands s e w) (hs : s.Prompt)
    (hlive : w = .waiting → s.isAborted j.check.signal = false) {heard : List (Outcome α)} {n : Nat}
    (hpast : e.Past heard n) (hunheard : w = .waiting → e = .finished → heard = []) :
    ∃ turns e' w', s.drain = s.after (List.replicate turns (.work 0)) ∧
      j.RunsTo s (List.replicate turns (.work 0)) w heard n e' w' ∧
      e'.ready j.task = 0 ∧ w'.ready j.task = 0 := by
  obtain ⟨turns, hturns⟩ := s.exists_after_drain
  obtain ⟨e', w', hrun⟩ := h.after hs hlive hpast hunheard (List.replicate turns (.work 0))
  have hidle : e'.ready j.task + w'.ready j.task = 0 := by
    have hshare := congrArg Share.ready hrun.stands.share
    rw [← hturns] at hshare
    rw [show e'.ready j.task + w'.ready j.task = (s.drain.share j.task).ready from hshare.symm]
    simp [Deployment.share, Deployment.ready, agenda_drain hs]
  refine ⟨turns, e', w', hturns, hrun, ?_, ?_⟩
  · exact Multiset.le_zero.mp (hidle ▸ Multiset.le_add_right _ _)
  · exact Multiset.le_zero.mp (hidle ▸ Multiset.le_add_left _ _)

theorem Stands.settled_drain (h : j.Stands s e w) (hs : s.Prompt) (hrests : w.Rests)
    {heard : List (Outcome α)} {n : Nat} (hpast : e.Past heard n) {outcome? : Option (Outcome α)}
    (hend : w.end? = some outcome?) :
    (s.drain.share j.task).settled =
      (outcome?.map fun outcome => j.settlement (Fault.verdictOf outcome)).toList := by
  have hover : w ≠ .waiting := by
    rintro rfl
    cases hend
  obtain ⟨turns, e', w', hdrain, hrun, -, hidle⟩ :=
    h.drain hs (absurd · hover) hpast (absurd · hover)
  rw [hdrain, hrun.stands.share]
  exact settled_share (hrun.rests hrests) hidle (by rw [hrun.wait, hend, Option.some_or])

/-- What a check was told is about to reach it as long as its wait has no end. -/
theorem Stands.told_after {told : Outcome α} (h : j.Stands s (.told told) .waiting) (hs : s.Prompt)
    (hlive : s.isAborted j.check.signal = false) {events : List (Event α)}
    (hnone : s.firstEnding? j.task j.check.signal events = none) :
    j.Stands (s.after events) (.told told) .waiting := by
  induction events generalizing s with
  | nil => exact h
  | cons ev events ih =>
    obtain ⟨hnow, hlater⟩ := Option.or_eq_none_iff.mp hnone
    obtain ⟨e', w', hstep⟩ := h.happen hs (fun _ => hlive) ev
    have hwaits : w' = .waiting := by
      rw [← Wait.end?_eq_none_iff, hstep.wait, hnow]
      rfl
    have hstill : e' = .told told := by
      have herrand := hstep.errand
      generalize hact : s.act? j.task ev = act at herrand
      cases herrand with
      | rest => rfl
      | delivered => simp [act?_eq_delivers_iff.mp hact] at hnow
    subst hwaits hstill
    exact ih hstep.stands (hs.happen ev) (live_happen hs hlive hnow) hlater

/-- A check that still waits and has been told what it came to is settled with that. -/
theorem Stands.settled_drain_of_told {told : Outcome α} (h : j.Stands s (.told told) .waiting)
    (hs : s.Prompt) (hlive : s.isAborted j.check.signal = false) :
    (s.drain.share j.task).settled =
      (((Ending.answered told).outcome? j.milliseconds).map
        fun outcome => j.settlement (Fault.verdictOf outcome)).toList := by
  obtain ⟨turns, e', w', hdrain, hrun, hidle, hidle'⟩ :=
    h.drain hs (fun _ => hlive) (.told told (Nat.zero_le 1)) nofun
  rw [hdrain, hrun.stands.share]
  refine settled_share (hrun.rests trivial) hidle' ?_
  cases hfirst : s.firstEnding? j.task j.check.signal (List.replicate turns (.work 0)) with
  | none =>
    have hready := congrArg Share.ready (h.told_after hs hlive hfirst).share
    rw [hrun.stands.share] at hready
    have hsome : e'.ready j.task + w'.ready j.task = {.answer j.task told} + 0 := hready
    rw [hidle, hidle', Multiset.add_zero, Multiset.add_zero] at hsome
    exact absurd hsome.symm (Multiset.singleton_ne_zero _)
  | some ending =>
    obtain ⟨outcome, rfl⟩ := exists_answered_of_works hfirst
    have htold := hrun.answered outcome rfl hfirst
    obtain ⟨rfl, -⟩ := List.cons_eq_cons.mp htold
    rw [hrun.wait, hfirst]
    rfl

end Journey

section

variable [Scalar α] [Textual α]

/-- Starting a check aborts nothing. -/
theorem isAborted_startCheck (s : Deployment α) (i : StoreId) (c : Check α)
    (signal : Option SignalId) : (s.startCheck i c).isAborted signal = s.isAborted signal := by
  have hmoves : Moves { Scope.any with signal := fun _ => False } s (s.startCheck i c) :=
    ((Moves.refl s).newTask trivial i (.check c)).check trivial trivial trivial (fun _ _ => trivial)
      (fun _ => trivial) (fun _ _ _ => trivial) (fun _ _ _ _ _ => ⟨trivial, fun _ _ => trivial⟩) c
  cases signal with
  | none => rfl
  | some signal => exact hmoves.isAborted_eq id

/-- A check that is handed to a store in Redis and not abandoned before runs through every course
that follows. -/
theorem startCheck_runsTo {s : Deployment α} (hs : s.Clear) {i : StoreId} {store : RedisStore α}
    (hstore : s.remote? i = some store) {c : Check α} (hlive : s.isAborted c.signal = false)
    {milliseconds : String} (htext : textOrMissing? store.options.timeout = some milliseconds)
    (hpromise : s.Promises store) (events : List (Event α)) :
    ∃ e w,
      (s.journey i store c milliseconds).RunsTo (s.startCheck i c) events .waiting [] 0 e w := by
  obtain ⟨e, he, hstands⟩ := stands_startCheck hs hstore hlive htext hpromise
  refine hstands.after (hs.prompt.startCheck i c) (fun _ => ?_) (.start he) (fun _ _ => rfl) events
  exact (isAborted_startCheck s i c c.signal).trans hlive

/-- Under a deadline that cannot be read it runs through them with its wait over. -/
theorem startCheck_runsTo_unreadable {s : Deployment α} (hs : s.Clear) {i : StoreId}
    {store : RedisStore α} (hstore : s.remote? i = some store) {c : Check α}
    (hlive : s.isAborted c.signal = false) (htext : textOrMissing? store.options.timeout = none)
    (hpromise : s.Promises store) (milliseconds : String) (events : List (Event α)) :
    ∃ e w, (s.journey i store c milliseconds).RunsTo (s.startCheck i c) events
      (.leaving (.error .wordless)) [] 0 e w := by
  obtain ⟨e, he, hstands⟩ :=
    stands_startCheck_unreadable hs hstore hlive htext hpromise milliseconds
  exact hstands.after (hs.prompt.startCheck i c) (fun h => nomatch h) (.start he)
    (fun h => nomatch h) events

end

end Admission.Deployment
