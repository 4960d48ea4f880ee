import Admission.Proofs.Deployment.Rounds
import Admission.Proofs.Number.Exact
import Mathlib.Tactic.Linarith

/-!
Courses that keep time.

Work that is ready is done before the clock moves, and the clock does not move past a timer. A
course that keeps time so is what letting the clock run comes to. At a quiet moment there is nothing
left to do before it moves on.
-/
namespace Admission.Deployment

variable {α : Type} [Scalar α]

/-- No work is ready, and no timer is due. -/
structure Quiet (s : Deployment α) : Prop where
  agenda : s.agenda = []
  timers : ∀ timer ∈ s.timers, ¬timer.due ≤ s.clock

/-- The clock may show a time next: it shows it already, or no work is ready and no timer falls due
before. -/
def MayShow (s : Deployment α) (clock : α) : Prop :=
  clock = s.clock ∨ s.agenda = [] ∧ ∀ timer ∈ s.timers, clock ≤ timer.due

def Punctual [Textual α] (s : Deployment α) : List (Event α) → Prop
  | [] => True
  | ev :: events =>
    (∀ clock, ev = .tick clock → s.MayShow clock) ∧ (s.happen ev).Punctual events

/-- Adding a span to times that are not later than it from a start keeps their order, and adding a
shorter one, such as its whole part, leads less far. Exact numbers do so, and so do binary ones as
long as start and span are finite. -/
structure KeepsOrder (start span : α) : Prop where
  trans : ∀ a b c : α, a ≤ b → b ≤ c → a ≤ c
  le_add : start ≤ start + span
  add_le : ∀ a : α, a ≤ start + span → a + span ≤ start + span + span
  add_shorter : ∀ a shorter : α, a ≤ start + span → shorter ≤ span → a + shorter ≤ a + span
  whole_le : Scalar.count (Scalar.wholeSteps span) ≤ span

theorem keepsOrder_rat (start : ℚ) {span : ℚ} (h : 0 ≤ span) : KeepsOrder start span where
  trans _ _ _ hab hbc := le_trans hab hbc
  le_add := le_add_of_nonneg_right h
  add_le _ ha := add_le_add_left ha span
  add_shorter a _ _ hshorter := add_le_add_right hshorter a
  whole_le := by
    show ((span.floor.toNat : ℕ) : ℚ) ≤ span
    have hfloor : 0 ≤ span.floor := Int.floor_nonneg.mpr h
    calc ((span.floor.toNat : ℕ) : ℚ) = ((span.floor : ℤ) : ℚ) := by
          exact_mod_cast Int.toNat_of_nonneg hfloor
      _ ≤ span := Int.floor_le span

/-- A timer falls due no later than it is told to. -/
theorem KeepsOrder.delay_le {start span : α} (h : KeepsOrder start span) (hself : span ≤ span)
    (hleast : 1 ≤ span) (clockwork : Clockwork) : clockwork.delay span ≤ span := by
  cases clockwork with
  | simulated => simpa only [Clockwork.delay, if_pos hleast] using hself
  | real =>
    by_cases hheld : 1 ≤ span ∧ span ≤ Scalar.count Clockwork.longest
    · by_cases hwhole : Scalar.isWhole span = true
      · simpa only [Clockwork.delay, if_pos hheld, if_pos hwhole] using hself
      · simpa only [Clockwork.delay, if_pos hheld, if_neg hwhole] using h.whole_le
    · simpa only [Clockwork.delay, if_neg hheld] using hleast

variable [Textual α]

theorem Punctual.append {s : Deployment α} {before later : List (Event α)}
    (hbefore : s.Punctual before) (hlater : (s.after before).Punctual later) :
    s.Punctual (before ++ later) := by
  induction before generalizing s with
  | nil => exact hlater
  | cons ev before ih => exact ⟨hbefore.1, ih hbefore.2 hlater⟩

theorem punctual_work (s : Deployment α) (turns : Nat) :
    s.Punctual (List.replicate turns (.work 0)) := by
  induction turns generalizing s with
  | zero => trivial
  | succ turns ih => exact ⟨nofun, ih _⟩

/-- An event that does not move the clock leaves it. -/
theorem clock_happen {s : Deployment α} (hs : s.Prompt) {ev : Event α}
    (hev : ∀ clock, ev ≠ .tick clock) : (s.happen ev).clock = s.clock := by
  refine (happen_moves hs ev).clock_eq.trans ?_
  cases ev with
  | tick clock => exact absurd rfl (hev clock)
  | _ => rfl

theorem clockwork_happen {s : Deployment α} (hs : s.Prompt) (ev : Event α) :
    (s.happen ev).clockwork = s.clockwork := by
  refine (happen_moves hs ev).clockwork_eq.trans ?_
  cases ev <;> rfl

omit [Scalar α] [Textual α] in
theorem due_le_of_earliest {timers rest : List (Timer ℚ)} {timer : Timer ℚ}
    (h : earliest timers = some (timer, rest)) : ∀ other ∈ timers, timer.due ≤ other.due := by
  induction timers generalizing timer rest with
  | nil => cases h
  | cons first timers ih =>
    obtain ⟨rfl, rfl, hfirst⟩ | ⟨others, hothers, hlt, rfl⟩ := earliest_cons_cases h
    · refine List.forall_mem_cons.mpr ⟨le_refl _, fun other hother => ?_⟩
      cases hbest : earliest rest with
      | none =>
        rw [earliest_eq_none_iff.mp hbest] at hother
        cases hother
      | some best =>
        have hleast := not_lt.mp (hfirst best.1 best.2 hbest)
        exact hleast.trans (ih hbest other hother)
    · exact List.forall_mem_cons.mpr ⟨hlt.le, ih hothers⟩

omit [Scalar α] [Textual α] in
/-- Letting the clock run until a time keeps time. -/
theorem exists_punctual_fireUntil (target : ℚ) (n : Nat) {s : Deployment ℚ} (hs : s.Prompt)
    (hidle : s.agenda = []) :
    ∃ events, fireUntil target n s = s.after events ∧ s.Punctual events := by
  induction n generalizing s with
  | zero => exact ⟨[], rfl, trivial⟩
  | succ n ih =>
    unfold fireUntil
    split
    · exact ⟨[], rfl, trivial⟩
    · next timer timers hdue =>
      have hearliest := (Option.filter_eq_some_iff.mp hdue).1
      obtain ⟨k, htimer, rfl⟩ := exists_getElem?_of_earliest hearliest
      let clock := if s.clock < timer.due then timer.due else s.clock
      have hmay : s.MayShow clock := by
        by_cases hlater : s.clock < timer.due
        · exact Or.inr ⟨hidle, fun other hother =>
            (if_pos hlater).le.trans (due_le_of_earliest hearliest other hother)⟩
        · exact Or.inl (if_neg hlater)
      have hfires : { s with timers := s.timers.eraseIdx k, clock }.fire timer.alarm =
          s.after [.tick clock, .alarm k] := by
        simp only [after_cons, after_nil, happen, htimer]
      have hfired : s.Punctual [.tick clock, .alarm k] :=
        ⟨fun other heq => Event.tick.inj heq ▸ hmay, fun other heq => (by cases heq), trivial⟩
      obtain ⟨turns, hturns⟩ := exists_after_drain (s.after [.tick clock, .alarm k])
      have hprompt := hs.after [.tick clock, .alarm k]
      have hdrained : (s.after [.tick clock, .alarm k]).drain.Prompt :=
        hturns ▸ hprompt.after _
      obtain ⟨events, hevents, hpunctual⟩ := ih hdrained (agenda_drain hprompt)
      refine ⟨[.tick clock, .alarm k] ++ List.replicate turns (.work 0) ++ events, ?_, ?_⟩
      · rw [after_append, after_append, ← hturns, ← hevents, ← hfires]
      · refine (hfired.append (punctual_work _ turns)).append ?_
        rw [after_append, ← hturns]
        exact hpunctual

end Admission.Deployment
