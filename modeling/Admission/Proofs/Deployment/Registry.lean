import Admission.Proofs.Deployment.Conclusion

/-!
Who owns the regular sweeps.

A regular sweep is a name in the registry and a timer that sets itself anew. Only two things change
which there are: a limiter whose store is ready registers one under the next name, and a limiter
that shuts down stops its own. As long as nobody else touches them, every name is new when it is
registered, belongs to one limiter, and is there when its limiter stops it.
-/
namespace Admission

namespace Deployment

theorem sweepName_injective : Function.Injective sweepName := by
  intro m n h
  have hlists := congrArg String.toList h
  simp only [sweepName, String.toList_append, List.append_right_inj,
    Nat.toString_eq_ofList_toDigits, String.toList_ofList] at hlists
  have hread : ∀ k, Nat.ofDigitChars 10 (Nat.toDigits 10 k) 0 = k := fun k =>
    Nat.ofDigitChars_toDigits (by decide) (by decide)
  rw [← hread m, hlists, hread n]

variable {α : Type}

/-- The name of the regular sweep that a limiter registered last. -/
def interval? (s : Deployment α) (l : LimiterId) : Option String :=
  s.limiters[l]?.bind Limiter.interval

/-- A timer sweeps for a limiter under a name. -/
def Sweeps (s : Deployment α) (l : LimiterId) (name : String) : Prop :=
  ∃ timer ∈ s.timers, ∃ period, timer.alarm = .sweep l name period

/-- A limiter owns a regular sweep of this name: the name is registered, and what is registered
under it sweeps for the limiter. -/
def Owns (s : Deployment α) (l : LimiterId) (name : String) : Prop :=
  name ∈ s.intervals ∧ s.Sweeps l name

/-- A limiter could be swept for: its store can be swept, it is configured to be, and sweeps can be
registered. -/
def Sweepable [Scalar α] (s : Deployment α) (l : LimiterId) : Prop :=
  ∃ limiter, s.limiters[l]? = some limiter ∧
    s.stores[limiter.store]?.map Store.canSweep = some true ∧
    0 < limiter.config.sweepInterval ∧ limiter.scheduled = true

/-- Nothing has happened to the regular sweeps. -/
structure SameSweeps (s s' : Deployment α) : Prop where
  intervals : s'.intervals = s.intervals
  intervalCount : s'.intervalCount = s.intervalCount
  limiters : s'.limiters = s.limiters
  sweeps : ∀ l name, s'.Sweeps l name ↔ s.Sweeps l name

namespace SameSweeps

variable {s s' s'' : Deployment α}

theorem refl (s : Deployment α) : SameSweeps s s := ⟨rfl, rfl, rfl, fun _ _ => Iff.rfl⟩

theorem trans (h : SameSweeps s s') (h' : SameSweeps s' s'') : SameSweeps s s'' where
  intervals := h'.intervals.trans h.intervals
  intervalCount := h'.intervalCount.trans h.intervalCount
  limiters := h'.limiters.trans h.limiters
  sweeps l name := (h'.sweeps l name).trans (h.sweeps l name)

theorem interval?_eq (h : SameSweeps s s') (l : LimiterId) : s'.interval? l = s.interval? l := by
  rw [interval?, interval?, h.limiters]

theorem owns_iff (h : SameSweeps s s') (l : LimiterId) (name : String) :
    s'.Owns l name ↔ s.Owns l name := by
  rw [Owns, Owns, h.intervals, h.sweeps]

end SameSweeps

/-- The names are new one after the other, every name belongs to the one limiter that remembers it,
and what is registered under it sweeps for that limiter. -/
structure WellKept (s : Deployment α) : Prop where
  nodup : s.intervals.Nodup
  named : ∀ name ∈ s.intervals, ∃ n ≤ s.intervalCount, name = sweepName n
  held : ∀ l name, s.interval? l = some name → s.Owns l name
  swept : ∀ l name, s.Sweeps l name → s.interval? l = some name
  owned : ∀ name ∈ s.intervals, ∃ l, s.interval? l = some name
  apart : ∀ l l' name, s.interval? l = some name → s.interval? l' = some name → l = l'

namespace WellKept

variable {s s' : Deployment α}

theorem owns_iff (h : s.WellKept) {l : LimiterId} {name : String} :
    s.Owns l name ↔ s.interval? l = some name :=
  ⟨fun howns => h.swept l name howns.2, h.held l name⟩

theorem notMem_next (h : s.WellKept) : sweepName (s.intervalCount + 1) ∉ s.intervals := by
  intro hmem
  obtain ⟨n, hn, hname⟩ := h.named _ hmem
  have hnext := sweepName_injective hname
  omega

theorem congr (h : s.WellKept) (hsame : SameSweeps s s') : s'.WellKept := by
  have howns := hsame.owns_iff
  have hinterval := hsame.interval?_eq
  refine ⟨hsame.intervals ▸ h.nodup, ?_, ?_, ?_, ?_, ?_⟩
  · rw [hsame.intervals, hsame.intervalCount]
    exact h.named
  · simpa only [howns, hinterval] using h.held
  · simpa only [hsame.sweeps, hinterval] using h.swept
  · simpa only [hsame.intervals, hinterval] using h.owned
  · simpa only [hinterval] using h.apart

/-- The registry stays well kept if one limiter gives up its regular sweep. -/
theorem remove (h : s.WellKept) {l : LimiterId} {name : String}
    (hinterval : s.interval? l = some name)
    (hafter : ∀ l', s'.interval? l' = if l' = l then none else s.interval? l')
    (hintervals : s'.intervals = s.intervals.filter (· != name))
    (hcount : s'.intervalCount = s.intervalCount)
    (hsweeps : ∀ l' other, s'.Sweeps l' other ↔ s.Sweeps l' other ∧ other ≠ name) :
    s'.WellKept := by
  have hmem : ∀ other, other ∈ s'.intervals ↔ other ∈ s.intervals ∧ other ≠ name := by
    intro other
    rw [hintervals, List.mem_filter, bne_iff_ne]
  have hheld : ∀ l' other,
      s'.interval? l' = some other ↔ s.interval? l' = some other ∧ other ≠ name := by
    intro l' other
    rw [hafter]
    by_cases hl : l' = l
    · simp [hl, hinterval, eq_comm]
    · rw [if_neg hl]
      refine (and_iff_left_of_imp ?_).symm
      rintro hother rfl
      exact hl (h.apart l' l other hother hinterval)
  refine ⟨hintervals ▸ h.nodup.filter _, ?_, ?_, ?_, ?_, ?_⟩
  · intro other hother
    rw [hcount]
    exact h.named other ((hmem other).mp hother).1
  · intro l' other hother
    obtain ⟨hbefore, hne⟩ := (hheld l' other).mp hother
    have howns := h.held l' other hbefore
    exact ⟨(hmem other).mpr ⟨howns.1, hne⟩, (hsweeps l' other).mpr ⟨howns.2, hne⟩⟩
  · intro l' other hother
    obtain ⟨hbefore, hne⟩ := (hsweeps l' other).mp hother
    exact (hheld l' other).mpr ⟨h.swept l' other hbefore, hne⟩
  · intro other hother
    obtain ⟨hbefore, hne⟩ := (hmem other).mp hother
    obtain ⟨l', howner⟩ := h.owned other hbefore
    exact ⟨l', (hheld l' other).mpr ⟨howner, hne⟩⟩
  · intro l₁ l₂ other h₁ h₂
    exact h.apart l₁ l₂ other ((hheld l₁ other).mp h₁).1 ((hheld l₂ other).mp h₂).1

/-- The registry stays well kept if a limiter without a regular sweep gets one under the next
name. -/
theorem add (h : s.WellKept) {l : LimiterId} (hnone : s.interval? l = none) {name : String}
    (hname : sweepName (s.intervalCount + 1) = name)
    (hafter : ∀ l', s'.interval? l' = if l' = l then some name else s.interval? l')
    (hintervals : s'.intervals = s.intervals ++ [name])
    (hcount : s'.intervalCount = s.intervalCount + 1)
    (hsweeps : ∀ l' other, s'.Sweeps l' other ↔ s.Sweeps l' other ∨ l' = l ∧ other = name) :
    s'.WellKept := by
  have hnew : name ∉ s.intervals := hname ▸ h.notMem_next
  have hmem : ∀ other, other ∈ s'.intervals ↔ other ∈ s.intervals ∨ other = name := by
    intro other
    rw [hintervals, List.mem_append, List.mem_singleton]
  have hheld : ∀ l' other,
      s'.interval? l' = some other ↔ s.interval? l' = some other ∨ l' = l ∧ other = name := by
    intro l' other
    rw [hafter]
    by_cases hl : l' = l <;> simp [hl, hnone, eq_comm]
  have hfree : ∀ l', s.interval? l' ≠ some name := fun l' howner => hnew (h.held l' name howner).1
  refine ⟨?_, ?_, ?_, ?_, ?_, ?_⟩
  · rw [hintervals, List.nodup_append_comm, List.singleton_append, List.nodup_cons]
    exact ⟨hnew, h.nodup⟩
  · intro other hother
    rw [hcount]
    rcases (hmem other).mp hother with hbefore | rfl
    · obtain ⟨n, hn, heq⟩ := h.named other hbefore
      exact ⟨n, by omega, heq⟩
    · exact ⟨s.intervalCount + 1, Nat.le_refl _, hname.symm⟩
  · intro l' other hother
    rcases (hheld l' other).mp hother with hbefore | hitself
    · obtain ⟨hregistered, hswept⟩ := h.held l' other hbefore
      exact ⟨(hmem other).mpr (Or.inl hregistered), (hsweeps l' other).mpr (Or.inl hswept)⟩
    · exact ⟨(hmem other).mpr (Or.inr hitself.2), (hsweeps l' other).mpr (Or.inr hitself)⟩
  · intro l' other hother
    exact (hheld l' other).mpr (((hsweeps l' other).mp hother).imp_left (h.swept l' other))
  · intro other hother
    rcases (hmem other).mp hother with hbefore | rfl
    · obtain ⟨l', howner⟩ := h.owned other hbefore
      exact ⟨l', (hheld l' other).mpr (Or.inl howner)⟩
    · exact ⟨l, (hheld l other).mpr (Or.inr ⟨rfl, rfl⟩)⟩
  · intro l₁ l₂ other h₁ h₂
    rcases (hheld l₁ other).mp h₁ with hbefore₁ | ⟨rfl, rfl⟩
    · rcases (hheld l₂ other).mp h₂ with hbefore₂ | ⟨-, rfl⟩
      · exact h.apart l₁ l₂ other hbefore₁ hbefore₂
      · exact absurd hbefore₁ (hfree l₁)
    · rcases (hheld l₂ other).mp h₂ with hbefore₂ | ⟨rfl, -⟩
      · exact absurd hbefore₂ (hfree l₂)
      · rfl

end WellKept

section

variable [Scalar α] {s s' : Deployment α} {p : Scope α}

omit [Scalar α] in
theorem sweeps_concat_iff (due : α) (alarm : Alarm α) {l : LimiterId} {name : String} :
    ({ s with timers := s.timers ++ [⟨due, alarm⟩] } : Deployment α).Sweeps l name ↔
      s.Sweeps l name ∨ ∃ period, alarm = .sweep l name period := by
  simp [Sweeps, or_and_right, exists_or]

theorem Move.sameSweeps (m : Move α) (hm : m.Within p) (hp : ¬p.regular) :
    SameSweeps s (m.apply s) := by
  cases m with
  | setTimer delay alarm =>
    refine ⟨rfl, rfl, rfl, fun l name => (sweeps_concat_iff _ _).trans (or_iff_left ?_)⟩
    rintro ⟨period, rfl⟩
    exact hp hm
  | release t =>
    refine ⟨rfl, rfl, rfl, fun l name => ⟨?_, ?_⟩⟩
    · rintro ⟨timer, htimer, hsweep⟩
      exact ⟨timer, (List.mem_filter.mp htimer).1, hsweep⟩
    · rintro ⟨timer, htimer, period, hsweep⟩
      refine ⟨timer, List.mem_filter.mpr ⟨htimer, ?_⟩, period, hsweep⟩
      simp [Timer.isDeadlineOf, hsweep]
  | setInterval | register | countIntervals | removeInterval => exact absurd hm hp
  | fill | join | unlink | consume =>
    simp only [Move.apply]
    split <;> exact ⟨rfl, rfl, rfl, fun _ _ => Iff.rfl⟩
  | _ => exact ⟨rfl, rfl, rfl, fun _ _ => Iff.rfl⟩

theorem Moves.sameSweeps (h : Moves p s s') (hp : ¬p.regular) : SameSweeps s s' := by
  induction h with
  | refl => exact .refl s
  | tail m _ hm ih => exact ih.trans (m.sameSweeps hm hp)

/-- Whether a store can be swept never changes. -/
theorem Move.canSweep_apply (m : Move α) (s : Deployment α) (i : StoreId) :
    (m.apply s).stores[i]?.map Store.canSweep = s.stores[i]?.map Store.canSweep := by
  have hset : ∀ {j : StoreId} {old new : Store α}, s.stores[j]? = some old →
      new.canSweep = old.canSweep →
      (s.setStore j new).stores[i]?.map Store.canSweep = s.stores[i]?.map Store.canSweep := by
    intro j old new hold hnew
    unfold Deployment.setStore
    by_cases hj : j = i
    · subst hj
      have hlt : j < s.stores.length := (List.getElem?_eq_some_iff.mp hold).1
      rw [List.getElem?_set_self hlt, hold]
      exact congrArg some hnew
    · rw [List.getElem?_set_ne hj]
  cases m with
  | fill j new =>
    simp only [Move.apply]
    split
    · next hlike =>
      obtain ⟨old, hold, hlike⟩ := hlike
      refine hset hold ?_
      cases hlike with
      | memory => rfl
      | scripted script allow sweep h => exact h
    · rfl
  | join | unlink =>
    simp only [Move.apply]
    split
    · next hold => exact hset hold rfl
    · rfl
  | consume | setInterval =>
    simp only [Move.apply]
    split <;> rfl
  | _ => rfl

theorem Moves.canSweep_eq (h : Moves p s s') (i : StoreId) :
    s'.stores[i]?.map Store.canSweep = s.stores[i]?.map Store.canSweep := by
  induction h with
  | refl => rfl
  | tail m _ _ ih => exact (m.canSweep_apply _ i).trans ih

theorem Moves.sweepable_iff (h : Moves p s s') (l : LimiterId) :
    s'.Sweepable l ↔ s.Sweepable l := by
  have hfields := h.map_limiters_eq
    (f := fun limiter => (limiter.store, limiter.config.sweepInterval, limiter.scheduled))
    (fun _ _ => rfl) l
  unfold Sweepable
  cases hafter : s'.limiters[l]? <;> cases hbefore : s.limiters[l]? <;>
    simp_all [h.canSweep_eq]

end

/-! Registering and stopping -/

section

variable {s : Deployment α} {l : LimiterId} {limiter : Limiter α}

theorem interval?_of_limiter (hlimiter : s.limiters[l]? = some limiter) :
    s.interval? l = limiter.interval := by
  rw [interval?, hlimiter, Option.bind_some]

theorem interval?_setLimiter (hlimiter : s.limiters[l]? = some limiter) (name : Option String)
    (l' : LimiterId) :
    (s.setLimiter l { limiter with interval := name }).interval? l' =
      if l' = l then name else s.interval? l' := by
  unfold interval? setLimiter
  by_cases hl : l' = l
  · subst hl
    have hlt : l' < s.limiters.length := (List.getElem?_eq_some_iff.mp hlimiter).1
    rw [List.getElem?_set_self hlt, if_pos rfl]
    rfl
  · rw [List.getElem?_set_ne (Ne.symm hl), if_neg hl]

theorem sweeps_removeInterval_iff (s : Deployment α) (name other : String) (l : LimiterId) :
    (s.removeInterval name).Sweeps l other ↔ s.Sweeps l other ∧ other ≠ name := by
  constructor
  · rintro ⟨timer, htimer, period, hsweep⟩
    obtain ⟨hmem, hkeep⟩ := List.mem_filter.mp htimer
    exact ⟨⟨timer, hmem, period, hsweep⟩, by simpa [hsweep] using hkeep⟩
  · rintro ⟨⟨timer, htimer, period, hsweep⟩, hne⟩
    exact ⟨timer, List.mem_filter.mpr ⟨htimer, by simpa [hsweep] using hne⟩, period, hsweep⟩

/-- A limiter that shuts down stops its own regular sweep and no other. -/
theorem WellKept.cancelSweep (h : s.WellKept) (l : LimiterId) :
    (s.cancelSweep l).WellKept ∧
    (∀ l', (s.cancelSweep l).interval? l' = if l' = l then none else s.interval? l') ∧
    ∀ name, name ∈ (s.cancelSweep l).intervals ↔
      name ∈ s.intervals ∧ s.interval? l ≠ some name := by
  cases hinterval : s.interval? l with
  | none =>
    have hsame : s.cancelSweep l = s := by
      unfold Deployment.cancelSweep
      split
      · next limiter hlimiter =>
        rw [interval?_of_limiter hlimiter] at hinterval
        simp [hinterval]
      · rfl
    rw [hsame]
    refine ⟨h, fun l' => ?_, by simp⟩
    split
    · next hl => rw [hl, hinterval]
    · rfl
  | some name =>
    obtain ⟨limiter, hlimiter, hname⟩ := Option.bind_eq_some_iff.mp hinterval
    have hcancel : s.cancelSweep l =
        (s.removeInterval name).setLimiter l { limiter with interval := none } := by
      simp only [Deployment.cancelSweep, hlimiter, hname]
    have hafter : ∀ l', (s.cancelSweep l).interval? l' =
        if l' = l then none else s.interval? l' := by
      intro l'
      rw [hcancel, interval?_setLimiter (s := s.removeInterval name) hlimiter]
      rfl
    have hintervals : (s.cancelSweep l).intervals = s.intervals.filter (· != name) := by
      rw [hcancel]
      rfl
    have hsweeps : ∀ l' other, (s.cancelSweep l).Sweeps l' other ↔
        s.Sweeps l' other ∧ other ≠ name := by
      intro l' other
      rw [hcancel]
      exact sweeps_removeInterval_iff s name other l'
    have hcount : (s.cancelSweep l).intervalCount = s.intervalCount := by
      rw [hcancel]
      rfl
    refine ⟨h.remove hinterval hafter hintervals hcount hsweeps, hafter, fun other => ?_⟩
    rw [hintervals, List.mem_filter, bne_iff_ne, ne_eq, ne_eq, Option.some.injEq, eq_comm]

variable [Scalar α]

/-- The regular sweep of a limiter is set going under a name. -/
def enrol (s : Deployment α) (l : LimiterId) (limiter : Limiter α) (name : String) :
    Deployment α :=
  let period := limiter.config.sweepInterval
  { s with
    timers := s.timers ++ [⟨s.dueAfter period, .sweep l name period⟩]
    intervals := s.intervals ++ [name]
    intervalCount := s.intervalCount + 1
    limiters := s.limiters.set l { limiter with interval := some name } }

theorem registerSweep_eq (hnew : sweepName (s.intervalCount + 1) ∉ s.intervals) (t : TaskId)
    (l : LimiterId) (limiter : Limiter α) :
    s.registerSweep t l limiter =
      ((s.enrol l limiter (sweepName (s.intervalCount + 1))).note
        (.sweeping limiter.config.sweepInterval)).settle t .done := by
  unfold Deployment.registerSweep
  exact if_neg (by simpa [setTimer] using hnew)

/-- A limiter that has no regular sweep registers one under a new name. -/
theorem WellKept.registerSweep (h : s.WellKept) (hlimiter : s.limiters[l]? = some limiter)
    (hnone : s.interval? l = none) (t : TaskId) :
    (s.registerSweep t l limiter).WellKept ∧
    (∀ l', (s.registerSweep t l limiter).interval? l' =
      if l' = l then some (sweepName (s.intervalCount + 1)) else s.interval? l') ∧
    (s.registerSweep t l limiter).intervals = s.intervals ++ [sweepName (s.intervalCount + 1)] ∧
    (s.registerSweep t l limiter).settled = s.settled ++ [(t, .done)] := by
  have hregister := registerSweep_eq h.notMem_next t l limiter
  generalize s.registerSweep t l limiter = s' at hregister ⊢
  generalize hname : sweepName (s.intervalCount + 1) = name at hregister ⊢
  have hafter : ∀ l', s'.interval? l' = if l' = l then some name else s.interval? l' := by
    intro l'
    rw [hregister]
    exact interval?_setLimiter (s := s) hlimiter (some name) l'
  have hintervals : s'.intervals = s.intervals ++ [name] := by
    rw [hregister]
    rfl
  have hcount : s'.intervalCount = s.intervalCount + 1 := by
    rw [hregister]
    rfl
  have hsweeps : ∀ l' other, s'.Sweeps l' other ↔
      s.Sweeps l' other ∨ l' = l ∧ other = name := by
    intro l' other
    rw [hregister]
    refine (sweeps_concat_iff (s := s) (s.dueAfter limiter.config.sweepInterval)
      (.sweep l name limiter.config.sweepInterval)).trans (or_congr_right ?_)
    constructor
    · rintro ⟨period, hsweep⟩
      obtain ⟨rfl, rfl, -⟩ := Alarm.sweep.inj hsweep
      exact ⟨rfl, rfl⟩
    · rintro ⟨rfl, rfl⟩
      exact ⟨_, rfl⟩
  refine ⟨h.add hnone hname hafter hintervals hcount hsweeps, hafter, hintervals, ?_⟩
  rw [hregister]
  rfl

end

end Deployment

end Admission
