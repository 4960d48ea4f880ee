import Mathlib.Data.List.Nodup

/-!
Look-ups in lists of keys and values.

A list is searched from its front, and the first entry of a key counts. Removing a key hides it and
nothing else. A filter on the values commutes with look-ups only where no key occurs twice, for it
might otherwise uncover an entry that stood behind.
-/
namespace Admission

variable {κ β : Type} [DecidableEq κ]

theorem lookup_pair_cons (key held : κ) (value : β) (entries : List (κ × β)) :
    ((held, value) :: entries).lookup key =
      if key = held then some value else entries.lookup key := by
  rw [List.lookup_cons]
  by_cases h : key = held
  · simp [h]
  · simp [h, beq_false_of_ne h]

theorem lookup_filter_ne (entries : List (κ × β)) (key other : κ) :
    (entries.filter (·.1 != key)).lookup other =
      if other = key then none else entries.lookup other := by
  induction entries with
  | nil => simp
  | cons entry entries ih =>
    obtain ⟨held, value⟩ := entry
    by_cases hheld : held = key
    · subst hheld
      by_cases hother : other = held
      · simpa [hother] using ih
      · simpa [hother, lookup_pair_cons] using ih
    · by_cases hother : other = held
      · simp [hother, hheld]
      · simpa [hheld, hother, lookup_pair_cons] using ih

theorem lookup_map_snd {γ : Type} (entries : List (κ × β)) (f : β → γ) (key : κ) :
    (entries.map fun entry => (entry.1, f entry.2)).lookup key = (entries.lookup key).map f := by
  induction entries with
  | nil => rfl
  | cons entry entries ih =>
    obtain ⟨held, value⟩ := entry
    rw [List.map_cons, lookup_pair_cons, lookup_pair_cons, ih]
    split <;> rfl

theorem lookup_eq_none_of_notMem (entries : List (κ × β)) {key : κ}
    (h : key ∉ entries.map Prod.fst) : entries.lookup key = none := by
  rw [List.lookup_eq_none_iff]
  intro entry hentry
  have hne : key ≠ entry.1 := fun he => h (he ▸ List.mem_map_of_mem hentry)
  simpa using hne

theorem lookup_eq_some_iff_mem (entries : List (κ × β)) (h : (entries.map Prod.fst).Nodup)
    {key : κ} {value : β} : entries.lookup key = some value ↔ (key, value) ∈ entries := by
  induction entries with
  | nil => simp
  | cons entry entries ih =>
    obtain ⟨held, first⟩ := entry
    simp only [List.map_cons, List.nodup_cons] at h
    rw [lookup_pair_cons, List.mem_cons, Prod.mk.injEq]
    by_cases hkey : key = held
    · subst hkey
      have hrest : (key, value) ∉ entries := fun hmem => h.1 (List.mem_map_of_mem hmem)
      simp [hrest, eq_comm]
    · rw [if_neg hkey, ih h.2]
      simp [hkey]

/-- Where no key occurs twice, a filter leaves a key its own value or none. -/
theorem lookup_filter_of_nodup (entries : List (κ × β)) (h : (entries.map Prod.fst).Nodup)
    (keep : β → Bool) (key : κ) :
    (entries.filter fun entry => keep entry.2).lookup key =
      (entries.lookup key).filter keep := by
  induction entries with
  | nil => rfl
  | cons entry entries ih =>
    obtain ⟨held, value⟩ := entry
    simp only [List.map_cons, List.nodup_cons] at h
    have hrest := ih h.2
    by_cases hkey : key = held
    · subst hkey
      rw [lookup_eq_none_of_notMem entries h.1] at hrest
      cases hkeep : keep value with
      | false => simpa [hkeep, lookup_pair_cons, Option.filter] using hrest
      | true => simp [hkeep, Option.filter]
    · cases hkeep : keep value with
      | false => simpa [hkeep, hkey, lookup_pair_cons] using hrest
      | true => simpa [hkeep, hkey, lookup_pair_cons] using hrest

end Admission
