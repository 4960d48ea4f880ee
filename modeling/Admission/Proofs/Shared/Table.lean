import Admission.Shared.Bucket
import Admission.Proofs.Association
import Admission.Proofs.Bucket.Rounded

/-!
One run of the script, in exact numbers.

The script does what a bucket in memory does: it finds the bucket that the key holds, or a full one,
and leaves there what the call leaves, as far as the written form keeps it, to live for so long from
the run on. Nothing else in the table changes. The record of a key may be past its expiry; then the
run finds nothing there.
-/
namespace Admission

namespace Record

variable {τ : Type}

theorem lookup_replace (fields : List (String × τ)) (name other : String) (value : τ) :
    (fields.map fun f => if f.1 == name then (name, value) else f).lookup other =
      if other = name then (fields.lookup name).map fun _ => value else fields.lookup other := by
  induction fields with
  | nil => simp
  | cons f fields ih =>
    obtain ⟨held, old⟩ := f
    by_cases hheld : held = name
    · subst hheld
      by_cases hother : other = held
      · simp [hother]
      · simpa [hother, lookup_pair_cons] using ih
    · have hname : ¬ name = held := Ne.symm hheld
      by_cases hother : other = held
      · simp [hother, hheld]
      · simpa [hother, hheld, hname, lookup_pair_cons] using ih

theorem lookup_set (fields : List (String × τ)) (name other : String) (value : τ) :
    (set fields name value).lookup other =
      if other = name then some value else fields.lookup other := by
  unfold set
  split
  · next hany =>
    rw [lookup_replace]
    split
    · obtain ⟨f, hf, hname⟩ := List.any_eq_true.mp hany
      have hsome : fields.lookup name ≠ none := by
        intro hnone
        have hall := List.lookup_eq_none_iff.mp hnone f hf
        simp [beq_iff_eq.mp hname] at hall
      obtain ⟨old, hold⟩ := Option.ne_none_iff_exists'.mp hsome
      rw [hold]
      rfl
    · rfl
  · next hany =>
    have hnone : fields.lookup name = none := by
      rw [List.lookup_eq_none_iff]
      intro f hf
      have hne : ¬ f.1 = name := fun he => hany (List.any_eq_true.mpr ⟨f, hf, by simp [he]⟩)
      simpa using Ne.symm hne
    rw [List.lookup_append, lookup_pair_cons]
    by_cases hother : other = name
    · simp [hother, hnone]
    · simp [hother]

/-- The record holds a bucket, in the written form. -/
structure Writes (form : Shared.Form ℚ τ) (r : Record τ ℚ) (b : Bucket ℚ) : Prop where
  tokens : (r.fields.lookup Shared.tokensField).bind form.read = some b.tokens
  lastUpdate : (r.fields.lookup Shared.lastUpdateField).bind form.read = some b.lastUpdate

end Record

namespace Keyspace

variable {τ : Type}

theorem lookup_put {α : Type} (k : Keyspace τ α) (key other : String) (r : Record τ α) :
    (k.put key r).lookup other = if other = key then some r else k.lookup other := by
  unfold put
  rw [lookup_pair_cons]
  split
  · rfl
  · next hne => rw [lookup_filter_ne, if_neg hne]

/-- Writing fields and setting the expiry of a key is one change to its record. -/
theorem lookup_expire_write {α : Type} [Scalar α] (k : Keyspace τ α) (clock : α)
    (key other : String) (values : List (String × τ)) (hvalues : values ≠ []) (seconds : α) :
    ((k.write clock key values).expire clock key seconds).lookup other =
      if other = key then
        some ⟨Record.setAll ((k.find? clock key).getD ⟨[], none⟩).fields values,
          some (clock + seconds * 1000)⟩
      else k.lookup other := by
  have hwrite : k.write clock key values =
      k.put key ⟨Record.setAll ((k.find? clock key).getD ⟨[], none⟩).fields values,
        ((k.find? clock key).getD ⟨[], none⟩).expiry⟩ := by
    unfold write
    rw [if_neg (by simpa using hvalues)]
  -- What has just been written is live: it has the expiry of a record that was found, or none.
  have hlive : ((k.find? clock key).getD ⟨[], none⟩).isLive clock = true := by
    cases hfound : k.find? clock key with
    | none => rfl
    | some r =>
      have hfilter := Option.filter_eq_some_iff.mp hfound
      exact hfilter.2
  have hfind : (k.write clock key values).find? clock key =
      some ⟨Record.setAll ((k.find? clock key).getD ⟨[], none⟩).fields values,
        ((k.find? clock key).getD ⟨[], none⟩).expiry⟩ := by
    rw [hwrite]
    unfold find?
    rw [lookup_put, if_pos rfl]
    exact Option.filter_eq_some_iff.mpr ⟨rfl, hlive⟩
  unfold expire
  rw [hfind]
  simp only [lookup_put]
  split
  · rfl
  · next hne => rw [hwrite, lookup_put, if_neg hne]

end Keyspace

namespace Shared

/-- The smaller of two numbers, as the script finds it. -/
theorem ite_lt_eq_min (x y : ℚ) : (if x < y then x else y) = min y x := by
  split
  · next h => exact (min_eq_right h.le).symm
  · next h => exact (min_eq_left (not_lt.mp h)).symm

/-- The script's step is a bucket's step: to count no time that has passed and to go on from the
last update is what the larger of both does. -/
theorem transition_eq_take (limit : Limit ℚ) (b : Bucket ℚ) (now : ℚ) :
    transition limit b.tokens b.lastUpdate now =
      ((b.take limit now).1, (b.take limit now).2.tokens, (b.take limit now).2.lastUpdate) := by
  have hstep : transition limit b.tokens b.lastUpdate now =
      if 1 ≤ b.level limit now then (true, b.level limit now - 1, max b.lastUpdate now)
      else (false, b.level limit now, max b.lastUpdate now) := by
    rw [Bucket.level_eq_min, ← ite_lt_eq_min]
    by_cases hback : now - b.lastUpdate < 0
    · have helapsed : max 0 (now - b.lastUpdate) = 0 := max_eq_left hback.le
      have hlast : max b.lastUpdate now = b.lastUpdate := max_eq_left (sub_neg.mp hback).le
      simp only [transition, if_pos hback, helapsed, hlast]
    · have helapsed : max 0 (now - b.lastUpdate) = now - b.lastUpdate :=
        max_eq_right (not_lt.mp hback)
      have hlast : max b.lastUpdate now = now := max_eq_right (sub_nonneg.mp (not_lt.mp hback))
      simp only [transition, if_neg hback, helapsed, hlast]
  rw [hstep, Bucket.take_eq]
  split <;> rfl

/-- The arguments of a command, read as numbers. -/
structure Command.Reads {τ : Type} (form : Form ℚ τ) (c : Command τ) (limit : Limit ℚ)
    (now ttlSeconds : ℚ) : Prop where
  rate : form.read c.rate = some limit.rate
  capacity : form.read c.capacity = some limit.capacity
  now : form.read c.now = some now
  ttlSeconds : form.read c.ttlSeconds = some ttlSeconds

/-- The bucket that a key holds at an instant of the table's clock. -/
def bucketAt {τ : Type} (form : Form ℚ τ) (space : Keyspace τ ℚ) (clock : ℚ) (key : String) :
    Option (Bucket ℚ) :=
  (held form space clock key).map fun found => ⟨found.1, found.2⟩

/-- Until the instant, the key holds the bucket. -/
def Holds {τ : Type} (form : Form ℚ τ) (space : Keyspace τ ℚ) (key : String) (b : Bucket ℚ)
    (instant : ℚ) : Prop :=
  ∃ r, space.lookup key = some r ∧ r.Writes form b ∧ r.expiry = some instant

theorem bucketAt_of_lookup {τ : Type} {form : Form ℚ τ} {space : Keyspace τ ℚ} {key : String}
    (h : space.lookup key = none) (clock : ℚ) : bucketAt form space clock key = none := by
  simp [bucketAt, held, Keyspace.field?, Keyspace.find?, h]

/-- A bucket is there until its instant has come. -/
theorem Holds.bucketAt_eq {τ : Type} {form : Form ℚ τ} {space : Keyspace τ ℚ} {key : String}
    {b : Bucket ℚ} {instant : ℚ} (h : Holds form space key b instant) (clock : ℚ) :
    bucketAt form space clock key = if clock < instant then some b else none := by
  obtain ⟨r, hr, hwrites, hexpiry⟩ := h
  have hlive : r.isLive clock = decide (clock < instant) := by
    simp only [Record.isLive, hexpiry]
    by_cases hclock : clock < instant
    · simp [hclock]
    · simpa [hclock] using not_lt.mp hclock
  have hfind : space.find? clock key = if clock < instant then some r else none := by
    unfold Keyspace.find?
    rw [hr]
    simp [Option.filter, hlive]
  split
  · next hclock =>
    have hfield : ∀ name, space.field? clock key name = r.fields.lookup name := by
      intro name
      simp [Keyspace.field?, hfind, hclock]
    simp [bucketAt, held, hfield, hwrites.tokens, hwrites.lastUpdate]
  · next hclock => simp [bucketAt, held, Keyspace.field?, hfind, hclock]

/-- A run answers as the bucket that the key holds, or as a full one, and leaves in its place what
the call leaves, rounded as it is written, to live from the run on. -/
theorem run_spec {τ : Type} (form : Form ℚ τ) {round : ℚ → ℚ}
    (hform : ∀ x, form.read (form.field x) = some (round x)) {c : Command τ} {limit : Limit ℚ}
    {now ttlSeconds : ℚ} (hc : c.Reads form limit now ttlSeconds) (clock : ℚ)
    (space : Keyspace τ ℚ) :
    let b := (bucketAt form space clock c.key).getD (.full limit now)
    (run form clock c space).1 = .ok (b.take limit now).1 ∧
    Holds form (run form clock c space).2 c.key ((b.take limit now).2.rounded round)
      (clock + ttlSeconds * 1000) ∧
    ∀ other, other ≠ c.key → (run form clock c space).2.lookup other = space.lookup other := by
  intro b
  have hattempt : attempt (some limit.rate) (some limit.capacity) (some now)
      (held form space clock c.key) =
        .ok ((b.take limit now).1, (b.take limit now).2.tokens,
          (b.take limit now).2.lastUpdate) := by
    rw [← transition_eq_take]
    unfold attempt
    cases hheld : held form space clock c.key with
    | none => simp [b, bucketAt, hheld, Bucket.full]
    | some found => simp [b, bucketAt, hheld]
  have hrun : run form clock c space =
      (.ok (b.take limit now).1,
        (space.write clock c.key [(tokensField, form.field (b.take limit now).2.tokens),
          (lastUpdateField, form.field (b.take limit now).2.lastUpdate)]).expire clock c.key
            ttlSeconds) := by
    unfold run
    simp only [hc.rate, hc.capacity, hc.now, hc.ttlSeconds, hattempt, Option.getD_some]
  have hlookup := fun other => Keyspace.lookup_expire_write space clock c.key other
    [(tokensField, form.field (b.take limit now).2.tokens),
      (lastUpdateField, form.field (b.take limit now).2.lastUpdate)] (by simp) ttlSeconds
  rw [hrun]
  refine ⟨rfl, ⟨_, (hlookup c.key).trans (if_pos rfl), ⟨?_, ?_⟩, rfl⟩, ?_⟩
  · simp [Record.setAll, Record.lookup_set, tokensField, lastUpdateField, hform, Bucket.rounded]
  · simp [Record.setAll, Record.lookup_set, tokensField, lastUpdateField, hform, Bucket.rounded]
  · intro other hother
    exact (hlookup other).trans (if_neg hother)

end Shared

end Admission
