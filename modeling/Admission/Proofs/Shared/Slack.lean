import Admission.Proofs.Shared.Fleet

/-!
The budget of a key whose numbers are rounded.

Redis keeps some digits of every number that the script writes, and the callers that share a key may
have clocks that disagree. The calls on a key that does not expire are answered as by one bucket
that is rounded after every call, in the order in which the script runs, whatever happens to other
keys meanwhile. So neither the digits nor the clocks give away more than what rounding adds, and the
record of the key owes no tokens and never goes back in time.
-/
namespace Admission

/-- Arguments of the script are read as they are, and its fields as numbers with `n` digits. -/
structure Textual.Rounds [Textual ℚ] (n : ℕ) (round : ℚ → ℚ) : Prop where
  readStored_text : ∀ x : ℚ, Textual.readStored (Textual.text x) = some x
  readStored_stored : ∀ x : ℚ, Textual.readStored (Textual.stored x) = some (round x)
  isRounding : ∀ x, IsRounding n x (round x)

/-- Fractions as text, with `n` digits in the fields. -/
abbrev Fraction.rounding (n : ℕ) : Textual ℚ where
  text := Fraction.text
  read := Fraction.read?
  stored x := Fraction.text (significant n x)
  readStored := Fraction.read?

theorem Fraction.rounds {n : ℕ} (hn : 0 < n) :
    @Textual.Rounds (Fraction.rounding n) n (significant n) :=
  let _ := Fraction.rounding n
  { readStored_text := Fraction.read?_text
    readStored_stored := fun x => Fraction.read?_text (significant n x)
    isRounding := isRounding_significant hn }

namespace Shared

open Bucket

/-- The calls on a key. -/
def asksOn (key : String) (asks : List (Ask ℚ)) : List (Ask ℚ) := asks.filter (·.key = key)

/-- The times that the stores give the calls on a key. -/
def timesOn (key : String) (asks : List (Ask ℚ)) : List ℚ := (asksOn key asks).map Ask.now

/-- What a call leaves in the key is there until the next call on it. -/
def Lasts (ttlSeconds : ℚ) (key : String) (asks : List (Ask ℚ)) : Prop :=
  (asksOn key asks).IsChain fun a b => b.clock < a.clock + ttlSeconds * 1000

theorem asksOn_cons (key : String) (a : Ask ℚ) (asks : List (Ask ℚ)) :
    asksOn key (a :: asks) = if a.key = key then a :: asksOn key asks else asksOn key asks := by
  simp only [asksOn, List.filter_cons, decide_eq_true_eq]

theorem timesOn_mono {part asks : List (Ask ℚ)} (hpart : part <+: asks) (key : String) :
    timesOn key part <+: timesOn key asks :=
  (hpart.filter _).map _

theorem Lasts.anti {ttlSeconds : ℚ} {key : String} {part asks : List (Ask ℚ)}
    (h : Lasts ttlSeconds key asks) (hpart : part <+: asks) : Lasts ttlSeconds key part := by
  obtain ⟨later, hlater⟩ : asksOn key part <+: asksOn key asks := hpart.filter _
  unfold Lasts at h
  rw [← hlater] at h
  exact h.left_of_append

section

variable [Textual ℚ]

/-- The replies to the calls on a key. -/
def repliesOn (s : Deployment ℚ) (key : String) (asks : List (Ask ℚ)) : List (Option (Reply ℚ)) :=
  ((asks.zip (replies s asks)).filter (·.1.key = key)).map Prod.snd

/-- Under the name there is a bucket. -/
def Keeps (s : Deployment ℚ) (name : String) (b : Bucket ℚ) : Prop :=
  ∃ instant, Holds .textual s.keyspace name b instant

theorem repliesOn_cons (s : Deployment ℚ) (key : String) (a : Ask ℚ) (asks : List (Ask ℚ)) :
    repliesOn s key (a :: asks) =
      if a.key = key then (serve s a).1 :: repliesOn (serve s a).2 key asks
      else repliesOn (serve s a).2 key asks := by
  unfold repliesOn
  rw [replies, List.zip_cons_cons, List.filter_cons]
  by_cases hkey : a.key = key <;> simp [hkey]

theorem served_cons (s : Deployment ℚ) (a : Ask ℚ) (asks : List (Ask ℚ)) :
    served s (a :: asks) = served (serve s a).2 asks := rfl

theorem Keeps.unique {s : Deployment ℚ} {name : String} {b b' : Bucket ℚ} (h : Keeps s name b)
    (h' : Keeps s name b') : b = b' := by
  obtain ⟨-, r, hr, hwrites, -⟩ := h
  obtain ⟨-, r', hr', hwrites', -⟩ := h'
  obtain rfl : r = r' := Option.some.inj (hr.symm.trans hr')
  have htokens := Option.some.inj (hwrites.tokens.symm.trans hwrites'.tokens)
  have hlast := Option.some.inj (hwrites.lastUpdate.symm.trans hwrites'.lastUpdate)
  cases b
  cases b'
  congr

/-- Calls find no record under the name, or a bucket that is still there at the first of them. -/
def Finds (s : Deployment ℚ) (name : String) (asks : List (Ask ℚ)) : Option (Bucket ℚ) → Prop
  | none => s.keyspace.lookup name = none
  | some b => ∃ instant, Holds .textual s.keyspace name b instant ∧
      ∀ a ∈ asks.head?, a.clock < instant

namespace Finds

variable {s s' : Deployment ℚ} {name : String} {asks : List (Ask ℚ)} {found : Option (Bucket ℚ)}

theorem of_lookup_eq (h : Finds s name asks found)
    (hsame : s'.keyspace.lookup name = s.keyspace.lookup name) : Finds s' name asks found := by
  cases found with
  | none => exact hsame.trans h
  | some b =>
    obtain ⟨instant, ⟨r, hr, hrecord⟩, hbefore⟩ := h
    exact ⟨instant, ⟨r, hsame.trans hr, hrecord⟩, hbefore⟩

theorem bucketAt_eq {a : Ask ℚ} (h : Finds s name (a :: asks) found) :
    bucketAt .textual s.keyspace a.clock name = found := by
  cases found with
  | none => exact bucketAt_of_lookup h a.clock
  | some b =>
    obtain ⟨instant, hholds, hbefore⟩ := h
    rw [hholds.bucketAt_eq, if_pos (hbefore a rfl)]

theorem eq_some_iff (h : Finds s name asks found) (b : Bucket ℚ) :
    found = some b ↔ Keeps s name b := by
  constructor
  · rintro rfl
    obtain ⟨instant, hholds, -⟩ := h
    exact ⟨instant, hholds⟩
  · intro hkeeps
    cases found with
    | none =>
      obtain ⟨-, r, hr, -⟩ := hkeeps
      cases hr.symm.trans h
    | some found =>
      obtain ⟨instant, hholds, -⟩ := h
      exact congrArg some (Keeps.unique ⟨instant, hholds⟩ hkeeps)

end Finds

section Rounded

variable {n : ℕ} {round : ℚ → ℚ} (hrounds : Textual.Rounds n round) {limit : Limit ℚ}
  {ttlSeconds : ℚ} {lead key : String} {s : Deployment ℚ} {found : Option (Bucket ℚ)}

include hrounds

/-- A call answers what a rounded bucket answers, and the next call on its key finds that bucket. -/
theorem finds_serve {a : Ask ℚ} (hstore : a.store.Shares limit ttlSeconds lead)
    {later : List (Ask ℚ)} (hfinds : Finds s (lead ++ a.key) (a :: later) found)
    (hlasts : ∀ b ∈ later.head?, b.clock < a.clock + ttlSeconds * 1000) :
    (serve s a).1 = some (.verdict (takeRounded limit round found a.now).1) ∧
      Finds (serve s a).2 (lead ++ a.key) later
        (some (takeRounded limit round found a.now).2) := by
  obtain ⟨hreply, hholds, -⟩ :=
    serve_spec_rounded hrounds.readStored_text hrounds.readStored_stored hstore s
  rw [hfinds.bucketAt_eq] at hreply hholds
  exact ⟨hreply, _, hholds, hlasts⟩

/-- Calls on other keys leave alone what the calls on a key find. -/
theorem finds_serve_of_ne {a : Ask ℚ} (hstore : a.store.Shares limit ttlSeconds lead)
    (hkey : a.key ≠ key) {later : List (Ask ℚ)} (hfinds : Finds s (lead ++ key) later found) :
    Finds (serve s a).2 (lead ++ key) later found := by
  obtain ⟨-, -, hother⟩ :=
    serve_spec_rounded hrounds.readStored_text hrounds.readStored_stored hstore s
  exact hfinds.of_lookup_eq (hother key hkey.symm)

/-- The calls on a key answer what one rounded bucket answers, and leave that bucket there. -/
theorem repliesOn_eq (asks : List (Ask ℚ))
    (hstores : ∀ a ∈ asks, a.store.Shares limit ttlSeconds lead)
    (hfinds : Finds s (lead ++ key) (asksOn key asks) found)
    (hlasts : Lasts ttlSeconds key asks) :
    repliesOn s key asks =
        (roundedAnswers limit round found (timesOn key asks)).map (fun allowed =>
          some (.verdict allowed)) ∧
      Finds (served s asks) (lead ++ key) []
        (roundedAfter limit round found (timesOn key asks)) := by
  induction asks generalizing s found with
  | nil => exact ⟨rfl, hfinds⟩
  | cons a asks ih =>
    have hstore := hstores a List.mem_cons_self
    have hstores' := fun b hb => hstores b (List.mem_cons_of_mem a hb)
    rw [repliesOn_cons, served_cons, timesOn]
    unfold Lasts at hlasts
    rw [asksOn_cons] at hfinds hlasts ⊢
    by_cases hkey : a.key = key
    · subst hkey
      rw [if_pos rfl] at hfinds hlasts ⊢
      rw [if_pos rfl]
      obtain ⟨hnext, hlater⟩ := List.isChain_cons.mp hlasts
      obtain ⟨hreply, hafter⟩ := finds_serve hrounds hstore hfinds hnext
      obtain ⟨hreplies, hleft⟩ := ih hstores' hafter hlater
      rw [List.map_cons, roundedAnswers_cons, roundedAfter_cons]
      exact ⟨congrArg₂ List.cons hreply hreplies, hleft⟩
    · rw [if_neg hkey] at hfinds hlasts ⊢
      rw [if_neg hkey]
      exact ih hstores' (finds_serve_of_ne hrounds hstore hkey hfinds) hlasts

end Rounded

/-- Stores that share a key in Redis, whose numbers are kept with fourteen digits, admit in any
stretch of calls on the key no more than a full bucket, what the largest times refill, and half a
unit of the last digit of the capacity for every call, however their clocks disagree. The record
of the key is that of a bucket which owes no tokens and was updated last at the largest time. -/
theorem rounded_budget {round : ℚ → ℚ} (hrounds : Textual.Rounds 14 round) {limit : Limit ℚ}
    (hrate : 0 ≤ limit.rate) (hcapacity : 0 ≤ limit.capacity) {ttlSeconds : ℚ} {lead key : String}
    {s : Deployment ℚ} (hfresh : s.keyspace.lookup (lead ++ key) = none) {asks : List (Ask ℚ)}
    (hstores : ∀ a ∈ asks, a.store.Shares limit ttlSeconds lead)
    (hwhole : ∀ now ∈ timesOn key asks, ∃ k : ℤ, |k| < 10 ^ 14 ∧ now = k)
    (hlasts : Lasts ttlSeconds key asks) :
    (∃ answers, repliesOn s key asks = answers.map (fun allowed => some (.verdict allowed)) ∧
      answers.length = (timesOn key asks).length ∧ ∀ j i, j ≤ i → i < answers.length →
        (admitted answers j (i + 1) : ℚ) ≤ limit.capacity +
          limit.rate * (peak (timesOn key asks) i - peak (timesOn key asks) j) / 1000 +
          (i + 1 - j : ℕ) * (limit.capacity * 5 / 10 ^ 14)) ∧
    (∀ part, part <+: asks →
      (timesOn key part ≠ [] → ∃ b, Keeps (served s part) (lead ++ key) b) ∧
      ∀ b, Keeps (served s part) (lead ++ key) b →
        0 ≤ b.tokens ∧ IsGreatest {now | now ∈ timesOn key part} b.lastUpdate) ∧
    ∀ part more, part <+: more → more <+: asks →
      ∀ b b', Keeps (served s part) (lead ++ key) b → Keeps (served s more) (lead ++ key) b' →
        b.lastUpdate ≤ b'.lastUpdate := by
  have hfixed : ∀ now ∈ timesOn key asks, round now = now := by
    intro now hnow
    obtain ⟨k, hk, rfl⟩ := hwhole now hnow
    exact (hrounds.isRounding k).eq_of_intCast hk
  have hstate : ∀ part, part <+: asks →
      (timesOn key part ≠ [] → ∃ b, Keeps (served s part) (lead ++ key) b) ∧
      ∀ b, Keeps (served s part) (lead ++ key) b →
        0 ≤ b.tokens ∧ IsGreatest {now | now ∈ timesOn key part} b.lastUpdate := by
    intro part hpart
    have hnothing : Finds s (lead ++ key) (asksOn key part) none := hfresh
    obtain ⟨-, hleft⟩ := repliesOn_eq hrounds part (fun a ha => hstores a (hpart.subset ha))
      hnothing (hlasts.anti hpart)
    obtain ⟨hnone, hsome⟩ := roundedAfter_spec hrounds.isRounding hrate hcapacity (timesOn key part)
      fun now hnow => hfixed now ((timesOn_mono hpart key).subset hnow)
    refine ⟨fun hcalled => ?_, fun b hb => ?_⟩
    · obtain ⟨b, hb⟩ := Option.ne_none_iff_exists'.mp fun h => hcalled (hnone.mp h)
      exact ⟨b, (hleft.eq_some_iff b).mp hb⟩
    · obtain ⟨hstorable, hgreatest⟩ := hsome b ((hleft.eq_some_iff b).mpr hb)
      exact ⟨hstorable.tokens_nonneg, hgreatest⟩
  refine ⟨?_, hstate, ?_⟩
  · have hnothing : Finds s (lead ++ key) (asksOn key asks) none := hfresh
    obtain ⟨hreplies, -⟩ := repliesOn_eq hrounds asks hstores hnothing hlasts
    exact ⟨_, hreplies, roundedAnswers_length limit round none _, fun j i hji _ =>
      roundedAnswers_admitted_le hrounds.isRounding hrate hcapacity (by norm_num) _ hfixed hji⟩
  · intro part more hpart hmore b b' hb hb'
    obtain ⟨-, hbefore⟩ := (hstate part (hpart.trans hmore)).2 b hb
    obtain ⟨-, hafter⟩ := (hstate more hmore).2 b' hb'
    exact hafter.2 ((timesOn_mono hpart key).subset hbefore.1)

end

/-- Two stores whose clocks are a quarter of a second apart share a key, at a rate whose digits do
not all fit. -/
theorem rounded_budget_skewed :
    letI := Fraction.rounding 14
    let limit : Limit ℚ := ⟨123456789012345 / 10 ^ 14, 3⟩
    let near : RedisOptions ℚ := ⟨some (.number limit.rate), some (.number 3),
      some (.text "bucket:"), some (.number 60), some (.number 100), {}⟩
    let far : RedisOptions ℚ := { near with timeout := some (.number 5000) }
    let asks : List (Ask ℚ) := [⟨near, "a", 1700000000000, 0⟩, ⟨far, "a", 1700000000250, 3⟩,
      ⟨near, "b", 1700000000005, 4⟩, ⟨near, "a", 1700000000013, 12⟩,
      ⟨far, "a", 1700000000270, 25⟩]
    let s : Deployment ℚ := { clock := 0 }
    (Textual.Rounds 14 (significant 14) ∧ 0 ≤ limit.rate ∧ 0 ≤ limit.capacity ∧
      s.keyspace.lookup ("bucket:" ++ "a") = none ∧
      (∀ a ∈ asks, a.store.Shares limit 60 "bucket:") ∧
      (∀ now ∈ timesOn "a" asks, ∃ k : ℤ, |k| < 10 ^ 14 ∧ now = k) ∧ Lasts 60 "a" asks) ∧
    (∃ answers, repliesOn s "a" asks = answers.map (fun allowed => some (.verdict allowed)) ∧
      answers.length = 4 ∧
      (admitted answers 1 4 : ℚ) ≤
        limit.capacity + limit.rate * 20 / 1000 + 3 * (limit.capacity * 5 / 10 ^ 14)) ∧
    ∃ b, Keeps (served s asks) ("bucket:" ++ "a") b ∧ 0 ≤ b.tokens ∧
      b.lastUpdate = 1700000000270 := by
  let _ := Fraction.rounding 14
  intro limit near far asks s
  have hrounds : Textual.Rounds 14 (significant 14) := Fraction.rounds (by norm_num)
  have hnear : near.Shares limit 60 "bucket:" := ⟨rfl, rfl, rfl, rfl⟩
  have hfar : far.Shares limit 60 "bucket:" := ⟨rfl, rfl, rfl, rfl⟩
  have hrate : 0 ≤ limit.rate := by decide +kernel
  have hcapacity : 0 ≤ limit.capacity := by decide +kernel
  have hstores : ∀ a ∈ asks, a.store.Shares limit 60 "bucket:" := by
    simp [asks, hnear, hfar]
  have hdigits : ∀ now ∈ timesOn "a" asks, |now.num| < 10 ^ 14 ∧ now.den = 1 := by decide +kernel
  have hwhole : ∀ now ∈ timesOn "a" asks, ∃ k : ℤ, |k| < 10 ^ 14 ∧ now = k := by
    intro now hnow
    obtain ⟨hnum, hden⟩ := hdigits now hnow
    exact ⟨now.num, hnum, (Rat.coe_int_num_of_den_eq_one hden).symm⟩
  have hlasts : Lasts 60 "a" asks := by
    unfold Lasts
    decide +kernel
  have hpeaks : peak (timesOn "a" asks) 3 - peak (timesOn "a" asks) 1 = 20 := by decide +kernel
  refine ⟨⟨hrounds, hrate, hcapacity, rfl, hstores, hwhole, hlasts⟩, ?_⟩
  obtain ⟨⟨answers, hreplies, hlength, hbound⟩, hstate, -⟩ :=
    rounded_budget hrounds hrate hcapacity (s := s) rfl hstores hwhole hlasts
  have hfour : (timesOn "a" asks).length = 4 := by decide +kernel
  rw [hfour] at hlength
  refine ⟨⟨answers, hreplies, hlength, ?_⟩, ?_⟩
  · have hstretch := hbound 1 3 (by norm_num) (by rw [hlength]; norm_num)
    rw [hpeaks] at hstretch
    exact_mod_cast hstretch
  · obtain ⟨hcalled, hrecord⟩ := hstate asks (List.prefix_refl asks)
    obtain ⟨b, hb⟩ := hcalled (List.ne_nil_of_length_pos (hfour ▸ Nat.succ_pos 3))
    obtain ⟨htokens, hgreatest⟩ := hrecord b hb
    have hlatest : (1700000000270 : ℚ) ∈ timesOn "a" asks ∧
        ∀ now ∈ timesOn "a" asks, now ≤ 1700000000270 := by decide +kernel
    exact ⟨b, hb, htokens, hgreatest.unique ⟨hlatest.1, fun _ hnow => hlatest.2 _ hnow⟩⟩

end Shared

end Admission
