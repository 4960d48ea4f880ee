import Admission.Proofs.Settings.Acceptance
import Admission.Proofs.Shared.Fleet

/-!
The budget of a key in Redis.

Between two instants no more calls should pass than a full bucket holds and the time refills,
whichever store makes them. A key in Redis starts with a full bucket again once it has expired, so
this depends on how long keys live: the budget is kept by the configurations whose keys live at
least as long as it takes to fill a bucket, and by no others, except those whose stores have no key
to send.
-/
namespace Admission.Shared

open Bucket

section

variable [Textual ℚ]

/-- How many of the calls on a key passed from one instant to another. -/
def admittedBetween (s : Deployment ℚ) (key : String) (first last : ℚ) (asks : List (Ask ℚ)) : ℕ :=
  (asks.zip (replies s asks)).countP fun answered =>
    answered.1.key = key ∧ first ≤ answered.1.clock ∧ answered.1.clock ≤ last ∧
      answered.2.any Reply.admits

/-- Whatever the deployment and the calls on stores with these options, the calls on a key that pass
from one instant to another are no more than a full bucket and its refill. -/
def KeepsBudget (o : RedisOptions ℚ) (limit : Limit ℚ) (key : String) : Prop :=
  ∀ (s : Deployment ℚ) (asks : List (Ask ℚ)), (∀ a ∈ asks, a.store = o) →
    (∀ a ∈ asks, a.now = a.clock) → (asks.Pairwise fun a b => a.clock ≤ b.clock) →
    ∀ first last, first ≤ last →
      (admittedBetween s key first last asks : ℚ) ≤
        limit.capacity + limit.rate * (last - first) / 1000

variable {s : Deployment ℚ} {key : String} {first last : ℚ}

theorem admittedBetween_cons (s : Deployment ℚ) (key : String) (first last : ℚ) (a : Ask ℚ)
    (asks : List (Ask ℚ)) :
    admittedBetween s key first last (a :: asks) =
      admittedBetween (serve s a).2 key first last asks +
        if a.key = key ∧ first ≤ a.clock ∧ a.clock ≤ last ∧ (serve s a).1.any Reply.admits
        then 1 else 0 := by
  simp only [admittedBetween, replies, List.zip_cons_cons, List.countP_cons, decide_eq_true_eq]

theorem admittedBetween_append (s : Deployment ℚ) (key : String) (first last : ℚ)
    (before after : List (Ask ℚ)) :
    admittedBetween s key first last (before ++ after) =
      admittedBetween s key first last before +
        admittedBetween (served s before) key first last after := by
  induction before generalizing s with
  | nil => simp [admittedBetween, replies, served]
  | cons a before ih =>
    have hrest := ih (serve s a).2
    rw [List.cons_append, admittedBetween_cons, admittedBetween_cons, hrest]
    have hserved : served (serve s a).2 before = served s (a :: before) := rfl
    rw [hserved]
    omega

/-- A call that is on another key, or at another time, does not count. -/
theorem admittedBetween_cons_of_not {a : Ask ℚ} (asks : List (Ask ℚ))
    (h : ¬ (a.key = key ∧ first ≤ a.clock ∧ a.clock ≤ last)) :
    admittedBetween s key first last (a :: asks) =
      admittedBetween (serve s a).2 key first last asks := by
  rw [admittedBetween_cons, if_neg fun hall => h ⟨hall.1, hall.2.1, hall.2.2.1⟩, Nat.add_zero]

/-- A call counts once if it passes, and not at all otherwise. -/
theorem admittedBetween_cons_le {a : Ask ℚ} (asks : List (Ask ℚ)) {allowed : Bool}
    (h : (serve s a).1 = some (.verdict allowed)) :
    admittedBetween s key first last (a :: asks) ≤
      allowed.toNat + admittedBetween (serve s a).2 key first last asks := by
  rw [admittedBetween_cons, h]
  cases allowed with
  | false => simp
  | true =>
    split
    · simp [Nat.add_comm]
    · simp

theorem admittedBetween_eq_zero (asks : List (Ask ℚ)) (h : ∀ a ∈ asks, last < a.clock) :
    admittedBetween s key first last asks = 0 := by
  induction asks generalizing s with
  | nil => rfl
  | cons a asks ih =>
    have hafter : last < a.clock := h a List.mem_cons_self
    rw [admittedBetween_cons_of_not asks fun hin => absurd hin.2.2 (not_le.mpr hafter)]
    exact ih fun b hb => h b (List.mem_cons_of_mem a hb)

section Kept

variable {limit : Limit ℚ} {ttlSeconds : ℚ} {lead : String}

/-- Where keys live long enough, a key that expires gives out no more than its bucket would have
refilled. -/
theorem level_le_of_holds (hrate : 0 ≤ limit.rate) (httl : limit.capacity ≤ limit.rate * ttlSeconds)
    {b : Bucket ℚ} {wrote clock : ℚ}
    (hholds : Holds .textual s.keyspace key b (wrote + ttlSeconds * 1000))
    (hlast : wrote ≤ b.lastUpdate) (hclock : wrote ≤ clock) :
    ((bucketAt .textual s.keyspace clock key).getD (.full limit clock)).level limit clock ≤
      max 0 b.tokens + limit.rate * (clock - wrote) / 1000 := by
  rw [hholds.bucketAt_eq]
  split
  · exact level_le_of_le_lastUpdate hrate hlast hclock
  · next hexpired =>
    have hlong : ttlSeconds ≤ (clock - wrote) / 1000 := by linarith
    have htokens := le_max_left 0 b.tokens
    calc (full limit clock).level limit clock
        = limit.capacity := level_full limit clock
      _ ≤ limit.rate * ttlSeconds := httl
      _ ≤ limit.rate * ((clock - wrote) / 1000) := mul_le_mul_of_nonneg_left hlong hrate
      _ = limit.rate * (clock - wrote) / 1000 := by ring
      _ ≤ max 0 b.tokens + limit.rate * (clock - wrote) / 1000 := le_add_of_nonneg_left htokens

/-- A call on the key leaves a bucket there that has lost what passes. -/
theorem exists_holds_spent (hexact : Textual.IsExact ℚ) {a : Ask ℚ}
    (hstore : a.store.Shares limit ttlSeconds lead) (hnow : a.now = a.clock) (s : Deployment ℚ)
    (first last : ℚ) (asks : List (Ask ℚ)) :
    ∃ b, Holds .textual (serve s a).2.keyspace (lead ++ a.key) b (a.clock + ttlSeconds * 1000) ∧
      a.clock ≤ b.lastUpdate ∧
      (admittedBetween s a.key first last (a :: asks) : ℚ) + max 0 b.tokens ≤
        max 0 (((bucketAt .textual s.keyspace a.clock (lead ++ a.key)).getD
          (.full limit a.clock)).level limit a.clock) +
        admittedBetween (serve s a).2 a.key first last asks := by
  obtain ⟨hreply, hafter, -⟩ := serve_spec hexact hstore s
  rw [hnow] at hreply hafter
  generalize (bucketAt .textual s.keyspace a.clock (lead ++ a.key)).getD (.full limit a.clock) =
    found at hreply hafter ⊢
  have hspent := toNat_add_tokens_le limit found a.clock
  have hcount : (admittedBetween s a.key first last (a :: asks) : ℚ) ≤
      (found.take limit a.clock).1.toNat + admittedBetween (serve s a).2 a.key first last asks := by
    exact_mod_cast admittedBetween_cons_le asks hreply
  exact ⟨_, hafter, le_take_lastUpdate limit found a.clock, by linarith⟩

/-- After a call on the key, what may still pass is what it has left and what the time refills. -/
theorem admittedBetween_le_of_holds (hexact : Textual.IsExact ℚ) (hrate : 0 ≤ limit.rate)
    (httl : limit.capacity ≤ limit.rate * ttlSeconds) {b : Bucket ℚ} {wrote : ℚ}
    (hholds : Holds .textual s.keyspace (lead ++ key) b (wrote + ttlSeconds * 1000))
    (hlast : wrote ≤ b.lastUpdate) (first : ℚ) (hwrote : wrote ≤ last) (asks : List (Ask ℚ))
    (hstores : ∀ a ∈ asks, a.store.Shares limit ttlSeconds lead)
    (hnow : ∀ a ∈ asks, a.now = a.clock) (hclock : ∀ a ∈ asks, wrote ≤ a.clock)
    (hforward : asks.Pairwise fun a b => a.clock ≤ b.clock) :
    (admittedBetween s key first last asks : ℚ) ≤
      max 0 b.tokens + limit.rate * (last - wrote) / 1000 := by
  induction asks generalizing s b wrote with
  | nil =>
    have hroom := refill_nonneg hrate hwrote
    exact add_nonneg (le_max_left 0 b.tokens) hroom
  | cons a asks ih =>
    obtain ⟨hfirst, hlater⟩ := List.pairwise_cons.mp hforward
    have hstores' := fun x hx => hstores x (List.mem_cons_of_mem a hx)
    have hnow' := fun x hx => hnow x (List.mem_cons_of_mem a hx)
    have hclock' := fun x hx => hclock x (List.mem_cons_of_mem a hx)
    have hstore := hstores a List.mem_cons_self
    have hsince := hclock a List.mem_cons_self
    by_cases hlate : last < a.clock
    · -- The clock has passed the last instant, and so it has at every later call.
      have hall : ∀ x ∈ a :: asks, last < x.clock := by
        intro x hx
        rcases List.mem_cons.mp hx with rfl | hx
        · exact hlate
        · exact hlate.trans_le (hfirst x hx)
      rw [admittedBetween_eq_zero (a :: asks) hall, Nat.cast_zero]
      exact add_nonneg (le_max_left 0 b.tokens) (refill_nonneg hrate hwrote)
    · have hbefore : a.clock ≤ last := not_lt.mp hlate
      by_cases hkey : a.key = key
      · subst hkey
        obtain ⟨b', hholds', hlast', hspent⟩ :=
          exists_holds_spent hexact hstore (hnow a List.mem_cons_self) s first last asks
        have hrest := ih hholds' hlast' hbefore hstores' hnow' hfirst hlater
        have hlevel := level_le_of_holds hrate httl hholds hlast hsince
        have hfound := max_le
          (add_nonneg (le_max_left 0 b.tokens) (refill_nonneg hrate hsince)) hlevel
        have hsplit : limit.rate * (last - wrote) / 1000 =
            limit.rate * (a.clock - wrote) / 1000 + limit.rate * (last - a.clock) / 1000 := by ring
        linarith
      · obtain ⟨-, -, hother⟩ := serve_spec hexact hstore s
        obtain ⟨r, hr, hrecord⟩ := hholds
        rw [admittedBetween_cons_of_not asks fun hin => hkey hin.1]
        exact ih ⟨r, (hother key (Ne.symm hkey)).trans hr, hrecord⟩ hlast hwrote hstores' hnow'
          hclock' hlater

/-- Keys that live long enough keep the budget. -/
theorem keepsBudget_of_le (hexact : Textual.IsExact ℚ) (hrate : 0 ≤ limit.rate)
    (hcapacity : 0 ≤ limit.capacity) (httl : limit.capacity ≤ limit.rate * ttlSeconds)
    {o : RedisOptions ℚ} (ho : o.Shares limit ttlSeconds lead) (key : String) :
    KeepsBudget o limit key := by
  intro s asks hstores hnow hforward first last hle
  induction asks generalizing s with
  | nil => exact add_nonneg hcapacity (refill_nonneg hrate hle)
  | cons a asks ih =>
    obtain ⟨hfirst, hlater⟩ := List.pairwise_cons.mp hforward
    have hstores' := fun x hx => hstores x (List.mem_cons_of_mem a hx)
    have hnow' := fun x hx => hnow x (List.mem_cons_of_mem a hx)
    by_cases hin : a.key = key ∧ first ≤ a.clock ∧ a.clock ≤ last
    · -- The first call that counts finds a full bucket at most.
      obtain ⟨rfl, hafter, hbefore⟩ := hin
      have hstore : a.store.Shares limit ttlSeconds lead := (hstores a List.mem_cons_self).symm ▸ ho
      obtain ⟨b, hholds, hlast, hspent⟩ :=
        exists_holds_spent hexact hstore (hnow a List.mem_cons_self) s first last asks
      have hrest := admittedBetween_le_of_holds hexact hrate httl hholds hlast first hbefore asks
        (fun x hx => (hstores' x hx).symm ▸ ho) hnow' hfirst hlater
      have hfound := max_le hcapacity (level_le_capacity limit
        ((bucketAt .textual s.keyspace a.clock (lead ++ a.key)).getD (.full limit a.clock)) a.clock)
      have hsplit : limit.rate * (last - first) / 1000 =
          limit.rate * (a.clock - first) / 1000 + limit.rate * (last - a.clock) / 1000 := by ring
      have hskipped := refill_nonneg hrate hafter
      linarith
    · rw [admittedBetween_cons_of_not asks hin]
      exact ih (serve s a).2 hstores' hnow' hlater

end Kept

section Exceeded

variable {limit : Limit ℚ} {ttlSeconds : ℚ} {lead : String}

/-- Calls at one instant take every token of a bucket of that instant, and the key lives on. -/
theorem burst_spec (hexact : Textual.IsExact ℚ) (httl : 0 < ttlSeconds) {a : Ask ℚ}
    (hstore : a.store.Shares limit ttlSeconds lead) (hnow : a.now = a.clock)
    (hfirst : first ≤ a.clock) (hlast : a.clock ≤ last) (n : ℕ) (hn : n ≤ limit.capacity)
    (hfound : (bucketAt .textual s.keyspace a.clock (lead ++ a.key)).getD (.full limit a.clock) =
      ⟨n, a.clock⟩) :
    admittedBetween s a.key first last (List.replicate n a) = n ∧
      (n ≠ 0 → ∃ b, Holds .textual (served s (List.replicate n a)).keyspace (lead ++ a.key) b
        (a.clock + ttlSeconds * 1000)) := by
  induction n generalizing s with
  | zero => exact ⟨rfl, fun h => absurd rfl h⟩
  | succ n ih =>
    obtain ⟨hreply, hafter, -⟩ := serve_spec hexact hstore s
    have hone : (1 : ℚ) ≤ (n + 1 : ℕ) := by exact_mod_cast Nat.le_add_left 1 n
    rw [hnow, hfound, take_of_one_le rfl hone hn] at hreply hafter
    have hleft : ((n + 1 : ℕ) : ℚ) - 1 = n := by
      push_cast
      ring
    simp only [hleft] at hafter
    have hlive : a.clock < a.clock + ttlSeconds * 1000 := by linarith
    have hnext : (bucketAt .textual (serve s a).2.keyspace a.clock (lead ++ a.key)).getD
        (.full limit a.clock) = ⟨n, a.clock⟩ := by
      rw [hafter.bucketAt_eq, if_pos hlive, Option.getD_some]
    have hle : (n : ℚ) ≤ limit.capacity := by
      push_cast at hn
      linarith
    obtain ⟨hcount, hholds⟩ := ih hle hnext
    refine ⟨?_, fun _ => ?_⟩
    · rw [List.replicate_succ, admittedBetween_cons, hcount, hreply,
        if_pos ⟨rfl, hfirst, hlast, by simp⟩]
    · cases n with
      | zero => exact ⟨_, hafter⟩
      | succ n => exact hholds (Nat.succ_ne_zero n)

/-- A key that expires before its bucket could be full again gives out two full buckets, and the
time between them has refilled less than one. -/
theorem le_of_keepsBudget (hexact : Textual.IsExact ℚ) (httl : 0 < ttlSeconds) (n : ℕ)
    (hcapacity : limit.capacity = (n + 1 : ℕ)) {o : RedisOptions ℚ}
    (ho : o.Shares limit ttlSeconds lead) (h : KeepsBudget o limit key) :
    limit.capacity ≤ limit.rate * ttlSeconds := by
  let early : Ask ℚ := ⟨o, key, 0, 0⟩
  let late : Ask ℚ := ⟨o, key, ttlSeconds * 1000, ttlSeconds * 1000⟩
  let s : Deployment ℚ := { clock := 0 }
  have hlong : 0 ≤ ttlSeconds * 1000 := by positivity
  have hfull : ∀ clock, full limit clock = ⟨(n + 1 : ℕ), clock⟩ := by
    intro clock
    rw [← hcapacity]
    rfl
  have hfoundEarly : (bucketAt .textual s.keyspace early.clock (lead ++ early.key)).getD
      (.full limit early.clock) = ⟨(n + 1 : ℕ), early.clock⟩ := by
    rw [bucketAt_of_lookup rfl, Option.getD_none, hfull]
  have hinEarly : 0 ≤ early.clock ∧ early.clock ≤ ttlSeconds * 1000 := ⟨le_refl 0, hlong⟩
  obtain ⟨hearly, hholds⟩ := burst_spec hexact httl ho rfl hinEarly.1 hinEarly.2 (n + 1)
    hcapacity.ge hfoundEarly
  obtain ⟨b, hholds⟩ := hholds (Nat.succ_ne_zero n)
  have hgone : ¬ late.clock < early.clock + ttlSeconds * 1000 := by
    simp [early, late]
  have hfoundLate : (bucketAt .textual (served s (List.replicate (n + 1) early)).keyspace
      late.clock (lead ++ late.key)).getD (.full limit late.clock) = ⟨(n + 1 : ℕ), late.clock⟩ := by
    rw [hholds.bucketAt_eq, if_neg hgone, Option.getD_none, hfull]
  have hinLate : 0 ≤ late.clock ∧ late.clock ≤ ttlSeconds * 1000 := ⟨hlong, le_refl _⟩
  obtain ⟨hlate, -⟩ := burst_spec hexact httl ho rfl hinLate.1 hinLate.2 (n + 1) hcapacity.ge
    hfoundLate
  have hmem : ∀ a ∈ List.replicate (n + 1) early ++ List.replicate (n + 1) late,
      a = early ∨ a = late := by
    intro a ha
    rcases List.mem_append.mp ha with ha | ha
    · exact Or.inl (List.eq_of_mem_replicate ha)
    · exact Or.inr (List.eq_of_mem_replicate ha)
  have hbudget := h s (List.replicate (n + 1) early ++ List.replicate (n + 1) late) ?_ ?_ ?_ 0
    (ttlSeconds * 1000) hlong
  · rw [admittedBetween_append, hearly, hlate] at hbudget
    push_cast at hbudget hcapacity
    linarith
  · intro a ha
    rcases hmem a ha with rfl | rfl <;> rfl
  · intro a ha
    rcases hmem a ha with rfl | rfl <;> rfl
  · rw [List.pairwise_append]
    refine ⟨List.pairwise_replicate.mpr (Or.inr (le_refl _)),
      List.pairwise_replicate.mpr (Or.inr (le_refl _)), ?_⟩
    intro a ha b hb
    rw [List.eq_of_mem_replicate ha, List.eq_of_mem_replicate hb]
    exact hlong

end Exceeded

/-- Where nothing can be sent, nothing passes. -/
theorem admittedBetween_of_unsent (asks : List (Ask ℚ))
    (h : ∀ a ∈ asks, textOrMissing? a.store.keyLead = none) :
    admittedBetween s key first last asks = 0 := by
  induction asks with
  | nil => rfl
  | cons a asks ih =>
    rw [admittedBetween_cons, serve_of_unsent (h a List.mem_cons_self)]
    simpa using ih fun b hb => h b (List.mem_cons_of_mem a hb)

/-- The options of a store in Redis say what the configuration says. -/
theorem shares_of_storeChoice {c : Config ℚ} {o : RedisOptions ℚ} (ho : c.storeChoice = .redis o)
    {lead : String} (hlead : c.keyLead.text? = some lead) :
    o.Shares c.limit c.ttlSeconds lead := by
  obtain ⟨redis, rfl⟩ := Config.redisOptions_of_storeChoice ho
  exact ⟨rfl, rfl, rfl, hlead⟩

/-- An accepted configuration whose store is in Redis keeps the budget of a key exactly if its keys
live at least as long as it takes to fill a bucket, or if the names of its keys cannot be written,
so that no call ever passes. -/
theorem keepsBudget_iff (hexact : Textual.IsExact ℚ) {settings : Settings ℚ} {c : Config ℚ}
    (hresolve : settings.resolve = .ok c) {o : RedisOptions ℚ} (ho : c.storeChoice = .redis o)
    (key : String) :
    KeepsBudget o c.limit key ↔
      c.keyLead.text? = none ∨ c.limit.capacity ≤ c.limit.rate * c.ttlSeconds := by
  have hchecked := Settings.checked_of_resolve hresolve
  have hpositive := hchecked.capacity.2
  cases hlead : c.keyLead.text? with
  | none =>
    refine ⟨fun _ => Or.inl rfl, fun _ s asks hstores _ _ first last hle => ?_⟩
    have hunsent : ∀ a ∈ asks, textOrMissing? a.store.keyLead = none := by
      intro a ha
      obtain ⟨redis, rfl⟩ := Config.redisOptions_of_storeChoice ho
      rw [hstores a ha]
      exact hlead
    rw [admittedBetween_of_unsent asks hunsent, Nat.cast_zero]
    exact add_nonneg (zero_le_one.trans hpositive) (refill_nonneg hchecked.rate.le hle)
  | some lead =>
    have hshares := shares_of_storeChoice ho hlead
    have httl := ((Settings.isPositiveWhole_iff c.ttlSeconds).mp hchecked.ttlSeconds).2
    constructor
    · intro hkeeps
      obtain ⟨n, hn⟩ := Scalar.exists_succ_of_isWhole hchecked.capacity.1 hpositive
      exact Or.inr (le_of_keepsBudget hexact httl n hn hshares hkeeps)
    · rintro (hnone | hle)
      · cases hnone
      · exact keepsBudget_of_le hexact hchecked.rate.le (zero_le_one.trans hpositive) hle hshares
          key

end

/-- With one token that takes a thousand seconds to come back, keys that live for one second do not
keep the budget. -/
theorem keepsBudget_iff_brief :
    let settings : Settings ℚ :=
      { rate := some (.number (1 / 1000)), capacity := some (.number 1)
        ttlSeconds := some (.number 1), redis := some (.on { client := some .server }) }
    ∃ c o, settings.resolve = .ok c ∧ c.storeChoice = .redis o ∧ ¬ KeepsBudget o c.limit "a" := by
  intro settings
  have haccept : settings.accept = .ok ⟨⟨1 / 1000, 1⟩, some 1, none, none, none, none⟩ :=
    (Settings.accept_eq_ok_iff _ _).mpr
      ⟨Settings.numberWhere_number (by decide +kernel),
        Settings.numberWhere_number (by decide +kernel),
        Settings.optionalWhere_number (by decide +kernel), rfl, rfl, rfl, rfl, rfl⟩
  have hresolve := (Settings.resolve_eq_ok_iff settings _).mpr ⟨_, haccept, rfl⟩
  refine ⟨_, _, hresolve, rfl, fun hkeeps => ?_⟩
  rcases (keepsBudget_iff Fraction.isExact hresolve rfl "a").mp hkeeps with hnone | hle
  · exact absurd hnone (by decide +kernel)
  · exact absurd hle (by decide +kernel)

end Admission.Shared
