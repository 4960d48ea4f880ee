import Admission.Proofs.Memory.Run
import Admission.Proofs.Shared.Fleet

/-!
Redis and the memory of one process.

Stores that share their buckets in Redis answer as one store in memory that gets all their calls. It
holds a bucket for every key in Redis, with the same tokens and the same last update. Redis forgets
what has expired, and the store in memory does not; but a key that lives at least as long as it
takes to fill its bucket has expired only after the bucket is full again.
-/
namespace Admission.Shared

open Bucket MemoryStore

section

variable [Textual ℚ]

/-- Redis and a store in memory, after calls up to an instant of the clock of Redis. -/
structure Mirrors (lead : String) (ttlSeconds clock : ℚ) (s : Deployment ℚ)
    (store : MemoryStore String ℚ) : Prop where
  unused : ∀ key, store.find? key = none → s.keyspace.lookup (lead ++ key) = none
  used : ∀ key b, store.find? key = some b →
    Holds .textual s.keyspace (lead ++ key) b (b.lastUpdate + ttlSeconds * 1000)
  lastUpdate_le : ∀ key b, store.find? key = some b → b.lastUpdate ≤ clock
  tokens_nonneg : ∀ key b, store.find? key = some b → 0 ≤ b.tokens

theorem mirrors_empty (lead : String) (ttlSeconds clock : ℚ) {s : Deployment ℚ}
    (hfresh : ∀ key, s.keyspace.lookup (lead ++ key) = none) (options : MemoryOptions ℚ) :
    Mirrors lead ttlSeconds clock s (empty options) where
  unused := fun key _ => hfresh key
  used := by
    intro key b h
    cases h
  lastUpdate_le := by
    intro key b h
    cases h
  tokens_nonneg := by
    intro key b h
    cases h

namespace Mirrors

variable {lead : String} {ttlSeconds clock : ℚ} {s : Deployment ℚ} {store : MemoryStore String ℚ}

/-- A call finds the same in both, whether or not its key has expired. -/
theorem take_eq (h : Mirrors lead ttlSeconds clock s store) (hrate : 0 < store.options.rate)
    (httl : store.options.capacity ≤ ttlSeconds * store.options.rate) (key : String) {now : ℚ}
    (hnow : clock ≤ now) :
    ((bucketAt .textual s.keyspace now (lead ++ key)).getD (.full store.options.toLimit now)).take
        store.options.toLimit now =
      (store.bucketFor key now).take store.options.toLimit now := by
  unfold bucketFor
  cases hfound : store.find? key with
  | none => rw [bucketAt_of_lookup (h.unused key hfound)]
  | some b =>
    rw [(h.used key b hfound).bucketAt_eq]
    split
    · rfl
    · next hexpired =>
      have hlast : b.lastUpdate ≤ now := (h.lastUpdate_le key b hfound).trans hnow
      have hlong : ttlSeconds ≤ (now - b.lastUpdate) / 1000 := by linarith
      have hrefill : store.options.capacity ≤ (now - b.lastUpdate) / 1000 * store.options.rate :=
        httl.trans (mul_le_mul_of_nonneg_right hlong hrate.le)
      have hrested : b.Rested store.options.toLimit now :=
        rested_of_refillTime hrate (h.tokens_nonneg key b hfound) hlast hrefill
      exact (hrested.take_eq_full (le_refl now)).symm

/-- A call is answered alike, and leaves the same behind. -/
theorem serve (hexact : Textual.IsExact ℚ) (h : Mirrors lead ttlSeconds clock s store)
    (hunbounded : Unbounded store.options) (hrate : 0 < store.options.rate)
    (hcapacity : 0 ≤ store.options.capacity)
    (httl : store.options.capacity ≤ ttlSeconds * store.options.rate) {a : Ask ℚ}
    (hstore : a.store.Shares store.options.toLimit ttlSeconds lead) (hnow : a.now = a.clock)
    (hclock : clock ≤ a.clock) :
    (Shared.serve s a).1 = some (.verdict (store.allow a.key a.now).allowed) ∧
      Mirrors lead ttlSeconds a.clock (Shared.serve s a).2 (store.allow a.key a.now).store := by
  have htake := h.take_eq hrate httl a.key hclock
  have hspec := serve_spec hexact hstore s
  simp only [hnow, htake] at hspec ⊢
  obtain ⟨hreply, hholds, hother⟩ := hspec
  -- The call leaves a bucket of its own time, and one that owes no tokens.
  have hlast : ((store.bucketFor a.key a.clock).take store.options.toLimit a.clock).2.lastUpdate =
      a.clock := by
    rw [take_lastUpdate]
    exact max_eq_right (store.bucketFor_of (P := (·.lastUpdate ≤ a.clock)) a.key a.clock (le_refl _)
      fun b hb => (h.lastUpdate_le a.key b hb).trans hclock)
  have htokens : 0 ≤ (store.bucketFor a.key a.clock).tokens :=
    store.bucketFor_of a.key a.clock (full_tokens_nonneg hcapacity a.clock)
      (h.tokens_nonneg a.key)
  refine ⟨hreply, ⟨?_, ?_, ?_, ?_⟩⟩
  · intro key hkey
    rw [find?_allow store hunbounded] at hkey
    split at hkey
    · cases hkey
    · next hne => rw [hother key hne, h.unused key hkey]
  · intro key b hkey
    rw [find?_allow store hunbounded] at hkey
    split at hkey
    · next heq =>
      rw [heq, ← Option.some.inj hkey, hlast]
      exact hholds
    · next hne =>
      obtain ⟨r, hr, hrest⟩ := h.used key b hkey
      exact ⟨r, (hother key hne).trans hr, hrest⟩
  · intro key b hkey
    rw [find?_allow store hunbounded] at hkey
    split at hkey
    · exact (Option.some.inj hkey ▸ hlast).le
    · exact (h.lastUpdate_le key b hkey).trans hclock
  · intro key b hkey
    rw [find?_allow store hunbounded] at hkey
    split at hkey
    · exact Option.some.inj hkey ▸ take_tokens_nonneg hrate.le hcapacity htokens a.clock
    · exact h.tokens_nonneg key b hkey

/-- The replies to calls that come one after the other are the answers of the store in memory. -/
theorem replies (hexact : Textual.IsExact ℚ) (h : Mirrors lead ttlSeconds clock s store)
    (hunbounded : Unbounded store.options) (hrate : 0 < store.options.rate)
    (hcapacity : 0 ≤ store.options.capacity)
    (httl : store.options.capacity ≤ ttlSeconds * store.options.rate) (asks : List (Ask ℚ))
    (hstores : ∀ a ∈ asks, a.store.Shares store.options.toLimit ttlSeconds lead)
    (hnow : ∀ a ∈ asks, a.now = a.clock) (hclock : ∀ a ∈ asks, clock ≤ a.clock)
    (hforward : asks.Pairwise fun a b => a.clock ≤ b.clock) :
    Shared.replies s asks =
      (store.callAnswers (asks.map fun a => (a.key, a.now))).map fun allowed =>
        some (.verdict allowed) := by
  induction asks generalizing clock s store with
  | nil => rfl
  | cons a asks ih =>
    obtain ⟨hfirst, hlater⟩ := List.pairwise_cons.mp hforward
    obtain ⟨hreply, hafter⟩ := h.serve hexact hunbounded hrate hcapacity httl
      (hstores a List.mem_cons_self) (hnow a List.mem_cons_self) (hclock a List.mem_cons_self)
    have hrest := ih hafter hunbounded hrate hcapacity httl
      (fun b hb => hstores b (List.mem_cons_of_mem a hb))
      (fun b hb => hnow b (List.mem_cons_of_mem a hb)) hfirst hlater
    exact congrArg₂ List.cons hreply hrest

end Mirrors

/-- Stores that share their buckets in Redis answer, whichever of them is called, as one store in
memory answers to all their calls, as long as keys live long enough to fill a bucket. -/
theorem replies_eq_answers (hexact : Textual.IsExact ℚ) (options : MemoryOptions ℚ)
    (hunbounded : Unbounded options) (hrate : 0 < options.rate) (hcapacity : 0 ≤ options.capacity)
    (ttlSeconds : ℚ) (httl : options.capacity ≤ ttlSeconds * options.rate) (lead : String)
    (s : Deployment ℚ) (hfresh : ∀ key, s.keyspace.lookup (lead ++ key) = none)
    (asks : List (Ask ℚ))
    (hstores : ∀ a ∈ asks, a.store.Shares options.toLimit ttlSeconds lead)
    (hnow : ∀ a ∈ asks, a.now = a.clock)
    (hforward : asks.Pairwise fun a b => a.clock ≤ b.clock) :
    replies s asks =
      ((empty options).callAnswers (asks.map fun a => (a.key, a.now))).map fun allowed =>
        some (.verdict allowed) := by
  cases asks with
  | nil => rfl
  | cons a asks =>
    have hclock : ∀ b ∈ a :: asks, a.clock ≤ b.clock := by
      intro b hb
      rcases List.mem_cons.mp hb with rfl | hlater
      · exact le_refl b.clock
      · exact (List.pairwise_cons.mp hforward).1 b hlater
    exact (mirrors_empty lead ttlSeconds a.clock hfresh options).replies hexact hunbounded hrate
      hcapacity httl (a :: asks) hstores hnow hclock hforward

end

/-- Two stores with different deadlines answer as one store in memory, whose bucket is full again
when the key that both have used expires. -/
theorem replies_eq_answers_expired :
    let options : MemoryOptions ℚ := ⟨⟨2, 2⟩, 0, some 0⟩
    let near : RedisOptions ℚ := ⟨some (.number 2), some (.number 2), some (.text "bucket:"),
      some (.number 1), some (.number 100), {}⟩
    let far : RedisOptions ℚ := { near with timeout := some (.number 5000) }
    let asks : List (Ask ℚ) := [⟨near, "a", 0, 0⟩, ⟨far, "a", 0, 0⟩, ⟨near, "a", 100, 100⟩,
      ⟨near, "b", 100, 100⟩, ⟨far, "a", 1100, 1100⟩, ⟨near, "a", 1100, 1100⟩]
    let s : Deployment ℚ := { clock := 0 }
    (Unbounded options ∧ 0 < options.rate ∧ 0 ≤ options.capacity ∧
      options.capacity ≤ 1 * options.rate ∧
      (∀ key, s.keyspace.lookup ("bucket:" ++ key) = none) ∧
      (∀ a ∈ asks, a.store.Shares options.toLimit 1 "bucket:") ∧ (∀ a ∈ asks, a.now = a.clock) ∧
      asks.Pairwise fun a b => a.clock ≤ b.clock) ∧
    replies s asks = [true, true, false, true, true, true].map fun allowed =>
      some (.verdict allowed) := by
  intro options near far asks s
  have hnear : near.Shares options.toLimit 1 "bucket:" := ⟨rfl, rfl, rfl, rfl⟩
  have hfar : far.Shares options.toLimit 1 "bucket:" := ⟨rfl, rfl, rfl, rfl⟩
  have hunbounded : Unbounded options := by decide +kernel
  have hrate : 0 < options.rate := by decide +kernel
  have hcapacity : 0 ≤ options.capacity := by decide +kernel
  have httl : options.capacity ≤ 1 * options.rate := by decide +kernel
  have hstores : ∀ a ∈ asks, a.store.Shares options.toLimit 1 "bucket:" := by
    simp [asks, hnear, hfar]
  have hnow : ∀ a ∈ asks, a.now = a.clock := by simp [asks]
  have hforward : asks.Pairwise fun a b => a.clock ≤ b.clock := by decide +kernel
  refine ⟨⟨hunbounded, hrate, hcapacity, httl, fun _ => rfl, hstores, hnow, hforward⟩, ?_⟩
  rw [replies_eq_answers Fraction.isExact options hunbounded hrate hcapacity 1 httl "bucket:" s
    (fun _ => rfl) asks hstores hnow hforward]
  exact congrArg (List.map _) (by decide +kernel)

end Admission.Shared
