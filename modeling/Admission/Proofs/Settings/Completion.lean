import Admission.Deployment.Setup
import Admission.Proofs.Deployment.Conclusion
import Admission.Proofs.Number.Exact
import Admission.Proofs.Settings.Acceptance

/-!
Settings with nothing left out.

A configuration is what settings come to once every default is filled in. It holds for its own
settings again: read as settings it is accepted, and filling in the defaults a second time changes
nothing. So it does not matter whether a store is chosen for the settings as they came or for what
they came to, and a limiter shares all its numbers with the store that is built for it.
-/
namespace Admission

/-- The number that a field comes to: the one that is given, or the usual one. -/
inductive Fills {α : Type} (usual : α) : Option (Value α) → α → Prop
  | given (x : α) : Fills usual (some (.number x)) x
  | missing : Fills usual none usual

/-- The value that a field comes to: any that is given, but null counts as missing. -/
inductive FillsValue {α : Type} (usual : Value α) : Option (Value α) → Value α → Prop
  | given {v : Value α} (h : v ≠ .null) : FillsValue usual (some v) v
  | null : FillsValue usual (some .null) usual
  | missing : FillsValue usual none usual

/-- A configuration is what settings come to, field by field. -/
structure Config.Completes {α : Type} [Scalar α] (c : Config α) (s : Settings α) : Prop where
  rate : s.rate = some (.number c.limit.rate)
  capacity : s.capacity = some (.number c.limit.capacity)
  keyRule : s.keyRule = some c.keyRule ∨ s.keyRule = none ∧ c.keyRule = .global
  redis : c.redis = s.redis
  store : c.store = s.store
  keyLead : FillsValue (.text "ratelimit:") s.keyLead c.keyLead
  ttlSeconds : Fills 60 s.ttlSeconds c.ttlSeconds
  timeout : Fills 100 s.timeout c.timeout
  failOpen : FillsValue (.bool true) s.failOpen c.failOpen
  /-- Buckets rest for as long as they live in Redis, in milliseconds. -/
  idleTimeout : Fills (c.ttlSeconds * 1000) s.idleTimeout c.idleTimeout
  sweepInterval : Fills 60000 s.sweepInterval c.sweepInterval
  maxBuckets : Fills 0 s.maxBuckets c.maxBuckets

namespace Settings

variable {α : Type}

theorem number_of_numberWhere {passes : α → Bool} {got : Option (Value α)} {x : α}
    (h : numberWhere passes got = some x) : got = some (.number x) := by
  obtain ⟨v, rfl, hv⟩ := Option.bind_eq_some_iff.mp (Option.filter_eq_some_iff.mp h).1
  cases v <;> cases hv
  rfl

theorem fills_of_optionalWhere {passes : α → Bool} {fault : Value α → SettingsFault α}
    {got : Option (Value α)} {found : Option α} (h : optionalWhere passes fault got = .ok found)
    (usual : α) : Fills usual got (found.getD usual) := by
  cases got with
  | none =>
    cases h
    exact .missing
  | some v =>
    simp only [optionalWhere] at h
    split at h
    · next x hx =>
      cases h
      rw [number_of_numberWhere hx]
      exact .given x
    · cases h

theorem fillsValue_orDefault (usual : Value α) (v : Option (Value α)) :
    FillsValue usual v (orDefault usual v) := by
  cases v with
  | none => exact .missing
  | some v =>
    cases v with
    | null => exact .null
    | _ => exact .given (by simp)

theorem orDefault_orDefault (usual : Value α) (v : Option (Value α)) :
    orDefault usual (some (orDefault usual v)) = orDefault usual v := by
  have husual : orDefault usual (some usual) = usual := by
    cases usual <;> rfl
  cases v with
  | none => exact husual
  | some v =>
    cases v with
    | null => exact husual
    | _ => rfl

variable [Scalar α]

/-- The numbers of a configuration, read as settings, are accepted as they are. -/
theorem accept_toSettings (hexact : Scalar.ExactCounts α) {s : Settings α} {a : Accepted α}
    (h : s.accept = .ok a) :
    let c := s.complete a
    c.toSettings.accept = .ok ⟨c.limit, some c.ttlSeconds, some c.timeout, some c.idleTimeout,
      some c.sweepInterval, some c.maxBuckets⟩ := by
  intro c
  have hchecked := checked_of_accept h
  have httl : isPositiveWhole c.ttlSeconds = true :=
    passes_getD hchecked.ttlSeconds (isPositiveWhole_count hexact (by decide))
  have hredis : reachable c.redis = true := ((accept_eq_ok_iff s a).mp h).2.2.2.2.2.2.2
  rw [accept_eq_ok_iff]
  refine ⟨numberWhere_number ?_, numberWhere_number ?_, optionalWhere_number httl,
    optionalWhere_number ?_, optionalWhere_number ?_, optionalWhere_number ?_,
    optionalWhere_number ?_, hredis⟩
  · rw [Bool.and_eq_true, decide_eq_true_iff]
    exact hchecked.rate
  · rw [Bool.and_eq_true, decide_eq_true_iff]
    exact hchecked.capacity
  · exact passes_getD hchecked.timeout (isPositiveWhole_count hexact (by decide))
  · exact passes_getD hchecked.idleTimeout (isNaturalWhole_thousandfold hexact httl)
  · exact passes_getD hchecked.sweepInterval (isNaturalWhole_count hexact _)
  · exact passes_getD hchecked.maxBuckets (isNaturalWhole_count hexact _)

/-- Nothing is missing in a configuration that a default could stand in for. -/
theorem complete_toSettings (s : Settings α) (a : Accepted α) :
    let c := s.complete a
    c.toSettings.complete ⟨c.limit, some c.ttlSeconds, some c.timeout, some c.idleTimeout,
      some c.sweepInterval, some c.maxBuckets⟩ = c := by
  simp only [complete, Config.toSettings, orDefault_orDefault, Option.getD_some]

theorem resolve_toSettings (hexact : Scalar.ExactCounts α) {s : Settings α} {c : Config α}
    (h : s.resolve = .ok c) : c.toSettings.resolve = .ok c := by
  obtain ⟨a, haccept, rfl⟩ := (resolve_eq_ok_iff s c).mp h
  rw [resolve, accept_toSettings hexact haccept]
  exact congrArg Except.ok (complete_toSettings s a)

theorem completes_of_resolve {s : Settings α} {c : Config α} (h : s.resolve = .ok c) :
    c.Completes s := by
  obtain ⟨a, haccept, rfl⟩ := (resolve_eq_ok_iff s c).mp h
  obtain ⟨hrate, hcapacity, httl, htimeout, hidle, hsweep, hmax, -⟩ :=
    (accept_eq_ok_iff s a).mp haccept
  constructor
  · exact number_of_numberWhere hrate
  · exact number_of_numberWhere hcapacity
  · cases hkey : s.keyRule with
    | none => exact Or.inr ⟨rfl, by simp [complete, hkey]⟩
    | some keyRule => exact Or.inl (by simp [complete, hkey])
  · rfl
  · rfl
  · exact fillsValue_orDefault _ _
  · exact fills_of_optionalWhere httl _
  · exact fills_of_optionalWhere htimeout _
  · exact fillsValue_orDefault _ _
  · exact fills_of_optionalWhere hidle _
  · exact fills_of_optionalWhere hsweep _
  · exact fills_of_optionalWhere hmax _

/-- Settings are validated when they can be completed. -/
theorem validate_eq_ok_iff_exists_resolve (s : Settings α) :
    s.validate = .ok () ↔ ∃ c, s.resolve = .ok c := by
  unfold validate resolve
  cases s.accept <;> simp [Except.map]

end Settings

/-! The store of a configuration -/

/-- Every option of a store in Redis is the setting of its name. -/
structure RedisOptions.Follows {α : Type} (o : RedisOptions α) (c : Config α) : Prop where
  rate : o.rate = some (.number c.limit.rate)
  capacity : o.capacity = some (.number c.limit.capacity)
  keyLead : o.keyLead = some c.keyLead
  ttlSeconds : o.ttlSeconds = some (.number c.ttlSeconds)
  timeout : o.timeout = some (.number c.timeout)
  redis : c.redis = some (.on o.redis)

/-- Every option of a store in memory is the setting of its name. -/
structure MemoryOptions.Follows {α : Type} (o : MemoryOptions α) (c : Config α) : Prop where
  rate : o.rate = c.limit.rate
  capacity : o.capacity = c.limit.capacity
  idleTimeout : o.idleTimeout = c.idleTimeout
  maxBuckets : o.maxBuckets = some c.maxBuckets

namespace StoreChoice

variable {α : Type}

/-- A store is chosen as a configuration says: the one that is brought along, or else one in Redis
when that is switched on, or else one in memory. -/
inductive Follows (c : Config α) : StoreChoice α → Prop
  | prebuilt (store : PrebuiltStore α) (h : c.store = some (.on store)) :
      Follows c (.prebuilt store)
  | redis (o : RedisOptions α) (hnone : ∀ store, c.store ≠ some (.on store)) (h : o.Follows c) :
      Follows c (.redis o)
  | memory (o : MemoryOptions α) (hnone : ∀ store, c.store ≠ some (.on store))
      (hoff : ∀ redis, c.redis ≠ some (.on redis)) (h : o.Follows c) : Follows c (.memory o)

/-- A store has the options that were chosen. -/
inductive Equips : StoreChoice α → Store α → Prop
  | scripted (script : StoreScript α) (allow : Replies α) (sweep : Option (List (Value α))) :
      Equips (.prebuilt (.scripted script)) (.scripted { script with allow, sweep })
  | held (o : MemoryOptions (Unchecked α)) (store : MemoryStore Key (Unchecked α))
      (h : store.options = o) : Equips (.prebuilt (.memory o)) (.memory store)
  | redis (o : RedisOptions α) (store : RedisStore α) (h : store.options = o) :
      Equips (.redis o) (.redis store)
  | memory (o : MemoryOptions α) (store : MemoryStore Key (Unchecked α))
      (h : store.options =
        ⟨⟨.ofNumber o.rate, .ofNumber o.capacity⟩, .ofNumber o.idleTimeout,
          o.maxBuckets.map .ofNumber⟩) : Equips (.memory o) (.memory store)

theorem Equips.resembling {choice : StoreChoice α} {old new : Store α} (h : choice.Equips old)
    (hlike : old.Resembles new) : choice.Equips new := by
  cases hlike with
  | memory old new hoptions =>
    cases h with
    | held o _ hheld => exact .held o new (hoptions.trans hheld)
    | memory o _ hunchecked => exact .memory o new (hoptions.trans hunchecked)
  | scripted script allow sweep => cases h with
    | scripted script => exact .scripted script allow sweep

end StoreChoice

theorem Config.follows_storeChoice {α : Type} (c : Config α) : c.storeChoice.Follows c := by
  unfold storeChoice
  split
  · next store hstore => exact .prebuilt store hstore
  · next redis hredis hnone => exact .redis _ hnone ⟨rfl, rfl, rfl, rfl, rfl, hredis⟩
  · next hnone hoff => exact .memory _ hnone hoff ⟨rfl, rfl, rfl, rfl⟩

namespace Deployment

variable {α : Type} [Scalar α]

/-- The store at a position has the options that were chosen. -/
def Equipped (s : Deployment α) (i : StoreId) (choice : StoreChoice α) : Prop :=
  ∃ store, s.stores[i]? = some store ∧ choice.Equips store

section

variable {s s' : Deployment α} {i : StoreId} {choice : StoreChoice α}

omit [Scalar α] in
theorem Equipped.setStore (h : s.Equipped i choice) {j : StoreId} {new : Store α}
    (hnew : ∀ old, s.stores[j]? = some old → choice.Equips old → choice.Equips new) :
    (s.setStore j new).Equipped i choice := by
  obtain ⟨old, hold, hequips⟩ := h
  unfold Equipped Deployment.setStore
  by_cases hj : j = i
  · subst hj
    have hlt : j < s.stores.length := (List.getElem?_eq_some_iff.mp hold).1
    exact ⟨new, List.getElem?_set_self hlt, hnew old hold hequips⟩
  · exact ⟨old, (List.getElem?_set_ne hj).trans hold, hequips⟩

/-- No move changes the options of a store. -/
theorem Equipped.apply (h : s.Equipped i choice) (m : Move α) : (m.apply s).Equipped i choice := by
  cases m with
  | fill j new =>
    simp only [Move.apply]
    split
    · next hlike =>
      obtain ⟨old, hold, hlike⟩ := hlike
      refine h.setStore fun other hother hequips => ?_
      obtain rfl : old = other := Option.some.inj (hold.symm.trans hother)
      exact hequips.resembling hlike
    · exact h
  | join | unlink =>
    simp only [Move.apply]
    split
    · next store hstore =>
      refine h.setStore fun other hother hequips => ?_
      obtain rfl : .redis store = other := Option.some.inj (hstore.symm.trans hother)
      cases hequips with
      | redis o store hoptions => exact .redis o _ hoptions
    · exact h
  | consume | setInterval =>
    simp only [Move.apply]
    split <;> exact h
  | _ => exact h

theorem Moves.equipped {p : Scope α} (hmoves : Moves p s s') (h : s.Equipped i choice) :
    s'.Equipped i choice := by
  induction hmoves with
  | refl => exact h
  | tail m _ _ ih => exact ih.apply m

end

/-- Building a store adds it behind the others, with the options that were chosen. The limiters stay
as they are. -/
theorem equipped_addChosen (s : Deployment α) (script : ClientScript α) (choice : StoreChoice α) :
    (s.addChosen script choice).Equipped s.stores.length choice ∧
      (s.addChosen script choice).limiters = s.limiters := by
  have hadded : ∀ {s' : Deployment α} {store : Store α}, s'.stores = s.stores ++ [store] →
      choice.Equips store → s'.Equipped s.stores.length choice := by
    intro s' store hstores hequips
    exact ⟨store, by rw [hstores, List.getElem?_concat_length], hequips⟩
  cases choice with
  | prebuilt store =>
    cases store with
    | memory o => exact ⟨hadded rfl (.held o _ rfl), rfl⟩
    | scripted script => exact ⟨hadded rfl (.scripted script _ _), rfl⟩
  | memory o => exact ⟨hadded rfl (.memory o _ rfl), rfl⟩
  | redis o =>
    simp only [addChosen, addRedis]
    split
    · exact ⟨hadded rfl (.redis o _ rfl), rfl⟩
    · exact ⟨hadded rfl (.redis o _ rfl), rfl⟩

theorem Prompt.addChosen {s : Deployment α} (hs : s.Prompt) (script : ClientScript α)
    (choice : StoreChoice α) : (s.addChosen script choice).Prompt := by
  cases choice with
  | prebuilt store => cases store <;> exact ⟨hs.agenda, hs.timers⟩
  | memory o => exact ⟨hs.agenda, hs.timers⟩
  | redis o =>
    simp only [Deployment.addChosen, addRedis]
    split <;> exact ⟨hs.agenda, hs.timers⟩

/-- A limiter on settings that are accepted works with the configuration that they come to, on the
store that is chosen for it. -/
theorem buildLimiter_eq_ok (s : Deployment α) (script : ClientScript α) {settings : Settings α}
    {c : Config α} (h : settings.resolve = .ok c) (scheduled : Bool) :
    s.buildLimiter script settings none scheduled = .ok { s.addChosen script c.storeChoice with
      limiters := s.limiters ++ [⟨c, s.stores.length, scheduled, none⟩] } := by
  obtain ⟨-, hlimiters⟩ := s.equipped_addChosen script c.storeChoice
  simp only [buildLimiter, Settings.storeChoice, addLimiter, h, Except.map, bind, Except.bind,
    hlimiters]

variable [Textual α]

/-- Whatever happens, stores keep their options and limiters their configurations. -/
theorem Prompt.kept_after {s : Deployment α} (hs : s.Prompt) {i : StoreId} {l : LimiterId}
    {choice : StoreChoice α} {β : Type} {f : Limiter α → β}
    (hf : ∀ limiter interval, f { limiter with interval } = f limiter)
    (h : s.Equipped i choice) (events : List (Event α)) :
    (s.after events).Equipped i choice ∧
      (s.after events).limiters[l]?.map f = s.limiters[l]?.map f := by
  induction events generalizing s with
  | nil => exact ⟨h, rfl⟩
  | cons ev events ih =>
    have hmoves := happen_moves hs ev
    have htaken : (s.taken ev).Equipped i choice ∧ (s.taken ev).limiters = s.limiters := by
      cases ev <;> exact ⟨h, rfl⟩
    obtain ⟨hkept, hsame⟩ := ih (hs.happen ev) (hmoves.equipped htaken.1)
    rw [hmoves.map_limiters_eq hf l, htaken.2] at hsame
    exact ⟨hkept, hsame⟩

end Deployment

namespace Settings

variable {α : Type} [Scalar α] [Textual α]

/-- What accepted settings come to is the settings themselves with the defaults filled in. It is
accepted in turn, and comes to itself. The same store is chosen for both, as the settings say, and
all its options are settings of that configuration. A limiter that is built with its store works
with that configuration and on that store, and so it stays. -/
theorem resolve_idempotent (hexact : Scalar.ExactCounts α) {s : Settings α}
    (h : s.validate = .ok ()) :
    ∃ c choice, s.resolve = .ok c ∧ c.Completes s ∧
      c.toSettings.validate = .ok () ∧ c.toSettings.resolve = .ok c ∧
      s.storeChoice = .ok choice ∧ c.toSettings.storeChoice = .ok choice ∧ choice.Follows c ∧
      ∀ (d : Deployment α) script scheduled, d.Prompt →
        ∃ d', d.buildLimiter script s none scheduled = .ok d' ∧
          ∀ events, (d'.after events).Equipped d.stores.length choice ∧
            (d'.after events).limiters[d.limiters.length]?.map
              (fun limiter => (limiter.config, limiter.store)) = some (c, d.stores.length) := by
  obtain ⟨c, hc⟩ := (validate_eq_ok_iff_exists_resolve s).mp h
  have hagain : c.toSettings.resolve = .ok c := resolve_toSettings hexact hc
  refine ⟨c, c.storeChoice, hc, completes_of_resolve hc,
    (validate_eq_ok_iff_exists_resolve _).mpr ⟨c, hagain⟩, hagain, ?_, ?_, c.follows_storeChoice,
    fun d script scheduled hd => ?_⟩
  · rw [storeChoice, hc]
    rfl
  · rw [storeChoice, hagain]
    rfl
  · let built : Deployment α := { d.addChosen script c.storeChoice with
      limiters := d.limiters ++ [⟨c, d.stores.length, scheduled, none⟩] }
    have hprompt : built.Prompt :=
      ⟨(hd.addChosen script c.storeChoice).agenda, (hd.addChosen script c.storeChoice).timers⟩
    have hequipped : built.Equipped d.stores.length c.storeChoice :=
      (d.equipped_addChosen script c.storeChoice).1
    have hlimiter : built.limiters[d.limiters.length]? =
        some ⟨c, d.stores.length, scheduled, none⟩ := List.getElem?_concat_length
    refine ⟨built, d.buildLimiter_eq_ok script hc scheduled, fun events => ?_⟩
    obtain ⟨hkept, hsame⟩ := hprompt.kept_after (l := d.limiters.length)
      (f := fun limiter => (limiter.config, limiter.store)) (fun _ _ => rfl) hequipped events
    rw [hlimiter] at hsame
    exact ⟨hkept, hsame⟩

/-- Settings that leave almost everything out, and bring no store along. -/
theorem resolve_idempotent_sparse :
    let s : Settings ℚ := { rate := some (.number (5 / 2))
                            capacity := some (.number 4)
                            store := some (.off (.text ""))
                            keyLead := some .null
                            ttlSeconds := some (.number 30) }
    let d : Deployment ℚ := .empty 0 {}
    Scalar.ExactCounts ℚ ∧ s.validate = .ok () ∧ d.Prompt ∧
      ∃ c o d', s.resolve = .ok c ∧ c.Completes s ∧ c.toSettings.resolve = .ok c ∧
        c.idleTimeout = 30000 ∧ c.keyLead = .text "ratelimit:" ∧ c.failOpen = .bool true ∧
        s.storeChoice = .ok (.memory o) ∧ o.idleTimeout = 30000 ∧
        d.buildLimiter {} s none true = .ok d' ∧
        (d'.after [.start (.bootLimiter 0), .work 0]).Equipped 0 (.memory o) := by
  intro s d
  have haccept : s.accept = .ok ⟨⟨5 / 2, 4⟩, some 30, none, none, none, none⟩ :=
    (accept_eq_ok_iff _ _).mpr ⟨numberWhere_number (by decide +kernel),
      numberWhere_number (by decide +kernel), optionalWhere_number (by decide +kernel),
      rfl, rfl, rfl, rfl, rfl⟩
  have hresolve : s.resolve = .ok _ := (resolve_eq_ok_iff s _).mpr ⟨_, haccept, rfl⟩
  have hvalid : s.validate = .ok () := (validate_eq_ok_iff_exists_resolve s).mpr ⟨_, hresolve⟩
  have hprompt : d.Prompt := ⟨nofun, nofun⟩
  obtain ⟨c, choice, hc, hcompletes, -, hagain, hchoice, -, hfollows, hbuilt⟩ :=
    resolve_idempotent Scalar.exactCounts_rat hvalid
  obtain rfl : _ = c := Except.ok.inj (hresolve.symm.trans hc)
  have hidle : (30 * 1000 : ℚ) = 30000 := by decide +kernel
  cases hfollows with
  | prebuilt store h => cases h
  | redis o _ h => cases h.redis
  | memory o _ _ h =>
    obtain ⟨d', hd', hkept⟩ := hbuilt d {} true hprompt
    exact ⟨Scalar.exactCounts_rat, hvalid, hprompt, _, o, d', hc, hcompletes, hagain, hidle, rfl,
      rfl, hchoice, h.idleTimeout.trans hidle, hd', (hkept _).1⟩

end Settings

end Admission
