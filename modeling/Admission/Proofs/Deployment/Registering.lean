import Admission.Registration
import Admission.Proofs.Deployment.Readiness
import Admission.Proofs.Settings.Completion

/-!
All ways to register a limiter come to the same.

Settings are handed over directly, or by a source that is asked for them and may take its time. What
the application builds from them it builds in whatever order its parts become available. Settings
that are refused stop it before there is a store or a limiter. Any others lead to one whole, in
which the limiter, its middleware and its guard share one store, and from which the same calls lead
to the same decisions.
-/
namespace Admission

/-- The settings that a registration offers: those that it hands over, or those of the first of its
sources. -/
inductive Registration.Offers {σ : Type} : Registration σ → σ → Prop
  | direct (settings : σ) : Offers (.direct settings) settings
  | factory (p : Provision σ) (ownClass existing : Option (Provision σ)) :
      Offers (.deferred ⟨some p, ownClass, existing⟩) p.awaited
  | ownClass (p : Provision σ) (existing : Option (Provision σ)) :
      Offers (.deferred ⟨none, some p, existing⟩) p.awaited
  | existing (p : Provision σ) : Offers (.deferred ⟨none, none, some p⟩) p.awaited

/-- Settings are on their way, and nobody has validated them yet. -/
inductive Supply.Brings {σ : Type} : Supply σ → σ → Prop
  | lacking (p : Provision σ) : Brings (.lacking p) p.awaited
  | unasked (p : Provision σ) : Brings (.unasked p) p.awaited
  | promised (settings : σ) : Brings (.promised settings) settings
  | received (settings : σ) : Brings (.received settings) settings

variable {α : Type} [Scalar α]

namespace Registration

variable (r : Registration (Settings α)) (s : Deployment α) (script : ClientScript α)

/-- An application may have come this far with a registration. -/
def Reaches (a : Assembly α) : Prop :=
  ∃ begun steps, r.register s = .ok begun ∧ begun.run script steps = .ok a

/-- Registering may fail, or a step that the application takes. -/
def Fails (fault : RegistrationFault α) : Prop :=
  r.register s = .error fault ∨ ∃ begun steps refusal, r.register s = .ok begun ∧
    begun.run script steps = .error refusal ∧ fault = .settings refusal

end Registration

namespace Assembly

/-- Everything that a registration offers is built. -/
def Complete (a : Assembly α) : Prop :=
  a.store.isSome ∧ a.limiter.isSome ∧ a.middleware.isSome ∧ a.guard.isSome

/-- Nothing that a registration offers is built. -/
structure Untouched (a : Assembly α) (s : Deployment α) : Prop where
  deployment : a.deployment = s
  store : a.store = none
  limiter : a.limiter = none
  middleware : a.middleware = none
  guard : a.guard = none

section

variable (s : Deployment α) (script : ClientScript α) (c : Settings α)

/-- What is built from settings that nobody has accepted: nothing. -/
inductive Pending : Assembly α → Prop
  | intro (supply : Supply (Settings α)) (h : supply.Brings c) :
      Pending { deployment := s, supply }

/-- A limiter on the store that its configuration chooses, added to a deployment. -/
def installed (config : Config α) : Deployment α :=
  { s.addChosen script config.storeChoice with
    limiters := s.limiters ++ [⟨config, s.stores.length, true, none⟩] }

/-- All that is built from accepted settings. -/
def whole (config : Config α) : Assembly α where
  deployment := installed s script config
  supply := .registered c
  store := some s.stores.length
  limiter := some s.limiters.length
  middleware := some s.limiters.length
  guard := some s.limiters.length

/-- How far an application can come with settings that are accepted: one store is built before the
limiter, which comes before the middleware and the guard. -/
inductive Underway (config : Config α) : Assembly α → Prop
  | pending {a : Assembly α} (h : Pending s c a) : Underway config a
  | registered : Underway config { deployment := s, supply := .registered c }
  | stored : Underway config
      { deployment := s.addChosen script config.storeChoice
        supply := .registered c
        store := some s.stores.length }
  | limited (middleware guard : Option LimiterId)
      (hmiddleware : middleware = none ∨ middleware = some s.limiters.length)
      (hguard : guard = none ∨ guard = some s.limiters.length) :
      Underway config { whole s script c config with middleware, guard }

end

section

variable {s : Deployment α} {script : ClientScript α} {c : Settings α} {a b : Assembly α}

theorem run_cons (step : Step) (steps : List Step) :
    a.run script (step :: steps) = (a.step script step).bind (run script steps) := rfl

/-- As long as settings are not validated, a step validates them or leaves all as it is. -/
theorem Pending.step (h : Pending s c a) (script : ClientScript α) (step : Step) :
    (∃ b, a.step script step = .ok b ∧ Pending s c b) ∨
      a.step script step =
        c.validate.map fun _ => { deployment := s, supply := .registered c } := by
  obtain ⟨supply, hsupply⟩ := h
  have hstays : ∃ b, Except.ok (ε := SettingsFault α)
      ({ deployment := s, supply := supply } : Assembly α) = .ok b ∧ Pending s c b :=
    ⟨_, rfl, .intro supply hsupply⟩
  cases hsupply with
  | lacking p =>
    cases step with
    | inject => exact .inl ⟨_, rfl, .intro _ (.unasked p)⟩
    | _ => exact .inl hstays
  | unasked p =>
    cases step with
    | ask =>
      cases p with
      | now settings => exact .inl ⟨_, rfl, .intro _ (.received settings)⟩
      | later settings => exact .inl ⟨_, rfl, .intro _ (.promised settings)⟩
    | _ => exact .inl hstays
  | promised =>
    cases step with
    | fulfil => exact .inl ⟨_, rfl, .intro _ (.received c)⟩
    | _ => exact .inl hstays
  | received =>
    cases step with
    | check => exact .inr rfl
    | _ => exact .inl hstays

/-- With settings that are accepted every step succeeds. -/
theorem Underway.step {config : Config α} (hconfig : c.resolve = .ok config)
    (h : Underway s script c config a) (step : Step) :
    ∃ b, a.step script step = .ok b ∧ Underway s script c config b := by
  have hvalid : c.validate = .ok () :=
    (Settings.validate_eq_ok_iff_exists_resolve c).mpr ⟨config, hconfig⟩
  have hlimiters := (s.equipped_addChosen script config.storeChoice).2
  cases h with
  | pending h =>
    rcases h.step script step with ⟨b, hb, hpending⟩ | hchecked
    · exact ⟨b, hb, .pending hpending⟩
    · rw [hvalid] at hchecked
      exact ⟨_, hchecked, .registered⟩
  | registered =>
    cases step with
    | store =>
      refine ⟨_, ?_, .stored⟩
      simp only [Assembly.step, Settings.storeChoice, hconfig]
      rfl
    | _ => exact ⟨_, rfl, .registered⟩
  | stored =>
    cases step with
    | limiter =>
      refine ⟨_, ?_, .limited none none (.inl rfl) (.inl rfl)⟩
      simp only [Assembly.step, Deployment.addLimiter, hconfig, hlimiters]
      rfl
    | _ => exact ⟨_, rfl, .stored⟩
  | limited middleware guard hmiddleware hguard =>
    cases step with
    | middleware =>
      cases middleware with
      | none => exact ⟨_, rfl, .limited _ guard (.inr rfl) hguard⟩
      | some l => exact ⟨_, rfl, .limited _ guard hmiddleware hguard⟩
    | guard =>
      cases guard with
      | none => exact ⟨_, rfl, .limited middleware _ hmiddleware (.inr rfl)⟩
      | some l => exact ⟨_, rfl, .limited middleware _ hmiddleware hguard⟩
    | _ => exact ⟨_, rfl, .limited middleware guard hmiddleware hguard⟩

/-- Settings that are refused fail the step that validates them, and no other fails. -/
theorem Pending.run {fault : SettingsFault α} (hrefused : c.validate = .error fault)
    (h : Pending s c a) (script : ClientScript α) (steps : List Step) :
    (∃ b, a.run script steps = .ok b ∧ Pending s c b) ∨ a.run script steps = .error fault := by
  induction steps generalizing a with
  | nil => exact .inl ⟨a, rfl, h⟩
  | cons step steps ih =>
    rw [run_cons]
    rcases h.step script step with ⟨b, hb, hpending⟩ | hchecked
    · rw [hb]
      exact ih hpending
    · rw [hchecked, hrefused]
      exact .inr rfl

theorem Underway.run {config : Config α} (hconfig : c.resolve = .ok config)
    (h : Underway s script c config a) (steps : List Step) :
    ∃ b, a.run script steps = .ok b ∧ Underway s script c config b := by
  induction steps generalizing a with
  | nil => exact ⟨a, rfl, h⟩
  | cons step steps ih =>
    obtain ⟨b, hb, hunderway⟩ := h.step hconfig step
    rw [run_cons, hb]
    exact ih hunderway

/-- What is received in the end is validated in the end, wherever it is on its way. -/
theorem Pending.run_inOrder (h : Pending s c a) :
    a.run script Step.inOrder = (c.validate.map fun _ =>
      ({ deployment := s, supply := .registered c } : Assembly α)).bind
        (Assembly.run script [.store, .limiter, .middleware, .guard]) := by
  obtain ⟨supply, hsupply⟩ := h
  cases hsupply with
  | lacking p | unasked p => cases p <;> rfl
  | promised | received => rfl

/-- In order, everything is built. -/
theorem Underway.run_inOrder {config : Config α} (hconfig : c.resolve = .ok config)
    (h : Underway s script c config a) :
    a.run script Step.inOrder = .ok (whole s script c config) := by
  have hvalid : c.validate = .ok () :=
    (Settings.validate_eq_ok_iff_exists_resolve c).mpr ⟨config, hconfig⟩
  have hlimiters := (s.equipped_addChosen script config.storeChoice).2
  have hstored : ({ deployment := s.addChosen script config.storeChoice
                    supply := .registered c
                    store := some s.stores.length } : Assembly α).run script
      [.limiter, .middleware, .guard] = .ok (whole s script c config) := by
    simp only [run_cons, Assembly.step, Deployment.addLimiter, hconfig, hlimiters]
    rfl
  have hregistered : ({ deployment := s, supply := .registered c } : Assembly α).run script
      [.store, .limiter, .middleware, .guard] = .ok (whole s script c config) := by
    rw [run_cons]
    simp only [Assembly.step, Settings.storeChoice, hconfig]
    exact hstored
  cases h with
  | pending h =>
    rw [h.run_inOrder, hvalid]
    exact hregistered
  | registered => exact hregistered
  | stored => exact hstored
  | limited middleware guard hmiddleware hguard =>
    rcases hmiddleware with rfl | rfl <;> rcases hguard with rfl | rfl <;> rfl

theorem Underway.eq_whole {config : Config α} (h : Underway s script c config a)
    (hcomplete : a.Complete) : a = whole s script c config := by
  obtain ⟨hstore, hlimiter, hmiddleware, hguard⟩ := hcomplete
  cases h with
  | pending h =>
    cases h
    cases hstore
  | registered => cases hstore
  | stored => cases hlimiter
  | limited middleware guard hm hg =>
    rcases hm with rfl | rfl
    · cases hmiddleware
    · rcases hg with rfl | rfl
      · cases hguard
      · rfl

omit [Scalar α] in
theorem Pending.untouched (h : Pending s c a) : a.Untouched s := by
  cases h
  exact ⟨rfl, rfl, rfl, rfl, rfl⟩

end

end Assembly

/-! Registering -/

namespace Registration

variable {r : Registration (Settings α)} {s : Deployment α} {script : ClientScript α}
  {c : Settings α} {a : Assembly α}

/-- A registration either waits for its source, or has validated its settings. -/
theorem register_cases (h : r.Offers c) (s : Deployment α) :
    (∃ a, r.register s = .ok a ∧ Assembly.Pending s c a) ∨
      r.register s = match c.validate with
        | .ok () => .ok { deployment := s, supply := .registered c }
        | .error refusal => .error (.settings refusal) := by
  cases h with
  | direct => exact .inr rfl
  | factory p | ownClass p | existing p => exact .inl ⟨_, rfl, .intro _ (.lacking p)⟩

theorem register_direct (hvalid : c.validate = .ok ()) (s : Deployment α) :
    (direct c).register s = .ok { deployment := s, supply := .registered c } := by
  simp only [register, hvalid]

theorem assemble_eq_ok {begun : Assembly α} (hbegun : r.register s = .ok begun)
    (ha : begun.run script Step.inOrder = .ok a) : r.assemble s script = .ok a := by
  simp only [assemble, hbegun, bind, Except.bind, ha]
  rfl

theorem Reaches.pending {refusal : SettingsFault α} (h : r.Reaches s script a) (hr : r.Offers c)
    (hrefused : c.validate = .error refusal) : Assembly.Pending s c a := by
  obtain ⟨begun, steps, hbegun, hrun⟩ := h
  rcases register_cases hr s with ⟨a₀, ha₀, hpending⟩ | hregister
  · obtain rfl : a₀ = begun := Except.ok.inj (ha₀.symm.trans hbegun)
    rcases hpending.run hrefused script steps with ⟨b, hb, hb'⟩ | hfailed
    · obtain rfl : b = a := Except.ok.inj (hb.symm.trans hrun)
      exact hb'
    · cases hfailed.symm.trans hrun
  · rw [hrefused] at hregister
    cases hregister.symm.trans hbegun

theorem exists_underway (hr : r.Offers c) {config : Config α} (hconfig : c.resolve = .ok config)
    (s : Deployment α) (script : ClientScript α) :
    ∃ begun, r.register s = .ok begun ∧ Assembly.Underway s script c config begun := by
  rcases register_cases hr s with ⟨a, ha, hpending⟩ | hregister
  · exact ⟨a, ha, .pending hpending⟩
  · rw [(Settings.validate_eq_ok_iff_exists_resolve c).mpr ⟨config, hconfig⟩] at hregister
    exact ⟨_, hregister, .registered⟩

theorem Reaches.underway {config : Config α} (h : r.Reaches s script a) (hr : r.Offers c)
    (hconfig : c.resolve = .ok config) : Assembly.Underway s script c config a := by
  obtain ⟨begun, steps, hbegun, hrun⟩ := h
  obtain ⟨a₀, ha₀, hunderway⟩ := exists_underway hr hconfig s script
  obtain rfl : a₀ = begun := Except.ok.inj (ha₀.symm.trans hbegun)
  obtain ⟨b, hb, hb'⟩ := hunderway.run hconfig steps
  obtain rfl : b = a := Except.ok.inj (hb.symm.trans hrun)
  exact hb'

/-- Settings that are refused can fail a registration only as they are. -/
theorem Fails.eq_of_refused {fault : RegistrationFault α} {refusal : SettingsFault α}
    (h : r.Fails s script fault) (hr : r.Offers c) (hrefused : c.validate = .error refusal) :
    fault = .settings refusal := by
  rcases h with hfailed | ⟨begun, steps, refusal', hbegun, hfailed, rfl⟩
  · rcases register_cases hr s with ⟨a, ha, -⟩ | hregister
    · cases ha.symm.trans hfailed
    · rw [hrefused] at hregister
      exact Except.error.inj (hfailed.symm.trans hregister)
  · have hreaches : r.Reaches s script begun := ⟨begun, [], hbegun, rfl⟩
    rcases (hreaches.pending hr hrefused).run hrefused script steps with ⟨b, hb, -⟩ | hrun
    · cases hb.symm.trans hfailed
    · rw [Except.error.inj (hfailed.symm.trans hrun)]

/-- If they do not fail the registration, they fail the application. -/
theorem fails_of_refused {refusal : SettingsFault α} (hr : r.Offers c)
    (hrefused : c.validate = .error refusal) (s : Deployment α) (script : ClientScript α) :
    r.Fails s script (.settings refusal) := by
  rcases register_cases hr s with ⟨a, ha, hpending⟩ | hregister
  · refine .inr ⟨a, Step.inOrder, refusal, ha, ?_, rfl⟩
    rw [hpending.run_inOrder, hrefused]
    rfl
  · rw [hrefused] at hregister
    exact .inl hregister

theorem not_fails {config : Config α} (hr : r.Offers c) (hconfig : c.resolve = .ok config)
    (s : Deployment α) (script : ClientScript α) (fault : RegistrationFault α) :
    ¬r.Fails s script fault := by
  obtain ⟨begun, hbegun, hunderway⟩ := exists_underway hr hconfig s script
  rintro (hfailed | ⟨begun', steps, refusal, hbegun', hfailed, -⟩)
  · cases hbegun.symm.trans hfailed
  · obtain rfl : begun = begun' := Except.ok.inj (hbegun.symm.trans hbegun')
    obtain ⟨b, hb, -⟩ := hunderway.run hconfig steps
    cases hb.symm.trans hfailed

/-- What a registration comes to that offers settings. -/
structure Laws (r : Registration (Settings α)) (c : Settings α) (s : Deployment α)
    (script : ClientScript α) : Prop where
  /-- It fails exactly if the settings are refused, and as they are. -/
  fails_iff : ∀ fault, r.Fails s script fault ↔
    ∃ refusal, c.validate = .error refusal ∧ fault = .settings refusal
  /-- Nothing is built from settings that are refused. -/
  untouched : ∀ a refusal, r.Reaches s script a → c.validate = .error refusal → a.Untouched s
  /-- However far the application has come, it fails in the end if the settings are refused. -/
  stops : ∀ a refusal, r.Reaches s script a → c.validate = .error refusal →
    a.run script Step.inOrder = .error refusal
  /-- However far the application has come, everything is built in the end if they are not. -/
  completes : ∀ a, r.Reaches s script a → c.validate = .ok () →
    ∃ b, a.run script Step.inOrder = .ok b ∧ b.Complete

theorem laws (hr : r.Offers c) (s : Deployment α) (script : ClientScript α) :
    r.Laws c s script where
  fails_iff fault := by
    constructor
    · intro hfails
      cases hvalidate : c.validate with
      | error refusal => exact ⟨refusal, rfl, hfails.eq_of_refused hr hvalidate⟩
      | ok =>
        obtain ⟨config, hconfig⟩ := (Settings.validate_eq_ok_iff_exists_resolve c).mp hvalidate
        exact absurd hfails (not_fails hr hconfig s script fault)
    · rintro ⟨refusal, hrefused, rfl⟩
      exact fails_of_refused hr hrefused s script
  untouched a refusal hreaches hrefused := (hreaches.pending hr hrefused).untouched
  stops a refusal hreaches hrefused := by
    rw [(hreaches.pending hr hrefused).run_inOrder, hrefused]
    rfl
  completes a hreaches hvalid := by
    obtain ⟨config, hconfig⟩ := (Settings.validate_eq_ok_iff_exists_resolve c).mp hvalid
    exact ⟨_, (hreaches.underway hr hconfig).run_inOrder hconfig, rfl, rfl, rfl, rfl⟩

end Registration

/-! What goes on with a limiter that is registered -/

/-- A call is made on a limiter. -/
def Start.IsOn {α : Type} (l : LimiterId) : Start α → Prop
  | .allow k .. | .decide k .. | .pass k _ | .enter k _ | .bootLimiter k | .closeLimiter k
  | .shutDown k => k = l
  | _ => False

omit [Scalar α] in
theorem StoreChoice.Equips.eq_redis {choice : StoreChoice α} {remote : RedisStore α}
    (h : choice.Equips (.redis remote)) : ∃ o, choice = .redis o := by
  cases h with
  | redis o => exact ⟨o, rfl⟩

/-- Nobody waits for a store to be connected. -/
def Store.IsUnlinked {α : Type} : Store α → Prop
  | .redis remote => remote.attempt = none
  | _ => True

namespace Deployment

/-- No move adds a store or takes one away. -/
theorem Moves.stores_length_eq {p : Scope α} {s s' : Deployment α} (h : Moves p s s') :
    s'.stores.length = s.stores.length := by
  induction h with
  | refl => rfl
  | @tail s' m _ _ ih =>
    refine Eq.trans ?_ ih
    cases m with
    | fill | join | unlink =>
      simp only [Move.apply]
      split <;> simp [Deployment.setStore]
    | consume | setInterval =>
      simp only [Move.apply]
      split <;> rfl
    | _ => rfl

theorem stores_length_addChosen (s : Deployment α) (script : ClientScript α)
    (choice : StoreChoice α) :
    (s.addChosen script choice).stores.length = s.stores.length + 1 := by
  cases choice with
  | prebuilt store => cases store <;> exact List.length_append
  | memory o => exact List.length_append
  | redis o =>
    simp only [Deployment.addChosen, addRedis]
    split <;> exact List.length_append

omit [Scalar α] in
/-- A call on a limiter is on its store. -/
theorem storeOf?_eq {s : Deployment α} {l : LimiterId} {call : Start α} (h : call.IsOn l) :
    s.storeOf? call = s.limiters[l]?.map Limiter.store := by
  cases call with
  | ask | bootStore | closeStore => exact h.elim
  | _ =>
    obtain rfl := h
    rfl

variable [Textual α] {s : Deployment α}

theorem stores_length_after (hs : s.Prompt) (events : List (Event α)) :
    (s.after events).stores.length = s.stores.length := by
  induction events generalizing s with
  | nil => rfl
  | cons ev events ih =>
    have htaken : (s.taken ev).stores = s.stores := by cases ev <;> rfl
    exact (ih (hs.happen ev)).trans ((happen_moves hs ev).stores_length_eq.trans (by rw [htaken]))

omit [Scalar α] [Textual α] in
theorem attempt?_addStore {store : Store α} (hnone : ∀ i, s.attempt? i = none)
    (hstore : store.IsUnlinked) (i : StoreId) : (s.addStore store).attempt? i = none := by
  unfold attempt?
  cases hfound : (s.addStore store).remote? i with
  | none => rfl
  | some remote =>
    have hremote := remote?_eq_some_iff.mp hfound
    rw [addStore] at hremote
    by_cases hi : i < s.stores.length
    · rw [List.getElem?_append_left hi] at hremote
      have hsame := hnone i
      rwa [attempt?, remote?_eq_some_iff.mpr hremote] at hsame
    · rw [List.getElem?_append_right (Nat.le_of_not_lt hi)] at hremote
      rw [← List.mem_singleton.mp (List.mem_of_getElem? hremote)] at hstore
      exact hstore

omit [Scalar α] [Textual α] in
theorem Fresh.addStore (h : s.Fresh) {store : Store α} (hstore : store.IsUnlinked) :
    (s.addStore store).Fresh :=
  ⟨h.timers, h.agenda, h.tasks, h.listeners, h.attached, h.settled,
    attempt?_addStore h.attempt hstore⟩

omit [Textual α] in
/-- A store that has just been built has done nothing yet. -/
theorem Fresh.addChosen (h : s.Fresh) (script : ClientScript α) (choice : StoreChoice α) :
    (s.addChosen script choice).Fresh ∧ (s.addChosen script choice).intervals = s.intervals ∧
      (s.addChosen script choice).tasks = s.tasks := by
  cases choice with
  | prebuilt store =>
    cases store with
    | memory o => exact ⟨h.addStore trivial, rfl, rfl⟩
    | scripted script => exact ⟨h.addStore trivial, rfl, rfl⟩
  | memory o => exact ⟨h.addStore trivial, rfl, rfl⟩
  | redis o =>
    have hclient : ∀ clients calls, ({ s with clients, calls } : Deployment α).Fresh := fun _ _ =>
      ⟨h.timers, h.agenda, h.tasks, h.listeners, h.attached, h.settled, h.attempt⟩
    simp only [Deployment.addChosen, addRedis]
    split
    · exact ⟨(hclient _ _).addStore rfl, rfl, rfl⟩
    · exact ⟨h.addStore rfl, rfl, rfl⟩

end Deployment

namespace Assembly

variable [Textual α] {s : Deployment α} {script : ClientScript α} {c : Settings α}
  {config : Config α} {a : Assembly α}

/-- What holds of an application in which all is built that a registration offers. -/
structure Works (a : Assembly α) (c : Settings α) (s : Deployment α) (script : ClientScript α)
    (config : Config α) : Prop where
  /-- The middleware and the guard work with the limiter. -/
  wired : a.store = some s.stores.length ∧ a.limiter = some s.limiters.length ∧
    a.middleware = some s.limiters.length ∧ a.guard = some s.limiters.length
  /-- It is as if the limiter had been built alone, and its store with it. -/
  alone : s.buildLimiter script c none true = .ok a.deployment
  /-- There is one store, the one that was chosen, and every call on the limiter is on it. -/
  shares : ∀ events, let d := a.deployment.after events
    d.stores.length = s.stores.length + 1 ∧ d.Equipped s.stores.length config.storeChoice ∧
      (∀ call, call.IsOn s.limiters.length → d.storeOf? call = some s.stores.length) ∧
      ∀ now, d.sweep s.limiters.length now = d.sweepStore s.stores.length now
  /-- The limiter is made ready when its store is, and fails with what its store fails with. -/
  starts : ∀ events, (∀ ev ∈ events, ev.Serves) → ∀ settlement,
    settlement ∈ ((a.deployment.after (.start (.bootLimiter s.limiters.length) :: events)).share
        s.tasks.length).settled ↔
      ∃ outcome, a.deployment.StartupEnds s.limiters.length s.stores.length events outcome ∧
        settlement = Deployment.bootEnd outcome
  /-- Outside Redis, only a store of the application's own fails, as its script says. -/
  starts_locally : (∀ o, config.storeChoice ≠ .redis o) →
    ∀ events, (∀ ev ∈ events, ev.Serves) → ∀ fault,
      a.deployment.StartupEnds s.limiters.length s.stores.length events (.error fault) →
        ∃ script reply, config.store = some (.on (.scripted script)) ∧
          script.start = some reply ∧ reply.outcome? = some (.error fault)

omit [Textual α] in
theorem fresh_installed (hfresh : s.Fresh) (script : ClientScript α) (config : Config α) :
    (installed s script config).Fresh := by
  obtain ⟨hchosen, -, -⟩ := hfresh.addChosen script config.storeChoice
  exact ⟨hchosen.timers, hchosen.agenda, hchosen.tasks, hchosen.listeners, hchosen.attached,
    hchosen.settled, hchosen.attempt⟩

omit [Scalar α] [Textual α] in
/-- Outside Redis, only a store of the application's own fails to be made ready. -/
theorem exists_script_of_startupOf? {choice : StoreChoice α} (hfollows : choice.Follows config)
    {store : Store α} (hequips : choice.Equips store) {fault : Fault α}
    (hends : store.startupOf? = some (.error fault)) :
    ∃ script reply, config.store = some (.on (.scripted script)) ∧ script.start = some reply ∧
      reply.outcome? = some (.error fault) := by
  cases hequips with
  | held o store h => cases hends
  | memory o store h => cases hends
  | redis o store h => cases hends
  | scripted script allow sweep =>
    cases hfollows with
    | prebuilt _ hstore =>
      refine ⟨script, ?_⟩
      obtain ⟨backend, allow', start, close, sweep'⟩ := script
      cases start with
      | none => cases hends
      | some reply => exact ⟨reply, hstore, rfl, hends⟩

/-- A limiter that has just been built is down, and so are those that are there before it. -/
theorem lives_installed (hfresh : s.Fresh) (hnames : s.intervals = [])
    (hidle : ∀ limiter ∈ s.limiters, limiter.interval = none) (script : ClientScript α)
    (config : Config α) : (installed s script config).Lives fun _ => .down := by
  have hinstalled := fresh_installed hfresh script config
  obtain ⟨-, hintervals, -⟩ := hfresh.addChosen script config.storeChoice
  refine hinstalled.lives (hintervals.trans hnames) fun limiter hmem => ?_
  rcases List.mem_append.mp hmem with hold | hnew
  · exact hidle limiter hold
  · rw [List.mem_singleton.mp hnew]

theorem works_whole (hfresh : s.Fresh) (hnames : s.intervals = [])
    (hidle : ∀ limiter ∈ s.limiters, limiter.interval = none) (script : ClientScript α)
    (hconfig : c.resolve = .ok config) :
    (whole s script c config).Works c s script config := by
  have hprompt := (fresh_installed hfresh script config).prompt
  have hlives := lives_installed hfresh hnames hidle script config
  have hequipped : (installed s script config).Equipped s.stores.length config.storeChoice :=
    (s.equipped_addChosen script config.storeChoice).1
  have hlimiter : (installed s script config).limiters[s.limiters.length]? =
      some ⟨config, s.stores.length, true, none⟩ := List.getElem?_concat_length
  have hnew : (installed s script config).tasks.length = s.tasks.length :=
    congrArg List.length (hfresh.addChosen script config.storeChoice).2.2
  refine ⟨⟨rfl, rfl, rfl, rfl⟩, s.buildLimiter_eq_ok script hconfig true, fun events => ?_,
    fun events hserves settlement => ?_, fun hlocal events hserves fault hends => ?_⟩
  · obtain ⟨hkept, hsame⟩ := hprompt.kept_after (l := s.limiters.length)
      (f := Limiter.store) (fun _ _ => rfl) hequipped events
    rw [hlimiter] at hsame
    obtain ⟨limiter, hfound, hstore⟩ := Option.map_eq_some_iff.mp hsame
    dsimp only [whole]
    refine ⟨?_, hkept, fun call hcall => ?_, fun now => ?_⟩
    · rw [Deployment.stores_length_after hprompt events]
      exact s.stores_length_addChosen script config.storeChoice
    · rw [Deployment.storeOf?_eq hcall]
      exact hsame
    · simp only [Deployment.sweep, hfound, hstore]
  · rw [← hnew]
    exact hlives.settled_bootLimiter_iff rfl hlimiter hserves settlement
  · obtain ⟨store, hstore, hequips⟩ := hequipped
    refine exists_script_of_startupOf? config.follows_storeChoice hequips ?_
    refine hlives.startupOf?_eq rfl hlimiter hstore ?_ hserves hends
    rintro remote rfl
    obtain ⟨o, hchoice⟩ := hequips.eq_redis
    exact hlocal o hchoice

end Assembly

section

variable [Textual α]

/-- All ways to register the same settings agree. Each fails exactly if the settings are refused,
with the same fault and before anything is built. Otherwise each leads to one and the same whole,
however the application gets there, and so to the same decisions whatever the store holds. -/
theorem registrations_agree {s : Deployment α} (hfresh : s.Fresh) (hnames : s.intervals = [])
    (hidle : ∀ limiter ∈ s.limiters, limiter.interval = none) (script : ClientScript α)
    (c : Settings α) :
    (∀ r : Registration (Settings α), r.Offers c → r.Laws c s script) ∧
      ∀ (r r' : Registration (Settings α)) (a a' : Assembly α), r.Offers c → r'.Offers c →
        r.Reaches s script a → r'.Reaches s script a' → a.Complete → a'.Complete →
        (∃ config, c.resolve = .ok config ∧ a.Works c s script config) ∧ a = a' ∧
          ∀ held keyspace events,
            ({ a.deployment.setStore s.stores.length held with keyspace } : Deployment α).after
                events =
              ({ a'.deployment.setStore s.stores.length held with keyspace } : Deployment α).after
                events := by
  refine ⟨fun r hr => Registration.laws hr s script, ?_⟩
  intro r r' a a' hr hr' ha ha' hcomplete hcomplete'
  cases hvalidate : c.validate with
  | error refusal =>
    have hnone := (ha.pending hr hvalidate).untouched.store
    have hsome := hcomplete.1
    rw [hnone] at hsome
    cases hsome
  | ok =>
    obtain ⟨config, hconfig⟩ := (Settings.validate_eq_ok_iff_exists_resolve c).mp hvalidate
    obtain rfl := (ha.underway hr hconfig).eq_whole hcomplete
    obtain rfl := (ha'.underway hr' hconfig).eq_whole hcomplete'
    exact ⟨⟨config, hconfig, Assembly.works_whole hfresh hnames hidle script hconfig⟩, rfl,
      fun _ _ _ => rfl⟩

end

/-- Settings that are handed over, and the same settings promised by the first of two sources, lead
to one whole; settings that are refused fail their registration, whoever provides them. -/
theorem registrations_agree_promised :
    let c : Settings ℚ := { rate := some (.number (5 / 2)), capacity := some (.number 4) }
    let refused : Settings ℚ := { c with rate := none }
    let direct : Registration (Settings ℚ) := .direct c
    let promised : Registration (Settings ℚ) :=
      .deferred { factory := some (.later c), existing := some (.now refused) }
    let s : Deployment ℚ := .empty 0 {}
    s.Fresh ∧ s.intervals = [] ∧
      (∃ a, direct.assemble s {} = .ok a ∧ promised.assemble s {} = .ok a ∧
        ∀ events request, (a.deployment.after events).storeOf? (.pass 0 request) = some 0 ∧
          (a.deployment.after events).storeOf? (.enter 0 request) = some 0) ∧
      (Registration.deferred { ownClass := some (.now refused) }).Fails s {}
        (.settings (.rate none)) := by
  intro c refused direct promised s
  have hfresh : s.Fresh := ⟨rfl, rfl, rfl, rfl, rfl, rfl, fun i => rfl⟩
  have hidle : ∀ limiter ∈ s.limiters, limiter.interval = none := List.forall_mem_nil _
  have haccept : c.accept = .ok ⟨⟨5 / 2, 4⟩, none, none, none, none, none⟩ :=
    (Settings.accept_eq_ok_iff _ _).mpr ⟨Settings.numberWhere_number (by decide +kernel),
      Settings.numberWhere_number (by decide +kernel), rfl, rfl, rfl, rfl, rfl, rfl⟩
  have hvalid : c.validate = .ok () := by rw [Settings.validate, haccept]; rfl
  have hrefused : refused.validate = .error (.rate none) := rfl
  obtain ⟨hlaws, hagree⟩ := registrations_agree hfresh rfl hidle {} c
  have hdirect := Registration.register_direct hvalid s
  have hpromised : promised.register s =
      .ok { deployment := s, supply := .lacking (.later c) } := rfl
  have hoffers : promised.Offers c := .factory (.later c) none _
  obtain ⟨a, ha, hcomplete⟩ := (hlaws direct (.direct c)).completes _ ⟨_, [], hdirect, rfl⟩ hvalid
  obtain ⟨a', ha', hcomplete'⟩ :=
    (hlaws promised hoffers).completes _ ⟨_, [], hpromised, rfl⟩ hvalid
  obtain ⟨⟨config, -, hworks⟩, rfl, -⟩ := hagree direct promised a a' (.direct c) hoffers
    ⟨_, _, hdirect, ha⟩ ⟨_, _, hpromised, ha'⟩ hcomplete hcomplete'
  refine ⟨hfresh, rfl, ⟨a, Registration.assemble_eq_ok hdirect ha,
    Registration.assemble_eq_ok hpromised ha', fun events request => ?_⟩, ?_⟩
  · obtain ⟨-, -, hon, -⟩ := hworks.shares events
    exact ⟨hon (.pass 0 request) rfl, hon (.enter 0 request) rfl⟩
  · obtain ⟨hrefusing, -⟩ := registrations_agree hfresh rfl hidle {} refused
    exact ((hrefusing _ (.ownClass (.now refused) none)).fails_iff _).mpr ⟨_, hrefused, rfl⟩

/-- Settings that are accepted, and an application that does not come up with them: the store that
they bring along refuses to be made ready. -/
theorem accepted_not_started :
    let script : StoreScript ℚ :=
      { backend := .memory, start := some (.settles none (.error (.general "boot failed")) none) }
    let c : Settings ℚ :=
      { rate := some (.number 1)
        capacity := some (.number 1)
        store := some (.on (.scripted script)) }
    c.validate = .ok () ∧ ∃ a, (Registration.direct c).assemble (.empty 0 {}) {} = .ok a ∧
      (a.deployment.perform (.start [.bootLimiter 0])).settled =
        [(0, .failed (.general "boot failed"))] := by
  intro script c
  let accepted : Accepted ℚ := ⟨⟨1, 1⟩, none, none, none, none, none⟩
  have haccept : c.accept = .ok accepted :=
    (Settings.accept_eq_ok_iff _ _).mpr ⟨Settings.numberWhere_number (by decide +kernel),
      Settings.numberWhere_number (by decide +kernel), rfl, rfl, rfl, rfl, rfl, rfl⟩
  have hvalid : c.validate = .ok () := by rw [Settings.validate, haccept]; rfl
  have hconfig : c.resolve = .ok (c.complete accepted) :=
    (Settings.resolve_eq_ok_iff c _).mpr ⟨_, haccept, rfl⟩
  have hbegun : Assembly.Underway (.empty 0 {}) {} c (c.complete accepted) _ := .registered
  have hrun := hbegun.run_inOrder hconfig
  exact ⟨hvalid, _, Registration.assemble_eq_ok (Registration.register_direct hvalid _) hrun, rfl⟩

end Admission
