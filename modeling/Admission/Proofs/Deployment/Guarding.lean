import Admission.Proofs.Deployment.Likeness
import Admission.Proofs.Deployment.Passing
import Mathlib.Data.List.Forall2

/-!
Guards in the place of the middleware.

A guard puts the same question to a limiter as the middleware does, under the same key and at the
same time. Whichever of the requests in a course meet a guard instead, every store comes to hold the
same and every request is decided alike, as long as none of them goes away early. A guard opens its
route where the middleware hands the request on, and fails where the middleware refuses it, with the
answer that the middleware writes.
-/
namespace Admission

variable {α : Type}

/-- What a guard makes of a ruling. -/
def Settlement.ofRuling : Except (Fault α) Decision → Settlement α
  | .ok .allow => .admitted
  | .ok .deny => .failed .limitExceeded
  | .error fault => .failed fault

/-- The request of a call, and the limiter that it meets. -/
def Start.request? : Start α → Option (LimiterId × Option (Request α))
  | .pass l request | .enter l request => some (l, request)
  | _ => none

/-- What a limiter may come to: a decision, or a fault other than that of a refused request. -/
def IsRuling (ruling : Except (Fault α) Decision) : Prop :=
  ∀ fault, ruling = .error fault → fault.refusal? = none

theorem IsRuling.eq_of_ofRuling_eq {ruling ruling' : Except (Fault α) Decision}
    (h : IsRuling ruling) (h' : IsRuling ruling')
    (hsame : Settlement.ofRuling ruling' = Settlement.ofRuling ruling) : ruling' = ruling := by
  obtain fault | _ | _ := ruling <;> obtain fault' | _ | _ := ruling' <;> cases hsame <;>
    first | rfl | exact nomatch h _ rfl | exact nomatch h' _ rfl

/-- Rulings that callers are told alike are the same. -/
theorem eq_of_told_eq {ruling? ruling?' : Option (Except (Fault α) Decision)}
    (h : ∀ ruling ∈ ruling?, IsRuling ruling) (h' : ∀ ruling ∈ ruling?', IsRuling ruling)
    (htold : ((ruling?'.map Settlement.ofRuling).toList : Multiset (Settlement α)) =
      (ruling?.map Settlement.ofRuling).toList) : ruling?' = ruling? := by
  cases ruling? with
  | none =>
    cases ruling?' with
    | none => rfl
    | some ruling' => simp at htold
  | some ruling =>
    cases ruling?' with
    | none => simp at htold
    | some ruling' =>
      have hsame : Settlement.ofRuling ruling' = Settlement.ofRuling ruling := by simpa using htold
      exact congrArg some ((h ruling rfl).eq_of_ofRuling_eq (h' ruling' rfl) hsame)

namespace Deployment

/-- The same happens, or a request meets a guard in the place of the middleware. -/
inductive Swaps : Event α → Event α → Prop
  | same (ev : Event α) : Swaps ev ev
  | guarded (l : LimiterId) (request : Option (Request α)) :
      Swaps (.start (.pass l request)) (.start (.enter l request))

variable [Scalar α] [Textual α]

/-- Requests are spared throughout a course. -/
def Undisturbed (s : Deployment α) : List (Event α) → Prop
  | [] => True
  | ev :: events => s.Spares ev ∧ (s.happen ev).Undisturbed events

theorem undisturbed_append {s : Deployment α} {before later : List (Event α)} :
    s.Undisturbed (before ++ later) ↔
      s.Undisturbed before ∧ (s.after before).Undisturbed later := by
  induction before generalizing s with
  | nil => simp [Undisturbed]
  | cons ev before ih => simp [Undisturbed, ih, and_assoc]

namespace Alike

variable {s s' : Deployment α} {ev ev' : Event α} {events events' : List (Event α)}

theorem swap (h : Alike s s') (hswaps : Swaps ev ev') (hspares : s.Spares ev)
    (hspares' : s'.Spares ev') : Alike (s.happen ev) (s'.happen ev') := by
  cases hswaps with
  | same => exact h.happen hspares hspares'
  | guarded l request => exact h.start_enter l request

theorem after (h : Alike s s') (hswaps : List.Forall₂ Swaps events events')
    (hspares : s.Undisturbed events) (hspares' : s'.Undisturbed events') :
    Alike (s.after events) (s'.after events') := by
  induction hswaps generalizing s s' with
  | nil => exact h
  | cons hswap _ ih => exact ih (h.swap hswap hspares.1 hspares'.1) hspares.2 hspares'.2

end Alike

/-! How a request is answered -/

/-- What has come of a request that meets a limiter: nothing yet, or what the middleware or a guard
makes of a ruling. -/
inductive Meets (s s' : Deployment α) : Start α → Option (Except (Fault α) Decision) → Prop
  | pending {call : Start α} (hpends : s.Pends s') : Meets s s' call none
  | passed {l : LimiterId} {request : Option (Request α)} {ruling : Except (Fault α) Decision}
      (hfares : s.Fares ruling s') : Meets s s' (.pass l request) (some ruling)
  | entered {l : LimiterId} {request : Option (Request α)} {ruling : Except (Fault α) Decision}
      (hsettled : (s'.share s.tasks.length).settled = [.ofRuling ruling])
      (hexchanges : s.exchangesSince s' s.tasks.length = []) :
      Meets s s' (.enter l request) (some ruling)

/-- A guard answers a request as the middleware does. -/
structure AnswersAs (exchanges : List Exchange) (settled settled' : List (Settlement α)) :
    Prop where
  /-- A guard opens its route exactly where the middleware hands the request on. -/
  opens : settled' = [.admitted] ↔ exchanges = [.handedOn]
  /-- A guard refuses a request exactly where the middleware does, with the same answer. -/
  refuses : ∀ answer, (∃ fault, settled' = [.failed fault] ∧ fault.refusal? = some answer) ↔
    exchanges = [.refused answer]
  /-- Any other failure is a failure in both. -/
  fails : ∀ fault, fault.refusal? = none →
    (settled' = [.failed fault] ↔ settled = [.failed fault])
  pends : settled' = [] ↔ settled = []

section

variable {s s' : Deployment α} {l : LimiterId} {limiter : Limiter α} {request : Option (Request α)}

/-- What a caller has been told follows from the ruling on the request. -/
theorem Meets.told_eq (hs : s.Reachable) {call : Start α}
    {ruling? : Option (Except (Fault α) Decision)} (h : s.Meets s' call ruling?)
    (hexchanges : ∃ more, s'.exchanges = s.exchanges ++ more) :
    s'.told s.tasks.length = s.told s.tasks.length +
      ((ruling?.map Settlement.ofRuling).toList : List (Settlement α)) := by
  obtain ⟨more, hmore⟩ := hexchanges
  have hnone : (s.share s.tasks.length).settled = [] := by rw [hs.share_eq (Nat.le_refl _)]
  have hnew : (more.filter (·.1 == s.tasks.length)).map (fun entry => entry.2.answer) =
      (s.exchangesSince s' s.tasks.length).map (Exchange.answer (α := α)) := by
    rw [exchangesSince_eq hmore, List.map_map]
    rfl
  have htold : s'.told s.tasks.length = s.told s.tasks.length +
      (((s.exchangesSince s' s.tasks.length).map Exchange.answer ++
        (s'.share s.tasks.length).settled.filter fun settlement => !settlement.isDone :
          List (Settlement α)) : Multiset (Settlement α)) := by
    rw [told, told, hmore, List.filter_append, List.map_append, hnone, hnew, ← Multiset.coe_add,
      ← Multiset.coe_add, List.filter_nil, Multiset.coe_nil, add_zero, add_assoc]
  rw [htold]
  cases h with
  | pending hpends =>
    rw [hpends.settled, hpends.exchanges]
    rfl
  | @passed l request ruling hfares =>
    obtain fault | _ | _ := ruling <;> rw [hfares.1, hfares.2] <;> rfl
  | @entered l request ruling hsettled hexchanges =>
    rw [hsettled, hexchanges]
    obtain fault | _ | _ := ruling <;> rfl

omit [Scalar α] [Textual α] in
/-- Where a request is decided alike, a guard answers as the middleware does. -/
theorem Meets.answersAs {u u' : Deployment α} (hlength : u.tasks.length = s.tasks.length)
    {ruling? : Option (Except (Fault α) Decision)} (hruling : ∀ ruling ∈ ruling?, IsRuling ruling)
    (h : s.Meets s' (.pass l request) ruling?) (h' : u.Meets u' (.enter l request) ruling?) :
    AnswersAs (s.exchangesSince s' s.tasks.length) (s'.share s.tasks.length).settled
      (u'.share s.tasks.length).settled := by
  cases h with
  | pending hpends =>
    cases h' with
    | pending hpends' =>
      rw [← hlength, hpends'.settled, hlength, hpends.settled, hpends.exchanges]
      constructor <;> simp
  | @passed _ _ ruling hfares =>
    cases h' with
    | entered hsettled' _ =>
      rw [← hlength, hsettled', hlength]
      obtain fault | _ | _ := ruling
      · obtain ⟨hsettled, hexchanges⟩ := hfares
        have hother : fault.refusal? = none := hruling _ rfl fault rfl
        rw [hsettled, hexchanges]
        constructor <;> simp [Settlement.ofRuling, hother]
      · obtain ⟨hsettled, hexchanges⟩ := hfares
        rw [hsettled, hexchanges]
        constructor <;> simp [Settlement.ofRuling, Decision.exchange]
      · obtain ⟨hsettled, hexchanges⟩ := hfares
        rw [hsettled, hexchanges]
        constructor <;> simp [Settlement.ofRuling, Decision.exchange, Fault.refusal?, refusal]
        rintro _ hother rfl
        cases hother

/-- What a guard makes of the verdict that its check ends with. -/
theorem EndsWith.entered (hlimiter : s.limiters[l]? = some limiter) {c : Check α}
    (horigin : c.origin = .guard l) {verdict : Except (Fault α) Bool}
    (h : s.EndsWith c verdict s') :
    s.Meets s' (.enter l request) (some (limiter.config.ruling c.bucket verdict)) := by
  obtain ⟨hsettled, hexchanges⟩ := h
  simp only [settlementOf, exchangeOf, horigin, rulingOf_eq hlimiter] at hsettled hexchanges
  generalize limiter.config.ruling c.bucket verdict = ruling at *
  obtain fault | _ | _ := ruling <;> exact .entered hsettled hexchanges

theorem isRuling_ruling (config : Config α) (key : Key) (verdict : Except (Fault α) Bool) :
    IsRuling (config.ruling key verdict) := by
  intro fault hfault
  obtain ⟨rfl, -⟩ := Config.ruling_eq_error_iff.mp hfault
  rfl

omit [Scalar α] [Textual α] in
theorem isRuling_ofKeyFault (e : KeyFault) : IsRuling (α := α) (.error (.ofKeyFault e)) := by
  rintro fault ⟨⟩
  cases e <;> rfl

/-- The middleware and a guard start a request in the same way. Only the middleware tells the check
of its end. -/
theorem exists_start_eq (hlimiter : s.limiters[l]? = some limiter) {call : Start α}
    (hcall : call.request? = some (l, request)) :
    ∃ attached origin signal,
      s.start call =
        ({ s with attached } : Deployment α).startRequest limiter origin request signal .failed ∧
      (call = .pass l request ∧ origin = .middleware l ∨
        call = .enter l request ∧ origin = .guard l) := by
  cases call with
  | pass l request =>
    cases hcall
    exact ⟨_, _, _, start_pass_eq_startRequest hlimiter request, Or.inl ⟨rfl, rfl⟩⟩
  | enter l request =>
    cases hcall
    refine ⟨s.attached, .guard l, none, ?_, Or.inr ⟨rfl, rfl⟩⟩
    simp only [start, onLimiter, hlimiter]
  | _ => cases hcall

/-- Whatever comes of a request that meets a limiter comes of a ruling. -/
theorem exists_meets (hs : s.Reachable) (hlimiter : s.limiters[l]? = some limiter) {call : Start α}
    (hcall : call.request? = some (l, request)) (events : List (Event α)) :
    ∃ ruling?, s.Meets (s.after (.start call :: events)) call ruling? ∧
      ∀ ruling ∈ ruling?, IsRuling ruling := by
  obtain ⟨attached, origin, signal, hstart, hmet⟩ := exists_start_eq hlimiter hcall
  cases hkey : limiter.config.keyRule.key request with
  | error e =>
    obtain ⟨hfirst, hparted⟩ := start_unkeyed hs attached hstart hkey
    have hfares := fares_unkeyed hs hfirst hparted events
    refine ⟨some (.error (.ofKeyFault e)), ?_, ?_⟩
    · obtain ⟨rfl, -⟩ | ⟨rfl, -⟩ := hmet
      · exact .passed hfares
      · exact .entered hfares.1 hfares.2
    · rintro ruling ⟨⟩
      exact isRuling_ofKeyFault e
  | ok key =>
    let c : Check α := ⟨origin, key,
      .ofValue (limiter.config.keyRule.maker request s.tasks.length) key, s.timeOr none, signal⟩
    have hcheck : s.start call =
        ({ s with attached } : Deployment α).startCheck limiter.store c := by
      rw [hstart]
      simp only [startRequest, hkey]
      rfl
    obtain ⟨verdict?, hanswers⟩ := s.exists_answers call limiter.store c events
    obtain ⟨hpends, -⟩ | ⟨verdict, -, hended, -⟩ := (hanswers.concludes hs attached hcheck).ended
    · exact ⟨none, .pending hpends, by simp⟩
    · refine ⟨some (limiter.config.ruling c.bucket verdict), ?_, ?_⟩
      · obtain ⟨rfl, horigin⟩ | ⟨rfl, horigin⟩ := hmet
        · exact .passed (hended.fares hlimiter horigin)
        · exact hended.entered hlimiter horigin
      · rintro ruling ⟨⟩
        exact isRuling_ruling _ _ _

end

omit [Scalar α] [Textual α] in
theorem Swaps.request?_eq {call call' : Start α} (h : Swaps (.start call) (.start call')) :
    call'.request? = call.request? := by
  cases h <;> rfl

omit [Scalar α] [Textual α] in
/-- A course up to one of its calls, and the rest of it. -/
theorem eq_take_append_of_getElem? {events : List (Event α)} {n : Nat} {call : Start α}
    (hcall : events[n]? = some (.start call)) :
    events = events.take n ++ .start call :: events.drop (n + 1) := by
  obtain ⟨hn, hcall⟩ := List.getElem?_eq_some_iff.mp hcall
  rw [← hcall, List.getElem_cons_drop, List.take_append_drop]

/-- Whichever requests of a course meet a guard in the place of the middleware, stores come to hold
the same, every request is decided alike, and a guard answers as the middleware does. -/
theorem guards_keep_same_policy {s : Deployment α} (hs : s.Reachable)
    (hunborn : ∀ t, s.tasks.length ≤ t → s.isAborted (some (.request t)) = false)
    {events events' : List (Event α)} (hswaps : List.Forall₂ Swaps events events')
    (hspares : s.Undisturbed events) (hspares' : s.Undisturbed events') :
    let last := s.after events
    let last' := s.after events'
    (last'.stores = last.stores ∧ last'.keyspace = last.keyspace ∧ last'.clients = last.clients) ∧
    ∀ n call call' l request config, events[n]? = some (.start call) →
      events'[n]? = some (.start call') → call.request? = some (l, request) →
      s.config? l = some config →
      let first := s.after (events.take n)
      let first' := s.after (events'.take n)
      (∃ ruling?, first.Meets last call ruling? ∧ first'.Meets last' call' ruling?) ∧
      (call = .pass l request → call' = .enter l request →
        AnswersAs (first.exchangesSince last first.tasks.length)
          (last.share first.tasks.length).settled (last'.share first.tasks.length).settled) := by
  intro last last'
  have hself : Alike s s := .refl hunborn
  have hlast : Alike last last' := hself.after hswaps hspares hspares'
  refine ⟨⟨hlast.stores, hlast.keyspace, hlast.clients⟩, ?_⟩
  intro n call call' l request config hcall hcall' hrequest hconfig first first'
  have hevents := eq_take_append_of_getElem? hcall
  have hevents' := eq_take_append_of_getElem? hcall'
  have hfirst : Alike first first' := by
    rw [hevents] at hspares
    rw [hevents'] at hspares'
    exact hself.after (List.forall₂_take n hswaps) (undisturbed_append.mp hspares).1
      (undisturbed_append.mp hspares').1
  have hsplit : first.after (.start call :: events.drop (n + 1)) = last := by
    rw [← after_append, ← hevents]
  have hsplit' : first'.after (.start call' :: events'.drop (n + 1)) = last' := by
    rw [← after_append, ← hevents']
  have hrequest' : call'.request? = some (l, request) := by
    obtain ⟨hn, hget⟩ := List.getElem?_eq_some_iff.mp hcall
    obtain ⟨hn', hget'⟩ := List.getElem?_eq_some_iff.mp hcall'
    have hswap : Swaps events[n] events'[n] := hswaps.get hn hn'
    rw [hget, hget'] at hswap
    rw [hswap.request?_eq, hrequest]
  have hreached : first.Reachable := hs.after (events.take n)
  have hreached' : first'.Reachable := hs.after (events'.take n)
  obtain ⟨limiter, hlimiter, -⟩ :=
    Option.map_eq_some_iff.mp ((config?_after hs.prompt (events.take n) l).trans hconfig)
  have hlimiter' : first'.limiters[l]? = some limiter := by rw [hfirst.limiters, hlimiter]
  obtain ⟨ruling?, hmeets, hruling⟩ := exists_meets hreached hlimiter hrequest (events.drop (n + 1))
  obtain ⟨ruling?', hmeets', hruling'⟩ :=
    exists_meets hreached' hlimiter' hrequest' (events'.drop (n + 1))
  have htold := hmeets.told_eq hreached (exists_exchanges_after hreached.prompt _)
  have htold' := hmeets'.told_eq hreached' (exists_exchanges_after hreached'.prompt _)
  rw [hsplit] at hmeets htold
  rw [hsplit'] at hmeets' htold'
  obtain rfl : ruling?' = ruling? := by
    rw [hfirst.length_eq, hfirst.told, hlast.told, htold] at htold'
    exact eq_of_told_eq hruling hruling' (add_left_cancel htold').symm
  refine ⟨⟨ruling?', hmeets, hmeets'⟩, ?_⟩
  rintro rfl rfl
  exact hmeets.answersAs hfirst.length_eq hruling hmeets'

/-- A limiter on a store in memory that holds one token for every key. -/
def turnstile : Deployment ℚ where
  clock := 1000
  stores := [.memory (.empty ⟨⟨.ofNumber 1, .ofNumber 1⟩, .ofNumber 60000, none⟩)]
  limiters := [⟨strict, 0, false, none⟩]

/-- Two requests arrive in one instant where one may pass. The second is refused by the middleware,
and by a guard in its place, with the same answer. -/
theorem guards_keep_same_policy_refused :
    let first : List (Event ℚ) := [.start (.pass 0 (some {})), .work 0]
    let last := turnstile.after (first ++ [.start (.pass 0 (some {})), .work 0])
    let last' := turnstile.after (first ++ [.start (.enter 0 (some {})), .work 0])
    turnstile.Reachable ∧ last'.stores = last.stores ∧
      (∃ ruling?, (turnstile.after first).Meets last (.pass 0 (some {})) ruling? ∧
        (turnstile.after first).Meets last' (.enter 0 (some {})) ruling?) ∧
      (turnstile.after first).exchangesSince last 1 = [.refused refusal] ∧
      ∃ fault, (last'.share 1).settled = [.failed fault] ∧ fault.refusal? = some refusal := by
  intro first last last'
  have hs : turnstile.Reachable := by
    refine Fresh.reachable ⟨rfl, rfl, rfl, rfl, rfl, rfl, fun i => ?_⟩
    cases i <;> rfl
  have hswaps : List.Forall₂ Swaps (first ++ [.start (.pass 0 (some {})), .work 0])
      (first ++ [.start (.enter 0 (some {})), .work 0]) :=
    .cons (.same _) (.cons (.same _) (.cons (.guarded 0 _) (.cons (.same _) .nil)))
  obtain ⟨⟨hstores, -, -⟩, hdecided⟩ := guards_keep_same_policy hs (fun t _ => rfl) hswaps
    ⟨rfl, trivial, rfl, trivial, trivial⟩ ⟨rfl, trivial, rfl, trivial, trivial⟩
  obtain ⟨hmeets, hanswers⟩ := hdecided 2 _ _ 0 (some {}) strict rfl rfl rfl rfl
  have hfirst : (turnstile.after first).tasks.length = 1 := by decide +kernel
  have hrefused : (turnstile.after first).exchangesSince last 1 = [.refused refusal] := by
    decide +kernel
  have hanswered : AnswersAs
      ((turnstile.after first).exchangesSince last (turnstile.after first).tasks.length)
      (last.share (turnstile.after first).tasks.length).settled
      (last'.share (turnstile.after first).tasks.length).settled := hanswers rfl rfl
  rw [hfirst] at hanswered
  exact ⟨hs, hstores, hmeets, hrefused, (hanswered.refuses refusal).mpr hrefused⟩

end Deployment

end Admission
