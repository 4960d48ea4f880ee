import Admission.Proofs.Deployment.Journey
import Admission.Proofs.Deployment.Lifecycle

/-!
How the startup of a limiter ends.

A limiter makes its store ready and has nothing else to fail for: it comes up when its store is
ready, and fails with whatever its store fails with. A store in memory is always ready. A store of
the application's own does as its script says.
-/
namespace Admission

/-- The fault with which a store fails at once when it is made ready. -/
def Store.thrownAtStart? {α : Type} : Store α → Option (Fault α)
  | .scripted ⟨_, _, some (.throws fault), _, _⟩ => some fault
  | _ => none

/-- What the startup of a store comes to that is not in Redis: nothing, if its script never
answers. -/
def Store.startupOf? {α : Type} : Store α → Option (Outcome α)
  | .memory _ => some (.ok none)
  | .scripted script => (script.start.getD (.value .null)).outcome?
  | .redis _ => none

namespace Deployment

/-- An event neither starts a limiter nor shuts one down. -/
def Event.Serves {α : Type} : Event α → Prop
  | .start (.bootLimiter _) | .start (.closeLimiter _) | .start (.shutDown _) => False
  | _ => True

variable {α : Type} [Scalar α] [Textual α]

section

variable {s : Deployment α} {lives : LimiterId → Life} {events : List (Event α)} {t : TaskId}
  {l : LimiterId}

theorem purpose_after_eq (hs : s.Prompt) (hlt : t < s.tasks.length) (events : List (Event α)) :
    (s.after events).tasks[t]?.map Task.purpose = s.tasks[t]?.map Task.purpose := by
  induction events generalizing s with
  | nil => rfl
  | cons ev events ih =>
    exact (ih (hs.happen ev) (Nat.lt_of_lt_of_le hlt (tasks_length_happen hs ev))).trans
      (purpose_happen_eq hs hlt)

theorem alternates_of_serves (s : Deployment α) (lives : LimiterId → Life)
    (hserves : ∀ ev ∈ events, ev.Serves) : s.Alternates lives events := by
  induction events generalizing s lives with
  | nil => trivial
  | cons ev events ih =>
    refine ⟨?_, ih _ _ fun ev hev => hserves ev (List.mem_cons_of_mem _ hev)⟩
    have hev := hserves ev List.mem_cons_self
    unfold Event.Serves at hev
    split at hev
    · exact hev.elim
    · exact hev.elim
    · exact hev.elim
    · next hboot hclose hshut =>
      unfold Allows
      split
      · next k => exact absurd rfl (hboot k)
      · next k => exact absurd rfl (hclose k)
      · next k => exact absurd rfl (hshut k)
      · trivial

/-- The startup of a limiter ends as the startup of its store does, and when it does. -/
theorem Lives.settled_boot_iff (h : s.Lives lives) (hserves : ∀ ev ∈ events, ev.Serves)
    (hpursues : s.Pursues t (.boot (some l))) (settlement : Settlement α) :
    settlement ∈ ((s.after events).share t).settled ↔ ∃ before ev later outcome,
      events = before ++ ev :: later ∧ (s.after before).Readies ev t outcome ∧
      settlement = bootEnd outcome := by
  constructor
  · intro hsettled
    induction events generalizing s lives with
    | nil =>
      rw [after_nil, hpursues.2] at hsettled
      cases hsettled
    | cons ev events ih =>
      have hrest : ∀ ev ∈ events, ev.Serves := fun ev hev =>
        hserves ev (List.mem_cons_of_mem _ hev)
      by_cases hready : ∃ outcome, s.Readies ev t outcome
      · obtain ⟨outcome, hready⟩ := hready
        refine ⟨[], ev, events, outcome, rfl, hready, ?_⟩
        have hended := h.settled_of_readies hready hpursues
        rw [after_cons, (h.reachable.happen ev).settled_after (hended ▸ List.mem_singleton_self _)]
          at hsettled
        exact List.mem_singleton.mp hsettled
      · have hallows := (alternates_of_serves s lives hserves).1
        have hstill : (s.happen ev).Pursues t (.boot (some l)) :=
          ⟨(purpose_happen_eq h.reachable.prompt hpursues.lt).trans hpursues.1,
            (boot_settled_eq h.reachable.prompt hpursues.1 fun outcome hready' =>
              hready ⟨outcome, hready'⟩).trans hpursues.2⟩
        obtain ⟨before, ev', later, outcome, rfl, hends⟩ :=
          ih (h.happen hallows) hrest hstill hsettled
        exact ⟨ev :: before, ev', later, outcome, rfl, hends⟩
  · rintro ⟨before, ev, later, outcome, rfl, hready, rfl⟩
    have hbefore : ∀ ev ∈ before, ev.Serves := fun ev hev =>
      hserves ev (List.mem_append_left _ hev)
    have hlives := h.after (alternates_of_serves _ _ hbefore)
    have hpurpose := (purpose_after_eq h.reachable.prompt hpursues.lt before).trans hpursues.1
    have hended := hlives.settled_of_readies hready (hlives.pursues_of_readies hready hpurpose)
    rw [after_append, after_cons, (hlives.reachable.happen ev).settled_after
      (hended ▸ List.mem_singleton_self _)]
    exact List.mem_singleton_self _

/-- Making a store ready ends its task at once only if the store throws. -/
theorem settled_boot_eq (s : Deployment α) (t : TaskId) (i : StoreId)
    (failed : Fault α → Settlement α) :
    (s.boot t i failed).settled =
      s.settled ++ ((s.stores[i]?.bind Store.thrownAtStart?).map fun fault =>
        (t, failed fault)).toList := by
  unfold boot
  split
  · next store hstore => simp [hstore, Store.thrownAtStart?, post]
  · next store hstore =>
    have hmoves : Moves .unending s (s.bootRedis t i store) :=
      (Moves.refl s).bootRedis hstore trivial trivial (fun _ _ => trivial) (fun _ _ => trivial)
        fun _ _ _ => ⟨trivial, fun _ _ => trivial⟩
    rw [hmoves.settled_eq fun _ _ => id]
    simp [hstore, Store.thrownAtStart?]
  · next script hstore =>
    have harranged : ∀ reply : Reply α,
        ((s.record .storeStart).arrange reply 0 0 (.started t)).settled = s.settled := by
      intro reply
      have hmoves : Moves .unending (s.record .storeStart)
          ((s.record .storeStart).arrange reply 0 0 (.started t)) :=
        (Moves.refl _).arrange reply (Nat.zero_le _) (Nat.zero_le _) fun _ => trivial
      exact hmoves.settled_eq fun _ _ => id
    obtain ⟨backend, allow, start, close, sweep⟩ := script
    rw [hstore]
    cases start with
    | none => exact (harranged _).trans (List.append_nil _).symm
    | some reply =>
      cases reply with
      | throws fault => rfl
      | _ => exact (harranged _).trans (List.append_nil _).symm
  · next hstore => simp [hstore]

/-- A task that has ended hears no more from its store. -/
theorem Reachable.settled_eq_nil_of_readies (hs : s.Reachable) {before : List (Event α)}
    {ev : Event α} {outcome : Outcome α} (hready : (s.after before).Readies ev t outcome) :
    (s.share t).settled = [] := by
  obtain ⟨n, -, hentry⟩ := hready
  refine List.eq_nil_iff_forall_not_mem.mpr fun settlement hmem => ?_
  have hnone := (hs.after before).settled_eq_nil hentry (beq_self_eq_true t)
  rw [hs.settled_after hmem before] at hnone
  cases hnone

/-- What the startup of a store comes to for a limiter that is started: it fails at once, or tells
the limiter in what follows. -/
inductive StartupEnds (s : Deployment α) (l : LimiterId) (i : StoreId) (events : List (Event α)) :
    Outcome α → Prop
  | thrown {store : Store α} {fault : Fault α} (hstore : s.stores[i]? = some store)
      (hthrown : store.thrownAtStart? = some fault) : StartupEnds s l i events (.error fault)
  | told (before : List (Event α)) (ev : Event α) (later : List (Event α)) {outcome : Outcome α}
      (hevents : events = before ++ ev :: later)
      (hready : (s.after (.start (.bootLimiter l) :: before)).Readies ev s.tasks.length outcome) :
      StartupEnds s l i events outcome

section

variable {limiter : Limiter α}

/-- A limiter that is started fails at once with what its store throws, or waits for its store. -/
theorem Lives.begins (h : s.Lives lives) (hlimiter : s.limiters[l]? = some limiter) :
    match s.stores[limiter.store]?.bind Store.thrownAtStart? with
    | some fault => ((s.start (.bootLimiter l)).share s.tasks.length).settled = [.failed fault]
    | none => (s.start (.bootLimiter l)).Pursues s.tasks.length (.boot (some l)) := by
  have hnone : (s.share s.tasks.length).settled = [] := by
    rw [h.reachable.share_eq (Nat.le_refl _)]
  have hsettled : (s.start (.bootLimiter l)).settled =
      s.settled ++ ((s.stores[limiter.store]?.bind Store.thrownAtStart?).map fun fault =>
        (s.tasks.length, Settlement.failed fault)).toList := by
    simp only [start, onLimiter, hlimiter]
    exact settled_boot_eq (s.newTask limiter.store (.boot (some l))).2 _ _ _
  cases hthrown : s.stores[limiter.store]?.bind Store.thrownAtStart? with
  | some fault =>
    rw [hthrown] at hsettled
    dsimp only
    rw [share_settled_concat hsettled, if_pos rfl, hnone, List.nil_append]
  | none =>
    rw [hthrown, Option.map_none, Option.toList_none, List.append_nil] at hsettled
    exact (start_bootLimiter h.reachable l).1
      ((settled_share_congr (s := s) hsettled _).trans hnone)

/-- A limiter that is started comes up if the startup of its store ends well, and fails with what
its store fails with. -/
theorem Lives.settled_bootLimiter_iff (h : s.Lives lives) (hdown : lives l = .down)
    (hlimiter : s.limiters[l]? = some limiter) (hserves : ∀ ev ∈ events, ev.Serves)
    (settlement : Settlement α) :
    settlement ∈ ((s.after (.start (.bootLimiter l) :: events)).share s.tasks.length).settled ↔
      ∃ outcome, s.StartupEnds l limiter.store events outcome ∧ settlement = bootEnd outcome := by
  have hlives : (s.happen (.start (.bootLimiter l))).Lives _ := h.happen hdown
  have hbegins := h.begins hlimiter
  rw [after_cons]
  cases hthrown : s.stores[limiter.store]?.bind Store.thrownAtStart? with
  | some fault =>
    obtain ⟨store, hstore, hfault⟩ := Option.bind_eq_some_iff.mp hthrown
    rw [hthrown] at hbegins
    have hended := hlives.reachable.settled_after
      (hbegins.symm ▸ List.mem_singleton_self (Settlement.failed fault)) events
    rw [hended, List.mem_singleton]
    constructor
    · rintro rfl
      exact ⟨.error fault, .thrown hstore hfault, rfl⟩
    · rintro ⟨outcome, hends, rfl⟩
      cases hends with
      | thrown hstore' hfault' =>
        cases hstore.symm.trans hstore'
        cases hfault.symm.trans hfault'
        rfl
      | told before ev later hevents hready =>
        cases hbegins.symm.trans (hlives.reachable.settled_eq_nil_of_readies hready)
  | none =>
    rw [hthrown] at hbegins
    rw [hlives.settled_boot_iff hserves hbegins]
    constructor
    · rintro ⟨before, ev, later, outcome, hevents, hready, rfl⟩
      exact ⟨outcome, .told before ev later hevents hready, rfl⟩
    · rintro ⟨outcome, hends, rfl⟩
      cases hends with
      | thrown hstore hfault =>
        rw [hstore] at hthrown
        cases hthrown.symm.trans hfault
      | told before ev later hevents hready =>
        exact ⟨before, ev, later, outcome, hevents, hready, rfl⟩

end

/-! Stores that are not in Redis -/

/-- All that is left of a startup is to be told what the startup of its store came to, if anything
tells. -/
inductive Told (t : TaskId) (outcome? : Option (Outcome α)) : Share α → Prop
  | ready {outcome : Outcome α} (h : outcome? = some outcome) :
      Told t outcome? { ready := {.started t outcome} }
  | awaited {outcome : Outcome α} (h : outcome? = some outcome) :
      Told t outcome? { awaited := {.started t outcome} }
  | never : Told t outcome? {}

variable {outcome? : Option (Outcome α)}

omit [Scalar α] [Textual α] in
theorem Told.eq_of_ready {share : Share α} (h : Told t outcome? share) {job : Job α}
    (hjob : job ∈ share.ready) : ∃ outcome, outcome? = some outcome ∧ job = .started t outcome ∧
      share = { ready := {.started t outcome} } := by
  cases h with
  | ready h => exact ⟨_, h, Multiset.mem_singleton.mp hjob, rfl⟩
  | awaited | never => exact absurd hjob (Multiset.notMem_zero job)

omit [Scalar α] [Textual α] in
theorem Told.eq_of_awaited {share : Share α} (h : Told t outcome? share) {job : Job α}
    (hjob : job ∈ share.awaited) : ∃ outcome, outcome? = some outcome ∧ job = .started t outcome ∧
      share = { awaited := {.started t outcome} } := by
  cases h with
  | awaited h => exact ⟨_, h, Multiset.mem_singleton.mp hjob, rfl⟩
  | ready | never => exact absurd hjob (Multiset.notMem_zero job)

omit [Scalar α] [Textual α] in
theorem Told.rest {share : Share α} (h : Told t outcome? share) : share.deadlines = [] ∧
    share.listeners = [] ∧ share.settled = [] ∧ ∀ i, share.queued i = 0 := by
  cases h <;> exact ⟨rfl, rfl, rfl, fun _ => rfl⟩

omit [Scalar α] [Textual α] in
theorem Told.post {outcome : Outcome α} (hs : s.share t = {}) (turns : Nat)
    (houtcome : outcome? = some outcome) :
    Told t outcome? ((s.post turns (.started t outcome)).share t) := by
  rw [share_post_own rfl, hs]
  exact .ready houtcome

/-- A startup that is yet to be told goes on to be told, and stays so until the limiter hears. -/
theorem Told.happen (hs : s.Prompt) (hlt : t < s.tasks.length) (h : Told t outcome? (s.share t))
    (ev : Event α) :
    Told t outcome? ((s.happen ev).share t) ∨ ∃ outcome, s.Readies ev t outcome := by
  by_cases hconcerns : s.Concerns t ev
  · cases ev with
    | start call => exact absurd hconcerns (Nat.ne_of_gt hlt)
    | work n =>
      obtain ⟨turns, job, hentry, hown | ⟨i, -, hqueued⟩⟩ := hconcerns
      · obtain ⟨outcome, houtcome, rfl, hshare⟩ := h.eq_of_ready (mem_ready_share hentry hown)
        cases turns with
        | zero => exact .inr ⟨outcome, n, rfl, hentry⟩
        | succ turns =>
          refine .inl ?_
          have htaken : (s.taken (.work n)).share t = {} :=
            Share.eq_of_cons_ready ((share_taken_work_own hentry hown).symm.trans hshare)
          simp only [Deployment.happen, hentry]
          exact Told.post (s := s.taken (.work n)) htaken turns houtcome
      · rw [h.rest.2.2.2 i] at hqueued
        exact absurd hqueued (Nat.lt_irrefl 0)
    | alarm n =>
      obtain ⟨timer, htimer, hdeadline | ⟨job, hreply, hown⟩⟩ := hconcerns
      · have hmem := mem_deadlines_share htimer hdeadline
        rw [h.rest.1] at hmem
        cases hmem
      · obtain ⟨outcome, houtcome, rfl, hshare⟩ :=
          h.eq_of_awaited (mem_awaited_share htimer hreply hown)
        refine .inl ?_
        have htaken : (s.taken (.alarm n)).share t = {} :=
          Share.eq_of_cons_awaited ((share_taken_reply htimer hreply hown).symm.trans hshare)
        obtain ⟨due, alarm⟩ := timer
        cases alarm with
        | reply turns job =>
          cases hreply
          simp only [Deployment.happen, htimer]
          exact Told.post (s := s.taken (.alarm n)) htaken turns houtcome
        | _ => cases hreply
    | abort signal =>
      rw [Concerns, h.rest.2.1] at hconcerns
      cases hconcerns
    | hangUp u =>
      rw [Concerns, h.rest.2.1] at hconcerns
      cases hconcerns
    | _ => exact hconcerns.elim
  · exact .inl ((share_happen hs hconcerns).symm ▸ h)

/-- A limiter hears from its store what the startup of the store came to. -/
theorem Lives.eq_of_told (h : s.Lives lives) (hpursues : s.Pursues t (.boot (some l)))
    (htold : Told t outcome? (s.share t)) {before : List (Event α)}
    (hserves : ∀ ev ∈ before, ev.Serves) {ev : Event α} {outcome : Outcome α}
    (hready : (s.after before).Readies ev t outcome) : outcome? = some outcome := by
  induction before generalizing s lives with
  | nil =>
    obtain ⟨n, -, hentry⟩ := hready
    obtain ⟨other, hother, hjob, -⟩ := htold.eq_of_ready (mem_ready_share hentry rfl)
    cases hjob
    exact hother
  | cons first before ih =>
    have hallows := (alternates_of_serves s lives hserves).1
    have hlives := h.happen hallows
    rcases htold.happen h.reachable.prompt hpursues.lt first with hstill | ⟨other, hheard⟩
    · have hpurpose : (s.happen first).tasks[t]?.map Task.purpose = some (.boot (some l)) :=
        (purpose_happen_eq h.reachable.prompt hpursues.lt).trans hpursues.1
      exact ih hlives ⟨hpurpose, hstill.rest.2.2.1⟩ hstill
        (fun ev hev => hserves ev (List.mem_cons_of_mem _ hev)) hready
    · have hended := h.settled_of_readies hheard hpursues
      cases hended.symm.trans (hlives.reachable.settled_eq_nil_of_readies hready)

/-- A startup that is dispatched to a store that is not in Redis waits to be told what its reply
says. -/
theorem told_boot {i : StoreId} {store : Store α} (hs : s.share t = {})
    (hstore : s.stores[i]? = some store) (hlocal : ∀ remote, store ≠ .redis remote)
    (hthrown : store.thrownAtStart? = none) (failed : Fault α → Settlement α) :
    Told t store.startupOf? ((s.boot t i failed).share t) := by
  unfold boot
  rw [hstore]
  cases store with
  | memory store => exact Told.post hs 0 rfl
  | redis store => exact absurd rfl (hlocal store)
  | scripted script =>
    obtain ⟨backend, allow, start, close, sweep⟩ := script
    have hrecorded : (s.record .storeStart).share t = {} := hs
    cases start with
    | none => exact Told.post hrecorded 0 rfl
    | some reply =>
      cases reply with
      | throws fault => cases hthrown
      | never => exact hrecorded ▸ .never
      | settles delay? outcome status =>
        cases delay? with
        | none => exact Told.post hrecorded 0 rfl
        | some delay =>
          show Told t _
            (((s.record .storeStart).setTimer delay (.reply 0 (.started t outcome))).share t)
          rw [share_setTimer_own rfl, hrecorded]
          exact .awaited rfl

/-- The startup of a store that is not in Redis comes to what the store itself makes of it. -/
theorem Lives.startupOf?_eq (h : s.Lives lives) (hdown : lives l = .down) {limiter : Limiter α}
    (hlimiter : s.limiters[l]? = some limiter) {store : Store α}
    (hstore : s.stores[limiter.store]? = some store) (hlocal : ∀ remote, store ≠ .redis remote)
    (hserves : ∀ ev ∈ events, ev.Serves) {outcome : Outcome α}
    (hends : s.StartupEnds l limiter.store events outcome) : store.startupOf? = some outcome := by
  cases hends with
  | @thrown found fault hfound hthrown =>
    obtain rfl : store = found := Option.some.inj (hstore.symm.trans hfound)
    unfold Store.thrownAtStart? at hthrown
    split at hthrown
    · cases hthrown
      rfl
    · cases hthrown
  | told before ev later hevents hready =>
    subst hevents
    have hlives : (s.happen (.start (.bootLimiter l))).Lives _ := h.happen hdown
    have hbegins := h.begins hlimiter
    rw [hstore, Option.bind_some] at hbegins
    cases hthrown : store.thrownAtStart? with
    | some fault =>
      rw [hthrown] at hbegins
      cases hbegins.symm.trans (hlives.reachable.settled_eq_nil_of_readies hready)
    | none =>
      rw [hthrown] at hbegins
      have htold : Told s.tasks.length store.startupOf?
          ((s.start (.bootLimiter l)).share s.tasks.length) := by
        simp only [start, onLimiter, hlimiter]
        exact told_boot (s := (s.newTask limiter.store (.boot (some l))).2)
          (h.reachable.share_eq (Nat.le_refl _)) hstore hlocal hthrown _
      exact hlives.eq_of_told hbegins htold
        (fun ev hev => hserves ev (List.mem_append_left _ hev)) hready

end

end Deployment

end Admission
