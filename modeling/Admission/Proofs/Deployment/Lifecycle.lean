import Admission.Proofs.Number.Exact
import Admission.Proofs.Deployment.Once
import Admission.Proofs.Deployment.Registry

/-!
When a limiter is swept for.

A limiter comes up when its startup ends well, and goes down when it is told to shut down, whether
or not its store then closes. As long as it goes up and down by turns, it owns a regular sweep
exactly while it is up, no matter how its startups fall between those of others that share the
registry.
-/
namespace Admission

/-- Where a limiter stands between its startups and its shutdowns. -/
inductive Life where
  | down
  /-- Its startup is a task that has not ended. -/
  | starting (t : TaskId)
  | up
deriving DecidableEq

namespace Deployment

variable {α : Type}

/-- A task has a purpose, and has not ended. -/
def Pursues (s : Deployment α) (t : TaskId) (purpose : Purpose α) : Prop :=
  s.tasks[t]?.map Task.purpose = some purpose ∧ (s.share t).settled = []

/-- A limiter whose startup has ended is up, or down again if it failed. -/
def settleLife (s : Deployment α) : Life → Life
  | .starting t =>
    match (s.share t).settled with
    | [] => .starting t
    | .done :: _ => .up
    | _ => .down
  | life => life

/-- Where the limiters stand as soon as an event begins. A shutdown counts from then on. -/
def toldLives (s : Deployment α) (lives : LimiterId → Life) : Event α → LimiterId → Life
  | .start (.bootLimiter l) => Function.update lives l (.starting s.tasks.length)
  | .start (.closeLimiter l) => Function.update lives l .down
  | _ => lives

/-- A limiter is started only while it is down, and not told to shut down while it is starting. No
application shuts down. -/
def Allows (lives : LimiterId → Life) : Event α → Prop
  | .start (.bootLimiter l) => lives l = .down
  | .start (.closeLimiter l) => ∀ t, lives l ≠ .starting t
  | .start (.shutDown _) => False
  | _ => True

/-- A store whose startup is a task is ready, or refuses to start. -/
def Readies (s : Deployment α) (ev : Event α) (t : TaskId) (outcome : Outcome α) : Prop :=
  ∃ n, ev = .work n ∧ s.agenda[n]? = some (0, .started t outcome)

/-- How the startup of a limiter ends when its store is ready or refuses to start. -/
def bootEnd : Outcome α → Settlement α
  | .ok _ => .done
  | .error fault => .failed fault

section

variable [Scalar α] [Textual α]

/-- Where the limiters stand after an event. -/
def nextLives (s : Deployment α) (lives : LimiterId → Life) (ev : Event α) : LimiterId → Life :=
  fun l => (s.happen ev).settleLife (s.toldLives lives ev l)

/-- Where the limiters stand after some events. -/
def livesAfter (s : Deployment α) (lives : LimiterId → Life) :
    List (Event α) → LimiterId → Life
  | [] => lives
  | ev :: events => livesAfter (s.happen ev) (s.nextLives lives ev) events

/-- Every limiter is started and shut down by turns in a course. -/
def Alternates (s : Deployment α) (lives : LimiterId → Life) : List (Event α) → Prop
  | [] => True
  | ev :: events =>
    Allows lives ev ∧ Alternates (s.happen ev) (s.nextLives lives ev) events

end

section

variable {s s' : Deployment α} {t : TaskId} {l : LimiterId} {life : Life} {ev : Event α}
  {purpose : Purpose α}

theorem settleLife_eq_starting_iff :
    s.settleLife life = .starting t ↔ life = .starting t ∧ (s.share t).settled = [] := by
  cases life with
  | starting u =>
    cases hsettled : (s.share u).settled with
    | nil =>
      simp only [settleLife, hsettled, Life.starting.injEq]
      constructor
      · rintro rfl
        exact ⟨rfl, hsettled⟩
      · exact And.left
    | cons settlement rest =>
      constructor
      · intro h
        simp only [settleLife, hsettled] at h
        split at h
        · contradiction
        · cases h
        · cases h
      · rintro ⟨⟨⟩, hnone⟩
        rw [hnone] at hsettled
        cases hsettled
  | _ => simp [settleLife]

theorem settleLife_eq_up_iff :
    s.settleLife life = .up ↔
      life = .up ∨ ∃ t rest, life = .starting t ∧ (s.share t).settled = .done :: rest := by
  cases life with
  | starting u =>
    simp only [settleLife, reduceCtorEq, false_or, Life.starting.injEq]
    split
    · next hsettled => simp [hsettled]
    · next rest hsettled => simp [hsettled]
    · next hdone =>
      simp only [reduceCtorEq, false_iff]
      rintro ⟨t, rest, rfl, hsettled⟩
      exact hdone rest hsettled
  | _ => simp [settleLife]

theorem toldLives_eq_starting_iff {lives : LimiterId → Life} (hallows : Allows lives ev) :
    s.toldLives lives ev l = .starting t ↔
      ev = .start (.bootLimiter l) ∧ t = s.tasks.length ∨ lives l = .starting t := by
  unfold toldLives
  split
  · next k =>
    have hdown : lives k = .down := hallows
    by_cases hk : k = l
    · subst hk
      simp [hdown, eq_comm]
    · simp [Function.update_of_ne (Ne.symm hk), hk]
  · next k =>
    have hnot : lives k ≠ .starting t := hallows t
    by_cases hk : k = l
    · subst hk
      simp [hnot]
    · simp [Function.update_of_ne (Ne.symm hk)]
  · next hother _ => exact (or_iff_right fun h => hother l h.1).symm

theorem toldLives_eq_up_iff {lives : LimiterId → Life} (hallows : Allows lives ev) :
    s.toldLives lives ev l = .up ↔ lives l = .up ∧ ev ≠ .start (.closeLimiter l) := by
  unfold toldLives
  split
  · next k =>
    have hdown : lives k = .down := hallows
    by_cases hk : k = l
    · subst hk
      simp [hdown]
    · simp [Function.update_of_ne (Ne.symm hk)]
  · next k =>
    by_cases hk : k = l
    · subst hk
      simp
    · simp [Function.update_of_ne (Ne.symm hk), hk]
  · next _ hother => exact (and_iff_left (hother l)).symm

theorem Readies.unique {t u : TaskId} {outcome other : Outcome α} (h : s.Readies ev t outcome)
    (h' : s.Readies ev u other) : t = u := by
  obtain ⟨n, rfl, hentry⟩ := h
  obtain ⟨m, hev, hentry'⟩ := h'
  obtain rfl := Event.work.inj hev
  cases hentry.symm.trans hentry'
  rfl

theorem Pursues.lt (h : s.Pursues t purpose) : t < s.tasks.length := by
  obtain ⟨task, htask, -⟩ := Option.map_eq_some_iff.mp h.1
  exact (List.getElem?_eq_some_iff.mp htask).1

end

/-! What an event does to a task and to the regular sweeps -/

section

variable [Scalar α] {s s' : Deployment α} {t : TaskId} {p : Scope α}

variable [Textual α] {ev : Event α} {purpose : Purpose α}

theorem purpose_happen_eq (hs : s.Prompt) (hlt : t < s.tasks.length) :
    (s.happen ev).tasks[t]?.map Task.purpose = s.tasks[t]?.map Task.purpose := by
  have hsame : (s.taken ev).tasks = s.tasks := tasks_taken s ev
  rw [(happen_moves hs ev).map_tasks_eq (fun _ _ => rfl) (hsame.symm ▸ hlt), hsame]

/-- What a task of old is about to do, it was about to do before. -/
theorem Pursues.of_happen (hs : s.Prompt) (hlt : t < s.tasks.length)
    (h : (s.happen ev).Pursues t purpose) : s.Pursues t purpose := by
  obtain ⟨hpurpose, hunsettled⟩ := h
  obtain ⟨more, hsettled, -⟩ := settled_happen hs ev
  refine ⟨(purpose_happen_eq hs hlt).symm.trans hpurpose, ?_⟩
  rw [share, hsettled, List.filter_append, List.map_append] at hunsettled
  exact (List.append_eq_nil_iff.mp hunsettled).1

/-- A startup ends only when its store is ready or refuses to start. -/
theorem boot_settled_eq (hs : s.Prompt) {limiter : Option LimiterId}
    (hpurpose : s.tasks[t]?.map Task.purpose = some (.boot limiter))
    (hready : ∀ outcome, ¬s.Readies ev t outcome) :
    ((s.happen ev).share t).settled = (s.share t).settled := by
  have hlt : t < s.tasks.length := by
    obtain ⟨task, htask, -⟩ := Option.map_eq_some_iff.mp hpurpose
    exact (List.getElem?_eq_some_iff.mp htask).1
  have hscope : ¬((s.scope ev).task t ∧ (s.scope ev).finish t) →
      ((s.happen ev).share t).settled = (s.share t).settled := by
    intro h
    rw [(happen_moves hs ev).share_settled_eq h]
    cases ev <;> rfl
  cases ev with
  | start call => exact hscope fun h => (Nat.ne_of_lt hlt) h.1
  | work n =>
    by_cases hother : (s.scope (.work n)).task t ∧ (s.scope (.work n)).finish t
    · simp only [scope, happen] at hother ⊢
      cases hentry : s.agenda[n]? with
      | none => rfl
      | some entry =>
        obtain ⟨turns, job⟩ := entry
        rw [hentry] at hother
        cases turns with
        | succ turns => exact hother.2.elim
        | zero =>
          -- Only a check is concluded, and only a shutdown is closed.
          cases job with
          | conclude u verdict =>
            obtain rfl : t = u := hother.1
            simp only [turn, run, conclude, hpurpose]
            rfl
          | closed u outcome =>
            obtain rfl : t = u := hother.1
            obtain ⟨task, htask, htaskPurpose⟩ := Option.map_eq_some_iff.mp hpurpose
            obtain ⟨store, purpose, progress⟩ := task
            cases htaskPurpose
            simp only [turn, run, closed, htask]
            rfl
          | started u outcome =>
            obtain rfl : t = u := hother.1
            exact absurd ⟨n, rfl, hentry⟩ (hready outcome)
          | _ => exact hother.2.elim
    · exact hscope hother
  | hangUp u => exact settled_share_congr (settled_hangUp s u) t
  | alarm n =>
    refine hscope fun h => ?_
    simp only [scope] at h
    split at h <;> exact h.2
  | _ => exact hscope fun h => h.2

omit [Scalar α] [Textual α] in
theorem sameSweeps_taken (hregular : ¬(s.scope ev).regular) : SameSweeps s (s.taken ev) := by
  cases ev with
  | alarm n =>
    refine ⟨rfl, rfl, rfl, fun l name => ⟨?_, ?_⟩⟩
    · rintro ⟨timer, htimer, hsweep⟩
      exact ⟨timer, List.mem_of_mem_eraseIdx htimer, hsweep⟩
    · rintro ⟨timer, htimer, period, hsweep⟩
      refine ⟨timer, (List.mem_eraseIdx_iff_getElem?).mpr ?_, period, hsweep⟩
      obtain ⟨k, hk⟩ := List.mem_iff_getElem?.mp htimer
      refine ⟨k, ?_, hk⟩
      rintro rfl
      simp [scope, hk, hsweep] at hregular
  | _ => exact ⟨rfl, rfl, rfl, fun _ _ => Iff.rfl⟩

/-- A regular sweep sets its timer anew. -/
theorem sameSweeps_fire_sweep {n : Nat} {due period : α} {l : LimiterId} {name : String}
    (htimer : s.timers[n]? = some ⟨due, .sweep l name period⟩) :
    SameSweeps s (s.happen (.alarm n)) := by
  have hswept : SameSweeps (s.taken (.alarm n))
      ((s.taken (.alarm n)).sweep l (some (.number s.clock))).2 :=
    ((Moves.refl _).sweep (p := { call := fun _ => True, notice := fun _ => True })
      (fun _ _ => trivial) (fun _ => trivial) l _).sameSweeps id
  have hfired : s.happen (.alarm n) =
      ((s.taken (.alarm n)).sweep l (some (.number s.clock))).2.setTimer period
        (.sweep l name period) := by
    simp only [happen, htimer]
    rfl
  rw [hfired]
  refine ⟨hswept.intervals, hswept.intervalCount, hswept.limiters, fun l' name' => ?_⟩
  refine (sweeps_concat_iff _ _).trans ((or_congr_left (hswept.sweeps l' name')).trans ⟨?_, ?_⟩)
  · rintro (⟨timer, hmem, hsweep⟩ | ⟨period', hsweep⟩)
    · exact ⟨timer, List.mem_of_mem_eraseIdx hmem, hsweep⟩
    · exact ⟨_, List.mem_of_getElem? htimer, period', hsweep⟩
  · rintro ⟨timer, hmem, period', hsweep⟩
    obtain ⟨k, hk⟩ := List.mem_iff_getElem?.mp hmem
    by_cases hkn : k = n
    · subst hkn
      obtain rfl := Option.some.inj (htimer.symm.trans hk)
      exact Or.inr ⟨period', hsweep⟩
    · exact Or.inl ⟨timer, List.mem_eraseIdx_iff_getElem?.mpr ⟨k, hkn, hk⟩, period', hsweep⟩

/-- Only the end of a startup and a shutdown touch the regular sweeps. -/
theorem sameSweeps_happen (hs : s.Reachable) (hstops : ∀ call, ev = .start call → ¬call.Stops)
    (hready : ∀ t outcome, ¬s.Readies ev t outcome)
    (hrunning : ∀ t, ¬s.Pursues t (.close .application)) : SameSweeps s (s.happen ev) := by
  have hscope : ¬(s.scope ev).regular → SameSweeps s (s.happen ev) := fun hregular =>
    (sameSweeps_taken hregular).trans ((happen_moves hs.prompt ev).sameSweeps hregular)
  cases ev with
  | start call => exact hscope (hstops call rfl)
  | work n =>
    refine hscope fun hregular => ?_
    simp only [scope] at hregular
    split at hregular
    · next job hentry =>
      cases job with
      | started t outcome => exact hready t outcome ⟨n, rfl, hentry⟩
      | closed t outcome =>
        exact hrunning t ⟨hregular, hs.settled_eq_nil hentry (beq_self_eq_true t)⟩
      | _ => exact hregular
    · exact hregular
    · exact hregular
  | alarm n =>
    cases htimer : s.timers[n]? with
    | none =>
      refine hscope ?_
      simp [scope, htimer]
    | some timer =>
      obtain ⟨due, alarm⟩ := timer
      cases alarm with
      | sweep l name period => exact sameSweeps_fire_sweep htimer
      | _ =>
        refine hscope ?_
        simp [scope, htimer]
  | _ => exact hscope id

omit [Scalar α] [Textual α] in
theorem SameSweeps.settle (h : SameSweeps s s') (t : TaskId) (settlement : Settlement α) :
    SameSweeps s (s'.settle t settlement) :=
  h.trans ⟨rfl, rfl, rfl, fun _ _ => Iff.rfl⟩

omit [Textual α] in
theorem sweepable_iff_ready {l : LimiterId} {limiter : Limiter α} {store : Store α}
    (hlimiter : s.limiters[l]? = some limiter) (hstore : s.stores[limiter.store]? = some store) :
    s.Sweepable l ↔ (store.canSweep && decide (0 < limiter.config.sweepInterval) &&
      limiter.scheduled) = true := by
  simp [Sweepable, hlimiter, hstore, and_assoc]

omit [Textual α] in
/-- A limiter that could be swept for has a regular sweep registered when its store is ready. -/
theorem started_of_sweepable {l : LimiterId} (answer : Option (Value α))
    (hpurpose : s.tasks[t]?.map Task.purpose = some (.boot (some l))) (hsweepable : s.Sweepable l) :
    ∃ limiter s₁, s.limiters[l]? = some limiter ∧ SameSweeps s s₁ ∧ s₁.settled = s.settled ∧
      s.started t (.ok answer) = s₁.registerSweep t l limiter := by
  obtain ⟨limiter, hlimiter, hcanSweep, hconfigured⟩ := id hsweepable
  obtain ⟨store, hstore, -⟩ := Option.map_eq_some_iff.mp hcanSweep
  refine ⟨limiter, s.note (.ready limiter.config.limit.rate limiter.config.limit.capacity
    store.backend), hlimiter, ⟨rfl, rfl, rfl, fun _ _ => Iff.rfl⟩, rfl, ?_⟩
  simp only [started, hpurpose, hlimiter, hstore]
  exact if_pos ((sweepable_iff_ready hlimiter hstore).mp hsweepable)

omit [Textual α] in
/-- A limiter that could not be swept for is done when its store is ready. -/
theorem started_of_not_sweepable {l : LimiterId} (answer : Option (Value α))
    (hpurpose : s.tasks[t]?.map Task.purpose = some (.boot (some l)))
    (hsweepable : ¬s.Sweepable l) :
    ∃ s₁, SameSweeps s s₁ ∧ s₁.settled = s.settled ∧
      s.started t (.ok answer) = s₁.settle t .done := by
  cases hlimiter : s.limiters[l]? with
  | none => exact ⟨s, .refl s, rfl, by simp only [started, hpurpose, hlimiter]⟩
  | some limiter =>
    cases hstore : s.stores[limiter.store]? with
    | none => exact ⟨s, .refl s, rfl, by simp only [started, hpurpose, hlimiter, hstore]⟩
    | some store =>
      refine ⟨s.note (.ready limiter.config.limit.rate limiter.config.limit.capacity
        store.backend), ⟨rfl, rfl, rfl, fun _ _ => Iff.rfl⟩, rfl, ?_⟩
      simp only [started, hpurpose, hlimiter, hstore]
      exact if_neg (mt (sweepable_iff_ready hlimiter hstore).mpr hsweepable)

omit [Textual α] in
/-- A startup that is not for a limiter's sake, or fails, leaves the regular sweeps alone. -/
theorem started_of_not_boot {outcome : Outcome α}
    (hboot : ∀ l answer, outcome = .ok answer →
      s.tasks[t]?.map Task.purpose ≠ some (.boot (some l))) :
    ∃ settlement, s.started t outcome = s.settle t settlement := by
  cases outcome with
  | error fault => exact ⟨.failed fault, rfl⟩
  | ok answer =>
    refine ⟨.answered answer, ?_⟩
    unfold started
    split
    · next h => cases h
    · next l _ h => exact absurd h (hboot l _ rfl)
    · next h _ => rw [Except.ok.inj h]

/-- Only its start brings a task forth, and with it its purpose. -/
theorem Pursues.eq_start (hs : s.Prompt) (hnew : s.tasks.length ≤ t)
    (h : (s.happen ev).Pursues t purpose) :
    t = s.tasks.length ∧ ∃ call, ev = .start call ∧
      (∀ l, purpose = .boot (some l) → call = .bootLimiter l) ∧
      (purpose = .close .application → ∃ l, call = .shutDown l) := by
  have hlt := h.lt
  by_cases hstart : ∃ call, ev = .start call
  · obtain ⟨call, rfl⟩ := hstart
    rw [happen, tasks_length_start] at hlt
    obtain rfl : t = s.tasks.length := Nat.le_antisymm (Nat.le_of_lt_succ hlt) hnew
    obtain ⟨s', i, found, hs', hmoves, hpurpose⟩ := start_newTask s call
    have htask : (s'.newTask i found).2.tasks[s.tasks.length]?.map Task.purpose = some found := by
      simp [newTask, hs'.tasks]
    have hkept := hmoves.map_tasks_eq (f := Task.purpose) (fun _ _ => rfl) (t := s.tasks.length)
      (by simp [newTask, hs'.tasks])
    obtain rfl := Option.some.inj (htask.symm.trans (hkept.symm.trans h.1))
    obtain ⟨settlement, hsettled⟩ | hpurpose := hpurpose
    · have hmem : settlement ∈ ((s.happen (.start call)).share s.tasks.length).settled :=
        List.mem_map.mpr ⟨_, List.mem_filter.mpr ⟨hsettled, beq_self_eq_true _⟩, rfl⟩
      rw [h.2] at hmem
      cases hmem
    · exact ⟨rfl, call, rfl, hpurpose⟩
  · rw [tasks_length_happen_eq hs fun call hcall => hstart ⟨call, hcall⟩] at hlt
    exact absurd hnew (Nat.not_le_of_lt hlt)

/-- Making a store ready ends no task, unless it fails at once. -/
theorem settled_boot (s : Deployment α) (t : TaskId) (i : StoreId)
    (failed : Fault α → Settlement α) :
    (s.boot t i failed).settled = s.settled ∨
      ∃ fault, (s.boot t i failed).settled = s.settled ++ [(t, failed fault)] := by
  unfold boot
  split
  · exact Or.inl rfl
  · next store hstore =>
    have hmoves : Moves .unending s (s.bootRedis t i store) :=
      (Moves.refl s).bootRedis hstore trivial trivial (fun _ _ => trivial) (fun _ _ => trivial)
        fun _ _ _ => ⟨trivial, fun _ _ => trivial⟩
    exact Or.inl (hmoves.settled_eq fun _ _ => id)
  · dsimp only
    split
    · exact Or.inr ⟨_, rfl⟩
    · refine Or.inl (Eq.trans ?_ (rfl : (s.record .storeStart).settled = s.settled))
      exact ((Moves.refl (p := .unending) _).arrange _ (Nat.zero_le _) (Nat.zero_le _)
        fun _ => trivial).settled_eq fun _ _ => id
  · exact Or.inl rfl

/-- A limiter whose startup begins is not done at once. -/
theorem start_bootLimiter (hs : s.Reachable) (l : LimiterId) :
    (((s.start (.bootLimiter l)).share s.tasks.length).settled = [] →
      (s.start (.bootLimiter l)).Pursues s.tasks.length (.boot (some l))) ∧
    ∀ rest, ((s.start (.bootLimiter l)).share s.tasks.length).settled ≠ .done :: rest := by
  have hnone : (s.share s.tasks.length).settled = [] := by
    rw [hs.share_eq (Nat.le_refl _)]
  have hends : ∀ (s' : Deployment α) {settlement},
      s'.settled = s.settled ++ [(s.tasks.length, settlement)] →
      (s'.share s.tasks.length).settled = [settlement] := by
    intro s' settlement hsettled
    rw [share_settled_concat hsettled, if_pos rfl, hnone, List.nil_append]
  cases hlimiter : s.limiters[l]? with
  | none =>
    have hrefused : s.start (.bootLimiter l) = s.refuse (.boot (some l)) := by
      simp only [start, onLimiter, hlimiter]
    rw [hrefused, hends (s.refuse (.boot (some l))) rfl]
    exact ⟨nofun, nofun⟩
  | some limiter =>
    let begun := (s.newTask limiter.store (.boot (some l))).2
    have hstart : s.start (.bootLimiter l) =
        begun.boot s.tasks.length limiter.store .failed := by
      simp only [start, onLimiter, hlimiter]
      rfl
    have hmoves : Moves .any begun (s.start (.bootLimiter l)) :=
      hstart ▸ (Moves.refl begun).boot trivial trivial trivial (fun _ _ => trivial)
        (fun _ _ => trivial) trivial (fun _ _ _ _ _ => ⟨trivial, fun _ _ => trivial⟩) _
    have hpurpose : (s.start (.bootLimiter l)).tasks[s.tasks.length]?.map Task.purpose =
        some (.boot (some l)) := by
      rw [hmoves.map_tasks_eq (fun _ _ => rfl) (by simp [begun, newTask])]
      simp [begun, newTask]
    refine ⟨fun hunsettled => ⟨hpurpose, hunsettled⟩, fun rest hdone => ?_⟩
    obtain hsame | ⟨fault, hfailed⟩ :=
      settled_boot begun s.tasks.length limiter.store Settlement.failed
    · rw [hstart, settled_share_congr (s := s) hsame, hnone] at hdone
      cases hdone
    · rw [hstart, hends _ hfailed] at hdone
      cases hdone

/-- A limiter that shuts down stops its own regular sweep at once, and nothing else is done to the
regular sweeps. -/
theorem sameSweeps_closeLimiter (s : Deployment α) (l : LimiterId) :
    SameSweeps (s.cancelSweep l) (s.start (.closeLimiter l)) := by
  cases hlimiter : s.limiters[l]? with
  | none =>
    have hcancel : s.cancelSweep l = s := by simp only [cancelSweep, hlimiter]
    have hrefused : s.start (.closeLimiter l) = s.refuse (.boot (some l)) := by
      simp only [start, onLimiter, hlimiter]
    rw [hcancel, hrefused]
    exact ⟨rfl, rfl, rfl, fun _ _ => Iff.rfl⟩
  | some limiter =>
    have hstart : s.start (.closeLimiter l) =
        ((s.cancelSweep l).newTask limiter.store (.close .limiter)).2.close
          (s.cancelSweep l).tasks.length limiter.store .limiter := by
      simp only [start, onLimiter, hlimiter]
      rfl
    have hmoves : Moves { Scope.any with regular := False } (s.cancelSweep l)
        (s.start (.closeLimiter l)) :=
      hstart ▸ ((Moves.refl _).newTask trivial _ _).close trivial trivial (fun _ _ => trivial)
        (fun _ _ => trivial) trivial (fun _ _ _ => ⟨trivial, trivial⟩) .limiter (by simp)
    exact hmoves.sameSweeps id

end

/-! The lives of all limiters -/

section

variable [Scalar α] [Textual α]

/-- The regular sweeps are those of the limiters that are up and could be swept for, and the
startups under way are those of the limiters that are starting. -/
structure Lives (s : Deployment α) (lives : LimiterId → Life) : Prop where
  reachable : s.Reachable
  kept : s.WellKept
  up : ∀ l, (∃ name, s.interval? l = some name) ↔ lives l = .up ∧ s.Sweepable l
  starting : ∀ l t, lives l = .starting t ↔ s.Pursues t (.boot (some l))
  running : ∀ t, ¬s.Pursues t (.close .application)

theorem Fresh.lives {s : Deployment α} (hfresh : s.Fresh) (hnames : s.intervals = [])
    (hidle : ∀ limiter ∈ s.limiters, limiter.interval = none) : s.Lives fun _ => .down := by
  have hnone : ∀ l name, s.interval? l ≠ some name := by
    intro l name hname
    obtain ⟨limiter, hlimiter, hinterval⟩ := Option.bind_eq_some_iff.mp hname
    rw [hidle limiter (List.mem_of_getElem? hlimiter)] at hinterval
    cases hinterval
  have hpursues : ∀ t purpose, ¬s.Pursues t purpose := by
    intro t purpose h
    have hlt := h.lt
    rw [hfresh.tasks] at hlt
    exact Nat.not_lt_zero t hlt
  refine ⟨hfresh.reachable, ⟨?_, ?_, ?_, ?_, ?_, ?_⟩, ?_, ?_, ?_⟩
  · simp [hnames]
  · simp [hnames]
  · exact fun l name h => absurd h (hnone l name)
  · rintro l name ⟨timer, htimer, -⟩
    rw [hfresh.timers] at htimer
    cases htimer
  · simp [hnames]
  · exact fun l l' name h => absurd h (hnone l name)
  · simp [hnone]
  · simp [hpursues]
  · exact fun t => hpursues t _

namespace Lives

variable {s : Deployment α} {lives : LimiterId → Life} {ev : Event α} {l : LimiterId} {t : TaskId}
  {outcome : Outcome α}

theorem interval?_eq_none (h : s.Lives lives) (hl : lives l ≠ .up) : s.interval? l = none := by
  refine Option.eq_none_iff_forall_ne_some.mpr fun name hname => ?_
  exact hl ((h.up l).mp ⟨name, hname⟩).1

theorem starting_next (h : s.Lives lives) (hallows : Allows lives ev) (l : LimiterId)
    (t : TaskId) :
    s.nextLives lives ev l = .starting t ↔ (s.happen ev).Pursues t (.boot (some l)) := by
  have hprompt := h.reachable.prompt
  rw [nextLives, settleLife_eq_starting_iff, toldLives_eq_starting_iff hallows]
  constructor
  · rintro ⟨⟨rfl, rfl⟩ | hstarting, hunsettled⟩
    · exact (start_bootLimiter h.reachable l).1 hunsettled
    · have hpursues := (h.starting l t).mp hstarting
      exact ⟨(purpose_happen_eq hprompt hpursues.lt).trans hpursues.1, hunsettled⟩
  · intro hpursues
    refine ⟨?_, hpursues.2⟩
    by_cases hlt : t < s.tasks.length
    · exact Or.inr ((h.starting l t).mpr (hpursues.of_happen hprompt hlt))
    · obtain ⟨hnew, call, rfl, hboot, -⟩ := hpursues.eq_start hprompt (Nat.le_of_not_lt hlt)
      exact Or.inl ⟨congrArg Event.start (hboot l rfl), hnew⟩

theorem running_next (h : s.Lives lives) (hallows : Allows lives ev) (t : TaskId) :
    ¬(s.happen ev).Pursues t (.close .application) := by
  intro hpursues
  by_cases hlt : t < s.tasks.length
  · exact h.running t (hpursues.of_happen h.reachable.prompt hlt)
  · obtain ⟨-, call, rfl, -, hclose⟩ :=
      hpursues.eq_start h.reachable.prompt (Nat.le_of_not_lt hlt)
    obtain ⟨l, rfl⟩ := hclose rfl
    exact hallows

omit [Scalar α] [Textual α] in
theorem not_allows_shutDown (hallows : Allows lives ev)
    (hclose : ∀ l, ev ≠ .start (.closeLimiter l)) (call : Start α) (hcall : ev = .start call) :
    ¬call.Stops := by
  subst hcall
  cases call with
  | closeLimiter l => exact absurd rfl (hclose l)
  | shutDown l => exact hallows.elim
  | _ => exact id

theorem happen_of_readies (hready : s.Readies ev t outcome) :
    s.happen ev = (s.taken ev).started t outcome := by
  obtain ⟨n, rfl, hentry⟩ := hready
  simp only [happen, hentry]
  rfl

omit [Scalar α] [Textual α] in
theorem sameSweeps_taken_of_readies (hready : s.Readies ev t outcome) :
    SameSweeps s (s.taken ev) := by
  obtain ⟨n, rfl, -⟩ := hready
  exact ⟨rfl, rfl, rfl, fun _ _ => Iff.rfl⟩

omit [Scalar α] [Textual α] in
theorem settled_taken (s : Deployment α) (ev : Event α) : (s.taken ev).settled = s.settled := by
  cases ev <;> rfl

omit [Textual α] in
theorem sweepable_taken_iff : (s.taken ev).Sweepable l ↔ s.Sweepable l := by
  cases ev <;> exact Iff.rfl

theorem sweepable_happen_iff (h : s.Lives lives) : (s.happen ev).Sweepable l ↔ s.Sweepable l :=
  ((happen_moves h.reachable.prompt ev).sweepable_iff l).trans sweepable_taken_iff

theorem pursues_of_readies (h : s.Lives lives) (hready : s.Readies ev t outcome)
    {purpose : Purpose α} (hpurpose : s.tasks[t]?.map Task.purpose = some purpose) :
    s.Pursues t purpose := by
  obtain ⟨n, -, hentry⟩ := hready
  exact ⟨hpurpose, h.reachable.settled_eq_nil hentry (beq_self_eq_true t)⟩

/-- An event that neither makes the store of a starting limiter ready nor shuts a limiter down
leaves the regular sweeps alone. -/
theorem quiet (h : s.Lives lives) (hallows : Allows lives ev)
    (hclose : ∀ l, ev ≠ .start (.closeLimiter l))
    (hboot : ∀ l t answer, s.Readies ev t (.ok answer) → ¬s.Pursues t (.boot (some l))) :
    SameSweeps s (s.happen ev) := by
  by_cases hready : ∃ t outcome, s.Readies ev t outcome
  · obtain ⟨t, outcome, hready⟩ := hready
    have hnot : ∀ l answer, outcome = .ok answer →
        (s.taken ev).tasks[t]?.map Task.purpose ≠ some (.boot (some l)) := by
      rintro l answer rfl hpurpose
      rw [tasks_taken] at hpurpose
      exact hboot l t answer hready (h.pursues_of_readies hready hpurpose)
    obtain ⟨settlement, hstarted⟩ := started_of_not_boot hnot
    rw [happen_of_readies hready, hstarted]
    exact (sameSweeps_taken_of_readies hready).settle t settlement
  · exact sameSweeps_happen h.reachable (not_allows_shutDown hallows hclose)
      (fun t outcome hready' => hready ⟨t, outcome, hready'⟩) h.running

/-- The store of a starting limiter is ready: it gets the next name if it could be swept for, and
otherwise the regular sweeps are left alone. -/
theorem ready (h : s.Lives lives) {answer : Option (Value α)}
    (hready : s.Readies ev t (.ok answer)) (hpursues : s.Pursues t (.boot (some l))) :
    (s.happen ev).settled = s.settled ++ [(t, .done)] ∧
    (¬s.Sweepable l → SameSweeps s (s.happen ev)) ∧
    (s.Sweepable l → (s.happen ev).WellKept ∧
      (s.happen ev).intervals = s.intervals ++ [sweepName (s.intervalCount + 1)] ∧
      ∀ l', (s.happen ev).interval? l' =
        if l' = l then some (sweepName (s.intervalCount + 1)) else s.interval? l') := by
  have htaken := sameSweeps_taken_of_readies hready
  have hpurpose : (s.taken ev).tasks[t]?.map Task.purpose = some (.boot (some l)) := by
    rw [tasks_taken]
    exact hpursues.1
  by_cases hsweepable : s.Sweepable l
  · obtain ⟨limiter, s₁, hlimiter, hsame, hsettled, hstarted⟩ :=
      started_of_sweepable answer hpurpose (sweepable_taken_iff.mpr hsweepable)
    rw [settled_taken] at hsettled
    have hsame₁ := htaken.trans hsame
    have hnone : s₁.interval? l = none := by
      rw [hsame₁.interval?_eq]
      refine h.interval?_eq_none fun hup => ?_
      rw [(h.starting l t).mpr hpursues] at hup
      cases hup
    obtain ⟨hkept, hinterval, hintervals, hdone⟩ :=
      (h.kept.congr hsame₁).registerSweep (hsame.limiters ▸ hlimiter) hnone t
    rw [happen_of_readies hready, hstarted]
    refine ⟨hsettled ▸ hdone, fun hnot => absurd hsweepable hnot, fun _ => ⟨hkept, ?_, ?_⟩⟩
    · rw [hintervals, hsame₁.intervals, hsame₁.intervalCount]
    · simpa only [hsame₁.intervalCount, hsame₁.interval?_eq] using hinterval
  · obtain ⟨s₁, hsame, hsettled, hstarted⟩ := started_of_not_sweepable answer hpurpose
      (mt sweepable_taken_iff.mp hsweepable)
    rw [settled_taken] at hsettled
    rw [happen_of_readies hready, hstarted]
    refine ⟨?_, fun _ => (htaken.trans hsame).settle t .done, fun hyes => absurd hyes hsweepable⟩
    rw [← hsettled]
    rfl

/-- The startup of a limiter ends as its store does. -/
theorem settled_of_readies (h : s.Lives lives) (hready : s.Readies ev t outcome)
    (hpursues : s.Pursues t (.boot (some l))) :
    ((s.happen ev).share t).settled = [bootEnd outcome] := by
  cases outcome with
  | ok answer =>
    rw [share_settled_concat (h.ready hready hpursues).1, if_pos rfl, hpursues.2]
    rfl
  | error fault =>
    have hfailed : (s.happen ev).settled = s.settled ++ [(t, .failed fault)] := by
      rw [happen_of_readies hready, ← settled_taken s ev]
      rfl
    rw [share_settled_concat hfailed, if_pos rfl, hpursues.2]
    rfl

/-- A limiter is up as long as it is not told to shut down, and comes up when its store is
ready. -/
theorem next_eq_up_iff (h : s.Lives lives) (hallows : Allows lives ev) (l : LimiterId) :
    s.nextLives lives ev l = .up ↔
      lives l = .up ∧ ev ≠ .start (.closeLimiter l) ∨
      ∃ t answer, s.Readies ev t (.ok answer) ∧ lives l = .starting t := by
  rw [nextLives, settleLife_eq_up_iff, toldLives_eq_up_iff hallows]
  refine or_congr_right ⟨?_, ?_⟩
  · rintro ⟨t, rest, htold, hdone⟩
    obtain ⟨rfl, rfl⟩ | hstarting := (toldLives_eq_starting_iff hallows).mp htold
    · exact absurd hdone ((start_bootLimiter h.reachable l).2 rest)
    have hpursues := (h.starting l t).mp hstarting
    by_cases hready : ∃ outcome, s.Readies ev t outcome
    · obtain ⟨outcome, hready⟩ := hready
      cases outcome with
      | ok answer => exact ⟨t, answer, hready, hstarting⟩
      | error fault =>
        rw [h.settled_of_readies hready hpursues] at hdone
        cases hdone
    · rw [boot_settled_eq h.reachable.prompt hpursues.1 fun outcome hready' =>
        hready ⟨outcome, hready'⟩, hpursues.2] at hdone
      cases hdone
  · rintro ⟨t, answer, hready, hstarting⟩
    have hends := h.settled_of_readies hready ((h.starting l t).mp hstarting)
    exact ⟨t, [], (toldLives_eq_starting_iff hallows).mpr (Or.inr hstarting), hends⟩

theorem closing (h : s.Lives lives) (l : LimiterId) :
    (s.start (.closeLimiter l)).WellKept ∧
    (∀ l', (s.start (.closeLimiter l)).interval? l' = if l' = l then none else s.interval? l') ∧
    ∀ name, name ∈ (s.start (.closeLimiter l)).intervals ↔
      name ∈ s.intervals ∧ s.interval? l ≠ some name := by
  obtain ⟨hkept, hinterval, hintervals⟩ := h.kept.cancelSweep l
  have hsame := sameSweeps_closeLimiter s l
  refine ⟨hkept.congr hsame, ?_, ?_⟩
  · simpa only [hsame.interval?_eq] using hinterval
  · simpa only [hsame.intervals] using hintervals

/-- A limiter that an event neither shuts down nor makes ready is up after it if it was before. -/
theorem next_eq_up_iff_of_untouched (h : s.Lives lives) (hallows : Allows lives ev) {l : LimiterId}
    (hclose : ev ≠ .start (.closeLimiter l))
    (hboot : ∀ t answer, s.Readies ev t (.ok answer) → ¬s.Pursues t (.boot (some l))) :
    s.nextLives lives ev l = .up ↔ lives l = .up := by
  rw [h.next_eq_up_iff hallows, and_iff_left hclose, or_iff_left]
  rintro ⟨t, answer, hready, hstarting⟩
  exact hboot t answer hready ((h.starting l t).mp hstarting)

/-- After an event the registry is well kept, and holds the regular sweeps of the limiters that are
up then. -/
def KeepsUp (s : Deployment α) (lives : LimiterId → Life) (ev : Event α) : Prop :=
  (s.happen ev).WellKept ∧ ∀ l, (∃ name, (s.happen ev).interval? l = some name) ↔
    s.nextLives lives ev l = .up ∧ s.Sweepable l

theorem keepsUp_close (h : s.Lives lives) {k : LimiterId}
    (hallows : Allows lives (.start (.closeLimiter k) : Event α)) :
    KeepsUp s lives (.start (.closeLimiter k)) := by
  obtain ⟨hkept, hinterval, -⟩ := h.closing k
  have hunready : ∀ t answer, ¬s.Readies (.start (.closeLimiter k)) t (.ok answer) := by
    rintro t answer ⟨n, hev, -⟩
    cases hev
  refine ⟨hkept, fun l => ?_⟩
  show (∃ name, (s.start (.closeLimiter k)).interval? l = some name) ↔ _
  rw [hinterval]
  by_cases hk : l = k
  · subst hk
    simp [h.next_eq_up_iff hallows, hunready]
  · have hother : (.start (.closeLimiter k) : Event α) ≠ .start (.closeLimiter l) := fun heq =>
      hk (Start.closeLimiter.inj (Event.start.inj heq)).symm
    rw [if_neg hk, h.up, h.next_eq_up_iff_of_untouched hallows hother fun t answer hready =>
      absurd hready (hunready t answer)]

theorem keepsUp_ready (h : s.Lives lives) (hallows : Allows lives ev)
    (hclose : ∀ l, ev ≠ .start (.closeLimiter l)) {k : LimiterId} {t : TaskId}
    {answer : Option (Value α)} (hready : s.Readies ev t (.ok answer))
    (hpursues : s.Pursues t (.boot (some k))) : KeepsUp s lives ev := by
  have hother : ∀ l, l ≠ k → (s.nextLives lives ev l = .up ↔ lives l = .up) := by
    refine fun l hk => h.next_eq_up_iff_of_untouched hallows (hclose l)
      fun u answer' hready' hpursues' => ?_
    obtain rfl := hready.unique hready'
    exact hk (Option.some.inj (Purpose.boot.inj
      (Option.some.inj (hpursues'.1.symm.trans hpursues.1))))
  obtain ⟨-, hunswept, hswept⟩ := h.ready hready hpursues
  by_cases hsweepable : s.Sweepable k
  · obtain ⟨hkept, -, hinterval⟩ := hswept hsweepable
    refine ⟨hkept, fun l => ?_⟩
    rw [hinterval]
    by_cases hk : l = k
    · subst hk
      rw [if_pos rfl, h.next_eq_up_iff hallows]
      exact ⟨fun _ => ⟨Or.inr ⟨t, answer, hready, (h.starting l t).mpr hpursues⟩, hsweepable⟩,
        fun _ => ⟨_, rfl⟩⟩
    · rw [if_neg hk, h.up, hother l hk]
  · have hsweeps := hunswept hsweepable
    refine ⟨h.kept.congr hsweeps, fun l => ?_⟩
    rw [hsweeps.interval?_eq, h.up]
    by_cases hk : l = k
    · subst hk
      simp [hsweepable]
    · rw [hother l hk]

/-- What is true of the lives of all limiters stays true. -/
theorem happen (h : s.Lives lives) (hallows : Allows lives ev) :
    (s.happen ev).Lives (s.nextLives lives ev) := by
  have hkeeps : KeepsUp s lives ev := by
    by_cases hclose : ∃ l, ev = .start (.closeLimiter l)
    · obtain ⟨k, rfl⟩ := hclose
      exact h.keepsUp_close hallows
    have hopen : ∀ l, ev ≠ .start (.closeLimiter l) := fun l heq => hclose ⟨l, heq⟩
    by_cases hboot : ∃ l t answer, s.Readies ev t (.ok answer) ∧ s.Pursues t (.boot (some l))
    · obtain ⟨k, t, answer, hready, hpursues⟩ := hboot
      exact h.keepsUp_ready hallows hopen hready hpursues
    · have hunready : ∀ l t answer, s.Readies ev t (.ok answer) → ¬s.Pursues t (.boot (some l)) :=
        fun l t answer hready hpursues => hboot ⟨l, t, answer, hready, hpursues⟩
      have hsweeps := h.quiet hallows hopen hunready
      refine ⟨h.kept.congr hsweeps, fun l => ?_⟩
      rw [hsweeps.interval?_eq, h.up,
        h.next_eq_up_iff_of_untouched hallows (hopen l) (hunready l)]
  exact ⟨h.reachable.happen ev, hkeeps.1,
    fun l => (hkeeps.2 l).trans (and_congr_right fun _ => h.sweepable_happen_iff.symm),
    h.starting_next hallows, h.running_next hallows⟩

theorem after (h : s.Lives lives) {events : List (Event α)} (hall : s.Alternates lives events) :
    (s.after events).Lives (s.livesAfter lives events) := by
  induction events generalizing s lives with
  | nil => exact h
  | cons ev events ih => exact ih (h.happen hall.1) hall.2

end Lives

/-- The laws of regular sweeps among limiters that stand as given. -/
structure SweepLaws (s : Deployment α) (lives : LimiterId → Life) : Prop where
  distinct : s.intervals.Nodup
  /-- The next name to be registered is not in use. -/
  free : sweepName (s.intervalCount + 1) ∉ s.intervals
  owned : ∀ name ∈ s.intervals, ∃! l, s.Owns l name
  single : ∀ l name name', s.Owns l name → s.Owns l name' → name = name'
  /-- What a limiter would stop is there to be stopped. -/
  held : ∀ l name, s.interval? l = some name → s.Owns l name
  registered : ∀ l, (∃ name, s.Owns l name) ↔ lives l = .up ∧ s.Sweepable l
  /-- No startup fails for want of a name. -/
  ends : ∀ ev t outcome l, s.Readies ev t outcome → s.Pursues t (.boot (some l)) →
    ((s.happen ev).share t).settled = [bootEnd outcome]
  /-- A startup that ends well registers a sweep of its own, and only if there is to be one. -/
  registers : ∀ ev t answer l, s.Readies ev t (.ok answer) → s.Pursues t (.boot (some l)) →
    (s.Sweepable l →
      (s.happen ev).intervals = s.intervals ++ [sweepName (s.intervalCount + 1)] ∧
      ∀ l' name, (s.happen ev).Owns l' name ↔
        s.Owns l' name ∨ l' = l ∧ name = sweepName (s.intervalCount + 1)) ∧
    (¬s.Sweepable l → (s.happen ev).intervals = s.intervals ∧
      ∀ l' name, (s.happen ev).Owns l' name ↔ s.Owns l' name)
  /-- A limiter that is told to shut down stops its own sweep, whatever becomes of its store. -/
  stops : ∀ l,
    (∀ name, name ∈ (s.happen (.start (.closeLimiter l))).intervals ↔
      name ∈ s.intervals ∧ ¬s.Owns l name) ∧
    ∀ l' name, (s.happen (.start (.closeLimiter l))).Owns l' name ↔ s.Owns l' name ∧ l' ≠ l
  /-- Nothing else that may happen, a failed startup or shutdown among it, touches a sweep. -/
  rest : ∀ ev, Allows lives ev → (∀ l, ev ≠ .start (.closeLimiter l)) →
    (∀ l t answer, s.Readies ev t (.ok answer) → ¬s.Pursues t (.boot (some l))) →
    (s.happen ev).intervals = s.intervals ∧ ∀ l name, (s.happen ev).Owns l name ↔ s.Owns l name

theorem Lives.laws {s : Deployment α} {lives : LimiterId → Life} (h : s.Lives lives) :
    s.SweepLaws lives where
  distinct := h.kept.nodup
  free := h.kept.notMem_next
  owned name hname := by
    obtain ⟨l, hl⟩ := h.kept.owned name hname
    exact ⟨l, h.kept.owns_iff.mpr hl,
      fun l' howns => h.kept.apart l' l name (h.kept.owns_iff.mp howns) hl⟩
  single l name name' howns howns' :=
    Option.some.inj ((h.kept.owns_iff.mp howns).symm.trans (h.kept.owns_iff.mp howns'))
  held := h.kept.held
  registered l := by simp only [h.kept.owns_iff, h.up]
  ends _ _ _ _ := h.settled_of_readies
  registers ev t answer l hready hpursues := by
    obtain ⟨-, hunswept, hswept⟩ := h.ready hready hpursues
    refine ⟨fun hsweepable => ?_, fun hsweepable => ?_⟩
    · obtain ⟨hkept, hintervals, hinterval⟩ := hswept hsweepable
      refine ⟨hintervals, fun l' name => ?_⟩
      have hnone : s.interval? l = none := by
        refine h.interval?_eq_none fun hup => ?_
        rw [(h.starting l t).mpr hpursues] at hup
        cases hup
      rw [hkept.owns_iff, h.kept.owns_iff, hinterval]
      by_cases hl : l' = l
      · subst hl
        simp [hnone, eq_comm]
      · simp [hl]
    · have hsame := hunswept hsweepable
      exact ⟨hsame.intervals, hsame.owns_iff⟩
  stops l := by
    obtain ⟨hkept, hinterval, hintervals⟩ := h.closing l
    refine ⟨fun name => ?_, fun l' name => ?_⟩
    · rw [h.kept.owns_iff]
      exact hintervals name
    · refine hkept.owns_iff.trans ?_
      rw [h.kept.owns_iff, hinterval]
      by_cases hl : l' = l <;> simp [hl]
  rest ev hallows hclose hboot := by
    have hsame := h.quiet hallows hclose hboot
    exact ⟨hsame.intervals, hsame.owns_iff⟩

/-- Limiters that share a registry and are started and shut down by turns, in any order and however
their startups overlap, are swept for exactly while they are up. -/
theorem swept_while_up {s : Deployment α} (hfresh : s.Fresh) (hnames : s.intervals = [])
    (hidle : ∀ limiter ∈ s.limiters, limiter.interval = none) (events : List (Event α))
    (hall : s.Alternates (fun _ => .down) events) :
    (s.after events).SweepLaws (s.livesAfter (fun _ => .down) events) :=
  ((hfresh.lives hnames hidle).after hall).laws

end

/-! Two limiters on one registry -/

/-- A configuration that has idle buckets swept every minute. -/
def tidy : Config ℚ where
  limit := ⟨10, 2⟩
  keyRule := .global
  redis := none
  store := none
  keyLead := .text "test:"
  ttlSeconds := 60
  timeout := 50
  failOpen := .bool false
  idleTimeout := 60000
  sweepInterval := 60000
  maxBuckets := 100

/-- Two limiters with that configuration. The store of the first does not close in order. -/
def paired : Deployment ℚ where
  clock := 1000
  stores := [
    .scripted
      { backend := .other none, sweep := some [], close := some (.throws (.general "busy")) },
    .scripted { backend := .other none, sweep := some [] }]
  limiters := [
    { config := tidy, store := 0, scheduled := true, interval := none },
    { config := tidy, store := 1, scheduled := true, interval := none }]

/-- The second limiter is ready before the first, and the first shuts down. The second keeps its
regular sweep, and the first has none left. -/
theorem swept_while_up_paired :
    let events : List (Event ℚ) := [.start (.bootLimiter 0), .start (.bootLimiter 1), .work 1,
      .work 0, .start (.closeLimiter 0)]
    paired.Fresh ∧ paired.intervals = [] ∧
      (∀ limiter ∈ paired.limiters, limiter.interval = none) ∧
      paired.Alternates (fun _ => .down) events ∧
      (paired.after events).intervals = ["rate-limit:sweep:1"] ∧
      (∃ name, (paired.after events).Owns 1 name) ∧ ¬∃ name, (paired.after events).Owns 0 name := by
  intro events
  have hfresh : paired.Fresh := by
    refine ⟨rfl, rfl, rfl, rfl, rfl, rfl, fun i => ?_⟩
    rcases i with _ | _ | i <;> rfl
  have hidle : ∀ limiter ∈ paired.limiters, limiter.interval = none := by simp [paired]
  have hall : paired.Alternates (fun _ => .down) events :=
    ⟨rfl, rfl, trivial, trivial, fun t h => Life.noConfusion (show Life.up = .starting t from h),
      trivial⟩
  have hlaws := swept_while_up hfresh rfl hidle events hall
  have hup : paired.livesAfter (fun _ => .down) events 1 = .up := rfl
  have hdown : paired.livesAfter (fun _ => .down) events 0 = .down := rfl
  have hsweepable : (paired.after events).Sweepable 1 :=
    ⟨_, rfl, rfl, by norm_num [tidy], rfl⟩
  have howned := (hlaws.registered 1).mpr ⟨hup, hsweepable⟩
  refine ⟨hfresh, rfl, hidle, hall, rfl, howned, fun howns => ?_⟩
  have hstill := ((hlaws.registered 0).mp howns).1
  rw [hdown] at hstill
  cases hstill

end Deployment

end Admission
