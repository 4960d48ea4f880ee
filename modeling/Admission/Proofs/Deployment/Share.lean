import Admission.Proofs.Deployment.Course
import Mathlib.Data.Multiset.Filter
import Mathlib.Data.Multiset.Count
import Mathlib.Data.List.Perm.Basic

/-!
What a single task has in a deployment.

The share of a task is its deadline, the signals it listens to, its work that is ready or under way,
its places in waiting lines, and how it was settled. Moves for other tasks leave it alone, and so
every question about one task comes down to the few pieces of work that are its own. A task that has
not been started has no share at all.
-/
namespace Admission

/-- The work that a timer makes ready when a reply arrives. -/
def Timer.reply? {α : Type} (timer : Timer α) : Option (Job α) :=
  match timer.alarm with
  | .reply _ job => some job
  | _ => none

namespace Deployment

variable {α : Type}

/-- The work that is ready. -/
def ready (s : Deployment α) : Multiset (Job α) := (s.agenda.map Prod.snd : List (Job α))

/-- The work that will be ready once a reply arrives. -/
def awaited (s : Deployment α) : Multiset (Job α) :=
  (s.timers.filterMap Timer.reply? : List (Job α))

@[ext]
structure Share (α : Type) where
  deadlines : List (Timer α) := []
  listeners : List SignalId := []
  settled : List (Settlement α) := []
  ready : Multiset (Job α) := 0
  awaited : Multiset (Job α) := 0
  /-- How often the task stands in the waiting line of each store. -/
  queued : StoreId → Nat := fun _ => 0

/-- Work that has become ready can be taken away again. -/
theorem Share.eq_of_cons_ready {a b : Share α} {job : Job α}
    (h : { a with ready := job ::ₘ a.ready } = { b with ready := job ::ₘ b.ready }) : a = b := by
  obtain ⟨hdeadlines, hlisteners, hsettled, hready, hawaited, hqueued⟩ := Share.ext_iff.mp h
  exact Share.ext hdeadlines hlisteners hsettled ((Multiset.cons_inj_right job).mp hready) hawaited
    hqueued

theorem Share.eq_of_cons_awaited {a b : Share α} {job : Job α}
    (h : { a with awaited := job ::ₘ a.awaited } = { b with awaited := job ::ₘ b.awaited }) :
    a = b := by
  obtain ⟨hdeadlines, hlisteners, hsettled, hready, hawaited, hqueued⟩ := Share.ext_iff.mp h
  exact Share.ext hdeadlines hlisteners hsettled hready ((Multiset.cons_inj_right job).mp hawaited)
    hqueued

def share (s : Deployment α) (t : TaskId) : Share α where
  deadlines := s.timers.filter (·.isDeadlineOf t)
  listeners := (s.listeners.filter (·.2 == t)).map Prod.fst
  settled := (s.settled.filter (·.1 == t)).map Prod.snd
  ready := s.ready.filter (·.owner? = some t)
  awaited := s.awaited.filter (·.owner? = some t)
  queued i := (s.waiters i).count t

/-! Stores -/

theorem remote?_setStore_redis {s : Deployment α} {i : StoreId} {old : Store α}
    (hold : s.stores[i]? = some old) (store : RedisStore α) (j : StoreId) :
    (s.setStore i (.redis store)).remote? j = if j = i then some store else s.remote? j := by
  have hlt : i < s.stores.length := (List.getElem?_eq_some_iff.mp hold).1
  by_cases hj : j = i
  · subst hj
    simp [remote?, setStore, List.getElem?_set_self hlt]
  · simp [remote?, setStore, hj, List.getElem?_set_ne (Ne.symm hj)]

theorem remote?_setStore_resembling {s : Deployment α} {i : StoreId} {new : Store α}
    (hlike : ∃ old, s.stores[i]? = some old ∧ old.Resembles new) (j : StoreId) :
    (s.setStore i new).remote? j = s.remote? j := by
  unfold remote? setStore
  by_cases hj : i = j
  · subst hj
    obtain ⟨old, hold, hlike⟩ := hlike
    have hlt : i < s.stores.length := (List.getElem?_eq_some_iff.mp hold).1
    rw [List.getElem?_set_self hlt, hold]
    cases hlike <;> rfl
  · rw [List.getElem?_set_ne hj]

/-- A store without those who wait for its connection. -/
def fixed? (s : Deployment α) (i : StoreId) : Option (RedisStore α) :=
  (s.remote? i).map fun store => { store with attempt := none }

theorem exists_remote_of_fixed? {s : Deployment α} {i : StoreId} {store : RedisStore α}
    (h : s.fixed? i = some { store with attempt := none }) :
    ∃ attempt, s.remote? i = some { store with attempt } := by
  obtain ⟨now, hnow, hsame⟩ := Option.map_eq_some_iff.mp h
  refine ⟨now.attempt, hnow.trans (congrArg some ?_)⟩
  cases now
  cases hsame
  rfl

/-- Whoever stands in a line once has the others before and behind. -/
theorem exists_append_of_count_eq_one {line : List TaskId} {t : TaskId} (h : line.count t = 1) :
    ∃ before later, line = before ++ t :: later ∧ t ∉ before ∧ t ∉ later := by
  obtain ⟨before, later, rfl, hbefore⟩ := List.eq_append_cons_of_mem
    (List.count_pos_iff.mp (h ▸ Nat.one_pos))
  refine ⟨before, later, rfl, hbefore, ?_⟩
  rw [List.count_append, List.count_cons_self, List.count_eq_zero.mpr hbefore] at h
  exact List.count_eq_zero.mp (by omega)

section

variable [Scalar α]

/-- What a move may do to the stores in Redis. -/
theorem Move.remote?_apply (m : Move α) {p : Scope α} (hm : m.Within p) (s : Deployment α)
    (j : StoreId) :
    (m.apply s).remote? j = s.remote? j ∨ ∃ store, s.remote? j = some store ∧
      ((p.link j ∧ ∃ t, p.task t ∧ (m.apply s).remote? j =
        some { store with attempt := some (store.attempt.getD [] ++ [t]) }) ∨
      (p.unlink j ∧ (m.apply s).remote? j = some { store with attempt := none })) := by
  cases m with
  | fill i store =>
    left
    simp only [Move.apply]
    split
    · next hlike => exact remote?_setStore_resembling hlike j
    · rfl
  | join i t =>
    simp only [Move.apply]
    split
    · next store hstore =>
      rw [remote?_setStore_redis hstore]
      split
      · next hj =>
        subst hj
        exact Or.inr ⟨store, remote?_eq_some_iff.mpr hstore, Or.inl ⟨hm.1, t, hm.2, rfl⟩⟩
      · exact Or.inl rfl
    · exact Or.inl rfl
  | unlink i =>
    simp only [Move.apply]
    split
    · next store hstore =>
      rw [remote?_setStore_redis hstore]
      split
      · next hj =>
        subst hj
        exact Or.inr ⟨store, remote?_eq_some_iff.mpr hstore, Or.inr ⟨hm, rfl⟩⟩
      · exact Or.inl rfl
    · exact Or.inl rfl
  | consume | setInterval =>
    left
    simp only [Move.apply]
    split <;> rfl
  | _ => exact Or.inl rfl

theorem Moves.fixed?_eq {p : Scope α} {s s' : Deployment α} (h : Moves p s s') (j : StoreId) :
    s'.fixed? j = s.fixed? j := by
  induction h with
  | refl => rfl
  | tail m _ hm ih =>
    rw [← ih]
    unfold fixed?
    obtain heq | ⟨store, hstore, ⟨-, t, -, heq⟩ | ⟨-, heq⟩⟩ := m.remote?_apply hm _ j
    · rw [heq]
    · rw [heq, hstore]
      rfl
    · rw [heq, hstore]
      rfl

theorem Moves.attempt?_eq {p : Scope α} {s s' : Deployment α} (h : Moves p s s') {j : StoreId}
    (hlink : ¬p.link j) (hunlink : ¬p.unlink j) : s'.attempt? j = s.attempt? j := by
  induction h with
  | refl => rfl
  | tail m _ hm ih =>
    rw [← ih]
    unfold attempt?
    obtain heq | ⟨store, -, ⟨hj, -⟩ | ⟨hj, -⟩⟩ := m.remote?_apply hm _ j
    · rw [heq]
    · exact absurd hj hlink
    · exact absurd hj hunlink

/-- While an attempt to connect is under way, its waiting line only grows. -/
theorem Moves.attempt?_grows {p : Scope α} {s s' : Deployment α} (h : Moves p s s') {j : StoreId}
    (hunlink : ¬p.unlink j) {line : List TaskId} (hline : s.attempt? j = some line) :
    ∃ more, s'.attempt? j = some (line ++ more) ∧ ∀ t ∈ more, p.task t := by
  induction h with
  | refl => exact ⟨[], by simpa using hline, by simp⟩
  | @tail s' m _ hm ih =>
    obtain ⟨more, hmore, htask⟩ := ih
    obtain ⟨store, hstore, hattempt⟩ := Option.bind_eq_some_iff.mp hmore
    unfold attempt?
    obtain heq | ⟨store', hstore', ⟨-, t, ht, heq⟩ | ⟨hj, -⟩⟩ := m.remote?_apply hm s' j
    · exact ⟨more, by rw [heq]; exact hmore, htask⟩
    · rw [hstore] at hstore'
      cases hstore'
      refine ⟨more ++ [t], by simp [heq, hattempt], fun u hu => ?_⟩
      rcases List.mem_append.mp hu with hold | hnew
      · exact htask u hold
      · exact List.mem_singleton.mp hnew ▸ ht
    · exact absurd hj hunlink

/-! Clock and signals -/

theorem Move.clock_apply (m : Move α) (s : Deployment α) :
    ((m.apply s).clockwork, (m.apply s).clock) = (s.clockwork, s.clock) := by
  cases m with
  | fill | join | unlink | consume | setInterval =>
    simp only [Move.apply]
    split <;> rfl
  | _ => rfl

theorem Moves.clocks_eq {p : Scope α} {s s' : Deployment α} (h : Moves p s s') :
    (s'.clockwork, s'.clock) = (s.clockwork, s.clock) := by
  induction h with
  | refl => rfl
  | tail m _ _ ih => exact (m.clock_apply _).trans ih

theorem Moves.clockwork_eq {p : Scope α} {s s' : Deployment α} (h : Moves p s s') :
    s'.clockwork = s.clockwork := congrArg Prod.fst h.clocks_eq

theorem Moves.clock_eq {p : Scope α} {s s' : Deployment α} (h : Moves p s s') :
    s'.clock = s.clock := congrArg Prod.snd h.clocks_eq

theorem Moves.dueAfter_eq {p : Scope α} {s s' : Deployment α} (h : Moves p s s') :
    s'.dueAfter = s.dueAfter := by
  funext delay
  rw [dueAfter, dueAfter, h.clock_eq, h.clockwork_eq]

theorem Move.isAborted_apply (m : Move α) {p : Scope α} (hm : m.Within p) (s : Deployment α)
    {signal : SignalId} (hsignal : ¬p.signal signal) :
    (m.apply s).isAborted (some signal) = s.isAborted (some signal) := by
  cases m with
  | abortSignal other =>
    have hne : signal ≠ other := fun h => hsignal (h ▸ hm)
    simp [isAborted, Move.apply, hne]
  | fill | join | unlink | consume | setInterval =>
    simp only [Move.apply]
    split <;> rfl
  | _ => rfl

theorem Moves.isAborted_eq {p : Scope α} {s s' : Deployment α} (h : Moves p s s')
    {signal : SignalId} (hsignal : ¬p.signal signal) :
    s'.isAborted (some signal) = s.isAborted (some signal) := by
  induction h with
  | refl => rfl
  | tail m _ hm ih => exact (m.isAborted_apply hm _ hsignal).trans ih

/-! Tasks -/

theorem Move.tasks_apply (m : Move α) {p : Scope α} (hm : m.Within p) (s : Deployment α)
    {t : TaskId} (ht : ¬p.task t) (hlt : t < s.tasks.length) :
    (m.apply s).tasks[t]? = s.tasks[t]? := by
  have hmodify : ∀ u progress, p.task u → (s.setProgress u progress).tasks[t]? = s.tasks[t]? := by
    intro u progress hu
    have hne : u ≠ t := fun h => ht (h ▸ hu)
    simp [Deployment.setProgress, hne]
  cases m with
  | setProgress u progress => exact hmodify u progress hm
  | settle u settlement => exact hmodify u .ended hm.1
  | newTask store purpose => exact List.getElem?_append_left hlt
  | fill | join | unlink | consume | setInterval =>
    simp only [Move.apply]
    split <;> rfl
  | _ => rfl

theorem Moves.tasks_eq {p : Scope α} {s s' : Deployment α} (h : Moves p s s') {t : TaskId}
    (ht : ¬p.task t) (hlt : t < s.tasks.length) : s'.tasks[t]? = s.tasks[t]? := by
  induction h with
  | refl => rfl
  | tail m hmoves hm ih =>
    exact (m.tasks_apply hm _ ht (Nat.lt_of_lt_of_le hlt hmoves.tasks_length_le)).trans ih

/-- What is known of a task apart from its progress never changes. -/
theorem Move.map_tasks_apply {β : Type} {f : Task α → β}
    (hf : ∀ task progress, f { task with progress } = f task) (m : Move α) (s : Deployment α)
    {t : TaskId} (hlt : t < s.tasks.length) :
    (m.apply s).tasks[t]?.map f = s.tasks[t]?.map f := by
  have hmodify : ∀ u progress, (s.setProgress u progress).tasks[t]?.map f = s.tasks[t]?.map f := by
    intro u progress
    rw [Deployment.setProgress, List.getElem?_modify]
    by_cases hu : u = t <;> cases s.tasks[t]? <;> simp [hu, hf]
  cases m with
  | setProgress u progress => exact hmodify u progress
  | settle u settlement => exact hmodify u .ended
  | newTask store purpose => exact congrArg (Option.map f) (List.getElem?_append_left hlt)
  | fill | join | unlink | consume | setInterval =>
    simp only [Move.apply]
    split <;> rfl
  | _ => rfl

theorem Moves.map_tasks_eq {β : Type} {f : Task α → β}
    (hf : ∀ task progress, f { task with progress } = f task) {p : Scope α} {s s' : Deployment α}
    (h : Moves p s s') {t : TaskId} (hlt : t < s.tasks.length) :
    s'.tasks[t]?.map f = s.tasks[t]?.map f := by
  induction h with
  | refl => rfl
  | tail m hmoves _ ih =>
    exact (m.map_tasks_apply hf _ (Nat.lt_of_lt_of_le hlt hmoves.tasks_length_le)).trans ih

/-! Shares

What is said of a task's own work is an update of its share, and what is said of any other work is
that the share stays. -/

section

variable {s : Deployment α} {t u : TaskId}

omit [Scalar α] in
@[simp] theorem ready_post (s : Deployment α) (turns : Nat) (job : Job α) :
    (s.post turns job).ready = job ::ₘ s.ready := by
  simp only [ready, post, List.map_append, List.map_cons, List.map_nil, Multiset.cons_coe]
  exact Multiset.coe_eq_coe.mpr (List.perm_append_singleton job _)

omit [Scalar α] in
theorem share_post_own {job : Job α} (hown : job.owner? = some t) (turns : Nat) :
    (s.post turns job).share t = { s.share t with ready := job ::ₘ (s.share t).ready } := by
  ext1 <;> try rfl
  simp [share, hown]

omit [Scalar α] in
theorem share_post_other {job : Job α} (hother : job.owner? ≠ some t) (turns : Nat) :
    (s.post turns job).share t = s.share t := by
  ext1 <;> try rfl
  simp [share, hother]

@[simp] theorem awaited_setTimer_reply (s : Deployment α) (delay : α) (turns : Nat) (job : Job α) :
    (s.setTimer delay (.reply turns job)).awaited = job ::ₘ s.awaited := by
  simp only [awaited, setTimer, List.filterMap_append, List.filterMap_cons, Timer.reply?,
    List.filterMap_nil, Multiset.cons_coe]
  exact Multiset.coe_eq_coe.mpr (List.perm_append_singleton job _)

theorem awaited_setTimer_other {alarm : Alarm α} (h : ∀ turns job, alarm ≠ .reply turns job)
    (delay : α) : (s.setTimer delay alarm).awaited = s.awaited := by
  have hnone : Timer.reply? ⟨s.dueAfter delay, alarm⟩ = none := by
    cases alarm with
    | reply turns job => exact absurd rfl (h turns job)
    | _ => rfl
  simp [awaited, setTimer, List.filterMap_append, hnone]

theorem share_setTimer_own {job : Job α} (hown : job.owner? = some t) (delay : α) (turns : Nat) :
    (s.setTimer delay (.reply turns job)).share t =
      { s.share t with awaited := job ::ₘ (s.share t).awaited } := by
  ext1 <;> try rfl
  · simp [share, setTimer, Timer.isDeadlineOf]
  · simp [share, hown]

theorem share_setTimer_deadline (delay : α) (milliseconds : String) :
    (s.setTimer delay (.deadline t milliseconds)).share t =
      { s.share t with
        deadlines := (s.share t).deadlines ++
          [⟨s.dueAfter delay, .deadline t milliseconds⟩] } := by
  ext1 <;> try rfl
  · simp [share, setTimer, Timer.isDeadlineOf]
  · simp [share, awaited_setTimer_other]

theorem share_setTimer_other {alarm : Alarm α} (hdeadline : ∀ text, alarm ≠ .deadline t text)
    (hreply : ∀ turns job, alarm = .reply turns job → job.owner? ≠ some t) (delay : α) :
    (s.setTimer delay alarm).share t = s.share t := by
  cases alarm with
  | deadline u text =>
    have hne : u ≠ t := fun h => hdeadline text (h ▸ rfl)
    ext1 <;> try rfl
    · simp [share, setTimer, Timer.isDeadlineOf, hne]
    · simp [share, awaited_setTimer_other]
  | reply turns job =>
    ext1 <;> try rfl
    · simp [share, setTimer, Timer.isDeadlineOf]
    · simp [share, hreply turns job rfl]
  | sweep l name period =>
    ext1 <;> try rfl
    · simp [share, setTimer, Timer.isDeadlineOf]
    · simp [share, awaited_setTimer_other]

omit [Scalar α] in
@[simp] theorem share_setProgress (progress : Progress α) :
    (s.setProgress u progress).share t = s.share t := rfl

omit [Scalar α] in
theorem share_settle_own (settlement : Settlement α) :
    (s.settle t settlement).share t =
      { s.share t with settled := (s.share t).settled ++ [settlement] } := by
  ext1 <;> try rfl
  simp [share, settle, setProgress]

omit [Scalar α] in
theorem share_settle_other (hne : u ≠ t) (settlement : Settlement α) :
    (s.settle u settlement).share t = s.share t := by
  ext1 <;> try rfl
  simp [share, settle, setProgress, hne]

omit [Scalar α] in
theorem share_listen_own (signal : SignalId) :
    { s with listeners := s.listeners ++ [(signal, t)] }.share t =
      { s.share t with listeners := (s.share t).listeners ++ [signal] } := by
  ext1 <;> try rfl
  simp [share]

omit [Scalar α] in
theorem share_listen_other (hne : u ≠ t) (signal : SignalId) :
    { s with listeners := s.listeners ++ [(signal, u)] }.share t = s.share t := by
  ext1 <;> try rfl
  simp [share, hne]

omit [Scalar α] in
/-- Whatever timers are taken away, as long as no reply is among them. -/
theorem awaited_filter {keep : Timer α → Bool}
    (hkeep : ∀ timer, timer.reply?.isSome → keep timer = true) (timers : List (Timer α)) :
    (timers.filter keep).filterMap Timer.reply? = timers.filterMap Timer.reply? := by
  induction timers with
  | nil => rfl
  | cons timer timers ih =>
    cases hreply : timer.reply? with
    | none =>
      rw [List.filter_cons]
      split <;> simp [hreply, ih]
    | some job => simp [hkeep timer (by simp [hreply]), hreply, ih]

omit [Scalar α] in
theorem awaited_release (s : Deployment α) (u : TaskId) : (s.release u).awaited = s.awaited := by
  have hkeep : ∀ timer : Timer α, timer.reply?.isSome → (!timer.isDeadlineOf u) = true := by
    rintro ⟨due, alarm⟩ h
    cases alarm <;> simp_all [Timer.reply?, Timer.isDeadlineOf]
  exact congrArg (fun jobs : List (Job α) => (jobs : Multiset (Job α)))
    (awaited_filter hkeep s.timers)

omit [Scalar α] in
theorem share_release_own :
    (s.release t).share t = { s.share t with deadlines := [], listeners := [] } := by
  ext1 <;> try rfl
  · simp [share, release]
  · simp [share, release]
  · simp [share, awaited_release]

omit [Scalar α] in
theorem share_release_other (hne : u ≠ t) : (s.release u).share t = s.share t := by
  have hkeep : ∀ timer : Timer α, timer.isDeadlineOf t = true →
      (!timer.isDeadlineOf u) = true := by
    rintro ⟨due, alarm⟩ h
    cases alarm <;> simp_all [Timer.isDeadlineOf]
    exact Ne.symm hne
  ext1 <;> try rfl
  · simp only [share, release, List.filter_filter]
    exact List.filter_congr fun timer _ => by
      cases h : timer.isDeadlineOf t with
      | true => simpa using hkeep timer h
      | false => rfl
  · simp only [share, release, List.filter_filter]
    congr 1
    exact List.filter_congr fun l _ => by
      by_cases h : l.2 = t <;> simp [h, Ne.symm hne]
  · simp [share, awaited_release]

omit [Scalar α] in
theorem share_setStore_redis {i : StoreId} {old : Store α} (hold : s.stores[i]? = some old)
    (store : RedisStore α) :
    (s.setStore i (.redis store)).share t =
      { s.share t with
        queued := fun j =>
          if j = i then (store.attempt.getD []).count t else (s.share t).queued j } := by
  ext1 <;> try rfl
  funext j
  simp only [share, waiters, attempt?, remote?_setStore_redis hold]
  split <;> rfl

omit [Scalar α] in
theorem awaited_removeInterval (s : Deployment α) (name : String) :
    (s.removeInterval name).awaited = s.awaited := by
  refine congrArg (fun jobs : List (Job α) => (jobs : Multiset (Job α)))
    (awaited_filter (fun timer h => ?_) s.timers)
  obtain ⟨due, alarm⟩ := timer
  cases alarm <;> simp_all [Timer.reply?]

omit [Scalar α] in
theorem share_removeInterval (name : String) : (s.removeInterval name).share t = s.share t := by
  ext1 <;> try rfl
  · simp only [share, removeInterval, List.filter_filter]
    exact List.filter_congr fun timer _ => by
      obtain ⟨due, alarm⟩ := timer
      cases alarm <;> simp [Timer.isDeadlineOf]
  · simp [share, awaited_removeInterval]

end

theorem Move.share_apply (m : Move α) {p : Scope α} (hm : m.Within p) {s : Deployment α}
    {t : TaskId} (ht : ¬p.task t) (hjob : ∀ job, p.job job → job.owner? ≠ some t)
    (hunlink : ∀ i, p.unlink i → (s.share t).queued i = 0) :
    (m.apply s).share t = s.share t := by
  have hne : ∀ {u}, p.task u → u ≠ t := fun hu h => ht (h ▸ hu)
  have hqueued : ∀ j, ((m.apply s).waiters j).count t = (s.waiters j).count t := by
    intro j
    unfold waiters attempt?
    obtain heq | ⟨store, hstore, ⟨-, u, hu, heq⟩ | ⟨hj, heq⟩⟩ := m.remote?_apply hm s j
    · rw [heq]
    · simp [heq, hstore, hne hu]
    · have hnone := hunlink j hj
      simp only [share, waiters, attempt?, hstore, Option.bind_some] at hnone
      simp [heq, hstore, hnone]
  cases m with
  | post turns job => exact share_post_other (hjob job hm.2) turns
  | setTimer delay alarm =>
    refine share_setTimer_other (fun text h => ?_) (fun turns job h => ?_) delay
    · subst h
      exact ht hm
    · subst h
      exact hjob job hm.2
  | settle u settlement => exact share_settle_other (hne hm.1) settlement
  | listen signal u => exact share_listen_other (hne hm) signal
  | release u => exact share_release_other (hne hm)
  | removeInterval name => exact share_removeInterval name
  | fill | join | unlink =>
    ext1
    case queued => exact funext hqueued
    all_goals
      simp only [Move.apply]
      split <;> rfl
  | consume | setInterval =>
    simp only [Move.apply]
    split <;> rfl
  | _ => rfl

/-- Moves for other tasks leave the share of a task alone. -/
theorem Moves.share_eq {p : Scope α} {s s' : Deployment α} (h : Moves p s s') {t : TaskId}
    (ht : ¬p.task t) (hjob : ∀ job, p.job job → job.owner? ≠ some t)
    (hunlink : ∀ i, p.unlink i → (s.share t).queued i = 0) : s'.share t = s.share t := by
  induction h with
  | refl => rfl
  | tail m _ hm ih =>
    rw [← ih]
    exact m.share_apply hm ht hjob (ih ▸ hunlink)

/-! Events that concern a task -/

omit [Scalar α] in
theorem mem_listeners_share {s : Deployment α} {t : TaskId} {signal : SignalId} :
    signal ∈ (s.share t).listeners ↔ (signal, t) ∈ s.listeners := by
  simp [share]

omit [Scalar α] in
theorem queued_share (s : Deployment α) (t : TaskId) (i : StoreId) :
    (s.share t).queued i = (s.waiters i).count t := rfl

/-- The attempt of a store to connect is over, and nobody has been told yet. -/
def unlinked (s : Deployment α) (i : StoreId) (store : RedisStore α) (status : LinkStatus) :
    Deployment α :=
  (s.setLinkStatus store.client status).setStore i (.redis { store with attempt := none })

omit [Scalar α] in
theorem share_unlinked {s : Deployment α} {i : StoreId} {store : RedisStore α}
    (hstore : s.stores[i]? = some (.redis store)) (status : LinkStatus) (t : TaskId) :
    (s.unlinked i store status).share t =
      { s.share t with queued := fun k => if k = i then 0 else (s.share t).queued k } :=
  share_setStore_redis (s := s.setLinkStatus store.client status) hstore _

omit [Scalar α] in
/-- Everyone in the line is woken, a task with one place in it once. -/
theorem exists_linkSettled_eq {s : Deployment α} {t : TaskId} {i : StoreId} {store : RedisStore α}
    (hstore : s.stores[i]? = some (.redis store)) (hqueued : (s.share t).queued i = 1)
    (outcome : Outcome α) (status : LinkStatus) :
    ∃ before later : List TaskId, t ∉ before ∧ t ∉ later ∧
      s.linkSettled i outcome status = later.foldl (wake outcome)
        (wake outcome (before.foldl (wake outcome) (s.unlinked i store status)) t) := by
  rw [queued_share, waiters_of_remote? (remote?_eq_some_iff.mpr hstore)] at hqueued
  obtain ⟨before, later, hline, hbefore, hlater⟩ := exists_append_of_count_eq_one hqueued
  refine ⟨before, later, hbefore, hlater, ?_⟩
  simp only [linkSettled, hstore, hline, List.foldl_append, List.foldl_cons]
  rfl

/-- An event has to do with a task: it starts the task, carries on with its work, ends an attempt
that it waits for, or is heard by it. -/
def Concerns (s : Deployment α) (t : TaskId) : Event α → Prop
  | .start _ => s.tasks.length = t
  | .work n => ∃ turns job, s.agenda[n]? = some (turns, job) ∧
      (job.owner? = some t ∨ ∃ i, job.link? = some i ∧ 0 < (s.share t).queued i)
  | .alarm n => ∃ timer, s.timers[n]? = some timer ∧
      (timer.isDeadlineOf t = true ∨ ∃ job, timer.reply? = some job ∧ job.owner? = some t)
  | .abort signal => signal ∈ (s.share t).listeners
  | .hangUp u => .request u ∈ (s.share t).listeners
  | _ => False

omit [Scalar α] in
theorem owner?_of_isOfCheck {job : Job α} {t : TaskId} (h : job.IsOfCheck t) :
    job.owner? = some t := by
  cases job <;> simp_all [Job.IsOfCheck, Job.owner?]

omit [Scalar α] in
theorem owner?_of_isOfBoot {job : Job α} {t : TaskId} (h : job.IsOfBoot t) :
    job.owner? = some t := by
  cases job <;> simp_all [Job.IsOfBoot, Job.owner?]

omit [Scalar α] in
theorem owner?_of_link? {job : Job α} {i : StoreId} (h : job.link? = some i) :
    job.owner? = none := by
  cases job <;> simp_all [Job.link?, Job.owner?]

omit [Scalar α] in
/-- A job of another task neither moves this one nor leaves work to it. -/
theorem jobScope_other {s : Deployment α} {t : TaskId} {job : Job α} (hother : job.owner? ≠ some t)
    (hlink : ∀ i, job.link? = some i → (s.share t).queued i = 0) :
    ¬(s.jobScope job).task t ∧ (∀ next, (s.jobScope job).job next → next.owner? ≠ some t) ∧
      ∀ i, (s.jobScope job).unlink i → (s.share t).queued i = 0 := by
  cases job with
  | linkSettled i outcome status =>
    refine ⟨id, ?_, ?_⟩
    · rintro next ⟨u, hu, hnext⟩ hown
      have hne : u ≠ t := by
        rintro rfl
        exact List.count_eq_zero.mp (hlink i rfl) hu
      rcases hnext with rfl | ⟨-, rfl⟩ <;> exact hne (Option.some.inj hown)
    · rintro j rfl
      exact hlink _ rfl
  | evaluate u =>
    refine ⟨id, ?_, fun _ h => h.elim⟩
    rintro next ⟨outcome, rfl⟩
    exact hother
  | answer u outcome =>
    refine ⟨fun h => hother (congrArg some h.symm), ?_, fun _ h => h.elim⟩
    rintro next rfl
    exact hother
  | resume u =>
    refine ⟨fun h => hother (congrArg some h.symm), ?_, fun _ h => h.elim⟩
    rintro next (hboot | ⟨verdict, rfl⟩)
    · exact owner?_of_isOfBoot hboot ▸ hother
    · exact hother
  | conclude u verdict =>
    exact ⟨fun h => hother (congrArg some h.symm), fun _ h => h.elim, fun _ h => h.elim⟩
  | started u outcome =>
    exact ⟨fun h => hother (congrArg some h.symm), fun _ h => h.elim, fun _ h => h.elim⟩
  | closed u outcome =>
    exact ⟨fun h => hother (congrArg some h.symm), fun _ h => h.elim, fun _ h => h.elim⟩

omit [Scalar α] in
theorem exists_eraseIdx_eq {β : Type} {l : List β} {n : Nat} {x : β} (h : l[n]? = some x) :
    ∃ before later, l = before ++ x :: later ∧ l.eraseIdx n = before ++ later := by
  obtain ⟨hn, rfl⟩ := List.getElem?_eq_some_iff.mp h
  refine ⟨l.take n, l.drop (n + 1), ?_, List.eraseIdx_eq_take_drop_succ l n⟩
  rw [← List.drop_eq_getElem_cons hn, List.take_append_drop]

omit [Scalar α] in
theorem ready_taken {s : Deployment α} {n turns : Nat} {job : Job α}
    (h : s.agenda[n]? = some (turns, job)) : s.ready = job ::ₘ (s.taken (.work n)).ready := by
  obtain ⟨before, later, hagenda, herase⟩ := exists_eraseIdx_eq h
  simp only [ready, taken, herase]
  simp only [hagenda, List.map_append, List.map_cons, Multiset.cons_coe]
  exact Multiset.coe_eq_coe.mpr List.perm_middle

omit [Scalar α] in
theorem awaited_taken {s : Deployment α} {n : Nat} {timer : Timer α} {job : Job α}
    (h : s.timers[n]? = some timer) (hreply : timer.reply? = some job) :
    s.awaited = job ::ₘ (s.taken (.alarm n)).awaited := by
  obtain ⟨before, later, htimers, herase⟩ := exists_eraseIdx_eq h
  simp only [awaited, taken, herase]
  simp only [htimers, List.filterMap_append, List.filterMap_cons, hreply, Multiset.cons_coe]
  exact Multiset.coe_eq_coe.mpr List.perm_middle

omit [Scalar α] in
theorem share_taken_work_own {s : Deployment α} {t : TaskId} {n turns : Nat} {job : Job α}
    (h : s.agenda[n]? = some (turns, job)) (hown : job.owner? = some t) :
    s.share t = { (s.taken (.work n)).share t with
      ready := job ::ₘ ((s.taken (.work n)).share t).ready } := by
  ext1 <;> try rfl
  simp [share, ready_taken h, hown]

omit [Scalar α] in
theorem mem_share_ready {s : Deployment α} {t : TaskId} {job : Job α}
    (hown : job.owner? = some t) : job ∈ (s.share t).ready ↔ job ∈ s.ready := by
  rw [share, Multiset.mem_filter]
  exact and_iff_left hown

omit [Scalar α] in
theorem mem_ready_share {s : Deployment α} {t : TaskId} {n turns : Nat} {job : Job α}
    (h : s.agenda[n]? = some (turns, job)) (hown : job.owner? = some t) :
    job ∈ (s.share t).ready := by
  have hready : (s.share t).ready = job ::ₘ ((s.taken (.work n)).share t).ready :=
    congrArg Share.ready (share_taken_work_own h hown)
  exact hready ▸ Multiset.mem_cons_self job _

omit [Scalar α] in
theorem share_taken_work_other {s : Deployment α} {t : TaskId} {n turns : Nat} {job : Job α}
    (h : s.agenda[n]? = some (turns, job)) (hother : job.owner? ≠ some t) :
    (s.taken (.work n)).share t = s.share t := by
  ext1 <;> try rfl
  simp [share, ready_taken h, hother]

omit [Scalar α] in
theorem share_taken_reply {s : Deployment α} {t : TaskId} {n : Nat} {timer : Timer α} {job : Job α}
    (h : s.timers[n]? = some timer) (hreply : timer.reply? = some job)
    (hown : job.owner? = some t) :
    s.share t = { (s.taken (.alarm n)).share t with
      awaited := job ::ₘ ((s.taken (.alarm n)).share t).awaited } := by
  obtain ⟨before, later, htimers, herase⟩ := exists_eraseIdx_eq h
  have hnot : timer.isDeadlineOf t = false := by
    obtain ⟨due, alarm⟩ := timer
    cases alarm <;> simp_all [Timer.reply?, Timer.isDeadlineOf]
  ext1 <;> try rfl
  · simp only [share, taken, herase]
    simp [htimers, hnot]
  · simp [share, awaited_taken h hreply, hown]

omit [Scalar α] in
theorem mem_awaited_share {s : Deployment α} {t : TaskId} {n : Nat} {timer : Timer α} {job : Job α}
    (h : s.timers[n]? = some timer) (hreply : timer.reply? = some job)
    (hown : job.owner? = some t) : job ∈ (s.share t).awaited := by
  have hawaited : (s.share t).awaited = job ::ₘ ((s.taken (.alarm n)).share t).awaited :=
    congrArg Share.awaited (share_taken_reply h hreply hown)
  exact hawaited ▸ Multiset.mem_cons_self job _

omit [Scalar α] in
theorem mem_deadlines_share {s : Deployment α} {t : TaskId} {n : Nat} {timer : Timer α}
    (h : s.timers[n]? = some timer) (hdeadline : timer.isDeadlineOf t = true) :
    timer ∈ (s.share t).deadlines :=
  List.mem_filter.mpr ⟨List.mem_of_getElem? h, hdeadline⟩

omit [Scalar α] in
theorem awaited_taken_other {s : Deployment α} {n : Nat} {timer : Timer α}
    (h : s.timers[n]? = some timer) (hreply : timer.reply? = none) :
    (s.taken (.alarm n)).awaited = s.awaited := by
  obtain ⟨before, later, htimers, herase⟩ := exists_eraseIdx_eq h
  simp only [awaited, taken, herase]
  simp [htimers, hreply, List.filterMap_append]

omit [Scalar α] in
/-- Taking a deadline away leaves the rest of the share. -/
theorem share_taken_deadline {s : Deployment α} {t : TaskId} {n : Nat} {timer : Timer α}
    (h : s.timers[n]? = some timer) (hreply : timer.reply? = none) :
    (s.taken (.alarm n)).share t =
      { s.share t with deadlines := ((s.taken (.alarm n)).share t).deadlines } := by
  ext1 <;> try rfl
  simp [share, awaited_taken_other h hreply]

omit [Scalar α] in
theorem share_taken_alarm_other {s : Deployment α} {t : TaskId} {n : Nat} {timer : Timer α}
    (h : s.timers[n]? = some timer) (hdeadline : timer.isDeadlineOf t = false)
    (hreply : ∀ job, timer.reply? = some job → job.owner? ≠ some t) :
    (s.taken (.alarm n)).share t = s.share t := by
  obtain ⟨before, later, htimers, herase⟩ := exists_eraseIdx_eq h
  ext1 <;> try rfl
  · simp only [share, taken, herase]
    simp [htimers, hdeadline]
  · cases hjob : timer.reply? with
    | none => simp [share, awaited_taken_other h hjob]
    | some job => simp [share, awaited_taken h hjob, hreply job hjob]

variable [Textual α]

omit [Scalar α] [Textual α] in
theorem scope_work_other {s : Deployment α} {t : TaskId} {n : Nat}
    (hother : ¬s.Concerns t (.work n)) :
    (s.taken (.work n)).share t = s.share t ∧ ¬(s.scope (.work n)).task t ∧
      (∀ job, (s.scope (.work n)).job job → job.owner? ≠ some t) ∧
      ∀ i, (s.scope (.work n)).unlink i → (s.share t).queued i = 0 := by
  simp only [scope]
  cases hentry : s.agenda[n]? with
  | none =>
    refine ⟨?_, id, fun _ h => h.elim, fun _ h => h.elim⟩
    simp only [taken, List.eraseIdx_of_length_le (List.getElem?_eq_none_iff.mp hentry)]
  | some entry =>
    obtain ⟨turns, job⟩ := entry
    have howner : job.owner? ≠ some t := fun h => hother ⟨turns, job, hentry, Or.inl h⟩
    refine ⟨share_taken_work_other hentry howner, ?_⟩
    cases turns with
    | zero =>
      exact jobScope_other howner fun i hi => Nat.eq_zero_of_not_pos fun hpos =>
        hother ⟨0, job, hentry, Or.inr ⟨i, hi, hpos⟩⟩
    | succ turns => exact ⟨id, fun _ h => h ▸ howner, fun _ h => h.elim⟩

omit [Scalar α] [Textual α] in
theorem scope_alarm_other {s : Deployment α} {t : TaskId} {n : Nat}
    (hother : ¬s.Concerns t (.alarm n)) :
    (s.taken (.alarm n)).share t = s.share t ∧ ¬(s.scope (.alarm n)).task t ∧
      (∀ job, (s.scope (.alarm n)).job job → job.owner? ≠ some t) ∧
      ∀ i, (s.scope (.alarm n)).unlink i → (s.share t).queued i = 0 := by
  simp only [scope]
  cases htimer : s.timers[n]? with
  | none =>
    refine ⟨?_, id, fun _ h => h.elim, fun _ h => h.elim⟩
    simp only [taken, List.eraseIdx_of_length_le (List.getElem?_eq_none_iff.mp htimer)]
  | some timer =>
    have hdeadline : timer.isDeadlineOf t = false :=
      Bool.eq_false_iff.mpr fun h => hother ⟨timer, htimer, Or.inl h⟩
    have hreply : ∀ job, timer.reply? = some job → job.owner? ≠ some t :=
      fun job hjob hown => hother ⟨timer, htimer, Or.inr ⟨job, hjob, hown⟩⟩
    refine ⟨share_taken_alarm_other htimer hdeadline hreply, ?_⟩
    obtain ⟨due, alarm⟩ := timer
    cases alarm with
    | deadline u text =>
      have hne : u ≠ t := by simpa [Timer.isDeadlineOf] using hdeadline
      refine ⟨Ne.symm hne, ?_, fun _ h => h.elim⟩
      rintro job rfl
      exact fun h => hne (Option.some.inj h)
    | reply turns job => exact ⟨id, fun _ h => h ▸ hreply job rfl, fun _ h => h.elim⟩
    | sweep l name period => exact ⟨id, fun _ h => h.elim, fun _ h => h.elim⟩

omit [Scalar α] [Textual α] in
/-- An event that does not concern a task keeps clear of it. -/
theorem scope_other {s : Deployment α} {t : TaskId} {e : Event α} (hother : ¬s.Concerns t e) :
    (s.taken e).share t = s.share t ∧ ¬(s.scope e).task t ∧
      (∀ job, (s.scope e).job job → job.owner? ≠ some t) ∧
      ∀ i, (s.scope e).unlink i → (s.share t).queued i = 0 := by
  have hdeaf : ∀ signal, signal ∉ (s.share t).listeners → (∀ job : Job α,
      (∃ u, (signal, u) ∈ s.listeners ∧ job = .resume u) → job.owner? ≠ some t) := by
    rintro signal hdeaf job ⟨u, hu, rfl⟩ hown
    exact hdeaf (mem_listeners_share.mpr (Option.some.inj hown ▸ hu))
  cases e with
  | start call =>
    refine ⟨rfl, Ne.symm hother, ?_, fun _ h => h.elim⟩
    rintro job (hcheck | hboot | ⟨outcome, rfl, -⟩ | ⟨i, -, hlink⟩)
    · exact owner?_of_isOfCheck hcheck ▸ fun h => hother (Option.some.inj h)
    · exact owner?_of_isOfBoot hboot ▸ fun h => hother (Option.some.inj h)
    · exact fun h => hother (Option.some.inj h)
    · exact owner?_of_link? hlink ▸ nofun
  | work n => exact scope_work_other hother
  | alarm n => exact scope_alarm_other hother
  | abort signal =>
    exact ⟨rfl, fun h => hother (mem_listeners_share.mpr h), hdeaf signal hother, fun _ h => h.elim⟩
  | hangUp u =>
    exact ⟨rfl, fun h => hother (mem_listeners_share.mpr h), hdeaf _ hother, fun _ h => h.elim⟩
  | _ => exact ⟨rfl, id, fun _ h => h.elim, fun _ h => h.elim⟩

omit [Scalar α] [Textual α] in
@[simp] theorem tasks_taken (s : Deployment α) (e : Event α) : (s.taken e).tasks = s.tasks := by
  cases e <;> rfl

/-- What does not concern a task leaves it alone. -/
theorem share_happen {s : Deployment α} (hs : s.Prompt) {t : TaskId} {e : Event α}
    (hother : ¬s.Concerns t e) : (s.happen e).share t = s.share t := by
  obtain ⟨htaken, htask, hjob, hunlink⟩ := scope_other hother
  exact ((happen_moves hs e).share_eq htask hjob (htaken ▸ hunlink)).trans htaken

theorem tasks_length_happen {s : Deployment α} (hs : s.Prompt) (e : Event α) :
    s.tasks.length ≤ (s.happen e).tasks.length := by
  have hgrows := (happen_moves hs e).tasks_length_le
  rwa [tasks_taken] at hgrows

/-- Only a call begins a task. -/
theorem tasks_length_happen_eq {s : Deployment α} (hs : s.Prompt) {e : Event α}
    (he : ∀ call, e ≠ .start call) : (s.happen e).tasks.length = s.tasks.length := by
  have hsame := (happen_moves hs e).tasks_length_eq (not_begins_of_not_start he)
  rwa [tasks_taken] at hsame

omit [Scalar α] [Textual α] in
/-- What has no share is concerned only by its own start. -/
theorem Concerns.eq_start {s : Deployment α} {t : TaskId} (ht : s.share t = {})
    {e : Event α} (h : s.Concerns t e) : s.tasks.length = t ∧ ∃ call, e = .start call := by
  cases e with
  | start call => exact ⟨h, call, rfl⟩
  | work n =>
    obtain ⟨turns, job, hentry, hown | ⟨i, -, hqueued⟩⟩ := h
    · have hready := mem_ready_share hentry hown
      rw [ht] at hready
      exact absurd hready (Multiset.notMem_zero job)
    · rw [ht] at hqueued
      exact absurd hqueued (Nat.lt_irrefl 0)
  | alarm n =>
    obtain ⟨timer, htimer, hdeadline | ⟨job, hreply, hown⟩⟩ := h
    · have hmem := mem_deadlines_share htimer hdeadline
      rw [ht] at hmem
      cases hmem
    · have hawaited := mem_awaited_share htimer hreply hown
      rw [ht] at hawaited
      exact absurd hawaited (Multiset.notMem_zero job)
  | abort signal =>
    rw [Concerns, ht] at h
    cases h
  | hangUp u =>
    rw [Concerns, ht] at h
    cases h
  | _ => exact h.elim

omit [Scalar α] [Textual α] in
theorem Fresh.share_eq {s : Deployment α} (h : s.Fresh) (t : TaskId) : s.share t = {} := by
  ext1
  · simp [share, h.timers]
  · simp [share, h.listeners]
  · simp [share, h.settled]
  · simp [share, ready, h.agenda]
  · simp [share, awaited, h.timers]
  · funext i
    simp [share, waiters, h.attempt i]

/-- A task that has not been started has nothing. -/
theorem Reachable.share_eq {s : Deployment α} (h : s.Reachable) {t : TaskId}
    (ht : s.tasks.length ≤ t) : s.share t = {} := by
  have hall : s.Prompt ∧ ∀ t, s.tasks.length ≤ t → s.share t = {} := by
    refine h.induction (P := fun s => s.Prompt ∧ ∀ t, s.tasks.length ≤ t → s.share t = {})
      (fun s₀ hfresh => ⟨hfresh.prompt, fun t _ => hfresh.share_eq t⟩) ?_
    rintro s e ⟨hprompt, hnothing⟩
    refine ⟨hprompt.happen e, fun t ht => ?_⟩
    have hbefore := hnothing t (Nat.le_trans (tasks_length_happen hprompt e) ht)
    by_cases hconcerns : s.Concerns t e
    · obtain ⟨rfl, call, rfl⟩ := hconcerns.eq_start hbefore
      exact absurd ht (Nat.not_le_of_lt (tasks_length_start s call).ge)
    · exact (share_happen hprompt hconcerns).trans hbefore
  exact hall.2 t ht

/-- No work is late, and a task that begins next finds nothing of its own. -/
structure Clear (s : Deployment α) : Prop where
  prompt : s.Prompt
  share : s.share s.tasks.length = {}

theorem Reachable.clear {s : Deployment α} (h : s.Reachable) : s.Clear :=
  ⟨h.prompt, h.share_eq (Nat.le_refl _)⟩

end

end Deployment

end Admission
