import Admission.Proofs.Deployment.Sending

/-!
One attempt to connect for everybody.

A task that waits for the connection of its store is still: nothing is on its way that would make
the store send a command for it. Only the success of the attempt it waits for ends that. A failure
leaves it still for good, and a check that has not been given up meanwhile is told of the failure.
The next call then opens an attempt of its own.
-/
namespace Admission

/-- A job makes its task send a command, or brings it to that. -/
def Job.Urges {α : Type} (t : TaskId) : Job α → Prop
  | .evaluate u | .answer u (.ok _) => u = t
  | _ => False

theorem Job.owner?_of_urges {α : Type} {job : Job α} {t : TaskId} (h : job.Urges t) :
    job.owner? = some t := by
  cases job with
  | evaluate u => exact congrArg some h
  | answer u outcome =>
    cases outcome with
    | ok answer => exact congrArg some h
    | error fault => exact h.elim
  | _ => exact h.elim

namespace Deployment

variable {α : Type}

/-- The store of a task. -/
def taskStore? (s : Deployment α) (t : TaskId) : Option StoreId := s.tasks[t]?.map Task.store

/-- The store on whose behalf an event acts. -/
def actor? (s : Deployment α) : Event α → Option StoreId
  | .start call => s.storeOf? call
  | .work n => s.agenda[n]?.bind fun entry => entry.2.owner?.bind s.taskStore?
  | _ => none

/-- An event makes a store send a command for a task: the script of a check, or the first command at
startup, which is sent when the task goes on with its connection. -/
def Commands (s : Deployment α) (t : TaskId) (ev : Event α) : Prop :=
  s.act? t ev = some .sends ∨ ∃ n answer, ev = .work n ∧ s.agenda[n]? = some (0, .resume t) ∧
    s.tasks[t]?.map Task.progress = some (.leaving .link (.ok answer))

/-- The connection of a task does not stand yet, as far as the task knows. -/
def Unlinked (s : Deployment α) (t : TaskId) : Prop :=
  ∀ answer, s.tasks[t]?.map Task.progress ≠ some (.leaving .link (.ok answer))

/-- Nothing is on its way that would make a store send a command for a task. -/
structure Still (s : Deployment α) (t : TaskId) : Prop where
  pending : ∀ job ∈ s.pending, ¬job.Urges t
  unlinked : s.Unlinked t

theorem mem_pending_of_agenda {s : Deployment α} {n turns : Nat} {job : Job α}
    (h : s.agenda[n]? = some (turns, job)) : job ∈ s.pending := by
  rw [pending_taken_work h]
  exact Multiset.mem_cons_self job _

theorem mem_pending_of_taken {s : Deployment α} {ev : Event α} {job : Job α}
    (h : job ∈ (s.taken ev).pending) : job ∈ s.pending := by
  cases ev with
  | work n =>
    cases hentry : s.agenda[n]? with
    | none => rwa [taken, List.eraseIdx_of_length_le (List.getElem?_eq_none_iff.mp hentry)] at h
    | some entry =>
      rw [pending_taken_work hentry]
      exact Multiset.mem_cons_of_mem h
  | alarm n =>
    cases htimer : s.timers[n]? with
    | none => rwa [taken, List.eraseIdx_of_length_le (List.getElem?_eq_none_iff.mp htimer)] at h
    | some timer =>
      rw [pending_taken_alarm htimer]
      exact Multiset.mem_add.mpr (Or.inr h)
  | _ => exact h

theorem Still.not_commands {s : Deployment α} {t : TaskId} (h : s.Still t) (ev : Event α) :
    ¬s.Commands t ev := by
  rintro (hact | ⟨n, answer, -, -, hprogress⟩)
  · obtain ⟨n, -, hentry⟩ := exists_of_sends hact
    exact h.pending _ (mem_pending_of_agenda hentry) rfl
  · exact h.unlinked answer hprogress

section

variable [Scalar α]

theorem Moves.mem_pending {p : Scope α} {s s' : Deployment α} (h : Moves p s s') {job : Job α}
    (hmem : job ∈ s'.pending) : job ∈ s.pending ∨ p.job job := by
  obtain ⟨more, hpending, hmore⟩ := h.exists_pending_eq
  rw [hpending] at hmem
  exact (Multiset.mem_add.mp hmem).imp_right (hmore job)

/-! Waiting lines -/

theorem Moves.mem_waiters {p : Scope α} {s s' : Deployment α} (h : Moves p s s') {t : TaskId}
    {i : StoreId} (ht : t ∈ s'.waiters i) : t ∈ s.waiters i ∨ p.link i ∧ p.task t := by
  induction h with
  | refl => exact Or.inl ht
  | @tail s' m _ hm ih =>
    unfold waiters attempt? at ht
    obtain heq | ⟨store, hstore, ⟨hlink, u, hu, heq⟩ | ⟨-, heq⟩⟩ := m.remote?_apply hm s' i
    · exact ih (by rwa [heq] at ht)
    · rw [heq] at ht
      rcases List.mem_append.mp ht with hold | hnew
      · exact ih (by rwa [waiters_of_remote? hstore])
      · exact Or.inr ⟨hlink, List.mem_singleton.mp hnew ▸ hu⟩
    · rw [heq] at ht
      cases ht

theorem Moves.taskStore?_eq {p : Scope α} {s s' : Deployment α} (h : Moves p s s') {t : TaskId}
    (hlt : t < s.tasks.length) : s'.taskStore? t = s.taskStore? t :=
  h.map_tasks_eq (fun _ _ => rfl) hlt

/-! Endings of waits -/

omit [Scalar α] in
theorem Unlinked.setProgress {s : Deployment α} {t : TaskId} (h : s.Unlinked t) (u : TaskId)
    {progress : Progress α} (hne : ∀ answer, progress ≠ .leaving .link (.ok answer)) :
    (s.setProgress u progress).Unlinked t := by
  intro answer
  rw [Deployment.setProgress, List.getElem?_modify]
  by_cases hu : u = t
  · cases htask : s.tasks[t]? <;> simp [hu, hne]
  · simpa [hu] using h answer

omit [Scalar α] in
/-- A wait that does not end well leaves its task without a connection. -/
theorem Unlinked.endWait {s : Deployment α} {t : TaskId} (h : s.Unlinked t) (u : TaskId)
    {outcome? : Option (Outcome α)} (hbad : ∀ answer, outcome? ≠ some (.ok answer)) :
    (s.endWait u outcome?).Unlinked t := by
  unfold Deployment.endWait
  split
  · next stage outcome _ =>
    refine h.setProgress u fun answer heq => hbad answer ?_
    cases heq
    rfl
  · exact h.setProgress u nofun
  · exact h

omit [Scalar α] in
theorem Unlinked.abort {s : Deployment α} {t : TaskId} (h : s.Unlinked t) (signal : SignalId) :
    (s.abort signal).Unlinked t := by
  have hends : ∀ (line : List TaskId) {s : Deployment α}, s.Unlinked t →
      (line.foldl (fun s u => s.endWait u (some (.error .aborted))) s).Unlinked t := by
    intro line
    induction line with
    | nil => exact fun h => h
    | cons u line ih => exact fun h => ih (h.endWait u nofun)
  unfold Deployment.abort
  split
  · exact h
  · exact hends _ h

omit [Scalar α] in
theorem Unlinked.hangUp {s : Deployment α} {t : TaskId} (h : s.Unlinked t) (u : TaskId) :
    (s.hangUp u).Unlinked t := by
  unfold Deployment.hangUp
  split
  · exact Unlinked.abort (s := s.detach u) h (.request u)
  · exact h

variable [Textual α]

omit [Scalar α] in
theorem Unlinked.answer {s : Deployment α} {t : TaskId} (h : s.Unlinked t) (u : TaskId)
    (fault : Fault α) : (s.answer u (.error fault)).Unlinked t := by
  refine h.endWait u fun answer heq => ?_
  obtain ⟨other, -, hother⟩ := Option.map_eq_some_iff.mp heq
  cases hother

/-! Being still -/

theorem Still.of_moves {s : Deployment α} {t : TaskId} (h : s.Still t) {ev : Event α} {p : Scope α}
    (hmoves : Moves p (s.taken ev) (s.happen ev)) (hjob : ∀ job, p.job job → ¬job.Urges t)
    (hunlinked : (s.happen ev).Unlinked t) : (s.happen ev).Still t := by
  refine ⟨fun job hmem => ?_, hunlinked⟩
  obtain hold | hnew := hmoves.mem_pending hmem
  · exact h.pending job (mem_pending_of_taken hold)
  · exact hjob job hnew

theorem Still.of_moves_other {s : Deployment α} {t : TaskId} (h : s.Still t)
    (hlt : t < s.tasks.length) {ev : Event α} {p : Scope α}
    (hmoves : Moves p (s.taken ev) (s.happen ev)) (ht : ¬p.task t)
    (hjob : ∀ job, p.job job → ¬job.Urges t) : (s.happen ev).Still t := by
  refine h.of_moves hmoves hjob fun answer hprogress => ?_
  rw [hmoves.tasks_eq ht (by rwa [tasks_taken]), tasks_taken] at hprogress
  exact h.unlinked answer hprogress

theorem Still.happen_own {s : Deployment α} {t : TaskId} (h : s.Still t) (hs : s.Prompt)
    (hlt : t < s.tasks.length) {n : Nat} {job : Job α} (hentry : s.agenda[n]? = some (0, job))
    (hown : job.owner? = some t) : (s.happen (.work n)).Still t := by
  have hhappen : s.happen (.work n) = (s.taken (.work n)).run job := by
    simp only [Deployment.happen, hentry, taken, turn]
  have hunurged := h.pending job (mem_pending_of_agenda hentry)
  have hmoves := happen_moves hs (.work n)
  simp only [scope, hentry] at hmoves
  have hunlinked : (s.taken (.work n)).Unlinked t := h.unlinked
  -- What could make the task go on with a connection has not come about.
  have hlinking : ∀ {s' : Deployment α}, (s'.isLinking t = true → s' = s.taken (.work n)) →
      s'.Unlinked t := by
    intro s' hsame answer hprogress
    have heq := hsame (by simp only [isLinking, hprogress])
    exact hunlinked answer (heq ▸ hprogress)
  cases job with
  | linkSettled i outcome status => cases hown
  | evaluate u => exact absurd (Option.some.inj hown) hunurged
  | answer u outcome =>
    obtain rfl : u = t := Option.some.inj hown
    cases outcome with
    | ok answer => exact absurd rfl hunurged
    | error fault =>
      refine h.of_moves hmoves (fun next hnext => ?_) (hhappen ▸ hunlinked.answer u fault)
      obtain rfl : next = .resume u := hnext
      exact id
  | resume u =>
    obtain rfl : u = t := Option.some.inj hown
    have hends : Moves (endScope u) (s.taken (.work n)) (s.happen (.work n)) :=
      hhappen ▸ resume_moves_end hunlinked
    refine h.of_moves_other hlt hends id ?_
    rintro next (⟨outcome, rfl⟩ | ⟨verdict, rfl⟩) <;> exact id
  | conclude u verdict =>
    obtain rfl : u = t := Option.some.inj hown
    refine h.of_moves hmoves (fun _ h => h.elim) ?_
    rw [hhappen]
    exact hlinking conclude_of_isLinking
  | started u outcome =>
    obtain rfl : u = t := Option.some.inj hown
    refine h.of_moves hmoves (fun _ h => h.elim) ?_
    rw [hhappen]
    exact hlinking fun hlinking =>
      absurd hlinking (Bool.eq_false_iff.mp (isLinking_started _ u outcome))
  | closed u outcome =>
    obtain rfl : u = t := Option.some.inj hown
    refine h.of_moves hmoves (fun _ h => h.elim) ?_
    rw [hhappen]
    exact hlinking closed_of_isLinking

/-- The failure of an attempt to connect leaves those who wait for it still. -/
theorem Still.happen_link {s : Deployment α} {t : TaskId} (h : s.Still t) (hs : s.Prompt)
    (hlt : t < s.tasks.length) {n : Nat} {i : StoreId} {fault : Fault α} {status : LinkStatus}
    (hentry : s.agenda[n]? = some (0, .linkSettled i (.error fault) status)) :
    (s.happen (.work n)).Still t := by
  have hmoves := happen_moves hs (.work n)
  simp only [scope, hentry] at hmoves
  refine h.of_moves_other hlt hmoves id ?_
  rintro next ⟨u, -, rfl | ⟨⟨answer, hok⟩, -⟩⟩
  · exact id
  · cases hok

theorem Still.happen_work {s : Deployment α} {t : TaskId} (h : s.Still t) (hs : s.Prompt)
    (hlt : t < s.tasks.length) {n : Nat} (hconcerns : s.Concerns t (.work n))
    (hfails : ∀ i answer, s.linkEnd? i (.work n) = some (.ok answer) → t ∉ s.waiters i) :
    (s.happen (.work n)).Still t := by
  have hmoves := happen_moves hs (.work n)
  obtain ⟨turns, job, hentry, hown⟩ := hconcerns
  cases turns with
  | succ turns =>
    -- The work is only put off.
    simp only [scope, hentry] at hmoves
    refine h.of_moves_other hlt hmoves id ?_
    rintro next rfl
    exact h.pending next (mem_pending_of_agenda hentry)
  | zero =>
    obtain hown | ⟨i, hlink, hqueued⟩ := hown
    · exact h.happen_own hs hlt hentry hown
    · cases job with
      | linkSettled k outcome status =>
        obtain rfl : k = i := Option.some.inj hlink
        cases outcome with
        | error fault => exact h.happen_link hs hlt hentry
        | ok answer =>
          have hend : s.linkEnd? k (.work n) = some (.ok answer) := by
            simp [linkEnd?, hentry, Job.linkEnd?]
          rw [queued_share] at hqueued
          exact absurd (List.count_pos_iff.mp hqueued) (hfails k answer hend)
      | _ => cases hlink

theorem Still.happen_alarm {s : Deployment α} {t : TaskId} (h : s.Still t) (hs : s.Prompt)
    (hlt : t < s.tasks.length) {n : Nat} (hconcerns : s.Concerns t (.alarm n)) :
    (s.happen (.alarm n)).Still t := by
  have hmoves := happen_moves hs (.alarm n)
  obtain ⟨⟨due, alarm⟩, htimer, hdeadline | ⟨job, hreply, -⟩⟩ := hconcerns
  · cases alarm with
    | deadline u text =>
      simp only [scope, htimer, Option.map_some] at hmoves
      refine h.of_moves hmoves ?_ ?_
      · rintro next rfl
        exact id
      · simp only [Deployment.happen, htimer, fire]
        exact Unlinked.endWait (s := s.taken (.alarm n)) h.unlinked u (by simp)
    | _ => cases hdeadline
  · cases alarm with
    | reply turns other =>
      obtain rfl := Option.some.inj hreply
      simp only [scope, htimer, Option.map_some] at hmoves
      refine h.of_moves_other hlt hmoves id ?_
      rintro next rfl
      refine h.pending next ?_
      rw [pending_taken_alarm htimer]
      exact Multiset.mem_add.mpr (Or.inl (Multiset.mem_singleton_self _))
    | _ => cases hreply

/-- A task is still until an attempt to connect succeeds that it waits for. -/
theorem Still.happen {s : Deployment α} {t : TaskId} (h : s.Still t) (hs : s.Prompt)
    (hlt : t < s.tasks.length) {ev : Event α}
    (hfails : ∀ i answer, s.linkEnd? i ev = some (.ok answer) → t ∉ s.waiters i) :
    (s.happen ev).Still t := by
  have hmoves := happen_moves hs ev
  by_cases hconcerns : s.Concerns t ev
  · cases ev with
    | start call => exact absurd hconcerns (Nat.ne_of_gt hlt)
    | work n => exact h.happen_work hs hlt hconcerns hfails
    | alarm n => exact h.happen_alarm hs hlt hconcerns
    | abort signal =>
      refine h.of_moves hmoves ?_ (h.unlinked.abort signal)
      rintro next ⟨u, -, rfl⟩
      exact id
    | hangUp u =>
      refine h.of_moves hmoves ?_ (h.unlinked.hangUp u)
      rintro next ⟨v, -, rfl⟩
      exact id
    | _ => exact hconcerns.elim
  · obtain ⟨-, htask, hjob, -⟩ := scope_other hconcerns
    exact h.of_moves_other hlt hmoves htask fun job hnext hurges =>
      hjob job hnext (Job.owner?_of_urges hurges)

/-! Attempts and those who wait for them -/

omit [Scalar α] [Textual α] in
theorem linkEnd?_eq_some_iff {s : Deployment α} {i : StoreId} {ev : Event α} {outcome : Outcome α} :
    s.linkEnd? i ev = some outcome ↔
      ∃ n status, ev = .work n ∧ s.agenda[n]? = some (0, .linkSettled i outcome status) := by
  constructor
  · intro h
    cases ev with
    | work n =>
      simp only [linkEnd?] at h
      split at h
      · next job hentry =>
        cases job with
        | linkSettled k other status =>
          simp only [Job.linkEnd?, Option.ite_none_right_eq_some, Option.some.injEq] at h
          obtain ⟨rfl, rfl⟩ := h
          exact ⟨n, status, rfl, hentry⟩
        | _ => cases h
      · cases h
    | _ => cases h
  · rintro ⟨n, status, rfl, hentry⟩
    simp [linkEnd?, hentry, Job.linkEnd?]

/-- An attempt that is over leaves nobody waiting. -/
theorem attempt?_happen_of_end {s : Deployment α} {i : StoreId} {ev : Event α} {outcome : Outcome α}
    (h : s.linkEnd? i ev = some outcome) : (s.happen ev).attempt? i = none := by
  obtain ⟨n, status, rfl, hentry⟩ := linkEnd?_eq_some_iff.mp h
  have hwakes : ∀ (line : List TaskId) (s' : Deployment α),
      (line.foldl (wake outcome) s').attempt? i = s'.attempt? i := by
    intro line
    induction line with
    | nil => exact fun _ => rfl
    | cons t line ih =>
      refine fun s' => (ih _).trans ?_
      unfold wake
      split <;> rfl
  have hhappen : s.happen (.work n) = (s.taken (.work n)).linkSettled i outcome status := by
    simp only [Deployment.happen, hentry, taken, turn, run]
  rw [hhappen]
  unfold linkSettled
  split
  · next store hstore =>
    have hlink : ((s.taken (.work n)).setLinkStatus store.client status).stores[i]? =
        some (.redis store) := hstore
    rw [hwakes, attempt?, remote?_setStore_redis hlink, if_pos rfl]
    rfl
  · next hother =>
    rw [attempt?, Option.bind_eq_none_iff]
    exact fun store hstore => absurd (remote?_eq_some_iff.mp hstore) (hother store)

theorem attempt?_happen {s : Deployment α} (hs : s.Prompt) {i : StoreId} {line : List TaskId}
    (hline : s.attempt? i = some line) {ev : Event α} (hend : s.linkEnd? i ev = none) :
    ∃ more, (s.happen ev).attempt? i = some (line ++ more) := by
  obtain ⟨more, hmore, -⟩ := (happen_moves hs ev).attempt?_grows
    (fun hunlink => by simpa [hend] using linkEnd?_of_unlink hunlink)
    ((attempt?_taken s ev i).trans hline)
  exact ⟨more, hmore⟩

/-- What a task may do when it comes to wait for the connection of a store. -/
def linkingScope (t : TaskId) (i : StoreId) : Scope α where
  task := (· = t)
  job job := job.link? = some i
  link := (· = i)
  call _ := True

/-- Whoever comes to wait has posted nothing but the end of the attempt it opened. -/
theorem Connects.moves_link {s s' : Deployment α} {t : TaskId} {i : StoreId} {store : RedisStore α}
    {w : Job α} {r : Option (Fault α)} (h : Connects s t i store w (r, s'))
    (hstore : s.remote? i = some store) (hwaits : s'.attempt? i ≠ none) :
    Moves (linkingScope t i) s s' := by
  have hstores := remote?_eq_some_iff.mp hstore
  have hsame : ∀ {s' : Deployment α}, s'.stores = s.stores → s'.attempt? i = store.attempt := by
    intro s' h
    simp [attempt?, remote?, h, hstores]
  cases h with
  | @joins line hline =>
    have hjoined := (Moves.refl (p := linkingScope t i) s).join (t := t) hstores rfl rfl
    rwa [hline] at hjoined
  | opens hnone howned hstatus hpromise =>
    have hcalled := (Moves.refl (p := linkingScope t i) s).callClient store.client .connect trivial
    have hjoined := hcalled.join (t := t) ((stores_callClient s _ _).symm ▸ hstores) rfl rfl
    rw [hnone] at hjoined
    exact hjoined.arrangeLink i store.client _ fun _ _ => rfl
  | fails hnone => exact absurd ((hsame (stores_callClient _ _ _)).trans hnone) hwaits
  | ready hnone => exact absurd ((hsame rfl).trans hnone) hwaits

omit [Scalar α] [Textual α] in
theorem not_urges_of_pending {s : Deployment α} (h : s.share s.tasks.length = {}) {job : Job α}
    (hmem : job ∈ s.pending) : ¬job.Urges s.tasks.length := by
  intro hurges
  have hown : job ∈ s.pending.filter fun job => job.owner? = some s.tasks.length :=
    Multiset.mem_filter.mpr ⟨hmem, Job.owner?_of_urges hurges⟩
  have hnone : s.pending.filter (fun job => job.owner? = some s.tasks.length) = 0 := by
    have hready := congrArg Share.ready h
    have hawaited := congrArg Share.awaited h
    rw [pending, Multiset.filter_add]
    exact (congrArg₂ (· + ·) hready hawaited).trans (Multiset.zero_add 0)
  rw [hnone] at hown
  cases hown

/-- A call that comes to wait for the connection is still. -/
theorem Arrives.still {s s₁ s₂ : Deployment α} {call : Start α} {i : StoreId} {store : RedisStore α}
    {r : Option (Fault α)} (h : Arrives s call i store r s₁ s₂) (hs : s.Reachable)
    (hwaits : (s.start call).attempt? i ≠ none) : (s.start call).Still s.tasks.length := by
  obtain ⟨w, hw, hconnects⟩ := h.connects
  have hr : r = none := by
    obtain ⟨hr, -⟩ | ⟨hr, -⟩ | ⟨-, -, hnone, -⟩ := h.attempt?_links
    · exact hr
    · exact hr
    · exact absurd hnone hwaits
  refine ⟨fun job hmem hurges => ?_, h.progress hr⟩
  obtain hmem | rfl | ⟨verdict, rfl⟩ | ⟨outcome, rfl⟩ := h.later.mem_pending hmem
  · have hstore : s₁.remote? i = some store := by
      unfold remote?
      rw [h.stores]
      exact h.remote
    have hlink := hconnects.moves_link hstore (by rwa [← h.later.attempt?_eq id id])
    obtain hmem | hlink := hlink.mem_pending hmem
    · obtain hmem | hnever := (h.before (s.preludeScope call) trivial rfl id).mem_pending hmem
      · exact not_urges_of_pending (hs.share_eq (Nat.le_refl _)) hmem hurges
      · exact hnever
    · exact nomatch (Job.owner?_of_urges hurges).symm.trans (owner?_of_link? hlink)
  all_goals exact hurges

/-- How a task stands that waits for the connection of a store. -/
structure WaitsFor (s : Deployment α) (i : StoreId) (t : TaskId) : Prop where
  still : s.Still t
  lt : t < s.tasks.length
  only : ∀ k, t ∈ s.waiters k → k = i

omit [Scalar α] [Textual α] in
theorem not_mem_waiters_of_attempt? {s : Deployment α} {i : StoreId} (h : s.attempt? i = none)
    (t : TaskId) : t ∉ s.waiters i := by
  simp [waiters, h]

/-- Only by starting does a task come to wait. -/
theorem mem_waiters_of_happen {s : Deployment α} (hs : s.Prompt) {ev : Event α} {i : StoreId}
    {t : TaskId} (h : t ∈ (s.happen ev).waiters i) : t ∈ s.waiters i ∨
      ∃ call, ev = .start call ∧ s.storeOf? call = some i ∧ t = s.tasks.length := by
  obtain hold | ⟨hlink, htask⟩ := (happen_moves hs ev).mem_waiters h
  · left
    rwa [waiters, attempt?_taken] at hold
  · by_cases hev : ∃ call, ev = .start call
    · obtain ⟨call, rfl⟩ := hev
      exact Or.inr ⟨call, rfl, hlink, htask⟩
    · exact absurd hlink (not_link_of_not_start fun call hcall => hev ⟨call, hcall⟩)

theorem WaitsFor.happen {s : Deployment α} {i : StoreId} {t : TaskId} (h : s.WaitsFor i t)
    (hs : s.Prompt) {ev : Event α} (hwaits : t ∈ (s.happen ev).waiters i) :
    (s.happen ev).WaitsFor i t := by
  refine ⟨h.still.happen hs h.lt fun k answer hend hmem => ?_,
    Nat.lt_of_lt_of_le h.lt (tasks_length_happen hs ev), fun k hk => ?_⟩
  · obtain rfl := h.only k hmem
    exact not_mem_waiters_of_attempt? (attempt?_happen_of_end hend) t hwaits
  · obtain hold | ⟨call, -, -, rfl⟩ := mem_waiters_of_happen hs hk
    · exact h.only k hold
    · exact absurd h.lt (Nat.lt_irrefl _)

theorem Reachable.waitsFor {s : Deployment α} (h : s.Reachable) {i : StoreId} {t : TaskId}
    (ht : t ∈ s.waiters i) : s.WaitsFor i t := by
  have hall : s.Reachable ∧ ∀ i, ∀ t ∈ s.waiters i, s.WaitsFor i t := by
    refine h.induction (P := fun s => s.Reachable ∧ ∀ i, ∀ t ∈ s.waiters i, s.WaitsFor i t)
      (fun s₀ hfresh => ⟨hfresh.reachable, fun i t ht =>
        absurd ht (not_mem_waiters_of_attempt? (hfresh.attempt i) t)⟩) ?_
    rintro s ev ⟨hs, hwait⟩
    refine ⟨hs.happen ev, fun i t ht => ?_⟩
    obtain hold | ⟨call, rfl, hi, rfl⟩ := mem_waiters_of_happen hs.prompt ht
    · exact (hwait i t hold).happen hs.prompt ht
    -- A call that has just come to wait asked for the connection.
    have hnew : ∀ k, s.tasks.length ∉ s.waiters k := fun k hmem =>
      Nat.lt_irrefl _ (hwait k _ hmem).lt
    obtain hmoves | ⟨k, store, r, s₁, s₂, harrives⟩ := s.start_aloof_or_arrives call
    · obtain hold | ⟨hnever, -⟩ := hmoves.mem_waiters ht
      · exact absurd hold (hnew i)
      · exact hnever.elim
    obtain rfl : k = i := Option.some.inj (harrives.storeOf.symm.trans hi)
    refine ⟨harrives.still hs fun hnone => not_mem_waiters_of_attempt? hnone _ ht,
      (tasks_length_start s call).ge, fun j hj => ?_⟩
    obtain hold | ⟨call', hcall, hj, -⟩ := mem_waiters_of_happen hs.prompt hj
    · exact absurd hold (hnew j)
    · cases hcall
      exact Option.some.inj (hj.symm.trans hi)
  exact hall.2 i t ht

/-! After a failure -/

/-- A task that waits for no connection is still for good. -/
theorem Still.after {s : Deployment α} {t : TaskId} (h : s.Still t) (hs : s.Prompt)
    (hlt : t < s.tasks.length) (hidle : ∀ i, t ∉ s.waiters i) (events : List (Event α)) :
    (s.after events).Still t := by
  induction events generalizing s with
  | nil => exact h
  | cons ev events ih =>
    refine ih (h.happen hs hlt fun i _ _ => hidle i) (hs.happen ev)
      (Nat.lt_of_lt_of_le hlt (tasks_length_happen hs ev)) fun i hmem => ?_
    obtain hold | ⟨call, -, -, rfl⟩ := mem_waiters_of_happen hs hmem
    · exact hidle i hold
    · exact absurd hlt (Nat.lt_irrefl _)

/-- Nobody who waited for an attempt that failed ever sends a command. -/
theorem Reachable.still_of_failure {s : Deployment α} (hs : s.Reachable) {i : StoreId}
    {ev : Event α} {fault : Fault α} (hend : s.linkEnd? i ev = some (.error fault)) {t : TaskId}
    (ht : t ∈ s.waiters i) (later : List (Event α)) : ((s.happen ev).after later).Still t := by
  have hwaits := hs.waitsFor ht
  refine Still.after (hwaits.still.happen hs.prompt hwaits.lt fun k answer hok hk => ?_)
    (hs.prompt.happen ev) (Nat.lt_of_lt_of_le hwaits.lt (tasks_length_happen hs.prompt ev))
    (fun k hmem => ?_) later
  · obtain rfl := hwaits.only k hk
    rw [hend] at hok
    cases hok
  · obtain hold | ⟨call, -, -, rfl⟩ := mem_waiters_of_happen hs.prompt hmem
    · obtain rfl := hwaits.only k hold
      exact not_mem_waiters_of_attempt? (attempt?_happen_of_end hend) t hmem
    · exact absurd hwaits.lt (Nat.lt_irrefl _)

/-! Calls that need a connection -/

/-- The store that a limiter would ask about a request. -/
def asks? (s : Deployment α) (l : LimiterId) (request : Option (Request α))
    (signal : Option SignalId) : Option StoreId := do
  let limiter ← s.limiters[l]?
  match limiter.config.keyRule.key request, s.isAborted signal with
  | .ok _, false => some limiter.store
  | _, _ => none

/-- The store whose connection a call needs: a check that is not abandoned already, or a startup. -/
def needs? (s : Deployment α) : Start α → Option StoreId
  | .ask i _ _ signal => if s.isAborted signal then none else some i
  | .allow l _ _ signal => if s.isAborted signal then none else s.limiters[l]?.map Limiter.store
  | .decide l request signal => s.asks? l request signal
  | .pass l request => s.asks? l request (some (.request s.tasks.length))
  | .enter l request => s.asks? l request none
  | .bootStore i => some i
  | .bootLimiter l => s.limiters[l]?.map Limiter.store
  | .closeStore _ | .closeLimiter _ | .shutDown _ => none

section

variable {s s' : Deployment α} {i : StoreId} {store : RedisStore α} {call : Start α}

theorem arrives_of_asks (hs' : Prelude s call s') {l : LimiterId} {request : Option (Request α)}
    {signal : Option SignalId} (h : s.asks? l request signal = some i)
    (hcall : s.storeOf? call = s.limiters[l]?.map Limiter.store)
    (hlive : s'.isAborted signal = s.isAborted signal) (origin : Origin)
    (failed : Fault α → Settlement α)
    (hstart : ∀ limiter, s.limiters[l]? = some limiter →
      s.start call = s'.startRequest limiter origin request signal failed)
    (hstore : s.remote? i = some store) : ∃ r s₁ s₂, Arrives s call i store r s₁ s₂ := by
  obtain ⟨limiter, hlimiter, h⟩ := Option.bind_eq_some_iff.mp h
  cases hkey : limiter.config.keyRule.key request with
  | error e => simp [hkey] at h
  | ok key =>
    cases haborted : s.isAborted signal with
    | true => simp [hkey, haborted] at h
    | false =>
      obtain rfl : limiter.store = i := by simpa [hkey, haborted] using h
      let bucket := Key.ofValue (limiter.config.keyRule.maker request s'.tasks.length) key
      refine arrives_of_check (c := ⟨origin, key, bucket, s'.timeOr none, signal⟩) hs'
        (by rw [hcall, hlimiter]; rfl) ?_ hstore (hlive.trans haborted)
      rw [hstart limiter hlimiter, startRequest]
      simp only [hkey]
      rfl

theorem arrives_of_needs (h : s.needs? call = some i) (hstore : s.remote? i = some store) :
    ∃ r s₁ s₂, Arrives s call i store r s₁ s₂ := by
  have hs := Prelude.refl s call
  have hlt : i < s.stores.length :=
    (List.getElem?_eq_some_iff.mp (remote?_eq_some_iff.mp hstore)).1
  have hunaborted : ∀ {signal} {k : Option StoreId},
      (if s.isAborted signal = true then none else k) = some i →
      s.isAborted signal = false ∧ k = some i := by
    intro signal k h
    split at h
    · cases h
    · next hnot => exact ⟨Bool.eq_false_iff.mpr hnot, h⟩
  cases call with
  | ask j key now signal =>
    obtain ⟨hlive, hj⟩ := hunaborted h
    obtain rfl := Option.some.inj hj
    exact arrives_of_check hs rfl (start_ask_eq hstore key now signal) hstore hlive
  | allow l key now signal =>
    obtain ⟨hlive, hl⟩ := hunaborted h
    obtain ⟨limiter, hlimiter, rfl⟩ := Option.map_eq_some_iff.mp hl
    refine arrives_of_check (c := ⟨.limiter l, key, s.callKey key, s.timeOr now, signal⟩) hs hl ?_
      hstore hlive
    simp only [start, onLimiter, hlimiter]
  | decide l request signal =>
    refine arrives_of_asks hs h rfl rfl (.limiter l) .thrown
      (fun limiter hlimiter => ?_) hstore
    simp only [start, onLimiter, hlimiter]
  | pass l request =>
    refine arrives_of_asks (Prelude.attach s _) h rfl rfl (.middleware l) .failed
      (fun limiter hlimiter => ?_) hstore
    simp only [start, onLimiter, hlimiter]
    rfl
  | enter l request =>
    refine arrives_of_asks hs h rfl rfl (.guard l) .failed
      (fun limiter hlimiter => ?_) hstore
    simp only [start, onLimiter, hlimiter]
  | bootStore j =>
    obtain rfl := Option.some.inj h
    refine arrives_of_boot hs rfl none .thrown ?_ hstore
    simp only [start, onStore, hlt, if_true]
    rfl
  | bootLimiter l =>
    obtain ⟨limiter, hlimiter, rfl⟩ := Option.map_eq_some_iff.mp h
    refine arrives_of_boot hs h (some l) .failed ?_ hstore
    simp only [start, onLimiter, hlimiter]
    rfl
  | closeStore j => cases h
  | closeLimiter l => cases h
  | shutDown l => cases h

/-- Whoever needs the connection while an attempt is under way waits for that attempt. -/
theorem joins_of_needs (h : s.needs? call = some i) (hstore : s.remote? i = some store)
    {line : List TaskId} (hline : store.attempt = some line) :
    (s.start call).attempt? i = some (line ++ [s.tasks.length]) ∧ s.made (.start call) = [] := by
  obtain ⟨r, s₁, s₂, harrives⟩ := arrives_of_needs h hstore
  obtain ⟨-, line', hline', hattempt, -, hcalls⟩ | ⟨-, ⟨store', -, hstore', -, hnone, -⟩, -⟩ |
    ⟨hnone, -⟩ := harrives.attempt?_links
  · rw [hline] at hline'
    cases hline'
    exact ⟨hattempt, made_eq (hcalls.trans (List.append_nil _).symm)⟩
  · rw [hstore] at hstore'
    cases hstore'
    cases hline.symm.trans hnone
  · cases hline.symm.trans hnone

/-- Without an attempt under way, whoever needs the connection of a client that waits to be
connected opens one. -/
theorem opens_of_needs (h : s.needs? call = some i) (hstore : s.remote? i = some store)
    (howned : store.owned = true) (hnone : store.attempt = none)
    (hstatus : s.linkStatus store.client = .waiting) (hpromise : s.Promises store) :
    (s.start call).attempt? i = some [s.tasks.length] ∧
      s.made (.start call) = s.shown store.client .connect := by
  obtain ⟨r, s₁, s₂, harrives⟩ := arrives_of_needs h hstore
  obtain ⟨-, line, hline, -⟩ | ⟨-, -, hattempt, -, hcalls⟩ | ⟨-, hnot, -⟩ := harrives.attempt?_links
  · cases hnone.symm.trans hline
  · exact ⟨hattempt, made_eq hcalls⟩
  · exact absurd ⟨howned, hstatus, hpromise⟩ hnot

end

/-! Calls of clients -/

/-- A store sends the script and its first command only for a task that is brought to it. -/
theorem exists_commands {s : Deployment α} (hs : s.Prompt) {ev : Event α} {call : Call α}
    (h : call ∈ s.made ev) (hcommand : call = .ping ∨ ∃ evaluation, call = .eval evaluation) :
    ∃ t, s.Commands t ev := by
  cases makes_of_mem_made hs h with
  | starts hscope => obtain rfl | ⟨evaluation, rfl⟩ := hcommand <;> exact hscope.elim
  | @evaluates n t hentry evaluation => exact ⟨t, Or.inl (by simp [act?, hentry])⟩
  | @resumes n t hentry =>
    refine ⟨t, Or.inr ?_⟩
    by_contra hnot
    have hunlinked : (s.taken (.work n)).Unlinked t := fun answer hprogress =>
      hnot ⟨n, answer, rfl, hentry, hprogress⟩
    have hends : Moves (endScope t) (s.taken (.work n)) (s.happen (.work n)) := by
      have hhappen : s.happen (.work n) = (s.taken (.work n)).resume t := by
        simp only [Deployment.happen, hentry, taken, turn, run]
      exact hhappen ▸ resume_moves_end hunlinked
    rw [made_eq ((hends.calls_eq fun _ => id).trans (List.append_nil _).symm)] at h
    cases h
  | closes => obtain h | ⟨evaluation, h⟩ := hcommand <;> cases h
  | sweeps => obtain h | ⟨evaluation, h⟩ := hcommand <;> cases h

theorem connects_once {s : Deployment α} (hs : s.Reachable) {ev : Event α}
    (h : .connect ∈ s.made ev) :
    ∃ call i, ev = .start call ∧ s.Opens call i ∧ s.links i = 0 := by
  cases makes_of_mem_made hs.prompt h with
  | @starts call _ hscope =>
    obtain ⟨i, hopens⟩ := hscope
    refine ⟨call, i, rfl, hopens, (hs.linked i).idle ?_⟩
    obtain ⟨store, -, hstore, -, hnone, -⟩ := hopens
    simp [attempt?, hstore, hnone]

/-! Supplied clients -/

omit [Textual α] in
theorem Moves.exists_owned_eq {p : Scope α} {s s' : Deployment α} (h : Moves p s s') {i : StoreId}
    {store : RedisStore α} (hstore : s'.remote? i = some store) :
    ∃ before, s.remote? i = some before ∧ before.owned = store.owned := by
  have hfixed := h.fixed?_eq i
  rw [fixed?, hstore] at hfixed
  obtain ⟨before, hbefore, heq⟩ := Option.map_eq_some_iff.mp hfixed.symm
  have howned := congrArg RedisStore.owned heq
  exact ⟨before, hbefore, howned⟩

/-- A call is a task of its store, unless it ends at once. -/
theorem taskStore?_start (s : Deployment α) (call : Start α) :
    (s.start call).taskStore? s.tasks.length = s.storeOf? call ∨
      Moves { s.preludeScope call with task := (· = s.tasks.length) } s (s.start call) := by
  have hstays : ∀ {s' s'' : Deployment α} {i : StoreId} {purpose : Purpose α},
      Prelude s call s' →
      s.storeOf? call = some i → Moves .any (s'.newTask i purpose).2 s'' →
      s''.taskStore? s.tasks.length = s.storeOf? call := by
    intro s' s'' i purpose hs' hi hmoves
    rw [hi, hmoves.taskStore?_eq (by simp [newTask, hs'.tasks])]
    simp [taskStore?, newTask, hs'.tasks]
  have hbegins := begins_start s call
  generalize s.start call = s'' at hbegins ⊢
  cases hbegins with
  | check hs' hi c =>
    exact Or.inl (hstays hs' hi ((Moves.refl _).check trivial trivial trivial
      (fun _ _ => trivial) (fun _ => trivial) (fun _ _ _ => trivial)
      (fun _ _ _ _ _ => ⟨trivial, fun _ _ => trivial⟩) c))
  | boot hs' hi limiter failed =>
    exact Or.inl (hstays hs' hi ((Moves.refl _).boot trivial trivial trivial
      (fun _ _ => trivial) (fun _ _ => trivial) trivial
      (fun _ _ _ _ _ => ⟨trivial, fun _ _ => trivial⟩) failed))
  | close hs' hi closer hcloser =>
    exact Or.inl (hstays hs' hi ((Moves.refl _).close trivial trivial
      (fun _ _ => trivial) (fun _ _ => trivial) trivial (fun _ _ _ => ⟨trivial, trivial⟩) closer
      fun _ => trivial))
  | ended hs' i purpose settlement =>
    have hnew := hs'.tasks_length_eq
    exact Or.inr (((hs'.moves _ rfl id).newTask trivial i purpose).settle hnew hnew _)

omit [Scalar α] [Textual α] in
/-- No turn makes a store answer that it is closed. -/
theorem not_closed_of_jobScope {s : Deployment α} {job : Job α} {t : TaskId} {outcome : Outcome α} :
    ¬(s.jobScope job).job (.closed t outcome) := by
  intro h
  cases job with
  | evaluate u =>
    obtain ⟨other, hother⟩ := h
    cases hother
  | answer u other => cases h
  | resume u =>
    obtain hboot | ⟨verdict, hverdict⟩ := h
    · exact hboot
    · cases hverdict
  | linkSettled i other status =>
    obtain ⟨u, -, hanswer | ⟨-, hevaluate⟩⟩ := h
    · cases hanswer
    · cases hevaluate
  | conclude => exact h
  | started => exact h
  | closed => exact h

omit [Scalar α] [Textual α] in
/-- A store answers that it is closed only to a call that asked it to close. -/
theorem closed_of_scope {s : Deployment α} {ev : Event α} {t : TaskId} {outcome : Outcome α}
    (h : (s.scope ev).job (.closed t outcome)) :
    .closed t outcome ∈ s.pending ∨ ∃ call, ev = .start call := by
  cases ev with
  | start call => exact Or.inr ⟨call, rfl⟩
  | work n =>
    simp only [scope] at h
    split at h
    · exact absurd h not_closed_of_jobScope
    · next turns job _ hentry =>
      obtain rfl : .closed t outcome = job := h
      exact Or.inl (mem_pending_of_agenda hentry)
    · exact h.elim
  | alarm n =>
    simp only [scope] at h
    split at h
    · cases h
    · next turns job htimer =>
      obtain rfl : .closed t outcome = job := h
      obtain ⟨⟨due, alarm⟩, htimer, rfl⟩ := Option.map_eq_some_iff.mp htimer
      left
      rw [pending_taken_alarm htimer]
      exact Multiset.mem_add.mpr (Or.inl (Multiset.mem_singleton_self _))
    · exact h.elim
    · exact h.elim
  | abort signal =>
    obtain ⟨u, -, hresume⟩ := h
    cases hresume
  | hangUp u =>
    obtain ⟨v, -, hresume⟩ := h
    cases hresume
  | _ => exact h.elim

theorem Reachable.lt_of_mem_pending {s : Deployment α} (h : s.Reachable) {job : Job α} {t : TaskId}
    (hmem : job ∈ s.pending) (hown : job.owner? = some t) : t < s.tasks.length := by
  by_contra hle
  have hnone := h.share_eq (Nat.le_of_not_lt hle)
  rcases Multiset.mem_add.mp hmem with hready | hawaited
  · have hshare : job ∈ (s.share t).ready := Multiset.mem_filter.mpr ⟨hready, hown⟩
    rw [hnone] at hshare
    cases hshare
  · have hshare : job ∈ (s.share t).awaited := Multiset.mem_filter.mpr ⟨hawaited, hown⟩
    rw [hnone] at hshare
    cases hshare

/-- A store whose client was supplied is closed without fail. -/
def ClosesWell (s : Deployment α) : Prop :=
  ∀ t outcome i store, .closed t outcome ∈ s.pending → s.taskStore? t = some i →
    s.remote? i = some store → store.owned = false → outcome = .ok none

theorem ClosesWell.happen {s : Deployment α} (h : s.ClosesWell) (hs : s.Reachable) (ev : Event α) :
    (s.happen ev).ClosesWell := by
  intro t outcome i store hmem htask hstore hsupplied
  have hmoves := happen_moves hs.prompt ev
  obtain ⟨before, hbefore, howned⟩ := hmoves.exists_owned_eq hstore
  have hremote : s.remote? i = some before := by
    rw [← hbefore]
    cases ev <;> rfl
  have hold : .closed t outcome ∈ s.pending → outcome = .ok none := by
    intro hmem
    have hlt : t < s.tasks.length := hs.lt_of_mem_pending hmem rfl
    refine h t outcome i before hmem ?_ hremote (howned.trans hsupplied)
    rw [← htask, hmoves.taskStore?_eq (by rwa [tasks_taken]), taskStore?, taskStore?, tasks_taken]
  obtain hmem' | hnew := hmoves.mem_pending hmem
  · exact hold (mem_pending_of_taken hmem')
  obtain hmem' | ⟨call, rfl⟩ := closed_of_scope hnew
  · exact hold hmem'
  obtain hcheck | hboot | ⟨other, heq, hok⟩ | ⟨k, -, hlink⟩ := hnew
  · exact hcheck.elim
  · exact hboot.elim
  · cases heq
    obtain hcalled | hended := s.taskStore?_start call
    · exact hok i before (hcalled.symm.trans htask) hremote (howned.trans hsupplied)
    · obtain hmem' | hnever := hended.mem_pending hmem
      · exact hold hmem'
      · exact hnever.elim
  · cases hlink

theorem Reachable.closesWell {s : Deployment α} (h : s.Reachable) : s.ClosesWell := by
  have hall : s.Reachable ∧ s.ClosesWell := by
    refine h.induction (P := fun s => s.Reachable ∧ s.ClosesWell) (fun s₀ hfresh => ?_) ?_
    · refine ⟨hfresh.reachable, fun t outcome i store hmem => ?_⟩
      simp [pending, Deployment.ready, Deployment.awaited, hfresh.agenda, hfresh.timers] at hmem
    · rintro s ev ⟨hs, hclose⟩
      exact ⟨hs.happen ev, hclose.happen hs ev⟩
  exact hall.2

/-- Only closing a store in Redis cuts off a client. -/
theorem exists_remote_of_closes {s : Deployment α} {n : Nat} {t : TaskId} {fault : Fault α}
    (hentry : s.agenda[n]? = some (0, .closed t (.error fault))) {call : Call α}
    (h : call ∈ s.made (.work n)) :
    ∃ i store, s.taskStore? t = some i ∧ s.remote? i = some store := by
  by_contra hnone
  have hhappen : s.happen (.work n) = (s.taken (.work n)).closed t (.error fault) := by
    simp only [Deployment.happen, hentry, taken, turn, run]
  have hcalls : (s.happen (.work n)).calls = s.calls ++ [] := by
    rw [hhappen]
    unfold closed
    split
    · next i closer progress htask =>
      have htask' : s.taskStore? t = some i := congrArg (Option.map Task.store) htask
      split
      · next hok => cases hok
      · next hredis _ => exact absurd ⟨i, _, htask', remote?_eq_some_iff.mpr hredis⟩ hnone
      · next hok _ => cases hok
      · exact (List.append_nil _).symm
    · exact (List.append_nil _).symm
  rw [made_eq hcalls] at h
  cases h

/-- Only a store that built its client connects it, makes it quit, or cuts it off. -/
theorem owned_of_mem_made {s : Deployment α} (hs : s.Reachable) {ev : Event α} {call : Call α}
    (h : call ∈ s.made ev) (hcall : call = .connect ∨ call = .quit ∨ call = .disconnect) :
    ∃ i store, s.actor? ev = some i ∧ s.remote? i = some store ∧ store.owned = true := by
  cases makes_of_mem_made hs.prompt h with
  | @starts begun _ hscope =>
    obtain rfl | rfl | rfl := hcall
    · obtain ⟨i, store, hi, hstore, howned, -⟩ := hscope
      exact ⟨i, store, hi, hstore, howned⟩
    · exact hscope
    · exact hscope
  | @closes n t fault hentry =>
    obtain ⟨i, store, htask, hstore⟩ := exists_remote_of_closes hentry h
    have hactor : s.actor? (.work n) = some i := by simp [actor?, hentry, Job.owner?, htask]
    refine ⟨i, store, hactor, hstore, Bool.not_eq_false _ ▸ fun hsupplied => ?_⟩
    cases hs.closesWell t _ i store (mem_pending_of_agenda hentry) htask hstore hsupplied
  | evaluates => obtain h | h | h := hcall <;> cases h
  | resumes => obtain h | h | h := hcall <;> cases h
  | sweeps => obtain h | h | h := hcall <;> cases h

/-! A failed attempt -/

/-- A check that still waits when the attempt fails that it waits for is settled with that
failure. -/
theorem settled_of_failure {s : Deployment α} (hs : s.Reachable) {i : StoreId}
    {store : RedisStore α} (hstore : s.remote? i = some store) {milliseconds : String}
    (htext : textOrMissing? store.options.timeout = some milliseconds) (hpromise : s.Promises store)
    {c : Check α} (hlive : s.isAborted c.signal = false) {events : List (Event α)}
    (hunended : (s.startCheck i c).firstEnding? s.tasks.length c.signal events = none)
    (hwaits : s.tasks.length ∈ ((s.startCheck i c).after events).waiters i) {ev : Event α}
    {fault : Fault α}
    (hend : ((s.startCheck i c).after events).linkEnd? i ev = some (.error fault)) :
    ((((s.startCheck i c).after events).happen ev).drain.share s.tasks.length).settled =
      (fault.asStoreFault?.map fun fault => s.settlementOf c (.error fault)).toList := by
  have hprompt := (hs.prompt.startCheck i c).after events
  obtain ⟨e, w, hrun⟩ := startCheck_runsTo hs.clear hstore hlive htext hpromise events
  obtain ⟨rfl, -⟩ := hrun.stands.mem_waiters_iff.mp hwaits
  obtain rfl : w = .waiting := by
    rw [← Wait.end?_eq_none_iff, hrun.wait]
    exact congrArg (Option.map _) hunended
  obtain ⟨e', w', hstep⟩ := hrun.stands.happen hprompt hrun.live ev
  have hact := hrun.stands.act?_eq_links_iff.mpr hend
  obtain rfl : e' = .told (.error fault) := by
    have herrand := hstep.errand
    rw [hact] at herrand
    cases herrand
    rfl
  obtain rfl : w' = .waiting := by
    obtain ⟨n, status, rfl, hentry⟩ := linkEnd?_eq_some_iff.mp hend
    rw [← Wait.end?_eq_none_iff, hstep.wait]
    simp [ending?, hentry, Wait.end?]
  have hsettled := hstep.stands.settled_drain_of_told (hprompt.happen ev)
    (hstep.live hprompt hrun.live rfl)
  refine hsettled.trans ?_
  cases hfault : fault.asStoreFault? with
  | none => simp [Ending.outcome?, hfault]
  | some told => simp [Ending.outcome?, hfault, journey, Fault.verdictOf]

/-- The laws of the attempts to connect a store in Redis. -/
structure SharesAttempts (s : Deployment α) (i : StoreId) (store : RedisStore α) : Prop where
  /-- A client is told to connect only by a call that opens an attempt: its store built the client,
  the client waits to be connected, and no earlier attempt is unsettled. -/
  connects : ∀ ev, .connect ∈ s.made ev →
    ∃ call k, ev = .start call ∧ s.Opens call k ∧ s.links k = 0
  /-- No two attempts are outstanding together. -/
  single : Multiset.card (s.links i) ≤ 1
  /-- None is outstanding that nobody waits for. -/
  idle : s.attempt? i = none → s.links i = 0
  /-- Whoever needs the connection while an attempt is under way waits for that attempt. -/
  joins : ∀ call line, s.needs? call = some i → store.attempt = some line →
    (s.start call).attempt? i = some (line ++ [s.tasks.length]) ∧ s.made (.start call) = []
  /-- Those who wait do so until the attempt is over. -/
  lasts : ∀ line ev, s.attempt? i = some line → s.linkEnd? i ev = none →
    ∃ more, (s.happen ev).attempt? i = some (line ++ more)
  ends : ∀ ev outcome, s.linkEnd? i ev = some outcome → (s.happen ev).attempt? i = none
  /-- Commands are sent for tasks, and none for those who wait. -/
  commands : ∀ ev call, call ∈ s.made ev → (call = .ping ∨ ∃ evaluation, call = .eval evaluation) →
    ∃ t, s.Commands t ev
  waits : ∀ t ∈ s.waiters i, ∀ ev, ¬s.Commands t ev
  /-- Nobody who waited for an attempt that failed ever sends a command. -/
  fails : ∀ ev fault, s.linkEnd? i ev = some (.error fault) → ∀ t ∈ s.waiters i, ∀ later next,
    ¬((s.happen ev).after later).Commands t next
  /-- A question that waits when the attempt fails ends with that failure, as the cause of its own
  unless the failure is a store fault. -/
  told : ∀ milliseconds key now signal events ev fault,
    let t := s.tasks.length
    let asked := s.start (.ask i key now signal)
    let reached := asked.after events
    textOrMissing? store.options.timeout = some milliseconds → s.Promises store →
    s.isAborted signal = false → asked.firstEnding? t signal events = none →
    t ∈ reached.waiters i → reached.linkEnd? i ev = some (.error fault) →
    (fault.reason? = none → fault.message? ≠ none →
      ((reached.happen ev).drain.share t).settled = [.failed (.unavailable fault)]) ∧
    (fault.reason? ≠ none → ((reached.happen ev).drain.share t).settled = [.failed fault])
  /-- Whoever needs the connection of a client that waits to be connected, while no attempt is under
  way, opens one, after a failure as at the beginning. -/
  reopens : ∀ call, s.needs? call = some i → store.owned = true → store.attempt = none →
    s.linkStatus store.client = .waiting → s.Promises store →
    (s.start call).attempt? i = some [s.tasks.length] ∧
      s.made (.start call) = s.shown store.client .connect
  /-- Nobody but a store that built its client connects it, makes it quit or cuts it off. -/
  supplied : ∀ ev call, call ∈ s.made ev → (call = .connect ∨ call = .quit ∨ call = .disconnect) →
    ∃ k other, s.actor? ev = some k ∧ s.remote? k = some other ∧ other.owned = true

/-- At any time of any course, a store in Redis makes one attempt to connect for everybody. -/
theorem shares_attempts {s : Deployment α} (hs : s.Reachable) {i : StoreId} {store : RedisStore α}
    (hstore : s.remote? i = some store) : s.SharesAttempts i store where
  connects _ := connects_once hs
  single := (hs.linked i).single
  idle := (hs.linked i).idle
  joins _ _ hneeds := joins_of_needs hneeds hstore
  lasts _ _ hline := attempt?_happen hs.prompt hline
  ends _ _ := attempt?_happen_of_end
  commands _ _ := exists_commands hs.prompt
  waits _ ht := (hs.waitsFor ht).still.not_commands
  fails _ _ hend _ ht later := (hs.still_of_failure hend ht later).not_commands
  told milliseconds key now signal events ev fault := by
    dsimp only
    rw [start_ask_eq hstore]
    intro htext hpromise hlive hunended hwaits hend
    have hsettled := settled_of_failure hs hstore htext hpromise (c := s.asking key now signal)
      hlive hunended hwaits hend
    rw [settlementOf_asking] at hsettled
    refine ⟨fun hreason hmessage => ?_, fun hreason => ?_⟩
    · obtain ⟨message, hmessage⟩ := Option.ne_none_iff_exists'.mp hmessage
      simpa [Fault.asStoreFault?, hreason, hmessage, Settlement.ofVerdict] using hsettled
    · obtain ⟨reason, hreason⟩ := Option.ne_none_iff_exists'.mp hreason
      simpa [Fault.asStoreFault?, hreason, Settlement.ofVerdict] using hsettled
  reopens _ hneeds := opens_of_needs hneeds hstore
  supplied _ _ := owned_of_mem_made hs

end

/-! Failures of every kind -/

/-- A server that nobody reaches: every attempt fails so after a while. -/
def unreachable (fault : Fault ℚ) : ClientScript ℚ :=
  { connect := [.settles (some 20) (.error fault) none] }

/-- Two questions wait for the attempt, which fails; the first is told so. -/
theorem shares_attempts_unreachable :
    let s := lone true (unreachable (.general "no route"))
    let ask : Start ℚ := .ask 0 (some (.text "k")) (some (.number 1000)) none
    let reached := (s.start ask).after [.start ask, .alarm 0]
    s.Reachable ∧ (s.start ask).attempt? 0 = some [0] ∧ reached.attempt? 0 = some [0, 1] ∧
      reached.linkEnd? 0 (.work 0) = some (.error (.general "no route")) ∧
      ((reached.happen (.work 0)).drain.share 0).settled =
        [.failed (.unavailable (.general "no route"))] := by
  have hs := lone_reachable true (unreachable (.general "no route"))
  have hlaws := shares_attempts hs (i := 0) rfl
  have htext : textOrMissing? (some (.number (50 : ℚ))) = some "50" := rfl
  refine ⟨hs, rfl, rfl, rfl, ?_⟩
  refine (hlaws.told "50" (some (.text "k")) (some (.number 1000)) none
    [.start (.ask 0 (some (.text "k")) (some (.number 1000)) none), .alarm 0] (.work 0)
    (.general "no route") htext nofun rfl rfl (List.mem_cons_self ..) rfl).1 rfl nofun

/-- A failure that is a store fault already does not become the cause of another. -/
theorem store_fault_passed_through :
    let fault : Fault ℚ := .reported .malformed "no route"
    let s := lone true (unreachable fault)
    let reached := (s.start (.ask 0 (some (.text "k")) (some (.number 1000)) none)).after [.alarm 0]
    s.Reachable ∧ 0 ∈ reached.waiters 0 ∧ reached.linkEnd? 0 (.work 0) = some (.error fault) ∧
      ((reached.happen (.work 0)).drain.share 0).settled = [.failed fault] ∧
      ((reached.happen (.work 0)).drain.share 0).settled ≠ [.failed (.unavailable fault)] := by
  refine ⟨lone_reachable _ _, List.mem_cons_self .., rfl, rfl, fun h => ?_⟩
  have hsame : Settlement.failed (.reported .malformed "no route") =
      .failed (.unavailable (.reported .malformed "no route")) := List.singleton_inj.mp h
  cases hsame

end Deployment

end Admission
