import Admission.Proofs.Deployment.Moves

/-!
The course that a deployment takes.

A course is a list of events in any order: somebody starts a call, a piece of ready work has its
turn, a timer fires, a signal aborts, the clock shows another time, a client changes its state by
itself. Ready work need not be done in order, and timers may fire early or late, so a law about
every course is a law about every schedule. What scripted clients and stores reply is up to their
scripts, which may be any.
-/
namespace Admission.Deployment

variable {α : Type}

inductive Event (α : Type) where
  | start (call : Start α)
  /-- The `n`-th piece of ready work has its turn. -/
  | work (n : Nat)
  /-- The `n`-th timer fires. -/
  | alarm (n : Nat)
  | tick (clock : α)
  | abort (signal : SignalId)
  | hangUp (t : TaskId)
  /-- A client changes its state without being told. -/
  | relink (client : ClientId) (status : LinkStatus)
  | linkFault (i : StoreId) (message : String)
  | sweep (l : LimiterId) (now : Option (Value α))

/-- The store in Redis at a position. -/
def remote? (s : Deployment α) (i : StoreId) : Option (RedisStore α) :=
  match s.stores[i]? with
  | some (.redis store) => some store
  | _ => none

/-- The tasks that wait for the attempt to connect a store, if one is under way. -/
def attempt? (s : Deployment α) (i : StoreId) : Option (List TaskId) :=
  (s.remote? i).bind RedisStore.attempt

/-- The tasks that wait for the connection of a store. -/
def waiters (s : Deployment α) (i : StoreId) : List TaskId := (s.attempt? i).getD []

/-- The store that a call is on. -/
def storeOf? (s : Deployment α) : Start α → Option StoreId
  | .ask i .. | .bootStore i | .closeStore i => some i
  | .allow l .. | .decide l .. | .pass l _ | .enter l _ | .bootLimiter l | .closeLimiter l
  | .shutDown l => s.limiters[l]?.map Limiter.store

/-- Nothing has happened yet. -/
structure Fresh (s : Deployment α) : Prop where
  timers : s.timers = []
  agenda : s.agenda = []
  tasks : s.tasks = []
  listeners : s.listeners = []
  attached : s.attached = []
  settled : s.settled = []
  attempt : ∀ i, s.attempt? i = none

section

variable [Scalar α] [Textual α]

def happen (s : Deployment α) : Event α → Deployment α
  | .start call => s.start call
  | .work n =>
    match s.agenda[n]? with
    | some entry => { s with agenda := s.agenda.eraseIdx n }.turn entry
    | none => s
  | .alarm n =>
    match s.timers[n]? with
    | some timer => { s with timers := s.timers.eraseIdx n }.fire timer.alarm
    | none => s
  | .tick clock => { s with clock }
  | .abort signal => s.abort signal
  | .hangUp t => s.hangUp t
  | .relink client status => s.setLinkStatus client status
  | .linkFault i message => s.linkFault i message
  | .sweep l now => (s.sweep l now).2

/-- The deployment after some events. -/
def after (s : Deployment α) (events : List (Event α)) : Deployment α := events.foldl happen s

/-- The deployment may have come about, from a start at which nothing had happened. -/
def Reachable (s : Deployment α) : Prop :=
  ∃ (s₀ : Deployment α) (events : List (Event α)), s₀.Fresh ∧ s₀.after events = s

@[simp] theorem after_nil (s : Deployment α) : s.after [] = s := rfl

@[simp] theorem after_cons (s : Deployment α) (e : Event α) (events : List (Event α)) :
    s.after (e :: events) = (s.happen e).after events := rfl

theorem after_append (s : Deployment α) (before later : List (Event α)) :
    s.after (before ++ later) = (s.after before).after later := List.foldl_append

theorem Fresh.reachable {s : Deployment α} (h : s.Fresh) : s.Reachable := ⟨s, [], h, rfl⟩

theorem Reachable.after {s : Deployment α} (h : s.Reachable) (events : List (Event α)) :
    (s.after events).Reachable := by
  obtain ⟨s₀, before, hfresh, rfl⟩ := h
  exact ⟨s₀, before ++ events, hfresh, after_append s₀ before events⟩

theorem Reachable.happen {s : Deployment α} (h : s.Reachable) (e : Event α) :
    (s.happen e).Reachable := h.after [e]

/-- What holds at the start and is kept by every event holds throughout. -/
theorem Reachable.induction {P : Deployment α → Prop} {s : Deployment α} (h : s.Reachable)
    (hfresh : ∀ s₀ : Deployment α, s₀.Fresh → P s₀)
    (hstep : ∀ (s : Deployment α) (e : Event α), P s → P (s.happen e)) : P s := by
  obtain ⟨s₀, events, hstart, rfl⟩ := h
  have hkept : ∀ (events : List (Event α)) (s : Deployment α), P s → P (s.after events) := by
    intro events
    induction events with
    | nil => exact fun s h => h
    | cons e events ih => exact fun s h => ih _ (hstep s e h)
  exact hkept events s₀ (hfresh s₀ hstart)

end

/-! The scope of what happens -/

/-- What a job may do. -/
def jobScope (s : Deployment α) : Job α → Scope α
  | .evaluate t =>
    { job := fun job => ∃ outcome, job = .answer t outcome
      turns := 2
      call := fun call => ∃ evaluation, call = .eval evaluation }
  | .answer t _ => { task := (· = t), job := (· = .resume t) }
  | .resume t =>
    { task := (· = t)
      job := fun job => job.IsOfBoot t ∨ ∃ verdict, job = .conclude t verdict
      call := (· = .ping)
      notice := fun notice => notice.isOnCheck = false }
  | .conclude t _ =>
    { task := (· = t), notice := fun notice => notice.isOnCheck = true, finish := (· = t) }
  | .linkSettled i outcome _ =>
    { job := fun job => ∃ t ∈ s.waiters i, job = .answer t outcome ∨
        (∃ answer, outcome = .ok answer) ∧ job = .evaluate t
      turns := mostTurns
      unlink := (· = i) }
  | .started t _ =>
    { task := (· = t)
      notice := fun notice => notice.isOnCheck = false
      finish := (· = t)
      regular := True }
  | .closed t outcome =>
    { task := (· = t)
      call := fun call => call = .disconnect ∧ ∃ fault, outcome = .error fault
      notice := fun notice => notice.isOnCheck = false
      finish := (· = t)
      regular := s.tasks[t]?.map Task.purpose = some (.close .application) }

/-- A call is on a store in Redis that will connect its client for it: the store built the client,
the client waits to be connected, and no attempt is under way. -/
def Opens (s : Deployment α) (call : Start α) (i : StoreId) : Prop :=
  ∃ store, s.storeOf? call = some i ∧ s.remote? i = some store ∧ store.owned = true ∧
    store.attempt = none ∧ s.linkStatus store.client = .waiting

/-- What starting a call may do. Only a store that built its client makes it quit. -/
def startScope (s : Deployment α) (call : Start α) : Scope α where
  task := (· = s.tasks.length)
  job job := job.IsOfCheck s.tasks.length ∨ job.IsOfBoot s.tasks.length ∨
    (∃ outcome, job = .closed s.tasks.length outcome ∧ ∀ i store, s.storeOf? call = some i →
      s.remote? i = some store → store.owned = false → outcome = .ok none) ∨
    ∃ i, s.Opens call i ∧ job.link? = some i
  link i := s.storeOf? call = some i
  call
    | .connect => ∃ i, s.Opens call i
    | .quit | .disconnect => ∃ i store, s.storeOf? call = some i ∧ s.remote? i = some store ∧
        store.owned = true
    | .storeStart | .storeAllow .. | .storeClose => True
    | _ => False
  notice _ := True
  finish := (· = s.tasks.length)
  begins := True
  regular := call.Stops

/-- What an event may do. -/
def scope (s : Deployment α) : Event α → Scope α
  | .start call => s.startScope call
  | .work n =>
    match s.agenda[n]? with
    | some (0, job) => s.jobScope job
    | some (_, job) => { job := (· = job), turns := mostTurns }
    | none => {}
  | .alarm n =>
    match s.timers[n]?.map Timer.alarm with
    | some (.deadline t _) => { task := (· = t), job := (· = .resume t) }
    | some (.reply _ job) => { job := (· = job), turns := mostTurns }
    | some (.sweep ..) =>
      { call := fun call => ∃ now, call = .storeSweep now
        notice := fun notice => notice.isOnCheck = false
        regular := True }
    | none => {}
  | .tick _ | .relink .. => {}
  | .abort signal =>
    { task := fun t => (signal, t) ∈ s.listeners
      job := fun job => ∃ t, (signal, t) ∈ s.listeners ∧ job = .resume t
      signal := (· = signal) }
  | .hangUp t =>
    { task := fun u => (.request t, u) ∈ s.listeners
      job := fun job => ∃ u, (.request t, u) ∈ s.listeners ∧ job = .resume u
      signal := (· = .request t)
      finish := (· = t) }
  | .linkFault .. => { notice := fun notice => notice.isOnCheck = false }
  | .sweep .. =>
    { call := fun call => ∃ now, call = .storeSweep now
      notice := fun notice => notice.isOnCheck = false }

/-- What an event takes away from what is ready or under way before it does anything. -/
def taken (s : Deployment α) : Event α → Deployment α
  | .work n => { s with agenda := s.agenda.eraseIdx n }
  | .alarm n => { s with timers := s.timers.eraseIdx n }
  | .tick clock => { s with clock }
  | _ => s

/-- No work that is ready or under way lets more turns pass than any job may. -/
structure Prompt (s : Deployment α) : Prop where
  agenda : ∀ entry ∈ s.agenda, entry.1 ≤ mostTurns
  timers : ∀ timer ∈ s.timers, ∀ turns job, timer.alarm = .reply turns job → turns ≤ mostTurns

section

variable [Scalar α]

theorem Prompt.apply {p : Scope α} (hp : p.turns ≤ mostTurns) {s : Deployment α} (h : s.Prompt)
    {m : Move α} (hm : m.Within p) : (m.apply s).Prompt := by
  obtain ⟨hagenda, htimers⟩ := h
  cases m with
  | post turns job =>
    refine ⟨fun entry hentry => ?_, htimers⟩
    rcases List.mem_append.mp hentry with hold | hnew
    · exact hagenda entry hold
    · rw [List.mem_singleton.mp hnew]
      exact Nat.le_trans hm.1 hp
  | setTimer delay alarm =>
    refine ⟨hagenda, fun timer htimer turns job halarm => ?_⟩
    rcases List.mem_append.mp htimer with hold | hnew
    · exact htimers timer hold turns job halarm
    · rw [List.mem_singleton.mp hnew] at halarm
      cases halarm
      exact hm.1
  | release t =>
    exact ⟨hagenda, fun timer htimer => htimers timer (List.mem_filter.mp htimer).1⟩
  | removeInterval name =>
    exact ⟨hagenda, fun timer htimer => htimers timer (List.mem_filter.mp htimer).1⟩
  | fill | join | unlink | consume | setInterval =>
    simp only [Move.apply]
    split <;> exact ⟨hagenda, htimers⟩
  | _ => exact ⟨hagenda, htimers⟩

theorem Move.tasks_length_le (m : Move α) (s : Deployment α) :
    s.tasks.length ≤ (m.apply s).tasks.length := by
  cases m with
  | setProgress u progress => simp [Move.apply, Deployment.setProgress]
  | settle u settlement => simp [Move.apply, Deployment.settle, Deployment.setProgress]
  | newTask store purpose => simp [Move.apply, Deployment.newTask]
  | fill | join | unlink | consume | setInterval =>
    simp only [Move.apply]
    split <;> exact Nat.le_refl _
  | _ => exact Nat.le_refl _

theorem Moves.tasks_length_le {p : Scope α} {s s' : Deployment α} (h : Moves p s s') :
    s.tasks.length ≤ s'.tasks.length := by
  induction h with
  | refl => exact Nat.le_refl _
  | tail m _ _ ih => exact Nat.le_trans ih (m.tasks_length_le _)

theorem Moves.tasks_length_eq {p : Scope α} {s s' : Deployment α} (h : Moves p s s')
    (hp : ¬p.begins) : s'.tasks.length = s.tasks.length := by
  induction h with
  | refl => rfl
  | tail m _ hm ih =>
    refine Eq.trans ?_ ih
    cases m with
    | setProgress u progress => simp [Move.apply, Deployment.setProgress]
    | settle u settlement => simp [Move.apply, Deployment.settle, Deployment.setProgress]
    | newTask store purpose => exact absurd hm hp
    | fill | join | unlink | consume | setInterval =>
      simp only [Move.apply]
      split <;> rfl
    | _ => rfl

theorem Prompt.moves {p : Scope α} (hp : p.turns ≤ mostTurns) {s s' : Deployment α} (h : s.Prompt)
    (hmoves : Moves p s s') : s'.Prompt := by
  induction hmoves with
  | refl => exact h
  | tail m _ hm ih => exact ih.apply hp hm

omit [Scalar α] in
theorem Fresh.prompt {s : Deployment α} (h : s.Fresh) : s.Prompt :=
  ⟨by simp [h.agenda], by simp [h.timers]⟩

omit [Scalar α] in
theorem Prompt.taken {s : Deployment α} (h : s.Prompt) (e : Event α) : (s.taken e).Prompt := by
  cases e with
  | work n => exact ⟨fun entry hentry => h.agenda entry (List.mem_of_mem_eraseIdx hentry), h.timers⟩
  | alarm n =>
    exact ⟨h.agenda, fun timer htimer => h.timers timer (List.mem_of_mem_eraseIdx htimer)⟩
  | _ => exact ⟨h.agenda, h.timers⟩

end

theorem remote?_eq_some_iff {s : Deployment α} {i : StoreId} {store : RedisStore α} :
    s.remote? i = some store ↔ s.stores[i]? = some (.redis store) := by
  unfold remote?
  split <;> simp_all

theorem waiters_of_remote? {s : Deployment α} {i : StoreId} {store : RedisStore α}
    (h : s.remote? i = some store) : s.waiters i = store.attempt.getD [] := by
  simp [waiters, attempt?, h]

section

variable [Scalar α] [Textual α]

theorem resume_moves (s : Deployment α) (t : TaskId) :
    Moves (s.jobScope (.resume t)) s (s.resume t) := by
  have h := Moves.refl (p := s.jobScope (.resume t)) s
  unfold resume
  split
  · next i _ stage outcome _ =>
    split
    · exact h.post (Nat.zero_le _) (Or.inr ⟨_, rfl⟩)
    · exact h.bootLinked rfl (fun _ hown => Or.inl hown) (fun _ hn => hn) rfl _ _
    · exact h.bootAnswered (fun _ => Or.inl rfl) (fun _ hn => hn) _ _
    · exact h
  · exact h

theorem run_moves (s : Deployment α) (job : Job α) : Moves (s.jobScope job) s (s.run job) := by
  have h := Moves.refl (p := s.jobScope job) s
  cases job with
  | evaluate t => exact h.evaluate (Nat.le_refl _) (fun _ => ⟨_, rfl⟩) fun _ => ⟨_, rfl⟩
  | answer t outcome => exact h.answer rfl rfl outcome
  | resume t => exact s.resume_moves t
  | conclude t verdict => exact h.conclude rfl rfl (fun _ hn => hn) verdict
  | linkSettled i outcome status =>
    refine h.linkSettled (Nat.le_refl _) rfl outcome status fun store hstore t ht => ?_
    have hwaits : t ∈ s.waiters i := by
      rwa [waiters_of_remote? (remote?_eq_some_iff.mpr hstore)]
    exact ⟨⟨t, hwaits, Or.inl rfl⟩, fun answer hok => ⟨t, hwaits, Or.inr ⟨⟨answer, hok⟩, rfl⟩⟩⟩
  | started t outcome => exact h.started rfl rfl trivial (fun _ hn => hn) outcome
  | closed t outcome =>
    exact h.closed rfl rfl (fun _ hn => hn) outcome (fun fault hf => ⟨rfl, fault, hf⟩) id

section Start

variable {s s' : Deployment α} {call : Start α} {i : StoreId}

/-- The scope of what is done until a call has become a task. -/
def preludeScope (s : Deployment α) (call : Start α) : Scope α where
  finish := (· = s.tasks.length)
  begins := True
  regular := call.Stops

/-- What may be done before a call becomes a task: no task, store or client changes. -/
structure Prelude (s : Deployment α) (call : Start α) (s' : Deployment α) : Prop where
  moves : ∀ p : Scope α, p.finish s.tasks.length → (call.Stops → p.regular) → Moves p s s'
  tasks : s'.tasks = s.tasks
  stores : s'.stores = s.stores
  clients : s'.clients = s.clients

omit [Textual α] in
theorem Prelude.tasks_length_eq (h : Prelude s call s') : s'.tasks.length = s.tasks.length :=
  congrArg List.length h.tasks

omit [Textual α] in
theorem Prelude.refl (s : Deployment α) (call : Start α) : Prelude s call s :=
  ⟨fun _ _ _ => .refl s, rfl, rfl, rfl⟩

omit [Textual α] in
theorem Prelude.attach (s : Deployment α) (call : Start α) :
    Prelude s call { s with attached := s.attached ++ [s.tasks.length] } :=
  ⟨fun _ hfinish _ => (Moves.refl s).tail (.attach s.tasks.length) hfinish, rfl, rfl, rfl⟩

/-- The ways in which a call begins: it checks a key, makes its store ready, closes its store, or
ends at once. -/
inductive Begins (s : Deployment α) (call : Start α) : Deployment α → Prop
  | check {s' : Deployment α} {i : StoreId} (hs' : Prelude s call s')
      (hi : s.storeOf? call = some i) (c : Check α) : Begins s call (s'.startCheck i c)
  | boot {s' : Deployment α} {i : StoreId} (hs' : Prelude s call s') (hi : s.storeOf? call = some i)
      (limiter : Option LimiterId) (failed : Fault α → Settlement α)
      (hlimiter : ∀ l, limiter = some l → call = .bootLimiter l) :
      Begins s call ((s'.newTask i (.boot limiter)).2.boot s'.tasks.length i failed)
  | close {s' : Deployment α} {i : StoreId} (hs' : Prelude s call s')
      (hi : s.storeOf? call = some i) (closer : Closer)
      (hcloser : closer = .application → ∃ l, call = .shutDown l) :
      Begins s call ((s'.newTask i (.close closer)).2.close s'.tasks.length i closer)
  | ended {s' : Deployment α} (hs' : Prelude s call s') (i : StoreId) (purpose : Purpose α)
      (settlement : Settlement α) :
      Begins s call ((s'.newTask i purpose).2.settle s'.tasks.length settlement)

theorem Begins.request (hs' : Prelude s call s') {limiter : Limiter α}
    (hi : s.storeOf? call = some limiter.store) (origin : Origin) (request : Option (Request α))
    (signal : Option SignalId) (failed : Fault α → Settlement α) :
    Begins s call (s'.startRequest limiter origin request signal failed) := by
  unfold startRequest
  dsimp only
  split
  · exact .check hs' hi _
  · have hdetached : Prelude s call (s'.detach s'.tasks.length) := by
      refine ⟨fun p hfinish hregular => ?_, hs'.tasks, hs'.stores, hs'.clients⟩
      exact (hs'.moves p hfinish hregular).detach (hs'.tasks ▸ hfinish)
    exact .ended hdetached limiter.store _ _

omit [Textual α] in
theorem Prelude.cancelSweep (s : Deployment α) {call : Start α} (hcall : call.Stops)
    (l : LimiterId) : Prelude s call (s.cancelSweep l) := by
  refine ⟨fun p _ hregular => (Moves.refl s).cancelSweep (hregular hcall) l, ?_, ?_, ?_⟩ <;>
    unfold Deployment.cancelSweep <;> split <;> first | rfl | (split <;> rfl)

theorem begins_start (s : Deployment α) (call : Start α) : Begins s call (s.start call) := by
  have hs := Prelude.refl s call
  -- A call on a limiter that is not there is refused; otherwise it is on the limiter's store.
  have hlimiter : ∀ (l : LimiterId) (f : Limiter α → Deployment α),
      s.storeOf? call = s.limiters[l]?.map Limiter.store →
      (∀ limiter, s.storeOf? call = some limiter.store → Begins s call (f limiter)) →
      Begins s call (s.onLimiter l f) := by
    intro l f hcall hf
    unfold onLimiter
    split
    · next limiter hl => exact hf limiter (by rw [hcall, hl]; rfl)
    · exact .ended hs _ _ _
  have hstore : ∀ (i : StoreId) (purpose : Purpose α) (f : TaskId → Deployment α → Deployment α),
      Begins s call (f s.tasks.length (s.newTask i purpose).2) →
      Begins s call (s.onStore i purpose f) := by
    intro i purpose f hf
    unfold onStore
    split
    · exact hf
    · exact .ended hs _ _ _
  cases call with
  | ask i key now signal =>
    let c : Check α := ⟨.store, key, s.callKey key, now, signal⟩
    exact hstore i (.check c) (fun t s => s.check t i c) (.check hs rfl c)
  | bootStore i =>
    exact hstore i (.boot none) (fun t s => s.boot t i .thrown) (.boot hs rfl none _ nofun)
  | closeStore i =>
    exact hstore i (.close .store) (fun t s => s.close t i .store) (.close hs rfl .store nofun)
  | allow l key now signal => exact hlimiter l _ rfl fun limiter hi => .check hs hi _
  | decide l request signal => exact hlimiter l _ rfl fun limiter hi => .request hs hi _ _ _ _
  | pass l request =>
    exact hlimiter l _ rfl fun limiter hi => .request (Prelude.attach s _) hi _ _ _ _
  | enter l request => exact hlimiter l _ rfl fun limiter hi => .request hs hi _ _ _ _
  | bootLimiter l =>
    exact hlimiter l _ rfl fun limiter hi => .boot hs hi (some l) _ fun k hk =>
      congrArg Start.bootLimiter (Option.some.inj hk)
  | closeLimiter l =>
    have hstops : (Start.closeLimiter l : Start α).Stops := trivial
    exact hlimiter l _ rfl fun limiter hi => .close (.cancelSweep s hstops l) hi .limiter nofun
  | shutDown l =>
    have hstops : (Start.shutDown l : Start α).Stops := trivial
    exact hlimiter l _ rfl fun limiter hi =>
      .close (.cancelSweep s hstops l) hi .application fun _ => ⟨l, rfl⟩

omit [Textual α] in
/-- Whether a store will connect its client is the same after the prelude to a call. -/
theorem Prelude.opens (hs' : Prelude s call s') (hi : s.storeOf? call = some i)
    {store : RedisStore α} (hstore : s'.stores[i]? = some (.redis store))
    (howned : store.owned = true) (hattempt : store.attempt = none)
    (hstatus : s'.linkStatus store.client = .waiting) : s.Opens call i := by
  refine ⟨store, hi, remote?_eq_some_iff.mpr (hs'.stores ▸ hstore), howned, hattempt, ?_⟩
  unfold linkStatus at hstatus ⊢
  exact hs'.clients ▸ hstatus

theorem start_moves (s : Deployment α) (call : Start α) :
    Moves (s.startScope call) s (s.start call) := by
  have hnew : ∀ {s'}, Prelude s call s' → s'.tasks.length = s.tasks.length :=
    fun hs' => congrArg List.length hs'.tasks
  have hmoves : ∀ {s'}, Prelude s call s' → Moves (s.startScope call) s s' :=
    fun hs' => hs'.moves _ rfl id
  have hbegins := begins_start s call
  generalize s.start call = s'' at hbegins ⊢
  cases hbegins with
  | @check s' i hs' hi c =>
    refine ((hmoves hs').newTask trivial i (.check c)).check hi (hnew hs') (hnew hs')
      (fun job hown => Or.inl (hs'.tasks ▸ hown)) (fun _ => trivial) (fun _ _ _ => trivial)
      (fun store hstore howned hattempt hstatus => ?_) c
    have hopens := hs'.opens hi hstore howned hattempt hstatus
    exact ⟨⟨i, hopens⟩, fun _ _ => Or.inr (Or.inr (Or.inr ⟨i, hopens, rfl⟩))⟩
  | @boot s' i hs' hi limiter failed =>
    refine ((hmoves hs').newTask trivial i (.boot limiter)).boot hi (hnew hs') (hnew hs')
      (fun job hown => Or.inr (Or.inl (hs'.tasks ▸ hown))) (fun _ _ => trivial) trivial
      (fun store hstore howned hattempt hstatus => ?_) failed
    have hopens := hs'.opens hi hstore howned hattempt hstatus
    exact ⟨⟨i, hopens⟩, fun _ _ => Or.inr (Or.inr (Or.inr ⟨i, hopens, rfl⟩))⟩
  | @close s' i hs' hi closer hcloser =>
    have hstops : closer = .application → call.Stops := by
      intro h
      obtain ⟨l, rfl⟩ := hcloser h
      exact trivial
    refine ((hmoves hs').newTask trivial i (.close closer)).close (hnew hs') (hnew hs')
      (fun outcome hsupplied => ?_) (fun _ _ => trivial) trivial (fun store hstore howned => ?_)
      closer hstops
    · refine Or.inr (Or.inr (Or.inl ⟨outcome, by rw [hs'.tasks], ?_⟩))
      intro j store hj hstore howned
      obtain rfl : i = j := Option.some.inj (hi.symm.trans hj)
      exact hsupplied store (hs'.stores ▸ remote?_eq_some_iff.mp hstore) howned
    · have hremote := remote?_eq_some_iff.mpr (hs'.stores ▸ hstore)
      exact ⟨⟨i, store, hi, hremote, howned⟩, ⟨i, store, hi, hremote, howned⟩⟩
  | ended hs' i purpose settlement =>
    exact ((hmoves hs').newTask trivial i purpose).settle (hnew hs') (hnew hs') _

/-- The scope of what a call may do once it has become a task. -/
def taskScope : Scope α := { Scope.any with begins := False }

/-- Whatever a call does, it does after it has become a task. Unless it ends at once, it starts the
limiter, or shuts the application down, that it was meant to. -/
theorem start_newTask (s : Deployment α) (call : Start α) :
    ∃ s' i purpose, Prelude s call s' ∧
      Moves taskScope (s'.newTask i purpose).2 (s.start call) ∧
      ((∃ settlement, (s.tasks.length, settlement) ∈ (s.start call).settled) ∨
        (∀ l, purpose = .boot (some l) → call = .bootLimiter l) ∧
        (purpose = .close .application → ∃ l, call = .shutDown l)) := by
  have hbegins := begins_start s call
  generalize s.start call = s'' at hbegins ⊢
  cases hbegins with
  | @check s' i hs' hi c =>
    exact ⟨s', i, .check c, hs', (Moves.refl _).check trivial trivial trivial (fun _ _ => trivial)
      (fun _ => trivial) (fun _ _ _ => trivial) (fun _ _ _ _ _ => ⟨trivial, fun _ _ => trivial⟩) c,
      Or.inr ⟨nofun, nofun⟩⟩
  | @boot s' i hs' hi limiter failed hlimiter =>
    exact ⟨s', i, .boot limiter, hs', (Moves.refl _).boot trivial trivial trivial
      (fun _ _ => trivial) (fun _ _ => trivial) trivial
      (fun _ _ _ _ _ => ⟨trivial, fun _ _ => trivial⟩) failed,
      Or.inr ⟨fun l h => hlimiter l (Purpose.boot.inj h), nofun⟩⟩
  | @close s' i hs' hi closer hcloser =>
    exact ⟨s', i, .close closer, hs', (Moves.refl _).close trivial trivial (fun _ _ => trivial)
      (fun _ _ => trivial) trivial (fun _ _ _ => ⟨trivial, trivial⟩) closer fun _ => trivial,
      Or.inr ⟨nofun, fun h => hcloser (Purpose.close.inj h)⟩⟩
  | @ended s' hs' i purpose settlement =>
    refine ⟨s', i, purpose, hs', (Moves.refl _).settle trivial trivial settlement,
      Or.inl ⟨settlement, List.mem_append_right _ ?_⟩⟩
    rw [hs'.tasks]
    exact List.mem_cons_self

theorem tasks_length_start (s : Deployment α) (call : Start α) :
    (s.start call).tasks.length = s.tasks.length + 1 := by
  obtain ⟨s', i, purpose, hs', hmoves, -⟩ := start_newTask s call
  rw [hmoves.tasks_length_eq id]
  simp [newTask, hs'.tasks]

end Start

theorem happen_moves {s : Deployment α} (hs : s.Prompt) (e : Event α) :
    Moves (s.scope e) (s.taken e) (s.happen e) := by
  have h := Moves.refl (p := s.scope e) (s.taken e)
  cases e with
  | start call => exact s.start_moves call
  | work n =>
    simp only [happen, scope, taken] at h ⊢
    cases hentry : s.agenda[n]? with
    | none =>
      rw [List.eraseIdx_of_length_le (List.getElem?_eq_none_iff.mp hentry)]
      exact .refl s
    | some entry =>
      rw [hentry] at h
      obtain ⟨turns, job⟩ := entry
      cases turns with
      | zero => exact run_moves { s with agenda := s.agenda.eraseIdx n } job
      | succ turns =>
        have hbound := hs.agenda _ (List.mem_of_getElem? hentry)
        exact h.post (Nat.le_of_succ_le hbound) rfl
  | alarm n =>
    simp only [happen, scope, taken] at h ⊢
    cases htimer : s.timers[n]? with
    | none =>
      rw [List.eraseIdx_of_length_le (List.getElem?_eq_none_iff.mp htimer)]
      exact .refl s
    | some timer =>
      rw [htimer] at h
      obtain ⟨due, alarm⟩ := timer
      cases alarm with
      | deadline t text => exact h.endWait rfl rfl _
      | reply turns job =>
        exact h.post (hs.timers _ (List.mem_of_getElem? htimer) turns job rfl) rfl
      | sweep l name period =>
        exact (h.sweep (fun _ hn => hn) (fun now => ⟨now, rfl⟩) l _).setTimer period _ trivial
  | tick clock => exact h
  | abort signal => exact h.abort rfl fun t ht => ⟨ht, t, ht, rfl⟩
  | hangUp t => exact h.hangUp rfl rfl fun u hu => ⟨hu, u, hu, rfl⟩
  | relink client status => exact h.setLinkStatus client status
  | linkFault i message =>
    simp only [happen, linkFault]
    split
    · split
      · exact h.note rfl
      · split <;> exact h.tail (.raise _) trivial
    · exact h.tail (.raise _) trivial
  | sweep l now => exact h.sweep (fun _ hn => hn) (fun now => ⟨now, rfl⟩) l now

omit [Scalar α] [Textual α] in
theorem turns_scope_le (s : Deployment α) (e : Event α) : (s.scope e).turns ≤ mostTurns := by
  cases e with
  | work n =>
    simp only [scope]
    split
    · next job _ => cases job <;> simp [jobScope, mostTurns]
    · exact Nat.le_refl _
    · exact Nat.zero_le _
  | alarm n =>
    simp only [scope]
    split <;> first | exact Nat.zero_le _ | exact Nat.le_refl _
  | _ => exact Nat.zero_le _

omit [Scalar α] [Textual α] in
theorem not_begins_of_not_start {s : Deployment α} {e : Event α} (he : ∀ call, e ≠ .start call) :
    ¬(s.scope e).begins := by
  cases e with
  | start call => exact absurd rfl (he call)
  | work n =>
    simp only [scope]
    split
    · next job _ => cases job <;> exact id
    · exact id
    · exact id
  | alarm n =>
    simp only [scope]
    split <;> exact id
  | _ => exact id

theorem Prompt.happen {s : Deployment α} (h : s.Prompt) (e : Event α) : (s.happen e).Prompt :=
  (h.taken e).moves (s.turns_scope_le e) (happen_moves h e)

theorem Prompt.after {s : Deployment α} (h : s.Prompt) (events : List (Event α)) :
    (s.after events).Prompt := by
  induction events generalizing s with
  | nil => exact h
  | cons e events ih => exact ih (h.happen e)

/-- Handing a check to a store leaves no work that lets too many turns pass. -/
theorem Prompt.startCheck {s : Deployment α} (h : s.Prompt) (i : StoreId) (c : Check α) :
    (s.startCheck i c).Prompt :=
  h.moves (Nat.le_refl _) (((Moves.refl (p := .any) s).newTask trivial i (.check c)).check
    trivial trivial trivial (fun _ _ => trivial) (fun _ => trivial) (fun _ _ _ => trivial)
    (fun _ _ _ _ _ => ⟨trivial, fun _ _ => trivial⟩) c)

theorem Reachable.prompt {s : Deployment α} (h : s.Reachable) : s.Prompt :=
  h.induction (fun _ hfresh => hfresh.prompt) fun _ e hs => hs.happen e

end

end Admission.Deployment
