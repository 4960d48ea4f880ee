import Admission.Proofs.Deployment.JourneyRun

/-!
Attempts to connect.

A store that built its client connects it for the first call that needs the connection, and calls
that come while the attempt is under way wait for it too. `Connects` says once what asking for the
connection comes to, and `Arrives` what a call does that asks for it. The ends of attempts that are
ready or on their way are counted: there is one at most, and none while no attempt is under way.
-/
namespace Admission

/-- The end that a job brings to the attempt to connect a store. -/
def Job.linkEnd? {α : Type} (i : StoreId) : Job α → Option (Outcome α)
  | .linkSettled j outcome _ => if j = i then some outcome else none
  | _ => none

theorem Job.linkEnd?_eq_none {α : Type} {job : Job α} {i : StoreId} (h : job.link? ≠ some i) :
    job.linkEnd? i = none := by
  cases job with
  | linkSettled j outcome status => exact if_neg fun hj => h (congrArg some hj)
  | _ => rfl

namespace Deployment

variable {α : Type}

/-- The work that is ready or on its way. -/
def pending (s : Deployment α) : Multiset (Job α) := s.ready + s.awaited

/-- The ends of attempts to connect a store that are ready or on their way. -/
def links (s : Deployment α) (i : StoreId) : Multiset (Outcome α) :=
  s.pending.filterMap (Job.linkEnd? i)

/-- The end that an event brings to the attempt to connect a store. -/
def linkEnd? (s : Deployment α) (i : StoreId) : Event α → Option (Outcome α)
  | .work n =>
    match s.agenda[n]? with
    | some (0, job) => job.linkEnd? i
    | _ => none
  | _ => none

section

variable [Scalar α]

/-! Work that moves leave behind -/

theorem Moves.exists_pending_eq {p : Scope α} {s s' : Deployment α} (h : Moves p s s') :
    ∃ more, s'.pending = s.pending + more ∧ ∀ job ∈ more, p.job job := by
  induction h with
  | refl => exact ⟨0, by simp, by simp⟩
  | @tail s' m _ hm ih =>
    obtain ⟨more, hpending, hmore⟩ := ih
    have hsame : (m.apply s').pending = s'.pending →
        ∃ more, (m.apply s').pending = s.pending + more ∧ ∀ job ∈ more, p.job job :=
      fun heq => ⟨more, heq.trans hpending, hmore⟩
    have hadded : ∀ job, p.job job → (m.apply s').pending = job ::ₘ s'.pending →
        ∃ more, (m.apply s').pending = s.pending + more ∧ ∀ job ∈ more, p.job job := by
      intro job hjob heq
      refine ⟨job ::ₘ more, by rw [heq, hpending, Multiset.add_cons], fun other hother => ?_⟩
      rcases Multiset.mem_cons.mp hother with rfl | hold
      · exact hjob
      · exact hmore other hold
    cases m with
    | post turns job =>
      refine hadded job hm.2 ?_
      show (s'.post turns job).ready + s'.awaited = _
      rw [ready_post, Multiset.cons_add]
      rfl
    | setTimer delay alarm =>
      cases alarm with
      | reply turns job =>
        refine hadded job hm.2 ?_
        show s'.ready + (s'.setTimer delay (.reply turns job)).awaited = _
        rw [awaited_setTimer_reply, Multiset.add_cons]
        rfl
      | _ => exact hsame (congrArg (s'.ready + ·) (awaited_setTimer_other (by nofun) delay))
    | release t => exact hsame (congrArg (s'.ready + ·) (awaited_release s' t))
    | removeInterval name => exact hsame (congrArg (s'.ready + ·) (awaited_removeInterval s' name))
    | fill | join | unlink | consume | setInterval =>
      refine hsame ?_
      simp only [Move.apply]
      split <;> rfl
    | _ => exact hsame rfl

theorem Moves.links_eq {p : Scope α} {s s' : Deployment α} (h : Moves p s s') {i : StoreId}
    (hjob : ∀ job, p.job job → job.link? ≠ some i) : s'.links i = s.links i := by
  obtain ⟨more, hpending, hmore⟩ := h.exists_pending_eq
  have hnone : more.filterMap (Job.linkEnd? i) = 0 := by
    refine Multiset.eq_zero_of_forall_notMem fun outcome houtcome => ?_
    obtain ⟨job, hmem, hlink⟩ := (Multiset.mem_filterMap _ _).mp houtcome
    rw [Job.linkEnd?_eq_none (hjob job (hmore job hmem))] at hlink
    cases hlink
  rw [links, hpending, Multiset.filterMap_add, hnone, Multiset.add_zero]
  rfl

/-! Calls that are seen -/

/-- What is seen of a call of a client. Only a client that follows a script tells. -/
def shown (s : Deployment α) (c : ClientId) (call : ClientCall α) : List (Call α) :=
  match s.clients[c]?.map Client.kind with
  | some (.scripted _) => [call.recorded]
  | _ => []

theorem calls_callClient [Textual α] (s : Deployment α) (c : ClientId) (call : ClientCall α) :
    (s.callClient c call).2.calls = s.calls ++ s.shown c call := by
  unfold callClient shown
  rcases s.clients[c]? with _ | ⟨_ | _ | _, status⟩
  · exact (List.append_nil _).symm
  · rfl
  · refine Eq.trans ?_ (List.append_nil _).symm
    cases call with
    | eval evaluation =>
      simp only [evalHere]
      split
      · rfl
      · split <;> rfl
    | _ => rfl
  · exact (List.append_nil _).symm

/-- The calls that an event makes. -/
def made [Textual α] (s : Deployment α) (ev : Event α) : List (Call α) :=
  (s.happen ev).calls.drop s.calls.length

omit [Scalar α] in
@[simp] theorem calls_taken (s : Deployment α) (ev : Event α) : (s.taken ev).calls = s.calls := by
  cases ev <;> rfl

theorem made_eq [Textual α] {s : Deployment α} {ev : Event α} {more : List (Call α)}
    (h : (s.happen ev).calls = s.calls ++ more) : s.made ev = more := by
  rw [made, h, List.drop_left]

theorem call_of_mem_made [Textual α] {s : Deployment α} (hs : s.Prompt) {ev : Event α}
    {call : Call α} (h : call ∈ s.made ev) : (s.scope ev).call call := by
  obtain ⟨more, hcalls, hmore⟩ := (happen_moves hs ev).exists_calls_eq
  rw [calls_taken] at hcalls
  exact hmore call (made_eq hcalls ▸ h)

/-- What makes which calls. -/
inductive Makes (s : Deployment α) : Event α → Call α → Prop
  | starts {start : Start α} {call : Call α} (h : (s.startScope start).call call) :
      Makes s (.start start) call
  | evaluates {n : Nat} {t : TaskId} (h : s.agenda[n]? = some (0, .evaluate t))
      (evaluation : Evaluation α) : Makes s (.work n) (.eval evaluation)
  | resumes {n : Nat} {t : TaskId} (h : s.agenda[n]? = some (0, .resume t)) :
      Makes s (.work n) .ping
  | closes {n : Nat} {t : TaskId} {fault : Fault α}
      (h : s.agenda[n]? = some (0, .closed t (.error fault))) : Makes s (.work n) .disconnect
  | sweeps (ev : Event α) (now : Option (Value α)) : Makes s ev (.storeSweep now)

theorem makes_of_mem_made [Textual α] {s : Deployment α} (hs : s.Prompt) {ev : Event α}
    {call : Call α} (h : call ∈ s.made ev) : s.Makes ev call := by
  have hscope := call_of_mem_made hs h
  cases ev with
  | start begun => exact .starts hscope
  | work n =>
    simp only [scope] at hscope
    split at hscope
    · next job hentry =>
      cases job with
      | evaluate t =>
        obtain ⟨evaluation, rfl⟩ := hscope
        exact .evaluates hentry evaluation
      | resume t =>
        obtain rfl := hscope
        exact .resumes hentry
      | closed t outcome =>
        obtain ⟨rfl, fault, rfl⟩ := hscope
        exact .closes hentry
      | _ => exact hscope.elim
    · exact hscope.elim
    · exact hscope.elim
  | alarm n =>
    simp only [scope] at hscope
    split at hscope
    · exact hscope.elim
    · exact hscope.elim
    · obtain ⟨now, rfl⟩ := hscope
      exact .sweeps _ now
    · exact hscope.elim
  | sweep l now =>
    obtain ⟨now, rfl⟩ := hscope
    exact .sweeps _ now
  | _ => exact hscope.elim

/-! Ends of attempts -/

omit [Scalar α] in
theorem pending_taken_work {s : Deployment α} {n turns : Nat} {job : Job α}
    (h : s.agenda[n]? = some (turns, job)) :
    s.pending = job ::ₘ (s.taken (.work n)).pending := by
  rw [pending, ready_taken h, Multiset.cons_add]
  rfl

omit [Scalar α] in
theorem pending_taken_alarm {s : Deployment α} {n : Nat} {timer : Timer α}
    (h : s.timers[n]? = some timer) :
    s.pending = (timer.reply?.toList : Multiset (Job α)) + (s.taken (.alarm n)).pending := by
  show s.ready + s.awaited = _ + (s.ready + (s.taken (.alarm n)).awaited)
  cases hreply : timer.reply? with
  | none => simp [awaited_taken_other h hreply]
  | some job => simp [awaited_taken h hreply]

omit [Scalar α] in
theorem pending_post (s : Deployment α) (turns : Nat) (job : Job α) :
    (s.post turns job).pending = job ::ₘ s.pending := by
  show (s.post turns job).ready + s.awaited = _
  rw [ready_post, Multiset.cons_add]
  rfl

theorem pending_setTimer (s : Deployment α) (delay : α) (turns : Nat) (job : Job α) :
    (s.setTimer delay (.reply turns job)).pending = job ::ₘ s.pending := by
  show s.ready + (s.setTimer delay (.reply turns job)).awaited = _
  rw [awaited_setTimer_reply, Multiset.add_cons]
  rfl

omit [Scalar α] in
theorem links_cons {s s' : Deployment α} {job : Job α} (h : s.pending = job ::ₘ s'.pending)
    (i : StoreId) : s.links i = ((job.linkEnd? i).toList : Multiset (Outcome α)) + s'.links i := by
  rw [links, h, Multiset.filterMap_cons]
  cases job.linkEnd? i <;> rfl

omit [Scalar α] in
/-- Work that a piece of work leaves behind does not end an attempt. -/
theorem link?_of_jobScope {s : Deployment α} {job next : Job α} (h : (s.jobScope job).job next)
    (i : StoreId) : next.link? ≠ some i := by
  have hboot : ∀ {t}, next.IsOfBoot t → next.link? ≠ some i := fun hboot hlink =>
    nomatch (owner?_of_isOfBoot hboot).symm.trans (owner?_of_link? hlink)
  cases job with
  | evaluate t =>
    obtain ⟨outcome, rfl⟩ := h
    exact nofun
  | answer t outcome =>
    obtain rfl := h
    exact nofun
  | resume t =>
    obtain h | ⟨verdict, rfl⟩ := h
    · exact hboot h
    · exact nofun
  | linkSettled j outcome status =>
    obtain ⟨t, -, rfl | ⟨-, rfl⟩⟩ := h <;> exact nofun
  | conclude => exact h.elim
  | started => exact h.elim
  | closed => exact h.elim

variable [Textual α]

theorem links_happen_of_pending {s : Deployment α} (hs : s.Prompt) {ev : Event α} {i : StoreId}
    (htaken : (s.taken ev).pending = s.pending)
    (hjob : ∀ job, (s.scope ev).job job → job.link? ≠ some i) :
    (s.happen ev).links i = s.links i := by
  rw [(happen_moves hs ev).links_eq hjob, links, links, htaken]

theorem links_happen_work {s : Deployment α} (hs : s.Prompt) (n : Nat) (i : StoreId) :
    s.links i =
      ((s.linkEnd? i (.work n)).toList : Multiset (Outcome α)) + (s.happen (.work n)).links i := by
  cases hentry : s.agenda[n]? with
  | none =>
    have hnone : s.linkEnd? i (.work n) = none := by simp [linkEnd?, hentry]
    have hnothing : s.happen (.work n) = s := by simp only [happen, hentry]
    rw [hnone, hnothing]
    simp
  | some entry =>
    obtain ⟨turns, job⟩ := entry
    have htaken := links_cons (pending_taken_work hentry) i
    cases turns with
    | zero =>
      have hend : s.linkEnd? i (.work n) = job.linkEnd? i := by simp [linkEnd?, hentry]
      have hrun : (s.happen (.work n)).links i = (s.taken (.work n)).links i := by
        refine (happen_moves hs (.work n)).links_eq fun next hnext => ?_
        rw [scope, hentry] at hnext
        exact link?_of_jobScope hnext i
      rw [htaken, hend, hrun]
    | succ turns =>
      have hnone : s.linkEnd? i (.work n) = none := by simp [linkEnd?, hentry]
      have hhappen : s.happen (.work n) = (s.taken (.work n)).post turns job := by
        simp only [happen, hentry, taken, turn]
      rw [hnone, hhappen, htaken, ← links_cons (pending_post (s.taken (.work n)) turns job) i]
      simp

theorem links_happen_alarm {s : Deployment α} (hs : s.Prompt) (n : Nat) (i : StoreId) :
    (s.happen (.alarm n)).links i = s.links i := by
  cases htimer : s.timers[n]? with
  | none => simp only [happen, htimer]
  | some timer =>
    obtain ⟨due, alarm⟩ := timer
    have htaken := pending_taken_alarm htimer
    cases alarm with
    | reply turns job =>
      have hhappen : s.happen (.alarm n) = (s.taken (.alarm n)).post turns job := by
        simp only [happen, htimer, taken, fire]
      have hposted : s.pending = job ::ₘ (s.taken (.alarm n)).pending := htaken
      rw [hhappen, links, links, hposted, ← pending_post (s.taken (.alarm n)) turns job]
    | deadline t text =>
      refine links_happen_of_pending hs ((Multiset.zero_add _).symm.trans htaken.symm) ?_
      intro job hjob
      rw [scope, htimer] at hjob
      obtain rfl : job = .resume t := hjob
      exact (Option.some_ne_none i).symm
    | sweep l name period =>
      refine links_happen_of_pending hs ((Multiset.zero_add _).symm.trans htaken.symm) ?_
      intro job hjob
      rw [scope, htimer] at hjob
      exact hjob.elim

/-- Once a call has been started, what becomes of the ends of attempts is that they are taken up. -/
theorem links_happen {s : Deployment α} (hs : s.Prompt) {ev : Event α}
    (hev : ∀ call, ev ≠ .start call) (i : StoreId) :
    s.links i = ((s.linkEnd? i ev).toList : Multiset (Outcome α)) + (s.happen ev).links i := by
  have hnothing : (s.happen ev).links i = s.links i → s.linkEnd? i ev = none →
      s.links i = ((s.linkEnd? i ev).toList : Multiset (Outcome α)) + (s.happen ev).links i := by
    intro hsame hnone
    rw [hsame, hnone]
    simp
  cases ev with
  | start call => exact absurd rfl (hev call)
  | work n => exact links_happen_work hs n i
  | alarm n => exact hnothing (links_happen_alarm hs n i) rfl
  | abort signal =>
    refine hnothing (links_happen_of_pending hs rfl ?_) rfl
    rintro job ⟨t, -, rfl⟩
    exact (Option.some_ne_none i).symm
  | hangUp u =>
    refine hnothing (links_happen_of_pending hs rfl ?_) rfl
    rintro job ⟨t, -, rfl⟩
    exact (Option.some_ne_none i).symm
  | _ => exact hnothing (links_happen_of_pending hs rfl fun _ h => h.elim) rfl

/-! Asking for a connection -/

/-- What asking for the connection of a store comes to, for a task that goes on with `w`. -/
inductive Connects (s : Deployment α) (t : TaskId) (i : StoreId) (store : RedisStore α)
    (w : Job α) : Option (Fault α) × Deployment α → Prop
  /-- The task waits for the attempt under way. -/
  | joins {line : List TaskId} (hline : store.attempt = some line) :
      Connects s t i store w
        (none, s.setStore i (.redis { store with attempt := some (line ++ [t]) }))
  /-- The task opens an attempt and waits for it. -/
  | opens (hnone : store.attempt = none) (howned : store.owned = true)
      (hstatus : s.linkStatus store.client = .waiting)
      (hpromise : ∀ fault, (s.callClient store.client .connect).1 ≠ .throws fault) :
      Connects s t i store w
        (none, ((s.callClient store.client .connect).2.setStore i
          (.redis { store with attempt := some [t] })).arrangeLink i store.client
            (s.callClient store.client .connect).1)
  /-- The attempt cannot even be made. -/
  | fails (hnone : store.attempt = none) (howned : store.owned = true)
      (hstatus : s.linkStatus store.client = .waiting) {fault : Fault α}
      (hthrows : (s.callClient store.client .connect).1 = .throws fault) :
      Connects s t i store w (some fault, (s.callClient store.client .connect).2)
  /-- There is nothing to connect, or somebody else does it. -/
  | ready (hnone : store.attempt = none)
      (hready : store.owned = true → s.linkStatus store.client ≠ .waiting) :
      Connects s t i store w (none, s.post 0 w)

theorem connectFor_connects (s : Deployment α) (t : TaskId) (i : StoreId) (store : RedisStore α)
    (whenReady : Job α) : Connects s t i store whenReady (s.connectFor t i store whenReady) := by
  unfold connectFor
  split
  · next line hline => exact .joins hline
  · next hnone =>
    split
    · next hopens =>
      obtain ⟨howned, hstatus⟩ := Bool.and_eq_true_iff.mp hopens
      have hstatus' := beq_iff_eq.mp hstatus
      cases hcalled : s.callClient store.client .connect with
      | mk reply s' =>
        have hopened (hpromise : ∀ fault, reply ≠ .throws fault) :
            Connects s t i store whenReady (none, (s'.setStore i
              (.redis { store with attempt := some [t] })).arrangeLink i store.client reply) := by
          have h := Connects.opens (t := t) (i := i) (w := whenReady) hnone howned hstatus'
            (by rwa [hcalled])
          rwa [hcalled] at h
        cases reply with
        | throws fault =>
          have h := Connects.fails (t := t) (i := i) (w := whenReady) hnone howned hstatus'
            (congrArg Prod.fst hcalled)
          rwa [hcalled] at h
        | _ => exact hopened nofun
    · next hready =>
      refine .ready hnone fun howned hstatus => hready ?_
      simp [howned, hstatus]

namespace Connects

variable {s s' : Deployment α} {t : TaskId} {i : StoreId} {store : RedisStore α} {w : Job α}
  {r : Option (Fault α)}

omit [Textual α] in
theorem links_arrangeLink (s : Deployment α) (i : StoreId) (c : ClientId) {reply : Reply α}
    (hpromise : ∀ fault, reply ≠ .throws fault) :
    (s.arrangeLink i c reply).links i =
      (reply.outcome?.toList : Multiset (Outcome α)) + s.links i := by
  have hend (outcome : Outcome α) (status : LinkStatus) :
      (Job.linkSettled i outcome status).linkEnd? i = some outcome := if_pos rfl
  cases reply with
  | throws fault => exact absurd rfl (hpromise fault)
  | never => exact (Multiset.zero_add _).symm
  | settles delay outcome status =>
    cases delay with
    | none =>
      rw [arrangeLink, links_cons (pending_post _ _ _), hend]
      rfl
    | some delay =>
      rw [arrangeLink, links_cons (pending_setTimer _ _ _ _), hend]
      rfl

/-- What asking for a connection does to the attempt: the line of those who wait for it grows, or an
attempt is opened with whatever end its reply brings, or nothing changes. -/
theorem attempt?_links (h : Connects s t i store w (r, s')) (hstore : s.remote? i = some store)
    (hw : w.link? ≠ some i) :
    (r = none ∧ ∃ line, store.attempt = some line ∧ s'.attempt? i = some (line ++ [t]) ∧
      s'.links i = s.links i ∧ s'.calls = s.calls) ∨
    (r = none ∧ store.attempt = none ∧ store.owned = true ∧ s.linkStatus store.client = .waiting ∧
      s'.attempt? i = some [t] ∧ s'.links i =
        ((s.callClient store.client .connect).1.outcome?.toList : Multiset (Outcome α)) +
          s.links i ∧
      s'.calls = s.calls ++ s.shown store.client .connect) ∨
    (store.attempt = none ∧ (store.owned = true → s.linkStatus store.client = .waiting →
      ∃ fault, (s.callClient store.client .connect).1 = .throws fault) ∧
      s'.attempt? i = none ∧ s'.links i = s.links i) := by
  have hstores := remote?_eq_some_iff.mp hstore
  have hattempt : ∀ {s' : Deployment α}, s'.stores = s.stores → s'.attempt? i = store.attempt := by
    intro s' h
    simp [attempt?, remote?, h, hstores]
  have hcalled : (s.callClient store.client .connect).2.links i = s.links i :=
    ((Moves.refl s).callClient (p := { call := fun _ => True }) _ _ trivial).links_eq
      fun _ h => h.elim
  cases h with
  | @joins line hline =>
    refine Or.inl ⟨rfl, line, hline, ?_, rfl, rfl⟩
    simp [attempt?, remote?_setStore_redis hstores]
  | opens hnone howned hstatus hpromise =>
    refine Or.inr (Or.inl ⟨rfl, hnone, howned, hstatus, ?_, ?_, ?_⟩)
    · have hmoves := (Moves.refl ((s.callClient store.client .connect).2.setStore i
        (.redis { store with attempt := some [t] }))).arrangeLink (p := { job := fun _ => True }) i
        store.client (s.callClient store.client .connect).1 fun _ _ => trivial
      rw [hmoves.attempt?_eq id id, attempt?, remote?_setStore_redis (by rwa [stores_callClient])]
      simp
    · rw [links_arrangeLink _ _ _ hpromise, ← hcalled]
      rfl
    · have hmoves := (Moves.refl ((s.callClient store.client .connect).2.setStore i
        (.redis { store with attempt := some [t] }))).arrangeLink (p := { job := fun _ => True }) i
        store.client (s.callClient store.client .connect).1 fun _ _ => trivial
      exact (hmoves.calls_eq fun _ => id).trans (calls_callClient s store.client .connect)
  | fails hnone howned hstatus hthrows =>
    exact Or.inr (Or.inr ⟨hnone, fun _ _ => ⟨_, hthrows⟩,
      (hattempt (stores_callClient _ _ _)).trans hnone, hcalled⟩)
  | ready hnone hready =>
    refine Or.inr (Or.inr ⟨hnone, fun howned hstatus => absurd hstatus (hready howned),
      (hattempt rfl).trans hnone, ?_⟩)
    rw [links_cons (pending_post s 0 w), Job.linkEnd?_eq_none hw]
    exact Multiset.zero_add _

end Connects

/-! Calls that ask for a connection -/

/-- What a task may do when it is started without asking for a connection. -/
def aloofScope (t : TaskId) : Scope α where
  task := (· = t)
  job job := job.owner? = some t
  call call := call ≠ .connect
  notice _ := True
  finish := (· = t)
  begins := True
  regular := True

/-- What a task may do when it is started, once it has asked for the connection. -/
def askedScope (t : TaskId) : Scope α where
  task := (· = t)
  job job := job = .resume t ∨ (∃ verdict, job = .conclude t verdict) ∨
    ∃ outcome, job = .started t outcome
  notice _ := True

/-- The way a call goes that asks for the connection of its store: nothing of note happens before
and after, and what asking for it comes to lies between. -/
structure Arrives (s : Deployment α) (call : Start α) (i : StoreId) (store : RedisStore α)
    (r : Option (Fault α)) (s₁ s₂ : Deployment α) : Prop where
  storeOf : s.storeOf? call = some i
  remote : s.remote? i = some store
  before : ∀ p : Scope α, p.begins → p.finish s.tasks.length → (call.Stops → p.regular) →
    Moves p s s₁
  stores : s₁.stores = s.stores
  clients : s₁.clients = s.clients
  connects : ∃ w, w.owner? = some s.tasks.length ∧ Connects s₁ s.tasks.length i store w (r, s₂)
  later : Moves (askedScope s.tasks.length) s₂ (s.start call)
  progress : r = none → ∀ answer, (s.start call).tasks[s.tasks.length]?.map Task.progress ≠
    some (.leaving .link (.ok answer))

theorem progress_startWait (s : Deployment α) (t : TaskId) (stage : Stage)
    (milliseconds : Option (Value α)) (signal : Option SignalId) (answer : Option (Value α)) :
    (s.startWait t stage milliseconds signal).tasks[t]?.map Task.progress ≠
      some (.leaving .link (.ok answer)) := by
  have hset : ∀ progress, progress ≠ Progress.leaving .link (.ok answer) →
      (s.setProgress t progress).tasks[t]?.map Task.progress ≠
        some (.leaving .link (.ok answer)) := by
    intro progress hne h
    simp only [setProgress, List.getElem?_modify_eq] at h
    cases htask : s.tasks[t]? with
    | none => simp [htask] at h
    | some task => exact hne (by simpa [htask] using h)
  unfold startWait
  split
  · exact hset _ (by simp)
  · cases signal <;> exact hset _ (by simp)

section

variable {s s' : Deployment α} {call : Start α} {i : StoreId} {store : RedisStore α} {c : Check α}

omit [Textual α] in
theorem Prelude.remote?_newTask (hs' : Prelude s call s') (hstore : s.remote? i = some store)
    (purpose : Purpose α) : (s'.newTask i purpose).2.stores[i]? = some (.redis store) := by
  show s'.stores[i]? = _
  rw [hs'.stores]
  exact remote?_eq_some_iff.mp hstore

/-- A call arrives at its store that asks for the connection first, and gives up or waits then. -/
theorem arrives_of_connectFor (hs' : Prelude s call s') (hi : s.storeOf? call = some i)
    (hstore : s.remote? i = some store) {purpose : Purpose α} {job : Job α}
    {giveUp : Deployment α → Fault α → Deployment α}
    (hgiveUp : ∀ s₂ fault, Moves (askedScope s.tasks.length) s₂ (giveUp s₂ fault)) {stage : Stage}
    {milliseconds : Option (Value α)} {signal : Option SignalId}
    (hbegan : s.start call =
      match (s'.newTask i purpose).2.connectFor s.tasks.length i store job with
      | (some fault, s₂) => giveUp s₂ fault
      | (none, s₂) => s₂.startWait s.tasks.length stage milliseconds signal)
    (hown : job.owner? = some s.tasks.length) : ∃ r s₁ s₂, Arrives s call i store r s₁ s₂ := by
  have hconnects := connectFor_connects (s'.newTask i purpose).2 s.tasks.length i store job
  generalize (s'.newTask i purpose).2.connectFor s.tasks.length i store job = asked
    at hconnects hbegan
  obtain ⟨r, s₂⟩ := asked
  refine ⟨r, _, s₂, hi, hstore,
    fun p hbegins hfinish hregular => (hs'.moves p hfinish hregular).newTask hbegins i purpose,
    hs'.stores, hs'.clients, ⟨job, hown, hconnects⟩, ?_, ?_⟩
  · rw [hbegan]
    cases r with
    | some fault => exact hgiveUp s₂ fault
    | none => exact (Moves.refl s₂).startWait rfl (Or.inl rfl) _ _ _
  · rintro rfl answer
    rw [hbegan]
    exact progress_startWait _ _ _ _ _ answer

theorem arrives_of_check (hs' : Prelude s call s') (hi : s.storeOf? call = some i)
    (hstart : s.start call = s'.startCheck i c) (hstore : s.remote? i = some store)
    (hlive : s'.isAborted c.signal = false) : ∃ r s₁ s₂, Arrives s call i store r s₁ s₂ := by
  have hlive' : (s'.newTask i (.check c)).2.isAborted c.signal = false := hlive
  have hbegan : s.start call = (s'.newTask i (.check c)).2.check s.tasks.length i c := by
    rw [hstart, ← hs'.tasks]
    rfl
  simp only [check, hs'.remote?_newTask hstore (.check c), checkRedis, hlive', Bool.false_eq_true,
    if_false] at hbegan
  exact arrives_of_connectFor hs' hi hstore
    (fun s₂ fault => (Moves.refl s₂).post (Nat.le_refl 0) (Or.inr (Or.inl ⟨_, rfl⟩))) hbegan rfl

theorem arrives_of_boot (hs' : Prelude s call s') (hi : s.storeOf? call = some i)
    (limiter : Option LimiterId) (failed : Fault α → Settlement α)
    (hstart : s.start call = (s'.newTask i (.boot limiter)).2.boot s'.tasks.length i failed)
    (hstore : s.remote? i = some store) : ∃ r s₁ s₂, Arrives s call i store r s₁ s₂ := by
  have hbegan : s.start call = (s'.newTask i (.boot limiter)).2.boot s.tasks.length i failed := by
    rw [hstart, hs'.tasks]
  simp only [boot, hs'.remote?_newTask hstore (.boot limiter), bootRedis] at hbegan
  exact arrives_of_connectFor hs' hi hstore
    (fun s₂ fault => (Moves.refl s₂).giveUpBoot (fun _ => Or.inr (Or.inr ⟨_, rfl⟩))
      (fun _ _ => trivial) fault) hbegan rfl

end

/-- A check on a store that is not in Redis, or one that is abandoned already, does not ask for a
connection. -/
theorem Moves.check_aloof {s s' : Deployment α} {t : TaskId} (h : Moves (aloofScope t) s s')
    {i : StoreId} {c : Check α}
    (hnot : ∀ store, s'.remote? i = some store → s'.isAborted c.signal = true) :
    Moves (aloofScope t) s (s'.check t i c) := by
  unfold Deployment.check
  split
  · next hstore =>
    exact h.checkMemory hstore rfl rfl (fun _ => rfl) (fun _ => trivial) c
  · next hstore =>
    exact h.checkScripted hstore rfl rfl (fun _ => rfl) (fun _ _ => trivial) c nofun
  · next store hstore =>
    unfold Deployment.checkRedis
    rw [if_pos (hnot store (remote?_eq_some_iff.mpr hstore))]
    exact h.post (Nat.zero_le _) rfl
  · exact h

/-- A startup of a store that is not in Redis does not ask for a connection. -/
theorem Moves.boot_aloof {s s' : Deployment α} {t : TaskId} (h : Moves (aloofScope t) s s')
    {i : StoreId} (hnot : ∀ store, s'.remote? i ≠ some store) (failed : Fault α → Settlement α) :
    Moves (aloofScope t) s (s'.boot t i failed) := by
  unfold Deployment.boot
  split
  · exact h.post (Nat.zero_le _) rfl
  · next store hstore => exact absurd (remote?_eq_some_iff.mpr hstore) (hnot store)
  · have hrecorded := h.record (show (aloofScope t).call .storeStart from nofun)
    dsimp only
    split
    · exact hrecorded.settle rfl rfl _
    · exact hrecorded.arrange _ (Nat.zero_le _) (Nat.zero_le _) fun _ => rfl
  · exact h

/-- A call either asks for the connection of its store, or has nothing to do with it. -/
theorem start_aloof_or_arrives (s : Deployment α) (call : Start α) :
    Moves (aloofScope s.tasks.length) s (s.start call) ∨
      ∃ i store r s₁ s₂, Arrives s call i store r s₁ s₂ := by
  have haloof : ∀ {s'}, Prelude s call s' → ∀ i purpose,
      Moves (aloofScope s.tasks.length) s (s'.newTask i purpose).2 := fun hs' i purpose =>
    (hs'.moves (aloofScope s.tasks.length) rfl fun _ => trivial).newTask trivial i purpose
  have hremote : ∀ {s'}, Prelude s call s' → ∀ {i purpose store},
      (s'.newTask i purpose).2.remote? i = some store → s.remote? i = some store := by
    intro s' hs' i purpose store hstore
    rw [remote?_eq_some_iff] at hstore ⊢
    exact hs'.stores ▸ hstore
  have hbegins := begins_start s call
  generalize hstart : s.start call = s'' at hbegins ⊢
  cases hbegins with
  | @check s' i hs' hi c =>
    by_cases hasks : ∃ store, s.remote? i = some store ∧ s'.isAborted c.signal = false
    · obtain ⟨store, hstore, hlive⟩ := hasks
      exact Or.inr ⟨i, store, arrives_of_check hs' hi hstart hstore hlive⟩
    · left
      show Moves _ s ((s'.newTask i (.check c)).2.check s'.tasks.length i c)
      rw [hs'.tasks_length_eq]
      refine (haloof hs' i (.check c)).check_aloof fun store hstore => ?_
      exact Bool.not_eq_false _ ▸ fun hlive => hasks ⟨store, hremote hs' hstore, hlive⟩
  | @boot s' i hs' hi limiter failed =>
    by_cases hasks : ∃ store, s.remote? i = some store
    · obtain ⟨store, hstore⟩ := hasks
      exact Or.inr ⟨i, store, arrives_of_boot hs' hi limiter failed hstart hstore⟩
    · left
      rw [hs'.tasks_length_eq]
      exact (haloof hs' i (.boot limiter)).boot_aloof
        (fun store hstore => hasks ⟨store, hremote hs' hstore⟩) failed
  | @close s' i hs' hi closer hcloser =>
    left
    rw [hs'.tasks_length_eq]
    exact (haloof hs' i (.close closer)).close rfl rfl (fun _ _ => rfl) (fun _ _ => trivial)
      nofun (fun _ _ _ => ⟨nofun, nofun⟩) closer fun _ => trivial
  | @ended s' hs' i purpose settlement =>
    exact Or.inl ((haloof hs' i purpose).settle hs'.tasks_length_eq hs'.tasks_length_eq _)

/-! How many attempts are unsettled -/

/-- At most one attempt to connect a store is about to end, and none while nobody waits for one. -/
structure Linked (s : Deployment α) (i : StoreId) : Prop where
  single : Multiset.card (s.links i) ≤ 1
  idle : s.attempt? i = none → s.links i = 0

namespace Arrives

variable {s s₁ s₂ : Deployment α} {call : Start α} {i : StoreId} {store : RedisStore α}
  {r : Option (Fault α)}

theorem linkStatus_eq (h : Arrives s call i store r s₁ s₂) :
    s₁.linkStatus store.client = s.linkStatus store.client := by
  unfold linkStatus
  rw [h.clients]

theorem reply_eq (h : Arrives s call i store r s₁ s₂) :
    (s₁.callClient store.client .connect).1 = (s.callClient store.client .connect).1 := by
  simp only [callClient, h.clients]
  split <;> rfl

theorem shown_eq (h : Arrives s call i store r s₁ s₂) :
    s₁.shown store.client .connect = s.shown store.client .connect := by
  unfold shown
  rw [h.clients]

/-- A call that asks for the connection joins the attempt under way, or opens one, or finds that
there is nothing to wait for. -/
theorem attempt?_links (h : Arrives s call i store r s₁ s₂) :
    (r = none ∧ ∃ line, store.attempt = some line ∧
      (s.start call).attempt? i = some (line ++ [s.tasks.length]) ∧
      (s.start call).links i = s.links i ∧ (s.start call).calls = s.calls) ∨
    (r = none ∧ s.Opens call i ∧ (s.start call).attempt? i = some [s.tasks.length] ∧
      (s.start call).links i =
        ((s.callClient store.client .connect).1.outcome?.toList : Multiset (Outcome α)) +
          s.links i ∧
      (s.start call).calls = s.calls ++ s.shown store.client .connect) ∨
    (store.attempt = none ∧ ¬(store.owned = true ∧ s.linkStatus store.client = .waiting ∧
        s.Promises store) ∧
      (s.start call).attempt? i = none ∧ (s.start call).links i = s.links i) := by
  obtain ⟨w, hw, hconnects⟩ := h.connects
  have hstore : s₁.remote? i = some store := by
    unfold remote?
    rw [h.stores]
    exact h.remote
  have hbefore := h.before (s.preludeScope call) trivial rfl id
  have hlinks : s₁.links i = s.links i := hbefore.links_eq fun _ h => h.elim
  have hattempt' : (s.start call).attempt? i = s₂.attempt? i := h.later.attempt?_eq id id
  have hlinks' : (s.start call).links i = s₂.links i := by
    refine h.later.links_eq fun job hjob => ?_
    obtain rfl | ⟨verdict, rfl⟩ | ⟨outcome, rfl⟩ := hjob <;> exact nofun
  have hcalls' : (s.start call).calls = s₂.calls := h.later.calls_eq fun _ => id
  have hwlink : w.link? ≠ some i := fun hlink =>
    nomatch hw.symm.trans (owner?_of_link? hlink)
  rw [hattempt', hlinks', hcalls', ← hlinks, ← hbefore.calls_eq fun _ => id, ← h.reply_eq,
    ← h.shown_eq]
  obtain ⟨hr, line, hline, hrest⟩ | ⟨hr, hnone, howned, hstatus, hrest⟩ | hrest :=
    hconnects.attempt?_links hstore hwlink
  · exact Or.inl ⟨hr, line, hline, hrest⟩
  · have hopens : s.Opens call i :=
      ⟨store, h.storeOf, h.remote, howned, hnone, h.linkStatus_eq ▸ hstatus⟩
    exact Or.inr (Or.inl ⟨hr, hopens, hrest⟩)
  · obtain ⟨hnone, hthrows, hrest⟩ := hrest
    refine Or.inr (Or.inr ⟨hnone, ?_, hrest⟩)
    rintro ⟨howned, hstatus, hpromise⟩
    obtain ⟨fault, hfault⟩ := hthrows howned (h.linkStatus_eq.trans hstatus)
    exact hpromise howned hnone hstatus fault (h.reply_eq.symm.trans hfault)

end Arrives

/-- A call on another store has nothing to do with the attempt to connect this one. -/
theorem start_other {s : Deployment α} {call : Start α} {i : StoreId}
    (hother : s.storeOf? call ≠ some i) :
    (s.start call).attempt? i = s.attempt? i ∧ (s.start call).links i = s.links i := by
  refine ⟨(start_moves s call).attempt?_eq hother id, (start_moves s call).links_eq ?_⟩
  have hown : ∀ {job : Job α} {t}, job.owner? = some t → job.link? ≠ some i := fun hown hlink =>
    nomatch hown.symm.trans (owner?_of_link? hlink)
  rintro job (hcheck | hboot | ⟨outcome, rfl, -⟩ | ⟨j, ⟨store, hcall, -⟩, hlink⟩)
  · exact hown (owner?_of_isOfCheck hcheck)
  · exact hown (owner?_of_isOfBoot hboot)
  · exact nofun
  · rintro hi
    obtain rfl : j = i := Option.some.inj (hlink.symm.trans hi)
    exact hother hcall

theorem Linked.start {s : Deployment α} {i : StoreId} (h : s.Linked i) (call : Start α) :
    (s.start call).Linked i := by
  obtain hmoves | ⟨k, store, r, s₁, s₂, harrives⟩ := s.start_aloof_or_arrives call
  · have hlinks : (s.start call).links i = s.links i :=
      hmoves.links_eq fun job hown hlink =>
        Option.some_ne_none _ (hown.symm.trans (owner?_of_link? hlink))
    have hattempt : (s.start call).attempt? i = s.attempt? i := hmoves.attempt?_eq id id
    exact ⟨hlinks ▸ h.single, fun hnone => hlinks ▸ h.idle (hattempt ▸ hnone)⟩
  by_cases hk : k = i
  · subst hk
    have hattempt : s.attempt? k = store.attempt := by simp [attempt?, harrives.remote]
    obtain ⟨-, line, -, hline, hlinks, -⟩ | ⟨-, hopens, hline, hlinks, -⟩ | ⟨hnone, -, -, hlinks⟩ :=
      harrives.attempt?_links
    · exact ⟨hlinks ▸ h.single,
        fun hnone => absurd (hline.symm.trans hnone) (Option.some_ne_none _)⟩
    · refine ⟨?_, fun hnone => absurd (hline.symm.trans hnone) (Option.some_ne_none _)⟩
      obtain ⟨store', -, hstore', -, hnone, -⟩ := hopens
      rw [hlinks, h.idle (by simp [attempt?, hstore', hnone]), Multiset.add_zero]
      cases (s.callClient store.client .connect).1.outcome? <;> simp
    · exact ⟨hlinks ▸ h.single, fun _ => hlinks ▸ h.idle (hattempt.trans hnone)⟩
  · have hother : s.storeOf? call ≠ some i :=
      fun h => hk (Option.some.inj (harrives.storeOf.symm.trans h))
    obtain ⟨hattempt, hlinks⟩ := start_other hother
    exact ⟨hlinks ▸ h.single, fun hnone => hlinks ▸ h.idle (hattempt ▸ hnone)⟩

omit [Scalar α] [Textual α] in
/-- Only the end of an attempt takes up the line of those who wait for it. -/
theorem linkEnd?_of_unlink {s : Deployment α} {i : StoreId} {ev : Event α}
    (h : (s.scope ev).unlink i) : (s.linkEnd? i ev).isSome := by
  cases ev with
  | work n =>
    simp only [scope] at h
    split at h
    · next job hentry =>
      cases job with
      | linkSettled j outcome status =>
        obtain rfl : i = j := h
        simp [linkEnd?, hentry, Job.linkEnd?]
      | _ => exact h.elim
    · exact h.elim
    · exact h.elim
  | alarm n =>
    simp only [scope] at h
    split at h <;> exact h.elim
  | _ => exact h.elim

omit [Scalar α] [Textual α] in
theorem not_link_of_not_start {s : Deployment α} {i : StoreId} {ev : Event α}
    (hev : ∀ call, ev ≠ .start call) : ¬(s.scope ev).link i := by
  cases ev with
  | start call => exact absurd rfl (hev call)
  | work n =>
    simp only [scope]
    split
    · next job _ => cases job <;> exact id
    · exact id
    · exact id
  | alarm n =>
    simp only [scope]
    split <;> exact id
  | _ => exact id

omit [Scalar α] [Textual α] in
@[simp] theorem attempt?_taken (s : Deployment α) (ev : Event α) (i : StoreId) :
    (s.taken ev).attempt? i = s.attempt? i := by
  cases ev <;> rfl

theorem Linked.happen {s : Deployment α} {i : StoreId} (h : s.Linked i) (hs : s.Prompt)
    (ev : Event α) : (s.happen ev).Linked i := by
  by_cases hev : ∃ call, ev = .start call
  · obtain ⟨call, rfl⟩ := hev
    exact h.start call
  have hlinks := links_happen hs (fun call hcall => hev ⟨call, hcall⟩) i
  have hsingle := h.single
  cases hend : s.linkEnd? i ev with
  | some outcome =>
    rw [hend] at hlinks
    rw [hlinks] at hsingle
    have hnone : (s.happen ev).links i = 0 := by
      rw [← Multiset.card_eq_zero]
      simpa using hsingle
    exact ⟨by simp [hnone], fun _ => hnone⟩
  | none =>
    rw [hend] at hlinks
    have hsame : (s.happen ev).links i = s.links i := (hlinks.trans (Multiset.zero_add _)).symm
    have hattempt : (s.happen ev).attempt? i = s.attempt? i := by
      have hlink : ¬(s.scope ev).link i := not_link_of_not_start fun call hcall => hev ⟨call, hcall⟩
      rw [(happen_moves hs ev).attempt?_eq hlink fun hunlink => by
        simpa [hend] using linkEnd?_of_unlink hunlink, attempt?_taken]
    exact ⟨hsame ▸ hsingle, fun hnone => hsame ▸ h.idle (hattempt ▸ hnone)⟩

theorem Reachable.linked {s : Deployment α} (h : s.Reachable) (i : StoreId) : s.Linked i := by
  have hall : s.Prompt ∧ s.Linked i := by
    refine h.induction (P := fun s => s.Prompt ∧ s.Linked i) (fun s₀ hfresh => ?_) ?_
    · have hnone : s₀.links i = 0 := by
        simp [links, pending, Deployment.ready, Deployment.awaited, hfresh.agenda, hfresh.timers]
      exact ⟨hfresh.prompt, by simp [hnone], fun _ => hnone⟩
    · rintro s e ⟨hprompt, hlinked⟩
      exact ⟨hprompt.happen e, hlinked.happen hprompt e⟩
  exact hall.2

end

end Deployment

end Admission
