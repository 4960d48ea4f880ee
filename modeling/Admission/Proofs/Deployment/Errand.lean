import Admission.Proofs.Deployment.Conclusion

/-!
Errands to a store in Redis.

A task that needs such a store sends out an errand. The errand waits for the connection, calls the
client and comes back with an outcome; it is the same for checks and for startups. What its task
does meanwhile is no concern of the errand, so the two are followed side by side.
-/
namespace Admission

/-- What a call of a client comes to, unless it never does. -/
def Reply.outcome? {α : Type} : Reply α → Option (Outcome α)
  | throws fault => some (.error fault)
  | settles _ outcome _ => some outcome
  | never => none

namespace Deployment

variable {α : Type}

/-- How far an errand has come. -/
inductive Errand (α : Type) where
  /-- It waits for the connection of its store. -/
  | linking
  /-- The script is about to be sent. -/
  | sending
  /-- The reply is on its way. -/
  | awaiting (outcome : Outcome α)
  /-- An outcome is about to reach the task. -/
  | told (outcome : Outcome α)
  | finished

namespace Errand

/-- What the end of an attempt to connect makes of an errand that waits for it. -/
def linked : Outcome α → Errand α
  | .ok _ => sending
  | .error fault => told (.error fault)

def ready (t : TaskId) : Errand α → Multiset (Job α)
  | sending => {.evaluate t}
  | told outcome => {.answer t outcome}
  | _ => 0

def awaited (t : TaskId) : Errand α → Multiset (Job α)
  | awaiting outcome => {.answer t outcome}
  | _ => 0

def queued (i : StoreId) : Errand α → StoreId → Nat
  | linking, j => if j = i then 1 else 0
  | _, _ => 0

theorem told_ne_sending (outcome : Outcome α) : told outcome ≠ sending := nofun

/-- What a task has with an errand to a store, beside what it has on its own. -/
def beside (e : Errand α) (t : TaskId) (i : StoreId) (own : Share α) : Share α :=
  { own with ready := e.ready t + own.ready, awaited := e.awaited t, queued := e.queued i }

end Errand

/-- What an event does for the errand of a task. -/
inductive Act (α : Type) where
  /-- The attempt to connect that the task waits for is over. -/
  | links (outcome : Outcome α)
  /-- The script is sent for the task. -/
  | sends
  /-- The reply to the script arrives. -/
  | arrives
  /-- An outcome reaches the task. -/
  | delivers (outcome : Outcome α)

def act? (s : Deployment α) (t : TaskId) : Event α → Option (Act α)
  | .work n =>
    match s.agenda[n]? with
    | some (0, .linkSettled i outcome _) => if t ∈ s.waiters i then some (.links outcome) else none
    | some (0, .evaluate u) => if u = t then some .sends else none
    | some (0, .answer u outcome) => if u = t then some (.delivers outcome) else none
    | _ => none
  | .alarm n =>
    match s.timers[n]?.bind Timer.reply? with
    | some (.answer u _) => if u = t then some .arrives else none
    | _ => none
  | _ => none

theorem act?_eq_none {s : Deployment α} {t : TaskId} {ev : Event α} (hother : ¬s.Concerns t ev) :
    s.act? t ev = none := by
  cases ev with
  | work n =>
    simp only [act?]
    split
    · next i outcome status hentry =>
      refine if_neg fun ht => hother ⟨0, _, hentry, Or.inr ⟨i, rfl, ?_⟩⟩
      exact List.count_pos_iff.mpr ht
    · next u hentry => exact if_neg fun hu => hother ⟨0, _, hentry, Or.inl (congrArg some hu)⟩
    · next u outcome hentry =>
      exact if_neg fun hu => hother ⟨0, _, hentry, Or.inl (congrArg some hu)⟩
    · rfl
  | alarm n =>
    simp only [act?]
    split
    · next u outcome hreply =>
      obtain ⟨timer, htimer, hreply⟩ := Option.bind_eq_some_iff.mp hreply
      exact if_neg fun hu => hother ⟨timer, htimer, Or.inr ⟨_, hreply, congrArg some hu⟩⟩
    · rfl
  | _ => rfl

/-- The events that end the wait of a task. -/
inductive Ending (α : Type) where
  | answered (outcome : Outcome α)
  | expired
  | aborted

/-- What a task that waits so many milliseconds hears of the end of its wait. A failure that is no
store fault becomes one, unless it cannot be put into words. -/
def Ending.outcome? [Textual α] (milliseconds : String) : Ending α → Option (Outcome α)
  | answered (.ok answer) => some (.ok answer)
  | answered (.error fault) => fault.asStoreFault?.map .error
  | expired => some (.error (.timedOut milliseconds))
  | aborted => some (.error .aborted)

/-- The end that an event puts to the wait of a task with a signal: an outcome reaches the task, its
deadline passes, or its signal aborts. -/
def ending? (s : Deployment α) (t : TaskId) (signal : Option SignalId) : Event α → Option (Ending α)
  | .work n =>
    match s.agenda[n]? with
    | some (0, .answer u outcome) => if u = t then some (.answered outcome) else none
    | _ => none
  | .alarm n =>
    match s.timers[n]?.map Timer.alarm with
    | some (.deadline u _) => if u = t then some .expired else none
    | _ => none
  | .abort aborted => if signal = some aborted then some .aborted else none
  | .hangUp u => if signal = some (.request u) ∧ u ∈ s.attached then some .aborted else none
  | _ => none

/-- A wait is ended only by what concerns its task, which listens to the signal of the wait. -/
theorem ending?_eq_none {s : Deployment α} {t : TaskId} {signal : Option SignalId} {ev : Event α}
    (hother : ¬s.Concerns t ev) (hheard : ∀ heard ∈ signal, heard ∈ (s.share t).listeners) :
    s.ending? t signal ev = none := by
  cases ev with
  | work n =>
    simp only [ending?]
    split
    · next u outcome hentry =>
      exact if_neg fun hu => hother ⟨0, _, hentry, Or.inl (congrArg some hu)⟩
    · rfl
  | alarm n =>
    simp only [ending?]
    split
    · next u milliseconds halarm =>
      obtain ⟨⟨due, alarm⟩, htimer, rfl⟩ := Option.map_eq_some_iff.mp halarm
      refine if_neg fun hu => hother ⟨_, htimer, Or.inl ?_⟩
      simp [Timer.isDeadlineOf, hu]
    · rfl
  | abort aborted => exact if_neg fun hsignal => hother (hheard aborted hsignal)
  | hangUp u => exact if_neg fun hu => hother (hheard _ hu.1)
  | _ => rfl

/-- What a client sends back ends no wait. -/
theorem ending?_of_reply {s : Deployment α} {n : Nat} {timer : Timer α} {job : Job α}
    (htimer : s.timers[n]? = some timer) (hreply : timer.reply? = some job) (t : TaskId)
    (signal : Option SignalId) : s.ending? t signal (.alarm n) = none := by
  obtain ⟨due, alarm⟩ := timer
  cases alarm <;> simp_all [ending?, Timer.reply?]

/-- A deadline ends the wait of its task. -/
theorem happen_deadline_eq [Scalar α] [Textual α] {s : Deployment α} {n : Nat} {due : α}
    {t : TaskId} {milliseconds : String}
    (htimer : s.timers[n]? = some ⟨due, .deadline t milliseconds⟩) :
    s.happen (.alarm n) =
      (s.taken (.alarm n)).endWait t (some (.error (.timedOut milliseconds))) := by
  simp only [happen, htimer, taken]
  rfl

/-- What a client replies depends on the clients, the clock and the shared table only. -/
theorem reply_congr [Scalar α] [Textual α] (s s' : Deployment α) (hclients : s'.clients = s.clients)
    (hclock : s'.clock = s.clock) (hkeyspace : s'.keyspace = s.keyspace) (i : ClientId)
    (call : ClientCall α) : (s'.callClient i call).1 = (s.callClient i call).1 := by
  simp only [callClient, hclients]
  split
  · rfl
  · cases call with
    | eval evaluation =>
      simp only [evalHere, hclock, hkeyspace]
      split
      · rfl
      · split <;> rfl
    | _ => rfl
  · rfl
  · rfl

/-- How the connection of a store turns out for a call that needs it, if there is nothing to wait
for: it need not be made, or cannot even be attempted. -/
def linkNow? [Scalar α] [Textual α] (s : Deployment α) (i : StoreId) : Option (Outcome α) :=
  match s.remote? i with
  | some store =>
    if store.attempt.isSome then none
    else if store.owned && s.linkStatus store.client == .waiting then
      match (s.callClient store.client .connect).1 with
      | .throws fault => some (.error fault)
      | _ => none
    else some (.ok none)
  | none => none

/-- A task that sends an errand to a store in Redis. -/
structure Caller (α : Type) where
  task : TaskId
  store : StoreId
  remote : RedisStore α
  purpose : Purpose α

namespace Caller

/-- The errand of the task stands so in a deployment, and so do the task and what it has on its
own. -/
structure Stands (q : Caller α) (s : Deployment α) (e : Errand α) (progress : Progress α)
    (own : Share α) : Prop where
  remote : s.fixed? q.store = some { q.remote with attempt := none }
  task : s.tasks[q.task]? = some ⟨q.store, q.purpose, progress⟩
  share : s.share q.task = e.beside q.task q.store own

/-- What the end of an attempt to connect makes of the errand. Only for a check there is a script to
send. -/
def linked (q : Caller α) (outcome : Outcome α) : Errand α :=
  match q.purpose with
  | .check _ => .linked outcome
  | _ => .told outcome

namespace Stands

variable {q : Caller α} {s s' : Deployment α} {e : Errand α} {progress : Progress α} {own : Share α}

theorem lt (h : q.Stands s e progress own) : q.task < s.tasks.length :=
  (List.getElem?_eq_some_iff.mp h.task).1

theorem exists_remote (h : q.Stands s e progress own) :
    ∃ attempt, s.remote? q.store = some { q.remote with attempt } :=
  exists_remote_of_fixed? h.remote

/-! Work of others -/

theorem moves [Scalar α] (h : q.Stands s e progress own) {p : Scope α} (hmoves : Moves p s s')
    (ht : ¬p.task q.task) (hjob : ∀ job, p.job job → job.owner? ≠ some q.task)
    (hunlink : ∀ i, p.unlink i → (s.share q.task).queued i = 0) : q.Stands s' e progress own where
  remote := (hmoves.fixed?_eq _).trans h.remote
  task := (hmoves.tasks_eq ht h.lt).trans h.task
  share := (hmoves.share_eq ht hjob hunlink).trans h.share

theorem happen_other [Scalar α] [Textual α] (h : q.Stands s e progress own) (hs : s.Prompt)
    {ev : Event α} (hother : ¬s.Concerns q.task ev) : q.Stands (s.happen ev) e progress own := by
  obtain ⟨htaken, htask, hjob, hunlink⟩ := scope_other hother
  have hbefore : q.Stands (s.taken ev) e progress own := by
    refine ⟨?_, by rw [tasks_taken]; exact h.task, htaken.trans h.share⟩
    rw [← h.remote]
    cases ev <;> rfl
  exact hbefore.moves (happen_moves hs ev) htask hjob (htaken ▸ hunlink)

theorem callClient [Scalar α] [Textual α] (h : q.Stands s e progress own) (c : ClientId)
    (call : ClientCall α) : q.Stands (s.callClient c call).2 e progress own :=
  h.moves ((Moves.refl s).callClient (p := { call := fun _ => True }) c call trivial) id
    (fun _ h => h.elim) fun _ h => h.elim

theorem arrangeLink [Scalar α] (h : q.Stands s e progress own) (i : StoreId) (c : ClientId)
    (reply : Reply α) : q.Stands (s.arrangeLink i c reply) e progress own :=
  h.moves ((Moves.refl s).arrangeLink (p := { job := (·.owner? = none) }) i c reply
    fun _ _ => rfl) id (fun _ hjob hown => nomatch hjob.symm.trans hown) fun _ h => h.elim

theorem post_other (h : q.Stands s e progress own) {job : Job α} (hother : job.owner? ≠ some q.task)
    (turns : Nat) : q.Stands (s.post turns job) e progress own :=
  ⟨h.remote, h.task, (share_post_other hother turns).trans h.share⟩

/-- The end of an attempt to connect is nobody's work. -/
theorem post_link (h : q.Stands s e progress own) (turns : Nat) (i : StoreId) (outcome : Outcome α)
    (status : LinkStatus) :
    q.Stands (s.post turns (.linkSettled i outcome status)) e progress own :=
  h.post_other (by simp [Job.owner?]) turns

theorem taken_other (h : q.Stands s e progress own) {n turns : Nat} {job : Job α}
    (hentry : s.agenda[n]? = some (turns, job)) (hother : job.owner? ≠ some q.task) :
    q.Stands (s.taken (.work n)) e progress own :=
  ⟨h.remote, h.task, (share_taken_work_other hentry hother).trans h.share⟩

/-! Work of the task -/

theorem post_own (h : q.Stands s e progress own) {job : Job α} (hown : job.owner? = some q.task)
    (turns : Nat) :
    q.Stands (s.post turns job) e progress { own with ready := job ::ₘ own.ready } := by
  refine ⟨h.remote, h.task, ?_⟩
  rw [share_post_own hown, h.share]
  ext1 <;> try rfl
  exact (Multiset.add_cons job _ _).symm

theorem setProgress (h : q.Stands s e progress own) (next : Progress α) :
    q.Stands (s.setProgress q.task next) e next own :=
  ⟨h.remote, by simp [Deployment.setProgress, h.task], h.share⟩

theorem settle (h : q.Stands s e progress own) (settlement : Settlement α) :
    q.Stands (s.settle q.task settlement) e .ended
      { own with settled := own.settled ++ [settlement] } := by
  refine ⟨h.remote, (h.setProgress .ended).task, ?_⟩
  rw [share_settle_own, h.share]
  rfl

theorem leaveWait (h : q.Stands s e progress own) (stage : Stage) (outcome : Outcome α) :
    q.Stands (s.leaveWait q.task stage outcome) e (.leaving stage outcome)
      { own with ready := .resume q.task ::ₘ own.ready } :=
  (h.setProgress _).post_own rfl 0

theorem startWait [Scalar α] [Textual α] (h : q.Stands s e progress own) (stage : Stage)
    {milliseconds : Option (Value α)} {text : String}
    (htext : textOrMissing? milliseconds = some text) (signal : Option SignalId) :
    q.Stands (s.startWait q.task stage milliseconds signal) e (.waiting stage)
      { own with
        deadlines := own.deadlines ++
          [⟨s.dueAfter (numeral milliseconds), .deadline q.task text⟩]
        listeners := own.listeners ++ signal.toList } := by
  have hset : (((s.setProgress q.task (.waiting stage)).setTimer (numeral milliseconds)
      (.deadline q.task text)).share q.task) = e.beside q.task q.store { own with
        deadlines := own.deadlines ++
          [⟨s.dueAfter (numeral milliseconds), .deadline q.task text⟩] } := by
    rw [share_setTimer_deadline, share_setProgress, h.share]
    rfl
  unfold Deployment.startWait
  rw [htext]
  cases signal with
  | none =>
    refine ⟨h.remote, (h.setProgress _).task, hset.trans ?_⟩
    simp [Errand.beside]
  | some signal =>
    refine ⟨h.remote, (h.setProgress _).task, (share_listen_own signal).trans ?_⟩
    rw [hset]
    rfl

theorem endWait_some {stage : Stage} (h : q.Stands s e (.waiting stage) own) (outcome : Outcome α) :
    q.Stands (s.endWait q.task (some outcome)) e (.leaving stage outcome)
      { own with deadlines := [], listeners := [], ready := .resume q.task ::ₘ own.ready } := by
  have hleft := h.leaveWait stage outcome
  simp only [Deployment.endWait, h.task, Option.map_some]
  refine ⟨hleft.remote, hleft.task, ?_⟩
  rw [share_release_own, hleft.share]
  rfl

/-- Without an outcome the task is lost. -/
theorem endWait_none {stage : Stage} (h : q.Stands s e (.waiting stage) own) :
    q.Stands (s.endWait q.task none) e .lost { own with deadlines := [], listeners := [] } := by
  have hlost := h.setProgress .lost
  simp only [Deployment.endWait, h.task, Option.map_some]
  refine ⟨hlost.remote, hlost.task, ?_⟩
  rw [share_release_own, hlost.share]
  rfl

/-- An event of a wait that is over changes nothing. -/
theorem endWait_eq (h : q.Stands s e progress own) (hover : ∀ stage, progress ≠ .waiting stage)
    (outcome? : Option (Outcome α)) : s.endWait q.task outcome? = s := by
  unfold Deployment.endWait
  rw [h.task]
  cases progress with
  | waiting stage => exact absurd rfl (hover stage)
  | _ => rfl

/-! Work of the errand -/

theorem post_evaluate (h : q.Stands s .finished progress own) (turns : Nat) :
    q.Stands (s.post turns (.evaluate q.task)) .sending progress own := by
  refine ⟨h.remote, h.task, ?_⟩
  rw [share_post_own rfl, h.share]
  ext1 <;> try rfl
  simp [Errand.beside, Errand.ready]

theorem post_answer (h : q.Stands s .finished progress own) (turns : Nat) (outcome : Outcome α) :
    q.Stands (s.post turns (.answer q.task outcome)) (.told outcome) progress own := by
  refine ⟨h.remote, h.task, ?_⟩
  rw [share_post_own rfl, h.share]
  ext1 <;> try rfl
  simp [Errand.beside, Errand.ready]

theorem setTimer_answer [Scalar α] (h : q.Stands s .finished progress own) (delay : α) (turns : Nat)
    (outcome : Outcome α) :
    q.Stands (s.setTimer delay (.reply turns (.answer q.task outcome))) (.awaiting outcome) progress
      own := by
  refine ⟨h.remote, h.task, ?_⟩
  rw [share_setTimer_own rfl, h.share]
  rfl

/-- The reply to a call takes the errand on. -/
theorem arrange [Scalar α] (h : q.Stands s .finished progress own) {reply : Reply α}
    (hreply : ∀ fault, reply ≠ .throws fault) (turnsNow turnsLater : Nat) :
    ∃ e, q.Stands (s.arrange reply turnsNow turnsLater (.answer q.task)) e progress own ∧
      match reply.outcome? with
      | some outcome => e = .awaiting outcome ∨ e = .told outcome
      | none => e = .finished := by
  cases reply with
  | throws fault => exact absurd rfl (hreply fault)
  | never => exact ⟨.finished, h, rfl⟩
  | settles delay outcome status =>
    cases delay with
    | none => exact ⟨_, h.post_answer turnsNow _, Or.inr rfl⟩
    | some delay => exact ⟨_, h.setTimer_answer delay turnsLater _, Or.inl rfl⟩

/-- Work of the task that is ready is for its errand, or the task has it on its own. -/
theorem of_ready (h : q.Stands s e progress own) {n turns : Nat} {job : Job α}
    (hentry : s.agenda[n]? = some (turns, job)) (hown : job.owner? = some q.task) :
    (job = .evaluate q.task ∧ e = .sending ∧
      q.Stands (s.taken (.work n)) .finished progress own) ∨
    (∃ outcome, job = .answer q.task outcome ∧ e = .told outcome ∧
      q.Stands (s.taken (.work n)) .finished progress own) ∨
    (job ∈ own.ready ∧ ∀ rest : Share α, own = { rest with ready := job ::ₘ rest.ready } →
      q.Stands (s.taken (.work n)) e progress rest) := by
  have hshare := share_taken_work_own hentry hown
  rw [h.share] at hshare
  have hready : e.ready q.task + own.ready =
      job ::ₘ ((s.taken (.work n)).share q.task).ready := congrArg Share.ready hshare
  have hmem : job ∈ e.ready q.task ∨ job ∈ own.ready := by
    rw [← Multiset.mem_add, hready]
    exact Multiset.mem_cons_self job _
  -- Whatever remains ready once the job is taken, everything else is as before.
  have htaken : ∀ {e' rest}, e.beside q.task q.store own =
      { e'.beside q.task q.store rest with ready := job ::ₘ (e'.ready q.task + rest.ready) } →
      q.Stands (s.taken (.work n)) e' progress rest := by
    intro e' rest heq
    exact ⟨h.remote, h.task, Share.eq_of_cons_ready (hshare.symm.trans heq)⟩
  rcases hmem with hmem | hmem
  · cases e with
    | sending =>
      obtain rfl := Multiset.mem_singleton.mp hmem
      refine Or.inl ⟨rfl, rfl, htaken ?_⟩
      ext1 <;> try rfl
      simp [Errand.beside, Errand.ready]
    | told outcome =>
      obtain rfl := Multiset.mem_singleton.mp hmem
      refine Or.inr (Or.inl ⟨outcome, rfl, rfl, htaken ?_⟩)
      ext1 <;> try rfl
      simp [Errand.beside, Errand.ready]
    | _ => exact absurd hmem (Multiset.notMem_zero job)
  · refine Or.inr (Or.inr ⟨hmem, fun rest hrest => htaken ?_⟩)
    subst hrest
    ext1 <;> try rfl
    exact Multiset.add_cons job _ _

/-- A reply that the task waits for is for its errand. -/
theorem of_awaited (h : q.Stands s e progress own) {n : Nat} {timer : Timer α} {job : Job α}
    (htimer : s.timers[n]? = some timer) (hreply : timer.reply? = some job)
    (hown : job.owner? = some q.task) :
    ∃ outcome, job = .answer q.task outcome ∧ e = .awaiting outcome ∧
      q.Stands (s.taken (.alarm n)) .finished progress own := by
  have hshare := share_taken_reply htimer hreply hown
  rw [h.share] at hshare
  have hawaited : e.awaited q.task = job ::ₘ ((s.taken (.alarm n)).share q.task).awaited :=
    congrArg Share.awaited hshare
  have hmem : job ∈ e.awaited q.task := hawaited ▸ Multiset.mem_cons_self job _
  cases e with
  | awaiting outcome =>
    obtain rfl := Multiset.mem_singleton.mp hmem
    exact ⟨outcome, rfl, rfl, h.remote, h.task, Share.eq_of_cons_awaited hshare.symm⟩
  | _ => exact absurd hmem (Multiset.notMem_zero job)

theorem happen_reply [Scalar α] [Textual α] (h : q.Stands s e progress own) {n : Nat}
    {timer : Timer α} {job : Job α} (htimer : s.timers[n]? = some timer)
    (hreply : timer.reply? = some job) (hown : job.owner? = some q.task) :
    ∃ outcome, job = .answer q.task outcome ∧ e = .awaiting outcome ∧
      q.Stands (s.happen (.alarm n)) (.told outcome) progress own ∧
      (s.happen (.alarm n)).notices = s.notices := by
  obtain ⟨outcome, rfl, rfl, htaken⟩ := h.of_awaited htimer hreply hown
  obtain ⟨due, alarm⟩ := timer
  obtain ⟨turns, rfl⟩ : ∃ turns, alarm = .reply turns (.answer q.task outcome) := by
    cases alarm with
    | reply turns job => exact ⟨turns, by cases hreply; rfl⟩
    | _ => cases hreply
  have hhappen :
      s.happen (.alarm n) = (s.taken (.alarm n)).post turns (.answer q.task outcome) := by
    simp only [happen, htimer, taken, fire]
  exact ⟨outcome, rfl, rfl, hhappen ▸ htaken.post_answer turns outcome, by rw [hhappen]; rfl⟩

/-- Once its deadline has fired the task is as before, whatever deadlines it has left. -/
theorem taken_deadline (h : q.Stands s e progress own) {n : Nat} {timer : Timer α}
    (htimer : s.timers[n]? = some timer) (hreply : timer.reply? = none) :
    ∃ deadlines, q.Stands (s.taken (.alarm n)) e progress { own with deadlines } := by
  refine ⟨((s.taken (.alarm n)).share q.task).deadlines, h.remote, h.task,
    (share_taken_deadline htimer hreply).trans ?_⟩
  rw [h.share]
  rfl

/-! The connection -/

/-- A task waits for a connection only of its own store, and only as long as its errand does. -/
theorem mem_waiters_iff (h : q.Stands s e progress own) {i : StoreId} :
    q.task ∈ s.waiters i ↔ e = .linking ∧ i = q.store := by
  have hcount : (s.waiters i).count q.task = e.queued q.store i := by
    rw [← queued_share, h.share]
    rfl
  rw [← List.count_pos_iff, hcount]
  cases e with
  | linking => by_cases hi : i = q.store <;> simp [Errand.queued, hi]
  | _ => simp [Errand.queued]

theorem join [Scalar α] (h : q.Stands s .finished progress own) (attempt : Option (List TaskId))
    (hstore : s.stores[q.store]? = some (.redis { q.remote with attempt })) :
    q.Stands (s.setStore q.store
      (.redis { q.remote with attempt := some (attempt.getD [] ++ [q.task]) })) .linking progress
      own := by
  have hmoves := (Moves.refl (p := .any) s).join (t := q.task) hstore trivial trivial
  have hnobody : (attempt.getD []).count q.task = 0 := by
    have hqueued : (s.share q.task).queued q.store = 0 := by
      rw [h.share]
      rfl
    rwa [queued_share, waiters_of_remote? (remote?_eq_some_iff.mpr hstore)] at hqueued
  refine ⟨(hmoves.fixed?_eq _).trans h.remote, h.task, ?_⟩
  rw [share_setStore_redis hstore, h.share]
  ext1 <;> try rfl
  funext i
  by_cases hi : i = q.store
  · simp [Errand.beside, Errand.queued, hi, hnobody]
  · simp [Errand.beside, Errand.queued, hi]

/-- The connection is there, is waited for, or cannot be made. -/
theorem connectFor [Scalar α] [Textual α] (h : q.Stands s .finished progress own)
    (attempt : Option (List TaskId))
    (hstore : s.stores[q.store]? = some (.redis { q.remote with attempt })) {job : Job α}
    (hready : q.Stands (s.post 0 job) e progress own) :
    ∃ fault? s', s.connectFor q.task q.store { q.remote with attempt } job = (fault?, s') ∧
      s'.dueAfter = s.dueAfter ∧ s'.notices = s.notices ∧
      match fault? with
      | some fault => s.linkNow? q.store = some (.error fault) ∧ q.Stands s' .finished progress own
      | none =>
        (s.linkNow? q.store = none ∧ q.Stands s' .linking progress own) ∨
          s.linkNow? q.store = some (.ok none) ∧ q.Stands s' e progress own := by
  unfold Deployment.connectFor linkNow?
  rw [remote?_eq_some_iff.mpr hstore]
  cases attempt with
  | some line => exact ⟨none, _, rfl, rfl, rfl, Or.inl ⟨rfl, h.join (some line) hstore⟩⟩
  | none =>
    dsimp only
    split
    · rw [if_neg nofun]
      have hcalls := (Moves.refl s).callClient (p := { call := fun _ => True }) q.remote.client
        .connect trivial
      have hdue := hcalls.dueAfter_eq
      have hnotices := hcalls.notices_eq fun _ => id
      have hcalled := h.callClient q.remote.client .connect
      have hstores := stores_callClient s q.remote.client .connect
      generalize s.callClient q.remote.client .connect = called
        at hcalled hdue hnotices hstores ⊢
      obtain ⟨reply, s'⟩ := called
      have hlinking := (hcalled.join none (hstores ▸ hstore)).arrangeLink q.store q.remote.client
        reply
      have harranges : Moves { job := (·.owner? = none) } (s'.setStore q.store
          (.redis { q.remote with attempt := some [q.task] })) _ :=
        (Moves.refl _).arrangeLink q.store q.remote.client reply fun _ _ => rfl
      cases reply with
      | throws fault => exact ⟨some fault, s', rfl, hdue, hnotices, rfl, hcalled⟩
      | _ =>
        exact ⟨none, _, rfl, harranges.dueAfter_eq.trans hdue,
          (harranges.notices_eq fun _ => id).trans hnotices, Or.inl ⟨rfl, hlinking⟩⟩
    · rw [if_neg nofun]
      exact ⟨none, _, rfl, rfl, rfl, Or.inr ⟨rfl, hready⟩⟩

theorem wake (h : q.Stands s .finished progress own) (outcome : Outcome α) :
    q.Stands (Deployment.wake outcome s q.task) (q.linked outcome) progress own := by
  unfold Deployment.wake linked
  simp only [h.task, Option.map_some]
  cases q.purpose with
  | check c =>
    cases outcome with
    | ok answer => exact h.post_evaluate 2
    | error fault => exact h.post_answer 3 _
  | _ => exact h.post_answer 2 _

/-- Waking others does nothing to a task. -/
theorem foldl_wake [Scalar α] (h : q.Stands s e progress own) (outcome : Outcome α)
    {line : List TaskId} (hline : q.task ∉ line) :
    q.Stands (line.foldl (Deployment.wake outcome) s) e progress own := by
  induction line generalizing s with
  | nil => exact h
  | cons t line ih =>
    obtain ⟨hne, hrest⟩ := List.ne_and_not_mem_of_not_mem_cons hline
    refine ih (h.moves (p := { job := fun job => job.owner? = some t, turns := mostTurns })
      ((Moves.refl s).wake (Nat.le_refl _) outcome rfl fun _ _ => rfl) id ?_ fun _ h => h.elim)
      hrest
    exact fun job hjob hown => hne (Option.some.inj (hown.symm.trans hjob))

/-- The attempt to connect that the errand waits for is over. -/
theorem linkSettled [Scalar α] (h : q.Stands s .linking progress own) (outcome : Outcome α)
    (status : LinkStatus) :
    q.Stands (s.linkSettled q.store outcome status) (q.linked outcome) progress own := by
  obtain ⟨attempt, hremote⟩ := h.exists_remote
  have hstores := remote?_eq_some_iff.mp hremote
  have hqueued : (s.share q.task).queued q.store = 1 := by
    rw [h.share]
    exact if_pos rfl
  have hunlinked :
      q.Stands (s.unlinked q.store { q.remote with attempt } status) .finished progress own := by
    have hmoves := ((Moves.refl (p := { unlink := (· = q.store) }) s).setLinkStatus q.remote.client
      status).unlink hstores rfl
    refine ⟨(hmoves.fixed?_eq _).trans h.remote, (hmoves.tasks_eq id h.lt).trans h.task, ?_⟩
    rw [share_unlinked hstores, h.share]
    ext1 <;> try rfl
    funext i
    by_cases hi : i = q.store <;> simp [Errand.beside, Errand.queued, hi]
  obtain ⟨before, later, hbefore, hlater, hsettled⟩ :=
    exists_linkSettled_eq hstores hqueued outcome status
  rw [hsettled]
  exact ((hunlinked.foldl_wake outcome hbefore).wake outcome).foldl_wake outcome hlater

/-- The end of an attempt that the task waits for is the end of what its errand waits for. -/
theorem of_queued (h : q.Stands s e progress own) {n turns : Nat} {job : Job α} {i : StoreId}
    (hentry : s.agenda[n]? = some (turns, job)) (hlink : job.link? = some i)
    (hqueued : 0 < (s.share q.task).queued i) :
    ∃ outcome status, job = .linkSettled q.store outcome status ∧ e = .linking ∧
      q.task ∈ s.waiters q.store ∧ q.Stands (s.taken (.work n)) .linking progress own := by
  have hwaits : q.task ∈ s.waiters i := List.count_pos_iff.mp hqueued
  obtain ⟨rfl, rfl⟩ := h.mem_waiters_iff.mp hwaits
  have htaken := h.taken_other hentry (owner?_of_link? hlink ▸ nofun)
  cases job with
  | linkSettled k outcome status =>
    cases hlink
    exact ⟨outcome, status, rfl, rfl, hwaits, htaken⟩
  | _ => cases hlink

end Stands

end Caller

end Deployment

end Admission
