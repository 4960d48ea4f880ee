import Admission.Deployment.Operation

/-!
What a deployment may do at all.

Everything that happens in a deployment is a row of moves: work is posted, a timer is set, a client
is called, a task ends. Each function moves within a scope, which says for whom it works, what it
posts, the connection of which store it may touch, and what it may call and report. What every move
within a scope leaves alone, a function of that scope leaves alone.
-/
namespace Admission

/-- Whose work a job is. The end of an attempt to connect is a store's. -/
def Job.owner? {α : Type} : Job α → Option TaskId
  | .evaluate t | .answer t _ | .resume t | .conclude t _ | .started t _ | .closed t _ => some t
  | .linkSettled .. => none

/-- The work that a check comes to. -/
def Job.IsOfCheck {α : Type} (t : TaskId) : Job α → Prop
  | .evaluate u | .answer u _ | .resume u | .conclude u _ => u = t
  | _ => False

/-- The work that making a store ready comes to. -/
def Job.IsOfBoot {α : Type} (t : TaskId) : Job α → Prop
  | .answer u _ | .resume u | .started u _ => u = t
  | _ => False

/-- The store whose attempt to connect is over with a job. -/
def Job.link? {α : Type} : Job α → Option StoreId
  | .linkSettled i _ _ => some i
  | _ => none

/-- A store may come to be another by what it holds, or by how much of its script is left. Stores in
Redis do not change so. -/
inductive Store.Resembles {α : Type} : Store α → Store α → Prop
  | memory (old new : MemoryStore Key (Unchecked α)) (h : new.options = old.options) :
      Resembles (.memory old) (.memory new)
  | scripted (script : StoreScript α) (allow : Replies α) (sweep : Option (List (Value α)))
      (h : sweep.isSome = script.sweep.isSome) :
      Resembles (.scripted script) (.scripted { script with allow, sweep })

/-- Whether a call shuts a limiter down. -/
def Start.Stops {α : Type} : Start α → Prop
  | .closeLimiter _ | .shutDown _ => True
  | _ => False

/-- Whether a notice reports on a check. -/
def Notice.isOnCheck {α : Type} : Notice α → Bool
  | .exceeded _ | .abandoned _ | .undecided .. => true
  | _ => false

namespace MemoryStore

variable {α : Type} [Scalar α] [Textual α] (s : MemoryStore Key (Unchecked α))

theorem options_attempt (key : Key) (now : Unchecked α) :
    (s.attempt key now).store.options = s.options := by
  unfold attempt
  dsimp only
  split
  · split
    · rfl
    · split <;> rfl
  · rfl

theorem options_attemptSweep (now : Unchecked α) : (s.attemptSweep now).2.options = s.options := by
  unfold attemptSweep
  dsimp only
  split
  · rfl
  · split <;> rfl

end MemoryStore

namespace Config

variable {α : Type} [Scalar α] [Textual α]

omit [Scalar α] in
theorem isOnCheck_of_report? {key : Key} {decision : Decision} {verdict : Except (Fault α) Bool}
    {notices : List (Notice α)} (h : report? key decision verdict = some notices) :
    ∀ n ∈ notices, n.isOnCheck = true := by
  intro n hn
  cases verdict with
  | ok allowed =>
    cases allowed with
    | true =>
      obtain rfl : [] = notices := Option.some.inj h
      cases hn
    | false =>
      obtain ⟨text, -, rfl⟩ := Option.map_eq_some_iff.mp h
      rw [List.mem_singleton.mp hn]
      rfl
  | error fault =>
    obtain ⟨text, -, h⟩ := Option.bind_eq_some_iff.mp h
    split at h
    · cases h
      rw [List.mem_singleton.mp hn]
      rfl
    · obtain ⟨cause, -, h⟩ := Option.bind_eq_some_iff.mp h
      cases h
      rw [List.mem_singleton.mp hn]
      rfl

/-- The decision on a check that the store answers so, or fails to answer. -/
def decisionOn (c : Config α) : Except (Fault α) Bool → Decision
  | .ok true => .allow
  | .ok false => .deny
  | .error _ => c.decisionOnFailure

theorem judge_eq (c : Config α) (key : Key) (verdict : Except (Fault α) Bool) :
    c.judge key verdict =
      match report? key (c.decisionOn verdict) verdict with
      | some notices => .ok (c.decisionOn verdict, notices)
      | none => .error .wordless := rfl

theorem isOnCheck_of_judge {c : Config α} {key : Key} {verdict : Except (Fault α) Bool}
    {decision : Decision} {notices : List (Notice α)}
    (h : c.judge key verdict = .ok (decision, notices)) : ∀ n ∈ notices, n.isOnCheck = true := by
  rw [judge_eq] at h
  split at h
  · next found hreport =>
    cases h
    exact isOnCheck_of_report? hreport
  · cases h

end Config

namespace Deployment

inductive Move (α : Type) where
  | post (turns : Nat) (job : Job α)
  | setTimer (delay : α) (alarm : Alarm α)
  | note (notice : Notice α)
  | raise (fault : Fault α)
  | record (call : Call α)
  | exchange (t : TaskId) (e : Exchange)
  | setProgress (t : TaskId) (progress : Progress α)
  | settle (t : TaskId) (settlement : Settlement α)
  | newTask (store : StoreId) (purpose : Purpose α)
  | listen (signal : SignalId) (t : TaskId)
  | release (t : TaskId)
  | attach (t : TaskId)
  | detach (t : TaskId)
  | abortSignal (signal : SignalId)
  /-- A store that is not in Redis changes what it holds. -/
  | fill (i : StoreId) (store : Store α)
  /-- A task joins those that wait for the connection of a store. -/
  | join (i : StoreId) (t : TaskId)
  /-- Nobody waits for the connection of a store any more. -/
  | unlink (i : StoreId)
  /-- A scripted client goes on to its next reply. -/
  | consume (i : ClientId) (call : ClientCall α)
  | setLinkStatus (i : ClientId) (status : LinkStatus)
  | setKeyspace (keyspace : Keyspace String α)
  | setInterval (l : LimiterId) (name : Option String)
  | register (name : String)
  | countIntervals (n : Nat)
  | removeInterval (name : String)

section

variable {α : Type} [Scalar α]

open Classical in
noncomputable def Move.apply (s : Deployment α) : Move α → Deployment α
  | .post turns job => s.post turns job
  | .setTimer delay alarm => s.setTimer delay alarm
  | .note notice => s.note notice
  | .raise fault => s.raise fault
  | .record call => s.record call
  | .exchange t e => s.exchange t e
  | .setProgress t progress => s.setProgress t progress
  | .settle t settlement => s.settle t settlement
  | .newTask store purpose => (s.newTask store purpose).2
  | .listen signal t => { s with listeners := s.listeners ++ [(signal, t)] }
  | .release t => s.release t
  | .attach t => { s with attached := s.attached ++ [t] }
  | .detach t => s.detach t
  | .abortSignal signal => { s with abortedSignals := signal :: s.abortedSignals }
  | .fill i store =>
    if ∃ old, s.stores[i]? = some old ∧ old.Resembles store then s.setStore i store else s
  | .join i t =>
    match s.stores[i]? with
    | some (.redis store) =>
      s.setStore i (.redis { store with attempt := some (store.attempt.getD [] ++ [t]) })
    | _ => s
  | .unlink i =>
    match s.stores[i]? with
    | some (.redis store) => s.setStore i (.redis { store with attempt := none })
    | _ => s
  | .consume i call =>
    match s.clients[i]? with
    | some ⟨.scripted script, status⟩ =>
      s.setClient i ⟨.scripted (script.next call).2, status⟩
    | _ => s
  | .setLinkStatus i status => s.setLinkStatus i status
  | .setKeyspace keyspace => { s with keyspace }
  | .setInterval l name =>
    match s.limiters[l]? with
    | some limiter => s.setLimiter l { limiter with interval := name }
    | none => s
  | .register name => { s with intervals := s.intervals ++ [name] }
  | .countIntervals n => { s with intervalCount := n }
  | .removeInterval name => s.removeInterval name

end

/-- What moves may concern, and what they may show. -/
structure Scope (α : Type) where
  /-- The tasks that are moved. -/
  task : TaskId → Prop := fun _ => False
  /-- The work that is posted, at once or for later. -/
  job : Job α → Prop := fun _ => False
  /-- How many turns work that is ready may let pass at most. -/
  turns : Nat := 0
  /-- The stores that may be connected, or whose connection somebody may come to wait for. -/
  link : StoreId → Prop := fun _ => False
  /-- The stores whose attempt to connect may be over. -/
  unlink : StoreId → Prop := fun _ => False
  signal : SignalId → Prop := fun _ => False
  call : Call α → Prop := fun _ => False
  notice : Notice α → Prop := fun _ => False
  /-- The tasks that may end: those that are settled, or whose requests are attached, detached,
  handed on or refused. -/
  finish : TaskId → Prop := fun _ => False
  /-- Whether a new task may begin. -/
  begins : Prop := False
  /-- Whether regular sweeps may be registered or stopped. -/
  regular : Prop := False

/-- No job lets more turns pass than this. -/
def mostTurns : Nat := 3

/-- The scope within which anything may happen. -/
def Scope.any {α : Type} : Scope α :=
  ⟨fun _ => True, fun _ => True, mostTurns, fun _ => True, fun _ => True, fun _ => True,
    fun _ => True, fun _ => True, fun _ => True, True, True⟩

section

variable {α : Type}

def Alarm.Within (p : Scope α) : Alarm α → Prop
  | .deadline t _ => p.task t
  | .reply turns job => turns ≤ mostTurns ∧ p.job job
  | .sweep .. => p.regular

def Move.Within (p : Scope α) : Move α → Prop
  | .post turns job => turns ≤ p.turns ∧ p.job job
  | .setTimer _ alarm => Alarm.Within p alarm
  | .note notice => p.notice notice
  | .record call => p.call call
  | .setProgress t _ | .listen _ t | .release t => p.task t
  | .settle t _ => p.task t ∧ p.finish t
  | .newTask .. => p.begins
  | .exchange t _ | .attach t | .detach t => p.finish t
  | .abortSignal signal => p.signal signal
  | .join i t => p.link i ∧ p.task t
  | .unlink i => p.unlink i
  | .setInterval .. | .register _ | .countIntervals _ | .removeInterval _ => p.regular
  | _ => True

end

/-- The second deployment arises from the first by moves within a scope. -/
inductive Moves {α : Type} [Scalar α] (p : Scope α) : Deployment α → Deployment α → Prop
  | refl (s : Deployment α) : Moves p s s
  | tail {s s' : Deployment α} (m : Move α) (h : Moves p s s') (hm : m.Within p) :
      Moves p s (m.apply s')

/-- A log that has grown by entries of a kind that there is none of has not grown. -/
theorem eq_of_exists_append {β : Type} {P : β → Prop} {old new : List β}
    (h : ∃ more, new = old ++ more ∧ ∀ entry ∈ more, P entry) (hnone : ∀ entry, ¬P entry) :
    new = old := by
  obtain ⟨more, rfl, hmore⟩ := h
  rw [List.eq_nil_iff_forall_not_mem.mpr fun entry hentry => hnone entry (hmore entry hentry),
    List.append_nil]

namespace Moves

variable {α : Type} [Scalar α] {p : Scope α} {s s' : Deployment α} {t : TaskId} {i : StoreId}

/-! Logs -/

/-- A log to which each move within a scope appends entries of one kind, or nothing, has grown by
entries of that kind. -/
theorem exists_append {β : Type} {P : β → Prop} (h : Moves p s s') (log : Deployment α → List β)
    (hmove : ∀ (m : Move α) (s : Deployment α), m.Within p →
      ∃ more, log (m.apply s) = log s ++ more ∧ ∀ entry ∈ more, P entry) :
    ∃ more, log s' = log s ++ more ∧ ∀ entry ∈ more, P entry := by
  induction h with
  | refl => exact ⟨[], (List.append_nil _).symm, nofun⟩
  | @tail s' m _ hm ih =>
    obtain ⟨before, hbefore, hold⟩ := ih
    obtain ⟨more, hmore, hnew⟩ := hmove m s' hm
    refine ⟨before ++ more, by rw [hmore, hbefore, List.append_assoc], fun entry hentry => ?_⟩
    exact (List.mem_append.mp hentry).elim (hold entry) (hnew entry)

theorem exists_agenda_eq (h : Moves p s s') :
    ∃ more, s'.agenda = s.agenda ++ more ∧ ∀ entry ∈ more, entry.1 ≤ p.turns ∧ p.job entry.2 := by
  refine h.exists_append Deployment.agenda fun m s hm => ?_
  cases m with
  | post turns job => exact ⟨[(turns, job)], rfl, fun _ hnew => List.mem_singleton.mp hnew ▸ hm⟩
  | fill | join | unlink | consume | setInterval =>
    refine ⟨[], ?_, nofun⟩
    simp only [Move.apply]
    split <;> exact (List.append_nil _).symm
  | _ => exact ⟨[], (List.append_nil _).symm, nofun⟩

theorem exists_calls_eq (h : Moves p s s') :
    ∃ more, s'.calls = s.calls ++ more ∧ ∀ call ∈ more, p.call call := by
  refine h.exists_append Deployment.calls fun m s hm => ?_
  cases m with
  | record call => exact ⟨[call], rfl, fun _ hnew => List.mem_singleton.mp hnew ▸ hm⟩
  | fill | join | unlink | consume | setInterval =>
    refine ⟨[], ?_, nofun⟩
    simp only [Move.apply]
    split <;> exact (List.append_nil _).symm
  | _ => exact ⟨[], (List.append_nil _).symm, nofun⟩

theorem calls_eq (h : Moves p s s') (hnone : ∀ call, ¬p.call call) : s'.calls = s.calls :=
  eq_of_exists_append h.exists_calls_eq hnone

theorem exists_notices_eq (h : Moves p s s') :
    ∃ more, s'.notices = s.notices ++ more ∧ ∀ notice ∈ more, p.notice notice := by
  refine h.exists_append Deployment.notices fun m s hm => ?_
  cases m with
  | note notice => exact ⟨[notice], rfl, fun _ hnew => List.mem_singleton.mp hnew ▸ hm⟩
  | fill | join | unlink | consume | setInterval =>
    refine ⟨[], ?_, nofun⟩
    simp only [Move.apply]
    split <;> exact (List.append_nil _).symm
  | _ => exact ⟨[], (List.append_nil _).symm, nofun⟩

theorem notices_eq (h : Moves p s s') (hnone : ∀ notice, ¬p.notice notice) :
    s'.notices = s.notices :=
  eq_of_exists_append h.exists_notices_eq hnone

/-- What has been settled stays so, and only tasks that are moved and may end are settled. -/
theorem exists_settled_eq (h : Moves p s s') :
    ∃ more, s'.settled = s.settled ++ more ∧
      ∀ entry ∈ more, p.task entry.1 ∧ p.finish entry.1 := by
  refine h.exists_append Deployment.settled fun m s hm => ?_
  cases m with
  | settle u settlement =>
    exact ⟨[(u, settlement)], rfl, fun _ hnew => List.mem_singleton.mp hnew ▸ hm⟩
  | fill | join | unlink | consume | setInterval =>
    refine ⟨[], ?_, nofun⟩
    simp only [Move.apply]
    split <;> exact (List.append_nil _).symm
  | _ => exact ⟨[], (List.append_nil _).symm, nofun⟩

/-- Where no task that is moved may end, none does. -/
theorem settled_eq (h : Moves p s s') (hnone : ∀ t, p.task t → ¬p.finish t) :
    s'.settled = s.settled :=
  eq_of_exists_append h.exists_settled_eq fun _ hentry => hnone _ hentry.1 hentry.2

/-- What has become of requests stays so, and only tasks that may end add to it. -/
theorem exists_exchanges_eq (h : Moves p s s') :
    ∃ more, s'.exchanges = s.exchanges ++ more ∧ ∀ entry ∈ more, p.finish entry.1 := by
  refine h.exists_append Deployment.exchanges fun m s hm => ?_
  cases m with
  | exchange u e => exact ⟨[(u, e)], rfl, fun _ hnew => List.mem_singleton.mp hnew ▸ hm⟩
  | fill | join | unlink | consume | setInterval =>
    refine ⟨[], ?_, nofun⟩
    simp only [Move.apply]
    split <;> exact (List.append_nil _).symm
  | _ => exact ⟨[], (List.append_nil _).symm, nofun⟩

theorem exchanges_eq (h : Moves p s s') (hnone : ∀ t, ¬p.finish t) :
    s'.exchanges = s.exchanges :=
  eq_of_exists_append h.exists_exchanges_eq fun _ => hnone _

/-! What is done in one go -/

theorem post (h : Moves p s s') {turns : Nat} {job : Job α} (hturns : turns ≤ p.turns)
    (hjob : p.job job) : Moves p s (s'.post turns job) :=
  h.tail (.post turns job) ⟨hturns, hjob⟩

theorem setTimer (h : Moves p s s') (delay : α) (alarm : Alarm α) (halarm : Alarm.Within p alarm) :
    Moves p s (s'.setTimer delay alarm) :=
  h.tail (.setTimer delay alarm) halarm

theorem note (h : Moves p s s') {notice : Notice α} (hnotice : p.notice notice) :
    Moves p s (s'.note notice) :=
  h.tail (.note notice) hnotice

theorem notes (h : Moves p s s') (notices : List (Notice α))
    (hnotices : ∀ n ∈ notices, p.notice n) :
    Moves p s { s' with notices := s'.notices ++ notices } := by
  induction notices generalizing s' with
  | nil => simpa using h
  | cons notice notices ih =>
    have hrest := ih (h.note (hnotices notice List.mem_cons_self)) fun n hn =>
      hnotices n (List.mem_cons_of_mem notice hn)
    simpa [Deployment.note] using hrest

theorem record (h : Moves p s s') {call : Call α} (hcall : p.call call) :
    Moves p s (s'.record call) :=
  h.tail (.record call) hcall

theorem setProgress (h : Moves p s s') (ht : p.task t) (progress : Progress α) :
    Moves p s (s'.setProgress t progress) :=
  h.tail (.setProgress t progress) ht

theorem settle (h : Moves p s s') (ht : p.task t) (hfinish : p.finish t)
    (settlement : Settlement α) : Moves p s (s'.settle t settlement) :=
  h.tail (.settle t settlement) ⟨ht, hfinish⟩

theorem exchange (h : Moves p s s') (hfinish : p.finish t) (e : Exchange) :
    Moves p s (s'.exchange t e) :=
  h.tail (.exchange t e) hfinish

theorem detach (h : Moves p s s') (hfinish : p.finish t) : Moves p s (s'.detach t) :=
  h.tail (.detach t) hfinish

theorem newTask (h : Moves p s s') (hbegins : p.begins) (store : StoreId) (purpose : Purpose α) :
    Moves p s (s'.newTask store purpose).2 :=
  h.tail (.newTask store purpose) hbegins

theorem release (h : Moves p s s') (ht : p.task t) : Moves p s (s'.release t) :=
  h.tail (.release t) ht

theorem fill (h : Moves p s s') {old : Store α} (hold : s'.stores[i]? = some old) (new : Store α)
    (hlike : old.Resembles new) : Moves p s (s'.setStore i new) := by
  have hmove : (Move.fill i new).apply s' = s'.setStore i new := if_pos ⟨old, hold, hlike⟩
  exact hmove ▸ h.tail (.fill i new) trivial

theorem join (h : Moves p s s') {store : RedisStore α}
    (hstore : s'.stores[i]? = some (.redis store)) (hlink : p.link i) (ht : p.task t) :
    Moves p s
      (s'.setStore i (.redis { store with attempt := some (store.attempt.getD [] ++ [t]) })) := by
  have hmove := h.tail (.join i t) ⟨hlink, ht⟩
  simpa only [Move.apply, hstore] using hmove

theorem unlink (h : Moves p s s') {store : RedisStore α}
    (hstore : s'.stores[i]? = some (.redis store)) (hunlink : p.unlink i) :
    Moves p s (s'.setStore i (.redis { store with attempt := none })) := by
  have hmove := h.tail (.unlink i) hunlink
  simpa only [Move.apply, hstore] using hmove

theorem setLinkStatus (h : Moves p s s') (c : ClientId) (status : LinkStatus) :
    Moves p s (s'.setLinkStatus c status) :=
  h.tail (.setLinkStatus c status) trivial

theorem setInterval (h : Moves p s s') (hregular : p.regular) {l : LimiterId} {limiter : Limiter α}
    (hlimiter : s'.limiters[l]? = some limiter) (name : Option String) :
    Moves p s (s'.setLimiter l { limiter with interval := name }) := by
  have hmove := h.tail (.setInterval l name) hregular
  simpa only [Move.apply, hlimiter] using hmove

/-! Clients and waits -/

theorem arrange (h : Moves p s s') (reply : Reply α) {turnsNow turnsLater : Nat}
    (hnow : turnsNow ≤ p.turns) (hlater : turnsLater ≤ mostTurns) {job : Outcome α → Job α}
    (hjob : ∀ outcome, p.job (job outcome)) :
    Moves p s (s'.arrange reply turnsNow turnsLater job) := by
  cases reply with
  | throws fault => exact h
  | never => exact h
  | settles delay outcome status =>
    cases delay with
    | none => exact h.post hnow (hjob _)
    | some delay => exact h.setTimer delay _ ⟨hlater, hjob _⟩

theorem leaveWait (h : Moves p s s') (ht : p.task t) (hresume : p.job (.resume t)) (stage : Stage)
    (outcome : Outcome α) : Moves p s (s'.leaveWait t stage outcome) :=
  (h.setProgress ht _).post (Nat.zero_le _) hresume

theorem endWait (h : Moves p s s') (ht : p.task t) (hresume : p.job (.resume t))
    (outcome? : Option (Outcome α)) : Moves p s (s'.endWait t outcome?) := by
  unfold Deployment.endWait
  split
  · exact (h.leaveWait ht hresume _ _).release ht
  · exact (h.setProgress ht _).release ht
  · exact h

theorem abort (h : Moves p s s') {signal : SignalId} (hsignal : p.signal signal)
    (ht : ∀ t, (signal, t) ∈ s'.listeners → p.task t ∧ p.job (.resume t)) :
    Moves p s (s'.abort signal) := by
  have hends : ∀ (waiting : List TaskId) {s' : Deployment α}, Moves p s s' →
      (∀ t ∈ waiting, p.task t ∧ p.job (.resume t)) →
      Moves p s (waiting.foldl (fun s t => s.endWait t (some (.error .aborted))) s') := by
    intro waiting
    induction waiting with
    | nil => exact fun h _ => h
    | cons t waiting ih =>
      intro s' h hwaiting
      obtain ⟨ht, hresume⟩ := hwaiting t List.mem_cons_self
      exact ih (h.endWait ht hresume _) fun u hu => hwaiting u (List.mem_cons_of_mem t hu)
  unfold Deployment.abort
  split
  · exact h
  · refine hends _ (h.tail (.abortSignal signal) hsignal) fun t hmem => ?_
    obtain ⟨l, hl, rfl⟩ := List.mem_map.mp hmem
    obtain ⟨hl, hsame⟩ := List.mem_filter.mp hl
    exact ht l.2 (beq_iff_eq.mp hsame ▸ hl)

theorem hangUp (h : Moves p s s') (hfinish : p.finish t) (hsignal : p.signal (.request t))
    (hheard : ∀ u, (.request t, u) ∈ s'.listeners → p.task u ∧ p.job (.resume u)) :
    Moves p s (s'.hangUp t) := by
  unfold Deployment.hangUp
  split
  · exact (h.detach hfinish).abort hsignal hheard
  · exact h

theorem arrangeLink (h : Moves p s s') (i : StoreId) (c : ClientId) (reply : Reply α)
    (hjob : ∀ outcome status, p.job (.linkSettled i outcome status)) :
    Moves p s (s'.arrangeLink i c reply) := by
  cases reply with
  | throws fault => exact h
  | never => exact h.setLinkStatus c .connecting
  | settles delay outcome status =>
    cases delay with
    | none => exact h.post (Nat.zero_le _) (hjob _ _)
    | some delay => exact (h.setLinkStatus c .connecting).setTimer delay _ ⟨Nat.zero_le _, hjob _ _⟩

variable [Textual α]

theorem evalHere (h : Moves p s s') (evaluation : Evaluation α) :
    Moves p s (s'.evalHere evaluation).2 := by
  unfold Deployment.evalHere
  split
  · exact h
  · next command _ =>
    have hmove := h.tail
      (.setKeyspace (Shared.run .textual s'.clock command s'.keyspace).2) trivial
    dsimp only
    split <;> exact hmove

theorem callClient (h : Moves p s s') (c : ClientId) (call : ClientCall α)
    (hcall : p.call call.recorded) : Moves p s (s'.callClient c call).2 := by
  unfold Deployment.callClient
  split
  · next script status hclient =>
    have hmove := h.tail (.consume c call) trivial
    simp only [Move.apply, hclient] at hmove
    exact hmove.record hcall
  · cases call with
    | eval evaluation => exact h.evalHere evaluation
    | ping => exact h
    | connect => exact h
    | quit => exact h
  · exact h
  · exact h

theorem startWait (h : Moves p s s') (ht : p.task t) (hresume : p.job (.resume t)) (stage : Stage)
    (milliseconds : Option (Value α)) (signal : Option SignalId) :
    Moves p s (s'.startWait t stage milliseconds signal) := by
  unfold Deployment.startWait
  split
  · exact h.leaveWait ht hresume stage _
  · next text _ =>
    have hset := (h.setProgress ht (.waiting stage)).setTimer (numeral milliseconds)
      (.deadline t text) ht
    cases signal with
    | none => exact hset
    | some signal => exact hset.tail (.listen signal t) ht

theorem answer (h : Moves p s s') (ht : p.task t) (hresume : p.job (.resume t))
    (outcome : Outcome α) : Moves p s (s'.answer t outcome) := by
  cases outcome <;> exact h.endWait ht hresume _

end Moves

section

variable {α : Type} [Scalar α] [Textual α]

@[simp] theorem stores_callClient (s : Deployment α) (c : ClientId) (call : ClientCall α) :
    (s.callClient c call).2.stores = s.stores := by
  unfold callClient
  split
  · rfl
  · cases call with
    | eval evaluation =>
      simp only [evalHere]
      split
      · rfl
      · split <;> rfl
    | _ => rfl
  · rfl
  · rfl

end

namespace Moves

variable {α : Type} [Scalar α] [Textual α] {p : Scope α} {s s' : Deployment α} {t : TaskId}
  {i : StoreId} {store : RedisStore α}

theorem connectFor (h : Moves p s s') (hstore : s'.stores[i]? = some (.redis store))
    (hlink : p.link i) (ht : p.task t) {whenReady : Job α} (hready : p.job whenReady)
    (hopen : store.owned = true → store.attempt = none → s'.linkStatus store.client = .waiting →
      p.call .connect ∧ ∀ outcome status, p.job (.linkSettled i outcome status)) :
    Moves p s (s'.connectFor t i store whenReady).2 := by
  unfold Deployment.connectFor
  split
  · next waiters hattempt =>
    simpa [hattempt] using h.join hstore hlink ht
  · next hattempt =>
    split
    · next howned =>
      obtain ⟨howned, hstatus⟩ := Bool.and_eq_true_iff.mp howned
      obtain ⟨hcall, hjob⟩ := hopen howned hattempt (beq_iff_eq.mp hstatus)
      have hcalled := h.callClient store.client .connect hcall
      have hsame := stores_callClient s' store.client .connect
      split
      · next hreply => simpa only [hreply] using hcalled
      · next reply s'' _ hreply =>
        rw [hreply] at hcalled hsame
        have hjoined := hcalled.join (hsame ▸ hstore) hlink ht
        rw [hattempt] at hjoined
        exact hjoined.arrangeLink i store.client reply hjob
    · exact h.post (Nat.zero_le _) hready

omit [Textual α] in
theorem wake (h : Moves p s s') (hturns : 3 ≤ p.turns) (outcome : Outcome α)
    (hanswer : p.job (.answer t outcome))
    (hevaluate : ∀ answer, outcome = .ok answer → p.job (.evaluate t)) :
    Moves p s (Deployment.wake outcome s' t) := by
  unfold Deployment.wake
  split
  · exact h.post (Nat.le_of_succ_le hturns) (hevaluate _ rfl)
  · exact h.post hturns hanswer
  · exact h.post (Nat.le_of_succ_le hturns) hanswer
  · exact h

omit [Textual α] in
theorem linkSettled (h : Moves p s s') (hturns : 3 ≤ p.turns) (hunlink : p.unlink i)
    (outcome : Outcome α)
    (status : LinkStatus)
    (hwaiter : ∀ store, s'.stores[i]? = some (.redis store) → ∀ t ∈ store.attempt.getD [],
      p.job (.answer t outcome) ∧ ∀ answer, outcome = .ok answer → p.job (.evaluate t)) :
    Moves p s (s'.linkSettled i outcome status) := by
  have hwakes : ∀ (waiters : List TaskId) {s' : Deployment α}, Moves p s s' →
      (∀ t ∈ waiters,
        p.job (.answer t outcome) ∧ ∀ answer, outcome = .ok answer → p.job (.evaluate t)) →
      Moves p s (waiters.foldl (Deployment.wake outcome) s') := by
    intro waiters
    induction waiters with
    | nil => exact fun h _ => h
    | cons t waiters ih =>
      intro s' h hall
      obtain ⟨hanswer, hevaluate⟩ := hall t List.mem_cons_self
      exact ih (h.wake hturns outcome hanswer hevaluate) fun u hu =>
        hall u (List.mem_cons_of_mem t hu)
  unfold Deployment.linkSettled
  split
  · next store hstore =>
    have hunlinked := (h.setLinkStatus store.client status).unlink (i := i) hstore hunlink
    exact hwakes _ hunlinked (hwaiter store hstore)
  · exact h

/-! Checks -/

theorem judge (h : Moves p s s') (hnotice : ∀ n, Notice.isOnCheck n = true → p.notice n)
    (l : LimiterId) (key : Key) (verdict : Except (Fault α) Bool) :
    Moves p s (s'.judge l key verdict).2 := by
  unfold Deployment.judge
  split
  · exact h
  · next limiter _ =>
    split
    · next decision notices hjudge =>
      exact h.notes notices fun n hn => hnotice n (Config.isOnCheck_of_judge hjudge n hn)
    · exact h

theorem conclude (h : Moves p s s') (ht : p.task t) (hfinish : p.finish t)
    (hnotice : ∀ n, Notice.isOnCheck n = true → p.notice n) (verdict : Except (Fault α) Bool) :
    Moves p s (s'.conclude t verdict) := by
  unfold Deployment.conclude
  split
  · next c _ =>
    cases c.origin with
    | store => cases verdict <;> exact h.settle ht hfinish _
    | limiter l =>
      have hjudged := h.judge hnotice l c.bucket verdict
      dsimp only
      split <;> next hj => exact (hj ▸ hjudged).settle ht hfinish _
    | middleware l =>
      have hjudged := h.judge hnotice l c.bucket verdict
      dsimp only
      split
      · next hj => exact (((hj ▸ hjudged).detach hfinish).exchange hfinish _).settle ht hfinish _
      · next hj => exact (((hj ▸ hjudged).detach hfinish).exchange hfinish _).settle ht hfinish _
      · next hj => exact ((hj ▸ hjudged).detach hfinish).settle ht hfinish _
    | guard l =>
      have hjudged := h.judge hnotice l c.bucket verdict
      dsimp only
      split <;> next hj => exact (hj ▸ hjudged).settle ht hfinish _
  · exact h

theorem checkMemory (h : Moves p s s') {store : MemoryStore Key (Unchecked α)}
    (hstore : s'.stores[i]? = some (.memory store)) (ht : p.task t) (hfinish : p.finish t)
    (hjob : ∀ verdict, p.job (.conclude t verdict))
    (hnotice : ∀ n : Notice α, p.notice n) (c : Check α) :
    Moves p s (s'.checkMemory t i store c) := by
  have hfilled := (h.fill hstore (.memory (store.attempt c.bucket ⟨c.now⟩).store)
    (.memory _ _ (store.options_attempt _ _))).notes
    ((store.attempt c.bucket ⟨c.now⟩).evicted.map .evicted) fun n _ => hnotice n
  unfold Deployment.checkMemory
  dsimp only
  split
  · exact hfilled.post (Nat.zero_le _) (hjob _)
  · exact hfilled.conclude ht hfinish (fun n _ => hnotice n) _

theorem checkScripted (h : Moves p s s') {script : StoreScript α}
    (hstore : s'.stores[i]? = some (.scripted script)) (ht : p.task t) (hfinish : p.finish t)
    (hjob : ∀ verdict, p.job (.conclude t verdict))
    (hnotice : ∀ n, Notice.isOnCheck n = true → p.notice n) (c : Check α)
    (hcall : p.call (.storeAllow c.key c.now (s'.signalState c.signal))) :
    Moves p s (s'.checkScripted t i script c) := by
  unfold Deployment.checkScripted
  have hasked := (h.fill hstore (.scripted
    { script with allow := (script.allow.next (.value (.bool true))).2 })
    (.scripted script _ _ rfl)).record hcall
  cases hreply : script.allow.next (.value (.bool true)) with
  | mk reply allow =>
    rw [hreply] at hasked
    cases reply with
    | throws fault => exact hasked.conclude ht hfinish hnotice _
    | _ => exact hasked.arrange _ (Nat.zero_le _) (Nat.zero_le _) fun _ => hjob _

theorem checkRedis (h : Moves p s s') {store : RedisStore α}
    (hstore : s'.stores[i]? = some (.redis store)) (hlink : p.link i) (ht : p.task t)
    (hown : ∀ job : Job α, job.IsOfCheck t → p.job job)
    (hopen : store.owned = true → store.attempt = none → s'.linkStatus store.client = .waiting →
      p.call .connect ∧ ∀ outcome status, p.job (.linkSettled i outcome status)) (c : Check α) :
    Moves p s (s'.checkRedis t i store c) := by
  unfold Deployment.checkRedis
  split
  · exact h.post (Nat.zero_le _) (hown _ rfl)
  · have hlinked := h.connectFor hstore hlink ht (hown (.evaluate t) rfl) hopen
    split
    · next hc => exact (hc ▸ hlinked).post (Nat.zero_le _) (hown _ rfl)
    · next hc => exact (hc ▸ hlinked).startWait ht (hown _ rfl) _ _ _

theorem check (h : Moves p s s') (hlink : p.link i) (ht : p.task t) (hfinish : p.finish t)
    (hown : ∀ job : Job α, job.IsOfCheck t → p.job job)
    (hnotice : ∀ n : Notice α, p.notice n)
    (hallow : ∀ key now signal, p.call (.storeAllow key now signal))
    (hopen : ∀ store, s'.stores[i]? = some (.redis store) → store.owned = true →
      store.attempt = none → s'.linkStatus store.client = .waiting →
      p.call .connect ∧ ∀ outcome status, p.job (.linkSettled i outcome status))
    (c : Check α) : Moves p s (s'.check t i c) := by
  unfold Deployment.check
  split
  · next hstore => exact h.checkMemory hstore ht hfinish (fun _ => hown _ rfl) hnotice c
  · next hstore =>
    exact h.checkScripted hstore ht hfinish (fun _ => hown _ rfl) (fun n _ => hnotice n) c
      (hallow _ _ _)
  · next store hstore => exact h.checkRedis hstore hlink ht hown (hopen store hstore) c
  · exact h

theorem evaluate (h : Moves p s s') (hturns : 2 ≤ p.turns)
    (hjob : ∀ outcome, p.job (.answer t outcome))
    (hcall : ∀ evaluation, p.call (.eval evaluation)) : Moves p s (s'.evaluate t) := by
  unfold Deployment.evaluate
  split
  · split
    · next store _ =>
      split
      · exact h.post (Nat.zero_le _) (hjob _)
      · next evaluation _ =>
        have hcalled := h.callClient store.client (.eval evaluation) (hcall evaluation)
        split
        · next hc => exact (hc ▸ hcalled).post (Nat.zero_le _) (hjob _)
        · next hc => exact (hc ▸ hcalled).arrange _ hturns (by decide) hjob
    · exact h
  · exact h

/-! Startup -/

theorem giveUpBoot (h : Moves p s s') (hjob : ∀ outcome, p.job (.started t outcome))
    (hnotice : ∀ n, Notice.isOnCheck n = false → p.notice n) (fault : Fault α) :
    Moves p s (s'.giveUpBoot t fault) := by
  unfold Deployment.giveUpBoot
  split
  · exact (h.note (hnotice _ rfl)).post (Nat.zero_le _) (hjob _)
  · exact h.post (Nat.zero_le _) (hjob _)

theorem bootRedis (h : Moves p s s') {store : RedisStore α}
    (hstore : s'.stores[i]? = some (.redis store)) (hlink : p.link i) (ht : p.task t)
    (hown : ∀ job : Job α, job.IsOfBoot t → p.job job)
    (hnotice : ∀ n, Notice.isOnCheck n = false → p.notice n)
    (hopen : store.owned = true → store.attempt = none → s'.linkStatus store.client = .waiting →
      p.call .connect ∧ ∀ outcome status, p.job (.linkSettled i outcome status)) :
    Moves p s (s'.bootRedis t i store) := by
  unfold Deployment.bootRedis
  have hlinked := h.connectFor hstore hlink ht (hown (.answer t (.ok none)) rfl) hopen
  split
  · next hc => exact (hc ▸ hlinked).giveUpBoot (fun _ => hown _ rfl) hnotice _
  · next hc => exact (hc ▸ hlinked).startWait ht (hown _ rfl) _ _ _

theorem boot (h : Moves p s s') (hlink : p.link i) (ht : p.task t) (hfinish : p.finish t)
    (hown : ∀ job : Job α, job.IsOfBoot t → p.job job)
    (hnotice : ∀ n, Notice.isOnCheck n = false → p.notice n) (hstart : p.call .storeStart)
    (hopen : ∀ store, s'.stores[i]? = some (.redis store) → store.owned = true →
      store.attempt = none → s'.linkStatus store.client = .waiting →
      p.call .connect ∧ ∀ outcome status, p.job (.linkSettled i outcome status))
    (failed : Fault α → Settlement α) : Moves p s (s'.boot t i failed) := by
  unfold Deployment.boot
  split
  · exact h.post (Nat.zero_le _) (hown _ rfl)
  · next store hstore =>
    exact h.bootRedis hstore hlink ht hown hnotice (hopen store hstore)
  · dsimp only
    split
    · exact (h.record hstart).settle ht hfinish _
    · exact (h.record hstart).arrange _ (Nat.zero_le _) (Nat.zero_le _) fun _ => hown _ rfl
  · exact h

theorem bootLinked (h : Moves p s s') (ht : p.task t)
    (hown : ∀ job : Job α, job.IsOfBoot t → p.job job)
    (hnotice : ∀ n, Notice.isOnCheck n = false → p.notice n) (hping : p.call .ping)
    (store : RedisStore α) (outcome : Outcome α) : Moves p s (s'.bootLinked t store outcome) := by
  cases outcome with
  | error fault => exact h.giveUpBoot (fun _ => hown _ rfl) hnotice fault
  | ok answer =>
    unfold Deployment.bootLinked
    have hcalled := h.callClient store.client .ping hping
    dsimp only
    split
    · next hc => exact (hc ▸ hcalled).giveUpBoot (fun _ => hown _ rfl) hnotice _
    · next hc =>
      exact ((hc ▸ hcalled).arrange _ (Nat.zero_le _) (Nat.zero_le _) fun _ =>
        hown (.answer t _) rfl).startWait ht (hown _ rfl) _ _ _

theorem bootAnswered (h : Moves p s s') (hjob : ∀ outcome, p.job (.started t outcome))
    (hnotice : ∀ n, Notice.isOnCheck n = false → p.notice n) (store : RedisStore α)
    (outcome : Outcome α) : Moves p s (s'.bootAnswered t store outcome) := by
  cases outcome with
  | error fault => exact h.giveUpBoot hjob hnotice fault
  | ok answer =>
    unfold Deployment.bootAnswered
    dsimp only
    split
    · exact (h.note (hnotice _ rfl)).post (Nat.zero_le _) (hjob _)
    · exact h.giveUpBoot hjob hnotice _

omit [Textual α] in
theorem registerSweep (h : Moves p s s') (ht : p.task t) (hfinish : p.finish t)
    (hregular : p.regular) (hnotice : ∀ n, Notice.isOnCheck n = false → p.notice n)
    {l : LimiterId} {limiter : Limiter α} (hlimiter : s'.limiters[l]? = some limiter) :
    Moves p s (s'.registerSweep t l limiter) := by
  let name := sweepName (s'.intervalCount + 1)
  have hset := (h.tail (.countIntervals (s'.intervalCount + 1)) hregular).setTimer
    limiter.config.sweepInterval (.sweep l name limiter.config.sweepInterval) hregular
  unfold Deployment.registerSweep
  dsimp only
  split
  · exact hset.settle ht hfinish _
  · have hregistered :=
      (hset.tail (.register name) hregular).setInterval hregular hlimiter (some name)
    exact (hregistered.note (hnotice (.sweeping _) rfl)).settle ht hfinish _

omit [Textual α] in
theorem limiterReady (h : Moves p s s') (ht : p.task t) (hfinish : p.finish t)
    (hregular : p.regular) (hnotice : ∀ n, Notice.isOnCheck n = false → p.notice n)
    {l : LimiterId} {limiter : Limiter α} (hlimiter : s'.limiters[l]? = some limiter)
    (store : Store α) :
    Moves p s (s'.limiterReady t l limiter store) := by
  unfold Deployment.limiterReady
  have hnoted := h.note (hnotice (.ready limiter.config.limit.rate limiter.config.limit.capacity
    store.backend) rfl)
  dsimp only
  split
  · exact hnoted.registerSweep ht hfinish hregular hnotice hlimiter
  · exact hnoted.settle ht hfinish _

omit [Textual α] in
theorem started (h : Moves p s s') (ht : p.task t) (hfinish : p.finish t) (hregular : p.regular)
    (hnotice : ∀ n, Notice.isOnCheck n = false → p.notice n) (outcome : Outcome α) :
    Moves p s (s'.started t outcome) := by
  unfold Deployment.started
  split
  · exact h.settle ht hfinish _
  · split
    · next hlimiter =>
      split
      · exact h.limiterReady ht hfinish hregular hnotice hlimiter _
      · exact h.settle ht hfinish _
    · exact h.settle ht hfinish _
  · exact h.settle ht hfinish _

/-! Sweeping and shutdown -/

theorem sweepStore (h : Moves p s s') (hnotice : ∀ n, Notice.isOnCheck n = false → p.notice n)
    (hcall : ∀ now, p.call (.storeSweep now)) (i : StoreId) (now : Option (Value α)) :
    Moves p s (s'.sweepStore i now).2 := by
  unfold Deployment.sweepStore
  split
  · next store hstore =>
    have hfilled := h.fill hstore (.memory (store.attemptSweep ⟨now⟩).2)
      (.memory _ _ (store.options_attemptSweep _))
    cases hswept : store.attemptSweep ⟨now⟩ with
    | mk removed swept =>
      rw [hswept] at hfilled
      cases removed with
      | none => exact hfilled.tail (.raise .wordless) trivial
      | some n =>
        dsimp only
        split
        · exact hfilled
        · exact hfilled.note (hnotice _ rfl)
  · next script hstore =>
    split
    · exact h
    · next counts hsweep =>
      exact (h.fill hstore _ (.scripted script _ _ (by simp [hsweep]))).record (hcall now)
  · exact h

theorem sweep (h : Moves p s s') (hnotice : ∀ n, Notice.isOnCheck n = false → p.notice n)
    (hcall : ∀ now, p.call (.storeSweep now)) (l : LimiterId) (now : Option (Value α)) :
    Moves p s (s'.sweep l now).2 := by
  unfold Deployment.sweep
  split
  · exact h.sweepStore hnotice hcall _ now
  · exact h

omit [Textual α] in
theorem cancelSweep (h : Moves p s s') (hregular : p.regular) (l : LimiterId) :
    Moves p s (s'.cancelSweep l) := by
  unfold Deployment.cancelSweep
  split
  · next limiter hlimiter =>
    split
    · next name _ =>
      exact (h.tail (.removeInterval name) hregular).setInterval hregular hlimiter none
    · exact h
  · exact h

omit [Textual α] in
theorem removeIntervals (h : Moves p s s') (hregular : p.regular) :
    Moves p s s'.removeIntervals := by
  have hremoved : ∀ (names : List String) {s' : Deployment α}, Moves p s s' →
      Moves p s (names.foldl Deployment.removeInterval s') := by
    intro names
    induction names with
    | nil => exact fun h => h
    | cons name names ih => exact fun h => ih (h.tail (.removeInterval name) hregular)
  exact hremoved _ h

omit [Textual α] in
theorem finishClose (h : Moves p s s') (ht : p.task t) (hfinish : p.finish t) (closer : Closer)
    (hregular : closer = .application → p.regular) (answer : Option (Value α)) :
    Moves p s (s'.finishClose t closer answer) := by
  cases closer with
  | store => exact h.settle ht hfinish _
  | limiter => exact h.settle ht hfinish _
  | application => exact (h.removeIntervals (hregular rfl)).settle ht hfinish _

theorem disconnect (h : Moves p s s') (ht : p.task t) (hfinish : p.finish t)
    (hnotice : ∀ n, Notice.isOnCheck n = false → p.notice n) (hcall : p.call .disconnect)
    (closer : Closer) (hregular : closer = .application → p.regular) (fault : Fault α) :
    Moves p s (s'.disconnect t closer fault) := by
  unfold Deployment.disconnect
  split
  · exact ((h.note (hnotice _ rfl)).record hcall).finishClose ht hfinish closer hregular none
  · exact h.settle ht hfinish _

/-- Closing a store in Redis asks nothing of a client that was supplied. -/
theorem close (h : Moves p s s') (ht : p.task t) (hfinish : p.finish t)
    (hjob : ∀ outcome, (∀ store, s'.stores[i]? = some (.redis store) → store.owned = false →
      outcome = .ok none) → p.job (.closed t outcome))
    (hnotice : ∀ n, Notice.isOnCheck n = false → p.notice n) (hclose : p.call .storeClose)
    (hcall : ∀ store, s'.stores[i]? = some (.redis store) → store.owned = true →
      p.call .quit ∧ p.call .disconnect)
    (closer : Closer) (hregular : closer = .application → p.regular) :
    Moves p s (s'.close t i closer) := by
  unfold Deployment.close
  split
  · next store hstore =>
    exact (h.fill hstore _ (.memory store store.clear rfl)).post (Nat.zero_le _)
      (hjob _ fun _ _ _ => rfl)
  · next store hstore =>
    split
    · next howned =>
      obtain ⟨hquit, hdisconnect⟩ := hcall store hstore howned
      have hcalled := h.callClient store.client .quit hquit
      have hany : ∀ outcome, p.job (.closed t outcome) := by
        intro outcome
        refine hjob outcome fun other hother hsupplied => ?_
        rw [hstore] at hother
        cases hother
        rw [howned] at hsupplied
        cases hsupplied
      split
      · next hc => exact (hc ▸ hcalled).disconnect ht hfinish hnotice hdisconnect closer hregular _
      · next hc => exact (hc ▸ hcalled).arrange _ (Nat.zero_le _) (Nat.zero_le _) hany
    · exact h.post (Nat.zero_le _) (hjob _ fun _ _ _ => rfl)
  · next script hstore =>
    have hany : ∀ outcome, p.job (.closed t outcome) := by
      intro outcome
      refine hjob outcome fun other hother _ => ?_
      rw [hstore] at hother
      cases hother
    dsimp only
    split
    · exact (h.record hclose).settle ht hfinish _
    · exact (h.record hclose).arrange _ (Nat.zero_le _) (Nat.zero_le _) hany
  · exact h

theorem closed (h : Moves p s s') (ht : p.task t) (hfinish : p.finish t)
    (hnotice : ∀ n, Notice.isOnCheck n = false → p.notice n) (outcome : Outcome α)
    (hcall : ∀ fault, outcome = .error fault → p.call .disconnect)
    (hregular : s'.tasks[t]?.map Task.purpose = some (.close .application) → p.regular) :
    Moves p s (s'.closed t outcome) := by
  unfold Deployment.closed
  split
  · next i closer progress htask =>
    have hcloser : closer = .application → p.regular := by
      rintro rfl
      exact hregular (by rw [htask]; rfl)
    split
    · exact h.finishClose ht hfinish _ hcloser _
    · exact h.disconnect ht hfinish hnotice (hcall _ rfl) _ hcloser _
    · exact h.finishClose ht hfinish _ hcloser _
    · exact h.settle ht hfinish _
  · exact h

end Moves

end Deployment

end Admission
