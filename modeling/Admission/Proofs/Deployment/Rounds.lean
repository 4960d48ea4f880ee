import Admission.Proofs.Deployment.Share

/-!
Operations are courses of events, and all ready work gets its turn.

A round goes through a copy of the agenda while new work gathers behind it. No piece of work looks
at the agenda, so a round is the same as giving the first piece of work its turn, again and again.
Each turn brings a chain of work closer to its end, and no chain is longer than the rounds allotted:
a deployment that has let its work take its turns has none left.
-/
namespace Admission.Deployment

variable {α : Type}

/-- The same deployment with other work to be done first. -/
def behind (s : Deployment α) (first : List (Nat × Job α)) : Deployment α :=
  { s with agenda := first ++ s.agenda }

section

variable (s : Deployment α) (first : List (Nat × Job α))

@[simp] theorem tasks_behind : (s.behind first).tasks = s.tasks := rfl

@[simp] theorem stores_behind : (s.behind first).stores = s.stores := rfl

@[simp] theorem clients_behind : (s.behind first).clients = s.clients := rfl

@[simp] theorem limiters_behind : (s.behind first).limiters = s.limiters := rfl

theorem behind_post (turns : Nat) (job : Job α) :
    (s.behind first).post turns job = (s.post turns job).behind first := by
  simp [behind, post]

theorem behind_leaveWait (t : TaskId) (stage : Stage) (outcome : Outcome α) :
    (s.behind first).leaveWait t stage outcome = (s.leaveWait t stage outcome).behind first :=
  behind_post (s.setProgress t (.leaving stage outcome)) first 0 (.resume t)

theorem behind_endWait (t : TaskId) (outcome? : Option (Outcome α)) :
    (s.behind first).endWait t outcome? = (s.endWait t outcome?).behind first := by
  unfold endWait
  simp only [tasks_behind, behind_leaveWait]
  split <;> rfl

theorem behind_foldl {β : Type} {f : Deployment α → β → Deployment α}
    (hf : ∀ s x, f (behind s first) x = (f s x).behind first) (l : List β) :
    l.foldl f (s.behind first) = (l.foldl f s).behind first := by
  induction l generalizing s with
  | nil => rfl
  | cons x l ih => rw [List.foldl_cons, List.foldl_cons, hf, ih]

theorem behind_wake (outcome : Outcome α) (t : TaskId) :
    wake outcome (s.behind first) t = (wake outcome s t).behind first := by
  unfold wake
  simp only [tasks_behind, behind_post]
  split <;> rfl

theorem behind_linkSettled (i : StoreId) (outcome : Outcome α) (status : LinkStatus) :
    (s.behind first).linkSettled i outcome status =
      (s.linkSettled i outcome status).behind first := by
  unfold linkSettled
  simp only [stores_behind]
  split
  · next store _ =>
    exact behind_foldl
      ((s.setLinkStatus store.client status).setStore i (.redis { store with attempt := none }))
      first (fun s t => behind_wake s first outcome t) _
  · rfl

theorem behind_removeIntervals :
    (s.behind first).removeIntervals = s.removeIntervals.behind first :=
  behind_foldl s first (fun _ _ => rfl) s.intervals

theorem behind_finishClose (t : TaskId) (closer : Closer) (answer : Option (Value α)) :
    (s.behind first).finishClose t closer answer =
      (s.finishClose t closer answer).behind first := by
  cases closer with
  | application => exact congrArg (settle · t .done) (behind_removeIntervals s first)
  | _ => rfl

variable [Scalar α]

theorem behind_arrange (reply : Reply α) (turnsNow turnsLater : Nat) (job : Outcome α → Job α) :
    (s.behind first).arrange reply turnsNow turnsLater job =
      (s.arrange reply turnsNow turnsLater job).behind first := by
  unfold arrange
  simp only [behind_post]
  split <;> rfl

theorem behind_registerSweep (t : TaskId) (l : LimiterId) (limiter : Limiter α) :
    (s.behind first).registerSweep t l limiter = (s.registerSweep t l limiter).behind first := by
  cases hused : s.intervals.contains (sweepName (s.intervalCount + 1)) <;>
    simp only [registerSweep, setTimer, behind, hused, if_true, Bool.false_eq_true, if_false] <;>
    rfl

theorem behind_limiterReady (t : TaskId) (l : LimiterId) (limiter : Limiter α) (store : Store α) :
    (s.behind first).limiterReady t l limiter store =
      (s.limiterReady t l limiter store).behind first := by
  let limit := limiter.config.limit
  unfold limiterReady
  dsimp only
  split
  · exact behind_registerSweep (s.note (.ready limit.rate limit.capacity store.backend)) first t _ _
  · rfl

theorem behind_started (t : TaskId) (outcome : Outcome α) :
    (s.behind first).started t outcome = (s.started t outcome).behind first := by
  unfold started
  simp only [tasks_behind, limiters_behind, stores_behind]
  split
  · rfl
  · split
    · split
      · exact behind_limiterReady s first t _ _ _
      · rfl
    · rfl
  · rfl

variable [Textual α]

theorem behind_startWait (t : TaskId) (stage : Stage) (milliseconds : Option (Value α))
    (signal : Option SignalId) :
    (s.behind first).startWait t stage milliseconds signal =
      (s.startWait t stage milliseconds signal).behind first := by
  unfold startWait
  simp only [behind_leaveWait]
  split
  · rfl
  · cases signal <;> rfl

theorem behind_callClient (i : ClientId) (call : ClientCall α) :
    (s.behind first).callClient i call =
      ((s.callClient i call).1, (s.callClient i call).2.behind first) := by
  unfold callClient
  simp only [clients_behind]
  split
  · rfl
  · cases call with
    | eval evaluation =>
      simp only [evalHere]
      split
      · rfl
      · dsimp only [behind]
        split <;> rfl
    | _ => rfl
  · rfl
  · rfl

omit [Scalar α] in
theorem behind_giveUpBoot (t : TaskId) (fault : Fault α) :
    (s.behind first).giveUpBoot t fault = (s.giveUpBoot t fault).behind first := by
  unfold giveUpBoot
  split
  · next message _ => exact behind_post (s.note (.unreachable message)) first 0 _
  · exact behind_post s first 0 _

theorem behind_bootLinked (t : TaskId) (store : RedisStore α) (outcome : Outcome α) :
    (s.behind first).bootLinked t store outcome = (s.bootLinked t store outcome).behind first := by
  cases outcome with
  | error fault => exact behind_giveUpBoot s first t fault
  | ok answer =>
    simp only [bootLinked, behind_callClient]
    obtain ⟨reply, s'⟩ := s.callClient store.client .ping
    cases reply <;> simp only [behind_giveUpBoot, behind_arrange, behind_startWait]

omit [Scalar α] in
theorem behind_bootAnswered (t : TaskId) (store : RedisStore α) (outcome : Outcome α) :
    (s.behind first).bootAnswered t store outcome =
      (s.bootAnswered t store outcome).behind first := by
  cases outcome with
  | error fault => exact behind_giveUpBoot s first t fault
  | ok answer =>
    unfold bootAnswered
    dsimp only
    split
    · next keyLead _ => exact behind_post (s.note (.linked keyLead)) first 0 _
    · exact behind_giveUpBoot s first t _

theorem behind_resume (t : TaskId) : (s.behind first).resume t = (s.resume t).behind first := by
  unfold resume
  simp only [tasks_behind, stores_behind, behind_post, behind_bootLinked, behind_bootAnswered]
  split
  · split <;> rfl
  · rfl

theorem behind_evaluate (t : TaskId) :
    (s.behind first).evaluate t = (s.evaluate t).behind first := by
  unfold evaluate
  simp only [tasks_behind, stores_behind, behind_callClient, behind_post]
  split
  · split
    · next store _ =>
      split
      · rfl
      · next evaluation _ =>
        obtain ⟨reply, s'⟩ := s.callClient store.client (.eval evaluation)
        cases reply <;> simp only [behind_post, behind_arrange]
    · rfl
  · rfl

omit [Scalar α] in
theorem behind_answer (t : TaskId) (outcome : Outcome α) :
    (s.behind first).answer t outcome = (s.answer t outcome).behind first := by
  cases outcome <;> exact behind_endWait s first t _

theorem behind_judge (l : LimiterId) (key : Key) (verdict : Except (Fault α) Bool) :
    (s.behind first).judge l key verdict =
      ((s.judge l key verdict).1, (s.judge l key verdict).2.behind first) := by
  unfold judge
  simp only [limiters_behind]
  split
  · rfl
  · split <;> rfl

theorem behind_conclude (t : TaskId) (verdict : Except (Fault α) Bool) :
    (s.behind first).conclude t verdict = (s.conclude t verdict).behind first := by
  unfold conclude
  simp only [tasks_behind, behind_judge]
  split
  · next c _ =>
    cases c.origin with
    | store => cases verdict <;> rfl
    | limiter l =>
      dsimp only
      obtain ⟨_ | _, s'⟩ := s.judge l c.bucket verdict <;> rfl
    | middleware l =>
      dsimp only
      obtain ⟨_ | _ | _, s'⟩ := s.judge l c.bucket verdict <;> rfl
    | guard l =>
      dsimp only
      obtain ⟨_ | _ | _, s'⟩ := s.judge l c.bucket verdict <;> rfl
  · rfl

omit [Scalar α] in
theorem behind_disconnect (t : TaskId) (closer : Closer) (fault : Fault α) :
    (s.behind first).disconnect t closer fault = (s.disconnect t closer fault).behind first := by
  unfold disconnect
  split
  · next message _ =>
    exact behind_finishClose ((s.note (.quitFailed message)).record .disconnect) first t closer none
  · rfl

omit [Scalar α] in
theorem behind_closed (t : TaskId) (outcome : Outcome α) :
    (s.behind first).closed t outcome = (s.closed t outcome).behind first := by
  unfold closed
  simp only [tasks_behind, stores_behind, behind_finishClose, behind_disconnect]
  split
  · split <;> rfl
  · rfl

/-- What a piece of work does does not depend on the work that is to be done before. -/
theorem behind_turn (entry : Nat × Job α) :
    (s.behind first).turn entry = (s.turn entry).behind first := by
  obtain ⟨_ | turns, job⟩ := entry
  · cases job with
    | evaluate t => exact behind_evaluate s first t
    | answer t outcome => exact behind_answer s first t outcome
    | resume t => exact behind_resume s first t
    | conclude t verdict => exact behind_conclude s first t verdict
    | linkSettled i outcome status => exact behind_linkSettled s first i outcome status
    | started t outcome => exact behind_started s first t outcome
    | closed t outcome => exact behind_closed s first t outcome
  · exact behind_post s first turns job

end

section

variable [Scalar α] [Textual α]

/-! Operations as courses of events -/

theorem happen_work_behind (s : Deployment α) (entry : Nat × Job α) (rest : List (Nat × Job α)) :
    (s.behind (entry :: rest)).happen (.work 0) = (s.turn entry).behind rest :=
  behind_turn s rest entry

/-- Giving several pieces of work their turns in order is a course. -/
theorem after_behind (entries : List (Nat × Job α)) (s : Deployment α) :
    (s.behind entries).after (List.replicate entries.length (.work 0)) = entries.foldl turn s := by
  induction entries generalizing s with
  | nil => rfl
  | cons entry rest ih =>
    rw [List.length_cons, List.replicate_succ, after_cons, happen_work_behind, ih, List.foldl_cons]

theorem round_eq_after (s : Deployment α) :
    s.round = s.after (List.replicate s.agenda.length (.work 0)) := by
  have hs : { s with agenda := [] }.behind s.agenda = s := by simp [behind]
  have hround := after_behind s.agenda { s with agenda := [] }
  rw [hs] at hround
  exact hround.symm

theorem exists_after_rounds (n : Nat) (s : Deployment α) :
    ∃ turns, rounds n s = s.after (List.replicate turns (.work 0)) := by
  induction n generalizing s with
  | zero => exact ⟨0, rfl⟩
  | succ n ih =>
    unfold rounds
    split
    · exact ⟨0, rfl⟩
    · obtain ⟨turns, hturns⟩ := ih s.round
      refine ⟨s.agenda.length + turns, ?_⟩
      rw [hturns, round_eq_after, List.replicate_add, after_append]

/-- Letting all work take its turns is a course in which nothing else happens. -/
theorem exists_after_drain (s : Deployment α) :
    ∃ turns, s.drain = s.after (List.replicate turns (.work 0)) := exists_after_rounds _ s

omit [Textual α] in
theorem earliest_eq_none_iff {timers : List (Timer α)} : earliest timers = none ↔ timers = [] := by
  cases timers with
  | nil => exact ⟨fun _ => rfl, fun _ => rfl⟩
  | cons first timers =>
    simp only [earliest]
    split
    · simp
    · split <;> simp

omit [Textual α] in
/-- The timer that falls due first is the first of the list, unless a later one is due before. -/
theorem earliest_cons_cases {first timer : Timer α} {timers rest : List (Timer α)}
    (h : earliest (first :: timers) = some (timer, rest)) :
    (timer = first ∧ rest = timers ∧
      ∀ best others, earliest timers = some (best, others) → ¬best.due < first.due) ∨
    ∃ others, earliest timers = some (timer, others) ∧ timer.due < first.due ∧
      rest = first :: others := by
  simp only [earliest] at h
  split at h
  · next hnone =>
    cases h
    exact Or.inl ⟨rfl, rfl, by simp [hnone]⟩
  · next best others hbest =>
    split at h
    · next hlt =>
      cases h
      exact Or.inr ⟨others, hbest, hlt, rfl⟩
    · next hnot =>
      cases h
      refine Or.inl ⟨rfl, rfl, fun other later hother => ?_⟩
      obtain rfl : best = other := (Prod.mk.inj (Option.some.inj (hbest.symm.trans hother))).1
      exact hnot

omit [Textual α] in
theorem exists_getElem?_of_earliest {timers rest : List (Timer α)} {timer : Timer α}
    (h : earliest timers = some (timer, rest)) :
    ∃ n, timers[n]? = some timer ∧ rest = timers.eraseIdx n := by
  induction timers generalizing timer rest with
  | nil => cases h
  | cons first timers ih =>
    obtain ⟨rfl, rfl, -⟩ | ⟨others, hothers, -, rfl⟩ := earliest_cons_cases h
    · exact ⟨0, rfl, rfl⟩
    · obtain ⟨n, htimer, rfl⟩ := ih hothers
      exact ⟨n + 1, htimer, rfl⟩

theorem exists_after_fireUntil (target : α) (n : Nat) (s : Deployment α) :
    ∃ events, fireUntil target n s = s.after events := by
  induction n generalizing s with
  | zero => exact ⟨[], rfl⟩
  | succ n ih =>
    unfold fireUntil
    split
    · exact ⟨[], rfl⟩
    · next timer timers hdue =>
      obtain ⟨k, htimer, rfl⟩ := exists_getElem?_of_earliest (Option.filter_eq_some_iff.mp hdue).1
      let clock := if s.clock < timer.due then timer.due else s.clock
      have hfires : { s with timers := s.timers.eraseIdx k, clock }.fire timer.alarm =
          s.after [.tick clock, .alarm k] := by
        simp only [after_cons, after_nil, happen, htimer]
      obtain ⟨turns, hturns⟩ := exists_after_drain (s.after [.tick clock, .alarm k])
      obtain ⟨events, hevents⟩ := ih (s.after [.tick clock, .alarm k]).drain
      refine ⟨[.tick clock, .alarm k] ++ List.replicate turns (.work 0) ++ events, ?_⟩
      rw [after_append, after_append, ← hturns, ← hevents, ← hfires]

/-- Every operation is a course of events. -/
theorem exists_after_perform (s : Deployment α) (operation : Operation α) :
    ∃ events, s.perform operation = s.after events := by
  have hdrained : ∀ (s' : Deployment α) events, s' = s.after events →
      ∃ events, s'.drain = s.after events := by
    rintro _ events rfl
    obtain ⟨turns, hturns⟩ := exists_after_drain (s.after events)
    exact ⟨events ++ List.replicate turns (.work 0), by rw [hturns, after_append]⟩
  cases operation with
  | start calls =>
    refine hdrained _ (calls.map .start) ?_
    rw [after, List.foldl_map]
    rfl
  | advance milliseconds =>
    obtain ⟨events, hevents⟩ := exists_after_fireUntil (s.clock + milliseconds)
      (s.firings (s.clock + milliseconds)) s
    refine ⟨events ++ [.tick (s.clock + milliseconds)], ?_⟩
    rw [after_append, ← hevents]
    rfl
  | abort signal => exact hdrained _ [.abort signal] rfl
  | hangUp t => exact hdrained _ [.hangUp t] rfl
  | linkFault i message => exact ⟨[.linkFault i message], rfl⟩
  | sweep l now => exact ⟨[.sweep l (s.timeOr now)], rfl⟩

end

/-! Chains of work -/

/-- Whether a task waits for its connection at startup, or has just done so. -/
def isLinking (s : Deployment α) (t : TaskId) : Bool :=
  match s.tasks[t]?.map Task.progress with
  | some (.waiting .link) | some (.leaving .link _) => true
  | _ => false

/-- More turns than a chain of work that begins with a job can still take. -/
def cost (s : Deployment α) : Job α → Nat
  | .conclude .. | .started .. | .closed .. => 1
  | .resume t => if s.isLinking t then 4 else 2
  | .answer t _ => if s.isLinking t then 5 else 3
  | .evaluate _ => 8
  | .linkSettled .. => 12

/-- No chain of work that is ready takes more turns than so many. -/
def Bounded (s : Deployment α) (n : Nat) : Prop :=
  ∀ entry ∈ s.agenda, entry.1 + s.cost entry.2 ≤ n

section

variable [Scalar α]

omit [Scalar α] in
theorem isLinking_congr {s s' : Deployment α} {t : TaskId} (h : s'.tasks[t]? = s.tasks[t]?) :
    s'.isLinking t = s.isLinking t := by
  simp only [isLinking, h]

omit [Scalar α] in
theorem isLinking_setProgress_other {s : Deployment α} {t u : TaskId} (hne : u ≠ t)
    (progress : Progress α) : (s.setProgress u progress).isLinking t = s.isLinking t :=
  isLinking_congr (by simp [setProgress, hne])

theorem Move.isLinking_apply (m : Move α) {p : Scope α} (hm : m.Within p) {s : Deployment α}
    {t : TaskId} (ht : ¬p.task t) (h : (m.apply s).isLinking t = true) : s.isLinking t = true := by
  have hne : ∀ {u}, p.task u → u ≠ t := fun hu h => ht (h ▸ hu)
  cases m with
  | setProgress u progress => rwa [← isLinking_setProgress_other (hne hm) progress]
  | settle u settlement => rwa [← isLinking_setProgress_other (hne hm.1) .ended]
  | newTask store purpose =>
    simp only [isLinking, Move.apply, Deployment.newTask] at h ⊢
    rcases Nat.lt_trichotomy t s.tasks.length with hlt | rfl | hgt
    · rwa [List.getElem?_append_left hlt] at h
    · simp at h
    · rw [List.getElem?_append_right (Nat.le_of_lt hgt),
        List.getElem?_eq_none (Nat.succ_le_of_lt (Nat.sub_pos_of_lt hgt))] at h
      cases h
  | fill | join | unlink | consume | setInterval =>
    simp only [Move.apply] at h
    split at h <;> exact h
  | _ => exact h

theorem Moves.isLinking {p : Scope α} {s s' : Deployment α} (h : Moves p s s') {t : TaskId}
    (ht : ¬p.task t) (hlinking : s'.isLinking t = true) : s.isLinking t = true := by
  induction h with
  | refl => exact hlinking
  | tail m _ hm ih => exact ih (m.isLinking_apply hm ht hlinking)

omit [Scalar α] in
theorem isLinking_setProgress_self {s : Deployment α} {t : TaskId} {progress : Progress α}
    (hwaiting : progress ≠ .waiting .link)
    (hleaving : ∀ outcome, progress ≠ .leaving .link outcome) :
    (s.setProgress t progress).isLinking t = false := by
  simp only [isLinking, setProgress, List.getElem?_modify_eq]
  cases s.tasks[t]? with
  | none => rfl
  | some task => cases progress <;> simp_all

omit [Scalar α] in
theorem isLinking_settle (s : Deployment α) (t : TaskId) (settlement : Settlement α) :
    (s.settle t settlement).isLinking t = false :=
  isLinking_setProgress_self (s := s) nofun nofun

omit [Scalar α] in
theorem isLinking_endWait {s : Deployment α} {t : TaskId} {outcome? : Option (Outcome α)}
    (h : (s.endWait t outcome?).isLinking t = true) : s.isLinking t = true := by
  unfold endWait at h
  split at h
  · next stage outcome hwaiting =>
    cases stage with
    | link => simp only [isLinking, hwaiting]
    | _ =>
      exact absurd h (Bool.eq_false_iff.mp (isLinking_setProgress_self (s := s) nofun nofun))
  · exact absurd h (Bool.eq_false_iff.mp (isLinking_setProgress_self (s := s) nofun nofun))
  · exact h

variable [Textual α]

theorem conclude_of_isLinking {s : Deployment α} {t : TaskId} {verdict : Except (Fault α) Bool}
    (h : (s.conclude t verdict).isLinking t = true) : s.conclude t verdict = s := by
  unfold conclude at h ⊢
  split at h
  · split at h
    all_goals
      split at h <;> exact absurd h (Bool.eq_false_iff.mp (isLinking_settle _ _ _))
  · rfl

omit [Textual α] in
theorem isLinking_started (s : Deployment α) (t : TaskId) (outcome : Outcome α) :
    (s.started t outcome).isLinking t = false := by
  have hsettled : ∀ (s' : Deployment α) x, (s'.settle t x).isLinking t = false :=
    fun s' x => isLinking_settle s' t x
  unfold started
  split
  · exact hsettled _ _
  · split
    · split
      · unfold limiterReady registerSweep
        dsimp only
        split
        · split <;> exact hsettled _ _
        · exact hsettled _ _
      · exact hsettled _ _
    · exact hsettled _ _
  · exact hsettled _ _

omit [Scalar α] in
theorem closed_of_isLinking {s : Deployment α} {t : TaskId} {outcome : Outcome α}
    (h : (s.closed t outcome).isLinking t = true) : s.closed t outcome = s := by
  have hfinished : ∀ (s' : Deployment α) closer answer,
      (s'.finishClose t closer answer).isLinking t = false := by
    intro s' closer answer
    cases closer <;> exact isLinking_settle _ t _
  have hcut : ∀ closer fault, (s.disconnect t closer fault).isLinking t = false := by
    intro closer fault
    unfold disconnect
    split
    · exact hfinished _ _ _
    · exact isLinking_settle _ t _
  unfold closed at h ⊢
  split at h
  · split at h
    · exact absurd h (Bool.eq_false_iff.mp (hfinished _ _ _))
    · exact absurd h (Bool.eq_false_iff.mp (hcut _ _))
    · exact absurd h (Bool.eq_false_iff.mp (hfinished _ _ _))
    · exact absurd h (Bool.eq_false_iff.mp (isLinking_settle _ t _))
  · rfl

theorem isLinking_startWait (s : Deployment α) (t : TaskId) {stage : Stage} (hstage : stage ≠ .link)
    (milliseconds : Option (Value α)) (signal : Option SignalId) :
    (s.startWait t stage milliseconds signal).isLinking t = false := by
  have hwaiting : (s.setProgress t (.waiting stage)).isLinking t = false :=
    isLinking_setProgress_self (fun h => hstage (by cases h; rfl)) nofun
  have hleaving : ∀ outcome, (s.setProgress t (.leaving stage outcome)).isLinking t = false :=
    fun outcome => isLinking_setProgress_self nofun fun _ h => hstage (by cases h; rfl)
  unfold startWait
  split
  · exact hleaving _
  · cases signal <;> exact hwaiting

/-- What a task that goes on may do as long as it does not wait again. -/
def endScope (t : TaskId) : Scope α where
  job job := (∃ outcome, job = .started t outcome) ∨ ∃ verdict, job = .conclude t verdict
  notice _ := True

theorem Moves.giveUp {s s' : Deployment α} {t : TaskId} {p : Scope α} (h : Moves p s s')
    (hjob : ∀ job, (endScope t).job job → p.job job) (hnotice : ∀ n, p.notice n) (fault : Fault α) :
    Moves p s (s'.giveUpBoot t fault) :=
  h.giveUpBoot (fun _ => hjob _ (Or.inl ⟨_, rfl⟩)) (fun n _ => hnotice n) fault

/-- A task that goes on after its wait comes to its end, unless its connection stands. -/
theorem resume_moves_end {s : Deployment α} {t : TaskId} (hunlinked : ∀ answer,
    s.tasks[t]?.map Task.progress ≠ some (.leaving .link (.ok answer))) :
    Moves (endScope t) s (s.resume t) := by
  have h := Moves.refl (p := endScope t) s
  unfold resume
  split
  · next i purpose stage outcome htask =>
    split
    · exact h.post (Nat.zero_le _) (Or.inr ⟨_, rfl⟩)
    · cases outcome with
      | error fault => exact h.giveUp (fun _ => id) (fun _ => trivial) fault
      | ok answer => exact absurd (by rw [htask]; rfl) (hunlinked answer)
    · exact h.bootAnswered (fun _ => Or.inl ⟨_, rfl⟩) (fun _ _ => trivial) _ _
    · exact h
  · exact h

/-- A task that goes on after its wait comes to its end, or turns from its connection to its first
command. -/
theorem resume_moves_or (s : Deployment α) (t : TaskId) :
    Moves { endScope t with call := fun _ => True } s (s.resume t) ∨
      s.isLinking t = true ∧ (s.resume t).isLinking t = false := by
  have h := Moves.refl (p := { endScope t with call := fun _ => True }) s
  unfold resume
  split
  · next i purpose stage outcome htask =>
    split
    · exact Or.inl (h.post (Nat.zero_le _) (Or.inr ⟨_, rfl⟩))
    · next store _ =>
      cases outcome with
      | error fault => exact Or.inl (h.giveUp (fun _ => id) (fun _ => trivial) fault)
      | ok answer =>
        unfold bootLinked
        have hcalled := h.callClient store.client .ping trivial
        dsimp only
        split
        · next hc =>
          rw [hc] at hcalled
          exact Or.inl (hcalled.giveUp (fun _ => id) (fun _ => trivial) _)
        · have hlinking : s.isLinking t = true := by simp only [isLinking, htask, Option.map_some]
          exact Or.inr ⟨hlinking,
            isLinking_startWait _ t (fun h : Stage.ping = .link => nomatch h) _ none⟩
    · exact Or.inl (h.bootAnswered (fun _ => Or.inl ⟨_, rfl⟩) (fun _ _ => trivial) _ _)
    · exact Or.inl h
  · exact Or.inl h

/-- No work brings a task back to its connection. -/
theorem isLinking_run {s : Deployment α} {job : Job α} {t : TaskId}
    (h : (s.run job).isLinking t = true) : s.isLinking t = true := by
  have hmoves := s.run_moves job
  by_cases hother : (s.jobScope job).task t
  · cases job with
    | evaluate u => exact hother.elim
    | linkSettled i outcome status => exact hother.elim
    | answer u outcome =>
      obtain rfl : t = u := hother
      cases outcome <;> exact isLinking_endWait h
    | resume u =>
      obtain rfl : t = u := hother
      obtain hends | ⟨hlinking, -⟩ := s.resume_moves_or t
      · exact hends.isLinking id h
      · exact hlinking
    | conclude u verdict =>
      obtain rfl : t = u := hother
      exact conclude_of_isLinking h ▸ h
    | started u outcome =>
      obtain rfl : t = u := hother
      exact absurd h (Bool.eq_false_iff.mp (isLinking_started s t outcome))
    | closed u outcome =>
      obtain rfl : t = u := hother
      exact closed_of_isLinking h ▸ h
  · exact hmoves.isLinking hother h

theorem cost_run_le (s : Deployment α) (job other : Job α) :
    (s.run job).cost other ≤ s.cost other := by
  have hif : ∀ t (a b : Nat), b ≤ a → (if (s.run job).isLinking t then a else b) ≤
      if s.isLinking t then a else b := by
    intro t a b hab
    split
    · next hlinking => rw [isLinking_run hlinking, if_pos rfl]
    · split
      · exact hab
      · exact Nat.le_refl _
  cases other with
  | answer t outcome => exact hif t 5 3 (by decide)
  | resume t => exact hif t 4 2 (by decide)
  | _ => exact Nat.le_refl _

/-- A task that has its turn after a wait comes to its end, or goes on from its connection to the
first command. -/
theorem cost_lt_of_resume {s : Deployment α} {t : TaskId} {more : List (Nat × Job α)}
    (hagenda : (s.run (.resume t)).agenda = s.agenda ++ more) {entry : Nat × Job α}
    (hentry : entry ∈ more) :
    entry.1 + (s.run (.resume t)).cost entry.2 < s.cost (.resume t) := by
  obtain ⟨turns, next⟩ := entry
  obtain hends | ⟨hlinking, hdone⟩ := s.resume_moves_or t
  · obtain ⟨more', hagenda', hmore'⟩ := hends.exists_agenda_eq
    obtain rfl : more = more' := List.append_cancel_left (hagenda.symm.trans hagenda')
    obtain ⟨hturns, ⟨outcome, rfl⟩ | ⟨verdict, rfl⟩⟩ := hmore' _ hentry
    all_goals
      refine Nat.lt_of_le_of_lt (Nat.add_le_add (show turns ≤ 0 from hturns) (Nat.le_refl 1)) ?_
      simp only [cost]
      split <;> decide
  · obtain ⟨more', hagenda', hmore'⟩ := (s.run_moves (.resume t)).exists_agenda_eq
    obtain rfl : more = more' := List.append_cancel_left (hagenda.symm.trans hagenda')
    obtain ⟨hturns, hjob⟩ := hmore' _ hentry
    have hcost : (s.run (.resume t)).cost next ≤ 3 := by
      obtain hboot | ⟨verdict, rfl⟩ := hjob
      · cases next with
        | answer u outcome =>
          obtain rfl : u = t := hboot
          exact Nat.le_of_eq (if_neg (Bool.eq_false_iff.mp hdone))
        | resume u =>
          obtain rfl : u = t := hboot
          exact Nat.le_trans (Nat.le_of_eq (if_neg (Bool.eq_false_iff.mp hdone))) (by decide)
        | started u outcome => exact (show 1 ≤ 3 by decide)
        | _ => exact hboot.elim
      · exact (show 1 ≤ 3 by decide)
    refine Nat.lt_of_le_of_lt (Nat.add_le_add hturns hcost) ?_
    simp only [cost, jobScope, hlinking, if_true]
    decide

/-- Whatever a piece of work leaves behind is closer to its end. -/
theorem exists_agenda_run_eq (s : Deployment α) (job : Job α) :
    ∃ more, (s.run job).agenda = s.agenda ++ more ∧
      ∀ entry ∈ more, entry.1 + (s.run job).cost entry.2 < s.cost job := by
  obtain ⟨more, hagenda, hmore⟩ := (s.run_moves job).exists_agenda_eq
  refine ⟨more, hagenda, fun entry hentry => ?_⟩
  obtain ⟨turns, next⟩ := entry
  obtain ⟨hturns, hjob⟩ := hmore _ hentry
  have hanswer : ∀ t outcome, (s.run job).cost (.answer t outcome) ≤ 5 := by
    intro t outcome
    show (if _ then 5 else 3) ≤ 5
    split <;> decide
  dsimp only at hturns hjob ⊢
  cases job with
  | evaluate t =>
    obtain ⟨outcome, rfl⟩ := hjob
    exact Nat.lt_succ_of_le (Nat.add_le_add hturns (hanswer t outcome))
  | answer t outcome =>
    subst hjob
    refine Nat.lt_of_le_of_lt (Nat.add_le_add hturns (cost_run_le s _ _)) ?_
    simp only [cost, jobScope]
    split <;> decide
  | resume t => exact cost_lt_of_resume hagenda hentry
  | conclude t verdict => exact hjob.elim
  | started t outcome => exact hjob.elim
  | closed t outcome => exact hjob.elim
  | linkSettled i outcome status =>
    obtain ⟨t, -, rfl | ⟨-, rfl⟩⟩ := hjob
    · exact Nat.lt_of_le_of_lt (Nat.add_le_add hturns (hanswer t outcome))
        (show 3 + 5 < 12 by decide)
    · exact Nat.lt_succ_of_le (Nat.add_le_add hturns (Nat.le_refl 8))

theorem cost_turn_le (s : Deployment α) (entry : Nat × Job α) (other : Job α) :
    (s.turn entry).cost other ≤ s.cost other := by
  obtain ⟨_ | turns, job⟩ := entry
  · exact cost_run_le s job other
  · cases other <;> exact Nat.le_refl _

/-- One entry of the agenda has its turn, and no chain that it leads on to is longer than before. -/
theorem Bounded.turn {s : Deployment α} {n : Nat} (h : s.Bounded n) {entry : Nat × Job α}
    (hentry : entry.1 + s.cost entry.2 ≤ n + 1) : (s.turn entry).Bounded n := by
  have hold : ∀ other ∈ s.agenda, other.1 + (s.turn entry).cost other.2 ≤ n := fun other hother =>
    Nat.le_trans (Nat.add_le_add_left (cost_turn_le s entry other.2) _) (h other hother)
  obtain ⟨_ | turns, job⟩ := entry
  · obtain ⟨more, hagenda, hmore⟩ := exists_agenda_run_eq s job
    intro other hother
    rw [Deployment.turn, hagenda] at hother
    rcases List.mem_append.mp hother with hbefore | hnew
    · exact hold other hbefore
    · dsimp only at hentry
      have hcloser := hmore other hnew
      simp only [Deployment.turn]
      omega
  · intro other hother
    rcases List.mem_append.mp hother with hbefore | hnew
    · exact hold other hbefore
    · obtain rfl := List.mem_singleton.mp hnew
      have hcost := cost_turn_le s (turns + 1, job) job
      dsimp only at hentry ⊢
      omega

theorem Bounded.round {s : Deployment α} {n : Nat} (h : s.Bounded (n + 1)) : s.round.Bounded n := by
  have hturns : ∀ (entries : List (Nat × Job α)) (s' : Deployment α),
      (∀ job, s'.cost job ≤ s.cost job) → (∀ entry ∈ entries, entry.1 + s.cost entry.2 ≤ n + 1) →
      s'.Bounded n → (entries.foldl Deployment.turn s').Bounded n := by
    intro entries
    induction entries with
    | nil => exact fun _ _ _ hs' => hs'
    | cons entry entries ih =>
      intro s' hcost hentries hs'
      refine ih _ (fun job => Nat.le_trans (cost_turn_le s' entry job) (hcost job))
        (fun other hother => hentries other (List.mem_cons_of_mem entry hother)) (hs'.turn ?_)
      exact Nat.le_trans (Nat.add_le_add_left (hcost entry.2) _) (hentries entry List.mem_cons_self)
  refine hturns s.agenda _ (fun job => ?_) h (fun _ hentry => by cases hentry)
  cases job <;> exact Nat.le_refl _

omit [Scalar α] [Textual α] in
theorem one_le_cost (s : Deployment α) (job : Job α) : 1 ≤ s.cost job := by
  cases job with
  | answer t outcome =>
    show 1 ≤ if _ then 5 else 3
    split <;> decide
  | resume t =>
    show 1 ≤ if _ then 4 else 2
    split <;> decide
  | conclude => exact Nat.le_refl 1
  | started => exact Nat.le_refl 1
  | closed => exact Nat.le_refl 1
  | evaluate => exact (show 1 ≤ 8 by decide)
  | linkSettled => exact (show 1 ≤ 12 by decide)

theorem Bounded.agenda_rounds {s : Deployment α} {n : Nat} (h : s.Bounded n) :
    (rounds n s).agenda = [] := by
  induction n generalizing s with
  | zero =>
    refine List.eq_nil_iff_forall_not_mem.mpr fun entry hentry => ?_
    exact absurd (Nat.le_trans (one_le_cost s entry.2)
      (Nat.le_trans (Nat.le_add_left _ _) (h entry hentry))) (by decide)
  | succ n ih =>
    unfold rounds
    split
    · next hempty => exact List.isEmpty_iff.mp hempty
    · exact ih h.round

omit [Scalar α] [Textual α] in
theorem Prompt.bounded {s : Deployment α} (h : s.Prompt) : s.Bounded longestChain := by
  intro entry hentry
  have hcost : s.cost entry.2 ≤ 12 := by
    cases entry.2 with
    | answer t outcome =>
      show (if _ then 5 else 3) ≤ 12
      split <;> decide
    | resume t =>
      show (if _ then 4 else 2) ≤ 12
      split <;> decide
    | conclude => exact (show 1 ≤ 12 by decide)
    | started => exact (show 1 ≤ 12 by decide)
    | closed => exact (show 1 ≤ 12 by decide)
    | evaluate => exact (show 8 ≤ 12 by decide)
    | linkSettled => exact Nat.le_refl 12
  exact Nat.le_trans (Nat.add_le_add (h.agenda entry hentry) hcost) (by decide)

/-- The rounds allotted are enough: once all work has taken its turns, none is left. -/
theorem agenda_drain {s : Deployment α} (h : s.Prompt) : s.drain.agenda = [] :=
  h.bounded.agenda_rounds

end

end Admission.Deployment
