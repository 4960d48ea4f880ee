import Admission.Proofs.Deployment.Conclusion

/-!
Every call ends at most once.

A task has one chance to end: it waits, or work is on its way with which it goes on or ends, or it
has ended. Nothing gives a task another chance, so whatever is on its way to a task that has ended,
no further end is.
-/
namespace Admission

variable {α : Type}

/-- Work with which a task goes on after its wait, or ends. -/
def Job.ends (t : TaskId) : Job α → Bool
  | .resume u | .conclude u _ | .started u _ | .closed u _ => u == t
  | _ => false

def Alarm.ends (t : TaskId) : Alarm α → Bool
  | .reply _ job => job.ends t
  | _ => false

theorem Job.ends_of_owner {t : TaskId} {job : Job α} (h : job.owner? ≠ some t) :
    job.ends t = false := by
  cases job <;> simp_all [Job.ends, Job.owner?]

def Progress.isWaiting : Progress α → Bool
  | .waiting _ => true
  | _ => false

namespace Deployment

/-- A task waits under a deadline. -/
def isWaiting (s : Deployment α) (t : TaskId) : Bool :=
  s.tasks[t]?.any fun task => task.progress.isWaiting

/-- How often a task has ended, or will end by work that is on its way. -/
def endings (s : Deployment α) (t : TaskId) : Nat :=
  s.agenda.countP (·.2.ends t) + s.timers.countP (·.alarm.ends t) + s.settled.countP (·.1 == t)

/-- How often a task has ended or may yet end. -/
def chances (s : Deployment α) (t : TaskId) : Nat := (s.isWaiting t).toNat + s.endings t

variable {s : Deployment α} {t u : TaskId}

/-! Single moves -/

theorem chances_post (turns : Nat) (job : Job α) :
    (s.post turns job).chances t = s.chances t + (job.ends t).toNat := by
  have hwaits : (s.post turns job).isWaiting t = s.isWaiting t := rfl
  have hfinishs : (s.post turns job).endings t = s.endings t + (job.ends t).toNat := by
    cases hends : job.ends t <;> simp [endings, post, hends]
    omega
  rw [chances, chances, hwaits, hfinishs, Nat.add_assoc]

theorem chances_setTimer [Scalar α] (delay : α) (alarm : Alarm α) :
    (s.setTimer delay alarm).chances t = s.chances t + (alarm.ends t).toNat := by
  have hwaits : (s.setTimer delay alarm).isWaiting t = s.isWaiting t := rfl
  have hfinishs : (s.setTimer delay alarm).endings t = s.endings t + (alarm.ends t).toNat := by
    cases hends : alarm.ends t <;> simp [endings, setTimer, hends]
    omega
  rw [chances, chances, hwaits, hfinishs, Nat.add_assoc]

theorem isWaiting_setProgress (progress : Progress α) :
    (s.setProgress u progress).isWaiting t =
      if u = t then s.tasks[t]?.isSome && progress.isWaiting else s.isWaiting t := by
  by_cases hu : u = t
  · cases htask : s.tasks[t]? <;> simp [isWaiting, setProgress, hu, htask]
  · simp [isWaiting, setProgress, hu]

/-- A task that is told to wait no longer gives up that chance. -/
theorem chances_setProgress {progress : Progress α} (h : progress.isWaiting = false) :
    (s.setProgress u progress).chances t =
      if u = t then s.endings t else s.chances t := by
  have hfinishs : (s.setProgress u progress).endings t = s.endings t := rfl
  rw [chances, hfinishs, isWaiting_setProgress, h]
  split <;> simp [chances]

theorem chances_setProgress_le {progress : Progress α} (h : progress.isWaiting = false) :
    (s.setProgress u progress).chances t ≤ s.chances t := by
  rw [chances_setProgress h]
  split <;> simp [chances]

theorem chances_setProgress_waiting_le (stage : Stage) :
    (s.setProgress u (.waiting stage)).chances t ≤ s.chances t + (u == t).toNat := by
  have hfinishs : (s.setProgress u (.waiting stage)).endings t = s.endings t := rfl
  rw [chances, chances, hfinishs, isWaiting_setProgress]
  by_cases hu : u = t
  · have hone := Bool.toNat_le
      (s.tasks[t]?.isSome && Progress.isWaiting (.waiting stage : Progress α))
    simp only [hu, if_true, beq_self_eq_true, Bool.toNat_true]
    omega
  · simp [hu]

theorem chances_settle_le (settlement : Settlement α) :
    (s.settle u settlement).chances t ≤ s.chances t + (u == t).toNat := by
  have hprogress : (s.setProgress u .ended).chances t ≤ s.chances t := chances_setProgress_le rfl
  have hwaits : (s.settle u settlement).isWaiting t = (s.setProgress u .ended).isWaiting t := rfl
  have hfinishs : (s.settle u settlement).endings t =
      (s.setProgress u .ended).endings t + (u == t).toNat := by
    by_cases hu : u = t <;> simp [endings, settle, setProgress, hu]
    omega
  rw [chances, hwaits, hfinishs, ← Nat.add_assoc]
  exact Nat.add_le_add_right hprogress _

theorem chances_newTask (store : StoreId) (purpose : Purpose α) :
    (s.newTask store purpose).2.chances t = s.chances t := by
  have hfinishs : (s.newTask store purpose).2.endings t = s.endings t := rfl
  have hwaits : (s.newTask store purpose).2.isWaiting t = s.isWaiting t := by
    unfold isWaiting newTask
    rcases Nat.lt_trichotomy t s.tasks.length with hlt | rfl | hgt
    · rw [List.getElem?_append_left hlt]
    · simp [Progress.isWaiting]
    · rw [List.getElem?_eq_none_iff.mpr hgt.le, List.getElem?_eq_none_iff.mpr (by simp; omega)]
  rw [chances, hwaits, hfinishs, chances]

theorem chances_filter_timers_le (keep : Timer α → Bool)
    (listeners : List (SignalId × TaskId)) :
    { s with timers := s.timers.filter keep, listeners }.chances t ≤ s.chances t := by
  have htimers : (s.timers.filter keep).countP (·.alarm.ends t) ≤
      s.timers.countP (·.alarm.ends t) := List.filter_sublist.countP_le
  simp only [chances, endings, isWaiting]
  omega

/-! Moves for other tasks -/

section

variable [Scalar α] {s' : Deployment α} {p : Scope α}

/-- Moves that neither touch a task nor bring it to its end give it no chance. -/
theorem Move.chances_apply_le (m : Move α) (hm : m.Within p) (ht : ¬p.task t)
    (hjob : ∀ job, p.job job → job.ends t = false) : (m.apply s).chances t ≤ s.chances t := by
  have hne : ∀ {u}, p.task u → (u == t) = false := fun hu => beq_false_of_ne fun h => ht (h ▸ hu)
  cases m with
  | post turns job => exact (chances_post turns job).trans_le (by simp [hjob job hm.2])
  | setTimer delay alarm =>
    refine (chances_setTimer delay alarm).trans_le ?_
    cases alarm with
    | reply turns job => simp [Alarm.ends, hjob job hm.2]
    | _ => simp [Alarm.ends]
  | setProgress u progress =>
    have hwaits := isWaiting_setProgress (s := s) (t := t) (u := u) progress
    rw [if_neg (ne_of_beq_false (hne hm))] at hwaits
    show (s.setProgress u progress).chances t ≤ _
    rw [chances, hwaits]
    exact Nat.le_refl _
  | settle u settlement => exact (chances_settle_le settlement).trans (by simp [hne hm.1])
  | newTask store purpose => exact (chances_newTask store purpose).le
  | release u => exact chances_filter_timers_le _ _
  | removeInterval name => exact chances_filter_timers_le _ s.listeners
  | fill | join | unlink | consume | setInterval =>
    simp only [Move.apply]
    split <;> exact Nat.le_refl _
  | _ => exact Nat.le_refl _

theorem Moves.chances_le (h : Moves p s s') (ht : ¬p.task t)
    (hjob : ∀ job, p.job job → job.ends t = false) : s'.chances t ≤ s.chances t := by
  induction h with
  | refl => exact Nat.le_refl _
  | tail m _ hm ih => exact (m.chances_apply_le hm ht hjob).trans ih

/-- Moves for no task in particular. -/
theorem Moves.chances_le_of_task (h : Moves p s s') (ht : ∀ t, ¬p.task t)
    (hjob : ∀ job, p.job job → job.ends t = false) : s'.chances t ≤ s.chances t :=
  h.chances_le (ht t) hjob

end

/-! Functions

A function works for the task `u`; the task `t` is any. -/

section

variable [Scalar α]

theorem chances_arrange_le (reply : Reply α) (turnsNow turnsLater : Nat) {job : Outcome α → Job α}
    {ends : Bool} (hjob : ∀ outcome, (job outcome).ends t = ends) :
    (s.arrange reply turnsNow turnsLater job).chances t ≤ s.chances t + ends.toNat := by
  have hpost : ∀ turns outcome,
      (s.post turns (job outcome)).chances t ≤ s.chances t + ends.toNat := by
    intro turns outcome
    rw [chances_post, hjob]
  cases reply with
  | throws | never => exact Nat.le_add_right _ _
  | settles delay outcome status =>
    cases delay with
    | none => exact hpost turnsNow _
    | some delay =>
      refine (chances_setTimer delay _).trans_le ?_
      rw [Alarm.ends, hjob]

variable [Textual α]

theorem chances_callClient_le (c : ClientId) (call : ClientCall α) :
    (s.callClient c call).2.chances t ≤ s.chances t :=
  ((Moves.refl s).callClient (p := { call := fun _ => True }) c call trivial).chances_le_of_task
    (fun _ => id) fun _ h => h.elim

omit [Scalar α] [Textual α] in
theorem chances_leaveWait_le (stage : Stage) (outcome : Outcome α) :
    (s.leaveWait u stage outcome).chances t ≤ s.chances t + (u == t).toNat := by
  rw [leaveWait, chances_post]
  exact Nat.add_le_add_right (chances_setProgress_le rfl) _

theorem chances_startWait_le (stage : Stage) (milliseconds : Option (Value α))
    (signal : Option SignalId) :
    (s.startWait u stage milliseconds signal).chances t ≤ s.chances t + (u == t).toNat := by
  unfold startWait
  split
  · exact chances_leaveWait_le stage _
  · next text _ =>
    have hset := (chances_setTimer (s := s.setProgress u (.waiting stage)) (t := t)
      (numeral milliseconds) (.deadline u text)).trans_le (chances_setProgress_waiting_le stage)
    cases signal <;> exact hset

omit [Scalar α] [Textual α] in
/-- What ends a wait uses the chance that the wait was. -/
theorem chances_endWait_le (outcome? : Option (Outcome α)) :
    (s.endWait u outcome?).chances t ≤ s.chances t := by
  unfold endWait
  split
  · next stage outcome hwaiting =>
    refine (chances_filter_timers_le _ _).trans ?_
    rw [leaveWait, chances_post, chances_setProgress rfl]
    by_cases hu : u = t
    · have hwaits : s.isWaiting t = true := by
        subst hu
        cases htask : s.tasks[u]? <;> simp_all [isWaiting, Progress.isWaiting]
      simp [hu, chances, hwaits, Job.ends, Nat.add_comm]
    · simp [hu, Job.ends, beq_false_of_ne hu]
  · exact (chances_filter_timers_le _ _).trans (chances_setProgress_le rfl)
  · exact Nat.le_refl _

omit [Scalar α] [Textual α] in
theorem chances_abort_le (signal : SignalId) : (s.abort signal).chances t ≤ s.chances t := by
  have hends : ∀ (waiting : List TaskId) (s : Deployment α),
      (waiting.foldl (fun s t => s.endWait t (some (.error .aborted))) s).chances t ≤
        s.chances t := by
    intro waiting
    induction waiting with
    | nil => exact fun s => Nat.le_refl _
    | cons u waiting ih => exact fun s => (ih _).trans (chances_endWait_le _)
  unfold abort
  split
  · exact Nat.le_refl _
  · exact hends _ _

omit [Scalar α] [Textual α] in
theorem chances_hangUp_le : (s.hangUp u).chances t ≤ s.chances t := by
  unfold hangUp
  split
  · exact chances_abort_le (s := s.detach u) (.request u)
  · exact Nat.le_refl _

theorem chances_connectFor_le (i : StoreId) (store : RedisStore α) (whenReady : Job α)
    (hready : whenReady.ends t = false) :
    (s.connectFor u i store whenReady).2.chances t ≤ s.chances t := by
  have hlink : ∀ (s' : Deployment α) (reply : Reply α),
      (s'.arrangeLink i store.client reply).chances t ≤ s'.chances t := by
    intro s' reply
    refine ((Moves.refl s').arrangeLink (p := { job := fun job => job.owner? = none }) i _ reply
      fun _ _ => rfl).chances_le_of_task (fun _ => id) fun job hjob => ?_
    exact Job.ends_of_owner (by simp [show job.owner? = none from hjob])
  have hcalled := chances_callClient_le (s := s) (t := t) store.client .connect
  unfold connectFor
  split
  · exact Nat.le_refl _
  · split
    · split
      · next hc => exact (congrArg (chances · t) (congrArg Prod.snd hc)).ge.trans hcalled
      · next reply s' _ hc =>
        have hsame : s'.chances t ≤ s.chances t := by rwa [hc] at hcalled
        exact (hlink (s'.setStore i _) reply).trans hsame
    · rw [chances_post, hready]
      exact Nat.le_refl _

omit [Scalar α] in
theorem chances_giveUpBoot_le (fault : Fault α) :
    (s.giveUpBoot u fault).chances t ≤ s.chances t + (u == t).toNat := by
  unfold giveUpBoot
  split <;> exact (chances_post 0 _).le

theorem chances_bootRedis_le (i : StoreId) (store : RedisStore α) :
    (s.bootRedis u i store).chances t ≤ s.chances t + (u == t).toNat := by
  have hlinked := chances_connectFor_le (s := s) (t := t) (u := u) i store
    (.answer u (.ok none)) rfl
  unfold bootRedis
  split
  · next hc =>
    rw [hc] at hlinked
    exact (chances_giveUpBoot_le _).trans (Nat.add_le_add_right hlinked _)
  · next hc =>
    rw [hc] at hlinked
    exact (chances_startWait_le _ _ _).trans (Nat.add_le_add_right hlinked _)

theorem chances_bootLinked_le (store : RedisStore α) (outcome : Outcome α) :
    (s.bootLinked u store outcome).chances t ≤ s.chances t + (u == t).toNat := by
  cases outcome with
  | error fault => exact chances_giveUpBoot_le fault
  | ok answer =>
    have hcalled := chances_callClient_le (s := s) (t := t) store.client .ping
    unfold bootLinked
    dsimp only
    split
    · next hc =>
      rw [hc] at hcalled
      exact (chances_giveUpBoot_le _).trans (Nat.add_le_add_right hcalled _)
    · next reply s' _ hc =>
      rw [hc] at hcalled
      have harranged : (s'.arrange reply 0 0 (.answer u)).chances t ≤
          s'.chances t + Bool.toNat false := chances_arrange_le reply 0 0 fun _ => rfl
      exact (chances_startWait_le _ _ _).trans
        (Nat.add_le_add_right (harranged.trans hcalled) _)

omit [Scalar α] in
theorem chances_bootAnswered_le (store : RedisStore α) (outcome : Outcome α) :
    (s.bootAnswered u store outcome).chances t ≤ s.chances t + (u == t).toNat := by
  cases outcome with
  | error fault => exact chances_giveUpBoot_le fault
  | ok answer =>
    unfold bootAnswered
    dsimp only
    split
    · exact (chances_post 0 _).le
    · exact chances_giveUpBoot_le _

theorem chances_resume_le : (s.resume u).chances t ≤ s.chances t + (u == t).toNat := by
  unfold resume
  split
  · split
    · exact (chances_post 0 _).le
    · exact chances_bootLinked_le _ _
    · exact chances_bootAnswered_le _ _
    · exact Nat.le_add_right _ _
  · exact Nat.le_add_right _ _

theorem chances_conclude_le (verdict : Except (Fault α) Bool) :
    (s.conclude u verdict).chances t ≤ s.chances t + (u == t).toNat := by
  by_cases hcheck : ∃ c, s.tasks[u]?.map Task.purpose = some (.check c)
  · obtain ⟨c, hpurpose⟩ := hcheck
    rw [conclude_eq_settle hpurpose]
    exact chances_settle_le _
  · unfold conclude
    split
    · next c hpurpose => exact absurd ⟨c, hpurpose⟩ hcheck
    · exact Nat.le_add_right _ _

omit [Textual α] in
theorem chances_started_le (outcome : Outcome α) :
    (s.started u outcome).chances t ≤ s.chances t + (u == t).toNat := by
  have hregister : ∀ (l : LimiterId) (limiter : Limiter α) {s : Deployment α},
      (s.registerSweep u l limiter).chances t ≤ s.chances t + (u == t).toNat := by
    intro l limiter s
    have hset := chances_setTimer (s := { s with intervalCount := s.intervalCount + 1 }) (t := t)
      limiter.config.sweepInterval
      (.sweep l (sweepName (s.intervalCount + 1)) limiter.config.sweepInterval)
    have hset := Nat.add_le_add_right hset.le (u == t).toNat
    unfold registerSweep
    dsimp only
    split <;> exact (chances_settle_le _).trans hset
  unfold started limiterReady
  split
  · exact chances_settle_le _
  · split
    · split
      · dsimp only
        split
        · exact hregister _ _
        · exact chances_settle_le _
      · exact chances_settle_le _
    · exact chances_settle_le _
  · exact chances_settle_le _

omit [Textual α] in
theorem chances_finishClose_le (closer : Closer) (answer : Option (Value α)) :
    (s.finishClose u closer answer).chances t ≤ s.chances t + (u == t).toNat := by
  cases closer with
  | application =>
    have hremoved := ((Moves.refl s).removeIntervals (p := { regular := True })
      trivial).chances_le_of_task (t := t) (fun _ => id) fun _ h => h.elim
    exact (chances_settle_le _).trans (Nat.add_le_add_right hremoved _)
  | _ => exact chances_settle_le _

theorem chances_disconnect_le (closer : Closer) (fault : Fault α) :
    (s.disconnect u closer fault).chances t ≤ s.chances t + (u == t).toNat := by
  unfold disconnect
  split
  · next message _ =>
    exact chances_finishClose_le (s := (s.note (.quitFailed message)).record .disconnect) closer _
  · exact chances_settle_le _

theorem chances_closed_le (outcome : Outcome α) :
    (s.closed u outcome).chances t ≤ s.chances t + (u == t).toNat := by
  unfold closed
  split
  · split
    · exact chances_finishClose_le _ _
    · exact chances_disconnect_le _ _
    · exact chances_finishClose_le _ _
    · exact chances_settle_le _
  · exact Nat.le_add_right _ _

/-- Work uses the chance that it was itself. -/
theorem chances_run_le (job : Job α) :
    (s.run job).chances t ≤ s.chances t + (job.ends t).toNat := by
  cases job with
  | evaluate u =>
    refine (s.run_moves (.evaluate u)).chances_le_of_task (fun _ => id) ?_
    rintro job ⟨outcome, rfl⟩
    rfl
  | answer u outcome => cases outcome <;> exact chances_endWait_le _
  | resume u => exact chances_resume_le
  | conclude u verdict => exact chances_conclude_le verdict
  | linkSettled i outcome status =>
    refine (s.run_moves (.linkSettled i outcome status)).chances_le_of_task (fun _ => id) ?_
    rintro job ⟨u, -, rfl | ⟨-, rfl⟩⟩ <;> rfl
  | started u outcome => exact chances_started_le outcome
  | closed u outcome => exact chances_closed_le outcome

/-! Starts -/

theorem chances_check_le (i : StoreId) (c : Check α) :
    (s.check u i c).chances t ≤ s.chances t + (u == t).toNat := by
  unfold check
  split
  · unfold checkMemory
    dsimp only
    split
    · exact (chances_post 0 _).le
    · exact chances_conclude_le _
  · next script _ =>
    unfold checkScripted
    cases script.allow.next (.value (.bool true)) with
    | mk reply allow =>
      dsimp only
      split
      · exact chances_conclude_le _
      · exact chances_arrange_le reply 0 0 fun _ => rfl
  · next store _ =>
    have hlinked := chances_connectFor_le (s := s) (t := t) (u := u) i store
      (.evaluate u) rfl
    unfold checkRedis
    split
    · exact (chances_post 0 _).le
    · split
      · next hc =>
        rw [hc] at hlinked
        exact (chances_post 0 _).le.trans (Nat.add_le_add_right hlinked _)
      · next hc =>
        rw [hc] at hlinked
        exact (chances_startWait_le _ _ _).trans (Nat.add_le_add_right hlinked _)
  · exact Nat.le_add_right _ _

theorem chances_boot_le (i : StoreId) (failed : Fault α → Settlement α) :
    (s.boot u i failed).chances t ≤ s.chances t + (u == t).toNat := by
  unfold boot
  split
  · exact (chances_post 0 _).le
  · exact chances_bootRedis_le _ _
  · next script _ =>
    dsimp only
    split
    · exact chances_settle_le _
    · exact chances_arrange_le _ 0 0 fun _ => rfl
  · exact Nat.le_add_right _ _

theorem chances_close_le (i : StoreId) (closer : Closer) :
    (s.close u i closer).chances t ≤ s.chances t + (u == t).toNat := by
  unfold close
  split
  · exact (chances_post 0 _).le
  · next store _ =>
    split
    · have hcalled := chances_callClient_le (s := s) (t := t) store.client .quit
      split
      · next hc =>
        rw [hc] at hcalled
        exact (chances_disconnect_le _ _).trans (Nat.add_le_add_right hcalled _)
      · next reply s' _ hc =>
        rw [hc] at hcalled
        have harranged : (s'.arrange reply 0 0 (.closed u)).chances t ≤
            s'.chances t + (u == t).toNat := chances_arrange_le reply 0 0 fun _ => rfl
        exact harranged.trans (Nat.add_le_add_right hcalled _)
    · exact (chances_post 0 _).le
  · dsimp only
    split
    · exact chances_settle_le _
    · exact chances_arrange_le _ 0 0 fun _ => rfl
  · exact Nat.le_add_right _ _

theorem chances_start_le (call : Start α) :
    (s.start call).chances t ≤ s.chances t + (s.tasks.length == t).toNat := by
  have hprelude : ∀ {s' : Deployment α}, Prelude s call s' → ∀ (i : StoreId) (purpose : Purpose α),
      (s'.newTask i purpose).2.chances t ≤ s.chances t := by
    intro s' hs' i purpose
    rw [chances_newTask]
    exact (hs'.moves (s.preludeScope call) rfl id).chances_le_of_task (fun _ => id)
      fun _ h => h.elim
  have hbegins := begins_start s call
  generalize s.start call = s'' at hbegins ⊢
  cases hbegins with
  | check hs' hi c =>
    rw [← hs'.tasks]
    exact (chances_check_le _ c).trans (Nat.add_le_add_right (hprelude hs' _ _) _)
  | boot hs' hi limiter failed =>
    rw [← hs'.tasks]
    exact (chances_boot_le _ failed).trans (Nat.add_le_add_right (hprelude hs' _ _) _)
  | close hs' hi closer hcloser =>
    rw [← hs'.tasks]
    exact (chances_close_le _ closer).trans (Nat.add_le_add_right (hprelude hs' _ _) _)
  | ended hs' i purpose settlement =>
    rw [← hs'.tasks]
    exact (chances_settle_le settlement).trans (Nat.add_le_add_right (hprelude hs' _ _) _)

/-! Events -/

omit [Scalar α] [Textual α] in
theorem chances_taken_work {n turns : Nat} {job : Job α} (h : s.agenda[n]? = some (turns, job)) :
    s.chances t = (s.taken (.work n)).chances t + (job.ends t).toNat := by
  obtain ⟨before, later, hagenda, herase⟩ := exists_eraseIdx_eq h
  have hfinishs : s.endings t = (s.taken (.work n)).endings t + (job.ends t).toNat := by
    simp only [endings, taken, herase]
    cases hends : job.ends t <;> simp [hagenda, hends]
    omega
  have hwaits : (s.taken (.work n)).isWaiting t = s.isWaiting t := rfl
  rw [chances, chances, hfinishs, hwaits, Nat.add_assoc]

omit [Scalar α] [Textual α] in
theorem chances_taken_alarm {n : Nat} {timer : Timer α} (h : s.timers[n]? = some timer) :
    s.chances t = (s.taken (.alarm n)).chances t + (timer.alarm.ends t).toNat := by
  obtain ⟨before, later, htimers, herase⟩ := exists_eraseIdx_eq h
  have hfinishs : s.endings t = (s.taken (.alarm n)).endings t + (timer.alarm.ends t).toNat := by
    simp only [endings, taken, herase]
    cases hends : timer.alarm.ends t <;> simp [htimers, hends]
    omega
  have hwaits : (s.taken (.alarm n)).isWaiting t = s.isWaiting t := rfl
  rw [chances, chances, hfinishs, hwaits, Nat.add_assoc]

/-- Only its start gives a task a chance. -/
theorem chances_happen_le (hs : s.Prompt) (ev : Event α) :
    (s.happen ev).chances t ≤ s.chances t +
      match ev with
      | .start _ => (s.tasks.length == t).toNat
      | _ => 0 := by
  cases ev with
  | start call => exact chances_start_le call
  | work n =>
    simp only [happen]
    cases hentry : s.agenda[n]? with
    | none => exact Nat.le_refl _
    | some entry =>
      obtain ⟨turns, job⟩ := entry
      rw [chances_taken_work hentry]
      cases turns with
      | zero => exact chances_run_le (s := s.taken (.work n)) job
      | succ turns => exact (chances_post (s := s.taken (.work n)) turns job).le
  | alarm n =>
    simp only [happen]
    cases htimer : s.timers[n]? with
    | none => exact Nat.le_refl _
    | some timer =>
      obtain ⟨due, alarm⟩ := timer
      rw [chances_taken_alarm htimer]
      cases alarm with
      | deadline u text => exact chances_endWait_le (s := s.taken (.alarm n)) _
      | reply turns job => exact (chances_post (s := s.taken (.alarm n)) turns job).le
      | sweep l name period =>
        refine (chances_setTimer _ _).trans_le ?_
        have hswept := (Moves.refl (s.taken (.alarm n))).sweep
          (p := { call := fun _ => True, notice := fun _ => True }) (fun _ _ => trivial)
          (fun _ => trivial) l (some (.number s.clock))
        exact hswept.chances_le_of_task (fun _ => id) fun _ h => h.elim
  | abort signal => exact chances_abort_le signal
  | hangUp u => exact chances_hangUp_le
  | tick clock => exact Nat.le_refl _
  | relink client status => exact Nat.le_refl _
  | linkFault i message =>
    exact (happen_moves hs (.linkFault i message)).chances_le_of_task (fun _ => id)
      fun _ h => h.elim
  | sweep l now =>
    exact (happen_moves hs (.sweep l now)).chances_le_of_task (fun _ => id) fun _ h => h.elim

omit [Scalar α] [Textual α] in
theorem Fresh.chances_eq (h : s.Fresh) (t : TaskId) : s.chances t = 0 := by
  simp [chances, endings, isWaiting, h.tasks, h.agenda, h.timers, h.settled]

/-- A task that has not been started has no chance, and one that has been started has one at
most. -/
theorem Reachable.chances_le (hs : s.Reachable) (t : TaskId) :
    s.chances t ≤ 1 ∧ (s.tasks.length ≤ t → s.chances t = 0) := by
  have hall : s.Prompt ∧ ∀ t, s.chances t ≤ 1 ∧ (s.tasks.length ≤ t → s.chances t = 0) := by
    refine hs.induction
      (P := fun s => s.Prompt ∧ ∀ t, s.chances t ≤ 1 ∧ (s.tasks.length ≤ t → s.chances t = 0))
      (fun s₀ hfresh => ⟨hfresh.prompt, fun t => ?_⟩) ?_
    · simp [hfresh.chances_eq]
    · rintro s ev ⟨hprompt, hall⟩
      refine ⟨hprompt.happen ev, fun t => ?_⟩
      obtain ⟨hone, hnone⟩ := hall t
      have hstep := chances_happen_le (t := t) hprompt ev
      have hlength := tasks_length_happen hprompt ev
      cases ev with
      | start call =>
        have hlonger : (s.happen (.start call)).tasks.length = s.tasks.length + 1 :=
          tasks_length_start s call
        by_cases hnew : s.tasks.length = t
        · have hzero := hnone hnew.le
          simp only [hnew, beq_self_eq_true, Bool.toNat_true] at hstep
          omega
        · simp only [beq_false_of_ne hnew, Bool.toNat_false] at hstep
          omega
      | _ =>
        dsimp only at hstep
        omega
  exact hall.2 t

/-- A task is settled at most once. -/
theorem Reachable.settled_length_le (hs : s.Reachable) (t : TaskId) :
    (s.share t).settled.length ≤ 1 := by
  have hchances := (hs.chances_le t).1
  have hsettled : (s.share t).settled.length = s.settled.countP (·.1 == t) := by
    rw [share, List.length_map, List.countP_eq_length_filter]
  rw [chances, endings] at hchances
  omega

/-- A task that has work to end with has not ended. -/
theorem Reachable.settled_eq_nil (hs : s.Reachable) {n turns : Nat} {job : Job α}
    (hentry : s.agenda[n]? = some (turns, job)) (hends : job.ends t = true) :
    (s.share t).settled = [] := by
  have hchances := (hs.chances_le t).1
  have hsettled : (s.share t).settled.length = s.settled.countP (·.1 == t) := by
    rw [share, List.length_map, List.countP_eq_length_filter]
  have hpositive : 0 < s.agenda.countP (·.2.ends t) :=
    List.countP_pos_iff.mpr ⟨_, List.mem_of_getElem? hentry, hends⟩
  rw [chances, endings] at hchances
  exact List.eq_nil_of_length_eq_zero (by omega)

omit [Scalar α] [Textual α] in
theorem settled_share_congr {s' : Deployment α} (h : s'.settled = s.settled) (t : TaskId) :
    (s'.share t).settled = (s.share t).settled := by
  simp only [share, h]

omit [Scalar α] [Textual α] in
theorem share_settled_concat {s' : Deployment α} {settlement : Settlement α}
    (h : s'.settled = s.settled ++ [(u, settlement)]) :
    (s'.share t).settled =
      if u = t then (s.share t).settled ++ [settlement] else (s.share t).settled := by
  by_cases hu : u = t <;> simp [share, h, hu]

omit [Textual α] in
/-- A task that may not end has ended no further. -/
theorem Moves.share_settled_eq {p : Scope α} {s' : Deployment α} (h : Moves p s s')
    (hp : ¬(p.task t ∧ p.finish t)) : (s'.share t).settled = (s.share t).settled := by
  obtain ⟨more, hsettled, hmore⟩ := h.exists_settled_eq
  have hnone : more.filter (·.1 == t) = [] := by
    refine List.filter_eq_nil_iff.mpr fun entry hentry heq => ?_
    exact hp (beq_iff_eq.mp heq ▸ hmore entry hentry)
  rw [share, share, hsettled, List.filter_append, hnone, List.append_nil]

/-- The scope within which anything may happen short of an end. -/
def Scope.unending : Scope α := { Scope.any with finish := fun _ => False }

omit [Textual α] in
theorem settled_abort (s : Deployment α) (signal : SignalId) :
    (s.abort signal).settled = s.settled :=
  ((Moves.refl (p := .unending) s).abort trivial fun _ _ => ⟨trivial, trivial⟩).settled_eq
    fun _ _ => id

omit [Textual α] in
theorem settled_hangUp (s : Deployment α) (u : TaskId) : (s.hangUp u).settled = s.settled := by
  unfold hangUp
  split
  · exact settled_abort _ _
  · rfl

theorem settled_happen (hs : s.Prompt) (ev : Event α) :
    ∃ more, (s.happen ev).settled = s.settled ++ more ∧
      ∀ entry ∈ more, (s.scope ev).task entry.1 ∧ (s.scope ev).finish entry.1 := by
  obtain ⟨more, hsettled, hmore⟩ := (happen_moves hs ev).exists_settled_eq
  refine ⟨more, hsettled.trans ?_, hmore⟩
  cases ev <;> rfl

/-- A task that has ended stays as it ended. -/
theorem Reachable.settled_after (hs : s.Reachable) {settlement : Settlement α}
    (hsettled : settlement ∈ (s.share t).settled) (events : List (Event α)) :
    ((s.after events).share t).settled = [settlement] := by
  have hkept : settlement ∈ ((s.after events).share t).settled := by
    induction events generalizing s with
    | nil => exact hsettled
    | cons ev events ih =>
      obtain ⟨more, hmore, -⟩ := settled_happen hs.prompt ev
      refine ih (hs.happen ev) ?_
      rw [share, hmore, List.filter_append, List.map_append]
      exact List.mem_append_left _ hsettled
  obtain ⟨other, hother⟩ := List.length_eq_one_iff.mp (Nat.le_antisymm
    ((hs.after events).settled_length_le t) (List.length_pos_of_mem hkept))
  rw [hother] at hkept ⊢
  rw [List.mem_singleton.mp hkept]

end

end Deployment

end Admission
