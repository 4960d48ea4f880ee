import Admission.Proofs.Deployment.Deadline
import Admission.Proofs.Deployment.Once
import Admission.Proofs.Deployment.Requests

/-!
What is reported about checks.

A limiter reports about a check when it concludes, and at no other time. Whatever else the log is
told in a course, the lines about one check follow from the verdicts it was concluded with, just as
its settlements do.
-/
namespace Admission.Deployment

variable {α : Type}

/-- The task that an event concludes as far as the event tells: a start may conclude the new task at
once. -/
def concluded? (s : Deployment α) : Event α → Option TaskId
  | .start _ => some s.tasks.length
  | .work n =>
    match s.agenda[n]? with
    | some (0, .conclude t _) => some t
    | _ => none
  | _ => none

section

variable [Scalar α]

variable [Textual α]

/-- What an event reports about checks. -/
def reports (s : Deployment α) (ev : Event α) : List (Notice α) :=
  ((s.happen ev).notices.drop s.notices.length).filter Notice.isOnCheck

/-- All that is reported about the check of a task in a course. -/
def reportsOn (s : Deployment α) (t : TaskId) : List (Event α) → List (Notice α)
  | [] => []
  | ev :: events =>
    (if s.concluded? ev = some t then s.reports ev else []) ++ (s.happen ev).reportsOn t events

theorem reports_eq {s : Deployment α} (ev : Event α) {more : List (Notice α)}
    (h : (s.happen ev).notices = s.notices ++ more) :
    s.reports ev = more.filter Notice.isOnCheck := by
  rw [reports, h, List.drop_left]

omit [Scalar α] [Textual α] in
@[simp] theorem notices_taken (s : Deployment α) (ev : Event α) :
    (s.taken ev).notices = s.notices := by
  cases ev <;> rfl

omit [Scalar α] [Textual α] in
theorem isOnCheck_of_scope {s : Deployment α} {ev : Event α} (hnone : s.concluded? ev = none)
    {notice : Notice α} (h : (s.scope ev).notice notice) : notice.isOnCheck = false := by
  cases ev with
  | start call => cases hnone
  | work n =>
    simp only [scope] at h
    split at h
    · next job hentry =>
      cases job with
      | conclude t verdict => simp [concluded?, hentry] at hnone
      | resume t => exact h
      | started t outcome => exact h
      | closed t outcome => exact h
      | _ => exact h.elim
    · exact h.elim
    · exact h.elim
  | alarm n =>
    simp only [scope] at h
    split at h
    · exact h.elim
    · exact h.elim
    · exact h
    · exact h.elim
  | linkFault i message => exact h
  | sweep l now => exact h
  | _ => exact h.elim

/-- Whatever is reported about a check is reported when a check concludes. -/
theorem exists_concluded_of_reports {s : Deployment α} (hs : s.Prompt) {ev : Event α}
    (h : s.reports ev ≠ []) : ∃ t, s.concluded? ev = some t := by
  refine Option.ne_none_iff_exists'.mp fun hnone => h ?_
  obtain ⟨more, hnotices, hmore⟩ := (happen_moves hs ev).exists_notices_eq
  rw [notices_taken] at hnotices
  rw [reports_eq _ hnotices, List.filter_eq_nil_iff]
  exact fun notice hnotice => Bool.eq_false_iff.mp (isOnCheck_of_scope hnone (hmore notice hnotice))

/-! What settles nothing -/

omit [Scalar α] [Textual α] in
theorem settled_endWait (s : Deployment α) (t : TaskId) (outcome? : Option (Outcome α)) :
    (s.endWait t outcome?).settled = s.settled := by
  unfold endWait
  split <;> rfl

/-! Conclusions -/

/-- A check can conclude with no other verdict. -/
structure LeadsTo (s : Deployment α) (t : TaskId) (c : Check α) (verdict : Except (Fault α) Bool) :
    Prop where
  task : ∃ i progress, s.tasks[t]? = some ⟨i, .check c, progress⟩
  ready : ∀ job ∈ (s.share t).ready,
    job.IsOfCheck t ∧ ∀ other, job = .conclude t other → other = verdict
  /-- The check does not go on as a startup. -/
  unlinked : .resume t ∈ (s.share t).ready →
    ∀ answer, s.tasks[t]?.map Task.progress ≠ some (.leaving .link (.ok answer))

omit [Scalar α] [Textual α] in
theorem exists_work_of_concluded? {s : Deployment α} {t : TaskId} (hlt : t < s.tasks.length)
    {ev : Event α} (h : s.concluded? ev = some t) :
    ∃ n verdict, ev = .work n ∧ s.agenda[n]? = some (0, .conclude t verdict) := by
  cases ev with
  | start call => exact absurd (Option.some.inj h) (Nat.ne_of_gt hlt)
  | work n =>
    simp only [concluded?] at h
    split at h
    · next u verdict hentry => exact ⟨n, verdict, rfl, Option.some.inj h ▸ hentry⟩
    · cases h
  | _ => cases h

/-- The conclusion of a check settles it, is reported, and hands its request on or refuses it. -/
theorem LeadsTo.conclude {s : Deployment α} {t : TaskId} {c : Check α}
    {verdict other : Except (Fault α) Bool} (h : s.LeadsTo t c verdict) {n : Nat}
    (hentry : s.agenda[n]? = some (0, .conclude t other)) :
    ((s.happen (.work n)).share t).settled =
        (s.share t).settled ++ [s.settlementOf c verdict] ∧
      (s.happen (.work n)).notices = s.notices ++ s.reportOf c verdict ∧
      s.exchanged t (.work n) = (s.exchangeOf c verdict).toList := by
  obtain ⟨i, progress, htask⟩ := h.task
  obtain rfl := (h.ready _ (mem_ready_share hentry rfl)).2 other rfl
  have hhappen : s.happen (.work n) = (s.taken (.work n)).conclude t other := by
    simp only [Deployment.happen, hentry, taken, turn, run]
  have hpurpose : (s.taken (.work n)).tasks[t]?.map Task.purpose = some (.check c) := by
    rw [tasks_taken, htask]
    rfl
  have heq := hhappen.trans (conclude_eq_settle hpurpose other)
  refine ⟨?_, by rw [heq]; rfl, exchangesSince_concat (by rw [heq]; rfl)⟩
  have hsettled : (s.happen (.work n)).settled = s.settled ++ [(t, s.settlementOf c other)] := by
    rw [heq]
    rfl
  rw [share_settled_concat hsettled, if_pos rfl]

omit [Scalar α] [Textual α] in
/-- A check may end when it concludes; its request may go away besides. -/
theorem LeadsTo.finish_cases {s : Deployment α} {t : TaskId} {c : Check α}
    {verdict : Except (Fault α) Bool} (h : s.LeadsTo t c verdict) {ev : Event α}
    (hfinish : (s.scope ev).finish t) : s.concluded? ev = some t ∨ ev = .hangUp t := by
  obtain ⟨rfl, call, rfl⟩ | rfl | ⟨n, job, rfl, hentry, hjob⟩ := finish_scope_cases hfinish
  · exact Or.inl rfl
  · exact Or.inr rfl
  · obtain ⟨verdict, rfl⟩ | ⟨outcome, rfl⟩ | ⟨outcome, rfl⟩ := hjob
    · exact Or.inl (by simp [concluded?, hentry])
    · exact (h.ready _ (mem_ready_share hentry rfl)).1.elim
    · exact (h.ready _ (mem_ready_share hentry rfl)).1.elim

/-- Nothing but its conclusion hands the request of a check on or refuses it. -/
theorem LeadsTo.exchanged_eq {s : Deployment α} {t : TaskId} {c : Check α}
    {verdict : Except (Fault α) Bool} (h : s.LeadsTo t c verdict) (hs : s.Prompt) {ev : Event α}
    (hother : s.concluded? ev ≠ some t) : s.exchanged t ev = [] := by
  by_cases hfinish : (s.scope ev).finish t
  · obtain hconcluded | rfl := h.finish_cases hfinish
    · exact absurd hconcluded hother
    · exact exchanged_hangUp s t t
  · exact exchanged_eq_nil hs hfinish

/-- No other work of a check settles anything. -/
theorem LeadsTo.settled_run_eq {s : Deployment α} {t : TaskId} {c : Check α}
    {verdict : Except (Fault α) Bool} (h : s.LeadsTo t c verdict) {n : Nat} {job : Job α}
    (hentry : s.agenda[n]? = some (0, job)) (hown : job.owner? = some t)
    (hother : s.concluded? (.work n) ≠ some t) :
    ((s.taken (.work n)).run job).settled = s.settled := by
  have hmoves := (s.taken (.work n)).run_moves job
  have hmem := mem_ready_share hentry hown
  obtain ⟨hcheck, -⟩ := h.ready job hmem
  cases job with
  | evaluate u => exact hmoves.settled_eq fun _ => False.elim
  | answer u outcome => cases outcome <;> exact settled_endWait _ u _
  | resume u =>
    obtain rfl : u = t := hcheck
    have hends : Moves (endScope u) (s.taken (.work n)) ((s.taken (.work n)).resume u) :=
      resume_moves_end (h.unlinked hmem)
    exact hends.settled_eq fun _ => False.elim
  | conclude u answer =>
    obtain rfl : u = t := hcheck
    exact absurd (by simp [concluded?, hentry]) hother
  | _ => exact hcheck.elim

/-- Nothing but its conclusion settles a check. -/
theorem LeadsTo.settled_eq {s : Deployment α} {t : TaskId} {c : Check α}
    {verdict : Except (Fault α) Bool} (h : s.LeadsTo t c verdict) (hs : s.Prompt) {ev : Event α}
    (hother : s.concluded? ev ≠ some t) :
    ((s.happen ev).share t).settled = (s.share t).settled := by
  by_cases hconcerns : s.Concerns t ev
  case neg => exact congrArg Share.settled (share_happen hs hconcerns)
  have hmoves := happen_moves hs ev
  have htaken : (s.taken ev).settled = s.settled := by cases ev <;> rfl
  refine settled_share_congr ?_ t
  cases ev with
  | start call => exact absurd (congrArg some hconcerns) hother
  | work n =>
    obtain ⟨turns, job, hentry, hown⟩ := hconcerns
    simp only [scope, hentry] at hmoves
    cases turns with
    | succ turns => exact (hmoves.settled_eq fun _ => False.elim).trans htaken
    | zero =>
      have hhappen : s.happen (.work n) = (s.taken (.work n)).run job := by
        simp only [Deployment.happen, hentry, taken, turn]
      obtain hown | ⟨k, hlink, -⟩ := hown
      · exact (congrArg settled hhappen).trans (h.settled_run_eq hentry hown hother)
      · cases job with
        | linkSettled j outcome status => exact (hmoves.settled_eq fun _ => False.elim).trans htaken
        | _ => cases hlink
  | alarm n =>
    obtain ⟨⟨due, alarm⟩, htimer, -⟩ := hconcerns
    cases alarm with
    | deadline u text =>
      simp only [Deployment.happen, htimer, fire]
      exact settled_endWait (s.taken (.alarm n)) u _
    | reply turns job =>
      simp only [Deployment.happen, htimer, fire]
      rfl
    | sweep l name period =>
      simp only [scope, htimer, Option.map_some] at hmoves
      exact (hmoves.settled_eq fun _ => False.elim).trans htaken
  | abort signal => exact settled_abort s signal
  | hangUp u => exact settled_hangUp s u
  | _ => exact hconcerns.elim

theorem filter_reportOf (s : Deployment α) (c : Check α) (verdict : Except (Fault α) Bool) :
    (s.reportOf c verdict).filter Notice.isOnCheck = s.reportOf c verdict := by
  refine List.filter_eq_self.mpr fun notice hnotice => ?_
  have hall : ∀ l, notice ∈ s.noticesOf l c.bucket verdict → notice.isOnCheck = true := by
    intro l hmem
    unfold noticesOf at hmem
    split at hmem
    · split at hmem
      · next hjudge => exact Config.isOnCheck_of_judge hjudge notice hmem
      · cases hmem
    · cases hmem
  unfold reportOf at hnotice
  split at hnotice
  · cases hnotice
  all_goals exact hall _ hnotice

/-- Whatever a course settles a check with, whatever it reports about it and whatever becomes of its
request comes from the same conclusions. -/
theorem LeadsTo.after {s : Deployment α} {t : TaskId} {c : Check α}
    {verdict : Except (Fault α) Bool} (hs : s.Prompt) {events : List (Event α)}
    (h : ∀ before later, events = before ++ later → (s.after before).LeadsTo t c verdict) :
    ∃ n, ((s.after events).share t).settled =
        (s.share t).settled ++ List.replicate n (s.settlementOf c verdict) ∧
      s.reportsOn t events = (List.replicate n (s.reportOf c verdict)).flatten ∧
      s.exchangesOn t events = (List.replicate n (s.exchangeOf c verdict).toList).flatten := by
  induction events generalizing s with
  | nil => exact ⟨0, by simp, rfl, rfl⟩
  | cons ev events ih =>
    have hconfig := config?_happen hs ev
    obtain ⟨n, hsettled, hreports, hexchanges⟩ := ih (hs.happen ev) fun before later hevents =>
      h (ev :: before) later (congrArg (ev :: ·) hevents)
    rw [settlementOf_congr hconfig] at hsettled
    rw [reportOf_congr hconfig] at hreports
    rw [exchangeOf_congr hconfig] at hexchanges
    have hnow : s.LeadsTo t c verdict := h [] (ev :: events) rfl
    by_cases hconcludes : s.concluded? ev = some t
    · obtain ⟨i, progress, htask⟩ := hnow.task
      obtain ⟨k, other, rfl, hentry⟩ :=
        exists_work_of_concluded? (List.getElem?_eq_some_iff.mp htask).1 hconcludes
      obtain ⟨hends, hnotices, hexchanged⟩ := hnow.conclude hentry
      refine ⟨n + 1, ?_, ?_, ?_⟩
      · rw [after_cons, hsettled, hends, List.append_assoc, List.replicate_succ,
          List.singleton_append]
      · rw [reportsOn, if_pos hconcludes, hreports, reports_eq _ hnotices, filter_reportOf,
          List.replicate_succ, List.flatten_cons]
      · rw [exchangesOn, hexchanged, hexchanges, List.replicate_succ, List.flatten_cons]
    · refine ⟨n, ?_, ?_, ?_⟩
      · rw [after_cons, hsettled, hnow.settled_eq hs hconcludes]
      · rw [reportsOn, if_neg hconcludes, hreports, List.nil_append]
      · rw [exchangesOn, hnow.exchanged_eq hs hconcludes, hexchanges, List.nil_append]

end

end Admission.Deployment
