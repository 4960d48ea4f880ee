import Admission.Proofs.Deployment.Requests
import Admission.Proofs.Deployment.Rounds

/-!
Checks that only their verdict is left of.

A check that a store answers by itself, or that is abandoned before it begins, has one piece of work
left: the conclusion that it comes to. The verdict is fixed from then on; it is on its way, its turn
comes, and the check is settled with it, once. Nothing else that happens touches the check.
-/
namespace Admission.Deployment

variable {α : Type}

/-- Where the verdict of a check is. -/
inductive Delivery where
  /-- The store has not answered yet. -/
  | awaited
  /-- The check is about to conclude. -/
  | ready
  | taken
  | settled
  /-- The store never answers. -/
  | silent

namespace Delivery

def share (t : TaskId) (verdict : Except (Fault α) Bool) (settlement : Settlement α) :
    Delivery → Share α
  | awaited => { awaited := {.conclude t verdict} }
  | ready => { ready := {.conclude t verdict} }
  | settled => { settled := [settlement] }
  | taken | silent => {}

end Delivery

section

variable [Scalar α] [Textual α]

/-- The verdict on a check of a task is so far, given the deployment in which the check began. -/
structure Delivers (s₀ : Deployment α) (t : TaskId) (i : StoreId) (c : Check α)
    (verdict : Except (Fault α) Bool) (s : Deployment α) (d : Delivery) : Prop where
  task : ∃ progress, s.tasks[t]? = some ⟨i, .check c, progress⟩
  share : s.share t = d.share t verdict (s₀.settlementOf c verdict)
  config : ∀ l, s.config? l = s₀.config? l
  unwaiting : ∀ stage, s.tasks[t]?.map Task.progress ≠ some (.waiting stage)

namespace Delivers

variable {s₀ s s' : Deployment α} {t : TaskId} {i : StoreId} {c : Check α}
  {verdict : Except (Fault α) Bool} {d : Delivery}

theorem lt (h : Delivers s₀ t i c verdict s d) : t < s.tasks.length := by
  obtain ⟨progress, ht⟩ := h.task
  exact (List.getElem?_eq_some_iff.mp ht).1

/-- Moves for other tasks leave the check alone. -/
theorem moves (h : Delivers s₀ t i c verdict s d) {p : Scope α} (hmoves : Moves p s s')
    (ht : ¬p.task t) (hjob : ∀ job, p.job job → job.owner? ≠ some t)
    (hunlink : ∀ i, p.unlink i → (s.share t).queued i = 0) : Delivers s₀ t i c verdict s' d where
  task := hmoves.tasks_eq ht h.lt ▸ h.task
  share := (hmoves.share_eq ht hjob hunlink).trans h.share
  config l := (hmoves.config?_eq l).trans (h.config l)
  unwaiting := hmoves.tasks_eq ht h.lt ▸ h.unwaiting

theorem happen_other (h : Delivers s₀ t i c verdict s d) (hs : s.Prompt) {ev : Event α}
    (hother : ¬s.Concerns t ev) : Delivers s₀ t i c verdict (s.happen ev) d := by
  obtain ⟨htaken, htask, hjob, hunlink⟩ := scope_other hother
  have hbefore : Delivers s₀ t i c verdict (s.taken ev) d := by
    refine ⟨by rw [tasks_taken]; exact h.task, htaken.trans h.share, fun l => ?_,
      by rw [tasks_taken]; exact h.unwaiting⟩
    rw [← h.config l]
    cases ev <;> rfl
  exact hbefore.moves (happen_moves hs ev) htask hjob (htaken ▸ hunlink)

theorem post_ready (h : Delivers s₀ t i c verdict s .taken) (turns : Nat) :
    Delivers s₀ t i c verdict (s.post turns (.conclude t verdict)) .ready := by
  refine ⟨h.task, ?_, h.config, h.unwaiting⟩
  rw [share_post_own rfl, h.share]
  rfl

theorem setTimer_awaited (h : Delivers s₀ t i c verdict s .taken) (delay : α) (turns : Nat) :
    Delivers s₀ t i c verdict (s.setTimer delay (.reply turns (.conclude t verdict))) .awaited := by
  refine ⟨h.task, ?_, h.config, h.unwaiting⟩
  rw [share_setTimer_own rfl, h.share]
  rfl

theorem conclude (h : Delivers s₀ t i c verdict s .taken) :
    Delivers s₀ t i c verdict (s.conclude t verdict) .settled ∧
      (s.conclude t verdict).notices = s.notices ++ s₀.reportOf c verdict ∧
      (s.conclude t verdict).exchanges =
        s.exchanges ++ (s₀.exchangeOf c verdict).toList.map (t, ·) ∧
      (s.conclude t verdict).attached = s.attachedOf t c := by
  obtain ⟨progress, ht⟩ := h.task
  have heq := conclude_eq_settle (c := c) (by rw [ht]; rfl) verdict
  have hmoves : Moves .any s (s.conclude t verdict) :=
    (Moves.refl s).conclude trivial trivial (fun _ _ => trivial) _
  have hended : (s.conclude t verdict).tasks[t]? = some ⟨i, .check c, .ended⟩ := by
    rw [heq]
    simp [settle, setProgress, ht]
  refine ⟨⟨⟨.ended, hended⟩, ?_, fun l => (hmoves.config?_eq l).trans (h.config l),
    by simp [hended]⟩, ?_, ?_, ?_⟩
  · have hshare : ({ s with
        notices := s.notices ++ s.reportOf c verdict
        attached := s.attachedOf t c
        exchanges := s.exchanges ++ (s.exchangeOf c verdict).toList.map (t, ·) } :
        Deployment α).share t = s.share t := rfl
    rw [heq, share_settle_own, hshare, h.share, settlementOf_congr h.config]
    rfl
  · rw [heq, ← reportOf_congr h.config]
    rfl
  · rw [heq, ← exchangeOf_congr h.config]
    rfl
  · rw [heq]
    rfl

theorem happen_own (h : Delivers s₀ t i c verdict s d) {n turns : Nat} {job : Job α}
    (hentry : s.agenda[n]? = some (turns, job)) (hown : job.owner? = some t) :
    d = .ready ∧ ((Delivers s₀ t i c verdict (s.happen (.work n)) .ready ∧
        (s.happen (.work n)).notices = s.notices) ∨
      Delivers s₀ t i c verdict (s.happen (.work n)) .settled ∧
        (s.happen (.work n)).notices = s.notices ++ s₀.reportOf c verdict) := by
  have hmem := mem_ready_share hentry hown
  have hshare := share_taken_work_own hentry hown
  rw [h.share] at hmem hshare
  obtain ⟨hdeadlines, hlisteners, hsettled, hready, hawaited, hqueued⟩ := Share.ext_iff.mp hshare
  cases d with
  | ready =>
    obtain rfl := Multiset.mem_singleton.mp hmem
    have hnone : (0 : Multiset (Job α)) = ((s.taken (.work n)).share t).ready :=
      (Multiset.cons_inj_right _).mp (show Job.conclude t verdict ::ₘ 0 = _ from hready)
    have htaken : Delivers s₀ t i c verdict (s.taken (.work n)) .taken := by
      refine ⟨h.task, ?_, h.config, h.unwaiting⟩
      ext1
      · exact hdeadlines.symm
      · exact hlisteners.symm
      · exact hsettled.symm
      · exact hnone.symm
      · exact hawaited.symm
      · exact hqueued.symm
    have hhappen : s.happen (.work n) = (s.taken (.work n)).turn (turns, .conclude t verdict) := by
      simp only [happen, hentry, taken]
    refine ⟨rfl, ?_⟩
    rw [hhappen]
    cases turns with
    | zero =>
      obtain ⟨hsettled, hnotices, -⟩ := htaken.conclude
      exact Or.inr ⟨hsettled, hnotices⟩
    | succ turns => exact Or.inl ⟨htaken.post_ready turns, rfl⟩
  | _ => exact absurd hmem (Multiset.notMem_zero job)

theorem happen_reply (h : Delivers s₀ t i c verdict s d) {n : Nat} {timer : Timer α} {job : Job α}
    (htimer : s.timers[n]? = some timer) (hreply : timer.reply? = some job)
    (hown : job.owner? = some t) :
    d = .awaited ∧ Delivers s₀ t i c verdict (s.happen (.alarm n)) .ready ∧
      (s.happen (.alarm n)).notices = s.notices := by
  have hmem := mem_awaited_share htimer hreply hown
  have hshare := share_taken_reply htimer hreply hown
  rw [h.share] at hmem hshare
  obtain ⟨hdeadlines, hlisteners, hsettled, hready, hawaited, hqueued⟩ := Share.ext_iff.mp hshare
  cases d with
  | awaited =>
    obtain rfl := Multiset.mem_singleton.mp hmem
    have hnone : (0 : Multiset (Job α)) = ((s.taken (.alarm n)).share t).awaited :=
      (Multiset.cons_inj_right _).mp (show Job.conclude t verdict ::ₘ 0 = _ from hawaited)
    have htaken : Delivers s₀ t i c verdict (s.taken (.alarm n)) .taken := by
      refine ⟨h.task, ?_, h.config, h.unwaiting⟩
      ext1
      · exact hdeadlines.symm
      · exact hlisteners.symm
      · exact hsettled.symm
      · exact hready.symm
      · exact hnone.symm
      · exact hqueued.symm
    obtain ⟨due, alarm⟩ := timer
    obtain ⟨turns, rfl⟩ : ∃ turns, alarm = .reply turns (.conclude t verdict) := by
      cases alarm with
      | reply turns job => exact ⟨turns, by cases hreply; rfl⟩
      | _ => cases hreply
    have hhappen : s.happen (.alarm n) =
        (s.taken (.alarm n)).post turns (.conclude t verdict) := by
      simp only [happen, htimer, taken, fire]
    rw [hhappen]
    exact ⟨rfl, htaken.post_ready turns, rfl⟩
  | _ => exact absurd hmem (Multiset.notMem_zero job)

/-- Nothing but its conclusion settles the check, and nothing else reports on it. -/
theorem happen (h : Delivers s₀ t i c verdict s d) (hs : s.Prompt) (hd : d ≠ .taken)
    (ev : Event α) :
    ∃ d', Delivers s₀ t i c verdict (s.happen ev) d' ∧ d' ≠ .taken ∧
      (d' = .settled → d = .settled ∨
        d = .ready ∧ (s.happen ev).notices = s.notices ++ s₀.reportOf c verdict) ∧
      (d' = .silent ↔ d = .silent) ∧ (d' = .awaited → d = .awaited) := by
  by_cases hconcerns : s.Concerns t ev
  · have hlistens : ∀ signal, signal ∉ (s.share t).listeners := by
      intro signal
      rw [h.share]
      cases d <;> exact List.not_mem_nil
    cases ev with
    | start call => exact absurd hconcerns (Nat.ne_of_gt h.lt)
    | work n =>
      obtain ⟨turns, job, hentry, hown | ⟨k, -, hqueued⟩⟩ := hconcerns
      · obtain ⟨rfl, ⟨hready, -⟩ | ⟨hsettled, hnotices⟩⟩ := h.happen_own hentry hown
        · exact ⟨.ready, hready, nofun, nofun, by simp, nofun⟩
        · exact ⟨.settled, hsettled, nofun, fun _ => Or.inr ⟨rfl, hnotices⟩, by simp, nofun⟩
      · rw [h.share] at hqueued
        cases d <;> exact absurd hqueued (Nat.lt_irrefl 0)
    | alarm n =>
      obtain ⟨timer, htimer, hdeadline | ⟨job, hreply, hown⟩⟩ := hconcerns
      · have hmem := mem_deadlines_share htimer hdeadline
        rw [h.share] at hmem
        cases d <;> cases hmem
      · obtain ⟨rfl, hready, -⟩ := h.happen_reply htimer hreply hown
        exact ⟨.ready, hready, nofun, nofun, by simp, nofun⟩
    | abort signal => exact absurd hconcerns (hlistens signal)
    | hangUp u => exact absurd hconcerns (hlistens _)
    | _ => exact hconcerns.elim
  · exact ⟨d, h.happen_other hs hconcerns, hd, Or.inl, Iff.rfl, id⟩

/-- A course settles the check at one point at most, and reports on it there. -/
theorem after (h : Delivers s₀ t i c verdict s d) (hs : s.Prompt) (hd : d ≠ .taken)
    (events : List (Event α)) :
    ∃ d', Delivers s₀ t i c verdict (s.after events) d' ∧ d' ≠ .taken ∧
      (d' = .settled → d = .settled ∨ ∃ before ev later, events = before ++ ev :: later ∧
        ((s.after before).share t).settled = [] ∧
        ((s.after before).happen ev).notices =
          (s.after before).notices ++ s₀.reportOf c verdict) ∧
      (d' = .silent ↔ d = .silent) ∧ (d' = .awaited → d = .awaited) := by
  induction events generalizing s d with
  | nil => exact ⟨d, h, hd, Or.inl, Iff.rfl, id⟩
  | cons ev events ih =>
    obtain ⟨d₁, hnext, hd₁, hsettled, hsilent, hawaited⟩ := h.happen hs hd ev
    obtain ⟨d', hlast, hd', hsettled', hsilent', hawaited'⟩ := ih hnext (hs.happen ev) hd₁
    refine ⟨d', hlast, hd', fun hdone => ?_, hsilent'.trans hsilent, hawaited ∘ hawaited'⟩
    obtain hbefore | ⟨before, ev', later, hevents, hnone, hnotices⟩ := hsettled' hdone
    · obtain hold | ⟨rfl, hnotices⟩ := hsettled hbefore
      · exact Or.inl hold
      · exact Or.inr ⟨[], ev, events, rfl, by rw [after_nil, h.share]; rfl, hnotices⟩
    · exact Or.inr ⟨ev :: before, ev', later, by rw [hevents]; rfl, hnone, hnotices⟩

/-- Once the store has answered and all ready work has taken its turns, the check is settled. -/
theorem drain (h : Delivers s₀ t i c verdict s d) (hs : s.Prompt) (hd : d = .ready ∨ d = .settled) :
    (s.drain.share t).settled = [s₀.settlementOf c verdict] := by
  obtain ⟨turns, hturns⟩ := s.exists_after_drain
  have hidle := agenda_drain hs
  rw [hturns] at hidle ⊢
  obtain ⟨htaken, hanswered, harrived⟩ : d ≠ .taken ∧ d ≠ .silent ∧ d ≠ .awaited := by
    rcases hd with rfl | rfl <;> simp
  obtain ⟨d', hlast, hd', -, hsilent, hawaited⟩ :=
    h.after hs htaken (List.replicate turns (.work 0))
  have hready : (d'.share t verdict (s₀.settlementOf c verdict)).ready = 0 := by
    rw [← hlast.share]
    simp [Deployment.share, Deployment.ready, hidle]
  rw [hlast.share]
  cases d' with
  | settled => rfl
  | ready => exact absurd hready (Multiset.singleton_ne_zero _)
  | taken => exact absurd rfl hd'
  | silent => exact absurd (hsilent.mp rfl) hanswered
  | awaited => exact absurd (hawaited rfl) harrived

end Delivers

/-- A check has nothing of its own as long as its store has not been asked. -/
theorem delivers_newTask {s : Deployment α} (hs : s.Clear) (i : StoreId) (c : Check α)
    (verdict : Except (Fault α) Bool) :
    Delivers s s.tasks.length i c verdict (s.newTask i (.check c)).2 .taken where
  task := ⟨.running, List.getElem?_concat_length⟩
  share := hs.share
  config _ := rfl
  unwaiting stage := by simp [newTask]

end

end Admission.Deployment
