import Admission.Proofs.Deployment.Conclusion

/-!
What becomes of requests.

A request that passes through a limiter is attached to its check: its end would abandon the check.
When the check ends, the request is detached and handed on or refused, or neither if the check
fails. A task does this only where it may end, and nobody else does it for the task.
-/
namespace Admission

/-- What a decision makes of a request. -/
def Decision.exchange : Decision → Exchange
  | .allow => .handedOn
  | .deny => .refused
      { status := 429, message := "rate limit exceeded", field := "rate_limit"
        detail := "too many requests" }

namespace Deployment

variable {α : Type}

section

variable [Scalar α] {s s' : Deployment α} {p : Scope α} {t : TaskId}

/-- A request is attached and detached only where its task may end. -/
theorem Moves.mem_attached_iff (h : Moves p s s') (ht : ¬p.finish t) :
    t ∈ s'.attached ↔ t ∈ s.attached := by
  induction h with
  | refl => rfl
  | @tail s' m _ hm ih =>
    rw [← ih]
    cases m with
    | attach u =>
      have hne : t ≠ u := fun heq => ht (heq ▸ hm)
      simp [Move.apply, hne]
    | detach u =>
      have hne : t ≠ u := fun heq => ht (heq ▸ hm)
      simp [Move.apply, Deployment.detach, hne]
    | fill | join | unlink | consume | setInterval =>
      simp only [Move.apply]
      split <;> rfl
    | _ => rfl

theorem exchanges_hangUp (s : Deployment α) (u : TaskId) :
    (s.hangUp u).exchanges = s.exchanges := by
  unfold hangUp
  split
  · have haborted : Moves { Scope.any with finish := fun _ => False } (s.detach u)
        ((s.detach u).abort (.request u)) :=
      (Moves.refl _).abort trivial fun _ _ => ⟨trivial, trivial⟩
    exact haborted.exchanges_eq fun _ => id
  · rfl

end

/-- A request that is not held goes away unnoticed. -/
theorem hangUp_eq {s : Deployment α} {t : TaskId} (h : t ∉ s.attached) : s.hangUp t = s := by
  have hdetached : s.attached.contains t = false := by simpa using h
  rw [hangUp, hdetached]
  rfl

/-- What has become of the request of a task between one deployment and a later one. -/
def exchangesSince (s s' : Deployment α) (t : TaskId) : List Exchange :=
  ((s'.exchanges.drop s.exchanges.length).filter (·.1 == t)).map Prod.snd

theorem exchangesSince_eq {s s' : Deployment α} {more : List (TaskId × Exchange)}
    (h : s'.exchanges = s.exchanges ++ more) (t : TaskId) :
    s.exchangesSince s' t = (more.filter (·.1 == t)).map Prod.snd := by
  rw [exchangesSince, h, List.drop_left]

theorem exchangesSince_concat {s s' : Deployment α} {t : TaskId} {more : List Exchange}
    (h : s'.exchanges = s.exchanges ++ more.map (t, ·)) : s.exchangesSince s' t = more := by
  have hown : (more.map (t, ·)).filter (·.1 == t) = more.map (t, ·) := by
    refine List.filter_eq_self.mpr fun entry hentry => ?_
    obtain ⟨e, -, rfl⟩ := List.mem_map.mp hentry
    exact BEq.refl t
  rw [exchangesSince_eq h, hown, List.map_map]
  exact List.map_id more

section

variable [Scalar α] [Textual α] {s : Deployment α} {t : TaskId} {ev : Event α}

/-- What an event makes of the request of a task. -/
def exchanged (s : Deployment α) (t : TaskId) (ev : Event α) : List Exchange :=
  s.exchangesSince (s.happen ev) t

/-- All that becomes of the request of a task in a course. -/
def exchangesOn (s : Deployment α) (t : TaskId) : List (Event α) → List Exchange
  | [] => []
  | ev :: events => s.exchanged t ev ++ (s.happen ev).exchangesOn t events

omit [Scalar α] [Textual α] in
theorem exchanges_taken (s : Deployment α) (ev : Event α) :
    (s.taken ev).exchanges = s.exchanges := by
  cases ev <;> rfl

omit [Scalar α] [Textual α] in
theorem attached_taken (s : Deployment α) (ev : Event α) :
    (s.taken ev).attached = s.attached := by
  cases ev <;> rfl

theorem exists_exchanges_happen (hs : s.Prompt) (ev : Event α) :
    ∃ more, (s.happen ev).exchanges = s.exchanges ++ more ∧
      ∀ entry ∈ more, (s.scope ev).finish entry.1 := by
  obtain ⟨more, hexchanges, hmore⟩ := (happen_moves hs ev).exists_exchanges_eq
  exact ⟨more, by rw [hexchanges, exchanges_taken], hmore⟩

theorem exists_exchanges_after (hs : s.Prompt) (events : List (Event α)) :
    ∃ more, (s.after events).exchanges = s.exchanges ++ more := by
  induction events generalizing s with
  | nil => exact ⟨[], by simp⟩
  | cons ev events ih =>
    obtain ⟨now, hnow, -⟩ := exists_exchanges_happen hs ev
    obtain ⟨later, hlater⟩ := ih (hs.happen ev)
    exact ⟨now ++ later, by rw [after_cons, hlater, hnow, List.append_assoc]⟩

theorem exchangesSince_after (hs : s.Prompt) (t : TaskId) (events : List (Event α)) :
    s.exchangesSince (s.after events) t = s.exchangesOn t events := by
  induction events generalizing s with
  | nil => simp [exchangesSince, exchangesOn]
  | cons ev events ih =>
    obtain ⟨now, hnow, -⟩ := exists_exchanges_happen hs ev
    obtain ⟨later, hlater⟩ := exists_exchanges_after (hs.happen ev) events
    have hall : (s.after (ev :: events)).exchanges = s.exchanges ++ (now ++ later) := by
      rw [after_cons, hlater, hnow, List.append_assoc]
    rw [exchangesSince_eq hall, List.filter_append, List.map_append, exchangesOn, exchanged,
      exchangesSince_eq hnow, ← ih (hs.happen ev), exchangesSince_eq hlater]

/-- Where a task may not end, nothing becomes of its request. -/
theorem exchanged_eq_nil (hs : s.Prompt) (ht : ¬(s.scope ev).finish t) : s.exchanged t ev = [] := by
  obtain ⟨more, hexchanges, hmore⟩ := exists_exchanges_happen hs ev
  rw [exchanged, exchangesSince_eq hexchanges, List.map_eq_nil_iff, List.filter_eq_nil_iff]
  exact fun entry hentry heq => ht (beq_iff_eq.mp heq ▸ hmore entry hentry)

theorem exchanged_hangUp (s : Deployment α) (t u : TaskId) : s.exchanged t (.hangUp u) = [] := by
  have hsame : (s.happen (.hangUp u)).exchanges = s.exchanges ++ [] := by
    rw [List.append_nil]
    exact exchanges_hangUp s u
  exact exchangesSince_eq hsame t

omit [Textual α] in
theorem not_mem_attached_hangUp (s : Deployment α) (t : TaskId) : t ∉ (s.hangUp t).attached := by
  unfold hangUp
  split
  · have haborted : Moves { Scope.any with finish := fun _ => False } (s.detach t)
        ((s.detach t).abort (.request t)) :=
      (Moves.refl _).abort trivial fun _ _ => ⟨trivial, trivial⟩
    rw [haborted.mem_attached_iff id]
    simp [detach]
  · next hdetached => simpa using hdetached

theorem mem_attached_happen_iff (hs : s.Prompt) (ht : ¬(s.scope ev).finish t) :
    t ∈ (s.happen ev).attached ↔ t ∈ s.attached := by
  rw [(happen_moves hs ev).mem_attached_iff ht, attached_taken]

omit [Scalar α] [Textual α] in
/-- A task may end when it begins, when it has work to end with, and when its request goes away. -/
theorem finish_scope_cases (h : (s.scope ev).finish t) :
    t = s.tasks.length ∧ (∃ call, ev = .start call) ∨ ev = .hangUp t ∨
      ∃ n job, ev = .work n ∧ s.agenda[n]? = some (0, job) ∧
        ((∃ verdict, job = .conclude t verdict) ∨ (∃ outcome, job = .started t outcome) ∨
          ∃ outcome, job = .closed t outcome) := by
  cases ev with
  | start call => exact Or.inl ⟨h, call, rfl⟩
  | hangUp u => exact Or.inr (Or.inl (congrArg Event.hangUp (Eq.symm h)))
  | work n =>
    simp only [scope] at h
    split at h
    · next job hentry =>
      refine Or.inr (Or.inr ⟨n, job, rfl, hentry, ?_⟩)
      cases job with
      | conclude u verdict => exact Or.inl ⟨verdict, congrArg (Job.conclude · verdict) (Eq.symm h)⟩
      | started u outcome =>
        exact Or.inr (Or.inl ⟨outcome, congrArg (Job.started · outcome) (Eq.symm h)⟩)
      | closed u outcome =>
        exact Or.inr (Or.inr ⟨outcome, congrArg (Job.closed · outcome) (Eq.symm h)⟩)
      | _ => exact h.elim
    · exact h.elim
    · exact h.elim
  | alarm n =>
    simp only [scope] at h
    split at h <;> exact h.elim
  | _ => exact h.elim

theorem exchangeOf_congr {s s' : Deployment α} (h : ∀ l, s'.config? l = s.config? l) (c : Check α) :
    s'.exchangeOf c = s.exchangeOf c := by
  funext verdict
  simp only [exchangeOf, rulingOf, h]

end

end Deployment

end Admission
