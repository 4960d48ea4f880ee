import Admission.Proofs.Deployment.Share

/-!
How a check ends, depending on who asked.

The settlement of a check and what is reported about it follow from its verdict and the
configuration of the limiter that asked. No configuration ever changes, so both are known as soon as
the verdict is.
-/
namespace Admission.Deployment

variable {α : Type}

/-- The configuration of a limiter. -/
def config? (s : Deployment α) (l : LimiterId) : Option (Config α) :=
  s.limiters[l]?.map Limiter.config

theorem config?_eq_some {s : Deployment α} {l : LimiterId} {limiter : Limiter α}
    (hlimiter : s.limiters[l]? = some limiter) : s.config? l = some limiter.config := by
  rw [config?, hlimiter, Option.map_some]

section

variable [Scalar α]

/-- What is known of a limiter apart from its regular sweep never changes. -/
theorem Move.map_limiters_apply {β : Type} {f : Limiter α → β}
    (hf : ∀ limiter interval, f { limiter with interval } = f limiter) (m : Move α)
    (s : Deployment α) (l : LimiterId) :
    (m.apply s).limiters[l]?.map f = s.limiters[l]?.map f := by
  cases m with
  | setInterval k name =>
    simp only [Move.apply]
    split
    · next limiter hlimiter =>
      unfold Deployment.setLimiter
      by_cases hk : k = l
      · subst hk
        have hlt : k < s.limiters.length := (List.getElem?_eq_some_iff.mp hlimiter).1
        rw [List.getElem?_set_self hlt, hlimiter]
        exact congrArg some (hf limiter name)
      · rw [List.getElem?_set_ne hk]
    · rfl
  | fill | join | unlink | consume =>
    simp only [Move.apply]
    split <;> rfl
  | _ => rfl

theorem Moves.map_limiters_eq {β : Type} {f : Limiter α → β}
    (hf : ∀ limiter interval, f { limiter with interval } = f limiter) {p : Scope α}
    {s s' : Deployment α} (h : Moves p s s') (l : LimiterId) :
    s'.limiters[l]?.map f = s.limiters[l]?.map f := by
  induction h with
  | refl => rfl
  | tail m _ _ ih => exact (m.map_limiters_apply hf _ l).trans ih

theorem Moves.config?_eq {p : Scope α} {s s' : Deployment α} (h : Moves p s s') (l : LimiterId) :
    s'.config? l = s.config? l := h.map_limiters_eq (fun _ _ => rfl) l

variable [Textual α]

theorem config?_happen {s : Deployment α} (hs : s.Prompt) (ev : Event α) (l : LimiterId) :
    (s.happen ev).config? l = s.config? l := by
  refine ((happen_moves hs ev).config?_eq l).trans ?_
  cases ev <;> rfl

theorem config?_after {s : Deployment α} (hs : s.Prompt) (events : List (Event α)) (l : LimiterId) :
    (s.after events).config? l = s.config? l := by
  induction events generalizing s with
  | nil => rfl
  | cons ev events ih => exact (ih (hs.happen ev)).trans (config?_happen hs ev l)

/-- What a limiter decides on a check, unless its report cannot be put into words. -/
def rulingOf (s : Deployment α) (l : LimiterId) (key : Key) (verdict : Except (Fault α) Bool) :
    Except (Fault α) Decision :=
  match s.config? l with
  | some config => (config.judge key verdict).map Prod.fst
  | none => .ok .deny

/-- What a limiter reports about a check. -/
def noticesOf (s : Deployment α) (l : LimiterId) (key : Key) (verdict : Except (Fault α) Bool) :
    List (Notice α) :=
  match s.config? l with
  | some config =>
    match config.judge key verdict with
    | .ok (_, notices) => notices
    | .error _ => []
  | none => []

/-- How a check ends. -/
def settlementOf (s : Deployment α) (c : Check α) (verdict : Except (Fault α) Bool) :
    Settlement α :=
  match c.origin with
  | .store =>
    match verdict with
    | .ok allowed => .verdict allowed
    | .error fault => .failed fault
  | .limiter l =>
    match s.rulingOf l c.bucket verdict with
    | .ok decision => .decision decision
    | .error fault => .failed fault
  | .middleware l =>
    match s.rulingOf l c.bucket verdict with
    | .ok _ => .done
    | .error fault => .failed fault
  | .guard l =>
    match s.rulingOf l c.bucket verdict with
    | .ok .allow => .admitted
    | .ok .deny => .failed .limitExceeded
    | .error fault => .failed fault

/-- What is reported about a check when it ends. -/
def reportOf (s : Deployment α) (c : Check α) (verdict : Except (Fault α) Bool) : List (Notice α) :=
  match c.origin with
  | .store => []
  | .limiter l | .middleware l | .guard l => s.noticesOf l c.bucket verdict

theorem settlementOf_congr {s s' : Deployment α} (h : ∀ l, s'.config? l = s.config? l)
    (c : Check α) : s'.settlementOf c = s.settlementOf c := by
  funext verdict
  simp only [settlementOf, rulingOf, h]

theorem Moves.settlementOf_eq {p : Scope α} {s s' : Deployment α} (h : Moves p s s')
    (c : Check α) : s'.settlementOf c = s.settlementOf c := settlementOf_congr h.config?_eq c

theorem settlementOf_happen {s : Deployment α} (hs : s.Prompt) (ev : Event α) (c : Check α) :
    (s.happen ev).settlementOf c = s.settlementOf c :=
  settlementOf_congr (config?_happen hs ev) c

theorem reportOf_congr {s s' : Deployment α} (h : ∀ l, s'.config? l = s.config? l) (c : Check α) :
    s'.reportOf c = s.reportOf c := by
  funext verdict
  simp only [reportOf, noticesOf, h]

/-- Judging a check comes to a ruling and adds to the log. -/
theorem judge_eq (s : Deployment α) (l : LimiterId) (key : Key) (verdict : Except (Fault α) Bool) :
    s.judge l key verdict =
      (s.rulingOf l key verdict, { s with notices := s.notices ++ s.noticesOf l key verdict }) := by
  unfold judge rulingOf noticesOf config?
  cases s.limiters[l]? with
  | none => simp
  | some limiter =>
    simp only [Option.map_some]
    cases limiter.config.judge key verdict with
    | error fault => simp [Except.map]
    | ok ruling => simp [Except.map]

/-- What becomes of the request of a check that ends. -/
def exchangeOf (s : Deployment α) (c : Check α) (verdict : Except (Fault α) Bool) :
    Option Exchange :=
  match c.origin with
  | .middleware l =>
    match s.rulingOf l c.bucket verdict with
    | .ok .allow => some .handedOn
    | .ok .deny => some (.refused refusal)
    | .error _ => none
  | _ => none

/-- The requests that are still attached when a check ends. -/
def attachedOf (s : Deployment α) (t : TaskId) (c : Check α) : List TaskId :=
  match c.origin with
  | .middleware _ => s.attached.filter (· != t)
  | _ => s.attached

/-- All that happens when a check ends. -/
theorem conclude_eq_settle {s : Deployment α} {t : TaskId} {c : Check α}
    (ht : s.tasks[t]?.map Task.purpose = some (.check c)) (verdict : Except (Fault α) Bool) :
    s.conclude t verdict =
      { s with
        notices := s.notices ++ s.reportOf c verdict
        attached := s.attachedOf t c
        exchanges := s.exchanges ++ (s.exchangeOf c verdict).toList.map (t, ·) }.settle t
          (s.settlementOf c verdict) := by
  unfold conclude settlementOf reportOf exchangeOf attachedOf
  simp only [ht, judge_eq]
  cases c.origin with
  | store => cases verdict <;> simp
  | limiter l =>
    dsimp only
    cases s.rulingOf l c.bucket verdict <;> simp
  | middleware l =>
    dsimp only
    obtain fault | _ | _ := s.rulingOf l c.bucket verdict <;> simp [detach, exchange]
  | guard l =>
    dsimp only
    obtain fault | _ | _ := s.rulingOf l c.bucket verdict <;> simp

theorem conclude_eq {s : Deployment α} {t : TaskId} {i : StoreId} {c : Check α}
    {progress : Progress α} (ht : s.tasks[t]? = some ⟨i, .check c, progress⟩)
    (verdict : Except (Fault α) Bool) :
    ∃ s' : Deployment α, s.conclude t verdict = s'.settle t (s.settlementOf c verdict) ∧
      s'.tasks = s.tasks ∧ s'.share = s.share ∧ s'.notices = s.notices ++ s.reportOf c verdict :=
  ⟨_, conclude_eq_settle (by rw [ht]; rfl) verdict, rfl, rfl, rfl⟩

end

end Admission.Deployment
