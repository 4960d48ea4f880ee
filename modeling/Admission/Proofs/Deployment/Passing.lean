import Admission.Proofs.Deployment.Policy

/-!
Requests on their way through a limiter.

A request that passes through a limiter is handed on or refused as the limiter decides, once, when
its check ends. Until then its end abandons the check, which the policy for failures decides on the
spot. Where there is no decision the request is neither handed on nor refused: a key rule that fails
is one reason, and a report that cannot be put into words is the other. After its check has ended
nothing that happens touches the request any more.
-/
namespace Admission

namespace Config

variable {α : Type} [Scalar α] [Textual α]

/-- What a limiter decides on a check, if its report can be put into words. -/
def ruling (c : Config α) (key : Key) (verdict : Except (Fault α) Bool) :
    Except (Fault α) Decision :=
  (c.judge key verdict).map Prod.fst

theorem ruling_eq_error_iff {c : Config α} {key : Key} {verdict : Except (Fault α) Bool}
    {fault : Fault α} :
    c.ruling key verdict = .error fault ↔
      fault = .wordless ∧ report? key (c.decisionOn verdict) verdict = none := by
  rw [ruling, judge_eq]
  cases report? key (c.decisionOn verdict) verdict with
  | none => simp [Except.map, eq_comm]
  | some notices => simp [Except.map]

end Config

namespace Deployment

variable {α : Type} [Scalar α] [Textual α]

theorem rulingOf_eq {s : Deployment α} {l : LimiterId} {limiter : Limiter α}
    (hlimiter : s.limiters[l]? = some limiter) : s.rulingOf l = limiter.config.ruling := by
  funext key verdict
  simp only [rulingOf, config?_eq_some hlimiter]
  rfl

/-! Requests whose check has ended -/

/-- The check of a task has ended, and its request is let go. -/
structure Parted (s : Deployment α) (t : TaskId) : Prop where
  settled : (s.share t).settled ≠ []
  detached : t ∉ s.attached

namespace Parted

variable {s : Deployment α} {t : TaskId} {ev : Event α}

theorem lt (h : s.Parted t) (hs : s.Reachable) : t < s.tasks.length := by
  refine Nat.lt_of_not_le fun hle => h.settled ?_
  rw [hs.share_eq hle]

/-- A check that has ended has nothing left to end with. -/
theorem eq_hangUp (h : s.Parted t) (hs : s.Reachable) (hfinish : (s.scope ev).finish t) :
    ev = .hangUp t := by
  obtain ⟨rfl, -⟩ | rfl | ⟨n, job, rfl, hentry, hjob⟩ := finish_scope_cases hfinish
  · exact absurd (h.lt hs) (Nat.lt_irrefl _)
  · rfl
  · refine absurd (hs.settled_eq_nil hentry ?_) h.settled
    obtain ⟨verdict, rfl⟩ | ⟨outcome, rfl⟩ | ⟨outcome, rfl⟩ := hjob <;> exact beq_self_eq_true t

theorem isAborted_eq (h : s.Parted t) (hs : s.Prompt) (hev : ev ≠ .abort (.request t)) :
    (s.happen ev).isAborted (some (.request t)) = s.isAborted (some (.request t)) := by
  by_cases hsignal : (s.scope ev).signal (.request t)
  · obtain rfl : ev = .hangUp t := by
      cases ev with
      | abort signal => exact absurd (congrArg Event.abort (Eq.symm hsignal)) hev
      | hangUp u =>
        cases hsignal
        rfl
      | work n =>
        simp only [scope] at hsignal
        split at hsignal
        · next job _ => cases job <;> exact hsignal.elim
        · exact hsignal.elim
        · exact hsignal.elim
      | alarm n =>
        simp only [scope] at hsignal
        split at hsignal <;> exact hsignal.elim
      | _ => exact hsignal.elim
    exact congrArg (isAborted · (some (.request t))) (hangUp_eq h.detached)
  · rw [(happen_moves hs ev).isAborted_eq hsignal]
    cases ev <;> rfl

/-- Whatever happens, the request is let go for good, and nothing becomes of it. -/
theorem happen (h : s.Parted t) (hs : s.Reachable) (ev : Event α) :
    (s.happen ev).Parted t ∧ s.exchanged t ev = [] := by
  by_cases hfinish : (s.scope ev).finish t
  · obtain rfl := h.eq_hangUp hs hfinish
    have hsame : s.happen (.hangUp t) = s := hangUp_eq h.detached
    exact ⟨hsame.symm ▸ h, exchanged_hangUp s t t⟩
  · refine ⟨⟨?_, ?_⟩, exchanged_eq_nil hs.prompt hfinish⟩
    · obtain ⟨settlement, hsettlement⟩ := List.exists_mem_of_ne_nil _ h.settled
      have hkept : ((s.happen ev).share t).settled = [settlement] :=
        hs.settled_after hsettlement [ev]
      simp [hkept]
    · rw [mem_attached_happen_iff hs.prompt hfinish]
      exact h.detached

theorem after (h : s.Parted t) (hs : s.Reachable) (events : List (Event α)) :
    (s.after events).Parted t ∧ s.exchangesOn t events = [] ∧
      (.abort (.request t) ∉ events →
        (s.after events).isAborted (some (.request t)) = s.isAborted (some (.request t))) := by
  induction events generalizing s with
  | nil => exact ⟨h, rfl, fun _ => rfl⟩
  | cons ev events ih =>
    obtain ⟨hnext, hnone⟩ := h.happen hs ev
    obtain ⟨hlast, hlater, haborted⟩ := ih hnext (hs.happen ev)
    refine ⟨hlast, by rw [exchangesOn, hnone, hlater, List.append_nil], fun hmem => ?_⟩
    obtain ⟨hev, hrest⟩ := List.ne_and_not_mem_of_not_mem_cons hmem
    rw [after_cons, haborted hrest, h.isAborted_eq hs.prompt (Ne.symm hev)]

end Parted

/-! Requests whose check is waiting -/

/-- As long as nothing ends the wait of the check of a request, it holds the request. -/
theorem Journey.Stands.attached_after {j : Journey α} {s : Deployment α} {e : Errand α}
    (h : j.Stands s e .waiting) (hs : s.Prompt) (hsignal : j.check.signal = some (.request j.task))
    (hlive : s.isAborted j.check.signal = false) (hattached : j.task ∈ s.attached)
    {events : List (Event α)} (hnone : s.firstEnding? j.task j.check.signal events = none) :
    j.task ∈ (s.after events).attached := by
  induction events generalizing s e with
  | nil => exact hattached
  | cons ev events ih =>
    obtain ⟨hnow, hlater⟩ := Option.or_eq_none_iff.mp hnone
    obtain ⟨e', w', hstep⟩ := h.happen hs (fun _ => hlive) ev
    obtain rfl : w' = .waiting := by
      rw [← Wait.end?_eq_none_iff, hstep.wait, hnow]
      rfl
    refine ih hstep.stands (hs.happen ev) (live_happen hs hlive hnow) ?_ hlater
    by_cases hfinish : (s.scope ev).finish j.task
    · have hleads : ∀ verdict, s.LeadsTo j.task j.check verdict := fun verdict => h.leadsTo nofun
      obtain hconcluded | rfl := (hleads (.ok true)).finish_cases hfinish
      · obtain ⟨n, other, rfl, hentry⟩ := exists_work_of_concluded? h.lt hconcluded
        have hready := mem_ready_share hentry rfl
        have hboth := ((hleads (.ok true)).ready _ hready).2 other rfl
        cases hboth.symm.trans (((hleads (.ok false)).ready _ hready).2 other rfl)
      · simp [ending?, hsignal, hattached] at hnow
    · rwa [mem_attached_happen_iff hs hfinish]

/-- Only a check on a store in Redis waits, and only as long as nothing has put an end to it. -/
theorem exists_remote_of_waiting {s : Deployment α} {attached : List TaskId} {call : Start α}
    {i : StoreId} {c : Check α} {events : List (Event α)} (hs : s.Reachable)
    (hstart : s.start call = ({ s with attached } : Deployment α).startCheck i c) {stage : Stage}
    (hwaiting : (s.after (.start call :: events)).tasks[s.tasks.length]?.map Task.progress =
      some (.waiting stage)) :
    ∃ store milliseconds, s.remote? i = some store ∧ s.isAborted c.signal = false ∧
      s.Promises store ∧ textOrMissing? store.options.timeout = some milliseconds ∧
      (s.start call).firstEnding? s.tasks.length c.signal events = none := by
  have hclear := hs.clear.attached attached
  have hprompt : (s.start call).Prompt := hs.prompt.happen (.start call)
  have hdelivers : ∀ {verdict} (d : Delivery), d ≠ .taken →
      ¬Delivers { s with attached } s.tasks.length i c verdict (s.start call) d := by
    intro verdict d hrests hd
    obtain ⟨d', hd', -⟩ := hd.after hprompt hrests events
    exact hd'.unwaiting stage hwaiting
  obtain ⟨verdict?, hanswers⟩ := s.exists_answers call i c events
  cases hanswers with
  | absent hstore =>
    have hbegun := startCheck_absent hclear hstore c (.ok true)
    exact absurd (hstart ▸ hbegun.delivers) (hdelivers .silent nofun)
  | memory hstore =>
    obtain ⟨d, hbegun, -⟩ := startCheck_memory hclear hstore c
    exact absurd (hstart ▸ hbegun.delivers) (hdelivers d hbegun.rests)
  | outstanding hstore | scripted hstore =>
    obtain ⟨verdict, d, -, hbegun, -⟩ := startCheck_scripted hclear hstore c rfl
    exact absurd (hstart ▸ hbegun.delivers) (hdelivers d hbegun.rests)
  | abandoned hstore haborted =>
    exact absurd (hstart ▸ startCheck_aborted hclear hstore haborted) (hdelivers .ready nofun)
  | unlinkable hstore hlive howned hnone hstatus hthrows =>
    have hready := startCheck_unlinkable hclear hstore hlive howned hnone hstatus
      ((reply_congr s { s with attached } rfl rfl rfl _ _).trans hthrows)
    exact absurd (hstart ▸ hready) (hdelivers .ready nofun)
  | unreadable hstore hlive hpromise htext =>
    obtain ⟨e, w, hrun⟩ := startCheck_runsTo_unreadable hclear hstore hlive htext
      (hpromise.attached attached) "" events
    rw [← hstart] at hrun
    obtain rfl := hrun.stands.eq_waiting hwaiting
    cases hrun.wait
  | @waiting store hstore hlive hpromise milliseconds htext =>
    refine ⟨store, milliseconds, hstore, hlive, hpromise, htext, ?_⟩
    obtain ⟨e, w, hrun⟩ :=
      startCheck_runsTo hclear hstore hlive htext (hpromise.attached attached) events
    rw [← hstart] at hrun
    obtain rfl := hrun.stands.eq_waiting hwaiting
    have hend : none = ((s.start call).firstEnding? s.tasks.length c.signal events).map
        (Ending.outcome? milliseconds) := hrun.wait
    exact Option.map_eq_none_iff.mp hend.symm

/-! Calls that let a request pass -/

/-- The check that a request comes to when it passes through a limiter under a key. -/
def passing (s : Deployment α) (l : LimiterId) (limiter : Limiter α) (request : Option (Request α))
    (key : Option (Value α)) : Check α :=
  ⟨.middleware l, key, .ofValue (limiter.config.keyRule.maker request s.tasks.length) key,
    s.timeOr none, some (.request s.tasks.length)⟩

/-- A call that lets a request pass has ended. A decision hands the request on or refuses it, and a
failure leaves it alone. -/
def Fares (s : Deployment α) (ruling : Except (Fault α) Decision) (s' : Deployment α) : Prop :=
  match ruling with
  | .ok decision => (s'.share s.tasks.length).settled = [.done] ∧
      s.exchangesSince s' s.tasks.length = [decision.exchange]
  | .error fault => (s'.share s.tasks.length).settled = [.failed fault] ∧
      s.exchangesSince s' s.tasks.length = []

/-- Nothing that happens later touches the request of a task: it is neither handed on nor refused,
and nobody hears of its end. -/
structure LeavesAlone (s : Deployment α) (t : TaskId) : Prop where
  detached : t ∉ s.attached
  settled : ∀ later, ((s.after later).share t).settled = (s.share t).settled
  exchanges : ∀ later, s.exchangesSince (s.after later) t = []
  remains : ∀ later, t ∉ (s.after later).attached
  signal : ∀ later, .abort (.request t) ∉ later →
    (s.after later).isAborted (some (.request t)) = s.isAborted (some (.request t))

theorem Parted.leavesAlone {s : Deployment α} {t : TaskId} (h : s.Parted t) (hs : s.Reachable) :
    s.LeavesAlone t where
  detached := h.detached
  settled later := by
    obtain ⟨settlement, hsettlement⟩ := List.exists_mem_of_ne_nil _ h.settled
    exact (hs.settled_after hsettlement later).trans (hs.settled_after hsettlement []).symm
  exchanges later := (exchangesSince_after hs.prompt t later).trans (h.after hs later).2.1
  remains later := (h.after hs later).1.detached
  signal later := (h.after hs later).2.2

/-- A request that has a key passes through a limiter in a course. -/
structure Passes (s : Deployment α) (l : LimiterId) (limiter : Limiter α)
    (request : Option (Request α)) (key : Option (Value α)) (events : List (Event α))
    (verdict? : Option (Except (Fault α) Bool)) : Prop where
  answers : s.Answers (.pass l request) limiter.store (s.passing l limiter request key) events
    verdict?
  /-- What the limiter decides on the verdict of its store is all that ends the call. -/
  ended : s.Pends (s.after (.start (.pass l request) :: events)) ∨
    ∃ verdict, verdict? = some verdict ∧
      s.Fares (limiter.config.ruling (s.passing l limiter request key).bucket verdict)
        (s.after (.start (.pass l request) :: events))
  drained : ∀ verdict, verdict? = some verdict →
    s.Fares (limiter.config.ruling (s.passing l limiter request key).bucket verdict)
      (s.after (.start (.pass l request) :: events)).drain
  /-- A request that goes away while its check waits has it decided by the policy for failures, with
  no further answer and no warning. -/
  abandoned : ∀ stage text,
    (s.after (.start (.pass l request) :: events)).tasks[s.tasks.length]?.map Task.progress =
      some (.waiting stage) →
    (s.passing l limiter request key).bucket.text? = some text →
    ∀ later,
      let course := .start (.pass l request) :: (events ++ .hangUp s.tasks.length :: later)
      ∃ decision, limiter.config.OnFailure decision ∧
        (s.Pends (s.after course) ∧ s.reportsOn s.tasks.length course = [] ∨
          s.Fares (.ok decision) (s.after course) ∧
            s.reportsOn s.tasks.length course = [.abandoned text]) ∧
        s.Fares (.ok decision) (s.after course).drain

section

variable {s : Deployment α} {l : LimiterId} {limiter : Limiter α} {request : Option (Request α)}
  {key : Option (Value α)}

theorem start_pass_eq_startRequest (hlimiter : s.limiters[l]? = some limiter)
    (request : Option (Request α)) :
    s.start (.pass l request) =
      ({ s with attached := s.attached ++ [s.tasks.length] } : Deployment α).startRequest limiter
        (.middleware l) request (some (.request s.tasks.length)) .failed := by
  simp only [start, onLimiter, hlimiter, startPass]

theorem start_pass_eq (hlimiter : s.limiters[l]? = some limiter)
    (hkey : limiter.config.keyRule.key request = .ok key) :
    s.start (.pass l request) =
      ({ s with attached := s.attached ++ [s.tasks.length] } : Deployment α).startCheck
        limiter.store (s.passing l limiter request key) := by
  rw [start_pass_eq_startRequest hlimiter]
  simp only [startRequest, hkey]
  rfl

theorem EndsWith.fares (hlimiter : s.limiters[l]? = some limiter) {c : Check α}
    (horigin : c.origin = .middleware l) {verdict : Except (Fault α) Bool} {s' : Deployment α}
    (h : s.EndsWith c verdict s') : s.Fares (limiter.config.ruling c.bucket verdict) s' := by
  obtain ⟨hsettled, hexchanges⟩ := h
  simp only [settlementOf, exchangeOf, horigin, rulingOf_eq hlimiter] at hsettled hexchanges
  generalize limiter.config.ruling c.bucket verdict = ruling at *
  obtain fault | _ | _ := ruling <;> exact ⟨hsettled, hexchanges⟩

/-- A key rule that fails ends the call before any store is asked, whoever asked for a decision. -/
theorem start_unkeyed (hs : s.Reachable) {call : Start α} (attached : List TaskId)
    {origin : Origin} {signal : Option SignalId}
    (hstart : s.start call =
      ({ s with attached } : Deployment α).startRequest limiter origin request signal .failed)
    {e : KeyFault} (hkey : limiter.config.keyRule.key request = .error e) :
    s.Fares (.error (.ofKeyFault e)) (s.start call) ∧ (s.start call).Parted s.tasks.length := by
  let c : Check α := ⟨origin, none, .missing, s.timeOr none, signal⟩
  have hfailing : s.start call =
      ((({ s with attached } : Deployment α).newTask limiter.store (.check c)).2.detach
        s.tasks.length).settle s.tasks.length (.failed (.ofKeyFault e)) := by
    rw [hstart]
    simp only [startRequest, hkey]
    rfl
  have hfailed : ((s.start call).share s.tasks.length).settled = [.failed (.ofKeyFault e)] := by
    rw [hfailing, share_settled_concat (s := s) rfl, if_pos rfl, hs.clear.share]
    rfl
  have hnone : s.exchangesSince (s.start call) s.tasks.length = [] := by
    rw [hfailing]
    exact exchangesSince_eq (List.append_nil _).symm s.tasks.length
  refine ⟨⟨hfailed, hnone⟩, by simp [hfailed], ?_⟩
  rw [hfailing]
  simp [settle, setProgress, detach]

/-- A call that a failing key rule has ended stays as it is. -/
theorem fares_unkeyed (hs : s.Reachable) {call : Start α} {fault : Fault α}
    (hfares : s.Fares (.error fault) (s.start call))
    (hparted : (s.start call).Parted s.tasks.length) (events : List (Event α)) :
    s.Fares (.error fault) (s.after (.start call :: events)) := by
  have hfirst : (s.start call).Reachable := hs.happen (.start call)
  obtain ⟨hfailed, hnone⟩ := hfares
  refine ⟨((hparted.leavesAlone hfirst).settled events).trans hfailed, ?_⟩
  rw [exchangesSince_after hs.prompt, exchangesOn]
  exact List.append_eq_nil_iff.mpr ⟨hnone, (hparted.after hfirst events).2.1⟩

/-- A request is held as long as nothing has put an end to the wait of its check. -/
theorem attached_of_unended (hs : s.Reachable) (hlimiter : s.limiters[l]? = some limiter)
    (hkey : limiter.config.keyRule.key request = .ok key) {store : RedisStore α}
    (hstore : s.remote? limiter.store = some store)
    (hlive : s.isAborted (s.passing l limiter request key).signal = false) {milliseconds : String}
    (htimeout : textOrMissing? store.options.timeout = some milliseconds)
    (hpromise : s.Promises store) {events : List (Event α)}
    (hnone : (s.start (.pass l request)).firstEnding? s.tasks.length
      (s.passing l limiter request key).signal events = none) :
    s.tasks.length ∈ ((s.start (.pass l request)).after events).attached := by
  let attached := s.attached ++ [s.tasks.length]
  have hstart := start_pass_eq hlimiter hkey
  obtain ⟨e, -, hstands⟩ := stands_startCheck (c := s.passing l limiter request key)
    (hs.clear.attached attached) hstore hlive htimeout (hpromise.attached attached)
  have hheld : s.tasks.length ∈ (s.start (.pass l request)).attached := by
    have hquiet := startCheck_quiet (s := { s with attached }) hstore
      (s.passing l limiter request key)
    rw [hstart, hquiet.mem_attached_iff id]
    exact List.mem_concat_self
  have hlives : (s.start (.pass l request)).isAborted (s.passing l limiter request key).signal =
      false := by
    rw [hstart, isAborted_startCheck]
    exact hlive
  have hprompt : (s.start (.pass l request)).Prompt := hs.prompt.happen (.start (.pass l request))
  rw [← hstart] at hstands
  exact hstands.attached_after hprompt rfl hlives hheld hnone

/-- Where a request goes away while its check waits, the check is answered by that. -/
theorem answers_abandoned (hs : s.Reachable) (hlimiter : s.limiters[l]? = some limiter)
    (hkey : limiter.config.keyRule.key request = .ok key) {events : List (Event α)} {stage : Stage}
    (hwaiting : (s.after (.start (.pass l request) :: events)).tasks[s.tasks.length]?.map
      Task.progress = some (.waiting stage)) (later : List (Event α)) :
    s.Answers (.pass l request) limiter.store (s.passing l limiter request key)
      (events ++ .hangUp s.tasks.length :: later) (some (.error .aborted)) := by
  obtain ⟨store, milliseconds, hstore, hlive, hpromise, htimeout, hnone⟩ :=
    exists_remote_of_waiting hs (start_pass_eq hlimiter hkey) hwaiting
  have hattached := attached_of_unended hs hlimiter hkey hstore hlive htimeout hpromise hnone
  have hnow : ((s.start (.pass l request)).after events).ending? s.tasks.length
      (s.passing l limiter request key).signal (.hangUp s.tasks.length) = some .aborted :=
    if_pos ⟨rfl, hattached⟩
  have hending : (s.start (.pass l request)).firstEnding? s.tasks.length
      (s.passing l limiter request key).signal (events ++ .hangUp s.tasks.length :: later) =
        some .aborted := by
    rw [firstEnding?_append, hnone, Option.none_or, firstEnding?, hnow, Option.some_or]
  have hanswers : s.Answers (.pass l request) limiter.store (s.passing l limiter request key)
      (events ++ .hangUp s.tasks.length :: later) _ := .waiting hstore hlive hpromise htimeout
  rw [verdict?, hending] at hanswers
  exact hanswers

/-- A request that goes away while its check waits abandons the check, which is decided without any
further answer. -/
theorem fares_abandoned (hs : s.Reachable) (hlimiter : s.limiters[l]? = some limiter)
    (hkey : limiter.config.keyRule.key request = .ok key) {events : List (Event α)} {stage : Stage}
    (hwaiting : (s.after (.start (.pass l request) :: events)).tasks[s.tasks.length]?.map
      Task.progress = some (.waiting stage)) {text : String}
    (htext : (s.passing l limiter request key).bucket.text? = some text) (later : List (Event α)) :
    let course := .start (.pass l request) :: (events ++ .hangUp s.tasks.length :: later)
    ∃ decision, limiter.config.OnFailure decision ∧
      (s.Pends (s.after course) ∧ s.reportsOn s.tasks.length course = [] ∨
        s.Fares (.ok decision) (s.after course) ∧
          s.reportsOn s.tasks.length course = [.abandoned text]) ∧
      s.Fares (.ok decision) (s.after course).drain := by
  intro course
  have hconcludes := (answers_abandoned hs hlimiter hkey hwaiting later).concludes hs _
    (start_pass_eq hlimiter hkey)
  have hjudge : limiter.config.judge (s.passing l limiter request key).bucket (.error .aborted) =
      .ok (limiter.config.decisionOnFailure, [.abandoned text]) := by
    simp [Config.judge, Config.report?, htext, Fault.reason?]
  have hruling : limiter.config.ruling (s.passing l limiter request key).bucket
      (.error .aborted) = .ok limiter.config.decisionOnFailure := by
    rw [Config.ruling, hjudge]
    rfl
  have hfares := fun s' (h : s.EndsWith _ (.error .aborted) s') => hruling ▸ h.fares hlimiter rfl
  refine ⟨_, limiter.config.onFailure_decisionOnFailure, ?_, hfares _ (hconcludes.drained _ rfl)⟩
  obtain hpends | ⟨verdict, hverdict, hended, hreports⟩ := hconcludes.ended
  · exact Or.inl hpends
  · obtain rfl := Option.some.inj hverdict
    refine Or.inr ⟨hfares _ hended, hreports.trans ?_⟩
    have horigin : (s.passing l limiter request key).origin = .middleware l := rfl
    simp only [reportOf, horigin, noticesOf, config?_eq_some hlimiter, hjudge]

end

/-- Every request that passes through a limiter, whatever else happens, is handed on or refused once
as the limiter decides, or left alone where there is no decision. Once its check has ended, nothing
touches it any more. -/
theorem hands_on_or_refuses {s : Deployment α} (hs : s.Reachable) {l : LimiterId}
    {limiter : Limiter α} (hlimiter : s.limiters[l]? = some limiter) (request : Option (Request α))
    (events : List (Event α)) :
    let after := s.after (.start (.pass l request) :: events)
    (∀ e, limiter.config.keyRule.key request = .error e →
      s.Fares (.error (.ofKeyFault e)) after) ∧
    (∀ key, limiter.config.keyRule.key request = .ok key →
      ∃ verdict?, s.Passes l limiter request key events verdict?) ∧
    ((after.share s.tasks.length).settled ≠ [] → after.LeavesAlone s.tasks.length) := by
  have hfirst : (s.start (.pass l request)).Reachable := hs.happen (.start (.pass l request))
  refine ⟨fun e hkey => ?_, fun key hkey => ?_, fun hsettled => ?_⟩
  · obtain ⟨hfares, hparted⟩ :=
      start_unkeyed hs _ (start_pass_eq_startRequest hlimiter request) hkey
    exact fares_unkeyed hs hfares hparted events
  · obtain ⟨verdict?, hanswers⟩ := s.exists_answers (.pass l request) limiter.store
      (s.passing l limiter request key) events
    have hconcludes := hanswers.concludes hs _ (start_pass_eq hlimiter hkey)
    refine ⟨verdict?, hanswers, ?_, fun verdict hverdict => ?_, fun stage text hwaiting htext =>
      fares_abandoned hs hlimiter hkey hwaiting htext⟩
    · obtain ⟨hpends, -⟩ | ⟨verdict, hverdict, hended, -⟩ := hconcludes.ended
      · exact Or.inl hpends
      · exact Or.inr ⟨verdict, hverdict, hended.fares hlimiter rfl⟩
    · exact (hconcludes.drained verdict hverdict).fares hlimiter rfl
  · refine Parted.leavesAlone ⟨hsettled, ?_⟩ (hfirst.after events)
    cases hkey : limiter.config.keyRule.key request with
    | error e =>
      obtain ⟨-, hparted⟩ := start_unkeyed hs _ (start_pass_eq_startRequest hlimiter request) hkey
      exact (hparted.after hfirst events).1.detached
    | ok key =>
      obtain ⟨verdict?, hanswers⟩ := s.exists_answers (.pass l request) limiter.store
        (s.passing l limiter request key) events
      exact (hanswers.concludes hs _ (start_pass_eq hlimiter hkey)).releases l rfl hsettled

/-- A store rejects a check with a value that cannot be put into words. The warning about it fails,
and with it the call: the request is neither handed on nor refused, although its key is fine. -/
theorem hands_on_or_refuses_wordless :
    let s := guarded strict
      (.settles none (.error (.bare (some (.object [(Value.textField, .number 1)])))) none)
    let course := [.start (.pass 0 (some {})), .work 0]
    s.Reachable ∧ strict.keyRule.key (some {}) = .ok (some (.text "global")) ∧
      s.Fares (.error .wordless) (s.after course) ∧ (s.after course).LeavesAlone 0 ∧
      ∃ verdict?, s.Passes 0 ⟨strict, 0, false, none⟩ (some {}) (some (.text "global")) [.work 0]
        verdict? := by
  intro s course
  have hs : s.Reachable := guarded_reachable _ _
  have hfailed : ((s.after course).share 0).settled = [.failed .wordless] := rfl
  have hlimiter : s.limiters[0]? = some ⟨strict, 0, false, none⟩ := rfl
  obtain ⟨-, hkeyed, hover⟩ := hands_on_or_refuses hs hlimiter (some {}) [.work 0]
  have hleft : (s.after course).LeavesAlone 0 := hover fun hnone => nomatch hfailed.symm.trans hnone
  exact ⟨hs, rfl, ⟨hfailed, rfl⟩, hleft, hkeyed _ rfl⟩

end Deployment

end Admission
