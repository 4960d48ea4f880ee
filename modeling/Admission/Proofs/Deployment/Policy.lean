import Admission.Proofs.Deployment.Verdicts

/-!
The policy of a limiter for checks that fail.

Whatever its store does, a limiter answers a call with a decision: the store's own answer where
there is one, and what its configuration says where the store fails. A denial is reported, an
abandoned check too, and any other failure is a warning; a call that may pass is not mentioned. In
particular no failure of a store in Redis reaches the caller of the limiter.
-/
namespace Admission

/-- Values that count as not given. -/
inductive Value.Falsy {α : Type} [Scalar α] : Value α → Prop
  | null : Falsy .null
  | no : Falsy (.bool false)
  | number {x : α} (hbelow : ¬x < 0) (habove : ¬0 < x) : Falsy (.number x)
  | text : Falsy (.text "")

theorem Value.isTruthy_iff {α : Type} [Scalar α] {v : Value α} :
    v.isTruthy = true ↔ ¬v.Falsy := by
  constructor
  · rintro h (_ | _ | ⟨hbelow, habove⟩ | _)
    · cases h
    · cases h
    · simp [isTruthy, hbelow, habove] at h
    · cases h
  · intro h
    cases v with
    | null => exact absurd .null h
    | bool b =>
      cases b with
      | false => exact absurd .no h
      | true => rfl
    | number x =>
      by_contra hnot
      simp only [isTruthy, Bool.or_eq_true, decide_eq_true_eq, not_or] at hnot
      exact h (.number hnot.1 hnot.2)
    | text s =>
      by_contra hnot
      obtain rfl : s = "" := by simpa [isTruthy] using hnot
      exact h .text
    | _ => rfl

/-- Whatever is told to a check that waits can be put into words, as long as no store fault arrives
that has no message. -/
theorem Deployment.Ending.Brings.message?_ne_none {α : Type} [Scalar α] [Textual α]
    {milliseconds : String} {ending : Ending α} {verdict? : Option (Except (Fault α) Bool)}
    (h : ending.Brings milliseconds verdict?)
    (hspoken : ∀ fault reason, ending = .answered (.error fault) → fault.HasReason reason →
      fault.message? ≠ none) {fault : Fault α} (hfault : verdict? = some (.error fault)) :
    fault.message? ≠ none := by
  cases h with
  | one | zero | unheard => cases hfault
  | rejected h =>
    cases hfault
    exact hspoken fault _ rfl h
  | unavailable _ hmessage =>
    cases hfault
    simp [Fault.message?, hmessage]
  | _ =>
    cases hfault
    simp [Fault.message?, Fault.wordless]

/-- The lines of the log for what is reported, each with its level. -/
def logged {α : Type} (notices : List (Notice α)) : List (String × Notice α) :=
  notices.map fun notice => (notice.severity.name, notice)

namespace Config

variable {α : Type} [Scalar α] [Textual α]

/-- The decision on a check that the store could not answer. -/
inductive OnFailure (c : Config α) : Decision → Prop
  | opens (h : ¬c.failOpen.Falsy) : OnFailure c .allow
  | closes (h : c.failOpen.Falsy) : OnFailure c .deny

omit [Textual α] in
theorem onFailure_decisionOnFailure (c : Config α) : c.OnFailure c.decisionOnFailure := by
  unfold decisionOnFailure
  split
  · next htruthy => exact .opens (Value.isTruthy_iff.mp htruthy)
  · next hfalsy => exact .closes (by_contra fun h => hfalsy (Value.isTruthy_iff.mpr h))

/-- The decision on a check of a key, and the lines in the log about it, for what the store answers
or fails with. -/
inductive Policy (c : Config α) (key : String) :
    Outcome α → Decision → List (String × Notice α) → Prop
  | allows {answer : Value α} (h : ¬answer.Falsy) : Policy c key (.ok (some answer)) .allow []
  | denies {answer : Option (Value α)} (h : ∀ v, answer = some v → v.Falsy) :
      Policy c key (.ok answer) .deny [("debug", .exceeded key)]
  | abandons {fault : Fault α} {decision : Decision} (h : fault.HasReason .aborted)
      (hdecision : c.OnFailure decision) :
      Policy c key (.error fault) decision [("debug", .abandoned key)]
  | fails {fault : Fault α} {decision : Decision} {message : String}
      (hother : ¬fault.HasReason .aborted) (hmessage : fault.message? = some message)
      (hdecision : c.OnFailure decision) :
      Policy c key (.error fault) decision [("warn", .undecided key decision message)]

section

omit [Textual α]

variable {c : Config α} {decision : Decision}

theorem OnFailure.eq_allow (h : c.OnFailure decision) (hopen : ¬c.failOpen.Falsy) :
    decision = .allow := by
  cases h with
  | opens => rfl
  | closes hfalsy => exact absurd hfalsy hopen

theorem OnFailure.eq_deny (h : c.OnFailure decision) (hfalsy : c.failOpen.Falsy) :
    decision = .deny := by
  cases h with
  | opens hopen => exact absurd hfalsy hopen
  | closes => rfl

end

section

variable {c : Config α} {key : String} {decision : Decision} {lines : List (String × Notice α)}

theorem Policy.onFailure {fault : Fault α} (h : c.Policy key (.error fault) decision lines) :
    c.OnFailure decision := by
  cases h with
  | abandons _ hdecision => exact hdecision
  | fails _ _ hdecision => exact hdecision

theorem Policy.eq_allow {answer : Value α} (h : c.Policy key (.ok (some answer)) decision lines)
    (hgiven : ¬answer.Falsy) : decision = .allow := by
  cases h with
  | allows => rfl
  | denies hfalsy => exact absurd (hfalsy answer rfl) hgiven

theorem Policy.eq_deny {answer : Value α} (h : c.Policy key (.ok (some answer)) decision lines)
    (hfalsy : answer.Falsy) : decision = .deny := by
  cases h with
  | allows hgiven => exact absurd hfalsy hgiven
  | denies => rfl

end

theorem exists_policy (c : Config α) {key : Key} {text : String} (hkey : key.text? = some text)
    {outcome : Outcome α} (hworded : ∀ fault, outcome = .error fault → fault.message? ≠ none) :
    ∃ decision notices, c.Policy text outcome decision (logged notices) ∧
      c.judge key (Fault.permissionOf outcome) = .ok (decision, notices) := by
  cases outcome with
  | ok answer =>
    by_cases hgiven : ∃ v, answer = some v ∧ ¬v.Falsy
    · obtain ⟨v, rfl, hv⟩ := hgiven
      refine ⟨.allow, [], .allows hv, ?_⟩
      simp [judge, Fault.permissionOf, Value.isTruthy_iff.mpr hv, report?]
    · have hfalsy : ∀ v, answer = some v → v.Falsy := fun v hv =>
        by_contra fun h => hgiven ⟨v, hv, h⟩
      have hnone : answer.any Value.isTruthy = false := by
        rw [← Bool.not_eq_true, Option.any_eq_true]
        rintro ⟨v, hv, htruthy⟩
        exact Value.isTruthy_iff.mp htruthy (hfalsy v hv)
      exact ⟨.deny, [.exceeded text], .denies hfalsy,
        by simp [judge, Fault.permissionOf, hnone, report?, hkey]⟩
  | error fault =>
    obtain ⟨message, hmessage⟩ := Option.ne_none_iff_exists'.mp (hworded fault rfl)
    have hdecision := c.onFailure_decisionOnFailure
    by_cases haborted : fault.reason? = some .aborted
    · exact ⟨_, [.abandoned text], .abandons (Fault.hasReason_iff.mpr haborted) hdecision,
        by simp [judge, Fault.permissionOf, report?, hkey, haborted]⟩
    · exact ⟨_, [.undecided text c.decisionOnFailure message],
        .fails (fun h => haborted (Fault.hasReason_iff.mp h)) hmessage hdecision,
        by simp [judge, Fault.permissionOf, report?, hkey, hmessage, haborted]⟩

end Config

namespace Deployment

variable {α : Type} [Scalar α] [Textual α]

/-- A call is decided by nothing but what its store answers or fails with, as the policy says. As
long as there is neither, the call is not settled, and nothing is reported about it. -/
structure Decides (s : Deployment α) (call : Start α) (config : Config α) (key : String)
    (events : List (Event α)) (outcome? : Option (Outcome α)) : Prop where
  undecided : outcome? = none →
    ((s.after (.start call :: events)).share s.tasks.length).settled = [] ∧
      s.reportsOn s.tasks.length (.start call :: events) = []
  decided : ∀ outcome, outcome? = some outcome → ∃ decision lines,
    config.Policy key outcome decision lines ∧
    (((s.after (.start call :: events)).share s.tasks.length).settled = [] ∧
        s.reportsOn s.tasks.length (.start call :: events) = [] ∨
      ((s.after (.start call :: events)).share s.tasks.length).settled = [.decision decision] ∧
        logged (s.reportsOn s.tasks.length (.start call :: events)) = lines) ∧
    ((s.after (.start call :: events)).drain.share s.tasks.length).settled = [.decision decision]

/-- How a limiter ends a check whose report can be put into words. -/
theorem settlementOf_of_judge {s : Deployment α} {c : Check α} {l : LimiterId} {config : Config α}
    (horigin : c.origin = .limiter l) (hconfig : s.config? l = some config)
    {verdict : Except (Fault α) Bool} {decision : Decision} {notices : List (Notice α)}
    (hjudge : config.judge c.bucket verdict = .ok (decision, notices)) :
    s.settlementOf c verdict = .decision decision ∧ s.reportOf c verdict = notices := by
  constructor
  · simp only [settlementOf, horigin, rulingOf, hconfig, hjudge]
    rfl
  · simp only [reportOf, horigin, noticesOf, hconfig, hjudge]

/-- A call on a limiter is decided by what its check concludes with, if the limiter's report on it
can be put into words. -/
theorem Decides.of_concludes {s : Deployment α} {call : Start α} {c : Check α}
    {events : List (Event α)} {outcome? : Option (Outcome α)}
    (h : s.Concludes call c events (outcome?.map Fault.permissionOf)) {l : LimiterId}
    (horigin : c.origin = .limiter l) {config : Config α} (hconfig : s.config? l = some config)
    {text : String} (hkey : c.bucket.text? = some text)
    (hworded : ∀ fault, outcome? = some (.error fault) → fault.message? ≠ none) :
    s.Decides call config text events outcome? where
  undecided hnone := by
    subst hnone
    obtain ⟨hpends, hquiet⟩ | ⟨verdict, hverdict, -⟩ := h.ended
    · exact ⟨hpends.settled, hquiet⟩
    · cases hverdict
  decided outcome houtcome := by
    subst houtcome
    obtain ⟨decision, notices, hpolicy, hjudge⟩ :=
      config.exists_policy hkey fun fault heq => hworded fault (congrArg some heq)
    obtain ⟨hdecision, hreported⟩ := settlementOf_of_judge horigin hconfig hjudge
    refine ⟨decision, logged notices, hpolicy, ?_, by rw [(h.drained _ rfl).settled, hdecision]⟩
    obtain ⟨hpends, hquiet⟩ | ⟨verdict, hverdict, hended, hreport⟩ := h.ended
    · exact Or.inl ⟨hpends.settled, hquiet⟩
    · obtain rfl := Option.some.inj hverdict
      exact Or.inr ⟨by rw [hended.settled, hdecision], congrArg logged (hreport.trans hreported)⟩

/-- The check that a call on a limiter comes to. -/
def calling (s : Deployment α) (l : LimiterId) (key now : Option (Value α))
    (signal : Option SignalId) : Check α :=
  ⟨.limiter l, key, s.callKey key, s.timeOr now, signal⟩

theorem start_allow_eq {s : Deployment α} {l : LimiterId} {limiter : Limiter α}
    (hlimiter : s.limiters[l]? = some limiter) (key now : Option (Value α))
    (signal : Option SignalId) :
    s.start (.allow l key now signal) =
      s.startCheck limiter.store (s.calling l key now signal) := by
  simp only [start, onLimiter, hlimiter]
  rfl

/-- A yes or no, as an answer. -/
def answerOf (verdict : Except (Fault α) Bool) : Outcome α :=
  verdict.map fun allowed => some (.bool allowed)

omit [Textual α] in
@[simp] theorem permissionOf_answerOf (verdict : Except (Fault α) Bool) :
    Fault.permissionOf (answerOf verdict) = verdict := by
  obtain fault | _ | _ := verdict <;> rfl

/-- A call on a limiter keeps to the policy of the limiter in a course. -/
structure KeepsPolicy (s : Deployment α) (l : LimiterId) (limiter : Limiter α)
    (key now : Option (Value α)) (signal : Option SignalId) (text : String)
    (events : List (Event α)) : Prop where
  /-- A store of the application's own is asked once, with what the caller gave. It may reply,
  reject, throw or stay silent, at once or later: as long as its answer is outstanding the call is
  undecided, and then it is decided by the answer. -/
  scripted : ∀ script reply rest, s.stores[limiter.store]? = some (.scripted script) →
    script.allow.next (.value (.bool true)) = (reply, rest) →
    (∀ fault, reply.outcome? = some (.error fault) → fault.message? ≠ none) →
    let call : Start α := .allow l key now signal
    let answering := ((s.after (.start call :: events)).share s.tasks.length).awaited
    s.made (.start call) = [.storeAllow key (s.timeOr now) (s.signalState signal)] ∧
    (answering ≠ 0 → s.Decides call limiter.config text events none) ∧
    (answering = 0 → s.Decides call limiter.config text events reply.outcome?)
  /-- No store is asked but by a call. -/
  asked : ∀ ev otherKey otherNow state,
    .storeAllow otherKey otherNow state ∈
      (s.after (.start (.allow l key now signal) :: events)).made ev →
    ∃ call, ev = .start call
  memory : ∀ store, s.stores[limiter.store]? = some (.memory store) →
    let call : Start α := .allow l key now signal
    let attempt := store.attempt (s.callKey key) ⟨s.timeOr now⟩
    (∀ allowed, attempt.allowed = some allowed →
      s.Decides call limiter.config text events (some (.ok (some (.bool allowed))))) ∧
    (attempt.allowed = none →
      s.Decides call limiter.config text events (some (.error .wordless)))
  /-- Whatever becomes of the connection, the script and the wait, the caller gets a decision. -/
  remote : ∀ store milliseconds, s.remote? limiter.store = some store →
    textOrMissing? store.options.timeout = some milliseconds → s.Promises store →
    let call : Start α := .allow l key now signal
    let ending? := (s.start call).firstEnding? s.tasks.length signal events
    (∀ fault reason, ending? = some (.answered (.error fault)) → fault.HasReason reason →
      fault.message? ≠ none) →
    (s.isAborted signal = true →
      s.Decides call limiter.config text events (some (.error .aborted))) ∧
    (s.isAborted signal = false →
      (ending? = none → s.Decides call limiter.config text events none) ∧
      ∀ ending, ending? = some ending → ∃ verdict?, ending.Brings milliseconds verdict? ∧
        s.Decides call limiter.config text events (verdict?.map answerOf))
  /-- What is reported about checks is reported when one concludes. -/
  reported : ∀ ev, (s.after (.start (.allow l key now signal) :: events)).reports ev ≠ [] →
    ∃ t, (s.after (.start (.allow l key now signal) :: events)).concluded? ev = some t

section

variable {s : Deployment α} {l : LimiterId} {limiter : Limiter α} {key : Option (Value α)}
  {text : String}

theorem decides_scripted (hs : s.Reachable) (hlimiter : s.limiters[l]? = some limiter)
    (hkey : (s.callKey key).text? = some text) (now : Option (Value α)) (signal : Option SignalId)
    (events : List (Event α)) {script : StoreScript α} {reply : Reply α} {rest : Replies α}
    (hstore : s.stores[limiter.store]? = some (.scripted script))
    (hreply : script.allow.next (.value (.bool true)) = (reply, rest))
    (hworded : ∀ fault, reply.outcome? = some (.error fault) → fault.message? ≠ none) :
    let call : Start α := .allow l key now signal
    let answering := ((s.after (.start call :: events)).share s.tasks.length).awaited
    s.made (.start call) = [.storeAllow key (s.timeOr now) (s.signalState signal)] ∧
    (answering ≠ 0 → s.Decides call limiter.config text events none) ∧
    (answering = 0 → s.Decides call limiter.config text events reply.outcome?) := by
  have hstart := start_allow_eq hlimiter key now signal
  obtain ⟨houtstanding, hanswered⟩ :=
    concludes_scripted hs s.attached hstart hstore events
  rw [hreply] at hanswered
  refine ⟨made_eq ?_, fun hsome => ?_, fun hnone => ?_⟩
  · exact (congrArg Deployment.calls hstart).trans (calls_startCheck_scripted hstore _)
  · have hnone : s.Concludes (.allow l key now signal) (s.calling l key now signal) events
        ((none : Option (Outcome α)).map Fault.permissionOf) := houtstanding hsome
    exact Decides.of_concludes hnone rfl (config?_eq_some hlimiter) hkey nofun
  · exact Decides.of_concludes (hanswered hnone) rfl (config?_eq_some hlimiter) hkey hworded

/-- A call is decided by the verdict that it concludes with. -/
theorem decides_of_verdict (hlimiter : s.limiters[l]? = some limiter)
    (hkey : (s.callKey key).text? = some text) {now : Option (Value α)} {signal : Option SignalId}
    {events : List (Event α)} {verdict? : Option (Except (Fault α) Bool)}
    (h : s.Concludes (.allow l key now signal) (s.calling l key now signal) events verdict?)
    (hworded : ∀ fault, verdict? = some (.error fault) → fault.message? ≠ none) :
    s.Decides (.allow l key now signal) limiter.config text events (verdict?.map answerOf) := by
  refine Decides.of_concludes (c := s.calling l key now signal) ?_ rfl (config?_eq_some hlimiter)
    hkey fun fault hfault => ?_
  · rw [Option.map_map]
    convert h
    cases verdict? <;> simp
  · obtain ⟨verdict, hverdict, herror⟩ := Option.map_eq_some_iff.mp hfault
    cases verdict with
    | ok allowed => cases herror
    | error other =>
      cases herror
      exact hworded _ hverdict

theorem decides_memory (hs : s.Reachable) (hlimiter : s.limiters[l]? = some limiter)
    (hkey : (s.callKey key).text? = some text) (now : Option (Value α)) (signal : Option SignalId)
    (events : List (Event α)) {store : MemoryStore Key (Unchecked α)}
    (hstore : s.stores[limiter.store]? = some (.memory store)) :
    let call : Start α := .allow l key now signal
    let attempt := store.attempt (s.callKey key) ⟨s.timeOr now⟩
    (∀ allowed, attempt.allowed = some allowed →
      s.Decides call limiter.config text events (some (.ok (some (.bool allowed))))) ∧
    (attempt.allowed = none →
      s.Decides call limiter.config text events (some (.error .wordless))) := by
  intro call attempt
  have hanswers : s.Answers call limiter.store (s.calling l key now signal) events _ :=
    .memory hstore
  have hconcludes := hanswers.concludes hs s.attached (start_allow_eq hlimiter key now signal)
  refine ⟨fun allowed hallowed => ?_, fun hnone => ?_⟩
  · have hverdict : MemoryStore.verdict store (s.calling l key now signal) = .ok allowed :=
      MemoryStore.verdict_of_allowed hallowed
    rw [hverdict] at hconcludes
    exact decides_of_verdict hlimiter hkey hconcludes (by simp)
  · have hverdict : MemoryStore.verdict store (s.calling l key now signal) = .error .wordless :=
      MemoryStore.verdict_of_failed hnone
    rw [hverdict] at hconcludes
    refine decides_of_verdict hlimiter hkey hconcludes fun fault hfault => ?_
    cases hfault
    simp [Fault.wordless, Fault.message?]

theorem decides_remote (hs : s.Reachable) (hlimiter : s.limiters[l]? = some limiter)
    (hkey : (s.callKey key).text? = some text) (now : Option (Value α)) (signal : Option SignalId)
    (events : List (Event α)) {store : RedisStore α} {milliseconds : String}
    (hstore : s.remote? limiter.store = some store)
    (htext : textOrMissing? store.options.timeout = some milliseconds)
    (hpromise : s.Promises store) :
    let call : Start α := .allow l key now signal
    let ending? := (s.start call).firstEnding? s.tasks.length signal events
    (∀ fault reason, ending? = some (.answered (.error fault)) → fault.HasReason reason →
      fault.message? ≠ none) →
    (s.isAborted signal = true →
      s.Decides call limiter.config text events (some (.error .aborted))) ∧
    (s.isAborted signal = false →
      (ending? = none → s.Decides call limiter.config text events none) ∧
      ∀ ending, ending? = some ending → ∃ verdict?, ending.Brings milliseconds verdict? ∧
        s.Decides call limiter.config text events (verdict?.map answerOf)) := by
  intro call ending? hspoken
  have hstart := start_allow_eq hlimiter key now signal
  refine ⟨fun haborted => ?_, fun hlive => ?_⟩
  · have hanswers : s.Answers call limiter.store (s.calling l key now signal) events _ :=
      .abandoned hstore haborted
    have hconcludes := hanswers.concludes hs s.attached hstart
    refine decides_of_verdict hlimiter hkey hconcludes fun fault hfault => ?_
    cases hfault
    simp [Fault.message?]
  · have hanswers : s.Answers call limiter.store (s.calling l key now signal) events
        ((ending?.bind (Ending.outcome? milliseconds)).map Fault.verdictOf) :=
      .waiting hstore hlive hpromise htext
    have hconcludes := hanswers.concludes hs s.attached hstart
    refine ⟨fun hnone => ?_, fun ending hending => ?_⟩
    · rw [hnone] at hconcludes
      exact decides_of_verdict hlimiter hkey hconcludes nofun
    · rw [hending] at hconcludes
      have hbrings := ending.brings_verdictOf milliseconds
      refine ⟨_, hbrings, decides_of_verdict hlimiter hkey hconcludes fun fault hfault => ?_⟩
      refine hbrings.message?_ne_none (fun fault reason heq => hspoken fault reason ?_) hfault
      rw [hending, heq]

/-- Every call on a limiter, with whatever else happens, keeps to the limiter's policy. -/
theorem keeps_policy (hs : s.Reachable) (hlimiter : s.limiters[l]? = some limiter)
    (hkey : (s.callKey key).text? = some text) (now : Option (Value α)) (signal : Option SignalId)
    (events : List (Event α)) : s.KeepsPolicy l limiter key now signal text events := by
  have hreached : (s.after (.start (.allow l key now signal) :: events)).Prompt :=
    hs.prompt.after (.start (.allow l key now signal) :: events)
  exact {
    scripted := fun script reply rest => decides_scripted hs hlimiter hkey now signal events
    asked := fun ev _ _ _ hmade => by
      cases makes_of_mem_made hreached hmade with
      | starts => exact ⟨_, rfl⟩
    memory := fun store => decides_memory hs hlimiter hkey now signal events
    remote := fun store milliseconds => decides_remote hs hlimiter hkey now signal events
    reported := fun ev => exists_concluded_of_reports hreached }

end

/-! Limiters on a scripted store -/

/-- A configuration that refuses what the store cannot answer. -/
def strict : Config ℚ where
  limit := ⟨10, 2⟩
  keyRule := .global
  redis := none
  store := none
  keyLead := .text "test:"
  ttlSeconds := 60
  timeout := 50
  failOpen := .bool false
  idleTimeout := 60000
  sweepInterval := 0
  maxBuckets := 100

/-- A configuration that lets pass what the store cannot answer. -/
def lenient : Config ℚ := { strict with failOpen := .bool true }

/-- One limiter with a configuration, on a store whose first answer is this one. -/
def guarded (config : Config ℚ) (reply : Reply ℚ) : Deployment ℚ where
  clock := 1000
  stores := [.scripted { backend := .other none, allow := [reply] }]
  limiters := [{ config, store := 0, scheduled := false, interval := none }]

theorem guarded_reachable (config : Config ℚ) (reply : Reply ℚ) :
    (guarded config reply).Reachable := by
  refine Fresh.reachable ⟨rfl, rfl, rfl, rfl, rfl, rfl, fun i => ?_⟩
  cases i <;> rfl

/-- A store answers or fails a call after a while, and a second call is made meanwhile. Where it is
down the first caller is refused or let pass as the configuration says; an answer of zero refuses
the caller, and a text lets it pass. -/
theorem keeps_policy_replied :
    let replied (config : Config ℚ) (outcome : Outcome ℚ) :=
      guarded config (.settles (some 20) outcome none)
    let down : Fault ℚ := .general "down"
    let call : Start ℚ := .allow 0 (some (.text "k")) none none
    let events := [.start call, .alarm 0]
    let settled config outcome :=
      (((replied config outcome).after (.start call :: events)).drain.share 0).settled
    (∀ config outcome, (replied config outcome).Reachable ∧
      ((∀ fault, outcome = .error fault → fault.message? ≠ none) →
        (replied config outcome).Decides call config "k" events (some outcome))) ∧
    settled strict (.error down) = [.decision .deny] ∧
    settled lenient (.error down) = [.decision .allow] ∧
    settled lenient (.ok (some (.number 0))) = [.decision .deny] ∧
    settled strict (.ok (some (.text "yes"))) = [.decision .allow] := by
  intro replied down call events settled
  have hdecides : ∀ config outcome, (∀ fault, outcome = .error fault → fault.message? ≠ none) →
      (replied config outcome).Decides call config "k" events (some outcome) := by
    intro config outcome hworded
    have hlimiter : (replied config outcome).limiters[0]? = some ⟨config, 0, false, none⟩ := rfl
    have hkey : ((replied config outcome).callKey (some (.text "k"))).text? = some "k" := rfl
    have hpolicy := keeps_policy (guarded_reachable _ _) hlimiter hkey none none events
    exact (hpolicy.scripted _ _ _ rfl rfl fun fault heq => hworded fault (Option.some.inj heq)).2.2
      rfl
  have hsettled : ∀ config outcome, (∀ fault, outcome = .error fault → fault.message? ≠ none) →
      ∃ decision lines, config.Policy "k" outcome decision lines ∧
        settled config outcome = [.decision decision] := by
    intro config outcome hworded
    obtain ⟨decision, lines, hpolicy, -, hdrained⟩ :=
      (hdecides config outcome hworded).decided outcome rfl
    exact ⟨decision, lines, hpolicy, hdrained⟩
  have hdown : ∀ config, ∃ decision, config.OnFailure decision ∧
      settled config (.error down) = [.decision decision] := by
    intro config
    obtain ⟨decision, lines, hpolicy, hdrained⟩ :=
      hsettled config (.error down) (by simp [down, Fault.message?])
    exact ⟨decision, hpolicy.onFailure, hdrained⟩
  refine ⟨fun config outcome => ⟨guarded_reachable _ _, hdecides config outcome⟩, ?_, ?_, ?_, ?_⟩
  · obtain ⟨decision, hdecision, hdrained⟩ := hdown strict
    rwa [hdecision.eq_deny .no] at hdrained
  · obtain ⟨decision, hdecision, hdrained⟩ := hdown lenient
    rwa [hdecision.eq_allow nofun] at hdrained
  · obtain ⟨decision, lines, hpolicy, hdrained⟩ := hsettled lenient (.ok (some (.number 0))) nofun
    rwa [hpolicy.eq_deny (.number (lt_irrefl _) (lt_irrefl _))] at hdrained
  · obtain ⟨decision, lines, hpolicy, hdrained⟩ := hsettled strict (.ok (some (.text "yes"))) nofun
    rwa [hpolicy.eq_allow (Value.isTruthy_iff.mp (by decide))] at hdrained

end Deployment

end Admission
