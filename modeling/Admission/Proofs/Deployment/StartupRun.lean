import Admission.Proofs.Deployment.Punctual
import Admission.Proofs.Deployment.StartupSteps

/-!
A startup along a whole course.

What a course shows of a startup tells how far it has come. It waits for its connection and reports
if that does not come; with the connection it sends its first command, once, and reports how that
was answered; then it ends. It ends well whatever happened, unless that could not be put into words.
-/
namespace Admission.Deployment

variable {α : Type}

namespace Account

/-- A startup is told this fault: the connection that it needs could not even be attempted, an end
of one of its waits was a failure, or its first command could not be sent. -/
def Meets [Textual α] (a : Account α) (milliseconds : String) (fault : Fault α) : Prop :=
  a.links = [.error fault] ∧ a.heard = [] ∨ a.pings = [.throws fault] ∨
    ∃ ending ∈ a.heard, ending.outcome? milliseconds = some (.error fault)

/-- A wait of a startup came to an end that nobody hears of. -/
def IsDeafened [Textual α] (a : Account α) (milliseconds : String) : Prop :=
  ∃ ending ∈ a.heard, ending.outcome? milliseconds = none

end Account

namespace Startup

/-- What an errand brings back is how the connection turned out, or what the first command came
to. -/
def Carries (a : Account α) : Errand α → Prop
  | .linking => a.links = [] ∧ a.pings = []
  | .told outcome => a.links = [outcome] ∧ a.pings = [] ∨
      ∃ reply, a.pings = [reply] ∧ reply.outcome? = some outcome
  | .awaiting outcome => ∃ reply, a.pings = [reply] ∧ reply.outcome? = some outcome
  | _ => True

theorem Carries.append {a seen : Account α} {e : Errand α} (h : Carries a e)
    (hlinks : seen.links = []) (hpings : seen.pings = []) : Carries (a ++ seen) e := by
  unfold Carries at h ⊢
  simpa only [Account.links_append, hlinks, Account.pings_append, hpings, List.append_nil] using h

variable [Textual α]

/-- The accounts of startups that have come to their end, well if everything could be put into
words. -/
inductive Ends (j : Startup α) : Bool → Account α → Prop
  | unlinkable (fault : Fault α) :
      Ends j fault.message?.isSome { links := [.error fault], lines := unreachableLine fault }
  | unlinked (links : List (Outcome α)) {ending : Ending α} {fault : Fault α}
      (h : ending.outcome? j.milliseconds = some (.error fault)) :
      Ends j fault.message?.isSome { links, heard := [ending], lines := unreachableLine fault }
  | unsendable (links : List (Outcome α)) (answer : Option (Value α)) (fault : Fault α) :
      Ends j fault.message?.isSome
        { links, heard := [.answered (.ok answer)], pings := [.throws fault]
          lines := unreachableLine fault }
  | unanswered (links : List (Outcome α)) (answer : Option (Value α)) (reply : Reply α)
      {ending : Ending α} {fault : Fault α}
      (h : ending.outcome? j.milliseconds = some (.error fault)) :
      Ends j fault.message?.isSome
        { links, heard := [.answered (.ok answer), ending], pings := [reply]
          lines := unreachableLine fault }
  | answered (links : List (Outcome α)) (answer : Option (Value α)) {reply : Reply α}
      {pong : Option (Value α)} (h : reply.outcome? = some (.ok pong)) :
      Ends j true
        { links, heard := [.answered (.ok answer), .answered (.ok pong)], pings := [reply]
          lines := answeredLine j.remote }

/-- What has been seen of a startup that has come so far. -/
inductive Story (j : Startup α) : Boot α → Account α → Prop
  | linking (due : α) (links : List (Outcome α)) : Story j (.waiting .link due) { links }
  | linked (links : List (Outcome α)) {ending : Ending α} {outcome : Outcome α}
      (h : ending.outcome? j.milliseconds = some outcome) :
      Story j (.leaving .link outcome) { links, heard := [ending] }
  | pinging (due : α) (links : List (Outcome α)) (answer : Option (Value α)) {reply : Reply α}
      (hreply : ∀ fault, reply ≠ .throws fault) :
      Story j (.waiting .ping due)
        { links, heard := [.answered (.ok answer)], pings := [reply] }
  | pinged (links : List (Outcome α)) (answer : Option (Value α)) {ending : Ending α}
      {outcome : Outcome α} (h : ending.outcome? j.milliseconds = some outcome) {reply : Reply α}
      (hreply : ∀ fault, reply ≠ .throws fault) :
      Story j (.leaving .ping outcome)
        { links, heard := [.answered (.ok answer), ending], pings := [reply] }
  | ending (left : Option (Leg × Outcome α)) {worded : Bool} {a : Account α}
      (h : j.Ends worded a) : Story j (.ending left worded) a
  | settled {worded : Bool} {a : Account α} (h : j.Ends worded a) : Story j (.settled worded) a
  | unlinked (links : List (Outcome α)) {ending : Ending α}
      (h : ending.outcome? j.milliseconds = none) : Story j .lost { links, heard := [ending] }
  | unanswered (links : List (Outcome α)) (answer : Option (Value α)) {ending : Ending α}
      (h : ending.outcome? j.milliseconds = none) (reply : Reply α) :
      Story j .lost { links, heard := [.answered (.ok answer), ending], pings := [reply] }

/-- What has been seen of a startup that stands so. -/
structure Past (j : Startup α) (e : Errand α) (b : Boot α) (a : Account α) : Prop where
  story : j.Story b a
  free : Free e b
  carries : Carries a e
  linked : ∀ outcome, a.heard.head? = some (.answered outcome) → a.links = [outcome]
  pinged : ∀ first outcome, a.heard = [first, .answered outcome] →
    ∃ reply, a.pings = [reply] ∧ reply.outcome? = some outcome

variable {j : Startup α} {e e' : Errand α} {b b' : Boot α} {a seen : Account α}

theorem eq_answered_of_outcome? {milliseconds : String} {ending : Ending α}
    {answer : Option (Value α)} (h : ending.outcome? milliseconds = some (.ok answer)) :
    ending = .answered (.ok answer) := by
  cases ending with
  | answered outcome =>
    cases outcome with
    | ok other =>
      cases h
      rfl
    | error fault =>
      simp only [Ending.outcome?] at h
      cases hfault : fault.asStoreFault? <;> simp [hfault] at h
  | _ => cases h

/-- An attempt to connect that is over later adds to what has been seen, nothing else. -/
theorem Ends.link {worded : Bool} (h : j.Ends worded a) (hnone : a.links = [])
    (outcome : Outcome α) : j.Ends worded (a ++ { links := [outcome] }) := by
  cases h with
  | unlinkable fault => cases hnone
  | unlinked links h => simpa using Ends.unlinked _ h
  | unsendable links answer fault => simpa using Ends.unsendable _ answer fault
  | unanswered links answer reply h => simpa using Ends.unanswered _ answer reply h
  | answered links answer h => simpa using Ends.answered _ answer h

theorem Story.link (h : j.Story b a) (hnone : a.links = []) (outcome : Outcome α) :
    j.Story b (a ++ { links := [outcome] }) := by
  cases h with
  | linking due links => simpa using Story.linking due _
  | linked links h => simpa using Story.linked _ h
  | pinging due links answer hreply => simpa using Story.pinging due _ answer hreply
  | pinged links answer h hreply => simpa using Story.pinged _ answer h hreply
  | ending left h => exact .ending left (h.link hnone outcome)
  | settled h => exact .settled (h.link hnone outcome)
  | unlinked links h => simpa using Story.unlinked _ h
  | unanswered links answer h reply => simpa using Story.unanswered _ answer h reply

theorem Story.hear {leg : Leg} {due : α} (h : j.Story (.waiting leg due) a) (ending : Ending α) :
    j.Story (.hear leg (ending.outcome? j.milliseconds)) (a ++ { heard := [ending] }) := by
  cases h with
  | linking due links =>
    cases hend : ending.outcome? j.milliseconds with
    | none => simpa [Boot.hear] using Story.unlinked _ hend
    | some outcome => simpa [Boot.hear] using Story.linked _ hend
  | pinging due links answer hreply =>
    cases hend : ending.outcome? j.milliseconds with
    | none => simpa [Boot.hear] using Story.unanswered _ answer hend _
    | some outcome => simpa [Boot.hear] using Story.pinged _ answer hend hreply

theorem Story.fail {leg : Leg} {fault : Fault α} (h : j.Story (.leaving leg (.error fault)) a) :
    j.Ends fault.message?.isSome (a ++ { lines := unreachableLine fault }) := by
  cases h with
  | linked links h => simpa using Ends.unlinked _ h
  | pinged links answer h hreply => simpa using Ends.unanswered _ answer _ h

/-- With its connection a startup has sent nothing and reported nothing yet. -/
theorem Story.of_linked {answer : Option (Value α)}
    (h : j.Story (.leaving .link (.ok answer)) a) :
    a = { links := a.links, heard := [.answered (.ok answer)] } := by
  cases h with
  | linked links h => rw [eq_answered_of_outcome? h]

/-- A first command that was answered is all that is left to report. -/
theorem Past.answer {answer : Option (Value α)} (h : j.Past e (.leaving .ping (.ok answer)) a) :
    j.Ends true (a ++ { lines := answeredLine j.remote }) := by
  have hpinged := h.pinged
  cases h.story with
  | pinged links first hend hreply =>
    obtain rfl := eq_answered_of_outcome? hend
    obtain ⟨reply, hpings, houtcome⟩ := hpinged _ _ rfl
    cases hpings
    simpa using Ends.answered links first houtcome

theorem Past.hear {leg : Leg} {due : α} (h : j.Past e (.waiting leg due) a) (ending : Ending α)
    (hcarried : ∀ outcome, ending = .answered outcome → Carries a (.told outcome))
    (hfree : Free e' (.hear leg (ending.outcome? j.milliseconds))) (he : e' = e ∨ e' = .finished) :
    j.Past e' (.hear leg (ending.outcome? j.milliseconds)) (a ++ { heard := [ending] }) := by
  refine ⟨h.story.hear ending, hfree, ?_, ?_, ?_⟩
  · rcases he with rfl | rfl
    · exact h.carries.append rfl rfl
    · trivial
  · intro outcome hhead
    cases h.story with
    | linking due links =>
      obtain ⟨hlinks, -⟩ | ⟨reply, hpings, -⟩ := hcarried outcome (Option.some.inj hhead)
      · simpa using hlinks
      · cases hpings
    | pinging due links answer hreply => simpa using h.linked outcome hhead
  · intro first outcome hheard
    cases h.story with
    | linking due links => cases hheard
    | pinging due links answer hreply =>
      obtain ⟨-, hpings⟩ | ⟨reply, hpings, houtcome⟩ :=
        hcarried outcome (List.cons_eq_cons.mp (List.cons_eq_cons.mp hheard).2).1
      · cases hpings
      · exact ⟨reply, by simpa using hpings, houtcome⟩

/-- What is reported changes neither what was heard nor what was brought back. -/
theorem Past.report (h : j.Past e b a) {lines : List (Notice α)}
    (hstory : j.Story b' (a ++ { lines })) (hfree : Free e b') :
    j.Past e b' (a ++ { lines }) :=
  ⟨hstory, hfree, h.carries.append rfl rfl, by simpa using h.linked, by simpa using h.pinged⟩

theorem Past.step {deadline : α} (h : j.Past e b a)
    (hstep : j.Step deadline seen e b e' b') : j.Past e' b' (a ++ seen) := by
  have hfree := h.free.step hstep
  cases hstep with
  | rest => simpa using h
  | linked outcome =>
    obtain ⟨hnone, hunpinged⟩ := h.carries
    refine ⟨h.story.link hnone outcome, hfree,
      Or.inl ⟨by simp [hnone], by simpa using hunpinged⟩, ?_, by simpa using h.pinged⟩
    intro other hhead
    have hsome := h.linked other (by simpa using hhead)
    rw [hnone] at hsome
    cases hsome
  | arrived outcome =>
    rw [Account.append_empty]
    exact ⟨h.story, hfree, Or.inr h.carries, h.linked, h.pinged⟩
  | heard outcome leg due =>
    refine h.hear _ (fun other heq => ?_) hfree (Or.inr rfl)
    cases heq
    exact h.carries
  | missed outcome hover =>
    rw [Account.append_empty]
    exact ⟨h.story, hfree, trivial, h.linked, h.pinged⟩
  | expired _ leg due => exact h.hear .expired nofun hfree (Or.inl rfl)
  | failed _ leg fault => exact h.report (.ending _ h.story.fail) hfree
  | unsendable _ answer fault =>
    have hlinked := h.linked (.ok answer)
    rw [h.story.of_linked] at hlinked ⊢
    refine ⟨.ending _ (by simpa using Ends.unsendable _ answer fault), hfree, ?_, ?_, ?_⟩
    · rw [h.free answer rfl]
      trivial
    · simpa using hlinked
    · simp
  | sent answer hreply he =>
    have hlinked := h.linked (.ok answer)
    rw [h.story.of_linked] at hlinked ⊢
    refine ⟨by simpa using Story.pinging _ _ answer hreply, hfree, ?_, by simpa using hlinked,
      by simp⟩
    cases he with
    | awaiting h => exact ⟨_, rfl, h⟩
    | told h => exact Or.inr ⟨_, rfl, h⟩
    | silent => trivial
  | answered _ answer => exact h.report (.ending _ h.answer) hfree
  | ended _ left worded =>
    rw [Account.append_empty]
    cases h.story with
    | ending left hends => exact ⟨.settled hends, hfree, h.carries, h.linked, h.pinged⟩

/-! How long it takes -/

variable [Scalar α] {s : Deployment α} {start span delay : α}

/-- The startup is in time: its connection is waited for until a span has passed since the start, at
the latest, and the answer to its first command is waited for as long as a timer takes that is set
before then. -/
def InTime (s : Deployment α) (start span delay : α) : Boot α → Prop
  | .waiting .link due => due ≤ start + span ∧ s.clock ≤ start + span
  | .leaving .link _ => s.clock ≤ start + span
  | .waiting .ping due => ∃ sent, sent ≤ start + span ∧ due = sent + delay
  | _ => True

omit [Scalar α] [Textual α] in
theorem Stands.mem_timers {leg : Leg} {due : α} (h : j.Stands s e (.waiting leg due)) :
    ⟨due, .deadline j.task j.milliseconds⟩ ∈ s.timers := by
  have hmem : (⟨due, .deadline j.task j.milliseconds⟩ : Timer α) ∈ (s.share j.task).deadlines := by
    rw [h.share]
    exact List.mem_singleton_self _
  exact (List.mem_filter.mp hmem).1

omit [Scalar α] [Textual α] in
/-- What is ready for a startup stands in the agenda. -/
theorem Stands.ready_eq_zero (h : j.Stands s e b) (hidle : s.agenda = []) :
    b.ready j.task = 0 := by
  have hshare := congrArg Share.ready h.share
  have hnone : (s.share j.task).ready = 0 := by simp [Deployment.share, Deployment.ready, hidle]
  rw [hnone] at hshare
  exact Multiset.le_zero.mp (hshare ▸ Multiset.le_add_left _ _)

omit [Textual α] in
theorem Stands.inTime_tick (h : j.Stands s e b) (horder : KeepsOrder start span)
    (htime : InTime s start span delay b) {clock : α} (hmay : s.MayShow clock) :
    InTime { s with clock } start span delay b := by
  obtain rfl | ⟨hidle, hdue⟩ := hmay
  · exact htime
  cases b with
  | waiting leg due =>
    cases leg with
    | link =>
      exact ⟨htime.1, horder.trans _ _ _ (hdue _ h.mem_timers) htime.1⟩
    | ping => exact htime
  | leaving leg outcome => exact absurd (h.ready_eq_zero hidle) (Multiset.singleton_ne_zero _)
  | _ => trivial

theorem InTime.step (h : InTime s start span delay b)
    (hdelay : s.clockwork.delay (numeral j.remote.options.timeout) = delay)
    (hstep : j.Step (s.dueAfter (numeral j.remote.options.timeout)) seen e b e' b') :
    InTime s start span delay b' := by
  cases hstep with
  | rest => exact h
  | linked => exact h
  | arrived => exact h
  | missed => exact h
  | heard outcome leg due =>
    cases leg with
    | link => cases hend : (Ending.answered outcome).outcome? j.milliseconds with
      | none => trivial
      | some outcome => exact h.2
    | ping => cases (Ending.answered outcome).outcome? j.milliseconds <;> trivial
  | expired _ leg due =>
    cases leg with
    | link => exact h.2
    | ping => trivial
  | sent answer hreply he => exact ⟨s.clock, h, by rw [dueAfter, hdelay]⟩
  | _ => trivial

omit [Textual α] in
theorem InTime.congr {s' : Deployment α} (h : InTime s start span delay b)
    (hclock : s'.clock = s.clock) : InTime s' start span delay b := by
  unfold InTime at h ⊢
  rwa [hclock]

omit [Textual α] in
/-- At a quiet moment a startup that is in time has ended, or will never end, once its wait for the
answer would have been over in any case. -/
theorem Stands.over_of_quiet (h : j.Stands s e b) (htime : InTime s start span delay b)
    (hquiet : s.Quiet) (horder : KeepsOrder start span) (hdelay : delay ≤ span)
    (hlate : start + span + span ≤ s.clock) (hbusy : ∀ left, b ≠ .busy left) :
    (∃ worded, b = .settled worded) ∨ b = .lost := by
  have hidle := h.ready_eq_zero hquiet.agenda
  cases b with
  | waiting leg due =>
    refine absurd ?_ (hquiet.timers _ h.mem_timers)
    cases leg with
    | link =>
      have hlonger : start + span ≤ start + span + span := horder.add_le start horder.le_add
      exact horder.trans _ _ _ htime.1 (horder.trans _ _ _ hlonger hlate)
    | ping =>
      obtain ⟨sent, hsent, rfl⟩ := htime
      have hlonger : sent + delay ≤ sent + span := horder.add_shorter sent delay hsent hdelay
      exact horder.trans _ _ _ hlonger (horder.trans _ _ _ (horder.add_le sent hsent) hlate)
  | leaving leg outcome => exact absurd hidle (Multiset.singleton_ne_zero _)
  | busy left => exact absurd rfl (hbusy left)
  | ending left worded => exact absurd hidle (Multiset.singleton_ne_zero _)
  | settled worded => exact Or.inl ⟨worded, rfl⟩
  | lost => exact Or.inr rfl

/-! A whole course -/

/-- An event takes a startup one step further, and keeps it in time as long as the clock does. -/
theorem Stands.happen_inTime (h : j.Stands s e b) (hs : s.Prompt) (hfree : Free e b)
    (htext : textOrMissing? j.remote.options.timeout = some j.milliseconds)
    (hdelay : s.clockwork.delay (numeral j.remote.options.timeout) = delay) (ev : Event α) :
    ∃ e' b', j.StepsTo s ev e b e' b' ∧ ((∀ clock, ev = .tick clock → s.MayShow clock) →
      KeepsOrder start span → InTime s start span delay b →
        InTime (s.happen ev) start span delay b') := by
  by_cases htick : ∃ clock, ev = .tick clock
  · obtain ⟨clock, rfl⟩ := htick
    have hother : ¬s.Concerns j.task (.tick clock) := id
    refine ⟨e, b, ⟨h.happen_other hs hother, ?_⟩, fun hmay horder htime => ?_⟩
    · rw [accountAt_other hother]
      exact .rest e b
    · exact h.inTime_tick horder htime (hmay clock rfl)
  · obtain ⟨e', b', hstands, hstep⟩ := h.happen hs hfree htext ev
    refine ⟨e', b', ⟨hstands, hstep⟩, fun _ _ htime => (htime.step hdelay hstep).congr ?_⟩
    exact clock_happen hs fun clock heq => htick ⟨clock, heq⟩

theorem Stands.after (h : j.Stands s e b) (hs : s.Prompt) (hpast : j.Past e b a)
    (htext : textOrMissing? j.remote.options.timeout = some j.milliseconds)
    (hdelay : s.clockwork.delay (numeral j.remote.options.timeout) = delay) (start span : α)
    (events : List (Event α)) :
    ∃ e' b', j.Stands (s.after events) e' b' ∧ j.Past e' b' (a ++ s.account j.task events) ∧
      (s.Punctual events → KeepsOrder start span → InTime s start span delay b →
        InTime (s.after events) start span delay b') := by
  induction events generalizing s e b a with
  | nil => exact ⟨e, b, h, by simpa [account] using hpast, fun _ _ => id⟩
  | cons ev events ih =>
    obtain ⟨e₁, b₁, ⟨hstands, hstep⟩, htime₁⟩ := h.happen_inTime hs hpast.free htext hdelay ev
    obtain ⟨e', b', hstands', hpast', htime'⟩ := ih hstands (hs.happen ev) (hpast.step hstep)
      ((congrArg (Clockwork.delay · _) (clockwork_happen hs ev)).trans hdelay)
    refine ⟨e', b', hstands', ?_, fun hpunctual horder htime => ?_⟩
    · rwa [Account.append_assoc] at hpast'
    · exact htime' hpunctual.2 horder (htime₁ hpunctual.1 horder htime)

end Startup

section

variable [Scalar α] [Textual α] {s : Deployment α} {i : StoreId} {store : RedisStore α}
  {milliseconds : String}

/-- A startup that has just begun. -/
theorem start_runs (hs : s.Clear) (hstore : s.remote? i = some store)
    (htext : textOrMissing? store.options.timeout = some milliseconds) (span : α) :
    let j := s.startup i store milliseconds
    let delay := s.clockwork.delay (numeral store.options.timeout)
    ∃ e b, j.Stands (s.start (.bootStore i)) e b ∧
      j.Past e b (s.accountAt s.tasks.length (.start (.bootStore i))) ∧
      (KeepsOrder s.clock span → delay ≤ span →
        Startup.InTime (s.start (.bootStore i)) s.clock span delay b) := by
  dsimp only
  obtain ⟨fault, hseen, hstands⟩ | ⟨e, hseen, hstands⟩ := stands_start hs hstore htext
  · refine ⟨_, _, hstands, ?_, fun _ _ => trivial⟩
    rw [hseen]
    exact ⟨.ending none (.unlinkable fault), nofun, trivial, nofun, nofun⟩
  · have hclock : (s.happen (.start (.bootStore i))).clock = s.clock :=
      clock_happen hs.prompt nofun
    refine ⟨e, _, hstands, ?_, fun horder hdelay => ⟨?_, hclock ▸ horder.le_add⟩⟩
    · obtain ⟨hseen, rfl⟩ | ⟨hseen, rfl⟩ := hseen
      · rw [hseen]
        exact ⟨.linking _ [], nofun, ⟨rfl, rfl⟩, nofun, nofun⟩
      · rw [hseen]
        exact ⟨.linking _ [.ok none], nofun, Or.inl ⟨rfl, rfl⟩, nofun, nofun⟩
    · exact horder.add_shorter _ _ horder.le_add hdelay

/-- A startup of a store in Redis runs through every course that follows. -/
theorem startup_runs (hs : s.Clear) (hstore : s.remote? i = some store)
    (htext : textOrMissing? store.options.timeout = some milliseconds) (span : α)
    (events : List (Event α)) :
    let j := s.startup i store milliseconds
    let delay := s.clockwork.delay (numeral store.options.timeout)
    let course := .start (.bootStore i) :: events
    ∃ e b, j.Stands (s.after course) e b ∧ j.Past e b (s.account s.tasks.length course) ∧
      (s.Punctual course → KeepsOrder s.clock span → delay ≤ span →
        Startup.InTime (s.after course) s.clock span delay b) := by
  dsimp only
  obtain ⟨e, b, hstands, hpast, htime⟩ := start_runs hs hstore htext span
  have hclockwork := clockwork_happen hs.prompt (.start (.bootStore i))
  obtain ⟨e', b', hstands', hpast', htime'⟩ := hstands.after
    (hs.prompt.happen (.start (.bootStore i))) hpast htext
    (congrArg (Clockwork.delay · _) hclockwork) s.clock span events
  exact ⟨e', b', hstands', hpast', fun hpunctual horder hdelay =>
    htime' hpunctual.2 horder (htime horder hdelay)⟩

end

end Admission.Deployment
