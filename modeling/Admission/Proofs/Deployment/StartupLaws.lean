import Admission.Proofs.Deployment.StartupRun

/-!
What a startup comes to.

A startup of a store in Redis ends well whatever becomes of its connection and of its first command,
and it ends after two timeouts at the latest. The one exception is what it is told and cannot put
into words: it fails with a fault that it cannot report, and an end of a wait that does not even
become a fault is heard by nobody.
-/
namespace Admission.Deployment

variable {α : Type}

/-! What an account tells -/

namespace Startup

variable [Textual α] {j : Startup α} {a : Account α} {worded : Bool} {b : Boot α}

theorem length_unreachableLine_le (fault : Fault α) : (unreachableLine fault).length ≤ 1 := by
  unfold unreachableLine
  cases fault.message? <;> simp

theorem Ends.lines_length_le (h : j.Ends worded a) : a.lines.length ≤ 1 := by
  cases h with
  | answered links answer h =>
    show (answeredLine j.remote).length ≤ 1
    unfold answeredLine
    split
    · exact Nat.le_refl 1
    · exact length_unreachableLine_le .wordless
  | _ => exact length_unreachableLine_le _

/-- A fault that a startup could not report. -/
theorem Ends.unworded (h : j.Ends worded a) (hworded : worded = false) : a.lines = [] ∧
    ∃ fault, a.Meets j.milliseconds fault ∧ fault.message? = none := by
  have hline : ∀ fault : Fault α, fault.message?.isSome = false →
      unreachableLine fault = [] ∧ fault.message? = none := by
    intro fault hfault
    have hnone := Option.isNone_iff_eq_none.mp (Option.isSome_eq_false_iff.mp hfault)
    exact ⟨by simp [unreachableLine, hnone], hnone⟩
  cases h with
  | unlinkable fault =>
    obtain ⟨hlines, hnone⟩ := hline fault hworded
    exact ⟨hlines, fault, Or.inl ⟨rfl, rfl⟩, hnone⟩
  | unlinked links h =>
    obtain ⟨hlines, hnone⟩ := hline _ hworded
    exact ⟨hlines, _, Or.inr (Or.inr ⟨_, List.mem_cons_self, h⟩), hnone⟩
  | unsendable links answer fault =>
    obtain ⟨hlines, hnone⟩ := hline fault hworded
    exact ⟨hlines, fault, Or.inr (Or.inl rfl), hnone⟩
  | unanswered links answer reply h =>
    obtain ⟨hlines, hnone⟩ := hline _ hworded
    exact ⟨hlines, _, Or.inr (Or.inr ⟨_, List.mem_cons_of_mem _ List.mem_cons_self, h⟩), hnone⟩
  | answered => cases hworded

/-- What a startup that has ended well reported. -/
theorem Ends.reported (h : j.Ends worded a) (hworded : worded = true) :
    (∃ keyLead reply answer, textOrMissing? j.remote.options.keyLead = some keyLead ∧
      a.pings = [reply] ∧ reply.outcome? = some (.ok answer) ∧ a.lines = [.linked keyLead]) ∨
    ∃ fault message, fault.message? = some message ∧ a.lines = [.unreachable message] ∧
      (a.Meets j.milliseconds fault ∨
        textOrMissing? j.remote.options.keyLead = none ∧ fault = .wordless) := by
  have hline : ∀ fault : Fault α, fault.message?.isSome = true →
      ∃ message, fault.message? = some message ∧
        unreachableLine fault = [.unreachable message] := by
    intro fault hfault
    obtain ⟨message, hmessage⟩ := Option.isSome_iff_exists.mp hfault
    exact ⟨message, hmessage, by simp [unreachableLine, hmessage]⟩
  cases h with
  | unlinkable fault =>
    obtain ⟨message, hmessage, hlines⟩ := hline fault hworded
    exact Or.inr ⟨fault, message, hmessage, hlines, Or.inl (Or.inl ⟨rfl, rfl⟩)⟩
  | unlinked links h =>
    obtain ⟨message, hmessage, hlines⟩ := hline _ hworded
    exact Or.inr ⟨_, message, hmessage, hlines,
      Or.inl (Or.inr (Or.inr ⟨_, List.mem_cons_self, h⟩))⟩
  | unsendable links answer fault =>
    obtain ⟨message, hmessage, hlines⟩ := hline fault hworded
    exact Or.inr ⟨fault, message, hmessage, hlines, Or.inl (Or.inr (Or.inl rfl))⟩
  | unanswered links answer reply h =>
    obtain ⟨message, hmessage, hlines⟩ := hline _ hworded
    exact Or.inr ⟨_, message, hmessage, hlines,
      Or.inl (Or.inr (Or.inr ⟨_, List.mem_cons_of_mem _ List.mem_cons_self, h⟩))⟩
  | @answered links answer reply pong h =>
    cases hkeyLead : textOrMissing? j.remote.options.keyLead with
    | some keyLead =>
      exact Or.inl ⟨keyLead, reply, pong, rfl, rfl, h, by simp [answeredLine, hkeyLead]⟩
    | none =>
      obtain ⟨message, hmessage, hlines⟩ := hline .wordless rfl
      exact Or.inr ⟨.wordless, message, hmessage, by simp [answeredLine, hkeyLead, hlines],
        Or.inr ⟨rfl, rfl⟩⟩

/-- Every end of a wait of a startup that came to its own end was heard. -/
theorem Ends.not_isDeafened (h : j.Ends worded a) : ¬a.IsDeafened j.milliseconds := by
  rintro ⟨ending, hmem, hnone⟩
  cases h with
  | unlinkable => cases hmem
  | unlinked links h =>
    obtain rfl := List.mem_singleton.mp hmem
    cases h.symm.trans hnone
  | unsendable =>
    obtain rfl := List.mem_singleton.mp hmem
    cases hnone
  | unanswered links answer reply h =>
    obtain rfl | hmem := List.mem_cons.mp hmem
    · cases hnone
    · obtain rfl := List.mem_singleton.mp hmem
      cases h.symm.trans hnone
  | answered =>
    obtain rfl | hmem := List.mem_cons.mp hmem
    · cases hnone
    · obtain rfl := List.mem_singleton.mp hmem
      cases hnone

theorem Ends.pings_length_le (h : j.Ends worded a) : a.pings.length ≤ 1 := by
  cases h <;> simp

theorem Story.pings_length_le (h : j.Story b a) : a.pings.length ≤ 1 := by
  cases h with
  | ending left h => exact h.pings_length_le
  | settled h => exact h.pings_length_le
  | _ => simp

theorem Story.lines_length_le (h : j.Story b a) : a.lines.length ≤ 1 := by
  cases h with
  | ending left h => exact h.lines_length_le
  | settled h => exact h.lines_length_le
  | _ => simp

theorem Story.isDeafened_iff (h : j.Story b a) : a.IsDeafened j.milliseconds ↔ b = .lost := by
  cases h with
  | ending left h => exact iff_of_false h.not_isDeafened nofun
  | settled h => exact iff_of_false h.not_isDeafened nofun
  | unlinked links h => exact iff_of_true ⟨_, List.mem_cons_self, h⟩ rfl
  | unanswered links answer h reply =>
    exact iff_of_true ⟨_, List.mem_cons_of_mem _ List.mem_cons_self, h⟩ rfl
  | linking => exact iff_of_false (by simp [Account.IsDeafened]) nofun
  | linked links h => exact iff_of_false (by simp [Account.IsDeafened, h]) nofun
  | pinging due links answer =>
    have hheard : (Ending.answered (.ok answer)).outcome? j.milliseconds = some (.ok answer) := rfl
    exact iff_of_false (by simp [Account.IsDeafened, hheard]) nofun
  | pinged links answer h =>
    have hheard : (Ending.answered (.ok answer)).outcome? j.milliseconds = some (.ok answer) := rfl
    exact iff_of_false (by simp [Account.IsDeafened, hheard, h]) nofun

theorem Story.ne_busy (h : j.Story b a) (left : Option (Leg × Outcome α)) : b ≠ .busy left := by
  rintro rfl
  cases h

end Startup

variable [Scalar α] [Textual α]

/-! The first command -/

/-- The first command is sent for a task when it goes on after a wait. -/
theorem exists_resume_of_pinged {s : Deployment α} {t : TaskId} {ev : Event α} {reply : Reply α}
    (h : s.pinged? t ev = some reply) : ∃ n, ev = .work n ∧ s.agenda[n]? = some (0, .resume t) := by
  cases ev with
  | work n =>
    simp only [pinged?] at h
    split at h
    · next u i purpose answer hentry htask =>
      obtain ⟨rfl, -⟩ := Option.ite_none_right_eq_some.mp h
      exact ⟨n, rfl, hentry⟩
    · cases h
  | _ => cases h

namespace Startup

variable {j : Startup α} {s : Deployment α} {e : Errand α} {b : Boot α} {a : Account α}

/-- A startup that sends its first command has its connection, and has sent none before. -/
theorem Stands.of_pinged (h : j.Stands s e b) (hpast : j.Past e b a)
    (htext : textOrMissing? j.remote.options.timeout = some j.milliseconds) {ev : Event α}
    {reply : Reply α} (hpinged : s.pinged? j.task ev = some reply) :
    (∃ answer, a.links = [.ok answer]) ∧ a.pings = [] ∧
      s.made ev = s.shown j.remote.client .ping := by
  obtain ⟨n, rfl, hentry⟩ := exists_resume_of_pinged hpinged
  obtain ⟨_, h, -⟩ | ⟨leg, outcome, -, rfl, htaken⟩ | ⟨_, _, h, -⟩ := h.of_ready hentry rfl
  · cases h
  · obtain ⟨rfl, answer, rfl⟩ : leg = .link ∧ ∃ answer, outcome = .ok answer := by
      by_contra hnot
      rw [h.pinged?_other ?_] at hpinged
      · cases hpinged
      · cases leg with
        | ping => exact Or.inl rfl
        | link =>
          cases outcome with
          | error fault => exact Or.inr ⟨fault, rfl⟩
          | ok answer => exact absurd ⟨rfl, answer, rfl⟩ hnot
    have hlinked := hpast.linked (.ok answer)
    rw [hpast.story.of_linked] at hlinked ⊢
    refine ⟨⟨answer, hlinked rfl⟩, rfl, made_eq ?_⟩
    obtain rfl := hpast.free answer rfl
    have hhappen : s.happen (.work n) = (s.taken (.work n)).resume j.task := by
      simp only [Deployment.happen, hentry, taken, turn, run]
    rw [hhappen]
    exact (htaken.resume_linked htext).1
  · cases h

end Startup

/-- The first command is sent for startups only. -/
theorem exists_pinged_of_made {s : Deployment α} (hs : s.Prompt) {ev : Event α}
    (h : .ping ∈ s.made ev) : ∃ t reply, s.pinged? t ev = some reply := by
  obtain ⟨t, hsends | ⟨n, answer, rfl, hentry, hprogress⟩⟩ := exists_commands hs h (Or.inl rfl)
  · obtain ⟨n, rfl, hentry⟩ := exists_of_sends hsends
    cases makes_of_mem_made hs h with
    | resumes hresume =>
      rw [hentry] at hresume
      cases hresume
  · obtain ⟨⟨i, purpose, progress⟩, htask, rfl⟩ := Option.map_eq_some_iff.mp hprogress
    cases hstore : s.remote? i with
    | some store => exact ⟨t, _, by simp only [pinged?, hentry, htask, if_true, hstore]; rfl⟩
    | none =>
      -- A startup of anything but a store in Redis goes nowhere.
      have hhappen : s.happen (.work n) = s.taken (.work n) := by
        have hnot : ∀ store, (s.taken (.work n)).stores[i]? ≠ some (.redis store) := by
          intro store heq
          cases hstore.symm.trans (remote?_eq_some_iff.mpr heq)
        simp only [Deployment.happen, hentry, turn, run]
        show (s.taken (.work n)).resume t = _
        have htask' : (s.taken (.work n)).tasks[t]? =
            some ⟨i, purpose, .leaving .link (.ok answer)⟩ := htask
        simp only [resume, htask']
        rcases hslot : (s.taken (.work n)).stores[i]? with _ | _ | store | _
        · rfl
        · rfl
        · exact absurd hslot (hnot store)
        · rfl
      have hnone : s.made (.work n) = [] := made_eq (by rw [hhappen, calls_taken, List.append_nil])
      rw [hnone] at h
      cases h

/-- What a course makes of a startup, given what has been seen of it. -/
structure Boots (t : TaskId) (store : RedisStore α) (milliseconds : String) (seen : Account α)
    (s : Deployment α) : Prop where
  /-- It ends well or not at all, unless it is told a fault that cannot be put into words. -/
  settled : (s.share t).settled = [] ∨ (s.share t).settled = [.answered none] ∨
    (s.share t).settled = [.failed .wordless] ∧
      ∃ fault, seen.Meets milliseconds fault ∧ fault.message? = none
  /-- It never ends once an end of one of its waits was heard by nobody. -/
  deafened : seen.IsDeafened milliseconds → (s.share t).settled = []
  /-- It sends its first command once at most. -/
  once : seen.pings.length ≤ 1
  /-- It sends its first command with its connection only, be it that the attempt that it waited
  for has succeeded or that none was needed. -/
  linked : ∀ ev reply, s.pinged? t ev = some reply →
    (∃ answer, seen.links = [.ok answer]) ∧ seen.pings = [] ∧
      s.made ev = s.shown store.client .ping
  /-- Nobody but startups sends that command. -/
  sent : ∀ ev, .ping ∈ s.made ev → ∃ u reply, s.pinged? u ev = some reply
  /-- Ending well it reports one line: that it is linked, if its first command was answered, or
  else why its store cannot be reached. -/
  reported : (s.share t).settled = [.answered none] →
    (∃ keyLead reply answer, textOrMissing? store.options.keyLead = some keyLead ∧
      seen.pings = [reply] ∧ reply.outcome? = some (.ok answer) ∧
      seen.lines = [.linked keyLead]) ∨
    ∃ fault message, fault.message? = some message ∧ seen.lines = [.unreachable message] ∧
      (seen.Meets milliseconds fault ∨
        textOrMissing? store.options.keyLead = none ∧ fault = .wordless)
  /-- Otherwise it reports that line when it is about to end, or nothing. -/
  silent : seen.lines.length ≤ 1 ∧ ((s.share t).settled = [.failed .wordless] → seen.lines = [])
  /-- It has one timer at most, and none once it has ended or nobody hears of it. -/
  timers : (s.share t).deadlines.length ≤ 1 ∧
    ((s.share t).settled ≠ [] ∨ seen.IsDeafened milliseconds → (s.share t).deadlines = [])

variable {s : Deployment α} {j : Startup α} {e : Errand α} {b : Boot α} {a : Account α}

omit [Scalar α] in
/-- A startup that has ended came to its end in one of the known ways. -/
theorem Startup.Stands.settled_cases (h : j.Stands s e b) (hstory : j.Story b a) :
    (s.share j.task).settled = [] ∨
      ∃ worded, j.Ends worded a ∧ (s.share j.task).settled = [Boot.settlement worded] := by
  rw [h.share]
  cases hstory with
  | settled hends => exact Or.inr ⟨_, hends, rfl⟩
  | _ => exact Or.inl rfl

theorem Startup.Stands.boots (h : j.Stands s e b) (hs : s.Prompt) (hpast : j.Past e b a)
    (htext : textOrMissing? j.remote.options.timeout = some j.milliseconds) :
    Boots j.task j.remote j.milliseconds a s where
  settled := by
    obtain hopen | ⟨worded, hends, hsettled⟩ := h.settled_cases hpast.story
    · exact Or.inl hopen
    · cases worded with
      | true => exact Or.inr (Or.inl hsettled)
      | false => exact Or.inr (Or.inr ⟨hsettled, (hends.unworded rfl).2⟩)
  deafened hdeafened := by
    obtain rfl := hpast.story.isDeafened_iff.mp hdeafened
    rw [h.share]
    rfl
  once := hpast.story.pings_length_le
  linked ev reply hpinged := h.of_pinged hpast htext hpinged
  sent ev := exists_pinged_of_made hs
  reported hwell := by
    obtain hopen | ⟨worded, hends, hsettled⟩ := h.settled_cases hpast.story
    · cases hopen.symm.trans hwell
    · cases worded with
      | true => exact hends.reported rfl
      | false => cases hsettled.symm.trans hwell
  silent := by
    refine ⟨hpast.story.lines_length_le, fun hfailed => ?_⟩
    obtain hopen | ⟨worded, hends, hsettled⟩ := h.settled_cases hpast.story
    · cases hopen.symm.trans hfailed
    · cases worded with
      | true => cases hsettled.symm.trans hfailed
      | false => exact (hends.unworded rfl).1
  timers := by
    rw [h.share]
    cases b with
    | waiting leg due =>
      refine ⟨Nat.le_refl 1, ?_⟩
      rintro (hsettled | hdeafened)
      · exact absurd rfl hsettled
      · cases hpast.story.isDeafened_iff.mp hdeafened
    | _ => exact ⟨Nat.zero_le 1, fun _ => rfl⟩

/-- Startups of a store in Redis do not fail. Whatever the client of the store does, and whatever
else happens, a startup sends its first command once at most, and only with its connection; it ends
well, with one line in the log, and leaves no timer behind. As long as the clock keeps time, it has
ended once two timeouts have passed since it began. The exceptions come from what cannot be put
into words: such a fault makes it fail, and an end of a wait that is such a failure makes it never
end. -/
theorem boots_anyway {s : Deployment α} (hs : s.Reachable) {i : StoreId} {store : RedisStore α}
    (hstore : s.remote? i = some store) {milliseconds : String}
    (htext : textOrMissing? store.options.timeout = some milliseconds) (events : List (Event α)) :
    let t := s.tasks.length
    let course := .start (.bootStore i) :: events
    let reached := s.after course
    let seen := s.account t course
    reached.Boots t store milliseconds seen ∧
    ∀ x, store.options.timeout = some (.number x) → x ≤ x → 1 ≤ x → KeepsOrder s.clock x →
      s.Punctual course → reached.Quiet → s.clock + x + x ≤ reached.clock →
      (reached.share t).settled ≠ [] ∨ seen.IsDeafened milliseconds := by
  dsimp only
  have hreached := hs.after (.start (.bootStore i) :: events)
  refine ⟨?_, fun x hx hnumber hleast horder hpunctual hquiet hlate => ?_⟩
  · obtain ⟨e, b, hstands, hpast, -⟩ := startup_runs hs.clear hstore htext s.clock events
    exact hstands.boots hreached.prompt hpast htext
  obtain ⟨e, b, hstands, hpast, htime⟩ := startup_runs hs.clear hstore htext x events
  have htimeout : numeral store.options.timeout = x := by
    simp [hx, numeral, Value.asNumber?, hnumber]
  have hdelay : s.clockwork.delay (numeral store.options.timeout) ≤ x :=
    htimeout.symm ▸ horder.delay_le hnumber hleast s.clockwork
  obtain ⟨worded, rfl⟩ | rfl := hstands.over_of_quiet (htime hpunctual horder hdelay) hquiet horder
    hdelay hlate hpast.story.ne_busy
  · refine Or.inl ?_
    rw [show s.tasks.length = (s.startup i store milliseconds).task from rfl, hstands.share]
    exact List.cons_ne_nil _ _
  · exact Or.inr (hpast.story.isDeafened_iff.mpr rfl)

/-- The attempt to connect fails with a value that cannot be put into words. -/
def wordlessLink : ClientScript ℚ :=
  { connect :=
      [.settles none (.error (.bare (some (.object [(Value.textField, .number 1)])))) none] }

/-- After such a failure the startup never ends, though it has no timer left and the clock has long
passed both of its timeouts. -/
theorem boots_anyway_wordless :
    let s := lone true wordlessLink
    let course := [.start (.bootStore 0), .work 0, .work 0, .work 0, .work 0, .tick 1100]
    let reached := s.after course
    s.Reachable ∧ s.Punctual course ∧ reached.Quiet ∧ s.clock + 50 + 50 ≤ reached.clock ∧
      (s.account 0 course).IsDeafened "50" ∧ (reached.share 0).settled = [] ∧
      (reached.share 0).deadlines = [] := by
  have htext : textOrMissing? (some (.number (50 : ℚ))) = some "50" := rfl
  have hs := lone_reachable true wordlessLink
  obtain ⟨hboots, htime⟩ := boots_anyway hs (i := 0) rfl htext
    [.work 0, .work 0, .work 0, .work 0, .tick 1100]
  have hpunctual : (lone true wordlessLink).Punctual
      [.start (.bootStore 0), .work 0, .work 0, .work 0, .work 0, .tick 1100] :=
    ⟨nofun, nofun, nofun, nofun, nofun, fun clock _ => Or.inr ⟨rfl, nofun⟩, trivial⟩
  have hquiet : ((lone true wordlessLink).after
      [.start (.bootStore 0), .work 0, .work 0, .work 0, .work 0, .tick 1100]).Quiet :=
    ⟨rfl, nofun⟩
  have hlate : (1000 + 50 + 50 : ℚ) ≤ 1100 := by norm_num
  have hdeafened := (htime 50 rfl (le_refl _) (by norm_num) (keepsOrder_rat _ (by norm_num))
    hpunctual hquiet hlate).resolve_left (absurd rfl)
  exact ⟨hs, hpunctual, hquiet, hlate, hdeafened, hboots.deafened hdeafened,
    hboots.timers.2 (Or.inr hdeafened)⟩

end Admission.Deployment
