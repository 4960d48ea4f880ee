import Admission.Proofs.Deployment.Deadline
import Admission.Proofs.Deployment.Links

/-!
When the script of a check is sent.

The script is sent once at most, and whether it is sent at all depends on the connection of the
store alone. The end of the wait does not come into it: a check that its caller has given up goes on
to send its script as soon as the attempt to connect that it waits for succeeds.
-/
namespace Admission.Deployment

variable {α : Type}

section

variable [Scalar α] [Textual α]

/-! What becomes of work that is ready -/

/-- Work that is ready stays ready until its turn comes. -/
theorem mem_ready_happen {s : Deployment α} (hs : s.Prompt) {job : Job α} (h : job ∈ s.ready)
    (ev : Event α) :
    job ∈ (s.happen ev).ready ∨ ∃ n, ev = .work n ∧ s.agenda[n]? = some (0, job) := by
  have hkept : job ∈ (s.taken ev).ready → job ∈ (s.happen ev).ready := by
    intro hmem
    obtain ⟨more, hagenda, -⟩ := (happen_moves hs ev).exists_agenda_eq
    rw [Deployment.ready, hagenda, List.map_append]
    exact List.mem_append_left _ hmem
  cases ev with
  | work n =>
    cases hentry : s.agenda[n]? with
    | none =>
      have hsame : s.happen (.work n) = s := by simp only [happen, hentry]
      exact Or.inl (hsame.symm ▸ h)
    | some entry =>
      obtain ⟨turns, other⟩ := entry
      rw [ready_taken hentry] at h
      rcases Multiset.mem_cons.mp h with rfl | hrest
      · cases turns with
        | zero => exact Or.inr ⟨n, rfl, hentry⟩
        | succ turns =>
          have hhappen : s.happen (.work n) = (s.taken (.work n)).post turns job := by
            simp only [happen, hentry, taken, turn]
          rw [hhappen, ready_post]
          exact Or.inl (Multiset.mem_cons_self job _)
      · exact Or.inl (hkept hrest)
  | _ => exact Or.inl (hkept h)

/-- While an attempt to connect is under way, no other end of one comes up. -/
theorem links_happen_of_attempt {s : Deployment α} (hs : s.Prompt) {i : StoreId}
    (hattempt : s.attempt? i ≠ none) (ev : Event α) :
    s.links i = ((s.linkEnd? i ev).toList : Multiset (Outcome α)) + (s.happen ev).links i := by
  by_cases hev : ∃ call, ev = .start call
  · obtain ⟨call, rfl⟩ := hev
    show s.links i = 0 + (s.start call).links i
    rw [Multiset.zero_add]
    obtain hmoves | ⟨k, store, r, s₁, s₂, harrives⟩ := s.start_aloof_or_arrives call
    · exact (hmoves.links_eq fun job hown hlink =>
        nomatch hown.symm.trans (owner?_of_link? hlink)).symm
    by_cases hk : k = i
    · subst hk
      have hsame : s.attempt? k = store.attempt := by simp [attempt?, harrives.remote]
      obtain ⟨-, line, -, -, hlinks, -⟩ | ⟨-, ⟨store', -, hstore', -, hnone, -⟩, -⟩ | ⟨hnone, -⟩ :=
        harrives.attempt?_links
      · exact hlinks.symm
      · exact absurd (by simp [attempt?, hstore', hnone]) hattempt
      · exact absurd (hsame.trans hnone) hattempt
    · exact (start_other fun h => hk (Option.some.inj (harrives.storeOf.symm.trans h))).2.symm
  · exact links_happen hs (fun call hcall => hev ⟨call, hcall⟩) i

namespace Journey

variable {j : Journey α} {s : Deployment α} {e : Errand α} {w : Wait α}

theorem Stands.evaluate_mem_ready_iff (h : j.Stands s e w) :
    .evaluate j.task ∈ s.ready ↔ e = .sending := by
  have hready : (s.share j.task).ready = e.ready j.task + w.ready j.task :=
    congrArg Share.ready h.share
  rw [← mem_share_ready rfl, hready, Multiset.mem_add]
  constructor
  · rintro (hmem | hmem)
    · cases e <;> simp_all [Errand.ready]
    · cases w <;> simp [Wait.ready] at hmem
  · rintro rfl
    exact Or.inl (Multiset.mem_singleton_self _)

/-- A check waits for a connection only of its own store, and only as long as its errand does. -/
theorem Stands.mem_waiters_iff (h : j.Stands s e w) {i : StoreId} :
    j.task ∈ s.waiters i ↔ e = .linking ∧ i = j.store := h.caller.mem_waiters_iff

theorem Stands.attempt?_ne_none (h : j.Stands s .linking w) : s.attempt? j.store ≠ none := by
  intro hnone
  have hmem := h.mem_waiters_iff.mpr ⟨rfl, rfl⟩
  rw [waiters, hnone] at hmem
  cases hmem

/-- What an errand that waits for its connection hears is the end of the attempt of its store. -/
theorem Stands.act?_eq_links_iff (h : j.Stands s .linking w) {ev : Event α} {outcome : Outcome α} :
    s.act? j.task ev = some (.links outcome) ↔ s.linkEnd? j.store ev = some outcome := by
  have hwaits := h.mem_waiters_iff.mpr ⟨rfl, rfl⟩
  cases ev with
  | work n =>
    simp only [act?, linkEnd?]
    rcases s.agenda[n]? with _ | ⟨_ | turns, job⟩
    · simp
    · cases job with
      | linkSettled k other status =>
        by_cases hk : k = j.store
        · subst hk
          simp [hwaits, Job.linkEnd?]
        · have hnot : j.task ∉ s.waiters k := fun hmem => hk (h.mem_waiters_iff.mp hmem).2
          simp [hnot, Job.linkEnd?, hk]
      | evaluate u => by_cases hu : u = j.task <;> simp [hu, Job.linkEnd?]
      | answer u other => by_cases hu : u = j.task <;> simp [hu, Job.linkEnd?]
      | _ => simp [Job.linkEnd?]
    · simp
  | alarm n =>
    simp only [act?, linkEnd?]
    split
    · split <;> simp
    · simp
  | _ => simp [act?, linkEnd?]

/-- A check that sends its script later is about to send it, or waits for an attempt to connect that
will succeed. -/
theorem Stands.of_sendings (h : j.Stands s e w) (hs : s.Prompt)
    (hlive : w = .waiting → s.isAborted j.check.signal = false) {later : List (Event α)}
    (hsends : 0 < s.sendings j.task later) :
    e = .sending ∨ e = .linking ∧ ∃ answer, .ok answer ∈ s.links j.store := by
  induction later generalizing s e w with
  | nil => exact absurd hsends (Nat.lt_irrefl 0)
  | cons ev later ih =>
    obtain ⟨e₁, w₁, hstep⟩ := h.happen hs hlive ev
    have hnext := ih hstep.stands (hs.happen ev) (hstep.live hs hlive)
    have herrand := hstep.errand
    generalize hact : s.act? j.task ev = act at herrand
    cases herrand with
    | rest =>
      have hrest : 0 < (s.happen ev).sendings j.task later := by
        simpa [sendings, hact, Act.isSending] using hsends
      obtain rfl | ⟨rfl, answer, hanswer⟩ := hnext hrest
      · exact Or.inl rfl
      · refine Or.inr ⟨rfl, answer, ?_⟩
        rw [links_happen_of_attempt hs h.attempt?_ne_none ev]
        exact Multiset.mem_add.mpr (Or.inr hanswer)
    | linked outcome =>
      have hrest : 0 < (s.happen ev).sendings j.task later := by
        simpa [sendings, hact, Act.isSending] using hsends
      cases outcome with
      | ok answer =>
        refine Or.inr ⟨rfl, answer, ?_⟩
        rw [links_happen_of_attempt hs h.attempt?_ne_none ev, h.act?_eq_links_iff.mp hact]
        exact Multiset.mem_add.mpr (Or.inl (Multiset.mem_singleton_self _))
      | error fault => obtain h | ⟨h, -⟩ := hnext hrest <;> cases h
    | sent => exact Or.inl rfl
    | replied => exact Or.inl rfl
    | unanswered => exact Or.inl rfl
    | _ =>
      have hrest : 0 < (s.happen ev).sendings j.task later := by
        simpa [sendings, hact, Act.isSending] using hsends
      obtain h | ⟨h, -⟩ := hnext hrest <;> cases h

/-- The script of a check is about to be sent, or the success of the attempt that it waits for is
ready. -/
def Primed (j : Journey α) (s : Deployment α) (e : Errand α) : Prop :=
  e = .sending ∨ e = .linking ∧ ∃ answer status, .linkSettled j.store (.ok answer) status ∈ s.ready

theorem Stands.primed_happen (h : j.Stands s e w) (hs : s.Prompt)
    (hlive : w = .waiting → s.isAborted j.check.signal = false) (hlinked : s.Linked j.store)
    (hprimed : j.Primed s e) {ev : Event α} (hunsent : s.act? j.task ev ≠ some .sends) :
    ∃ e' w', j.StepsTo s ev e w e' w' ∧ j.Primed (s.happen ev) e' := by
  obtain ⟨e', w', hstep⟩ := h.happen hs hlive ev
  refine ⟨e', w', hstep, ?_⟩
  have herrand := hstep.errand
  generalize hact : s.act? j.task ev = act at herrand hunsent
  obtain rfl | ⟨rfl, answer, status, hready⟩ := hprimed
  · cases herrand with
    | rest => exact Or.inl rfl
    | _ => exact absurd rfl hunsent
  · have hmem : .ok answer ∈ s.links j.store :=
      (Multiset.mem_filterMap _ _).mpr ⟨_, Multiset.mem_add.mpr (Or.inl hready), if_pos rfl⟩
    cases herrand with
    | rest =>
      obtain hstill | ⟨n, rfl, hentry⟩ := mem_ready_happen hs hready ev
      · exact Or.inr ⟨rfl, answer, status, hstill⟩
      · have hend : s.linkEnd? j.store (.work n) = some (.ok answer) := by
          simp [linkEnd?, hentry, Job.linkEnd?]
        rw [h.act?_eq_links_iff.mpr hend] at hact
        cases hact
    | linked outcome =>
      -- There is one end at most, so the one that comes is the success.
      have hlinks := links_happen_of_attempt hs h.attempt?_ne_none ev
      rw [h.act?_eq_links_iff.mp hact] at hlinks
      have hsingle := hlinked.single
      rw [hlinks] at hsingle hmem
      have hnone : (s.happen ev).links j.store = 0 := by
        rw [← Multiset.card_eq_zero]
        simpa using hsingle
      rw [hnone, Multiset.add_zero] at hmem
      obtain rfl := Multiset.mem_singleton.mp hmem
      exact Or.inl rfl

theorem Stands.primed_after (h : j.Stands s e w) (hs : s.Prompt)
    (hlive : w = .waiting → s.isAborted j.check.signal = false) (hlinked : s.Linked j.store)
    (hprimed : j.Primed s e) {later : List (Event α)} (hunsent : s.sendings j.task later = 0) :
    ∃ e' w', j.Stands (s.after later) e' w' ∧ j.Primed (s.after later) e' := by
  induction later generalizing s e w with
  | nil => exact ⟨e, w, h, hprimed⟩
  | cons ev later ih =>
    obtain ⟨hnow, hlater⟩ := Nat.add_eq_zero_iff.mp hunsent
    have hnot : s.act? j.task ev ≠ some .sends := by
      intro hact
      rw [hact] at hnow
      cases hnow
    obtain ⟨e₁, w₁, hstep, hprimed₁⟩ := h.primed_happen hs hlive hlinked hprimed hnot
    exact ih hstep.stands (hs.happen ev) (hstep.live hs hlive) (hlinked.happen hs ev) hprimed₁
      hlater

/-- Letting all ready work take its turns sends the script. -/
theorem Stands.exists_sends_of_primed (h : j.Stands s e w) (hs : s.Prompt)
    (hlive : w = .waiting → s.isAborted j.check.signal = false) (hlinked : s.Linked j.store)
    (hprimed : j.Primed s e) : ∃ later, 0 < s.sendings j.task later := by
  obtain ⟨turns, hturns⟩ := s.exists_after_drain
  refine ⟨List.replicate turns (.work 0), Nat.pos_of_ne_zero fun hunsent => ?_⟩
  obtain ⟨e', w', hstands, hstill⟩ := h.primed_after hs hlive hlinked hprimed hunsent
  have hidle : (s.after (List.replicate turns (.work 0))).ready = 0 := by
    rw [← hturns]
    simp [Deployment.ready, agenda_drain hs]
  obtain rfl | ⟨-, answer, status, hready⟩ := hstill
  · have hready := hstands.evaluate_mem_ready_iff.mpr rfl
    rw [hidle] at hready
    cases hready
  · rw [hidle] at hready
    cases hready

theorem Stands.exists_sends_iff (h : j.Stands s e w) (hs : s.Prompt)
    (hlive : w = .waiting → s.isAborted j.check.signal = false) (hlinked : s.Linked j.store) :
    (∃ later, 0 < s.sendings j.task later) ↔
      .evaluate j.task ∈ s.ready ∨
        j.task ∈ s.waiters j.store ∧ ∃ answer, .ok answer ∈ s.links j.store := by
  rw [h.evaluate_mem_ready_iff, h.mem_waiters_iff, and_iff_left rfl]
  constructor
  · rintro ⟨later, hsends⟩
    exact h.of_sendings hs hlive hsends
  · rintro (rfl | ⟨rfl, answer, hanswer⟩)
    · exact h.exists_sends_of_primed hs hlive hlinked (Or.inl rfl)
    obtain ⟨job, hjob, hend⟩ := (Multiset.mem_filterMap _ _).mp hanswer
    obtain ⟨status, rfl⟩ : ∃ status, job = .linkSettled j.store (.ok answer) status := by
      cases job with
      | linkSettled k outcome status =>
        simp only [Job.linkEnd?, Option.ite_none_right_eq_some, Option.some.injEq] at hend
        obtain ⟨rfl, rfl⟩ := hend
        exact ⟨status, rfl⟩
      | _ => cases hend
    rcases Multiset.mem_add.mp hjob with hready | hawaited
    · exact h.exists_sends_of_primed hs hlive hlinked (Or.inr ⟨rfl, answer, status, hready⟩)
    -- The success is on its way: it arrives first.
    obtain ⟨timer, htimer, hreply⟩ := List.mem_filterMap.mp hawaited
    obtain ⟨n, hn⟩ := List.mem_iff_getElem?.mp htimer
    have hact : s.act? j.task (.alarm n) = none := by simp [act?, hn, hreply]
    obtain ⟨e', w', hstep⟩ := h.happen hs hlive (.alarm n)
    have herrand := hstep.errand
    rw [hact] at herrand
    cases herrand
    have harrived : .linkSettled j.store (.ok answer) status ∈ (s.happen (.alarm n)).ready := by
      obtain ⟨due, alarm⟩ := timer
      cases alarm with
      | reply turns job =>
        cases hreply
        simp only [Deployment.happen, hn, fire, ready_post]
        exact Multiset.mem_cons_self _ _
      | _ => cases hreply
    obtain ⟨later, hlater⟩ := hstep.stands.exists_sends_of_primed (hs.happen _)
      (hstep.live hs hlive) (hlinked.happen hs _) (Or.inr ⟨rfl, answer, status, harrived⟩)
    exact ⟨.alarm n :: later, Nat.lt_of_lt_of_le hlater (Nat.le_add_left _ _)⟩

theorem Stands.unsent_iff (h : j.Stands s e w) (hs : s.Prompt)
    (hlive : w = .waiting → s.isAborted j.check.signal = false) (hlinked : s.Linked j.store) :
    (∀ later, s.sendings j.task later = 0) ↔ .evaluate j.task ∉ s.ready ∧
      (j.task ∈ s.waiters j.store → ∀ answer, .ok answer ∉ s.links j.store) := by
  have hnever : (∀ later, s.sendings j.task later = 0) ↔
      ¬∃ later, 0 < s.sendings j.task later := by
    simp [Nat.pos_iff_ne_zero]
  rw [hnever, h.exists_sends_iff hs hlive hlinked, not_or, not_and, not_exists]

end Journey

/-! What a sending is -/

/-- Sending the script for a check calls the client of its store. -/
theorem calls_of_sends {s : Deployment α} {t : TaskId} {i : StoreId} {store : RedisStore α}
    {c : Check α} {progress : Progress α} (ht : s.tasks[t]? = some ⟨i, .check c, progress⟩)
    (hstore : s.remote? i = some store) {evaluation : Evaluation α}
    (hevaluation : store.options.evaluation? c = some evaluation) {ev : Event α}
    (hact : s.act? t ev = some .sends) :
    s.made ev = s.shown store.client (.eval evaluation) := by
  obtain ⟨n, rfl, hentry⟩ := exists_of_sends hact
  have hstores := remote?_eq_some_iff.mp hstore
  have hhappen : s.happen (.work n) = (s.taken (.work n)).evaluate t := by
    simp only [happen, hentry, taken, turn, run]
  have hcalled := calls_callClient (s.taken (.work n)) store.client (.eval evaluation)
  refine made_eq ?_
  rw [hhappen]
  simp only [evaluate, ht, taken, hstores, hevaluation] at hcalled ⊢
  generalize callClient _ store.client (.eval evaluation) = called at hcalled ⊢
  obtain ⟨reply, s'⟩ := called
  cases reply with
  | settles delay outcome status => cases delay <;> exact hcalled
  | _ => exact hcalled

/-- The script is sent for checks only. -/
theorem exists_sends_of_eval {s : Deployment α} (hs : s.Prompt) {ev : Event α}
    {evaluation : Evaluation α} (h : .eval evaluation ∈ s.made ev) :
    ∃ t, s.act? t ev = some .sends := by
  cases makes_of_mem_made hs h with
  | starts hscope => exact hscope.elim
  | @evaluates n t hentry => exact ⟨t, by simp [act?, hentry]⟩

/-- Giving up a check does not keep its script from being sent. Whatever has happened since a store
in Redis was asked, be it the timeout of the question or the abortion of its signal, the script is
never sent for it from then on if and only if it is not about to be sent and no attempt to connect
that the question waits for will succeed. It is sent once at most, and the client of the store is
asked for it then, and only then. -/
theorem unsent_forever_iff {s : Deployment α} (hs : s.Reachable) {i : StoreId}
    {store : RedisStore α} (hstore : s.remote? i = some store) {milliseconds : String}
    (htext : textOrMissing? store.options.timeout = some milliseconds)
    (key now : Option (Value α)) (signal : Option SignalId) (events : List (Event α)) :
    let t := s.tasks.length
    let asked := s.start (.ask i key now signal)
    let reached := asked.after events
    ((∀ later, reached.sendings t later = 0) ↔ .evaluate t ∉ reached.ready ∧
      (t ∈ reached.waiters i → ∀ answer, .ok answer ∉ reached.links i)) ∧
    (∀ later, asked.sendings t (events ++ later) ≤ 1) ∧
    (∀ ev evaluation, store.options.evaluation? (s.asking key now signal) = some evaluation →
      reached.act? t ev = some .sends →
      reached.made ev = reached.shown store.client (.eval evaluation)) ∧
    ∀ ev evaluation, .eval evaluation ∈ reached.made ev → ∃ u, reached.act? u ev = some .sends := by
  dsimp only
  rw [start_ask_eq hstore]
  have hbegan : (s.startCheck i (s.asking key now signal)).Reachable :=
    start_ask_eq hstore key now signal ▸ hs.happen (.start (.ask i key now signal))
  have hreached := hbegan.after events
  by_cases hwaits : s.isAborted signal = false ∧ s.Promises store
  · obtain ⟨hlive, hpromise⟩ := hwaits
    have hruns :=
      startCheck_runsTo hs.clear hstore (c := s.asking key now signal) hlive htext hpromise
    obtain ⟨e, w, hrun⟩ := hruns events
    refine ⟨?_, fun later => ?_, fun ev evaluation hevaluation hact => ?_, fun ev evaluation h =>
      exists_sends_of_eval hreached.prompt h⟩
    · exact hrun.stands.unsent_iff hreached.prompt hrun.live (hreached.linked i)
    · obtain ⟨e', w', hrun'⟩ := hruns (events ++ later)
      exact (Nat.zero_add _).symm.trans_le hrun'.past.le_one
    · obtain ⟨attempt, hremote⟩ := hrun.stands.exists_remote
      exact calls_of_sends hrun.stands.task hremote hevaluation hact
  · obtain ⟨verdict, hready⟩ :=
      startCheck_unwaiting hs.clear hstore (c := s.asking key now signal) hwaits
    obtain ⟨d, hd, hend, -⟩ := hready.after_ready hbegan.prompt events
    have htaken : d ≠ .taken := by rcases hend with rfl | rfl <;> simp
    refine ⟨?_, fun later => ?_, fun ev evaluation _ hact => ?_, fun ev evaluation h =>
      exists_sends_of_eval hreached.prompt h⟩
    · exact iff_of_true (hd.sendings_eq_zero hreached.prompt htaken)
        ⟨fun hmem => hd.idle.1 ((mem_share_ready rfl).mpr hmem),
          fun hwaits => absurd hwaits (hd.idle.2 i)⟩
    · obtain ⟨d', -, -, hunsent⟩ := hready.after_ready hbegan.prompt (events ++ later)
      exact hunsent.trans_le (Nat.zero_le 1)
    · obtain ⟨n, -, hentry⟩ := exists_of_sends hact
      exact absurd (mem_ready_share hentry rfl) hd.idle.1

end

/-- The connection takes longer than a check waits. -/
def slowLink : ClientScript ℚ := { connect := [.settles (some 200) (.ok (some .null)) none] }

/-- A check that has timed out before the connection stands sends its script all the same. -/
theorem unsent_forever_iff_slow_link :
    let s := lone true slowLink
    let asked := s.start (.ask 0 (some (.text "k")) (some (.number 1000)) none)
    let reached := asked.after [.alarm 1, .work 0, .work 0]
    s.Reachable ∧ (reached.share 0).settled = [.failed (.timedOut "50")] ∧
      asked.sendings 0 [.alarm 1, .work 0, .work 0] = 0 ∧
      ¬∀ later, reached.sendings 0 later = 0 := by
  have htext : textOrMissing? (some (.number (50 : ℚ))) = some "50" := rfl
  have hlaw := unsent_forever_iff (lone_reachable true slowLink) (i := 0) rfl htext
    (some (.text "k")) (some (.number 1000)) none [.alarm 1, .work 0, .work 0]
  refine ⟨lone_reachable _ _, rfl, rfl, fun hnever => ?_⟩
  obtain ⟨-, hnone⟩ := hlaw.1.mp hnever
  exact hnone (List.mem_singleton_self 0) (some .null) (Multiset.mem_singleton_self _)

end Admission.Deployment
