import Admission.Proofs.Deployment.Links
import Admission.Proofs.Deployment.Reports

/-!
What a store makes of a check, and what follows.

Whoever hands a check to a store, nothing but the verdict of that store ends the call: what it is
settled with, what is reported about it and what becomes of its request all come from the one
verdict. Each kind of store comes to its verdict in its own way, and some checks never get one.
-/
namespace Admission.Deployment

variable {α : Type} [Scalar α] [Textual α]

/-! Conclusions of a call -/

/-- A check that lets a request pass and has ended no longer holds the request. -/
def Releases (s : Deployment α) (t : TaskId) (c : Check α) : Prop :=
  ∀ l, c.origin = .middleware l → (s.share t).settled ≠ [] → t ∉ s.attached

theorem LeadsTo.releases_happen {s : Deployment α} {t : TaskId} {c : Check α}
    {verdict : Except (Fault α) Bool} (h : s.LeadsTo t c verdict) (hs : s.Prompt)
    (hreleases : s.Releases t c) (ev : Event α) : (s.happen ev).Releases t c := by
  intro l horigin hsettled
  by_cases hconcluded : s.concluded? ev = some t
  · obtain ⟨i, progress, htask⟩ := h.task
    obtain ⟨n, other, rfl, hentry⟩ :=
      exists_work_of_concluded? (List.getElem?_eq_some_iff.mp htask).1 hconcluded
    have hhappen : s.happen (.work n) = (s.taken (.work n)).conclude t other := by
      simp only [happen, hentry, taken, turn, run]
    have hpurpose : (s.taken (.work n)).tasks[t]?.map Task.purpose = some (.check c) := by
      rw [tasks_taken, htask]
      rfl
    rw [hhappen, conclude_eq_settle hpurpose]
    simp [settle, setProgress, attachedOf, horigin]
  · rw [h.settled_eq hs hconcluded] at hsettled
    by_cases hfinish : (s.scope ev).finish t
    · obtain hconcluded' | rfl := h.finish_cases hfinish
      · exact absurd hconcluded' hconcluded
      · exact not_mem_attached_hangUp s t
    · rw [mem_attached_happen_iff hs hfinish]
      exact hreleases l horigin hsettled

theorem LeadsTo.releases_after {s : Deployment α} {t : TaskId} {c : Check α}
    {verdict : Except (Fault α) Bool} (hs : s.Prompt) {events : List (Event α)}
    (h : ∀ before later, events = before ++ later → (s.after before).LeadsTo t c verdict)
    (hreleases : s.Releases t c) : (s.after events).Releases t c := by
  induction events generalizing s with
  | nil => exact hreleases
  | cons ev events ih =>
    have hnow : s.LeadsTo t c verdict := h [] (ev :: events) rfl
    exact ih (hs.happen ev) (fun before later hevents =>
      h (ev :: before) later (congrArg (ev :: ·) hevents)) (hnow.releases_happen hs hreleases ev)

/-- All that has come of the check of a call is this many conclusions with a verdict. -/
structure Conclusions (s : Deployment α) (call : Start α) (c : Check α)
    (verdict : Except (Fault α) Bool) (events : List (Event α)) (n : Nat) : Prop where
  settled : ((s.after (.start call :: events)).share s.tasks.length).settled =
    List.replicate n (s.settlementOf c verdict)
  exchanges : s.exchangesSince (s.after (.start call :: events)) s.tasks.length =
    (List.replicate n (s.exchangeOf c verdict).toList).flatten
  reports : s.reportsOn s.tasks.length (.start call :: events) =
    (List.replicate n (s.reportOf c verdict)).flatten
  releases : (s.after (.start call :: events)).Releases s.tasks.length c

theorem reportsOn_start (s : Deployment α) (call : Start α) (events : List (Event α)) :
    s.reportsOn s.tasks.length (.start call :: events) =
      s.reports (.start call) ++ (s.start call).reportsOn s.tasks.length events := by
  have hstart : s.concluded? (.start call) = some s.tasks.length := rfl
  rw [reportsOn, if_pos hstart]
  rfl

/-- A call concludes as it began to, as long as its check can conclude with no other verdict. -/
theorem Conclusions.after {s : Deployment α} (hs : s.Prompt) {call : Start α} {c : Check α}
    {verdict : Except (Fault α) Bool} {m : Nat} (hbegun : s.Conclusions call c verdict [] m)
    (events : List (Event α))
    (hleads : ∀ before later, events = before ++ later →
      ((s.start call).after before).LeadsTo s.tasks.length c verdict) :
    ∃ n, s.Conclusions call c verdict events n := by
  have hconfig := config?_happen hs (.start call)
  obtain ⟨n, hsettled, hreports, hexchanges⟩ := LeadsTo.after (hs.happen (.start call)) hleads
  rw [settlementOf_congr hconfig] at hsettled
  rw [reportOf_congr hconfig] at hreports
  rw [exchangeOf_congr hconfig] at hexchanges
  refine ⟨m + n, ?_, ?_, ?_,
    LeadsTo.releases_after (hs.happen (.start call)) hleads hbegun.releases⟩
  · rw [List.replicate_add, ← hbegun.settled]
    exact hsettled
  · have hfirst := hbegun.exchanges
    rw [exchangesSince_after hs, exchangesOn, exchangesOn, List.append_nil] at hfirst
    rw [exchangesSince_after hs, exchangesOn, hfirst, hexchanges, List.replicate_add,
      List.flatten_append]
  · have hfirst := hbegun.reports
    rw [reportsOn_start, reportsOn, List.append_nil] at hfirst
    rw [reportsOn_start, hfirst, List.replicate_add, List.flatten_append, ← hreports]
    rfl

theorem Conclusions.le_one {s : Deployment α} (hs : s.Reachable) {call : Start α} {c : Check α}
    {verdict : Except (Fault α) Bool} {events : List (Event α)} {n : Nat}
    (h : s.Conclusions call c verdict events n) : n ≤ 1 := by
  have hlength := (hs.after (.start call :: events)).settled_length_le s.tasks.length
  rwa [h.settled, List.length_replicate] at hlength

/-- A call has ended with a verdict. -/
structure EndsWith (s : Deployment α) (c : Check α) (verdict : Except (Fault α) Bool)
    (s' : Deployment α) : Prop where
  settled : (s'.share s.tasks.length).settled = [s.settlementOf c verdict]
  exchanges : s.exchangesSince s' s.tasks.length = (s.exchangeOf c verdict).toList

/-- Nothing has come of a call yet. -/
structure Pends (s s' : Deployment α) : Prop where
  settled : (s'.share s.tasks.length).settled = []
  exchanges : s.exchangesSince s' s.tasks.length = []

/-- A call is ended by nothing but the verdict on its check. As long as there is none, it is neither
settled nor reported, and nothing becomes of its request. -/
structure Concludes (s : Deployment α) (call : Start α) (c : Check α) (events : List (Event α))
    (verdict? : Option (Except (Fault α) Bool)) : Prop where
  ended : s.Pends (s.after (.start call :: events)) ∧
      s.reportsOn s.tasks.length (.start call :: events) = [] ∨
    ∃ verdict, verdict? = some verdict ∧
      s.EndsWith c verdict (s.after (.start call :: events)) ∧
      s.reportsOn s.tasks.length (.start call :: events) = s.reportOf c verdict
  drained : ∀ verdict, verdict? = some verdict →
    s.EndsWith c verdict (s.after (.start call :: events)).drain
  releases : (s.after (.start call :: events)).Releases s.tasks.length c

/-- A call is ended by a verdict if its check can conclude with no other, also while ready work
takes its turns. -/
theorem Concludes.of_leadsTo {s : Deployment α} (hs : s.Reachable) {call : Start α} {c : Check α}
    {verdict : Except (Fault α) Bool} {m : Nat} (hbegun : s.Conclusions call c verdict [] m)
    {events : List (Event α)} {turns : Nat}
    (hturns : (s.after (.start call :: events)).drain =
      (s.after (.start call :: events)).after (List.replicate turns (.work 0)))
    (hleads : ∀ before later, events ++ List.replicate turns (.work 0) = before ++ later →
      ((s.start call).after before).LeadsTo s.tasks.length c verdict)
    {verdict? : Option (Except (Fault α) Bool)}
    (hsettled : ((s.after (.start call :: events)).share s.tasks.length).settled ≠ [] →
      verdict? = some verdict)
    (hdrained : ∀ other, verdict? = some other → other = verdict ∧
      ((s.after (.start call :: events)).drain.share s.tasks.length).settled ≠ []) :
    s.Concludes call c events verdict? := by
  have hends : ∀ events n, s.Conclusions call c verdict events n →
      ((s.after (.start call :: events)).share s.tasks.length).settled ≠ [] →
      s.EndsWith c verdict (s.after (.start call :: events)) ∧
        s.reportsOn s.tasks.length (.start call :: events) = s.reportOf c verdict := by
    intro events n hall hsome
    have hle := hall.le_one hs
    rw [hall.settled] at hsome
    obtain rfl : n = 1 := by
      cases n with
      | zero => exact absurd rfl hsome
      | succ n => omega
    exact ⟨⟨hall.settled, by rw [hall.exchanges]; simp⟩, by rw [hall.reports]; simp⟩
  obtain ⟨n, hall⟩ := hbegun.after hs.prompt events fun before later hevents =>
    hleads before (later ++ List.replicate turns (.work 0)) (by rw [hevents, List.append_assoc])
  obtain ⟨n', hall'⟩ := hbegun.after hs.prompt _ hleads
  have hlast : (s.after (.start call :: events)).drain =
      s.after (.start call :: (events ++ List.replicate turns (.work 0))) := by
    rw [hturns, ← after_append, List.cons_append]
  refine ⟨?_, fun other hother => ?_, hall.releases⟩
  · by_cases hnone : ((s.after (.start call :: events)).share s.tasks.length).settled = []
    · have hzero : n = 0 := by simpa using congrArg List.length (hall.settled.symm.trans hnone)
      rw [hzero] at hall
      exact Or.inl ⟨⟨hnone, hall.exchanges⟩, hall.reports⟩
    · exact Or.inr ⟨verdict, hsettled hnone, hends events n hall hnone⟩
  · obtain ⟨rfl, hsome⟩ := hdrained other hother
    rw [hlast] at hsome ⊢
    exact (hends _ n' hall' hsome).1

/-! Verdicts that are on their way -/

/-- What a check of which only its verdict is left leads to. -/
theorem Delivers.leadsTo {s₀ s : Deployment α} {t : TaskId} {i : StoreId} {c : Check α}
    {verdict : Except (Fault α) Bool} {d : Delivery} (h : Delivers s₀ t i c verdict s d) :
    s.LeadsTo t c verdict := by
  have hready : ∀ job ∈ (s.share t).ready, job = .conclude t verdict := by
    intro job hmem
    rw [h.share] at hmem
    cases d with
    | ready => exact Multiset.mem_singleton.mp hmem
    | _ => cases hmem
  refine ⟨⟨i, h.task⟩, fun job hmem => ?_, fun hmem => ?_⟩
  · obtain rfl := hready job hmem
    refine ⟨rfl, fun other hother => ?_⟩
    cases hother
    rfl
  · cases hready _ hmem

/-- How often a check has been concluded. -/
def Delivery.conclusions : Delivery → Nat
  | .settled => 1
  | _ => 0

theorem Delivery.conclusions_eq_zero {d : Delivery} (h : d ≠ .settled) : d.conclusions = 0 := by
  cases d <;> first | rfl | exact absurd rfl h

/-- A check that began in a deployment has only its verdict left, or is settled with it already, and
nothing but that has come of it. -/
structure Begun (s₀ : Deployment α) (i : StoreId) (c : Check α) (verdict : Except (Fault α) Bool)
    (s : Deployment α) (d : Delivery) : Prop where
  delivers : Delivers s₀ s₀.tasks.length i c verdict s d
  rests : d ≠ .taken
  notices : ∃ more, s.notices = s₀.notices ++ more ∧
    more.filter Notice.isOnCheck =
      (List.replicate d.conclusions (s₀.reportOf c verdict)).flatten
  exchanges : s.exchanges = s₀.exchanges ++
    (List.replicate d.conclusions (s₀.exchangeOf c verdict).toList).flatten.map
      (s₀.tasks.length, ·)
  attached : d = .settled → s.attached = s₀.attachedOf s₀.tasks.length c

/-- A check that is still to be settled has begun, if nothing has been reported and nothing has
become of any request. -/
theorem Begun.of_quiet {s₀ s : Deployment α} {i : StoreId} {c : Check α}
    {verdict : Except (Fault α) Bool} {d : Delivery}
    (h : Delivers s₀ s₀.tasks.length i c verdict s d) (hrests : d ≠ .taken) (hd : d ≠ .settled)
    {more : List (Notice α)} (hnotices : s.notices = s₀.notices ++ more)
    (hmore : more.filter Notice.isOnCheck = []) (hexchanges : s.exchanges = s₀.exchanges) :
    Begun s₀ i c verdict s d := by
  have hzero := Delivery.conclusions_eq_zero hd
  refine ⟨h, hrests, ⟨more, hnotices, ?_⟩, ?_, fun h => absurd h hd⟩
  · rw [hzero, hmore]
    rfl
  · rw [hzero, hexchanges]
    exact (List.append_nil _).symm

/-- A check that is asked and answered on the spot has begun, and is settled. -/
theorem Begun.of_concluded {s₀ s : Deployment α} {i : StoreId} {c : Check α}
    {verdict : Except (Fault α) Bool} (h : Delivers s₀ s₀.tasks.length i c verdict s .taken)
    {more : List (Notice α)} (hnotices : s.notices = s₀.notices ++ more)
    (hmore : more.filter Notice.isOnCheck = []) (hexchanges : s.exchanges = s₀.exchanges)
    (hattached : s.attached = s₀.attached) :
    Begun s₀ i c verdict (s.conclude s₀.tasks.length verdict) .settled := by
  obtain ⟨hsettled, hreported, hexchanged, hdetached⟩ := h.conclude
  refine ⟨hsettled, nofun, ⟨more ++ s₀.reportOf c verdict, ?_, ?_⟩, ?_, fun _ => ?_⟩
  · rw [hreported, hnotices, List.append_assoc]
  · simp [hmore, filter_reportOf, Delivery.conclusions]
  · simp [hexchanged, hexchanges, Delivery.conclusions]
  · rw [hdetached]
    simp only [attachedOf, hattached]

/-! Stores that answer by themselves -/

/-- The answer of a store that has not been asked yet is posted, awaited, or never comes. -/
theorem Begun.arrange {s₀ s : Deployment α} {i : StoreId} {c : Check α}
    {verdict : Except (Fault α) Bool} (h : Delivers s₀ s₀.tasks.length i c verdict s .taken)
    (hnotices : s.notices = s₀.notices) (hexchanges : s.exchanges = s₀.exchanges) {reply : Reply α}
    (hreply : ∀ fault, reply ≠ .throws fault)
    (hverdict : ∀ outcome, reply.outcome? = some outcome → verdict = Fault.permissionOf outcome) :
    ∃ d, Begun s₀ i c verdict (s.arrange reply 0 0 fun outcome =>
      .conclude s₀.tasks.length (Fault.permissionOf outcome)) d ∧
      (d = .silent ↔ reply.outcome? = none) := by
  have hquiet : s.notices = s₀.notices ++ [] := hnotices.trans (List.append_nil _).symm
  cases reply with
  | throws fault => exact absurd rfl (hreply fault)
  | never =>
    have hsilent : Delivers s₀ s₀.tasks.length i c verdict s .silent :=
      ⟨h.task, h.share, h.config, h.unwaiting⟩
    exact ⟨.silent, .of_quiet hsilent nofun nofun hquiet rfl hexchanges,
      by simp [Reply.outcome?]⟩
  | settles delay outcome status =>
    obtain rfl := hverdict _ rfl
    cases delay with
    | none =>
      exact ⟨.ready, .of_quiet (h.post_ready 0) nofun nofun hquiet rfl hexchanges,
        by simp [Reply.outcome?]⟩
    | some delay =>
      exact ⟨.awaited, .of_quiet (h.setTimer_awaited delay 0) nofun nofun hquiet rfl hexchanges,
        by simp [Reply.outcome?]⟩

/-- What becomes of a check that is handed to a scripted store. -/
theorem startCheck_scripted {s : Deployment α} (hs : s.Clear) {i : StoreId}
    {script : StoreScript α} (hstore : s.stores[i]? = some (.scripted script)) (c : Check α)
    {reply : Reply α} {rest : Replies α}
    (hreply : script.allow.next (.value (.bool true)) = (reply, rest)) :
    ∃ verdict d, (∀ outcome, reply.outcome? = some outcome →
        verdict = Fault.permissionOf outcome) ∧
      Begun s i c verdict (s.startCheck i c) d ∧ (d = .silent ↔ reply.outcome? = none) := by
  obtain ⟨verdict, hverdict⟩ : ∃ verdict, ∀ outcome, reply.outcome? = some outcome →
      verdict = Fault.permissionOf outcome := by
    cases houtcome : reply.outcome? with
    | none => exact ⟨.ok true, nofun⟩
    | some outcome =>
      exact ⟨Fault.permissionOf outcome, fun other hother => by rw [Option.some.inj hother]⟩
  let kept : Store α := .scripted { script with allow := rest }
  let asked := ((s.newTask i (.check c)).2.setStore i kept).record
    (.storeAllow c.key c.now (s.signalState c.signal))
  have hstores : (s.newTask i (.check c)).2.stores[i]? = some (.scripted script) := hstore
  have hmoves : Moves { call := fun _ => True } (s.newTask i (.check c)).2 asked :=
    ((Moves.refl _).fill hstores _ (.scripted script _ _ rfl)).record trivial
  have htaken : Delivers s s.tasks.length i c verdict asked .taken :=
    (delivers_newTask hs i c verdict).moves hmoves id (fun _ h => h.elim) fun _ h => h.elim
  by_cases hthrows : ∃ fault, reply = .throws fault
  · obtain ⟨fault, rfl⟩ := hthrows
    obtain rfl : verdict = .error fault := hverdict _ rfl
    have hcheck : s.startCheck i c = asked.conclude s.tasks.length (.error fault) := by
      show (s.newTask i (.check c)).2.check s.tasks.length i c = _
      simp only [check, hstores, checkScripted, hreply]
      rfl
    rw [hcheck]
    exact ⟨_, .settled, hverdict, .of_concluded htaken (List.append_nil _).symm rfl rfl rfl,
      by simp [Reply.outcome?]⟩
  · have hcheck : s.startCheck i c = asked.arrange reply 0 0 fun outcome =>
        .conclude s.tasks.length (Fault.permissionOf outcome) := by
      show (s.newTask i (.check c)).2.check s.tasks.length i c = _
      simp only [check, hstores, checkScripted, hreply]
      cases reply with
      | throws fault => exact absurd ⟨fault, rfl⟩ hthrows
      | _ => rfl
    obtain ⟨d, hbegun, hsilent⟩ :=
      Begun.arrange htaken rfl rfl (fun fault h => hthrows ⟨fault, h⟩) hverdict
    exact ⟨verdict, d, hverdict, hcheck ▸ hbegun, hsilent⟩

/-- What a scripted store is asked. -/
theorem calls_startCheck_scripted {s : Deployment α} {i : StoreId} {script : StoreScript α}
    (hstore : s.stores[i]? = some (.scripted script)) (c : Check α) :
    (s.startCheck i c).calls =
      s.calls ++ [.storeAllow c.key c.now (s.signalState c.signal)] := by
  have hstores : (s.newTask i (.check c)).2.stores[i]? = some (.scripted script) := hstore
  show ((s.newTask i (.check c)).2.check s.tasks.length i c).calls = _
  simp only [check, hstores, checkScripted]
  generalize hasked : Deployment.record _ _ = asked
  have hrefl : Moves { Scope.any with call := fun _ => False } asked asked := Moves.refl asked
  have hcalls : asked.calls = s.calls ++ [.storeAllow c.key c.now (s.signalState c.signal)] :=
    hasked ▸ rfl
  rw [← hcalls]
  split
  · exact (hrefl.conclude trivial trivial (fun _ _ => trivial) _).calls_eq fun _ => id
  · exact (hrefl.arrange _ (Nat.zero_le _) (Nat.zero_le _) fun _ => trivial).calls_eq fun _ => id

/-- What a store in memory makes of a check. -/
def MemoryStore.verdict (store : MemoryStore Key (Unchecked α)) (c : Check α) :
    Except (Fault α) Bool :=
  match (store.attempt c.bucket ⟨c.now⟩).allowed with
  | some allowed => .ok allowed
  | none => .error .wordless

theorem MemoryStore.verdict_of_allowed {store : MemoryStore Key (Unchecked α)} {c : Check α}
    {allowed : Bool} (h : (store.attempt c.bucket ⟨c.now⟩).allowed = some allowed) :
    MemoryStore.verdict store c = .ok allowed := by
  rw [verdict, h]

theorem MemoryStore.verdict_of_failed {store : MemoryStore Key (Unchecked α)} {c : Check α}
    (h : (store.attempt c.bucket ⟨c.now⟩).allowed = none) :
    MemoryStore.verdict store c = .error .wordless := by
  rw [verdict, h]

theorem startCheck_memory {s : Deployment α} (hs : s.Clear) {i : StoreId}
    {store : MemoryStore Key (Unchecked α)} (hstore : s.stores[i]? = some (.memory store))
    (c : Check α) :
    ∃ d, Begun s i c (MemoryStore.verdict store c) (s.startCheck i c) d ∧
      (d = .ready ∨ d = .settled) := by
  let evicted := (store.attempt c.bucket ⟨c.now⟩).evicted.map (Notice.evicted (α := α))
  let filled := (s.newTask i (.check c)).2.setStore i
    (.memory (store.attempt c.bucket ⟨c.now⟩).store)
  let asked := { filled with notices := filled.notices ++ evicted }
  have hstores : (s.newTask i (.check c)).2.stores[i]? = some (.memory store) := hstore
  have hmoves : Moves { notice := fun _ => True } (s.newTask i (.check c)).2 asked :=
    ((Moves.refl _).fill hstores _ (.memory _ _ (store.options_attempt _ _))).notes _
      fun _ _ => trivial
  have htaken := (delivers_newTask hs i c (MemoryStore.verdict store c)).moves hmoves id
    (fun _ h => h.elim) fun _ h => h.elim
  have hevicted : evicted.filter Notice.isOnCheck = [] := by
    refine List.filter_eq_nil_iff.mpr fun notice hnotice => ?_
    obtain ⟨key, -, rfl⟩ := List.mem_map.mp hnotice
    exact Bool.false_ne_true
  have hcheck : s.startCheck i c = match (store.attempt c.bucket ⟨c.now⟩).allowed with
      | some allowed => asked.post 0 (.conclude s.tasks.length (.ok allowed))
      | none => asked.conclude s.tasks.length (.error .wordless) := by
    show (s.newTask i (.check c)).2.check s.tasks.length i c = _
    simp only [check, hstores, checkMemory]
    rfl
  have hnotices : asked.notices = s.notices ++ evicted := rfl
  unfold MemoryStore.verdict at htaken ⊢
  rw [hcheck]
  cases hallowed : (store.attempt c.bucket ⟨c.now⟩).allowed with
  | some allowed =>
    rw [hallowed] at htaken
    exact ⟨.ready, .of_quiet (htaken.post_ready 0) nofun nofun hnotices hevicted rfl, Or.inl rfl⟩
  | none =>
    rw [hallowed] at htaken
    exact ⟨.settled, .of_concluded htaken hnotices hevicted rfl rfl, Or.inr rfl⟩

/-- A check on a store that is not there never gets an answer. -/
theorem startCheck_absent {s : Deployment α} (hs : s.Clear) {i : StoreId}
    (hstore : s.stores[i]? = none) (c : Check α) (verdict : Except (Fault α) Bool) :
    Begun s i c verdict (s.startCheck i c) .silent := by
  have hstores : (s.newTask i (.check c)).2.stores[i]? = none := hstore
  have hcheck : s.startCheck i c = (s.newTask i (.check c)).2 := by
    show (s.newTask i (.check c)).2.check s.tasks.length i c = _
    simp only [check, hstores]
  obtain ⟨htask, hshare, hconfig, hunwaiting⟩ := delivers_newTask hs i c verdict
  rw [hcheck]
  exact .of_quiet ⟨htask, hshare, hconfig, hunwaiting⟩ (by simp) (by simp)
    (List.append_nil _).symm rfl rfl

/-! Stores in Redis -/

/-- A check on a store in Redis concludes with nothing but the end of its wait. -/
theorem Journey.Stands.leadsTo {j : Journey α} {s : Deployment α} {e : Errand α} {w : Wait α}
    (h : j.Stands s e w) {verdict : Except (Fault α) Bool}
    (hverdict : ∀ outcome, w = .concluding outcome → Fault.verdictOf outcome = verdict) :
    s.LeadsTo j.task j.check verdict := by
  have hready : (s.share j.task).ready = e.ready j.task + w.ready j.task :=
    congrArg Share.ready h.share
  refine ⟨⟨_, _, h.task⟩, fun job hmem => ?_, fun _ answer hprogress => ?_⟩
  · rw [hready] at hmem
    rcases Multiset.mem_add.mp hmem with hmem | hmem
    · cases e with
      | sending | told =>
        obtain rfl := Multiset.mem_singleton.mp hmem
        exact ⟨rfl, nofun⟩
      | _ => cases hmem
    · cases w with
      | leaving =>
        obtain rfl := Multiset.mem_singleton.mp hmem
        exact ⟨rfl, nofun⟩
      | concluding outcome =>
        obtain rfl := Multiset.mem_singleton.mp hmem
        refine ⟨rfl, fun other hother => ?_⟩
        cases hother
        exact hverdict outcome rfl
      | _ => cases hmem
  · rw [h.task] at hprogress
    cases w <;> cases hprogress

theorem firstEnding?_append (s : Deployment α) (t : TaskId) (signal : Option SignalId)
    (before later : List (Event α)) :
    s.firstEnding? t signal (before ++ later) =
      (s.firstEnding? t signal before).or ((s.after before).firstEnding? t signal later) := by
  induction before generalizing s with
  | nil => rfl
  | cons ev before ih =>
    rw [List.cons_append, firstEnding?, firstEnding?, ih, Option.or_assoc]
    rfl

/-- The verdict that the end of its wait brings a check, once it has one that somebody hears of. -/
def verdict? (s : Deployment α) (t : TaskId) (signal : Option SignalId) (milliseconds : String)
    (events : List (Event α)) : Option (Except (Fault α) Bool) :=
  ((s.firstEnding? t signal events).bind (Ending.outcome? milliseconds)).map Fault.verdictOf

/-- Starting a check on a store in Redis reports nothing, and nothing becomes of any request. -/
theorem startCheck_quiet {s : Deployment α} {i : StoreId} {store : RedisStore α}
    (hstore : s.remote? i = some store) (c : Check α) :
    Moves { Scope.any with notice := fun _ => False, finish := fun _ => False } s
      (s.startCheck i c) := by
  have hstores : (s.newTask i (.check c)).2.stores[i]? = some (.redis store) :=
    remote?_eq_some_iff.mp hstore
  have hcheck : s.startCheck i c =
      (s.newTask i (.check c)).2.checkRedis s.tasks.length i store c := by
    show (s.newTask i (.check c)).2.check s.tasks.length i c = _
    simp only [check, hstores]
  rw [hcheck]
  exact ((Moves.refl s).newTask trivial i (.check c)).checkRedis hstores trivial trivial
    (fun _ _ => trivial) (fun _ _ _ => ⟨trivial, fun _ _ => trivial⟩) c

/-! How calls go on -/

omit [Scalar α] [Textual α] in
theorem Clear.attached {s : Deployment α} (h : s.Clear) (attached : List TaskId) :
    ({ s with attached } : Deployment α).Clear :=
  ⟨⟨h.prompt.agenda, h.prompt.timers⟩, h.share⟩

theorem Promises.attached {s : Deployment α} {store : RedisStore α} (h : s.Promises store)
    (attached : List TaskId) : ({ s with attached } : Deployment α).Promises store :=
  fun howned hnone hstatus fault hthrows => h howned hnone hstatus fault
    ((reply_congr s { s with attached } rfl rfl rfl _ _).symm.trans hthrows)

section

variable {s : Deployment α} {attached : List TaskId} {call : Start α} {i : StoreId} {c : Check α}

/-- What has come of a check that has only its verdict left when it begins. -/
theorem Begun.conclusions {verdict : Except (Fault α) Bool} {d : Delivery}
    (h : Begun { s with attached } i c verdict (s.start call) d) :
    s.Conclusions call c verdict [] d.conclusions := by
  obtain ⟨more, hnotices, hreported⟩ := h.notices
  refine ⟨(congrArg Share.settled h.delivers.share).trans ?_,
    exchangesSince_concat (s := s) h.exchanges, ?_, fun l horigin hsettled => ?_⟩
  · cases d <;> rfl
  · rw [reportsOn_start, reportsOn, List.append_nil]
    exact (reports_eq (s := s) (.start call) hnotices).trans hreported
  · have hd : d = .settled := by
      have hshare := congrArg Share.settled h.delivers.share
      cases d <;> first | rfl | exact absurd hshare hsettled
    show s.tasks.length ∉ (s.start call).attached
    rw [h.attached hd]
    simp [attachedOf, horigin]

/-- A call whose check has only its verdict left concludes with that verdict, as soon as its store
has answered. -/
theorem Begun.concludes {verdict : Except (Fault α) Bool} {d : Delivery}
    (h : Begun { s with attached } i c verdict (s.start call) d) (hs : s.Reachable)
    (events : List (Event α)) :
    ∃ d', Delivers { s with attached } s.tasks.length i c verdict ((s.start call).after events) d' ∧
      (d' = .silent ↔ d = .silent) ∧ (d' = .awaited → d = .awaited) ∧
      (d' ≠ .awaited → d' ≠ .silent → s.Concludes call c events (some verdict)) ∧
      (d' = .awaited ∨ d' = .silent → s.Concludes call c events none) := by
  have hbegun := h.conclusions
  have hprompt := hs.prompt.happen (.start call)
  obtain ⟨d', hd', htaken, -, hsilent, hawaits⟩ := h.delivers.after hprompt h.rests events
  obtain ⟨turns, hturns⟩ := (s.after (.start call :: events)).exists_after_drain
  have hleads : ∀ before later, events ++ List.replicate turns (.work 0) = before ++ later →
      ((s.start call).after before).LeadsTo s.tasks.length c verdict := by
    intro before later _
    obtain ⟨d₁, hd₁, -⟩ := h.delivers.after hprompt h.rests before
    exact hd₁.leadsTo
  refine ⟨d', hd', hsilent, hawaits, fun hawaited hsilent => ?_, fun hidle => ?_⟩
  · have hend : d' = .ready ∨ d' = .settled := by
      cases d' with
      | ready => exact Or.inl rfl
      | settled => exact Or.inr rfl
      | awaited => exact absurd rfl hawaited
      | taken => exact absurd rfl htaken
      | silent => exact absurd rfl hsilent
    refine .of_leadsTo hs hbegun hturns hleads (fun _ => rfl) fun other hother =>
      ⟨(Option.some.inj hother).symm, ?_⟩
    have hdrained := hd'.drain (hprompt.after events) hend
    exact fun hnone => nomatch hdrained.symm.trans hnone
  · refine .of_leadsTo hs hbegun hturns hleads (fun hsome => absurd ?_ hsome) nofun
    have hshare := congrArg Share.settled hd'.share
    obtain rfl | rfl := hidle <;> exact hshare

/-- Nothing has come of a check that is on its way to Redis. -/
theorem conclusions_startCheck {store : RedisStore α}
    (hstart : s.start call = ({ s with attached } : Deployment α).startCheck i c)
    (hstore : s.remote? i = some store)
    (hnone : ((s.start call).share s.tasks.length).settled = []) (verdict : Except (Fault α) Bool) :
    s.Conclusions call c verdict [] 0 := by
  obtain ⟨hnotices, hexchanges⟩ : (s.start call).notices = s.notices ++ [] ∧
      (s.start call).exchanges = s.exchanges ++ [] := by
    have hquiet := startCheck_quiet (s := { s with attached }) hstore c
    rw [hstart, List.append_nil, List.append_nil]
    exact ⟨hquiet.notices_eq fun _ => id, hquiet.exchanges_eq fun _ => id⟩
  refine ⟨hnone, exchangesSince_eq (s := s) hexchanges s.tasks.length, ?_, fun _ _ hsome =>
    absurd hnone hsome⟩
  rw [reportsOn_start, reportsOn, List.append_nil]
  exact reports_eq (s := s) (.start call) hnotices

/-- A call whose check is on its way to Redis concludes with the end of its wait. -/
theorem Journey.Stands.concludes {store : RedisStore α} {milliseconds : String} {e : Errand α}
    {w : Wait α}
    (h : (s.journey i store c milliseconds).Stands (s.start call) e w) (hs : s.Reachable)
    (hstart : s.start call = ({ s with attached } : Deployment α).startCheck i c)
    (hstore : s.remote? i = some store)
    (hlive : w = .waiting → (s.start call).isAborted c.signal = false) (hpast : e.Past [] 0)
    (hrests : w.Rests) (hopen : ∀ outcome, w ≠ .settled outcome) (events : List (Event α)) :
    s.Concludes call c events
      ((w.end?.or (((s.start call).firstEnding? s.tasks.length c.signal events).map
        (Ending.outcome? milliseconds))).join.map Fault.verdictOf) := by
  have hprompt : (s.start call).Prompt := hs.prompt.happen (.start call)
  have hnone : ((s.start call).share s.tasks.length).settled = [] := by
    refine (congrArg Share.settled h.share).trans ?_
    cases w with
    | settled outcome => exact absurd rfl (hopen outcome)
    | _ => rfl
  obtain ⟨turns, hturns⟩ := (s.after (.start call :: events)).exists_after_drain
  have hruns := h.after hprompt hlive hpast fun _ _ => rfl
  -- Draining may put the only end to the wait, so the verdict is read off the longer course.
  obtain ⟨e', w', hrun'⟩ := hruns (events ++ List.replicate turns (.work 0))
  obtain ⟨verdict, hverdict⟩ : ∃ verdict, ∀ outcome, w'.end? = some (some outcome) →
      Fault.verdictOf outcome = verdict := by
    cases hend : w'.end?.join with
    | none => exact ⟨.ok true, fun outcome h => by simp [h] at hend⟩
    | some outcome => exact ⟨Fault.verdictOf outcome, fun other h => by simp_all⟩
  have hextends : ∀ {before later : List (Event α)} {e₁ w₁ outcome},
      events ++ List.replicate turns (.work 0) = before ++ later →
      (s.journey i store c milliseconds).RunsTo (s.start call) before w [] 0 e₁ w₁ →
      w₁.end? = some (some outcome) → Fault.verdictOf outcome = verdict := by
    intro before later e₁ w₁ outcome hevents hrun₁ hend
    refine hverdict outcome ?_
    rw [hrun'.wait, hevents, firstEnding?_append, Option.map_or, ← Option.or_assoc, ← hrun₁.wait,
      hend, Option.some_or]
  obtain ⟨e₁, w₁, hrun⟩ := hruns events
  have hwait : w₁.end? = w.end?.or (((s.start call).firstEnding? s.tasks.length c.signal events).map
      (Ending.outcome? milliseconds)) := hrun.wait
  rw [← hwait]
  refine .of_leadsTo hs (conclusions_startCheck hstart hstore hnone verdict) hturns
    (fun before later hevents => ?_) (fun hsome => ?_) fun other hother => ?_
  · obtain ⟨e₂, w₂, hrun₂⟩ := hruns before
    refine hrun₂.stands.leadsTo fun outcome hconcluding => hextends hevents hrun₂ ?_
    rw [hconcluding]
    rfl
  · have hshare := congrArg Share.settled hrun.stands.share
    cases w₁ with
    | settled outcome => simp [Wait.end?, hextends rfl hrun rfl]
    | _ => exact absurd hshare hsome
  · obtain ⟨outcome, hjoin, rfl⟩ := Option.map_eq_some_iff.mp hother
    have hend := Option.join_eq_some_iff.mp hjoin
    have hdrained :=
      hrun.stands.settled_drain (hprompt.after events) (hrun.rests hrests) hrun.past hend
    exact ⟨hextends rfl hrun hend, fun hempty => List.cons_ne_nil _ _ (hdrained.symm.trans hempty)⟩

end

/-- The verdict that a store comes to on the check of a call, once there is one in a course. -/
inductive Answers (s : Deployment α) (call : Start α) (i : StoreId) (c : Check α)
    (events : List (Event α)) : Option (Except (Fault α) Bool) → Prop
  | absent (hstore : s.stores[i]? = none) : Answers s call i c events none
  | memory {store : MemoryStore Key (Unchecked α)} (hstore : s.stores[i]? = some (.memory store)) :
      Answers s call i c events (some (MemoryStore.verdict store c))
  /-- The answer of a scripted store is outstanding. -/
  | outstanding {script : StoreScript α} (hstore : s.stores[i]? = some (.scripted script))
      (hawaited : ((s.after (.start call :: events)).share s.tasks.length).awaited ≠ 0) :
      Answers s call i c events none
  | scripted {script : StoreScript α} (hstore : s.stores[i]? = some (.scripted script))
      (hawaited : ((s.after (.start call :: events)).share s.tasks.length).awaited = 0) :
      Answers s call i c events
        ((script.allow.next (.value (.bool true))).1.outcome?.map Fault.permissionOf)
  /-- The check was abandoned before it began. -/
  | abandoned {store : RedisStore α} (hstore : s.remote? i = some store)
      (haborted : s.isAborted c.signal = true) :
      Answers s call i c events (some (.error .aborted))
  /-- The connection cannot even be attempted. -/
  | unlinkable {store : RedisStore α} (hstore : s.remote? i = some store)
      (hlive : s.isAborted c.signal = false) (howned : store.owned = true)
      (hnone : store.attempt = none) (hstatus : s.linkStatus store.client = .waiting)
      {fault : Fault α} (hthrows : (s.callClient store.client .connect).1 = .throws fault) :
      Answers s call i c events (some (.error fault))
  /-- The deadline cannot be read. -/
  | unreadable {store : RedisStore α} (hstore : s.remote? i = some store)
      (hlive : s.isAborted c.signal = false) (hpromise : s.Promises store)
      (htext : textOrMissing? store.options.timeout = none) :
      Answers s call i c events (some (.error .wordless))
  | waiting {store : RedisStore α} (hstore : s.remote? i = some store)
      (hlive : s.isAborted c.signal = false) (hpromise : s.Promises store) {milliseconds : String}
      (htext : textOrMissing? store.options.timeout = some milliseconds) :
      Answers s call i c events
        ((s.start call).verdict? s.tasks.length c.signal milliseconds events)

/-- Every store comes to its verdict in one of these ways. -/
theorem exists_answers (s : Deployment α) (call : Start α) (i : StoreId) (c : Check α)
    (events : List (Event α)) : ∃ verdict?, s.Answers call i c events verdict? := by
  cases hstore : s.stores[i]? with
  | none => exact ⟨_, .absent hstore⟩
  | some store =>
    cases store with
    | memory store => exact ⟨_, .memory hstore⟩
    | scripted script =>
      by_cases hawaited : ((s.after (.start call :: events)).share s.tasks.length).awaited = 0
      · exact ⟨_, .scripted hstore hawaited⟩
      · exact ⟨_, .outstanding hstore hawaited⟩
    | redis store =>
      have hremote := remote?_eq_some_iff.mpr hstore
      cases hlive : s.isAborted c.signal with
      | true => exact ⟨_, .abandoned hremote hlive⟩
      | false =>
        by_cases hpromise : s.Promises store
        · cases htext : textOrMissing? store.options.timeout with
          | none => exact ⟨_, .unreadable hremote hlive hpromise htext⟩
          | some milliseconds => exact ⟨_, .waiting hremote hlive hpromise htext⟩
        · simp only [Promises, Classical.not_imp, not_forall, not_not] at hpromise
          obtain ⟨howned, hnone, hstatus, fault, hthrows⟩ := hpromise
          exact ⟨_, .unlinkable hremote hlive howned hnone hstatus hthrows⟩

section

variable {s : Deployment α} {call : Start α} {i : StoreId} {c : Check α}

/-- What a call to a scripted store concludes with, and when. -/
theorem concludes_scripted (hs : s.Reachable) (attached : List TaskId)
    (hstart : s.start call = ({ s with attached } : Deployment α).startCheck i c)
    {script : StoreScript α} (hstore : s.stores[i]? = some (.scripted script))
    (events : List (Event α)) :
    let answering := ((s.after (.start call :: events)).share s.tasks.length).awaited
    (answering ≠ 0 → s.Concludes call c events none) ∧
    (answering = 0 → s.Concludes call c events
      ((script.allow.next (.value (.bool true))).1.outcome?.map Fault.permissionOf)) := by
  generalize hnext : script.allow.next (.value (.bool true)) = next
  obtain ⟨reply, rest⟩ := next
  obtain ⟨verdict, d, hverdict, hbegun, hsilent⟩ :=
    startCheck_scripted (hs.clear.attached attached) hstore c hnext
  rw [← hstart] at hbegun
  obtain ⟨d', hd', hstill, -, hconcludes, hpends⟩ := hbegun.concludes hs events
  have hawaited := congrArg Share.awaited hd'.share
  refine ⟨fun hsome => hpends (Or.inl ?_), fun hnone => ?_⟩
  · cases d' with
    | awaited => rfl
    | _ => exact absurd hawaited hsome
  · have hanswered : d' ≠ .awaited := by
      rintro rfl
      exact Multiset.singleton_ne_zero _ (hawaited.symm.trans hnone)
    cases houtcome : reply.outcome? with
    | none =>
      exact hpends (Or.inr (hstill.mpr (hsilent.mpr houtcome)))
    | some outcome =>
      have hspoken : d' ≠ .silent := fun h => nomatch houtcome.symm.trans (hsilent.mp (hstill.mp h))
      obtain rfl := hverdict outcome houtcome
      exact hconcludes hanswered hspoken

/-- A check that ends before it waits concludes with the failure that ended it. -/
theorem concludes_of_ready (hs : s.Reachable) (attached : List TaskId)
    (hstart : s.start call = ({ s with attached } : Deployment α).startCheck i c)
    {store : RedisStore α} (hstore : s.remote? i = some store) {fault : Fault α}
    (hready : Delivers { s with attached } s.tasks.length i c (.error fault) (s.start call) .ready)
    (events : List (Event α)) : s.Concludes call c events (some (.error fault)) := by
  have hquiet := startCheck_quiet (s := { s with attached }) hstore c
  rw [← hstart] at hquiet
  have hbegun : Begun { s with attached } i c (.error fault) (s.start call) .ready :=
    .of_quiet hready nofun nofun
      ((hquiet.notices_eq fun _ => id).trans (List.append_nil _).symm) rfl
      (hquiet.exchanges_eq fun _ => id)
  obtain ⟨d, -, hsilent, hawaited, hconcludes, -⟩ := hbegun.concludes hs events
  exact hconcludes (fun h => nomatch hawaited h) fun h => nomatch hsilent.mp h

/-- A call that hands a check to a store concludes with the verdict of that store. -/
theorem Answers.concludes {events : List (Event α)} {verdict? : Option (Except (Fault α) Bool)}
    (h : s.Answers call i c events verdict?) (hs : s.Reachable) (attached : List TaskId)
    (hstart : s.start call = ({ s with attached } : Deployment α).startCheck i c) :
    s.Concludes call c events verdict? := by
  have hclear := hs.clear.attached attached
  cases h with
  | absent hstore =>
    have hbegun := startCheck_absent hclear hstore c (.ok true)
    rw [← hstart] at hbegun
    obtain ⟨d', -, hsilent, -, -, hpends⟩ := hbegun.concludes hs events
    exact hpends (Or.inr (hsilent.mpr rfl))
  | memory hstore =>
    obtain ⟨d, hbegun, hd⟩ := startCheck_memory hclear hstore c
    rw [← hstart] at hbegun
    obtain ⟨d', -, hsilent, hawaited, hconcludes, -⟩ := hbegun.concludes hs events
    refine hconcludes (fun h => ?_) fun h => ?_
    · rcases hd with rfl | rfl <;> cases hawaited h
    · rcases hd with rfl | rfl <;> cases hsilent.mp h
  | outstanding hstore hawaited =>
    exact (concludes_scripted hs attached hstart hstore events).1 hawaited
  | scripted hstore hawaited =>
    exact (concludes_scripted hs attached hstart hstore events).2 hawaited
  | abandoned hstore haborted =>
    have hready := startCheck_aborted hclear hstore haborted
    exact concludes_of_ready hs attached hstart hstore (hstart ▸ hready) events
  | unlinkable hstore hlive howned hnone hstatus hthrows =>
    have hready := startCheck_unlinkable hclear hstore hlive howned hnone hstatus
      ((reply_congr s { s with attached } rfl rfl rfl _ _).trans hthrows)
    exact concludes_of_ready hs attached hstart hstore (hstart ▸ hready) events
  | unreadable hstore hlive hpromise htext =>
    obtain ⟨e, he, hstands⟩ := stands_startCheck_unreadable hclear hstore hlive htext
      (hpromise.attached attached) ""
    rw [← hstart] at hstands
    exact Journey.Stands.concludes (s := s) hstands hs hstart hstore nofun (.start he) trivial nofun
      events
  | waiting hstore hlive hpromise htext =>
    obtain ⟨e, he, hstands⟩ := stands_startCheck hclear hstore hlive htext
      (hpromise.attached attached)
    rw [← hstart] at hstands
    have hconcludes := Journey.Stands.concludes (s := s) hstands hs hstart hstore
      (fun _ => by rw [hstart, isAborted_startCheck]; exact hlive) (.start he) trivial nofun events
    rw [show (Wait.waiting : Wait α).end? = none from rfl, Option.none_or] at hconcludes
    unfold verdict?
    generalize (s.start call).firstEnding? s.tasks.length c.signal events = ending? at hconcludes ⊢
    cases ending? <;> exact hconcludes

end

end Admission.Deployment
