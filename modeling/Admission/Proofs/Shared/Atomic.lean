import Admission.Deployment.Checking
import Admission.Proofs.Number.RoundTrip
import Admission.Proofs.Settings.Acceptance
import Admission.Proofs.Shared.Table

/-!
A run of the script that fails.

Redis takes nothing back that a script has done before it fails. A run of this one fails before it
writes anything, and only because a number is missing: the clock of the caller first of all, and the
limit after that. A configuration that was accepted has finite numbers only, and those are read from
their texts as they are, so what is left is the clock. Whatever stands in the fields of the key, a
run with a finite clock succeeds.
-/
namespace Admission.Shared

variable {α τ : Type} [Scalar α]

/-- What a store asks of the script for one check, each number in its plain text. -/
def commandFor [Textual α] (c : Config α) (key : String) (now : α) : Command String :=
  ⟨key, Textual.text c.limit.rate, Textual.text c.limit.capacity, Textual.text now,
    Textual.text c.ttlSeconds⟩

omit [Scalar α] in
/-- It is what the store of a configuration sends when it is given a number as its clock. -/
theorem command?_evaluation? [Textual α] (c : Config α) (redis : RedisSettings α) {check : Check α}
    {now : α} (hnow : check.now = some (.number now)) {evaluation : Evaluation α}
    (h : (c.redisOptions redis).evaluation? check = some evaluation) :
    evaluation.command? = some (commandFor c evaluation.key now) := by
  obtain ⟨lead, -, key, -, rfl⟩ : ∃ lead, textOrMissing? (some c.keyLead) = some lead ∧
      ∃ key, textOrMissing? check.key = some key ∧
        (⟨lead ++ key, some (.number c.limit.rate), some (.number c.limit.capacity), check.now,
          some (.number c.ttlSeconds)⟩ : Evaluation α) = evaluation := by
    simpa [RedisOptions.evaluation?, Config.redisOptions, Option.bind_eq_some_iff] using h
  simp [Evaluation.command?, commandFor, hnow, textOrMissing?, Value.text?]

/-- The transition of what a key holds; a key that holds no bucket starts with a full one. -/
def transitionFrom (limit : Limit α) (held : Option (α × α)) (now : α) : Bool × α × α :=
  let (tokens, lastUpdate) := held.getD (limit.capacity, now)
  transition limit tokens lastUpdate now

/-- Where all numbers are there, the script goes through. -/
theorem attempt_eq_ok (limit : Limit α) (now : α) (held : Option (α × α)) :
    attempt (some limit.rate) (some limit.capacity) (some now) held =
      .ok (transitionFrom limit held now) := by
  cases held <;> rfl

/-- A run that fails leaves the table as it is. -/
theorem run_snd_of_error (form : Form α τ) (clock : α) (c : Command τ) (space : Keyspace τ α)
    {e : ScriptError} (h : (run form clock c space).1 = .error e) :
    (run form clock c space).2 = space := by
  unfold run at h ⊢
  dsimp only at h ⊢
  split at h
  · rfl
  · cases h

theorem run_fst_of_now_unreadable (form : Form α τ) (clock : α) (c : Command τ)
    (space : Keyspace τ α) (hnow : form.read c.now = none) :
    (run form clock c space).1 = .error .now := by
  simp only [run, hnow, attempt]

/-- What a run that succeeds leaves of the table: both fields are written, and the key is to live
from now on. Everything else stays as it is. -/
structure Leaves (form : Form α τ) (clock : α) (key : String) (tokens lastUpdate seconds : α)
    (before after : Keyspace τ α) : Prop where
  written : after.lookup key =
    some ⟨Record.setAll ((before.find? clock key).getD ⟨[], none⟩).fields
      [(tokensField, form.field tokens), (lastUpdateField, form.field lastUpdate)],
      some (clock + seconds * 1000)⟩
  others : ∀ other, other ≠ key → after.lookup other = before.lookup other

/-- A run succeeds if the script reads every number of the command. -/
theorem run_of_readable (form : Form α τ) (clock : α) (c : Command τ) (space : Keyspace τ α)
    {limit : Limit α} {now seconds : α} (hrate : form.read c.rate = some limit.rate)
    (hcapacity : form.read c.capacity = some limit.capacity) (hnow : form.read c.now = some now)
    (hseconds : form.read c.ttlSeconds = some seconds) :
    let (allowed, tokens, lastUpdate) := transitionFrom limit (held form space clock c.key) now
    (run form clock c space).1 = .ok allowed ∧
      Leaves form clock c.key tokens lastUpdate seconds space (run form clock c space).2 := by
  rcases htransition : transitionFrom limit (held form space clock c.key) now with
    ⟨allowed, tokens, lastUpdate⟩
  have hrun : run form clock c space = (.ok allowed,
      (space.write clock c.key [(tokensField, form.field tokens),
        (lastUpdateField, form.field lastUpdate)]).expire clock c.key seconds) := by
    simp only [run, hrate, hcapacity, hnow, hseconds, attempt_eq_ok, htransition, Option.getD_some]
  have hlookup := fun other => Keyspace.lookup_expire_write space clock c.key other
    [(tokensField, form.field tokens), (lastUpdateField, form.field lastUpdate)] (by simp) seconds
  rw [hrun]
  refine ⟨rfl, ?_, ?_⟩
  · exact (hlookup c.key).trans (if_pos rfl)
  · intro other hother
    exact (hlookup other).trans (if_neg hother)

/-- The script reads from its text any finite number; only the zero that has a sign loses it. -/
theorem read_text (x : Float) : (Form.textual.read (Textual.text x) : Option Float) =
    if x.isFinite then some (if x = -0 then 0 else x) else none := by
  rw [← readStored_plainText]
  rfl

theorem read_text_of_ne {x : Float} (hfinite : x.isFinite = true) (hsign : x ≠ -0) :
    (Form.textual.read (Textual.text x) : Option Float) = some x := by
  rw [read_text, if_pos hfinite, if_neg hsign]

theorem isFinite_of_isPositiveWhole {x : Float} (h : Settings.isPositiveWhole x = true) :
    x.isFinite = true ∧ x ≠ -0 := by
  obtain ⟨hwhole, hpositive⟩ := Bool.and_eq_true_iff.mp h
  refine ⟨(Bool.and_eq_true_iff.mp hwhole).1, ?_⟩
  rintro rfl
  exact absurd (of_decide_eq_true hpositive) (by decide +kernel)

/-- The numbers of a configuration that was accepted are read as they are. -/
theorem read_text_of_resolve {s : Settings Float} {c : Config Float} (h : s.resolve = .ok c) :
    (Form.textual.read (Textual.text c.limit.rate) : Option Float) = some c.limit.rate ∧
      (Form.textual.read (Textual.text c.limit.capacity) : Option Float) = some c.limit.capacity ∧
      (Form.textual.read (Textual.text c.ttlSeconds) : Option Float) = some c.ttlSeconds := by
  obtain ⟨a, haccept, rfl⟩ := (Settings.resolve_eq_ok_iff s c).mp h
  have hchecked := Settings.checked_of_accept haccept
  have hrate : a.limit.rate ≠ -0 := fun heq =>
    absurd (heq ▸ hchecked.rate.2) (by decide +kernel)
  have hcapacity : a.limit.capacity ≠ -0 := fun heq =>
    absurd (heq ▸ hchecked.capacity.2) (by decide +kernel)
  have hseconds : Settings.isPositiveWhole (a.ttlSeconds.getD Settings.defaultTtlSeconds) =
      true := by
    cases httl : a.ttlSeconds with
    | none => decide +kernel
    | some x => exact hchecked.ttlSeconds x httl
  refine ⟨read_text_of_ne hchecked.rate.1 hrate, read_text_of_ne ?_ hcapacity, ?_⟩
  · exact (Bool.and_eq_true_iff.mp hchecked.capacity.1).1
  · obtain ⟨hfinite, hsign⟩ := isFinite_of_isPositiveWhole hseconds
    exact read_text_of_ne hfinite hsign

/-- The script fails as a whole or does its work as a whole: with a configuration that was accepted,
it fails on a clock that is not finite, and then the table stays as it is; otherwise it succeeds
whatever the key holds, allows or denies, writes both fields and lets the key live from now on for
as long as the configuration says. -/
theorem all_or_nothing {s : Settings Float} {c : Config Float} (hc : s.resolve = .ok c)
    (key : String) (now clock : Float) (space : Keyspace String Float) :
    let result := run .textual clock (commandFor c key now) space
    (∀ e, result.1 = .error e → result.2 = space) ∧
    (now.isFinite = false → result.1 = .error .now) ∧
    (now.isFinite = true →
      let instant := if now = -0 then 0 else now
      let (allowed, tokens, lastUpdate) :=
        transitionFrom c.limit (held .textual space clock key) instant
      result.1 = .ok allowed ∧
        Leaves .textual clock key tokens lastUpdate c.ttlSeconds space result.2) := by
  intro result
  refine ⟨fun e he => run_snd_of_error _ _ _ _ he, fun hnow => ?_, fun hnow => ?_⟩
  · refine run_fst_of_now_unreadable _ _ _ _ ?_
    rw [commandFor, read_text, hnow]
    rfl
  · obtain ⟨hrate, hcapacity, hseconds⟩ := read_text_of_resolve hc
    have hinstant : (Form.textual.read (Textual.text now) : Option Float) =
        some (if now = -0 then 0 else now) := by
      rw [read_text, if_pos hnow]
    exact run_of_readable .textual clock (commandFor c key now) space hrate hcapacity hinstant
      hseconds

/-- A key with a single field that is no number stays as it is if there is no clock. A clock lets it
begin with a full bucket. -/
theorem all_or_nothing_unreadable :
    let s : Settings Float := { rate := some (.number 10)
                                capacity := some (.number 2)
                                ttlSeconds := some (.number 60) }
    let c := s.complete ⟨⟨10, 2⟩, some 60, none, none, none, none⟩
    let space : Keyspace String Float := [("k", ⟨[(tokensField, "many")], some 9000⟩)]
    let failed := run .textual 5000 (commandFor c "k" (0 / 0)) space
    let passed := run .textual 5000 (commandFor c "k" 1000) space
    s.resolve = .ok c ∧ failed = (.error .now, space) ∧ passed.1 = .ok true ∧
      passed.2.lookup "k" =
        some ⟨[(tokensField, "1"), (lastUpdateField, "1000")], some 65000⟩ := by
  intro s c space failed passed
  have hresolve : s.resolve = .ok c := rfl
  obtain ⟨hkept, hfails, -⟩ := all_or_nothing hresolve "k" (0 / 0) 5000 space
  obtain ⟨-, -, hpasses⟩ := all_or_nothing hresolve "k" 1000 5000 space
  have hfailed : failed.1 = .error .now := hfails (by decide +kernel)
  have htransition : transitionFrom c.limit (held .textual space 5000 "k")
      (if (1000 : Float) = -0 then 0 else 1000) = (true, 1, 1000) := by
    decide +kernel
  have hpassed := hpasses (by decide +kernel)
  dsimp only at hpassed
  rw [htransition] at hpassed
  obtain ⟨hallowed, hleaves⟩ := hpassed
  have hfields : Record.setAll ((space.find? 5000 "k").getD ⟨[], none⟩).fields
      [(tokensField, Form.textual.field (1 : Float)),
        (lastUpdateField, Form.textual.field (1000 : Float))] =
        [(tokensField, "1"), (lastUpdateField, "1000")] := by
    decide +kernel
  have hinstant : (5000 : Float) + c.ttlSeconds * 1000 = 65000 := by decide +kernel
  refine ⟨hresolve, Prod.ext hfailed (hkept _ hfailed), hallowed, hleaves.written.trans ?_⟩
  rw [hfields, hinstant]

end Admission.Shared
