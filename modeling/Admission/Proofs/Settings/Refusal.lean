import Admission.Deployment.Setup
import Admission.Proofs.Settings.Acceptance

/-!
Which settings are refused, and with what.

What makes settings those of a working limiter is a list of rules, one about each setting that is
checked. Settings are accepted when every rule holds, and refused with the fault of the first rule
in the list that does not. Whoever takes settings refuses the same ones with the same fault, and no
setting outside the rules has a part in it.
-/
namespace Admission

namespace Value

variable {α : Type}

mutual

/-- Whether there is no object in a value. -/
def isPlain : Value α → Bool
  | list items => arePlain items
  | object _ => false
  | _ => true

def arePlain : List (Value α) → Bool
  | [] => true
  | item :: items => item.isPlain && arePlain items

end

variable [Textual α]

mutual

theorem exists_text?_of_isPlain (v : Value α) (h : v.isPlain = true) :
    ∃ text, v.text? = some text := by
  cases v with
  | null => exact ⟨_, rfl⟩
  | bool b => exact ⟨_, rfl⟩
  | number x => exact ⟨_, rfl⟩
  | text s => exact ⟨_, rfl⟩
  | list items =>
    obtain ⟨texts, htexts⟩ := exists_itemTexts?_of_arePlain items (by simpa [isPlain] using h)
    exact ⟨_, by rw [text?, htexts, Option.map_some]⟩
  | object fields => simp [isPlain] at h

theorem exists_itemTexts?_of_arePlain (items : List (Value α)) (h : arePlain items = true) :
    ∃ texts, itemTexts? items = some texts := by
  cases items with
  | nil => exact ⟨[], by rw [itemTexts?]⟩
  | cons item items =>
    obtain ⟨hitem, hitems⟩ : item.isPlain = true ∧ arePlain items = true := by
      simpa [arePlain] using h
    obtain ⟨text, htext⟩ := exists_text?_of_isPlain item hitem
    obtain ⟨texts, htexts⟩ := exists_itemTexts?_of_arePlain items hitems
    cases item with
    | null => exact ⟨_, by rw [itemTexts?, htexts, Option.map_some]⟩
    | _ => exact ⟨text :: texts, by simp [itemTexts?, htext, htexts]⟩

end

end Value

namespace WholeSetting

variable {α : Type}

/-- What settings hold for it. -/
def of (s : Settings α) : WholeSetting → Option (Value α)
  | ttlSeconds => s.ttlSeconds
  | timeout => s.timeout
  | idleTimeout => s.idleTimeout
  | sweepInterval => s.sweepInterval
  | maxBuckets => s.maxBuckets

def fault (got : Value α) (setting : WholeSetting) : SettingsFault α :=
  match setting with
  | ttlSeconds | timeout => .notPositive setting got
  | idleTimeout | sweepInterval | maxBuckets => .negative setting got

variable [Scalar α]

/-- How small it may be. -/
def InRange (x : α) : WholeSetting → Prop
  | ttlSeconds | timeout => 0 < x
  | idleTimeout | sweepInterval | maxBuckets => 0 ≤ x

def passes (x : α) : WholeSetting → Bool
  | ttlSeconds | timeout => Settings.isPositiveWhole x
  | idleTimeout | sweepInterval | maxBuckets => Settings.isNaturalWhole x

end WholeSetting

namespace Settings

/-- The rules for settings. -/
inductive Rule where
  | rate
  | capacity
  | whole (setting : WholeSetting)
  | endpoint

namespace Rule

/-- All rules, in the order of the checks. -/
def order : List Rule :=
  [rate, capacity, whole .ttlSeconds, whole .timeout, whole .idleTimeout, whole .sweepInterval,
    whole .maxBuckets, endpoint]

variable {α : Type} [Scalar α]

/-- What a rule asks of settings. -/
def Holds (s : Settings α) : Rule → Prop
  | rate => ∃ x, s.rate = some (.number x) ∧ Scalar.isFinite x = true ∧ 0 < x
  | capacity => ∃ x, s.capacity = some (.number x) ∧ Scalar.isWhole x = true ∧ 1 ≤ x
  | whole setting => setting.of s = none ∨
      ∃ x, setting.of s = some (.number x) ∧ Scalar.isWhole x = true ∧ setting.InRange x
  | endpoint => ∀ redis, s.redis = some (.on redis) →
      redis.client ≠ none ∨ isGiven redis.url = true ∨ isGiven redis.host = true

/-- The fault that the check of a rule finds. -/
def fault? (s : Settings α) : Rule → Option (SettingsFault α)
  | rate => match numberWhere (fun x => Scalar.isFinite x && decide (0 < x)) s.rate with
    | some _ => none
    | none => some (.rate s.rate)
  | capacity => match numberWhere (fun x => Scalar.isWhole x && decide (1 ≤ x)) s.capacity with
    | some _ => none
    | none => some (.capacity s.capacity)
  | whole setting => match optionalWhere setting.passes setting.fault (setting.of s) with
    | .ok _ => none
    | .error f => some f
  | endpoint => if reachable s.redis then none else some .noEndpoint

end Rule

variable {α : Type} [Scalar α]

/-- The settings that must be numbers, where they are given. -/
def numbers {α : Type} (s : Settings α) : List (Option (Value α)) :=
  [s.rate, s.capacity, s.ttlSeconds, s.timeout, s.idleTimeout, s.sweepInterval, s.maxBuckets]

end Settings

end Admission
