import Admission.Proofs.Deployment.Errand

/-!
What the end of a wait brings to a check.

The reasons of store faults and the meaning of every end of a wait are written out here, as a caller
reads them and without the definitions that compute them. A check that waits is told one of them,
and the laws of checks are stated in these terms.
-/
namespace Admission

variable {α : Type}

/-- How a reason reads for a caller. -/
inductive FailureReason.Reads : FailureReason → String → Prop
  | timeout : Reads .timeout "timeout"
  | aborted : Reads .aborted "aborted"
  | unavailable : Reads .unavailable "unavailable"
  | malformed : Reads .malformed "protocol"
  | other (name : String) : Reads (.other name) name

theorem FailureReason.reads_iff {reason : FailureReason} {name : String} :
    reason.Reads name ↔ reason.text = name := by
  constructor
  · rintro (_ | _ | _ | _ | _) <;> rfl
  · rintro rfl
    cases reason with
    | other name => exact .other name
    | _ => constructor

namespace Fault

/-- A fault is a store fault with this reason. -/
inductive HasReason : Fault α → FailureReason → Prop
  | timedOut (milliseconds : String) : HasReason (.timedOut milliseconds) .timeout
  | aborted : HasReason .aborted .aborted
  | unavailable (cause : Fault α) : HasReason (.unavailable cause) .unavailable
  | malformed (reply : String) : HasReason (.malformed reply) .malformed
  | reported (reason : FailureReason) (message : String) :
      HasReason (.reported reason message) reason

theorem hasReason_iff {fault : Fault α} {reason : FailureReason} :
    fault.HasReason reason ↔ fault.reason? = some reason := by
  constructor
  · rintro (_ | _ | _ | _ | _) <;> rfl
  · cases fault <;> rintro ⟨⟩ <;> constructor

theorem reason?_eq_none_iff {fault : Fault α} :
    fault.reason? = none ↔ ∀ reason, ¬fault.HasReason reason := by
  simp only [hasReason_iff, Option.eq_none_iff_forall_ne_some, ne_eq]

theorem reason?_text_eq_some_iff {fault : Fault α} {name : String} :
    fault.reason?.map FailureReason.text = some name ↔
      ∃ reason, fault.HasReason reason ∧ reason.Reads name := by
  simp only [Option.map_eq_some_iff, hasReason_iff, FailureReason.reads_iff]

end Fault

namespace Deployment

variable [Scalar α] [Textual α]

/-- What the end of a wait of so many milliseconds brings to the check that waited. The script's
answer one lets the call pass, zero does not, and any other is malformed. A failure that is no store
fault yet means that the store could not be reached; where it has no words, nobody hears of it. -/
inductive Ending.Brings (milliseconds : String) :
    Ending α → Option (Except (Fault α) Bool) → Prop
  | one {x : α} (hle : x ≤ 1) (hge : 1 ≤ x) :
      Brings milliseconds (.answered (.ok (some (.number x)))) (some (.ok true))
  | zero {x : α} (hle : x ≤ 0) (hge : 0 ≤ x) :
      Brings milliseconds (.answered (.ok (some (.number x)))) (some (.ok false))
  | malformed {reply : Option (Value α)} {text : String}
      (hother : ∀ x, reply = some (.number x) → ¬(x ≤ 1 ∧ 1 ≤ x) ∧ ¬(x ≤ 0 ∧ 0 ≤ x))
      (htext : textOrMissing? reply = some text) :
      Brings milliseconds (.answered (.ok reply)) (some (.error (.malformed text)))
  | wordless {reply : Option (Value α)}
      (hother : ∀ x, reply = some (.number x) → ¬(x ≤ 1 ∧ 1 ≤ x) ∧ ¬(x ≤ 0 ∧ 0 ≤ x))
      (hnone : textOrMissing? reply = none) :
      Brings milliseconds (.answered (.ok reply)) (some (.error .wordless))
  | rejected {fault : Fault α} {reason : FailureReason} (h : fault.HasReason reason) :
      Brings milliseconds (.answered (.error fault)) (some (.error fault))
  | unavailable {fault : Fault α} {message : String} (hother : ∀ reason, ¬fault.HasReason reason)
      (hmessage : fault.message? = some message) :
      Brings milliseconds (.answered (.error fault)) (some (.error (.unavailable fault)))
  | unheard {fault : Fault α} (hother : ∀ reason, ¬fault.HasReason reason)
      (hnone : fault.message? = none) : Brings milliseconds (.answered (.error fault)) none
  | expired : Brings milliseconds .expired (some (.error (.timedOut milliseconds)))
  | aborted : Brings milliseconds .aborted (some (.error .aborted))

/-- A reply that is neither one nor zero. -/
theorem Ending.brings_ofReply (milliseconds : String) {reply : Option (Value α)}
    (hother : ∀ x, reply = some (.number x) → ¬(x ≤ 1 ∧ 1 ≤ x) ∧ ¬(x ≤ 0 ∧ 0 ≤ x)) :
    (Ending.answered (.ok reply)).Brings milliseconds (some (.error (.ofReply reply))) := by
  unfold Fault.ofReply
  split
  · next text htext => exact .malformed hother htext
  · next hnone => exact .wordless hother hnone

theorem Ending.brings_verdictOf (milliseconds : String) (ending : Ending α) :
    ending.Brings milliseconds ((ending.outcome? milliseconds).map Fault.verdictOf) := by
  cases ending with
  | expired => exact .expired
  | aborted => exact .aborted
  | answered outcome =>
    cases outcome with
    | ok reply =>
      simp only [outcome?, Option.map_some]
      unfold Fault.verdictOf
      split
      · next x heq =>
        cases heq
        split
        · next hone => exact .one hone.1 hone.2
        · next hone =>
          split
          · next hzero => exact .zero hzero.1 hzero.2
          · next hzero =>
            refine brings_ofReply milliseconds fun y hy => ?_
            cases hy
            exact ⟨hone, hzero⟩
      · next other hother heq =>
        cases heq
        exact brings_ofReply milliseconds fun y hy => (hother y hy).elim
      · next heq => cases heq
    | error fault =>
      simp only [outcome?, Fault.asStoreFault?]
      cases hreason : fault.reason? with
      | some reason => exact .rejected (Fault.hasReason_iff.mpr hreason)
      | none =>
        have hother := Fault.reason?_eq_none_iff.mp hreason
        cases hmessage : fault.message? with
        | some message => exact .unavailable hother hmessage
        | none => exact .unheard hother hmessage

end Deployment

end Admission
