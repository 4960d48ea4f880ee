import Admission.Settings

/-!
Ready-made settings for the commonest limiter: one bucket for each client address.
-/
namespace Admission.Settings

def perAddress {α : Type} (rate capacity : Option (Value α)) : Settings α where
  rate := rate
  capacity := capacity
  keyRule := some .address

def perAddressShared {α : Type} (redis : Option (RedisChoice α))
    (rate capacity : Option (Value α)) : Settings α :=
  { perAddress rate capacity with redis }

end Admission.Settings
