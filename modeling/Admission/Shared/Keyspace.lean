import Admission.Number.Scalar

/-!
A table of hashes with expiring keys.

Every key holds fields and may have an instant at which it expires. From that instant on the key
is gone: nothing needs to remove it. An instant that is no number never comes. Times are in
milliseconds, times to live in seconds.
-/
namespace Admission

/-- The fields of one key, each once, and the instant from which the key is gone. -/
structure Record (τ α : Type) where
  fields : List (String × τ)
  expiry : Option α

abbrev Keyspace (τ α : Type) := List (String × Record τ α)

namespace Record

variable {τ α : Type}

def set (fields : List (String × τ)) (name : String) (value : τ) : List (String × τ) :=
  if fields.any (·.1 == name) then fields.map fun f => if f.1 == name then (name, value) else f
  else fields ++ [(name, value)]

def setAll (fields : List (String × τ)) (values : List (String × τ)) : List (String × τ) :=
  values.foldl (fun fs v => set fs v.1 v.2) fields

def isLive [Scalar α] (r : Record τ α) (clock : α) : Bool :=
  match r.expiry with
  | none => true
  | some instant => !decide (instant ≤ clock)

end Record

namespace Keyspace

variable {τ α : Type} [Scalar α]

/-- The record of a key, unless it has expired. -/
def find? (k : Keyspace τ α) (clock : α) (key : String) : Option (Record τ α) :=
  (k.lookup key).filter (·.isLive clock)

def field? (k : Keyspace τ α) (clock : α) (key name : String) : Option τ :=
  (k.find? clock key).bind (·.fields.lookup name)

def put (k : Keyspace τ α) (key : String) (r : Record τ α) : Keyspace τ α :=
  (key, r) :: k.filter (·.1 != key)

/-- Writes fields, leaving the expiry of the key as it is. Writing no fields creates no key. -/
def write (k : Keyspace τ α) (clock : α) (key : String) (values : List (String × τ)) :
    Keyspace τ α :=
  if values.isEmpty then k
  else
    let r := (k.find? clock key).getD ⟨[], none⟩
    k.put key { r with fields := Record.setAll r.fields values }

def expire (k : Keyspace τ α) (clock : α) (key : String) (seconds : α) : Keyspace τ α :=
  match k.find? clock key with
  | none => k
  | some r => k.put key { r with expiry := some (clock + seconds * 1000) }

def erase (k : Keyspace τ α) (key : String) : Keyspace τ α := k.filter (·.1 != key)

def liveKeys (k : Keyspace τ α) (clock : α) : List String :=
  (k.filter (·.2.isLive clock)).map Prod.fst

inductive Lifetime (α : Type) where
  | absent
  | forever
  | seconds (n : α)

def lifetime (k : Keyspace τ α) (clock : α) (key : String) : Lifetime α :=
  match k.find? clock key with
  | none => .absent
  | some r =>
    match r.expiry with
    | none => .forever
    | some instant => .seconds (Scalar.ceiling ((instant - clock) / 1000))

end Keyspace

end Admission
