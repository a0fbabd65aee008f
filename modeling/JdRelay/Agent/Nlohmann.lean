import JdRelay.Base.Json

namespace Agent
open Text Json

inductive Exn where
  | parseError
  | typeError
  | invalidArgument (what : Str)
  | runtimeError (what : Str)
  deriving DecidableEq

-- nlohmann::json: parse gives none where it throws. A boolean reads as a long long only where int64_t is not one.
structure Nlohmann where
  parse : Bytes → Option Value
  ofDouble : Number.Double → Int
  boolAsLongLong : Bool

namespace Nlohmann

variable (nl : Nlohmann)

def parsed (text : Bytes) : Except Exn Value :=
  match nl.parse text with
  | none => .error .parseError
  | some j => .ok j

def getString : Value → Option Str
  | .str s => some s
  | _ => none

-- An unsigned number behind the range of long long wraps.
def getLongLong : Value → Option Int
  | .int n => some (n.bmod (2 ^ 64))
  | .float x => some (nl.ofDouble x)
  | .bool b => if nl.boolAsLongLong then some (if b then 1 else 0) else none
  | _ => none

section Value

variable {A : Type} (get : Value → Option A) (fields : List (Str × Value)) (key : Str) (default : A)

def value (j : Value) : Except Exn A :=
  match j with
  | .obj fields =>
      match lookup? fields key with
      | none => .ok default
      | some v =>
          match get v with
          | none => .error .typeError
          | some a => .ok a
  | _ => .error .typeError

def hasType : Bool := (lookup? fields key).all fun v => (get v).isSome

def valueOr : A := ((lookup? fields key).bind get).getD default

theorem value_obj : value get key default (.obj fields) =
    if hasType get fields key then .ok (valueOr get fields key default) else .error .typeError := by
  rw [value, hasType, valueOr]
  cases lookup? fields key with
  | none => rfl
  | some v => cases hget : get v <;> simp [hget]

end Value

end Nlohmann
end Agent
