import TransitSim.Json.Value

/-!
# Records

A record has named fields in a fixed order. It is read from an object, whose other members are
ignored, or from an array that holds the fields in order. A field that is not there is judged by
the field itself: it may be required, optional or have a value of its own.
-/

namespace TransitSim
namespace Json

/-- A field of a record: given, not among the members of an object, or beyond the end of an
array. -/
inductive Slot where
  | given (r : Raw)
  | unnamed
  | beyond

/-!
# Fields
-/

def membersNamed (name : String) (members : List (String × Raw)) : List Raw :=
  (members.filter fun (key, _) => key = name).map (·.2)

def slotNamed? (members : List (String × Raw)) (name : String) : Option Slot :=
  match membersNamed name members with
  | [] => some .unnamed
  | [r] => some (.given r)
  | _ => none

def keyed? : List (List Piece × Raw) → Option (List (String × Raw))
  | [] => some []
  | (key, value) :: rest => do
      let key ← string? key
      let rest ← keyed? rest
      some ((key, value) :: rest)

def Raw.slots? (names : List String) : Raw → Option (List Slot)
  | .object members => do
      let members ← keyed? members
      names.mapM (slotNamed? members)
  | .array items =>
      if names.length < items.length then none
      else some (items.map .given ++ List.replicate (names.length - items.length) .beyond)
  | _ => none

namespace Slot

variable {α : Type}

def required (read : Raw → Option α) : Slot → Option α
  | .given r => read r
  | _ => none

def optional (read : Raw → Option α) : Slot → Option (Option α)
  | .given .null => some none
  | .given r => (read r).map some
  | .unnamed => some none
  | .beyond => none

def orElse (read : Raw → Option α) (value : α) : Slot → Option α
  | .given r => read r
  | _ => some value

end Slot

/-!
# Simple fields
-/

namespace Raw

def text? : Raw → Option String
  | .string pieces => string? pieces
  | _ => none

def float? : Raw → Option Float
  | .number n => n.number?.map Number.toFloat
  | _ => none

def int? (least greatest : Int) : Raw → Option Int
  | .number n => do
      let value ← (← n.number?).toInt?
      if least ≤ value ∧ value ≤ greatest then some value else none
  | _ => none

def natBelow? (limit : Nat) (r : Raw) : Option Nat :=
  (r.int? 0 (limit - 1)).map Int.toNat

def list? {α : Type} (read : Raw → Option α) : Raw → Option (List α)
  | .array items => items.mapM read
  | _ => none

/-- One of several words, as a string or as the only key of an object with the value `null`. -/
def word? {α : Type} (words : List (String × α)) : Raw → Option α
  | .string pieces => (string? pieces).bind fun w => words.lookup w
  | .object [(key, .null)] => (string? key).bind fun w => words.lookup w
  | _ => none

end Raw
end Json
end TransitSim
