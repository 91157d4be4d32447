import TransitSim.Json.Raw

/-!
# JSON values

Values that any document may hold. Reading one judges the whole document: every number has to be
a double, every escape a character, and containers nest to a limited depth. The members of an
object that was read are sorted by key, and of equal keys the last one counts.
-/

namespace TransitSim

inductive Json where
  | null
  | bool (b : Bool)
  | number (n : Json.Number)
  | string (s : String)
  | array (items : List Json)
  | object (members : List (String × Json))

namespace Json

def ofInt (n : Int) : Json :=
  if 0 ≤ n then .number (.natural n.toNat) else .number (.negative n.natAbs)

def ofNat (n : Nat) : Json :=
  .number (.natural n)

def ofFloat (x : Float) : Json :=
  .number (.real x)

/-!
# Reading
-/

def depthLimit : Nat := 127

def putMember (key : String) (value : Json) : List (String × Json) → List (String × Json)
  | [] => [(key, value)]
  | (k, v) :: rest =>
      if key = k then (key, value) :: rest
      else if key < k then (key, value) :: (k, v) :: rest
      else (k, v) :: putMember key value rest

mutual

/-- The value of a tree whose containers nest at most `depth` deep. -/
def ofRaw? (depth : Nat) : Raw → Option Json
  | .null => some .null
  | .bool b => some (.bool b)
  | .number n => n.number?.map .number
  | .string pieces => (string? pieces).map .string
  | .array items => match depth with
      | 0 => none
      | depth + 1 => (ofItems? depth items).map .array
  | .object members => match depth with
      | 0 => none
      | depth + 1 => (ofMembers? depth [] members).map .object

def ofItems? (depth : Nat) : List Raw → Option (List Json)
  | [] => some []
  | item :: rest => do
      let value ← ofRaw? depth item
      let values ← ofItems? depth rest
      some (value :: values)

/-- The values of the members of an object, put in order behind those in `before`. -/
def ofMembers? (depth : Nat) (before : List (String × Json)) :
    List (List Piece × Raw) → Option (List (String × Json))
  | [] => some before
  | (key, item) :: rest => do
      let key ← string? key
      let value ← ofRaw? depth item
      ofMembers? depth (putMember key value before) rest

end

def ofText? (s : String) : Option Json :=
  (Raw.ofText? s).bind (ofRaw? depthLimit)

/-!
# Views
-/

def member? (key : String) : Json → Option Json
  | .object members => members.lookup key
  | _ => none

def items? : Json → Option (List Json)
  | .array items => some items
  | _ => none

def text? : Json → Option String
  | .string s => some s
  | _ => none

def float? : Json → Option Float
  | .number n => some n.toFloat
  | _ => none

end Json
end TransitSim
