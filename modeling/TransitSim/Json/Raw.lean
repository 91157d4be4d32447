import TransitSim.Json.Number

/-!
# The syntax of JSON

Text is read into a tree that keeps what a reader may still judge: numerals whose value may lie
beyond the doubles, and escapes for halves of a surrogate pair. A member that nobody asks for is
then accepted whatever its numbers and escapes stand for.
-/

namespace TransitSim
namespace Json

inductive Piece where
  | char (c : Char)
  | unit (n : Nat)
  deriving DecidableEq, Repr

/-- A syntax tree; the members of an object are in the order of the text. -/
inductive Raw where
  | null
  | bool (b : Bool)
  | number (n : Numeral)
  | string (pieces : List Piece)
  | array (items : List Raw)
  | object (members : List (List Piece × Raw))

/-!
# Strings
-/

def hexDigit? (c : Char) : Option Nat :=
  if c.isDigit then some (c.toNat - '0'.toNat)
  else if 'a' ≤ c ∧ c ≤ 'f' then some (c.toNat - 'a'.toNat + 10)
  else if 'A' ≤ c ∧ c ≤ 'F' then some (c.toNat - 'A'.toNat + 10)
  else none

def hexFour? (a b c d : Char) : Option Nat := do
  some (((← hexDigit? a) * 16 + (← hexDigit? b)) * 256 + (← hexDigit? c) * 16 + (← hexDigit? d))

def escaped? : Char → Option Char
  | '"' => some '"'
  | '\\' => some '\\'
  | '/' => some '/'
  | 'b' => some '\x08'
  | 'f' => some '\x0c'
  | 'n' => some '\n'
  | 'r' => some '\r'
  | 't' => some '\t'
  | _ => none

def readPieces? : List Char → Option (List Piece × List Char)
  | [] => none
  | '"' :: rest => some ([], rest)
  | '\\' :: 'u' :: a :: b :: c :: d :: rest => do
      let n ← hexFour? a b c d
      let (pieces, rest) ← readPieces? rest
      some (.unit n :: pieces, rest)
  | '\\' :: e :: rest => do
      let c ← escaped? e
      let (pieces, rest) ← readPieces? rest
      some (.char c :: pieces, rest)
  | c :: rest =>
      if c = '\\' ∨ c.toNat < 0x20 then none
      else do
        let (pieces, rest) ← readPieces? rest
        some (.char c :: pieces, rest)

def isHighHalf (n : Nat) : Bool :=
  0xD800 ≤ n && n ≤ 0xDBFF

def isLowHalf (n : Nat) : Bool :=
  0xDC00 ≤ n && n ≤ 0xDFFF

/-- The characters of a string, with halves joined; a half that stands alone has none. -/
def chars? : List Piece → Option (List Char)
  | [] => some []
  | .char c :: rest => (chars? rest).map (c :: ·)
  | .unit high :: .unit low :: rest =>
      if isHighHalf high then
        if isLowHalf low then
          (chars? rest).map (Char.ofNat (0x10000 + (high - 0xD800) * 0x400 + (low - 0xDC00)) :: ·)
        else none
      else if isLowHalf high then none
      else (chars? (.unit low :: rest)).map (Char.ofNat high :: ·)
  | .unit n :: rest =>
      if isHighHalf n || isLowHalf n then none
      else (chars? rest).map (Char.ofNat n :: ·)

def string? (pieces : List Piece) : Option String :=
  (chars? pieces).map String.ofList

/-!
# Values
-/

def isSpace (c : Char) : Bool :=
  c = ' ' || c = '\n' || c = '\t' || c = '\r'

def skipSpace (cs : List Char) : List Char :=
  cs.dropWhile isSpace

def readWord? : List Char → List Char → Option (List Char)
  | [], cs => some cs
  | w :: ws, c :: cs => if w = c then readWord? ws cs else none
  | _ :: _, [] => none

mutual

/-- A value behind white space, and what follows it. Each step takes one unit of `fuel`. -/
def readValue? : Nat → List Char → Option (Raw × List Char)
  | 0, _ => none
  | fuel + 1, cs =>
      match skipSpace cs with
      | '"' :: rest => (readPieces? rest).map fun (pieces, rest) => (.string pieces, rest)
      | '[' :: rest =>
          match skipSpace rest with
          | ']' :: rest => some (.array [], rest)
          | rest => (readItems? fuel rest).map fun (items, rest) => (.array items, rest)
      | '\x7b' :: rest =>
          match skipSpace rest with
          | '\x7d' :: rest => some (.object [], rest)
          | rest => (readMembers? fuel rest).map fun (members, rest) => (.object members, rest)
      | 'n' :: rest => (readWord? "ull".toList rest).map fun rest => (.null, rest)
      | 't' :: rest => (readWord? "rue".toList rest).map fun rest => (.bool true, rest)
      | 'f' :: rest => (readWord? "alse".toList rest).map fun rest => (.bool false, rest)
      | cs => (numeral? cs).map fun (n, rest) => (.number n, rest)

def readItems? : Nat → List Char → Option (List Raw × List Char)
  | 0, _ => none
  | fuel + 1, cs => do
      let (item, rest) ← readValue? fuel cs
      match skipSpace rest with
      | ']' :: rest => some ([item], rest)
      | ',' :: rest =>
          let (items, rest) ← readItems? fuel rest
          some (item :: items, rest)
      | _ => none

def readMembers? : Nat → List Char → Option (List (List Piece × Raw) × List Char)
  | 0, _ => none
  | fuel + 1, cs =>
      match skipSpace cs with
      | '"' :: rest => do
          let (key, rest) ← readPieces? rest
          match skipSpace rest with
          | ':' :: rest =>
              let (value, rest) ← readValue? fuel rest
              match skipSpace rest with
              | '\x7d' :: rest => some ([(key, value)], rest)
              | ',' :: rest =>
                  let (members, rest) ← readMembers? fuel rest
                  some ((key, value) :: members, rest)
              | _ => none
          | _ => none
      | _ => none

end

/-- The tree of a text that holds one value and white space. Every step of the reader consumes a
character or opens an item, so that the length of the text bounds their number. -/
def Raw.ofChars? (cs : List Char) : Option Raw :=
  match readValue? (2 * cs.length + 1) cs with
  | some (raw, rest) => if (skipSpace rest).isEmpty then some raw else none
  | none => none

def Raw.ofText? (s : String) : Option Raw :=
  Raw.ofChars? s.toList

end Json
end TransitSim
