import TransitSim.Decimal.Binary64

/-!
# Reading decimal numbers

The text of a number is an optional sign, digits with at most one point among them or at an end,
and an optional exponent. The words for infinity and for no number are accepted too, in any case.
The answer is the double nearest to the number written.
-/

namespace TransitSim
namespace Decimal

def spanDigits (cs : List Char) : List Char × List Char :=
  (cs.takeWhile Char.isDigit, cs.dropWhile Char.isDigit)

def digitsValue (ds : List Char) : Nat :=
  ds.foldl (fun n c => 10 * n + (c.toNat - '0'.toNat)) 0

def splitSign : List Char → Bool × List Char
  | '-' :: rest => (true, rest)
  | '+' :: rest => (false, rest)
  | cs => (false, cs)

def exponent? (cs : List Char) : Option Int :=
  let (negative, rest) := splitSign cs
  let (ds, rest) := spanDigits rest
  if ds.isEmpty || !rest.isEmpty then none
  else some (if negative then -(digitsValue ds : Int) else (digitsValue ds : Int))

def unsigned? (negative : Bool) (cs : List Char) : Option Float :=
  let (whole, rest) := spanDigits cs
  let (fraction, rest) := match rest with
    | '.' :: rest => spanDigits rest
    | _ => ([], rest)
  if whole.isEmpty && fraction.isEmpty then none
  else
    let finish (exponent : Int) : Float :=
      Binary64.ofDecimal negative (digitsValue (whole ++ fraction)) (exponent - fraction.length)
    match rest with
    | [] => some (finish 0)
    | c :: rest => if c = 'e' ∨ c = 'E' then (exponent? rest).map finish else none

def exceptional? (negative : Bool) (cs : List Char) : Option Float :=
  let word := cs.map Char.toLower
  if word = "inf".toList ∨ word = "infinity".toList then
    some (if negative then -(1 / 0 : Float) else (1 / 0 : Float))
  else if word = "nan".toList then some (0 / 0 : Float)
  else none

def read? (s : String) : Option Float :=
  let (negative, rest) := splitSign s.toList
  match exceptional? negative rest with
  | some x => some x
  | none => unsigned? negative rest

end Decimal
end TransitSim
