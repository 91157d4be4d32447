import TransitSim.Decimal.Layout
import TransitSim.Decimal.Reading

/-!
# Numbers of JSON

A numeral is read in two steps: its parts are split off, then they are given a value. Integers
that fit a word of 64 bits stay integers. Every other numeral becomes a double by one
multiplication or division of its leading digits, as many of them as fit a word, by a power of
ten; digits beyond those only move the decimal point.
-/

namespace TransitSim
namespace Json

open Decimal

/-- A natural number below `2 ^ 64`, the negative of a number up to `2 ^ 63`, or a double. -/
inductive Number where
  | natural (n : Nat)
  | negative (n : Nat)
  | real (x : Float)

structure Numeral where
  negative : Bool
  whole : List Char
  fraction : Option (List Char)
  exponent : Option Int
  deriving DecidableEq, Repr

/-!
# Splitting a numeral
-/

def fractionPart? : List Char → Option (Option (List Char) × List Char)
  | '.' :: rest =>
      let (ds, rest) := spanDigits rest
      if ds.isEmpty then none else some (some ds, rest)
  | rest => some (none, rest)

def exponentPart? : List Char → Option (Option Int × List Char)
  | [] => some (none, [])
  | c :: rest =>
      if c = 'e' ∨ c = 'E' then
        let (negative, rest) := splitSign rest
        let (ds, rest) := spanDigits rest
        if ds.isEmpty then none
        else
          let size : Int := digitsValue ds
          some (some (if negative then -size else size), rest)
      else some (none, c :: rest)

def isWhole : List Char → Bool
  | [] => false
  | [_] => true
  | c :: _ => c != '0'

def numeral? (cs : List Char) : Option (Numeral × List Char) := do
  let (negative, rest) := match cs with
    | '-' :: rest => (true, rest)
    | _ => (false, cs)
  let (whole, rest) := spanDigits rest
  if isWhole whole then
    let (fraction, rest) ← fractionPart? rest
    let (exponent, rest) ← exponentPart? rest
    some (⟨negative, whole, fraction, exponent⟩, rest)
  else none

/-!
# The value of a numeral
-/

def wordLimit : Nat := Nat.pow 2 64

/-- Appends digits to a number as long as it fits a word, and counts those appended. -/
def appendDigits (n : Nat) : List Char → Nat × Nat
  | [] => (n, 0)
  | c :: cs =>
      let m := 10 * n + (c.toNat - '0'.toNat)
      if m < wordLimit then
        let (value, kept) := appendDigits m cs
        (value, kept + 1)
      else (n, 0)

def nearestDouble (n : Nat) : Float :=
  Binary64.ofRatio false n 1

def powerOfTen (k : Nat) : Float :=
  nearestDouble (Nat.pow 10 k)

def greatestPower : Nat := 308

/-- Scales by a power of ten. Upwards, an infinite result is refused. Downwards, small powers are
divided out in two steps, and nothing is left beyond them. -/
def scale? (x : Float) (exponent : Int) : Option Float :=
  let k := exponent.natAbs
  if 0 ≤ exponent then
    if k ≤ greatestPower then
      let y := x * powerOfTen k
      if y.isFinite then some y else none
    else if x == 0 then some x
    else none
  else if k ≤ greatestPower then some (x / powerOfTen k)
  else if k ≤ 2 * greatestPower then
    some (x / powerOfTen greatestPower / powerOfTen (k - greatestPower))
  else some 0

def Numeral.number? (n : Numeral) : Option Number :=
  let (value, kept) := appendDigits 0 n.whole
  let dropped := n.whole.length - kept
  if n.fraction.isNone ∧ n.exponent.isNone ∧ dropped = 0 then
    if !n.negative then some (.natural value)
    else if value = 0 ∨ Nat.pow 2 63 < value then some (.real (-(nearestDouble value)))
    else some (.negative value)
  else
    let (value, places) := appendDigits value (n.fraction.getD [])
    let exponent := (dropped : Int) - places + n.exponent.getD 0
    (scale? (nearestDouble value) exponent).map fun x => .real (if n.negative then -x else x)

/-!
# Views of a number
-/

def Number.toFloat : Number → Float
  | .natural n => nearestDouble n
  | .negative n => -(nearestDouble n)
  | .real x => x

def Number.toInt? : Number → Option Int
  | .natural n => some n
  | .negative n => some (-(n : Int))
  | .real _ => none

def Number.text : Number → List Char
  | .natural n => natDigits n
  | .negative n => '-' :: natDigits n
  | .real x => (Layout.scientific.finite? x).getD "null".toList

end Json
end TransitSim
