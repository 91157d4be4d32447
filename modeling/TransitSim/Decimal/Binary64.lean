/-!
# Doubles as exact quantities

A double is read from its bits as `± mantissa · 2 ^ exponent`, an infinity or no number at all.
Going back, `ofRatio` gives the double nearest to a fraction of natural numbers, a half going to
the even neighbour. Everything here is arithmetic on `Nat` and `Int`.
-/

namespace TransitSim
namespace Binary64

/-!
# Reading the bits
-/

inductive Exact where
  | finite (negative : Bool) (mantissa : Nat) (exponent : Int)
  | infinite (negative : Bool)
  | nan
  deriving DecidableEq, Repr

def leastExponent : Int := -1074

def exactOfBits (bits : Nat) : Exact :=
  let negative := bits / Nat.pow 2 63 % 2 == 1
  let field := bits / Nat.pow 2 52 % Nat.pow 2 11
  let fraction := bits % Nat.pow 2 52
  if field = 2047 then
    if fraction = 0 then .infinite negative else .nan
  else if field = 0 then
    .finite negative fraction leastExponent
  else
    .finite negative (fraction + Nat.pow 2 52) (leastExponent + (field - 1 : Nat))

def exact (x : Float) : Exact :=
  exactOfBits x.toBits.toNat

/-!
# Rounding to an integer
-/

def roundHalfUp (mantissa : Nat) (exponent : Int) : Nat :=
  if 0 ≤ exponent then
    mantissa * Nat.pow 2 exponent.toNat
  else
    let unit := Nat.pow 2 (-exponent).toNat
    (2 * mantissa + unit) / (2 * unit)

def nearestInt? (x : Float) : Option Int :=
  match exact x with
  | .finite negative mantissa exponent =>
      let size := roundHalfUp mantissa exponent
      some (if negative then -(size : Int) else (size : Int))
  | _ => none

/-!
# The nearest double
-/

def roundHalfEven (num den : Nat) : Nat :=
  let below := num / den
  let doubled := 2 * (num % den)
  if doubled < den then below
  else if den < doubled then below + 1
  else below + below % 2

def scaleDown (num den : Nat) (exponent : Int) : Nat × Nat :=
  if 0 ≤ exponent then (num, den * Nat.pow 2 exponent.toNat)
  else (num * Nat.pow 2 (-exponent).toNat, den)

def infinityBits : Nat := 2047 * Nat.pow 2 52

def unitExponent (num den : Nat) : Int :=
  let guess := max ((num.log2 : Int) - den.log2 - 53) leastExponent
  let (n, d) := scaleDown num den guess
  if n / d < Nat.pow 2 53 then guess else guess + 1

/-- The bits of the double nearest to `num / den`, without the sign.
A carry out of the mantissa moves into the exponent field by itself. -/
def magnitudeBits (num den : Nat) : Nat :=
  if num = 0 then 0
  else
    let exponent := unitExponent num den
    let (n, d) := scaleDown num den exponent
    min infinityBits ((exponent - leastExponent).toNat * Nat.pow 2 52 + roundHalfEven n d)

def ofRatio (negative : Bool) (num den : Nat) : Float :=
  let sign := if negative then Nat.pow 2 63 else 0
  Float.ofBits (UInt64.ofNat (sign + magnitudeBits num den))

/-- The double nearest to `± coefficient · 10 ^ exponent`. For zero, and beyond the exponents of any
finite double, the answer is known without the power. -/
def ofDecimal (negative : Bool) (coefficient : Nat) (exponent : Int) : Float :=
  let digits : Int := (coefficient.log2 : Int) / 3 + 1
  if coefficient = 0 ∨ exponent + digits < -330 then ofRatio negative 0 1
  else if 310 < exponent then
    Float.ofBits (UInt64.ofNat ((if negative then Nat.pow 2 63 else 0) + infinityBits))
  else if 0 ≤ exponent then ofRatio negative (coefficient * Nat.pow 10 exponent.toNat) 1
  else ofRatio negative coefficient (Nat.pow 10 (-exponent).toNat)

end Binary64
end TransitSim
