import TransitSim.Decimal.Shortest

/-!
# Writing doubles

A `Layout` fixes the choices that a format makes about shortest digits: where positional notation
ends and whether a whole number keeps its `.0`. `plain` never writes an exponent; `scientific`
writes one for very large and very small numbers. `fixed` writes a given number of places.
-/

namespace TransitSim
namespace Decimal

open Binary64 Shortest

structure Layout where
  tie : Tie
  positional : Int → Bool
  keepsPoint : Bool

def Layout.plain : Layout where
  tie := .up
  positional := fun _ => true
  keepsPoint := false

/-- Positional from `1e-5` up to below `1e16`, whole numbers with `.0`. -/
def Layout.scientific : Layout where
  tie := .even
  positional := fun leading => decide (-5 ≤ leading ∧ leading < 16)
  keepsPoint := true

def natDigits (n : Nat) : List Char :=
  Nat.toDigits 10 n

def placePoint (digits : List Char) (places : Nat) : List Char :=
  let padded := List.replicate (places + 1 - digits.length) '0' ++ digits
  let whole := padded.length - places
  padded.take whole ++ '.' :: padded.drop whole

def positionalText (keepsPoint : Bool) (d : Digits) : List Char :=
  if 0 ≤ d.exponent then
    let whole := natDigits d.coefficient ++ List.replicate d.exponent.toNat '0'
    if keepsPoint then whole ++ ['.', '0'] else whole
  else placePoint (natDigits d.coefficient) (-d.exponent).toNat

def exponentText (d : Digits) : List Char :=
  let ds := natDigits d.coefficient
  let leading := d.exponent + (ds.length - 1 : Nat)
  let mark := if leading < 0 then ['e', '-'] else ['e', '+']
  let mantissa := match ds with
    | [] => []
    | [c] => [c]
    | c :: rest => c :: '.' :: rest
  mantissa ++ mark ++ natDigits leading.natAbs

def Layout.magnitude (layout : Layout) (d : Digits) : List Char :=
  let leading := d.exponent + ((natDigits d.coefficient).length - 1 : Nat)
  if layout.positional leading then positionalText layout.keepsPoint d else exponentText d

def Layout.finite? (layout : Layout) (x : Float) : Option (List Char) :=
  match exact x with
  | .finite negative mantissa exponent =>
      let body :=
        if mantissa = 0 then positionalText layout.keepsPoint ⟨0, 0⟩
        else layout.magnitude (digits layout.tie mantissa exponent)
      some (if negative then '-' :: body else body)
  | _ => none

def exceptionalText (x : Float) : String :=
  match exact x with
  | .infinite true => "-inf"
  | .infinite false => "inf"
  | _ => "NaN"

/-- The shortest text of a double that reads back, never with an exponent. -/
def text (x : Float) : String :=
  match Layout.plain.finite? x with
  | some cs => String.ofList cs
  | none => exceptionalText x

def fixed (places : Nat) (x : Float) : String :=
  match exact x with
  | .finite negative mantissa exponent =>
      let value := Ratio.ofBinary mantissa exponent
      let scaled := roundHalfEven (value.num * Nat.pow 10 places) value.den
      let body := if places = 0 then natDigits scaled else placePoint (natDigits scaled) places
      String.ofList (if negative then '-' :: body else body)
  | _ => exceptionalText x

end Decimal
end TransitSim
