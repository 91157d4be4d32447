import TransitSim.Decimal.Binary64

/-!
# The fewest digits that read back

For a positive double `m · 2 ^ e`, the reals that round to it form an interval, whose ends belong
to it exactly when `m` is even. On the decimal grid of one digit, then of two, and so on, the two
neighbours of the double are tried: the first grid with a neighbour inside the interval gives the
digits. When both neighbours are inside, the nearer one is taken; an exact tie is decided by the
format that asks.
-/

namespace TransitSim
namespace Shortest

open Binary64

inductive Tie where
  | up
  | even
  deriving DecidableEq, Repr

structure Digits where
  coefficient : Nat
  exponent : Int
  deriving DecidableEq, Repr

structure Ratio where
  num : Nat
  den : Nat

namespace Ratio

def overPower (q : Ratio) (k : Int) : Ratio :=
  if 0 ≤ k then ⟨q.num, q.den * Nat.pow 10 k.toNat⟩
  else ⟨q.num * Nat.pow 10 (-k).toNat, q.den⟩

def ofBinary (m : Nat) (e : Int) : Ratio :=
  if 0 ≤ e then ⟨m * Nat.pow 2 e.toNat, 1⟩ else ⟨m, Nat.pow 2 (-e).toNat⟩

def below (closed : Bool) (q : Ratio) (n : Nat) : Bool :=
  if closed then q.num ≤ n * q.den else q.num < n * q.den

def above (closed : Bool) (q : Ratio) (n : Nat) : Bool :=
  if closed then n * q.den ≤ q.num else n * q.den < q.num

end Ratio

def leadingExponent (q : Ratio) : Int :=
  let binary : Int := (q.num.log2 : Int) - q.den.log2
  let guess := binary * 30103 / 100000
  let scaled := q.overPower guess
  if scaled.num < scaled.den then guess - 1
  else if 10 * scaled.den ≤ scaled.num then guess + 1
  else guess

/-- The interval of reals that round to `m · 2 ^ e`, as four times its ends. Below a power of
two the doubles are twice as dense. -/
def interval (m : Nat) (e : Int) : Ratio × Ratio :=
  let gapBelow := if m = Nat.pow 2 52 ∧ leastExponent < e then 1 else 2
  (Ratio.ofBinary (4 * m - gapBelow) (e - 2), Ratio.ofBinary (4 * m + 2) (e - 2))

def pick? (tie : Tie) (closed : Bool) (low high value : Ratio) : Option Nat :=
  let floor := value.num / value.den
  let inside (n : Nat) : Bool := low.below closed n && high.above closed n
  match inside floor, inside (floor + 1) with
  | true, false => some floor
  | false, true => some (floor + 1)
  | false, false => none
  | true, true =>
      let doubled := 2 * (value.num % value.den)
      if doubled < value.den then some floor
      else if value.den < doubled then some (floor + 1)
      else match tie with
        | .up => some (floor + 1)
        | .even => some (floor + floor % 2)

def search (tie : Tie) (closed : Bool) (low high value : Ratio) (leading : Int) :
    Nat → Nat → Digits
  | 0, count => ⟨value.num / value.den, leading - count + 1⟩
  | fuel + 1, count =>
      let k := leading - count + 1
      match pick? tie closed (low.overPower k) (high.overPower k) (value.overPower k) with
      | some c => ⟨c, k⟩
      | none => search tie closed low high value leading fuel (count + 1)

def Digits.trim (fuel : Nat) (d : Digits) : Digits :=
  match fuel with
  | 0 => d
  | fuel + 1 =>
      if d.coefficient ≠ 0 ∧ d.coefficient % 10 = 0 then
        Digits.trim fuel ⟨d.coefficient / 10, d.exponent + 1⟩
      else d

/-- The shortest decimal that reads back as `m · 2 ^ e`, for a positive `m`. Seventeen digits
always suffice. -/
def digits (tie : Tie) (m : Nat) (e : Int) : Digits :=
  let value := Ratio.ofBinary m e
  let (low, high) := interval m e
  let found := search tie (m % 2 == 0) low high value (leadingExponent value) 17 1
  found.trim 20

end Shortest
end TransitSim
