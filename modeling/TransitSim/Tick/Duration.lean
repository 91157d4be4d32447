import TransitSim.Decimal.Layout

/-!
# Durations

Durations are numbers of nanoseconds. They are written in the greatest unit of which there is at
least one, with as many places as needed.
-/

namespace TransitSim
namespace Duration

def microsecond : Nat := 1000

def millisecond : Nat := 1000000

def second : Nat := 1000000000

def fractionText (unit rest : Nat) : String :=
  let digits := (Nat.toDigits 10 (unit + rest)).drop 1
  let kept := (digits.reverse.dropWhile (· = '0')).reverse
  if kept.isEmpty then "" else String.ofList ('.' :: kept)

def inUnit (unit nanos : Nat) : String :=
  toString (nanos / unit) ++ fractionText unit (nanos % unit)

def text (nanos : Nat) : String :=
  if second ≤ nanos then inUnit second nanos ++ "s"
  else if millisecond ≤ nanos then inUnit millisecond nanos ++ "ms"
  else if microsecond ≤ nanos then inUnit microsecond nanos ++ "µs"
  else toString nanos ++ "ns"

example : text 100000000 = "100ms" ∧ text 1500 = "1.5µs" := by decide +kernel

example : text 1234567891 = "1.234567891s" ∧ text 0 = "0ns" := by decide +kernel

end Duration
end TransitSim
