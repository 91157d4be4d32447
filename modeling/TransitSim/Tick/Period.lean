import TransitSim.Error

/-!
# Tick periods

A timer ticks every base interval divided by a multiplier, in whole nanoseconds.
-/

namespace TransitSim
namespace Period

def of (base multiplier : Nat) : Nat :=
  base / multiplier

def checked (base multiplier : Nat) : Except Error Nat :=
  if multiplier = 0 then .error (.input .zeroMultiplier)
  else if of base multiplier = 0 then .error (.input (.noPeriod multiplier base))
  else .ok (of base multiplier)

def ofMillis (ms : Nat) : Nat :=
  ms * Duration.millisecond

end Period
end TransitSim
