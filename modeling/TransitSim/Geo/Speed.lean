/-!
# Speeds

Conversion between kilometres an hour and metres a second: one way by the double nearest to the
factor, the other way by the double nearest to the reciprocal of that.
-/

namespace TransitSim
namespace Speed

def factor : Float := 0.2777777777777778

def metresPerSecond (kilometresPerHour : Float) : Float :=
  kilometresPerHour * factor

def kilometresPerHour (metresPerSecond : Float) : Float :=
  metresPerSecond * (1 / factor)

end Speed
end TransitSim
