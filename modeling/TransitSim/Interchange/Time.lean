import TransitSim.Calendar.Stamp
import TransitSim.Json.Record
import TransitSim.Json.Writing

/-!
# Times in JSON
-/

namespace TransitSim
namespace Calendar
namespace Instant

open Json

def toJson (i : Instant) : Json :=
  .string (stampText i)

def ofRaw? (r : Raw) : Option Instant := do
  readRelaxed? (← r.text?).toList

end Instant
end Calendar
end TransitSim
