import TransitSim.Csv.Fault
import TransitSim.Decimal.Layout

/-!
# What is wrong with a recorded trip
-/

namespace TransitSim
namespace Trip

def requiredColumns : List String :=
  ["Driver ID", "Rid", "Ts", "Lat", "Lon", "Speed"]

def joined (separator : String) (words : List String) : String :=
  separator.intercalate words

inductive Fault where
  | missingColumns (names : List String)
  | record (fault : Csv.Fault)
  | noNumber (column value : String)
  | negativeSpeed (speed : Float)
  | offEarth (lat lon : Float)
  | noTimestamp (value : String)
  | empty

def offEarthText (lat lon : Float) : String :=
  "Coordinate out of range: lat " ++ Decimal.text lat ++ ", lon " ++ Decimal.text lon

def Fault.message : Fault → String
  | .missingColumns names =>
      "missing columns " ++ joined ", " names ++ "; required columns: "
        ++ joined ", " requiredColumns
  | .record fault => fault.message
  | .noNumber column value => "non-numeric " ++ column ++ " '" ++ value ++ "'"
  | .negativeSpeed speed => "negative speed " ++ Decimal.text speed
  | .offEarth lat lon => offEarthText lat lon
  | .noTimestamp value => "unparsable timestamp '" ++ value ++ "'"
  | .empty => "no waypoints found"

end Trip
end TransitSim
