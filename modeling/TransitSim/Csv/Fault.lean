/-!
# What is wrong with a table

Faults of a table of comma separated values say where a record begins: its number among all
records from zero, the line from one, and the octet from zero.
-/

namespace TransitSim
namespace Csv

structure Place where
  record : Nat
  line : Nat
  octet : Nat
  deriving DecidableEq, Repr

inductive Fault where
  | fieldCount (place : Place) (found expected : Nat)
  | noText (place : Place) (field valid : Nat)
  | duplicateColumn (place : Place) (name : String)

def Place.text (p : Place) : String :=
  "record " ++ toString p.record ++ " (line: " ++ toString p.line ++ ", byte: "
    ++ toString p.octet ++ ")"

def Fault.message : Fault → String
  | .fieldCount place found expected =>
      "CSV error: " ++ place.text ++ ": found record with " ++ toString found
        ++ " fields, but the previous record has " ++ toString expected ++ " fields"
  | .noText place field valid =>
      "CSV parse error: record " ++ toString place.record ++ " (line " ++ toString place.line
        ++ ", field: " ++ toString field ++ ", byte: " ++ toString place.octet
        ++ "): invalid utf-8: invalid UTF-8 in field " ++ toString field
        ++ " near byte index " ++ toString valid
  | .duplicateColumn place name =>
      "CSV deserialize error: " ++ place.text ++ ": duplicate field `" ++ name ++ "`"

end Csv
end TransitSim
