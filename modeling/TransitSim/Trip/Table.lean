import TransitSim.Calendar.Stamp
import TransitSim.Csv.Record
import TransitSim.Decimal.Reading
import TransitSim.Trip.Sample

/-!
# Recorded trips as tables

A trip is a table with a header. Columns are found by name, in any order, and others are ignored.
One bad record refuses the whole table.
-/

namespace TransitSim
namespace Trip

/-!
# Columns
-/

def lackingColumns (header : List String) : List String :=
  requiredColumns.filter fun name => !header.contains name

def repeatedColumn? (seen : List String) : List String → Option String
  | [] => none
  | name :: rest =>
      if requiredColumns.contains name then
        if seen.contains name then some name else repeatedColumn? (name :: seen) rest
      else repeatedColumn? seen rest

def field (header fields : List String) (name : String) : String :=
  ((header.zip fields).lookup name).getD ""

/-!
# Records
-/

def number (column value : String) : Except Fault Float :=
  match Decimal.read? value with
  | some x => if x.isFinite then .ok x else .error (.noNumber column value)
  | none => .error (.noNumber column value)

def sample (header fields : List String) : Except Fault Sample := do
  let lat ← number "Lat" (field header fields "Lat")
  let lon ← number "Lon" (field header fields "Lon")
  let speed ← number "Speed" (field header fields "Speed")
  if speed < 0 then .error (.negativeSpeed speed)
  else if !Coordinate.onEarth ⟨lat, lon⟩ then .error (.offEarth lat lon)
  else
    let stamp := field header fields "Ts"
    match Calendar.readStamp? stamp with
    | none => .error (.noTimestamp stamp)
    | some time =>
        .ok
          { driver := field header fields "Driver ID"
            ride := field header fields "Rid"
            time
            coordinate := ⟨lat, lon⟩
            speed }

def recordSample (header : List String) (r : Csv.Record) : Except Fault Sample := do
  let fields ← match r.texts header.length with
    | .ok fields => .ok fields
    | .error fault => .error (.record fault)
  match repeatedColumn? [] header with
  | some name => .error (.record (.duplicateColumn r.place name))
  | none => sample header fields

/-- The sample of a record, or an error that names the line on which the record begins. -/
def checkedSample (header : List String) (r : Csv.Record) : Except Error Sample :=
  match recordSample header r with
  | .ok s => .ok s
  | .error fault => .error (.trip r.place.line fault)

/-!
# Tables
-/

def header (records : List Csv.Record) : Except Error (List String) :=
  match records with
  | [] => .ok []
  | r :: _ =>
      match r.texts r.fields.length with
      | .ok names => .ok names
      | .error _ => .error .tripUnreadable

def samples (octets : List UInt8) : Except Error (List Sample) := do
  let records := Csv.records octets
  let header ← header records
  if (lackingColumns header).isEmpty then
    (records.drop 1).mapM (checkedSample header)
  else .error (.trip 1 (.missingColumns (lackingColumns header)))

end Trip
end TransitSim
