import TransitSim.GeoJson.Fault

/-!
# GeoJSON documents

A document is a geometry, a feature or a collection of features. Reading one checks every part of
it, also those that nobody uses, in a fixed order; the first fault is the answer.
-/

namespace TransitSim
namespace GeoJson

structure Position where
  lon : Float
  lat : Float
  others : List Float

inductive Geometry where
  | point (position : Position)
  | multiPoint (positions : List Position)
  | lineString (positions : List Position)
  | multiLineString (lines : List (List Position))
  | polygon (rings : List (List Position))
  | multiPolygon (polygons : List (List (List Position)))
  | collection (geometries : List Geometry)

structure Feature where
  geometry : Option Geometry
  properties : List (String × Json)

inductive Document where
  | geometry (g : Geometry)
  | feature (f : Feature)
  | collection (fs : List Feature)

abbrev Members := List (String × Json)

/-!
# Members
-/

def required (members : Members) (name : String) : Except Fault Json :=
  match members.lookup name with
  | some j => .ok j
  | none => .error (.missing name)

def kind (members : Members) : Except Fault String := do
  match ← required members "type" with
  | .string s => .ok s
  | j => .error (.noString j)

def object : Json → Except Fault Members
  | .object members => .ok members
  | j => .error (.noObject j)

def items : Json → Except Fault (List Json)
  | .array js => .ok js
  | j => .error (.noArray j)

def checkBox (members : Members) : Except Fault Unit :=
  match members.lookup "bbox" with
  | none | some .null => .ok ()
  | some (.array js) => if js.all (·.float?.isSome) then .ok () else .error .badBoxItem
  | some j => .error (.badBox j)

/-!
# Positions
-/

def number (j : Json) : Except Fault Float :=
  match j.float? with
  | some x => .ok x
  | none => .error .noNumber

def array : Json → Except Fault (List Json)
  | .array js => .ok js
  | _ => .error .noCoordinates

def position (j : Json) : Except Fault Position := do
  match ← array j with
  | lon :: lat :: others => .ok ⟨← number lon, ← number lat, ← others.mapM number⟩
  | short => .error (.shortPosition short.length)

def line (j : Json) : Except Fault (List Position) := do
  (← array j).mapM position

def lines (j : Json) : Except Fault (List (List Position)) := do
  (← array j).mapM line

def polygons (j : Json) : Except Fault (List (List (List Position))) := do
  (← array j).mapM lines

/-!
# Geometries
-/

theorem sizeOf_lookup {members : Members} {name : String} {j : Json}
    (h : members.lookup name = some j) : sizeOf j < sizeOf members := by
  induction members with
  | nil => simp at h
  | cons m rest ih =>
      obtain ⟨key, value⟩ := m
      rw [List.lookup_cons] at h
      split at h
      · obtain rfl := Option.some.inj h
        simp only [List.cons.sizeOf_spec, Prod.mk.sizeOf_spec]
        omega
      · have := ih h
        simp only [List.cons.sizeOf_spec]
        omega

/-- The geometry of an object. Its bounding box is looked at first. -/
def geometry (members : Members) : Except Fault Geometry := do
  checkBox members
  match ← kind members with
  | "Point" => (position =<< required members "coordinates").map .point
  | "MultiPoint" => (line =<< required members "coordinates").map .multiPoint
  | "LineString" => (line =<< required members "coordinates").map .lineString
  | "MultiLineString" => (lines =<< required members "coordinates").map .multiLineString
  | "Polygon" => (lines =<< required members "coordinates").map .polygon
  | "MultiPolygon" => (polygons =<< required members "coordinates").map .multiPolygon
  | "GeometryCollection" =>
      match _found : members.lookup "geometries" with
      | none => .error (.missing "geometries")
      | some (.array js) =>
          let gs ← js.attach.mapM fun ⟨j, _mem⟩ =>
            match _object : j with
            | .object inner => geometry inner
            | j => .error (.noObject j)
          .ok (.collection gs)
      | some j => .error (.noArray j)
  | other => .error (.unknownGeometry other)
termination_by sizeOf members
decreasing_by
  have h₁ := sizeOf_lookup _found
  have h₂ := List.sizeOf_lt_of_mem _mem
  subst _object
  simp only [Json.array.sizeOf_spec, Json.object.sizeOf_spec] at h₁ h₂
  omega

/-!
# Features
-/

def featureGeometry (members : Members) : Except Fault (Option Geometry) := do
  match ← required members "geometry" with
  | .object inner => (geometry inner).map some
  | .null => .ok none
  | j => .error (.badGeometry j)

def featureProperties (members : Members) : Except Fault Members :=
  match members.lookup "properties" with
  | none | some .null => .ok []
  | some (.object properties) => .ok properties
  | some j => .error (.badProperties j)

def checkId (members : Members) : Except Fault Unit :=
  match members.lookup "id" with
  | none | some (.number _) | some (.string _) => .ok ()
  | some j => .error (.badId j)

def feature (members : Members) : Except Fault Feature := do
  let found ← kind members
  if found = "Feature" then
    let geometry ← featureGeometry members
    let properties ← featureProperties members
    checkId members
    checkBox members
    .ok ⟨geometry, properties⟩
  else .error (.noFeature found)

def features (members : Members) : Except Fault (List Feature) := do
  checkBox members
  (← items (← required members "features")).mapM fun j => do feature (← object j)

/-!
# Documents
-/

def geometryKinds : List String :=
  ["Point", "MultiPoint", "LineString", "MultiLineString", "Polygon", "MultiPolygon",
   "GeometryCollection"]

def Document.ofJson (j : Json) : Except Fault Document := do
  let members ← object j
  match members.lookup "type" with
  | some (.string kind) =>
      if kind = "Feature" then (GeoJson.feature members).map .feature
      else if kind = "FeatureCollection" then (GeoJson.features members).map .collection
      else if kind ∈ geometryKinds then (GeoJson.geometry members).map .geometry
      else .error .unknownKind
  | _ => .error .noKind

def Document.ofText (s : String) : Except Fault Document :=
  match Json.ofText? s with
  | some j => Document.ofJson j
  | none => .error .noJson

def Document.features : Document → Except Fault (List Feature)
  | .collection fs => .ok fs
  | .feature f => .ok [f]
  | .geometry _ => .error .bareGeometry

end GeoJson
end TransitSim
