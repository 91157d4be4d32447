import TransitSim.Json.Writing

/-!
# What is wrong with a GeoJSON document

Each fault names what stands in the place of what was expected. Values are quoted in their
compact form.
-/

namespace TransitSim
namespace GeoJson

inductive Fault where
  | noJson
  | noObject (found : Json)
  | noKind
  | unknownKind
  | missing (member : String)
  | noString (found : Json)
  | noArray (found : Json)
  | noCoordinates
  | noNumber
  | shortPosition (count : Nat)
  | noFeature (found : String)
  | unknownGeometry (found : String)
  | badGeometry (found : Json)
  | badProperties (found : Json)
  | badId (found : Json)
  | badBox (found : Json)
  | badBoxItem
  | bareGeometry

def valueKind : Json → String
  | .null => "Null"
  | .bool _ => "Bool"
  | .number _ => "Number"
  | .string _ => "String"
  | .array _ => "Array"
  | .object _ => "Object"

def Fault.message : Fault → String
  | .noJson => "Error while deserializing JSON"
  | .noObject found => "Expected an owned Object, but got `" ++ found.compactText ++ "`"
  | .noKind => "Encountered an unknown 'geometry' object type: `type`"
  | .unknownKind =>
      "Expected a Feature, FeatureCollection, or Geometry, but got an empty type"
  | .missing member => "Expected a GeoJSON property for `" ++ member ++ "`, but got None"
  | .noString found => "Expected a String value, but got a `" ++ found.compactText ++ "`"
  | .noArray found => "Expected an Array value, but got `" ++ valueKind found ++ "`"
  | .noCoordinates => "Expected an Array value, but got `None`"
  | .noNumber => "Expected a floating-point value, but got None"
  | .shortPosition count =>
      "A position must contain two or more elements, but got `" ++ toString count ++ "`"
  | .noFeature found => "Expected a Feature mapping, but got a `" ++ found ++ "`"
  | .unknownGeometry found =>
      "Encountered an unknown 'geometry' object type: `" ++ found ++ "`"
  | .badGeometry found =>
      "Encountered neither object type nor null type for 'geometry' field on 'feature' object: `"
        ++ found.compactText ++ "`"
  | .badProperties found =>
      "Encountered neither object type nor null type for 'properties' object: `"
        ++ found.compactText ++ "`"
  | .badId found =>
      "Encountered neither number type nor string type for 'id' field on 'feature' object: `"
        ++ found.compactText ++ "`"
  | .badBox found =>
      "Encountered non-array value for a 'bbox' object: `" ++ found.compactText ++ "`"
  | .badBoxItem => "Encountered non-numeric value within 'bbox' array"
  | .bareGeometry => "expected a Feature or FeatureCollection"

end GeoJson
end TransitSim
