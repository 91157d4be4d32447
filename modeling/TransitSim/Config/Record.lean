import TransitSim.Config.Basic
import TransitSim.Interchange.Place
import TransitSim.Text.Utf8

/-!
# Configuration files

A configuration file holds one record. Settings that it leaves out have their standard values,
and one that cannot be used is refused.
-/

namespace TransitSim
namespace Config

open Json

def toJson (c : Config) : Json :=
  .object
    [("vehicle_id", .string c.vehicleId), ("route_code", .string c.routeCode),
     ("driver_id", .string c.driverId), ("merchant_id", .string c.merchantId),
     ("route_interval_ms", .ofNat c.routeInterval),
     ("playback_interval_ms", .ofNat c.playbackInterval),
     ("route_speed_kph", .ofFloat c.routeSpeed),
     ("route_time_step_s", .ofFloat c.routeTimeStep),
     ("speed_multiplier", .ofNat c.multiplier), ("wrap_policy", c.wrap.toJson),
     ("eta_utc_offset_minutes", .ofInt c.offsetMinutes)]

def settingNames : List String :=
  ["vehicle_id", "route_code", "driver_id", "merchant_id", "route_interval_ms",
   "playback_interval_ms", "route_speed_kph", "route_time_step_s", "speed_multiplier",
   "wrap_policy", "eta_utc_offset_minutes"]

def ofRaw? (c : Config) (r : Raw) : Option Config := do
  match ← r.slots? settingNames with
  | [vehicleId, routeCode, driverId, merchantId, routeInterval, playbackInterval, routeSpeed,
      routeTimeStep, multiplier, wrap, offsetMinutes] =>
      some
        { vehicleId := ← vehicleId.orElse Raw.text? c.vehicleId
          routeCode := ← routeCode.orElse Raw.text? c.routeCode
          driverId := ← driverId.orElse Raw.text? c.driverId
          merchantId := ← merchantId.orElse Raw.text? c.merchantId
          routeInterval := ← routeInterval.orElse (Raw.natBelow? wordLimit) c.routeInterval
          playbackInterval :=
            ← playbackInterval.orElse (Raw.natBelow? wordLimit) c.playbackInterval
          routeSpeed := ← routeSpeed.orElse Raw.float? c.routeSpeed
          routeTimeStep := ← routeTimeStep.orElse Raw.float? c.routeTimeStep
          multiplier := ← multiplier.orElse (Raw.natBelow? (Nat.pow 2 32)) c.multiplier
          wrap := ← wrap.orElse Wrap.ofRaw? c.wrap
          offsetMinutes :=
            ← offsetMinutes.orElse (Raw.int? (-Nat.pow 2 31) (Nat.pow 2 31 - 1)) c.offsetMinutes }
  | _ => none

def fileText (c : Config) : String :=
  c.toJson.indentedText

def ofRecord (r : Option Raw) : Except Error Config :=
  match r.bind standard.ofRaw? with
  | some c => c.validate.map fun _ => c
  | none => .error .configMalformed

def ofText (s : String) : Except Error Config :=
  ofRecord (Raw.ofText? s)

/-- What stands for an octet that belongs to no character. No string that is asked for can hold
it, because the last half of a pair in it never joins another; strings that are ignored can. -/
def strayOctet : List Char :=
  '\uFFFD' :: "\\uDC00\\uDC00".toList

def ofFile (octets : Option (List UInt8)) : Except Error Config :=
  match octets with
  | none => .error .configInaccessible
  | some octets =>
      match Utf8.text? octets with
      | some s => ofText s
      | none => ofRecord (Raw.ofChars? (Utf8.decodeLoosely strayOctet 0 octets))

end Config
end TransitSim
