import TransitSim.GeoJson.Fault
import TransitSim.Tick.Duration
import TransitSim.Trip.Fault

/-!
# Errors

What can go wrong, each cause with what its wording needs, and the wording.
-/

namespace TransitSim

inductive RouteFault where
  | tooFewPoints (count : Nat)
  | noLine

def RouteFault.message : RouteFault → String
  | .tooFewPoints count => "a route needs at least 2 points, got " ++ toString count
  | .noLine => "no LineString feature found"

inductive InputFault where
  | zeroMultiplier
  | noPeriod (multiplier interval : Nat)
  | zeroInterval
  | badSpeed
  | badTimeStep
  | badOffset
  | seekOnRoute

def InputFault.field : InputFault → String
  | .zeroMultiplier => "speed_multiplier"
  | .noPeriod .. => "speed_multiplier"
  | .zeroInterval => "interval_ms"
  | .badSpeed => "route_speed_kph"
  | .badTimeStep => "route_time_step_s"
  | .badOffset => "eta_utc_offset_minutes"
  | .seekOnRoute => "index"

def InputFault.reason : InputFault → String
  | .zeroMultiplier => "must be at least 1"
  | .noPeriod multiplier interval =>
      toString multiplier ++ "x leaves no time between ticks of a " ++ Duration.text interval
        ++ " interval"
  | .zeroInterval => "must be greater than 0"
  | .badSpeed => "must be a non-negative number"
  | .badTimeStep => "must be a non-negative number"
  | .badOffset => "must be within +/- 24 hours"
  | .seekOnRoute => "seeking is only available when replaying recorded waypoints"

inductive ReportFault where
  | closed
  | offline

def ReportFault.message : ReportFault → String
  | .closed => "report file already closed"
  | .offline => "offline"

inductive EtaFault where
  | noResponses
  | unreadable
  | noService (route : String)

def EtaFault.message : EtaFault → String
  | .noResponses => "no recorded responses"
  | .unreadable => "could not read"
  | .noService route => "no service for " ++ route

inductive Error where
  | route (fault : RouteFault)
  | offEarth (lat lon : Float)
  | routeUnreadable
  | routeMalformed (fault : GeoJson.Fault)
  | trip (line : Nat) (fault : Trip.Fault)
  | tripUnreadable
  | indexOutOfRange (index length : Nat)
  | playbackComplete
  | alreadyRunning
  | report (fault : ReportFault)
  | eta (fault : EtaFault)
  | reportFileUnwritable
  | noConfigFolder
  | configInaccessible
  | configMalformed
  | input (fault : InputFault)

namespace Error

def message : Error → String
  | route fault => "Invalid route: " ++ fault.message
  | offEarth lat lon => Trip.offEarthText lat lon
  | routeUnreadable => "Error reading route file"
  | routeMalformed fault => "Route file could not be parsed: " ++ fault.message
  | trip line fault =>
      "Invalid waypoint data at row " ++ toString line ++ ": " ++ fault.message
  | tripUnreadable => "Error reading waypoint file"
  | indexOutOfRange index length =>
      "Index " ++ toString index ++ " out of range for " ++ toString length ++ " samples"
  | playbackComplete => "Playback complete"
  | alreadyRunning => "Scheduler is already running"
  | report fault => "External report failed: " ++ fault.message
  | eta fault => "ETA source error: " ++ fault.message
  | reportFileUnwritable => "Error writing report file"
  | noConfigFolder => "Could not find application data directory to save config file"
  | configInaccessible => "Error accessing config file"
  | configMalformed => "Error serializing config file"
  | input fault => "Invalid user input: " ++ fault.field ++ " - " ++ fault.reason

def isPlaybackComplete : Error → Bool
  | playbackComplete => true
  | _ => false

end Error
end TransitSim
