import TransitSim.Session.Basic

/-!
# Summaries

At the end of a simulation, the changes are summed up by stop: the stops of the route in its
order, then the others by name.
-/

namespace TransitSim

structure StopSummary where
  key : String
  name : String
  last : Option Calendar.Instant
  summary : Summary

namespace Session

def sequence? (stops : List Stop) (key : String) : Option Nat :=
  (stops.reverse.find? fun stop => stop.key = key).map (·.sequence)

def precedes (stops : List Stop) (a b : StopSummary) : Bool :=
  match sequence? stops a.key, sequence? stops b.key with
  | some m, some n => m < n || (m = n && !(b.name < a.name))
  | some _, none => true
  | none, some _ => false
  | none, none => !(b.name < a.name)

def stopSummary (names : Registry String) (key : String) (h : History) : StopSummary :=
  ⟨key, (names.find? key).getD key, h.last, h.summary⟩

def summariesOf (stops : List Stop) (names : Registry String) (histories : Registry History) :
    List StopSummary :=
  (histories.map fun (key, h) => stopSummary names key h).mergeSort (precedes stops)

def summaries (s : Session) : List StopSummary :=
  summariesOf s.stops s.names s.tracker.histories

end Session
end TransitSim
