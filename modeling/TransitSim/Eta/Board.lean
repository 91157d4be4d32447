import TransitSim.Eta.Tracker

/-!
# The stop board

The board shows the latest response: the stops that have been reached and those ahead, each in
the order of the response.
-/

namespace TransitSim

open Calendar

structure BoardEntry where
  key : String
  name : String
  time : String
  reached : Bool
  changes : Nat
  minutes : Option Int
  deriving DecidableEq, Repr

structure Board where
  reached : List BoardEntry
  upcoming : List BoardEntry
  deriving DecidableEq, Repr

/-!
# The text of a line
-/

namespace BoardEntry

def greatest : Nat := Nat.pow 2 63 - 1

/-- The latest change in words. Its size has to be a signed number of 64 bits. -/
def changeText? : Option Int → Option String
  | none => some ""
  | some minutes =>
      if greatest < minutes.natAbs then none
      else some (" (" ++ toString minutes.natAbs ++ " min "
        ++ (if 0 < minutes then "later" else "earlier") ++ ")")

def changesText (changes : Nat) : String :=
  if changes = 0 then ""
  else " [updated " ++ toString changes ++ " time" ++ (if changes = 1 then "" else "s") ++ "]"

def line? (e : BoardEntry) : Option String :=
  if e.reached then some (e.name ++ ": reached at " ++ e.time)
  else (changeText? e.minutes).map fun change =>
    e.name ++ ": ETA " ++ e.time ++ change ++ changesText e.changes

def ofObservation (offset : Offset) (s : Snapshot) : Observation → BoardEntry
  | .reached key arrived => ⟨key, s.label, clockTime offset arrived, true, 0, none⟩
  | .upcoming key eta change changes =>
      ⟨key, s.label, clockTime offset eta, false, changes, change.map (·.minutes)⟩

end BoardEntry

/-!
# Boards
-/

namespace Board

def empty : Board := ⟨[], []⟩

def isEmpty (b : Board) : Bool :=
  b.reached.isEmpty && b.upcoming.isEmpty

def ofObservations (offset : Offset) (seen : List (Snapshot × Observation)) : Board :=
  let entries := seen.map fun (s, o) => BoardEntry.ofObservation offset s o
  ⟨entries.filter (·.reached), entries.filter (!·.reached)⟩

def next? (b : Board) : Option BoardEntry :=
  b.upcoming.head?

end Board

def Tracker.respond (t : Tracker) (snapshots : List Snapshot) (observed : Instant) :
    Option (Board × Tracker × Journal) := do
  let (os, t, journal) ← t.observeAll observed snapshots
  some (Board.ofObservations t.offset (snapshots.zip os), t, journal)

end TransitSim
