import TransitSim.Calendar.Offset
import TransitSim.Eta.Snapshot
import TransitSim.Journal
import TransitSim.Registry

/-!
# Tracking changes of estimates

A tracker remembers, for each stop ahead, the estimate that was first seen in its minute of the
day. An estimate in another minute is a change: it is written down and becomes the new one. The
day does not count, so that a change over midnight is told as almost a day. Stops that have been
reached are not tracked.
-/

namespace TransitSim

open Calendar

structure Transition where
  previous : Instant
  new : Instant
  minutes : Int
  observed : Instant
  deriving DecidableEq, Repr

structure History where
  last : Option Instant
  changes : Nat
  transitions : List Transition
  deriving DecidableEq, Repr

structure Summary where
  total : Nat
  delays : Nat
  earlier : Nat
  deriving DecidableEq, Repr

inductive Observation where
  | reached (key : String) (arrived : Instant)
  | upcoming (key : String) (eta : Instant) (change : Option Transition) (changes : Nat)

/-- The histories of all stops, and the clock that tells minutes apart. -/
structure Tracker where
  offset : Offset
  histories : Registry History

/-!
# Histories
-/

namespace History

def empty : History := ⟨none, 0, []⟩

def record (h : History) (t : Transition) : History :=
  ⟨some t.new, h.changes + 1, h.transitions ++ [t]⟩

def summary (h : History) : Summary :=
  { total := h.transitions.length
    delays := (h.transitions.filter fun t => 0 < t.minutes).length
    earlier := (h.transitions.filter fun t => t.minutes < 0).length }

def change? (offset : Offset) (h : History) (eta observed : Instant) : Option Transition :=
  match h.last with
  | none => none
  | some previous =>
      let minutes : Int := (minuteOfDay offset eta : Int) - minuteOfDay offset previous
      if minutes = 0 then none else some ⟨previous, eta, minutes, observed⟩

def observe (offset : Offset) (h : History) (eta observed : Instant) : History :=
  match h.last, h.change? offset eta observed with
  | none, _ => { h with last := some eta }
  | some _, some t => h.record t
  | some _, none => h

end History

/-!
# Trackers
-/

def signedText (n : Int) : String :=
  if n < 0 then toString n else "+" ++ toString n

namespace Tracker

def new (offset : Offset) : Tracker := ⟨offset, []⟩

def history? (t : Tracker) (key : String) : Option History :=
  t.histories.find? key

def clear (t : Tracker) : Tracker :=
  { t with histories := [] }

def summarize (t : Tracker) (key : String) : Summary :=
  match t.history? key with
  | some h => h.summary
  | none => ⟨0, 0, 0⟩

def remark (offset : Offset) (label : String) (t : Transition) : String :=
  "ETA for " ++ label ++ " moved " ++ signedText t.minutes ++ " min ("
    ++ clockTime offset t.previous ++ " -> " ++ clockTime offset t.new ++ ")"

/-- Takes one snapshot; `none` if its time lies beyond the calendar. -/
def observe (t : Tracker) (s : Snapshot) (observed : Instant) :
    Option (Observation × Tracker × Journal) := do
  let eta ← s.final?
  match s.status with
  | .reached => some (.reached s.key eta, t, [])
  | .upcoming =>
      let before := (t.history? s.key).getD .empty
      let change := before.change? t.offset eta observed
      let after := before.observe t.offset eta observed
      let journal := match change with
        | some c => Journal.info (remark t.offset s.label c)
        | none => []
      some
        (.upcoming s.key eta change after.changes,
          { t with histories := t.histories.put s.key after }, journal)

def observeAll (t : Tracker) (observed : Instant) :
    List Snapshot → Option (List Observation × Tracker × Journal)
  | [] => some ([], t, [])
  | s :: rest => do
      let (o, t, first) ← t.observe s observed
      let (os, t, others) ← observeAll t observed rest
      some (o :: os, t, first ++ others)

end Tracker
end TransitSim
