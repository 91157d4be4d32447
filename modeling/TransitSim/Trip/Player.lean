import TransitSim.Geo.Sphere
import TransitSim.Trip.Table

/-!
# Playing a trip

A player holds samples in the order of their times and a cursor before the next one. Samples of
equal times stay in the order in which they came.
-/

namespace TransitSim

/-- Samples in order, at least one, and how many of them lie behind. -/
structure Player where
  samples : List Sample
  cursor : Nat
  samples_ne : samples ≠ []

structure Frame where
  index : Nat
  sample : Sample
  heading : Option Float

namespace Player

def sorted (samples : List Sample) : List Sample :=
  samples.mergeSort fun a b => a.time.notAfter b.time

theorem sorted_ne {samples : List Sample} (h : samples ≠ []) : sorted samples ≠ [] := by
  intro h'
  have := (List.mergeSort_perm samples fun a b => a.time.notAfter b.time).length_eq
  rw [sorted] at h'
  rw [h'] at this
  exact h (List.length_eq_zero_iff.mp this.symm)

def ofSamples (samples : List Sample) : Except Error Player :=
  if h : samples = [] then .error (.trip 0 .empty)
  else .ok ⟨sorted samples, 0, sorted_ne h⟩

def ofFile (octets : Option (List UInt8)) : Except Error Player :=
  match octets with
  | some octets => (Trip.samples octets).bind ofSamples
  | none => .error .tripUnreadable

/-!
# Views
-/

def length (p : Player) : Nat :=
  p.samples.length

def isComplete (p : Player) : Bool :=
  p.length ≤ p.cursor

def ride (p : Player) : String :=
  (p.samples.head p.samples_ne).ride

def sampleAt (p : Player) (index : Nat) : Except Error Sample :=
  match p.samples[index]? with
  | some s => .ok s
  | none => .error (.indexOutOfRange index p.length)

/-- The direction from a sample towards the next one. -/
def headingAt? (p : Player) (index : Nat) : Option Float := do
  let a ← p.samples[index]?
  let b ← p.samples[index + 1]?
  some (Sphere.bearing a.coordinate b.coordinate)

def frame (p : Player) (index : Nat) (sample : Sample) : Frame :=
  ⟨index, sample, p.headingAt? index⟩

/-!
# Moving the cursor
-/

def advance (p : Player) : Except Error (Frame × Player) :=
  match p.samples[p.cursor]? with
  | some s => .ok (p.frame p.cursor s, { p with cursor := p.cursor + 1 })
  | none => .error .playbackComplete

def seek (p : Player) (index : Nat) : Except Error (Frame × Player) :=
  match p.samples[index]? with
  | some s => .ok (p.frame index s, { p with cursor := index })
  | none => .error (.indexOutOfRange index p.length)

def reset (p : Player) : Player :=
  { p with cursor := 0 }

end Player
end TransitSim
