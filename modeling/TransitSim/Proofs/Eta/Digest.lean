import TransitSim.Eta.Board
import TransitSim.Eta.Feed

/-!
# What a recording tells

A recording answers one request after the other, with its last response again and again in the end.
Its digest is what is known after so many responses, each taken as a whole before the next one: what
the board shows and what the tracker remembers.

The times at which responses are taken stand in the changes that a tracker writes down and have no
other effect. Without them, a digest depends on the recording alone.
-/

namespace TransitSim

open Calendar

/-- What is known after a number of responses, the response `i` taken at the time `observed i`;
`none` if a time lies beyond the calendar. -/
def Recording.digest (r : Recording) (t : Tracker) (observed : Nat → Instant) :
    Nat → Option (Board × Tracker)
  | 0 => some (.empty, t)
  | count + 1 => do
      let (_, t) ← r.digest t observed count
      let (board, t, _) ← t.respond (Response.snapshots r.vehicle (r.response count))
        (observed count)
      some (board, t)

/-!
# Registries with other values
-/

namespace Registry

variable {V W : Type}

def mapValues (f : V → W) (r : Registry V) : Registry W :=
  r.map fun (key, value) => (key, f value)

theorem find?_mapValues (f : V → W) (r : Registry V) (key : String) :
    (r.mapValues f).find? key = (r.find? key).map f := by
  induction r with
  | nil => rfl
  | cons e rest ih =>
      rw [mapValues, List.map_cons, find?_cons, find?_cons]
      split
      · rfl
      · exact ih

theorem put_mapValues (f : V → W) (r : Registry V) (key : String) (value : V) :
    (r.mapValues f).put key (f value) = (r.put key value).mapValues f := by
  induction r with
  | nil => rfl
  | cons e rest ih =>
      rw [mapValues, List.map_cons, put, put]
      split
      · rfl
      · exact congrArg (List.cons _) ih

end Registry

/-!
# Without the times of observation
-/

def Transition.undated (t : Transition) : Transition :=
  { t with observed := ⟨0, 0⟩ }

def History.undated (h : History) : History :=
  { h with transitions := h.transitions.map Transition.undated }

def Observation.undated : Observation → Observation
  | reached key arrived => reached key arrived
  | upcoming key eta change changes => upcoming key eta (change.map Transition.undated) changes

/-- A tracker as if all changes had been observed at the beginning of 1970. -/
def Tracker.undated (t : Tracker) : Tracker :=
  { t with histories := t.histories.mapValues History.undated }

namespace History

theorem change?_undated (offset : Offset) (h : History) (eta observed : Instant) :
    h.undated.change? offset eta ⟨0, 0⟩ = (h.change? offset eta observed).map .undated := by
  cases hlast : h.last with
  | none => simp [change?, undated, hlast]
  | some previous =>
      simp only [change?, undated, hlast]
      split <;> rfl

theorem observe_undated (offset : Offset) (h : History) (eta observed : Instant) :
    h.undated.observe offset eta ⟨0, 0⟩ = (h.observe offset eta observed).undated := by
  rw [observe, observe, change?_undated offset h eta observed,
    show h.undated.last = h.last from rfl]
  cases h.last with
  | none => rfl
  | some previous =>
      cases h.change? offset eta observed with
      | none => rfl
      | some t => simp [record, undated, Transition.undated]

end History

namespace Tracker

theorem observe_undated (t : Tracker) (s : Snapshot) (observed : Instant) :
    t.undated.observe s ⟨0, 0⟩ =
      (t.observe s observed).map fun (o, t, lines) => (o.undated, t.undated, lines) := by
  cases hfinal : s.final? with
  | none => simp [observe, hfinal]
  | some eta =>
      cases hstatus : s.status with
      | reached => simp [observe, hfinal, hstatus, Observation.undated]
      | upcoming =>
          have hbefore : (t.undated.history? s.key).getD .empty =
              ((t.history? s.key).getD .empty).undated := by
            rw [history?, undated, Registry.find?_mapValues, ← history?]
            cases t.history? s.key <;> rfl
          have hput : t.undated.histories.put s.key
              (((t.history? s.key).getD .empty).observe t.offset eta observed).undated =
                (t.histories.put s.key
                  (((t.history? s.key).getD .empty).observe t.offset eta observed)).mapValues
                    History.undated :=
            Registry.put_mapValues _ _ _ _
          have hoffset : t.undated.offset = t.offset := rfl
          simp only [observe, hfinal, hstatus, bind, Option.bind, Option.map_some, hbefore, hoffset,
            History.change?_undated _ _ eta observed, History.observe_undated _ _ eta observed,
            hput]
          cases ((t.history? s.key).getD .empty).change? t.offset eta observed <;> rfl

theorem observeAll_undated (t : Tracker) (snapshots : List Snapshot) (observed : Instant) :
    t.undated.observeAll ⟨0, 0⟩ snapshots =
      (t.observeAll observed snapshots).map fun (os, t, lines) =>
        (os.map Observation.undated, t.undated, lines) := by
  induction snapshots generalizing t with
  | nil => rfl
  | cons s rest ih =>
      simp only [observeAll, observe_undated t s observed, bind]
      cases t.observe s observed with
      | none => rfl
      | some first =>
          simp only [Option.map_some, Option.bind_some, ih first.2.1]
          cases first.2.1.observeAll observed rest <;> rfl

end Tracker

theorem BoardEntry.ofObservation_undated (offset : Offset) (s : Snapshot) (o : Observation) :
    ofObservation offset s o.undated = ofObservation offset s o := by
  cases o with
  | reached key arrived => rfl
  | upcoming key eta change changes => cases change <;> rfl

theorem BoardEntry.map_ofObservation_undated (offset : Offset) (snapshots : List Snapshot)
    (os : List Observation) :
    ((snapshots.zip (os.map .undated)).map fun (s, o) => ofObservation offset s o) =
      (snapshots.zip os).map fun (s, o) => ofObservation offset s o := by
  rw [List.zip_map_right, List.map_map]
  refine List.map_congr_left ?_
  rintro ⟨s, o⟩ -
  exact ofObservation_undated offset s o

theorem Board.ofObservations_undated (offset : Offset) (snapshots : List Snapshot)
    (os : List Observation) :
    ofObservations offset (snapshots.zip (os.map .undated)) =
      ofObservations offset (snapshots.zip os) := by
  simp only [ofObservations, BoardEntry.map_ofObservation_undated]

theorem Tracker.respond_undated (t : Tracker) (snapshots : List Snapshot) (observed : Instant) :
    t.undated.respond snapshots ⟨0, 0⟩ =
      (t.respond snapshots observed).map fun (board, t, lines) => (board, t.undated, lines) := by
  simp only [respond, observeAll_undated t snapshots observed, bind]
  cases t.observeAll observed snapshots with
  | none => rfl
  | some result =>
      simp only [Option.map_some, Option.bind_some, Board.ofObservations_undated]
      rfl

namespace Recording

def undatedDigest (r : Recording) (t : Tracker) (count : Nat) : Option (Board × Tracker) :=
  r.digest t.undated (fun _ => ⟨0, 0⟩) count

theorem undatedDigest_eq (r : Recording) (t : Tracker) (observed : Nat → Instant) (count : Nat) :
    r.undatedDigest t count =
      (r.digest t observed count).map fun (board, t) => (board, t.undated) := by
  induction count with
  | zero => rfl
  | succ count ih =>
      rw [undatedDigest] at ih
      simp only [undatedDigest, digest, ih, bind]
      cases r.digest t observed count with
      | none => rfl
      | some known =>
          simp only [Option.map_some, Option.bind_some,
            Tracker.respond_undated known.2 _ (observed count)]
          cases known.2.respond (Response.snapshots r.vehicle (r.response count))
            (observed count) <;> rfl

theorem digest_eq_none_iff {r : Recording} {t : Tracker} {observed : Nat → Instant} {count : Nat} :
    r.digest t observed count = none ↔ r.undatedDigest t count = none := by
  rw [r.undatedDigest_eq t observed count, Option.map_eq_none_iff]

theorem undatedDigest_succ {r : Recording} {t t' : Tracker} {count : Nat} {board : Board}
    (h : r.undatedDigest t count = some (board, t'.undated)) (observed : Instant) :
    r.undatedDigest t (count + 1) =
      (t'.respond (Response.snapshots r.vehicle (r.response count)) observed).map
        fun (board, t, _) => (board, t.undated) := by
  rw [undatedDigest] at h
  simp only [undatedDigest, digest, h, bind, Option.bind_some,
    Tracker.respond_undated t' _ observed]
  cases t'.respond (Response.snapshots r.vehicle (r.response count)) observed <;> rfl

theorem undatedDigest_eq_none_of_le {r : Recording} {t : Tracker} {count later : Nat}
    (h : r.undatedDigest t count = none) (hle : count ≤ later) :
    r.undatedDigest t later = none := by
  induction hle with
  | refl => exact h
  | step hle ih =>
      rw [undatedDigest] at ih
      simp [undatedDigest, digest, ih]

end Recording
end TransitSim
