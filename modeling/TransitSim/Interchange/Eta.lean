import TransitSim.Eta.Tracker
import TransitSim.Interchange.Place
import TransitSim.Interchange.Time

/-!
# Estimates and their changes in JSON
-/

namespace TransitSim

open Json Calendar

namespace Status

def name : Status → String
  | upcoming => "Upcoming"
  | reached => "Reached"

def named : List (String × Status) :=
  [("Upcoming", upcoming), ("Reached", reached)]

def toJson (s : Status) : Json :=
  .string s.name

def ofRaw? (r : Raw) : Option Status :=
  r.word? named

end Status

namespace Snapshot

def toJson (s : Snapshot) : Json :=
  .object
    [("stop_key", .string s.key), ("stop_name", .ofText s.name), ("eta", s.eta.toJson),
     ("delta_seconds", .ofFloat s.delta), ("status", s.status.toJson)]

def ofRaw? (r : Raw) : Option Snapshot := do
  match ← r.slots? ["stop_key", "stop_name", "eta", "delta_seconds", "status"] with
  | [key, name, eta, delta, status] =>
      some
        ⟨← key.required Raw.text?, ← name.optional Raw.text?, ← eta.required Instant.ofRaw?,
          ← delta.required Raw.float?, ← status.required Status.ofRaw?⟩
  | _ => none

end Snapshot

namespace Transition

def toJson (t : Transition) : Json :=
  .object
    [("previous_eta", t.previous.toJson), ("new_eta", t.new.toJson),
     ("delta_minutes", .ofInt t.minutes), ("observed_at", t.observed.toJson)]

def ofRaw? (r : Raw) : Option Transition := do
  match ← r.slots? ["previous_eta", "new_eta", "delta_minutes", "observed_at"] with
  | [previous, new, minutes, observed] =>
      some
        ⟨← previous.required Instant.ofRaw?, ← new.required Instant.ofRaw?,
          ← minutes.required (Raw.int? (-Nat.pow 2 63) (Nat.pow 2 63 - 1)),
          ← observed.required Instant.ofRaw?⟩
  | _ => none

end Transition

namespace History

def toJson (h : History) : Json :=
  .object
    [("last_known_eta", (h.last.map Instant.toJson).getD .null),
     ("significant_change_count", .ofNat h.changes),
     ("transitions", .array (h.transitions.map Transition.toJson))]

def ofRaw? (r : Raw) : Option History := do
  match ← r.slots? ["last_known_eta", "significant_change_count", "transitions"] with
  | [last, changes, transitions] =>
      some
        ⟨← last.optional Instant.ofRaw?, ← changes.required (Raw.natBelow? wordLimit),
          ← transitions.required (Raw.list? Transition.ofRaw?)⟩
  | _ => none

end History

namespace Summary

def toJson (s : Summary) : Json :=
  .object [("total", .ofNat s.total), ("delays", .ofNat s.delays), ("earlier", .ofNat s.earlier)]

def ofRaw? (r : Raw) : Option Summary := do
  match ← r.slots? ["total", "delays", "earlier"] with
  | [total, delays, earlier] =>
      some
        ⟨← total.required (Raw.natBelow? wordLimit), ← delays.required (Raw.natBelow? wordLimit),
          ← earlier.required (Raw.natBelow? wordLimit)⟩
  | _ => none

end Summary
end TransitSim
