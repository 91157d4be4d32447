import TransitSim.Error
import TransitSim.Eta.Response
import TransitSim.Text.Utf8

/-!
# Where estimates come from

A recording answers with its responses one after the other, and then with the last one again and
again.
-/

namespace TransitSim

/-- Recorded responses, at least one, for a vehicle, and how many have been asked for. -/
structure Recording where
  responses : List Json
  vehicle : String
  cursor : Nat
  responses_pos : 0 < responses.length

namespace Recording

def ofResponses (responses : List Json) (vehicle : String) : Except Error Recording :=
  if h : 0 < responses.length then .ok ⟨responses, vehicle, 0, h⟩
  else .error (.eta .noResponses)

def lines (cs : List Char) : List (List Char) :=
  match cs with
  | [] => []
  | c :: rest =>
      if c = '\n' then [] :: lines rest
      else match lines rest with
        | [] => [[c]]
        | l :: ls => (c :: l) :: ls

def ofFile (octets : Option (List UInt8)) (vehicle : String) : Except Error Recording :=
  match octets.bind Utf8.text? with
  | none => .error (.eta .unreadable)
  | some s =>
      match (lines s.toList).mapM fun l => Json.ofText? (String.ofList l) with
      | none => .error (.eta .unreadable)
      | some responses => ofResponses responses vehicle

/-- The response with a number; beyond the end, the last one. -/
def response (r : Recording) (index : Nat) : Json :=
  have : min index (r.responses.length - 1) < r.responses.length := by
    have h₁ := r.responses_pos
    have h₂ : min index (r.responses.length - 1) ≤ r.responses.length - 1 := Nat.min_le_right ..
    omega
  r.responses[min index (r.responses.length - 1)]

def fetch (r : Recording) : List Snapshot × Recording :=
  (Response.snapshots r.vehicle (r.response r.cursor), { r with cursor := r.cursor + 1 })

end Recording

inductive Feed where
  | silent
  | failing
  | recorded (r : Recording)

namespace Feed

def fetch (f : Feed) (route : String) : Except Error (List Snapshot) × Feed :=
  match f with
  | silent => (.ok [], f)
  | failing => (.error (.eta (.noService route)), f)
  | recorded r =>
      let (snapshots, r) := r.fetch
      (.ok snapshots, .recorded r)

end Feed
end TransitSim
