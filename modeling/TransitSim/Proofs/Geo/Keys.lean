import TransitSim.Proofs.Decimal.Plain
import TransitSim.Proofs.Eta.MinuteRuns
import TransitSim.Proofs.Eta.Observing
import TransitSim.Proofs.Eta.Records

/-!
# Keys tell places apart

A key joins two numbers by a minus sign, which is also the sign of a negative number. Yet the sign
of the first number can be told from the joint, for some digit stands between them, and the numbers
are written so that they can be told apart. So each history is about one place.
-/

namespace TransitSim

open Calendar

namespace Coordinate

structure IsFinite (c : Coordinate) : Prop where
  lat : c.lat.isFinite = true
  lon : c.lon.isFinite = true

theorem toList_key (c : Coordinate) :
    c.key.toList = (Decimal.text c.lat).toList ++ '-' :: (Decimal.text c.lon).toList := by
  rw [key, String.toList_append, String.toList_append, List.append_assoc]
  rfl

theorem key_inj {a b : Coordinate} (ha : a.IsFinite) (hb : b.IsFinite) (h : a.key = b.key) :
    a = b := by
  have hchars := congrArg String.toList h
  rw [toList_key, toList_key] at hchars
  rcases Decimal.text_append_inj ha.lat hb.lat hchars with ⟨hlat, hrest⟩
  have hlon := Decimal.text_inj ha.lon hb.lon (String.toList_injective hrest)
  cases a
  cases b
  exact congrArg₂ Point.mk hlat hlon

end Coordinate

namespace Response

def calls (seen : List (Json × Instant)) : List Tracker.Call :=
  seen.filterMap fun r => (snapshot? r.1).map (.observe · r.2)

/-- The records about a place. -/
def recordsAt (c : Coordinate) (seen : List (Json × Instant)) : List (Json × Instant) :=
  seen.filter fun r => place? r.1 = some c

theorem key_of_place? {record : Json} {s : Snapshot} {c : Coordinate}
    (hc : place? record = some c) (h : snapshot? record = some s) : s.key = c.key := by
  rw [snapshot?_eq, hc, Option.bind_some] at h
  rcases Option.map_eq_some_iff.mp h with ⟨eta, -, rfl⟩
  rfl

theorem exists_place?_of_snapshot? {record : Json} {s : Snapshot} (h : snapshot? record = some s) :
    exists c, place? record = some c := by
  rw [snapshot?_eq] at h
  rcases Option.bind_eq_some_iff.mp h with ⟨c, hc, -⟩
  exact ⟨c, hc⟩

theorem calls_cons (record : Json) (observed : Instant) (seen : List (Json × Instant)) :
    calls ((record, observed) :: seen) =
      match snapshot? record with
      | some s => .observe s observed :: calls seen
      | none => calls seen := by
  rw [calls, calls, List.filterMap_cons]
  cases snapshot? record <;> rfl

theorem recordsAt_cons (c : Coordinate) (r : Json × Instant) (seen : List (Json × Instant)) :
    recordsAt c (r :: seen) =
      if place? r.1 = some c then r :: recordsAt c seen else recordsAt c seen := by
  rw [recordsAt, List.filter_cons, recordsAt]
  split
  · rename_i hin
    rw [if_pos (of_decide_eq_true hin)]
  · rename_i hout
    rw [if_neg fun hin => hout (decide_eq_true hin)]

end Response

namespace Tracker

structure KnowsAlike (key : String) (t u : Tracker) : Prop where
  offset : t.offset = u.offset
  history : t.history? key = u.history? key

variable {t t' u : Tracker} {key : String} {s : Snapshot} {observed : Instant}

theorem exists_final?_of_call (h : t.call (.observe s observed) = some t') :
    exists eta, s.final? = some eta := by
  have hrange : (Call.observe s observed).InRange := by
    rw [← call_isSome_iff t, h]
    rfl
  exact Option.isSome_iff_exists.mp hrange

theorem KnowsAlike.call_other (h : KnowsAlike key t u) (hkey : s.key ≠ key)
    (hcall : t.call (.observe s observed) = some t') : KnowsAlike key t' u := by
  rcases exists_final?_of_call hcall with ⟨eta, heta⟩
  cases hstatus : s.status with
  | reached =>
      rw [call_observe_reached heta hstatus] at hcall
      cases hcall
      exact h
  | upcoming =>
      rw [call_observe_upcoming heta hstatus] at hcall
      cases hcall
      constructor
      · exact h.offset
      · rw [history?_put, if_neg (Ne.symm hkey)]
        exact h.history

theorem KnowsAlike.call_same (h : KnowsAlike key t u) (hkey : s.key = key)
    (hcall : t.call (.observe s observed) = some t') :
    exists u', u.call (.observe s observed) = some u' ∧ KnowsAlike key t' u' := by
  rcases exists_final?_of_call hcall with ⟨eta, heta⟩
  cases hstatus : s.status with
  | reached =>
      rw [call_observe_reached heta hstatus] at hcall
      cases hcall
      exact ⟨u, call_observe_reached heta hstatus, h⟩
  | upcoming =>
      rw [call_observe_upcoming heta hstatus] at hcall
      cases hcall
      refine ⟨_, call_observe_upcoming heta hstatus, h.offset, ?_⟩
      rw [history?_put, history?_put, hkey, if_pos rfl, if_pos rfl, h.offset, h.history]

theorem KnowsAlike.replay {b : Coordinate} (hb : b.IsFinite) {seen : List (Json × Instant)}
    (hseen : ∀ r ∈ seen, ∀ c, Response.place? r.1 = some c → c.IsFinite)
    (h : KnowsAlike b.key t u) (hreplay : t.replay (Response.calls seen) = some t') :
    exists u', u.replay (Response.calls (Response.recordsAt b seen)) = some u' ∧
      KnowsAlike b.key t' u' := by
  induction seen generalizing t u with
  | nil =>
      cases hreplay
      exact ⟨u, rfl, h⟩
  | cons r rest ih =>
      rcases r with ⟨record, observed⟩
      rcases List.forall_mem_cons.mp hseen with ⟨hfirst, hrest⟩
      rw [Response.calls_cons] at hreplay
      cases hs : Response.snapshot? record with
      | none =>
          rw [hs] at hreplay
          rcases ih hrest h hreplay with ⟨u', hu', halike⟩
          refine ⟨u', ?_, halike⟩
          rw [Response.recordsAt_cons]
          split
          · rw [Response.calls_cons, hs]
            exact hu'
          · exact hu'
      | some s =>
          rw [hs] at hreplay
          rcases Option.bind_eq_some_iff.mp hreplay with ⟨t₁, hcall, hreplay⟩
          rcases Response.exists_place?_of_snapshot? hs with ⟨c, hc⟩
          have hkey : s.key = c.key := Response.key_of_place? hc hs
          by_cases hplace : c = b
          · subst hplace
            rcases h.call_same hkey hcall with ⟨u₁, hu₁, halike⟩
            rcases ih hrest halike hreplay with ⟨u', hu', halike'⟩
            refine ⟨u', ?_, halike'⟩
            rw [Response.recordsAt_cons, if_pos hc, Response.calls_cons, hs]
            exact Option.bind_eq_some_iff.mpr ⟨u₁, hu₁, hu'⟩
          · have hother : s.key ≠ b.key := by
              intro heq
              exact hplace (Coordinate.key_inj (hfirst c hc) hb (hkey.symm.trans heq))
            rcases ih hrest (h.call_other hother hcall) hreplay with ⟨u', hu', halike⟩
            refine ⟨u', ?_, halike⟩
            have hout : Response.place? record ≠ some b := by
              intro hin
              exact hplace (Option.some.inj (hc.symm.trans hin))
            rw [Response.recordsAt_cons, if_neg hout]
            exact hu'

end Tracker

/-- Different places with finite numbers have different keys, whatever the signs and the sizes of
the numbers. So whatever records a tracker takes, what it knows of a stop is what the records at the
place of the stop alone would have told. -/
theorem Coordinate.keys_tell_places :
    (∀ a b : Coordinate, a.IsFinite → b.IsFinite → (a.key = b.key ↔ a = b)) ∧
      ∀ (t t' : Tracker) (seen : List (Json × Instant)) (b : Coordinate), b.IsFinite →
        (∀ r ∈ seen, ∀ c, Response.place? r.1 = some c → c.IsFinite) →
          t.replay (Response.calls seen) = some t' →
            exists u, t.replay (Response.calls (Response.recordsAt b seen)) = some u ∧
              t'.history? b.key = u.history? b.key := by
  constructor
  · intro a b ha hb
    exact ⟨key_inj ha hb, congrArg key⟩
  · intro t t' seen b hb hseen hreplay
    rcases Tracker.KnowsAlike.replay hb hseen ⟨rfl, rfl⟩ hreplay with ⟨u, hu, halike⟩
    exact ⟨u, hu, halike.history⟩

def Response.mirrored : List (Json × Instant) :=
  let record (lat lon : Float) : Json :=
    .object [("eta", .number (.natural 0)), ("stop", .object [("coordinate", .object [
      ("lat", .number (.real lat)), ("lon", .number (.real lon))])])]
  [(record 1 (-2), ⟨0, 0⟩), (record (-1) 2, ⟨0, 0⟩)]

theorem Coordinate.keys_tell_places_mirrored :
    Coordinate.key ⟨1, -2⟩ = "1--2" ∧ Coordinate.key ⟨-1, 2⟩ = "-1-2" ∧
      (Coordinate.key ⟨1, -2⟩ = Coordinate.key ⟨-1, 2⟩ ↔ (⟨1, -2⟩ : Coordinate) = ⟨-1, 2⟩) ∧
        exists t' u, (Tracker.new .utc).replay (Response.calls Response.mirrored) = some t' ∧
          (Tracker.new .utc).replay
            (Response.calls (Response.recordsAt ⟨1, -2⟩ Response.mirrored)) = some u ∧
          t'.history? (Coordinate.key ⟨1, -2⟩) = u.history? (Coordinate.key ⟨1, -2⟩) := by
  have hfinite : ∀ c ∈ [(⟨1, -2⟩ : Coordinate), ⟨-1, 2⟩],
      c.lat.isFinite = true ∧ c.lon.isFinite = true := by
    decide +kernel
  have hplaces : Response.mirrored.map (Response.place? ·.1) =
      [(⟨1, -2⟩ : Coordinate), ⟨-1, 2⟩].map some := by
    decide +kernel
  have hreplay : ((Tracker.new .utc).replay (Response.calls Response.mirrored)).isSome := by
    decide +kernel
  have ha : Coordinate.IsFinite ⟨1, -2⟩ := by
    rcases hfinite _ List.mem_cons_self with ⟨hlat, hlon⟩
    exact ⟨hlat, hlon⟩
  have hseen : ∀ r ∈ Response.mirrored, ∀ c, Response.place? r.1 = some c → c.IsFinite := by
    intro r hr c hc
    have hmem : some c ∈ Response.mirrored.map (Response.place? ·.1) := by
      rw [← hc]
      exact List.mem_map_of_mem hr
    rw [hplaces] at hmem
    rcases List.mem_map.mp hmem with ⟨c', hc', heq⟩
    cases heq
    exact ⟨(hfinite c hc').1, (hfinite c hc').2⟩
  have hb : Coordinate.IsFinite ⟨-1, 2⟩ := by
    rcases hfinite _ (List.mem_cons_of_mem _ List.mem_cons_self) with ⟨hlat, hlon⟩
    exact ⟨hlat, hlon⟩
  rcases Option.isSome_iff_exists.mp hreplay with ⟨t', ht'⟩
  rcases keys_tell_places.2 _ t' Response.mirrored ⟨1, -2⟩ ha hseen ht' with ⟨u, hu, hsame⟩
  refine ⟨by decide +kernel, by decide +kernel, keys_tell_places.1 _ _ ha hb, t', u, ht', hu, hsame⟩

end TransitSim
