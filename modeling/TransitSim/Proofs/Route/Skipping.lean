import TransitSim.Proofs.Decimal.Sums
import TransitSim.Proofs.Route.Odometer

/-!
# Segments without a length

Points that are given twice make segments without a length. The scan for a distance passes over
them, with doubles as with exact numbers, so that a step within the route ends in a segment that
has a length and hence a direction. The step that leads to the end does not scan: it ends in the
first segment or in the last one, whatever its length is.
-/

namespace TransitSim
namespace Traversal

variable {N : Type} [Add N] [Sub N] [Div N] [LT N] [DecidableLT N]

theorem exists_of_locate? {covered before : N} {index : Nat} {lengths : List N} {i : Nat}
    {fraction : N} (hbefore : ¬covered < before)
    (h : locate? covered before index lengths = some (i, fraction)) :
    exists k begins length, i = index + k ∧ lengths[k]? = some length ∧ ¬covered < begins ∧
      covered < begins + length := by
  induction lengths generalizing before index with
  | nil => cases h
  | cons length rest ih =>
      rw [locate?] at h
      split at h
      case isTrue hin =>
        cases h
        exact ⟨0, before, length, rfl, rfl, hbefore, hin⟩
      case isFalse hout =>
        rcases ih hout h with ⟨k, begins, last, hi, hlength, hbegins, hends⟩
        exact ⟨k + 1, begins, last, by rw [hi]; omega, hlength, hbegins, hends⟩

theorem locate?_of_beyond {covered : N} (h : ∀ x, ¬covered < x) (before : N) (index : Nat)
    (lengths : List N) : locate? covered before index lengths = none := by
  induction lengths generalizing before index with
  | nil => rfl
  | cons length rest ih => rw [locate?, if_neg (h _), ih]

end Traversal

open Traversal Binary64

/-- Lengths as the sphere gives them: none is below zero, and there is none between two points in
one place. -/
structure Route.IsMeasured (route : Route) : Prop where
  nonneg : ∀ length ∈ route.lengths, 0 ≤ length
  of_same : ∀ {i : Nat} {a b : Coordinate} {length : Float}, route.points[i]? = some a →
    route.points[i + 1]? = some b → route.lengths[i]? = some length → a.same b = true → ¬0 < length

/-!
# Distances are not below zero
-/

theorem not_forward_lt_zero (step : Option Float) : ¬forward step < 0 := by
  have hzero : ¬(0 : Float) < 0 := by decide
  cases step with
  | none => exact hzero
  | some d =>
      rw [forward]
      split
      · exact hzero
      · assumption

theorem not_foldl_add_lt_zero {lengths : List Float} {before : Float}
    (hlengths : ∀ length ∈ lengths, 0 ≤ length) (hbefore : ¬before < 0) :
    ¬lengths.foldl (· + ·) before < 0 := by
  induction lengths generalizing before with
  | nil => exact hbefore
  | cons length rest ih =>
      rw [List.forall_mem_cons] at hlengths
      rcases hlengths with ⟨hlength, hrest⟩
      exact ih hrest (not_add_lt_zero hbefore (not_lt_zero_of_le hlength))

theorem Route.IsMeasured.not_covered_lt_zero {route : Route} (h : route.IsMeasured) (wrap : Wrap)
    (steps : List (Option Float)) : ¬(follow route wrap steps).covered < 0 := by
  have hzero : ¬(0 : Float) < 0 := by decide
  induction steps using List.reverseRecOn with
  | nil => exact hzero
  | append_singleton steps step ih =>
      rw [follow_concat]
      cases hfound : locate? ((follow route wrap steps).covered + forward step) 0 0
        route.lengths with
      | some found =>
          rw [advance_of_locate? hfound]
          exact not_add_lt_zero ih (not_forward_lt_zero step)
      | none =>
          rw [advance_of_wraps hfound]
          cases wrap with
          | loop => exact hzero
          | hold => exact not_foldl_add_lt_zero h.nonneg hzero

namespace Follower

def after (f : Follower) (metres : List Float) : Follower :=
  metres.foldl advance f.reset

/-- The segment in which a follower is has a length. -/
def HasLength (f : Follower) : Prop :=
  exists length, f.route.lengths[f.state.segment]? = some length ∧ 0 < length

/-- The length of the segment to which the end of the route leads. -/
def endLength? (f : Follower) : Option Float :=
  match f.wrap with
  | .loop => f.route.lengths.head?
  | .hold => f.route.lengths.getLast?

theorem after_eq (f : Follower) (metres : List Float) :
    f.after metres = { f with state := follow f.route f.wrap (metres.map finite?) } := by
  rw [after, foldl_advance]
  rfl

theorem after_concat (f : Follower) (metres : List Float) (x : Float) :
    (f.after metres).advance x = f.after (metres ++ [x]) := by
  rw [after, after, List.foldl_append]
  rfl

/-!
# Within the route
-/

theorem hasLength_of_not_wraps {f : Follower} (hroute : f.route.IsMeasured) (metres : List Float)
    {x : Float} (h : ¬Wraps f.route (f.after metres).state (finite? x)) :
    ((f.after metres).advance x).HasLength := by
  have hcovered := hroute.not_covered_lt_zero f.wrap (metres.map finite?)
  rw [after_eq] at h ⊢
  unfold Wraps at h
  cases hfound : locate? ((follow f.route f.wrap (metres.map finite?)).covered +
    forward (finite? x)) 0 0 f.route.lengths with
  | none => exact absurd hfound h
  | some found =>
      rcases found with ⟨i, fraction⟩
      have hsum := not_add_lt_zero hcovered (not_forward_lt_zero (finite? x))
      rcases exists_of_locate? hsum hfound with ⟨k, begins, length, hi, hlength, hbegins, hends⟩
      rw [Nat.zero_add] at hi
      subst hi
      refine ⟨length, ?_, ?_⟩
      · show f.route.lengths[(Traversal.advance f.route f.wrap _ (finite? x)).segment]? = _
        rw [advance_of_locate? hfound]
        exact hlength
      · by_contra hnone
        have hnonneg := hroute.nonneg length (List.mem_of_getElem? hlength)
        exact hbegins ((lt_add_zero_iff hnonneg hnone).mp hends)

/-!
# At the end
-/

theorem length_atEnd (f : Follower) :
    f.route.lengths[(atEnd f.route f.wrap).segment]? = f.endLength? := by
  rw [endLength?]
  cases f.wrap with
  | loop => exact List.head?_eq_getElem?.symm
  | hold => exact List.getLast?_eq_getElem?.symm

theorem hasLength_iff_of_wraps {f : Follower} {metres : List Float} {x : Float}
    (h : Wraps f.route (f.after metres).state (finite? x)) :
    ((f.after metres).advance x).HasLength ↔
      exists length, f.endLength? = some length ∧ 0 < length := by
  rw [after_eq] at h ⊢
  rw [← length_atEnd, ← advance_of_wraps h]
  rfl

theorem exists_wraps (f : Follower) :
    exists metres x, Wraps f.route (f.after metres).state (finite? x) := by
  have hforward : forward (finite? greatest) = greatest := rfl
  have hzero : 0 + greatest = greatest := by rfl
  by_cases hone : Wraps f.route (f.after []).state (finite? greatest)
  · exact ⟨[], greatest, hone⟩
  · refine ⟨[greatest], greatest, ?_⟩
    have hcovered : (f.after [greatest]).state.covered = greatest := by
      unfold Wraps at hone
      cases hfound : locate? ((f.after []).state.covered + forward (finite? greatest)) 0 0
        f.route.lengths with
      | none => exact absurd hfound hone
      | some found =>
          show ((f.after []).state.advance f.route f.wrap (finite? greatest)).covered = _
          rw [advance_of_locate? hfound, hforward]
          exact hzero
    unfold Wraps
    rw [hcovered, hforward]
    exact locate?_of_beyond not_greatest_add_lt 0 0 f.route.lengths

theorem HasLength.not_same {f : Follower} (h : f.HasLength) (hroute : f.route.IsMeasured)
    {a b : Coordinate} (hends : f.route.ends f.state.segment = (a, b)) : a.same b = false := by
  rcases h with ⟨length, hlength, hpos⟩
  rcases List.getElem?_eq_some_iff.mp hlength with ⟨hlt, -⟩
  rcases Path.exists_ends hlt with ⟨c, d, hc, hd, hends'⟩
  rw [hends] at hends'
  cases hends'
  rw [← Bool.not_eq_true]
  intro hsame
  exact hroute.of_same hc hd hlength hsame hpos

theorem heading_of_same {f : Follower} {a b : Coordinate}
    (hends : f.route.ends f.state.segment = (a, b)) (h : a.same b = true) : f.heading = 0 := by
  simp only [heading, Route.heading, hends, Sphere.bearing, h, if_true]

end Follower

def doubledStart : Route :=
  ⟨[⟨0, 0⟩, ⟨0, 0⟩, ⟨0, 1⟩], [0, 111194.92664455874], rfl, by decide⟩

theorem isMeasured_doubledStart : doubledStart.IsMeasured := by
  constructor
  case nonneg => decide
  case of_same =>
    intro i a b length ha hb hlength hsame
    cases i with
    | zero =>
        cases hlength
        decide
    | succ i =>
        cases i with
        | zero =>
            cases ha
            cases hb
            cases hsame
        | succ i => cases hb

end TransitSim
