import TransitSim.Proofs.Route.Odometer

/-!
# One step along a path

What a step does to any state that a movement can have. If the distance reaches the total, the
movement starts over or is parked. Below the total it is in the one segment in which the distance
lies. A parked movement stays where it is, at the last point.
-/

namespace TransitSim
namespace Traversal

section
variable {N : Type} [Zero N] [One N] [Add N] [Sub N] [Div N] [LT N] [DecidableLT N]

/-- The states of a movement along a path, from its beginning or a reset on. -/
inductive Reached (p : Path N) (wrap : Wrap) : Traversal N → Prop where
  | start : Reached p wrap start
  | advance {s : Traversal N} (h : Reached p wrap s) (step : Option N) :
      Reached p wrap (s.advance p wrap step)

theorem Reached.exists_follow {p : Path N} {wrap : Wrap} {s : Traversal N}
    (h : Reached p wrap s) : exists steps, follow p wrap steps = s := by
  induction h with
  | start => exact ⟨[], rfl⟩
  | advance _ step ih =>
      rcases ih with ⟨steps, rfl⟩
      exact ⟨steps ++ [step], follow_concat p wrap steps step⟩

end

variable {K : Type} [Field K]

theorem place_parked (p : Path K) : p.points.getLast? = some ((parked p).place p) := by
  have hpos := p.lengths_pos
  have hpoints := p.points_length
  have hlast : (parked p).segment < p.segmentCount := Nat.sub_lt hpos Nat.one_pos
  rcases place_of_lt hlast with ⟨a, b, -, hb, hplace⟩
  have hindex : (parked p).segment + 1 = p.points.length - 1 := by
    show p.lengths.length - 1 + 1 = _
    omega
  have hend : a.between b (parked p).fraction = b := by
    show Point.mk (a.lat + (b.lat - a.lat) * 1) (a.lon + (b.lon - a.lon) * 1) = b
    rw [mul_one, mul_one, add_sub_cancel, add_sub_cancel]
  rw [hplace, hend, List.getLast?_eq_getElem?, ← hindex, hb]

variable [LinearOrder K] [IsStrictOrderedRing K] {p : Path K}

theorem Locates.unique {covered f g l m : K} {lengths : List K} {i j : Nat}
    (hlengths : ∀ length ∈ lengths, 0 ≤ length) (hi : Locates covered lengths i f l)
    (hj : Locates covered lengths j g m) : i = j := by
  have hbefore : ∀ {i j : Nat} {f g l m : K}, Locates covered lengths i f l →
      Locates covered lengths j g m → ¬i < j := by
    intro i j f g l m hi hj hlt
    have hsublist : (lengths.take (i + 1)).Sublist (lengths.take j) :=
      (List.take_prefix_take_left hlt).sublist
    have hsum : (lengths.take (i + 1)).sum ≤ (lengths.take j).sum := by
      apply hsublist.sum_le_sum
      intro length hlength
      exact hlengths length (List.mem_of_mem_take hlength)
    rcases List.getElem?_eq_some_iff.mp hi.length_eq with ⟨hin, hlength⟩
    rw [List.sum_take_succ _ _ hin, hlength] at hsum
    have hstop := hi.lt_stop
    have hstart := hj.start_le
    linarith
  exact Nat.le_antisymm (Nat.le_of_not_lt (hbefore hj hi)) (Nat.le_of_not_lt (hbefore hi hj))

theorem Reached.covered_nonneg (hp : ∀ length ∈ p.lengths, 0 ≤ length) {wrap : Wrap}
    {s : Traversal K} (h : Reached p wrap s) : 0 ≤ s.covered := by
  rcases h.exists_follow with ⟨steps, rfl⟩
  exact covered_follow_nonneg hp wrap steps

theorem foldl_advance_parked (hp : ∀ length ∈ p.lengths, 0 ≤ length) (steps : List (Option K)) :
    steps.foldl (advance p .hold) (parked p) = parked p := by
  induction steps with
  | nil => rfl
  | cons step steps ih =>
      have hwraps : Wraps p (parked p) step := by
        rw [wraps_iff hp (total_nonneg hp)]
        exact le_add_of_nonneg_right (stride_nonneg step)
      rw [List.foldl_cons, advance_of_wraps hwraps]
      exact ih

/-- Numbers are added exactly and lengths are not negative. A step from any state leads to the end
exactly if the distance reaches the total. Otherwise it adds its stride and leads to the one segment
in which the distance lies, which has a positive length, as far into it as the distance is beyond
its beginning. A movement that is parked stays parked, at the last point. -/
theorem advance_locates {K : Type} [Field K] [LinearOrder K] [IsStrictOrderedRing K] (p : Path K)
    (hnonneg : ∀ length ∈ p.lengths, 0 ≤ length) (wrap : Wrap) (s : Traversal K)
    (hs : Reached p wrap s) (step : Option K) :
    (Wraps p s step ↔ p.total ≤ s.covered + stride step) ∧
      (p.total ≤ s.covered + stride step → s.advance p wrap step = atEnd p wrap) ∧
      (s.covered + stride step < p.total → exists s' length, s.advance p wrap step = s' ∧
        s'.covered = s.covered + stride step ∧
        Locates s'.covered p.lengths s'.segment s'.fraction length ∧
        (∀ i f l, Locates s'.covered p.lengths i f l → i = s'.segment) ∧
        0 < length ∧ 0 ≤ s'.fraction ∧ s'.fraction < 1) ∧
      (∀ steps : List (Option K), steps.foldl (advance p .hold) (parked p) = parked p) ∧
      p.points.getLast? = some ((parked p).place p) := by
  have hcovered := hs.covered_nonneg hnonneg
  have hwraps := wraps_iff hnonneg hcovered step
  refine ⟨hwraps, ?_, ?_, foldl_advance_parked hnonneg, place_parked p⟩
  · intro h
    exact advance_of_wraps (hwraps.mpr h) wrap
  · intro h
    have hstays : ¬Wraps p s step := fun hends => not_lt.mpr (hwraps.mp hends) h
    rcases advance_of_not_wraps hcovered hstays wrap with ⟨hsum, length, hlocates⟩
    rw [← hsum] at hlocates
    refine ⟨_, length, rfl, hsum, hlocates, ?_, hlocates.length_pos, hlocates.fraction_nonneg,
      hlocates.fraction_lt_one⟩
    intro i f l h
    exact h.unique hnonneg hlocates

theorem advance_locates_bend :
    (∀ length ∈ bend.lengths, 0 ≤ length) ∧ Reached bend .hold start ∧
      (exists s', start.advance bend .hold (some 2) = s' ∧ s'.segment = 2 ∧ s'.covered = 2) ∧
      start.advance bend .hold (some 5) = parked bend := by
  have hnonneg : ∀ length ∈ bend.lengths, 0 ≤ length := by decide
  have htotal : bend.total = 5 := by norm_num [bend, Path.total]
  have hzero : (start : Traversal Rat).covered = 0 := rfl
  rcases advance_locates bend hnonneg .hold start .start (some 2) with ⟨-, -, hbelow, -⟩
  rcases advance_locates bend hnonneg .hold start .start (some 5) with ⟨-, hreaches, -⟩
  rcases hbelow (by norm_num [hzero, htotal, stride]) with
    ⟨s', length, hs', hsum, -, hunique, -⟩
  refine ⟨hnonneg, .start, ⟨s', hs', ?_, ?_⟩, ?_⟩
  · apply Eq.symm
    apply hunique 2 0 3
    rw [hsum]
    exact ⟨rfl, by norm_num [bend, hzero, stride], by norm_num [bend, hzero, stride],
      by norm_num [bend, hzero, stride]⟩
  · norm_num [hsum, hzero, stride]
  · exact hreaches (by norm_num [hzero, htotal, stride])

end Traversal
end TransitSim
