import Mathlib.Algebra.Order.Archimedean.Basic
import Mathlib.Data.List.Induction
import Mathlib.Data.Rat.Floor
import Mathlib.Tactic.NormNum
import TransitSim.Position.Source
import TransitSim.Proofs.Route.Location

/-!
# How far a movement has come

Many steps along a path, one after the other. On a path that is held at its end the steps add up
until they reach the total. On a path that starts over they add up since the last wrap, and a wrap
comes with the step at which they reach the total; what goes beyond it is dropped. The point where
the movement is lies that far along the path.
-/

namespace TransitSim

namespace Traversal

section
variable {N : Type} [Zero N] [One N] [Add N] [Sub N] [Div N] [LT N] [DecidableLT N]

def follow (p : Path N) (wrap : Wrap) (steps : List (Option N)) : Traversal N :=
  steps.foldl (advance p wrap) start

/-- Whether a step leads beyond the last segment. -/
def Wraps (p : Path N) (s : Traversal N) (step : Option N) : Prop :=
  locate? (s.covered + forward step) 0 0 p.lengths = none

def atEnd (p : Path N) : Wrap → Traversal N
  | .loop => start
  | .hold => parked p

theorem advance_of_wraps {p : Path N} {s : Traversal N} {step : Option N} (h : Wraps p s step)
    (wrap : Wrap) : s.advance p wrap step = atEnd p wrap := by
  unfold Wraps at h
  simp only [advance, h]
  cases wrap <;> rfl

theorem advance_of_locate? {p : Path N} {s : Traversal N} {step : Option N} {i : Nat} {fraction : N}
    (h : locate? (s.covered + forward step) 0 0 p.lengths = some (i, fraction)) (wrap : Wrap) :
    s.advance p wrap step = ⟨s.covered + forward step, i, fraction⟩ := by
  simp only [advance, h]

theorem follow_concat (p : Path N) (wrap : Wrap) (steps : List (Option N)) (step : Option N) :
    follow p wrap (steps ++ [step]) = (follow p wrap steps).advance p wrap step := by
  unfold follow
  rw [List.foldl_append]
  rfl

end

variable {K : Type} [Field K] [LinearOrder K]

/-- How far a step goes: not at all if it is no number or goes backwards. -/
def stride : Option K → K
  | some step => max step 0
  | none => 0

def lap (total : K) (strides : List K) : List K :=
  strides.foldl (fun since d => if total ≤ (since ++ [d]).sum then [] else since ++ [d]) []

/-- A point lies at a distance along a path: in a segment, as far from its start as the distance is
beyond the lengths before it, measured in degrees as in metres. -/
def LiesAt (p : Path K) (distance : K) (point : Point K) : Prop :=
  exists (i : Nat) (a b : Point K) (length t : K),
    p.points[i]? = some a ∧ p.points[i + 1]? = some b ∧ p.lengths[i]? = some length ∧
      0 ≤ t ∧ t ≤ 1 ∧ (p.lengths.take i).sum + t * length = distance ∧ point = a.between b t

theorem forward_eq_stride (step : Option K) : forward step = stride step := by
  cases step with
  | none => rfl
  | some d =>
      show (if d < 0 then 0 else d) = max d 0
      by_cases hd : d < 0
      · rw [if_pos hd, max_eq_right hd.le]
      · rw [if_neg hd, max_eq_left (not_lt.mp hd)]

theorem stride_nonneg (step : Option K) : 0 ≤ stride step := by
  cases step with
  | none => exact le_refl 0
  | some d => exact le_max_right d 0

theorem lap_concat (total : K) (strides : List K) (d : K) :
    lap total (strides ++ [d]) =
      if total ≤ (lap total strides).sum + d then [] else lap total strides ++ [d] := by
  unfold lap
  rw [List.foldl_append]
  simp only [List.foldl_cons, List.foldl_nil, List.sum_append, List.sum_singleton]

variable [IsStrictOrderedRing K]

/-!
# One step
-/

variable {p : Path K}

theorem wraps_iff (hp : ∀ length ∈ p.lengths, 0 ≤ length) {s : Traversal K} (hs : 0 ≤ s.covered)
    (step : Option K) : Wraps p s step ↔ p.total ≤ s.covered + stride step := by
  have hcovered : 0 ≤ s.covered + stride step := add_nonneg hs (stride_nonneg step)
  unfold Wraps
  rw [forward_eq_stride, locate?_eq_none_iff hcovered hp, p.total_eq_sum]

theorem advance_of_not_wraps {s : Traversal K} (hs : 0 ≤ s.covered) {step : Option K}
    (h : ¬Wraps p s step) (wrap : Wrap) :
    (s.advance p wrap step).covered = s.covered + stride step ∧
      exists length, Locates (s.covered + stride step) p.lengths (s.advance p wrap step).segment
        (s.advance p wrap step).fraction length := by
  unfold Wraps at h
  cases hfound : locate? (s.covered + forward step) 0 0 p.lengths with
  | none => exact absurd hfound h
  | some found =>
      rw [advance_of_locate? hfound wrap]
      rw [forward_eq_stride] at hfound ⊢
      exact ⟨rfl, locates_of_locate? (add_nonneg hs (stride_nonneg step)) hfound⟩

theorem total_nonneg (hp : ∀ length ∈ p.lengths, 0 ≤ length) : 0 ≤ p.total := by
  rw [p.total_eq_sum]
  exact List.sum_nonneg hp

theorem covered_atEnd_nonneg (hp : ∀ length ∈ p.lengths, 0 ≤ length) (wrap : Wrap) :
    0 ≤ (atEnd p wrap).covered := by
  cases wrap with
  | loop => exact le_refl 0
  | hold => exact total_nonneg hp

theorem covered_follow_nonneg (hp : ∀ length ∈ p.lengths, 0 ≤ length) (wrap : Wrap)
    (steps : List (Option K)) : 0 ≤ (follow p wrap steps).covered := by
  induction steps using List.reverseRecOn with
  | nil => exact le_refl 0
  | append_singleton steps step ih =>
      rw [follow_concat]
      by_cases h : Wraps p (follow p wrap steps) step
      · rw [advance_of_wraps h]
        exact covered_atEnd_nonneg hp wrap
      · rw [(advance_of_not_wraps ih h wrap).1]
        exact add_nonneg ih (stride_nonneg step)

/-!
# Many steps
-/

theorem covered_hold (hp : ∀ length ∈ p.lengths, 0 ≤ length) (steps : List (Option K)) :
    (follow p .hold steps).covered = min (steps.map stride).sum p.total := by
  induction steps using List.reverseRecOn with
  | nil => exact (min_eq_left (total_nonneg hp)).symm
  | append_singleton steps step ih =>
      have hstride := stride_nonneg step
      have hwraps := wraps_iff hp (covered_follow_nonneg hp .hold steps) step
      rw [follow_concat, List.map_append, List.sum_append, List.map_singleton, List.sum_singleton]
      by_cases h : Wraps p (follow p .hold steps) step
      · rw [advance_of_wraps h]
        have hreaches : p.total ≤ (steps.map stride).sum + stride step := by
          have hle := hwraps.mp h
          rw [ih] at hle
          have hmin := min_le_left (steps.map stride).sum p.total
          linarith
        exact (min_eq_right hreaches).symm
      · rw [(advance_of_not_wraps (covered_follow_nonneg hp .hold steps) h .hold).1, ih]
        rw [hwraps, ih, not_le] at h
        have hbefore : (steps.map stride).sum < p.total := by
          apply lt_of_not_ge
          intro hreached
          rw [min_eq_right hreached] at h
          linarith
        rw [min_eq_left hbefore.le] at h ⊢
        exact (min_eq_left h.le).symm

theorem covered_loop (hp : ∀ length ∈ p.lengths, 0 ≤ length) (steps : List (Option K)) :
    (follow p .loop steps).covered = (lap p.total (steps.map stride)).sum := by
  induction steps using List.reverseRecOn with
  | nil => rfl
  | append_singleton steps step ih =>
      have hwraps := wraps_iff hp (covered_follow_nonneg hp .loop steps) step
      rw [ih] at hwraps
      rw [follow_concat, List.map_append, List.map_singleton, lap_concat]
      by_cases h : Wraps p (follow p .loop steps) step
      · rw [advance_of_wraps h, if_pos (hwraps.mp h)]
        rfl
      · rw [(advance_of_not_wraps (covered_follow_nonneg hp .loop steps) h .loop).1, ih,
          if_neg (fun hle => h (hwraps.mpr hle)), List.sum_append, List.sum_singleton]

omit [IsStrictOrderedRing K] in
theorem lap_replicate {total s : K} {k : Nat} (hk : IsLeast {k : Nat | total ≤ k * s} k)
    (hpos : 0 < total) (n : Nat) :
    lap total (List.replicate n s) = List.replicate (n % k) s := by
  have hreach : ∀ m : Nat, m < k → ¬total ≤ m * s := by
    intro m hm hle
    exact Nat.not_le_of_lt hm (hk.2 hle)
  have hkpos : 0 < k := by
    apply Nat.pos_of_ne_zero
    rintro rfl
    have hzero : total ≤ ((0 : Nat) : K) * s := hk.1
    rw [Nat.cast_zero, zero_mul] at hzero
    exact absurd hzero (not_le.mpr hpos)
  induction n with
  | zero => rw [Nat.zero_mod]; rfl
  | succ n ih =>
      have hlt : n % k < k := Nat.mod_lt n hkpos
      have hsum : (n % k : Nat) * s + s = (n % k + 1 : Nat) * s := by
        rw [Nat.cast_add, Nat.cast_one, add_mul, one_mul]
      rw [List.replicate_succ', lap_concat, ih, List.sum_replicate, nsmul_eq_mul, hsum]
      by_cases hlast : n % k + 1 = k
      · have hmod : (n + 1) % k = 0 := by rw [← Nat.mod_add_mod, hlast, Nat.mod_self]
        have hreached : total ≤ (k : K) * s := hk.1
        rw [hlast, if_pos hreached, hmod]
        rfl
      · have hmod : (n + 1) % k = n % k + 1 := by
          rw [← Nat.mod_add_mod, Nat.mod_eq_of_lt (by omega)]
        rw [if_neg (hreach _ (by omega)), hmod, List.replicate_succ']

/-!
# Where a movement is
-/

omit [LinearOrder K] [IsStrictOrderedRing K] in
theorem place_of_lt {s : Traversal K} (h : s.segment < p.segmentCount) :
    exists a b, p.points[s.segment]? = some a ∧ p.points[s.segment + 1]? = some b ∧
      s.place p = a.between b s.fraction := by
  rcases Path.exists_ends h with ⟨a, b, ha, hb, hends⟩
  refine ⟨a, b, ha, hb, ?_⟩
  rw [place, hends]

theorem liesAt_of_locates {s : Traversal K} {length : K}
    (h : Locates s.covered p.lengths s.segment s.fraction length) :
    LiesAt p s.covered (s.place p) := by
  have hlt : s.segment < p.segmentCount := (List.getElem?_eq_some_iff.mp h.length_eq).1
  rcases place_of_lt hlt with ⟨a, b, ha, hb, hplace⟩
  exact ⟨s.segment, a, b, length, s.fraction, ha, hb, h.length_eq, h.fraction_nonneg,
    h.fraction_lt_one.le, h.sum_add, hplace⟩

theorem liesAt_start : LiesAt p (start : Traversal K).covered ((start : Traversal K).place p) := by
  have hlt : (start : Traversal K).segment < p.segmentCount := p.lengths_pos
  rcases place_of_lt hlt with ⟨a, b, ha, hb, hplace⟩
  refine ⟨0, a, b, p.lengths[0], 0, ha, hb, List.getElem?_eq_getElem hlt, le_refl 0, zero_le_one,
    ?_, hplace⟩
  simp [start]

theorem liesAt_parked : LiesAt p (parked p).covered ((parked p).place p) := by
  have hpos := p.lengths_pos
  have hlast : p.lengths.length - 1 < p.lengths.length := by omega
  rcases place_of_lt (s := parked p) hlast with ⟨a, b, ha, hb, hplace⟩
  refine ⟨p.lengths.length - 1, a, b, p.lengths[p.lengths.length - 1], 1, ha, hb,
    List.getElem?_eq_getElem hlast, zero_le_one, le_refl 1, ?_, hplace⟩
  have hall : p.lengths.take (p.lengths.length - 1 + 1) = p.lengths := by
    rw [Nat.sub_add_cancel hpos, List.take_length]
  show _ = p.total
  rw [one_mul, ← List.sum_take_succ, hall, p.total_eq_sum]

theorem liesAt_follow (hp : ∀ length ∈ p.lengths, 0 ≤ length) (wrap : Wrap)
    (steps : List (Option K)) :
    LiesAt p (follow p wrap steps).covered ((follow p wrap steps).place p) := by
  induction steps using List.reverseRecOn with
  | nil => exact liesAt_start
  | append_singleton steps step ih =>
      rw [follow_concat]
      by_cases h : Wraps p (follow p wrap steps) step
      · rw [advance_of_wraps h]
        cases wrap with
        | loop => exact liesAt_start
        | hold => exact liesAt_parked
      · rcases advance_of_not_wraps (covered_follow_nonneg hp wrap steps) h wrap with
          ⟨hcovered, length, hlocates⟩
        rw [← hcovered] at hlocates
        exact liesAt_of_locates hlocates

end Traversal

/-!
# Followers and sources
-/

open Traversal

theorem Follower.foldl_advance (f : Follower) (metres : List Float) :
    metres.foldl Follower.advance f =
      { f with
        state := (metres.map finite?).foldl (Traversal.advance f.route f.wrap) f.state } := by
  induction metres generalizing f with
  | nil => rfl
  | cons x rest ih =>
      rw [List.foldl_cons, ih (f.advance x)]
      rfl

def Source.nextTimes : Nat → Source → Except Error (List Update × Source)
  | 0, s => .ok ([], s)
  | n + 1, s => do
      let (update, s) ← s.next
      let (updates, s) ← nextTimes n s
      .ok (update :: updates, s)

theorem Source.nextTimes_route (f : Follower) (speed step : Float) (n : Nat) :
    exists updates, (Source.route f speed step).nextTimes n =
        .ok (updates, .route ((List.replicate n step).foldl Follower.advance f) speed step) ∧
      updates.map (·.coordinate) = (List.range n).map fun i =>
        ((List.replicate (i + 1) step).foldl Follower.advance f).place := by
  induction n generalizing f with
  | zero => exact ⟨[], rfl, rfl⟩
  | succ n ih =>
      rcases ih (f.advance step) with ⟨updates, hupdates, hplaces⟩
      refine ⟨⟨(f.advance step).place, some (f.advance step).heading, speed, none, none⟩ :: updates,
        ?_, ?_⟩
      · simp only [nextTimes, next, bind, Except.bind, hupdates, List.replicate_succ,
          List.foldl_cons]
      · rw [List.map_cons, hplaces, List.range_succ_eq_map, List.map_cons, List.map_map]
        rfl

/-- Numbers are added exactly, lengths are not negative and their sum is positive. Held at the end
of the path, a movement has come as far as the strides add up to, and to the total at most. On a
path that starts over it has come as far as the strides since the last wrap add up to; the wraps are
the steps with which they reach the total, and lead to zero. By equal steps a movement that starts
over has come, after `n` of them, the remainder of `n` by the least number of steps that reaches the
total. Always the movement is at a point that lies that far along the path.

A follower of a route moves in this way from each reset on, and so does a source of positions,
by equal steps, whose positions are the points where the movement is after each of them. -/
theorem covered_of_follow {K : Type} [Field K] [LinearOrder K] [IsStrictOrderedRing K]
    [Archimedean K] (p : Path K) (hnonneg : ∀ length ∈ p.lengths, 0 ≤ length)
    (hpos : 0 < p.total) :
    (∀ steps, (follow p .hold steps).covered = min (steps.map stride).sum p.total) ∧
      (∀ steps, (follow p .loop steps).covered = (lap p.total (steps.map stride)).sum) ∧
      (∀ steps step, Wraps p (follow p .loop steps) step ↔
        p.total ≤ (lap p.total (steps.map stride)).sum + stride step) ∧
      (∀ steps step, Wraps p (follow p .loop steps) step →
        follow p .loop (steps ++ [step]) = start) ∧
      (∀ s : K, 0 < s → exists k : Nat, IsLeast {k : Nat | p.total ≤ k * s} k ∧
        ∀ n : Nat, (follow p .loop (List.replicate n (some s))).covered = (n % k : Nat) * s ∧
          (follow p .hold (List.replicate n (some s))).covered = min (n * s) p.total) ∧
      (∀ wrap steps, LiesAt p (follow p wrap steps).covered ((follow p wrap steps).place p)) ∧
      (∀ (f : Follower) (metres : List Float),
        (metres.foldl Follower.advance f.reset).state =
          follow f.route f.wrap (metres.map finite?)) ∧
      ∀ (f : Follower) (speed step : Float) (n : Nat), exists updates follower,
        (Source.route f speed step).reset.nextTimes n =
            .ok (updates, .route follower speed step) ∧
          follower.state = follow f.route f.wrap (List.replicate n (finite? step)) ∧
          updates.map (·.coordinate) = (List.range n).map fun i =>
            (follow f.route f.wrap (List.replicate (i + 1) (finite? step))).place f.route := by
  have hloop := covered_loop hnonneg
  have hhold := covered_hold hnonneg
  have hwraps : ∀ steps step, Wraps p (follow p .loop steps) step ↔
      p.total ≤ (lap p.total (steps.map stride)).sum + stride step := by
    intro steps step
    rw [wraps_iff hnonneg (covered_follow_nonneg hnonneg .loop steps), hloop]
  refine ⟨hhold, hloop, hwraps, ?_, ?_, liesAt_follow hnonneg, ?_, ?_⟩
  · intro steps step h
    rw [follow_concat, advance_of_wraps h]
    rfl
  · intro s hs
    have hstride : stride (some s) = s := max_eq_left hs.le
    have hreached : exists k : Nat, p.total ≤ k * s := by
      rcases Archimedean.arch p.total hs with ⟨k, hk⟩
      exact ⟨k, by rwa [nsmul_eq_mul] at hk⟩
    classical
    have hleast : IsLeast {k : Nat | p.total ≤ k * s} (Nat.find hreached) :=
      ⟨Nat.find_spec hreached, fun m hm => Nat.find_min' hreached hm⟩
    refine ⟨Nat.find hreached, hleast, ?_⟩
    intro n
    rw [hloop, hhold, List.map_replicate, hstride, lap_replicate hleast hpos, List.sum_replicate,
      List.sum_replicate, nsmul_eq_mul, nsmul_eq_mul]
    exact ⟨rfl, rfl⟩
  · intro f metres
    rw [Follower.foldl_advance]
    rfl
  · intro f speed step n
    rcases Source.nextTimes_route f.reset speed step n with ⟨updates, hupdates, hplaces⟩
    refine ⟨updates, _, hupdates, ?_, ?_⟩
    · rw [Follower.foldl_advance, List.map_replicate]
      rfl
    · rw [hplaces]
      apply List.map_congr_left
      intro i _
      rw [Follower.foldl_advance, List.map_replicate]
      rfl

def bend : Path Rat :=
  ⟨[⟨0, 0⟩, ⟨0, 2⟩, ⟨0, 2⟩, ⟨3, 2⟩], [2, 0, 3], rfl, by decide⟩

theorem covered_of_follow_bend :
    (∀ length ∈ bend.lengths, 0 ≤ length) ∧ 0 < bend.total ∧
      (follow bend .hold [some 2, none, some (-1), some 4]).covered = 5 ∧
      (follow bend .loop [some 2, none, some (-1), some 4, some 1]).covered = 1 := by
  have hnonneg : ∀ length ∈ bend.lengths, 0 ≤ length := by decide
  have htotal : bend.total = 5 := by norm_num [bend, Path.total]
  have hpos : 0 < bend.total := by norm_num [htotal]
  rcases covered_of_follow bend hnonneg hpos with ⟨hhold, hloop, -⟩
  refine ⟨hnonneg, hpos, ?_, ?_⟩
  · rw [hhold, htotal]
    norm_num [stride]
  · rw [hloop, htotal]
    norm_num [stride, lap]

end TransitSim
