import Mathlib.Algebra.BigOperators.Group.List.Basic
import Mathlib.Algebra.Order.Field.Basic
import Mathlib.Algebra.Order.BigOperators.Group.List
import Mathlib.Tactic.Linarith
import Mathlib.Tactic.Ring
import TransitSim.Route.Traversal

/-!
# Finding a distance on a path

With numbers that are added and compared exactly, the segment in which a distance lies is the one
that begins at most at the distance and ends beyond it. There is one exactly if the distance is
below the total, since the scan adds up the lengths in the order in which the total does.
-/

namespace TransitSim

variable {K : Type} [Field K]

theorem Path.total_eq_sum (p : Path K) : p.total = p.lengths.sum :=
  List.sum_eq_foldl.symm

theorem Path.exists_ends {N : Type} {p : Path N} {i : Nat} (h : i < p.lengths.length) :
    exists a b, p.points[i]? = some a ∧ p.points[i + 1]? = some b ∧ p.ends i = (a, b) := by
  have hpoints := p.points_length
  have hmin : min i (p.segmentCount - 1) = i := Nat.min_eq_left (Nat.le_sub_one_of_lt h)
  refine ⟨p.points[i], p.points[i + 1], List.getElem?_eq_getElem (by omega),
    List.getElem?_eq_getElem (by omega), ?_⟩
  simp only [ends, hmin]

namespace Traversal

variable [LinearOrder K] [IsStrictOrderedRing K]

/-- A distance lies in a segment, and how much of the segment lies before it. -/
structure Locates (covered : K) (lengths : List K) (i : Nat) (fraction length : K) : Prop where
  length_eq : lengths[i]? = some length
  start_le : (lengths.take i).sum ≤ covered
  lt_stop : covered < (lengths.take i).sum + length
  fraction_eq : fraction = (covered - (lengths.take i).sum) / length

variable {covered fraction length : K} {lengths : List K} {i : Nat}

theorem Locates.length_pos (h : Locates covered lengths i fraction length) : 0 < length := by
  have hstart := h.start_le
  have hstop := h.lt_stop
  linarith

theorem Locates.fraction_nonneg (h : Locates covered lengths i fraction length) : 0 ≤ fraction := by
  rw [h.fraction_eq]
  exact div_nonneg (sub_nonneg.mpr h.start_le) h.length_pos.le

theorem Locates.fraction_lt_one (h : Locates covered lengths i fraction length) : fraction < 1 := by
  rw [h.fraction_eq, div_lt_one h.length_pos]
  have hstop := h.lt_stop
  linarith

theorem Locates.sum_add (h : Locates covered lengths i fraction length) :
    (lengths.take i).sum + fraction * length = covered := by
  rw [h.fraction_eq, div_mul_cancel₀ _ h.length_pos.ne']
  ring

/-!
# The scan
-/

theorem locate?_shift (covered before : K) (index : Nat) (lengths : List K) :
    locate? covered before index lengths =
      (locate? (covered - before) 0 0 lengths).map (Prod.map (index + ·) id) := by
  induction lengths generalizing covered before index with
  | nil => rfl
  | cons length rest ih =>
      simp only [locate?]
      by_cases hin : covered < before + length
      · have hin' : covered - before < 0 + length := by linarith
        rw [if_pos hin, if_pos hin', sub_zero]
        rfl
      · have hin' : ¬covered - before < 0 + length := by
          intro h
          apply hin
          linarith
        rw [if_neg hin, if_neg hin', ih covered (before + length) (index + 1),
          ih (covered - before) (0 + length) (0 + 1)]
        have hsub : covered - before - (0 + length) = covered - (before + length) := by ring
        rw [hsub]
        cases locate? (covered - (before + length)) 0 0 rest with
        | none => rfl
        | some found =>
            simp only [Option.map_some, Prod.map, id, Nat.add_assoc, Nat.zero_add]

theorem locate?_cons (covered length : K) (rest : List K) :
    locate? covered 0 0 (length :: rest) =
      if covered < length then some (0, covered / length)
      else (locate? (covered - length) 0 0 rest).map (Prod.map (· + 1) id) := by
  rw [locate?, zero_add, sub_zero, locate?_shift covered length]
  simp only [Nat.zero_add, Nat.add_comm 1]

theorem locates_of_locate? (hcovered : 0 ≤ covered)
    (h : locate? covered 0 0 lengths = some (i, fraction)) :
    exists length, Locates covered lengths i fraction length := by
  induction lengths generalizing covered i with
  | nil => cases h
  | cons length rest ih =>
      rw [locate?_cons] at h
      split at h
      · rename_i hin
        cases h
        exact ⟨length, rfl, by simpa using hcovered, by simpa using hin, by simp⟩
      · rename_i hout
        obtain ⟨⟨j, f⟩, hrest, heq⟩ := Option.map_eq_some_iff.mp h
        cases heq
        rcases ih (by linarith) hrest with ⟨last, hlast⟩
        refine ⟨last, hlast.length_eq, ?_, ?_, ?_⟩
        · have := hlast.start_le
          rw [List.take_succ_cons, List.sum_cons]
          linarith
        · have := hlast.lt_stop
          rw [List.take_succ_cons, List.sum_cons]
          linarith
        · rw [hlast.fraction_eq, List.take_succ_cons, List.sum_cons]
          congr 1
          ring

theorem locate?_eq_none_iff (hcovered : 0 ≤ covered) (hlengths : ∀ length ∈ lengths, 0 ≤ length) :
    locate? covered 0 0 lengths = none ↔ lengths.sum ≤ covered := by
  induction lengths generalizing covered with
  | nil => simpa [locate?] using hcovered
  | cons length rest ih =>
      have hrest : ∀ length ∈ rest, 0 ≤ length := fun l hl => hlengths l (List.mem_cons_of_mem _ hl)
      rw [locate?_cons, List.sum_cons]
      split
      · rename_i hin
        have hsum := List.sum_nonneg hrest
        simp only [reduceCtorEq, false_iff, not_le]
        linarith
      · rename_i hout
        rw [Option.map_eq_none_iff, ih (by linarith) hrest]
        constructor
        · intro h
          linarith
        · intro h
          linarith

end Traversal
end TransitSim
