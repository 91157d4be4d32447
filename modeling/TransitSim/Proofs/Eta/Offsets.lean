import Mathlib.Data.Int.ModEq
import TransitSim.Proofs.Calendar.ClockFace
import TransitSim.Proofs.Eta.MinuteRuns

/-!
# Clocks with other offsets

A clock that is whole minutes ahead or behind numbers the minutes of the day in another way, but two
estimates share a minute on it exactly if they do so on any other such clock. So the clock does not
decide which estimates are changes. Two trackers that are told the same keep the same estimates and
write down the same changes at the same time; only the minutes of a change may differ, by a day,
where midnight on one clock lies between the two estimates.
-/

namespace TransitSim

open Calendar

namespace Calendar

def Instant.minute (i : Instant) : Int :=
  i.seconds / 60

def Offset.IsWhole (offset : Offset) : Prop :=
  exists minutes, Offset.ofMinutes? minutes = some offset

/-!
# Minutes on a clock
-/

theorem minuteOfDay_ofMinutes {minutes : Int} {offset : Offset}
    (h : Offset.ofMinutes? minutes = some offset) (i : Instant) :
    (minuteOfDay offset i : Int) = (i.minute + minutes) % 1440 := by
  have hseconds : offset.seconds = minutes * 60 := by
    simp only [Offset.ofMinutes?, Offset.ofSeconds?] at h
    split at h
    · cases h
      rfl
    · cases h
  simp only [minuteOfDay, Instant.minute, secondsPerDay, hseconds]
  omega

variable {offset : Offset}

theorem Offset.IsWhole.modEq (h : offset.IsWhole) (i j : Instant) :
    Int.ModEq 1440 ((minuteOfDay offset j : Int) - minuteOfDay offset i) (j.minute - i.minute) := by
  rcases h with ⟨minutes, hminutes⟩
  rw [minuteOfDay_ofMinutes hminutes, minuteOfDay_ofMinutes hminutes]
  calc ((j.minute + minutes) % 1440 - (i.minute + minutes) % 1440) % 1440
      = ((j.minute + minutes) - (i.minute + minutes)) % 1440 :=
        (Int.mod_modEq _ _).sub (Int.mod_modEq _ _)
    _ = (j.minute - i.minute) % 1440 := by rw [Int.add_sub_add_right]

theorem Offset.IsWhole.minuteOfDay_eq_iff (h : offset.IsWhole) (i j : Instant) :
    minuteOfDay offset j = minuteOfDay offset i ↔ Int.ModEq 1440 j.minute i.minute := by
  have hlow := minuteOfDay_lt offset i
  have hhigh := minuteOfDay_lt offset j
  have hdays := h.modEq i j
  simp only [Int.ModEq] at hdays ⊢
  omega

end Calendar

/-!
# Changes told by two clocks
-/

structure Transition.IsOnClock (c : Transition) : Prop where
  ne_zero : c.minutes ≠ 0
  within : -1439 ≤ c.minutes ∧ c.minutes ≤ 1439
  modEq : Int.ModEq 1440 c.minutes (c.new.minute - c.previous.minute)
  days : exists days : Int, c.new.minute - c.previous.minute = c.minutes + 1440 * days

/-- Whether two changes are the same but for the clock that tells their minutes. -/
structure Transition.Matches (c d : Transition) : Prop where
  previous : c.previous = d.previous
  new : c.new = d.new
  observed : c.observed = d.observed
  minutes : Int.ModEq 1440 c.minutes d.minutes
  left : c.IsOnClock
  right : d.IsOnClock

/-- Whether two histories are the same but for the clock. -/
structure History.Matches (h k : History) : Prop where
  last : h.last = k.last
  changes : h.changes = k.changes
  transitions : List.Forall₂ Transition.Matches h.transitions k.transitions

inductive Observation.Matches : Observation → Observation → Prop where
  | reached (key : String) (arrived : Instant) :
      Matches (.reached key arrived) (.reached key arrived)
  | upcoming (key : String) (eta : Instant) {change change' : Option Transition} (changes : Nat)
      (h : Option.Rel Transition.Matches change change') :
      Matches (.upcoming key eta change changes) (.upcoming key eta change' changes)

structure Tracker.Matches (t u : Tracker) : Prop where
  left : t.offset.IsWhole
  right : u.offset.IsWhole
  histories : ∀ key, Option.Rel History.Matches (t.history? key) (u.history? key)

section Histories

variable {o p : Offset} {h k : History} {eta : Instant}

theorem History.change?_of_last (ho : o.IsWhole) {previous : Instant}
    (hlast : h.last = some previous) (observed : Instant) :
    h.change? o eta observed =
      if Int.ModEq 1440 eta.minute previous.minute then none
      else some ⟨previous, eta, (minuteOfDay o eta : Int) - minuteOfDay o previous, observed⟩ := by
  have hiff := ho.minuteOfDay_eq_iff previous eta
  by_cases hsame : Int.ModEq 1440 eta.minute previous.minute
  · have hminute := hiff.mpr hsame
    simp [change?, hlast, hsame, hminute]
  · have hminutes : (minuteOfDay o eta : Int) - minuteOfDay o previous ≠ 0 := by
      have hother := mt hiff.mp hsame
      omega
    simp [change?, hlast, hsame, hminutes]

theorem Transition.isOnClock_of_other (ho : o.IsWhole) {previous : Instant}
    (hother : ¬Int.ModEq 1440 eta.minute previous.minute) (observed : Instant) :
    IsOnClock ⟨previous, eta, (minuteOfDay o eta : Int) - minuteOfDay o previous, observed⟩ := by
  have hminute := mt (ho.minuteOfDay_eq_iff previous eta).mp hother
  have hlow := minuteOfDay_lt o previous
  have hhigh := minuteOfDay_lt o eta
  constructor
  case ne_zero =>
    dsimp only
    omega
  case within =>
    dsimp only
    omega
  case modEq => exact ho.modEq previous eta
  case days => exact Int.modEq_iff_add_fac.mp (ho.modEq previous eta)

theorem History.Matches.change? (ho : o.IsWhole) (hp : p.IsWhole) (hk : h.Matches k)
    (observed : Instant) :
    Option.Rel Transition.Matches (h.change? o eta observed) (k.change? p eta observed) := by
  cases hlast : h.last with
  | none =>
      simp only [History.change?, ← hk.last, hlast]
      exact .none
  | some previous =>
      rw [change?_of_last ho hlast, change?_of_last hp (hk.last ▸ hlast)]
      split
      · exact .none
      · rename_i hother
        exact .some
          { previous := rfl
            new := rfl
            observed := rfl
            minutes := (ho.modEq previous eta).trans (hp.modEq previous eta).symm
            left := Transition.isOnClock_of_other ho hother observed
            right := Transition.isOnClock_of_other hp hother observed }

theorem History.observe_of_last {previous : Instant} (hlast : h.last = some previous)
    (observed : Instant) :
    h.observe o eta observed = ((h.change? o eta observed).map h.record).getD h := by
  simp only [observe, hlast]
  cases h.change? o eta observed <;> rfl

theorem History.Matches.observe (ho : o.IsWhole) (hp : p.IsWhole) (hk : h.Matches k)
    (eta observed : Instant) : (h.observe o eta observed).Matches (k.observe p eta observed) := by
  cases hlast : h.last with
  | none =>
      simp only [History.observe, ← hk.last, hlast]
      exact ⟨rfl, hk.changes, hk.transitions⟩
  | some previous =>
      have hchange : Option.Rel Transition.Matches (h.change? o eta observed)
          (k.change? p eta observed) :=
        hk.change? ho hp observed
      rw [observe_of_last hlast, observe_of_last (hk.last ▸ hlast)]
      generalize h.change? o eta observed = change at hchange ⊢
      generalize k.change? p eta observed = change' at hchange ⊢
      cases hchange with
      | none => exact hk
      | some hsame =>
          exact ⟨congrArg some hsame.new, congrArg (· + 1) hk.changes,
            List.rel_append hk.transitions (.cons hsame .nil)⟩

end Histories

namespace Tracker

/-!
# Trackers that are told the same
-/

theorem rel_bind {A B C D : Type} {R : A → B → Prop} {S : C → D → Prop} {a : Option A}
    {b : Option B} {f : A → Option C} {g : B → Option D} (h : Option.Rel R a b)
    (hstep : ∀ x y, R x y → Option.Rel S (f x) (g y)) : Option.Rel S (a.bind f) (b.bind g) := by
  cases h with
  | none => exact .none
  | some hxy => exact hstep _ _ hxy

variable {t u : Tracker}

theorem matches_new {o p : Offset} (ho : o.IsWhole) (hp : p.IsWhole) :
    (new o).Matches (new p) :=
  ⟨ho, hp, fun _ => .none⟩

theorem Matches.history_getD (h : t.Matches u) (key : String) :
    ((t.history? key).getD .empty).Matches ((u.history? key).getD .empty) := by
  have hknown := h.histories key
  generalize t.history? key = known at hknown ⊢
  generalize u.history? key = known' at hknown ⊢
  cases hknown with
  | none => exact ⟨rfl, rfl, .nil⟩
  | some hsame => exact hsame

theorem Matches.observe (h : t.Matches u) (s : Snapshot) (observed : Instant) :
    Option.Rel (fun a b => a.1.Matches b.1 ∧ a.2.1.Matches b.2.1)
      (t.observe s observed) (u.observe s observed) := by
  cases hfinal : s.final? with
  | none =>
      simp only [Tracker.observe, hfinal]
      exact .none
  | some eta =>
      cases hstatus : s.status with
      | reached =>
          simp only [Tracker.observe, hfinal, hstatus]
          exact .some ⟨.reached .., h⟩
      | upcoming =>
          have hbefore := h.history_getD s.key
          have hafter := hbefore.observe h.left h.right eta observed
          simp only [Tracker.observe, hfinal, hstatus]
          refine .some ⟨?_, h.left, h.right, fun key => ?_⟩
          · dsimp only
            rw [hafter.changes]
            exact .upcoming _ _ _ (hbefore.change? h.left h.right observed)
          · simp only [history?, Registry.find?_put]
            split
            · exact .some hafter
            · exact h.histories key

theorem Matches.call (h : t.Matches u) (c : Call) :
    Option.Rel Tracker.Matches (t.call c) (u.call c) := by
  cases c with
  | clear => exact .some ⟨h.left, h.right, fun _ => .none⟩
  | observe s observed =>
      simp only [Tracker.call, Option.map_eq_bind]
      exact rel_bind (h.observe s observed) fun _ _ hsame => .some hsame.2

theorem Matches.replay (h : t.Matches u) (calls : List Call) :
    Option.Rel Tracker.Matches (t.replay calls) (u.replay calls) := by
  induction calls generalizing t u with
  | nil => exact .some h
  | cons c rest ih =>
      simp only [Tracker.replay, List.foldlM_cons]
      exact rel_bind (h.call c) fun _ _ hsame => ih hsame

/-- Two new trackers with clocks that are whole minutes ahead or behind, told the same, fail
together or go on together. In the end they keep the same estimates and count the same changes of
each stop, which they have written down at the same time; the minutes of a change are on both clocks
what lies between the two estimates, up to whole days. What is shown by one more snapshot is a
change on both clocks or on none. -/
theorem replay_matches {m n : Int} {o p : Offset} (ho : Offset.ofMinutes? m = some o)
    (hp : Offset.ofMinutes? n = some p) (calls : List Call) :
    Option.Rel
      (fun t u =>
        (∀ key, Option.Rel History.Matches (t.history? key) (u.history? key)) ∧
          ∀ s observed, Option.Rel (fun a b => a.1.Matches b.1)
            (t.observe s observed) (u.observe s observed))
      ((new o).replay calls) ((new p).replay calls) := by
  have hnew : (new o).Matches (new p) := matches_new ⟨m, ho⟩ ⟨n, hp⟩
  have hweaken {A B : Type} {R S : A → B → Prop} {a : Option A} {b : Option B}
      (hR : Option.Rel R a b) (hRS : ∀ x y, R x y → S x y) : Option.Rel S a b := by
    cases hR with
    | none => exact .none
    | some hxy => exact .some (hRS _ _ hxy)
  exact hweaken (hnew.replay calls) fun t u h =>
    ⟨h.histories, fun s observed => hweaken (h.observe s observed) fun _ _ hsame => hsame.1⟩

def midnight : List Call :=
  [.observe ⟨"quay", none, ⟨86340, 0⟩, 0, .upcoming⟩ ⟨0, 0⟩,
    .observe ⟨"quay", none, ⟨86400, 0⟩, 60, .upcoming⟩ ⟨10, 0⟩]

theorem replay_matches_midnight :
    Offset.ofMinutes? 0 = some .utc ∧ Offset.ofMinutes? 330 = some ⟨19800⟩ ∧
      exists t u known known', (new .utc).replay midnight = some t ∧
        (new ⟨19800⟩).replay midnight = some u ∧ t.history? "quay" = some known ∧
          u.history? "quay" = some known' ∧ known.transitions.map (·.minutes) = [-1438] ∧
            known'.transitions.map (·.minutes) = [2] ∧ known.Matches known' := by
  have hutc : Offset.ofMinutes? 0 = some .utc := by decide
  have hahead : Offset.ofMinutes? 330 = some ⟨19800⟩ := by decide
  have hminutes : ((new .utc).replay midnight).bind (fun t => (t.history? "quay").map
      (·.transitions.map (·.minutes))) = some [-1438] := by
    decide +kernel
  have hminutes' : ((new ⟨19800⟩).replay midnight).bind (fun t => (t.history? "quay").map
      (·.transitions.map (·.minutes))) = some [2] := by
    decide +kernel
  rcases Option.bind_eq_some_iff.mp hminutes with ⟨t, ht, hknown⟩
  rcases Option.bind_eq_some_iff.mp hminutes' with ⟨u, hu, hknown'⟩
  rcases Option.map_eq_some_iff.mp hknown with ⟨known, hquay, hchanges⟩
  rcases Option.map_eq_some_iff.mp hknown' with ⟨known', hquay', hchanges'⟩
  have hmatches := replay_matches hutc hahead midnight
  rw [ht, hu] at hmatches
  cases hmatches with
  | some hsame =>
      have hhistory := hsame.1 "quay"
      rw [hquay, hquay'] at hhistory
      cases hhistory with
      | some hboth =>
          exact ⟨hutc, hahead, t, u, known, known', ht, hu, hquay, hquay', hchanges, hchanges',
            hboth⟩

end Tracker
end TransitSim
