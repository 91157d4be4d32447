import TransitSim.Proofs.Eta.Observing
import TransitSim.Proofs.Session.Steps

/-!
# What trackers remember

A history that a tracker holds has an estimate, and counts as many changes as it has written down;
no stop has two histories. This holds of a new tracker, observations and forgetting keep it, and so
it holds of the tracker of a session in every state.
-/

namespace TransitSim

open Calendar

namespace Registry

variable {V : Type}

theorem mem_keys_put {r : Registry V} {key k : String} {value : V} :
    k ∈ (r.put key value).keys ↔ k = key ∨ k ∈ r.keys := by
  induction r with
  | nil => simp [put, keys]
  | cons e rest ih =>
      rw [put]
      split
      · rename_i hkey
        simp [keys, hkey]
      · have hrest : k ∈ (put rest key value).map (·.1) ↔ k = key ∨ k ∈ rest.map (·.1) := ih
        simp only [keys, List.map_cons, List.mem_cons, hrest]
        exact or_left_comm

theorem nodup_keys_put {r : Registry V} (h : r.keys.Nodup) (key : String) (value : V) :
    (r.put key value).keys.Nodup := by
  induction r with
  | nil => simp [put, keys]
  | cons e rest ih =>
      have hparts : e.1 ∉ keys rest ∧ (keys rest).Nodup := List.nodup_cons.mp h
      rw [put]
      split
      · exact h
      · rename_i hkey
        refine List.nodup_cons.mpr ⟨fun hmem => ?_, ih hparts.2⟩
        rcases mem_keys_put.mp hmem with heq | hold
        · exact hkey heq.symm
        · exact hparts.1 hold

theorem mem_of_find? {r : Registry V} {key : String} {value : V} (h : r.find? key = some value) :
    (key, value) ∈ r := by
  induction r with
  | nil => cases h
  | cons e rest ih =>
      rw [find?_cons] at h
      split at h
      · rename_i hkey
        rw [hkey, ← Option.some.inj h]
        exact List.mem_cons_self
      · exact List.mem_cons_of_mem e (ih h)

theorem find?_of_mem {r : Registry V} (h : r.keys.Nodup) {key : String} {value : V}
    (hmem : (key, value) ∈ r) : r.find? key = some value := by
  induction r with
  | nil => cases hmem
  | cons e rest ih =>
      have hparts : e.1 ∉ keys rest ∧ (keys rest).Nodup := List.nodup_cons.mp h
      rw [find?_cons]
      rcases List.mem_cons.mp hmem with heq | hold
      · rw [← heq, if_pos rfl]
      · have hkey : key ≠ e.1 := by
          rintro rfl
          exact hparts.1 (List.mem_map.mpr ⟨_, hold, rfl⟩)
        rw [if_neg hkey]
        exact ih hparts.2 hold

end Registry

/-!
# Histories
-/

structure History.Orderly (h : History) : Prop where
  last : exists eta, h.last = some eta
  changes : h.changes = h.transitions.length

namespace History

variable {offset : Offset} {h : History} {eta : Instant} (observed : Instant)

theorem observe_of_first (hlast : h.last = none) :
    h.observe offset eta observed = { h with last := some eta } ∧
      h.change? offset eta observed = none := by
  simp [observe, change?, hlast]

theorem observe_of_same {previous : Instant} (hlast : h.last = some previous)
    (hsame : minuteOfDay offset eta = minuteOfDay offset previous) :
    h.observe offset eta observed = h ∧ h.change? offset eta observed = none := by
  simp [observe, change?, hlast, hsame]

theorem observe_of_other {previous : Instant} (hlast : h.last = some previous)
    (hother : minuteOfDay offset eta ≠ minuteOfDay offset previous) :
    exists c : Transition, h.change? offset eta observed = some c ∧ c.minutes ≠ 0 ∧
      h.observe offset eta observed = ⟨some eta, h.changes + 1, h.transitions ++ [c]⟩ := by
  have hminutes : (minuteOfDay offset eta : Int) - minuteOfDay offset previous ≠ 0 := by omega
  exists ⟨previous, eta, (minuteOfDay offset eta : Int) - minuteOfDay offset previous, observed⟩
  refine ⟨?_, hminutes, ?_⟩
  · simp only [change?, hlast, if_neg hminutes]
  · simp only [observe, change?, hlast, if_neg hminutes, record]

theorem last_observe (offset : Offset) (h : History) (eta observed : Instant) :
    exists last, (h.observe offset eta observed).last = some last ∧
      minuteOfDay offset last = minuteOfDay offset eta := by
  cases hlast : h.last with
  | none =>
      rw [(observe_of_first _ hlast).1]
      exact ⟨eta, rfl, rfl⟩
  | some previous =>
      by_cases hsame : minuteOfDay offset eta = minuteOfDay offset previous
      · rw [(observe_of_same _ hlast hsame).1]
        exact ⟨previous, hlast, hsame.symm⟩
      · rcases observe_of_other observed hlast hsame with ⟨c, -, -, hrecord⟩
        rw [hrecord]
        exact ⟨eta, rfl, rfl⟩

theorem changes_observe (hchanges : h.changes = h.transitions.length) (eta observed : Instant) :
    (h.observe offset eta observed).changes =
      (h.observe offset eta observed).transitions.length := by
  cases hlast : h.last with
  | none =>
      rw [(observe_of_first _ hlast).1]
      exact hchanges
  | some previous =>
      by_cases hsame : minuteOfDay offset eta = minuteOfDay offset previous
      · rw [(observe_of_same _ hlast hsame).1]
        exact hchanges
      · rcases observe_of_other observed hlast hsame with ⟨c, -, -, hrecord⟩
        rw [hrecord]
        simp [hchanges]

end History

/-!
# Trackers
-/

/-- Whether all histories are orderly, and there is one for a stop at most. -/
structure Tracker.Orderly (t : Tracker) : Prop where
  histories : ∀ key known, t.history? key = some known → known.Orderly
  keys : t.histories.keys.Nodup

namespace Tracker

variable {t t' : Tracker}

theorem orderly_of_histories_nil (h : t.histories = []) : t.Orderly where
  histories := by
    intro key known hknown
    rw [history?, h] at hknown
    cases hknown
  keys := by
    rw [h]
    exact List.nodup_nil

theorem Orderly.changes_getD (ht : t.Orderly) (key : String) :
    ((t.history? key).getD .empty).changes = ((t.history? key).getD .empty).transitions.length := by
  cases hknown : t.history? key with
  | none => rfl
  | some known => exact (ht.histories key known hknown).changes

theorem Orderly.observe (ht : t.Orderly) {s : Snapshot} {observed : Instant} {o : Observation}
    {lines : Journal} (h : t.observe s observed = some (o, t', lines)) : t'.Orderly := by
  rcases observe_cases h with ⟨eta, -, ⟨-, -, rfl, -⟩ | ⟨before, rfl, -, -, rfl, -⟩⟩
  · exact ht
  · constructor
    case histories =>
      intro key known hknown
      rw [history?, Registry.find?_put] at hknown
      split at hknown
      · cases hknown
        rcases History.last_observe t.offset ((t.history? s.key).getD .empty) eta observed with
          ⟨last, hlast, -⟩
        exact ⟨⟨last, hlast⟩, History.changes_observe (ht.changes_getD s.key) eta observed⟩
      · exact ht.histories key known hknown
    case keys => exact Registry.nodup_keys_put ht.keys _ _

theorem Orderly.observeAll (ht : t.Orderly) {snapshots : List Snapshot} {observed : Instant}
    {os : List Observation} {lines : Journal}
    (h : t.observeAll observed snapshots = some (os, t', lines)) : t'.Orderly := by
  induction snapshots generalizing t os lines with
  | nil =>
      cases h
      exact ht
  | cons s rest ih =>
      rcases observeAll_cases h with ⟨o, t₁, first, others, remarks, hfirst, hrest, -, -⟩
      exact ih (ht.observe hfirst) hrest

theorem Orderly.respond (ht : t.Orderly) {snapshots : List Snapshot} {observed : Instant}
    {board : Board} {lines : Journal}
    (h : t.respond snapshots observed = some (board, t', lines)) : t'.Orderly := by
  rcases respond_cases h with ⟨os, hall, -⟩
  exact ht.observeAll hall

end Tracker

/-!
# Sessions
-/

namespace Simulation

variable {m m' : Simulation}

def estimates (m : Simulation) : Board × Tracker :=
  (m.session.board, m.session.tracker)

def Responds (m m' : Simulation) : Prop :=
  exists snapshots observed lines, m.session.tracker.respond snapshots observed =
    some (m'.session.board, m'.session.tracker, lines)

theorem respond_of_observe {s s' : Session} {snapshots : List Snapshot} {observed : Instant}
    {lines : Journal} (h : s.observe snapshots observed = some (s', lines)) :
    s.tracker.respond snapshots observed = some (s'.board, s'.tracker, lines) := by
  cases hrespond : s.tracker.respond snapshots observed with
  | none => simp [Session.observe, hrespond] at h
  | some told =>
      simp only [Session.observe, hrespond, bind, Option.bind, Option.some.injEq,
        Prod.mk.injEq] at h
      rcases h with ⟨rfl, rfl⟩
      rfl

theorem exists_respond_of_observe {snapshots : List Snapshot} {observed : Instant}
    (h : m.observe snapshots observed = some m') : exists lines,
      m.session.tracker.respond snapshots observed =
        some (m'.session.board, m'.session.tracker, lines) := by
  simp only [observe, Option.map_eq_some_iff, Prod.exists] at h
  rcases h with ⟨s, lines, hobserve, rfl⟩
  exact ⟨lines, respond_of_observe hobserve⟩

theorem Hears.responds {snapshots : List Snapshot} (h : m.Hears snapshots m') : m.Responds m' := by
  rcases h.exists_observe with ⟨answers, observed, lines, hobserve⟩
  exact ⟨snapshots, observed, lines, respond_of_observe (s := { m.session with answers }) hobserve⟩

theorem estimates_of_step (h : Step m m') :
    m'.estimates = m.estimates ∨ m'.estimates = (.empty, m.session.tracker.clear) ∨
      m.Responds m' := by
  rcases step_cases h with hmoves | ⟨stops, rfl⟩ | ⟨multiplier, -, -, hmoves⟩ | rfl |
    ⟨snapshots, hears⟩
  · exact Or.inl (Prod.ext hmoves.board hmoves.tracker)
  · exact Or.inl rfl
  · exact Or.inl (Prod.ext hmoves.board hmoves.tracker)
  · exact Or.inr (Or.inl rfl)
  · exact Or.inr (Or.inr hears.responds)

theorem Reachable.orderly (h : m.Reachable) : m.session.tracker.Orderly := by
  induction h with
  | new h clock sink feed journal =>
      rcases Session.new_eq_ok h with ⟨offset, -, rfl, -, -⟩
      exact Tracker.orderly_of_histories_nil rfl
  | step h hstep ih =>
      rcases estimates_of_step hstep with hsame | hclear | ⟨snapshots, observed, lines, htold⟩
      · rw [(Prod.mk.inj hsame).2]
        exact ih
      · rw [(Prod.mk.inj hclear).2]
        exact Tracker.orderly_of_histories_nil rfl
      · exact ih.respond htold

end Simulation
end TransitSim
