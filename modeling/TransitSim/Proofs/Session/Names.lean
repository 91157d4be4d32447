import Mathlib.Data.List.Induction
import TransitSim.Proofs.Eta.Orderly
import TransitSim.Session.Summary

/-!
# What a session has heard of stops

A session has names from two sources. Those of the route come first: of stops with the same key the
last one gives the name, and no response takes it away. Any other stop is called by the first name
that a response gave for it, also one that tells only that the stop was reached, and also one from
before a reset. Estimates, on the other hand, are those of the responses since the last reset.
-/

namespace TransitSim

namespace Registry

variable {V : Type}

theorem find?_putNew (r : Registry V) (key : String) (value : V) (k : String) :
    (r.putNew key value).find? k = (r.find? k).or (if k = key then some value else none) := by
  cases hfound : r.find? key with
  | some v =>
      simp only [putNew, hfound]
      split
      · rename_i hkey
        rw [hkey, hfound, Option.some_or]
      · rw [Option.or_none]
  | none =>
      simp only [putNew, hfound, find?_put]
      split
      · rename_i hkey
        rw [hkey, hfound, Option.none_or]
      · rw [Option.or_none]

end Registry

namespace Session

/-!
# Names
-/

def lastStop? (stops : List Stop) (key : String) : Option Stop :=
  stops.reverse.find? fun stop => stop.key = key

def firstName? (snapshots : List Snapshot) (key : String) : Option String :=
  snapshots.findSome? fun s => if s.key = key then s.name else none

theorem key_of_lastStop? {stops : List Stop} {key : String} {stop : Stop}
    (h : lastStop? stops key = some stop) : stop ∈ stops ∧ stop.key = key := by
  have hkey := List.find?_some h
  exact ⟨List.mem_reverse.mp (List.mem_of_find?_eq_some h), by simpa using hkey⟩

theorem lastStop?_append_singleton (stops : List Stop) (last : Stop) (key : String) :
    lastStop? (stops ++ [last]) key =
      if last.key = key then some last else lastStop? stops key := by
  rw [lastStop?, List.reverse_append, List.reverse_singleton, List.singleton_append,
    List.find?_cons]
  by_cases hkey : last.key = key <;> simp [hkey, lastStop?]

theorem find?_stopNames (stops : List Stop) (key : String) :
    (stopNames stops).find? key = (lastStop? stops key).map (·.name) := by
  induction stops using List.reverseRecOn with
  | nil => rfl
  | append_singleton init last ih =>
      have hput : stopNames (init ++ [last]) = (stopNames init).put last.key last.name := by
        rw [stopNames, List.foldl_append]
        rfl
      rw [hput, Registry.find?_put, ih, lastStop?_append_singleton]
      by_cases hkey : last.key = key
      · simp [hkey]
      · simp [hkey, Ne.symm hkey]

theorem find?_learnNames (names : Registry String) (snapshots : List Snapshot) (key : String) :
    (learnNames names snapshots).find? key = (names.find? key).or (firstName? snapshots key) := by
  induction snapshots generalizing names with
  | nil => rw [firstName?, List.findSome?_nil, Option.or_none, learnNames, List.foldl_nil]
  | cons s rest ih =>
      rw [learnNames, List.foldl_cons]
      cases hname : s.name with
      | none =>
          refine (ih names).trans ?_
          simp [firstName?, hname]
      | some name =>
          refine (ih (names.putNew s.key name)).trans ?_
          rw [Registry.find?_putNew, Option.or_assoc]
          by_cases hkey : key = s.key
          · simp [firstName?, hname, hkey]
          · simp [firstName?, hkey, Ne.symm hkey]

theorem firstName?_append (earlier later : List Snapshot) (key : String) :
    firstName? (earlier ++ later) key = (firstName? earlier key).or (firstName? later key) :=
  List.findSome?_append

end Session

/-!
# Stops ahead
-/

def IsAhead (snapshots : List Snapshot) (key : String) : Prop :=
  exists s, s ∈ snapshots ∧ s.key = key ∧ s.status = .upcoming

theorem isAhead_append {earlier later : List Snapshot} {key : String} :
    IsAhead (earlier ++ later) key ↔ IsAhead earlier key ∨ IsAhead later key := by
  simp only [IsAhead, List.mem_append, or_and_right, exists_or]

theorem isAhead_cons {s : Snapshot} {rest : List Snapshot} {key : String} :
    IsAhead (s :: rest) key ↔ (s.key = key ∧ s.status = .upcoming) ∨ IsAhead rest key := by
  simp only [IsAhead, List.mem_cons, or_and_right, exists_or, exists_eq_left]

namespace Tracker

variable {t t' : Tracker} {observed : Calendar.Instant} {lines : Journal}

theorem mem_keys_observe {s : Snapshot} {o : Observation}
    (h : t.observe s observed = some (o, t', lines)) {key : String} :
    key ∈ t'.histories.keys ↔ key ∈ t.histories.keys ∨ (s.key = key ∧ s.status = .upcoming) := by
  rcases observe_cases h with ⟨eta, -, ⟨hstatus, -, rfl, -⟩ | ⟨before, -, hstatus, -, rfl, -⟩⟩
  · simp [hstatus]
  · simp only [Registry.mem_keys_put, hstatus, and_true]
    rw [or_comm, eq_comm]

theorem mem_keys_observeAll {snapshots : List Snapshot} {os : List Observation}
    (h : t.observeAll observed snapshots = some (os, t', lines)) {key : String} :
    key ∈ t'.histories.keys ↔ key ∈ t.histories.keys ∨ IsAhead snapshots key := by
  induction snapshots generalizing t os lines with
  | nil =>
      cases h
      simp [IsAhead]
  | cons s rest ih =>
      rcases observeAll_cases h with ⟨o, t₁, first, others, remarks, hfirst, hrest, -, -⟩
      rw [ih hrest, mem_keys_observe hfirst, isAhead_cons, or_assoc]

end Tracker

namespace Simulation

variable {m₀ m m' : Simulation}

/-!
# Responses and resets
-/

def lore (m : Simulation) : List Stop × Registry String × Tracker :=
  (m.session.stops, m.session.names, m.session.tracker)

theorem lore_of_observe {s s' : Session} {snapshots : List Snapshot}
    {observed : Calendar.Instant} {lines : Journal}
    (h : s.observe snapshots observed = some (s', lines)) :
    s'.stops = s.stops ∧ s'.names = Session.learnNames s.names snapshots := by
  cases hrespond : s.tracker.respond snapshots observed with
  | none => simp [Session.observe, hrespond] at h
  | some told =>
      simp only [Session.observe, hrespond, bind, Option.bind, Option.some.injEq,
        Prod.mk.injEq] at h
      rcases h with ⟨rfl, -⟩
      exact ⟨rfl, rfl⟩

theorem Hears.lore {snapshots : List Snapshot} (h : m.Hears snapshots m') :
    m'.session.stops = m.session.stops ∧
      m'.session.names = Session.learnNames m.session.names snapshots ∧
        exists observed lines, m.session.tracker.respond snapshots observed =
          some (m'.session.board, m'.session.tracker, lines) := by
  rcases h.exists_observe with ⟨answers, observed, lines, hobserve⟩
  rcases lore_of_observe hobserve with ⟨hstops, hnames⟩
  exact ⟨hstops, hnames, observed, lines,
    respond_of_observe (s := { m.session with answers }) hobserve⟩

theorem lore_of_step (h : Step m m') :
    m'.lore = m.lore ∨ (exists stops, m' = { m with session := m.session.withStops stops }) ∨
      m' = m.reset ∨ exists snapshots, m.Hears snapshots m' := by
  rcases step_cases h with hmoves | hstops | ⟨multiplier, -, -, hmoves⟩ | hreset | hears
  · exact Or.inl (Prod.ext hmoves.stops (Prod.ext hmoves.names hmoves.tracker))
  · exact Or.inr (Or.inl hstops)
  · exact Or.inl (Prod.ext hmoves.stops (Prod.ext hmoves.names hmoves.tracker))
  · exact Or.inr (Or.inr (Or.inl hreset))
  · exact Or.inr (Or.inr (Or.inr hears))

/-!
# What has been heard
-/

/-- What a session has heard on its way from one state to another: all snapshots, and those since
the last reset. -/
inductive Heard (m₀ : Simulation) : List Snapshot → List Snapshot → Simulation → Prop where
  | nothing : Heard m₀ [] [] m₀
  | quiet {all recent : List Snapshot} {m m' : Simulation} (h : Heard m₀ all recent m)
      (hstep : Step m m') (hlore : m'.lore = m.lore) : Heard m₀ all recent m'
  | response {all recent snapshots : List Snapshot} {m m' : Simulation}
      (h : Heard m₀ all recent m) (hears : m.Hears snapshots m') :
      Heard m₀ (all ++ snapshots) (recent ++ snapshots) m'
  | reset {all recent : List Snapshot} {m : Simulation} (h : Heard m₀ all recent m) :
      Heard m₀ all [] m.reset

namespace Heard

variable {all recent : List Snapshot}

theorem of_step (h : Heard m₀ all recent m) (hstep : Step m m') :
    (exists stops, m' = { m with session := m.session.withStops stops }) ∨
      exists all' recent', Heard m₀ all' recent' m' := by
  rcases lore_of_step hstep with hlore | hstops | rfl | ⟨snapshots, hears⟩
  · exact Or.inr ⟨_, _, h.quiet hstep hlore⟩
  · exact Or.inl hstops
  · exact Or.inr ⟨_, _, h.reset⟩
  · exact Or.inr ⟨_, _, h.response hears⟩

theorem reachable (h : Heard m₀ all recent m) (hm₀ : m₀.Reachable) : m.Reachable := by
  induction h with
  | nothing => exact hm₀
  | quiet h hstep hlore ih => exact ih.step hstep
  | response h hears ih => exact ih.step hears.step
  | reset h ih => exact ih.step (.reset _)

theorem stops (h : Heard m₀ all recent m) : m.session.stops = m₀.session.stops := by
  induction h with
  | nothing => rfl
  | quiet h hstep hlore ih => exact (Prod.mk.inj hlore).1.trans ih
  | response h hears ih => exact hears.lore.1.trans ih
  | reset h ih => exact ih

theorem find?_names (h : Heard m₀ all recent m) (key : String) :
    m.session.names.find? key = (m₀.session.names.find? key).or (Session.firstName? all key) := by
  induction h with
  | nothing => rw [Session.firstName?, List.findSome?_nil, Option.or_none]
  | quiet h hstep hlore ih =>
      rw [(Prod.mk.inj (Prod.mk.inj hlore).2).1]
      exact ih
  | response h hears ih =>
      rw [hears.lore.2.1, Session.find?_learnNames, ih, Session.firstName?_append,
        Option.or_assoc]
  | reset h ih => exact ih

theorem mem_keys (h : Heard m₀ all recent m) (hm₀ : m₀.session.tracker.histories = [])
    (key : String) : key ∈ m.session.tracker.histories.keys ↔ IsAhead recent key := by
  induction h with
  | nothing => simp [hm₀, Registry.keys, IsAhead]
  | quiet h hstep hlore ih =>
      rw [(Prod.mk.inj (Prod.mk.inj hlore).2).2]
      exact ih
  | response h hears ih =>
      rcases hears.lore.2.2 with ⟨observed, lines, hrespond⟩
      rcases Tracker.respond_cases hrespond with ⟨os, hall, -⟩
      rw [Tracker.mem_keys_observeAll hall, ih, isAhead_append]
  | @reset all recent m h ih =>
      have hnothing : m.reset.session.tracker.histories = [] := rfl
      simp [hnothing, Registry.keys, IsAhead]

end Heard
end Simulation
end TransitSim
