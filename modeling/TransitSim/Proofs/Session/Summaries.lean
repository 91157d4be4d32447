import Mathlib.Data.List.Nodup
import TransitSim.Proofs.Eta.Agreement
import TransitSim.Proofs.Route.Stops
import TransitSim.Proofs.Session.Names

/-!
# The order of summaries

Summaries are sorted by the place of their stop: by its number on the route, if it has one, and
otherwise by name, behind all that have one. Two stops may share their place. Sorting leaves such
stops in the order in which the histories happen to be enumerated, and they are the only ones for
which the enumeration matters.
-/

namespace TransitSim
namespace Session

/-!
# Places
-/

def Sooner : Option Nat → Option Nat → Prop
  | some m, some n => m < n
  | some _, none => True
  | none, _ => False

theorem Sooner.trans {l m n : Option Nat} (h : Sooner l m) (h' : Sooner m n) : Sooner l n := by
  cases l with
  | none => exact h.elim
  | some i =>
      cases m with
      | none => exact h'.elim
      | some j =>
          cases n with
          | none => trivial
          | some k => exact Nat.lt_trans h h'

theorem not_sooner_self (n : Option Nat) : ¬Sooner n n := by
  cases n with
  | none => exact id
  | some k => exact Nat.lt_irrefl k

theorem sooner_trichotomy (m n : Option Nat) : Sooner m n ∨ m = n ∨ Sooner n m := by
  cases m with
  | none =>
      cases n with
      | none => exact Or.inr (Or.inl rfl)
      | some k => exact Or.inr (Or.inr trivial)
  | some j =>
      cases n with
      | none => exact Or.inl trivial
      | some k =>
          rcases Nat.lt_trichotomy j k with h | rfl | h
          · exact Or.inl h
          · exact Or.inr (Or.inl rfl)
          · exact Or.inr (Or.inr h)

def place (stops : List Stop) (e : StopSummary) : Option Nat × String :=
  (sequence? stops e.key, e.name)

def NotBehind (p q : Option Nat × String) : Prop :=
  Sooner p.1 q.1 ∨ (p.1 = q.1 ∧ p.2 ≤ q.2)

namespace NotBehind

variable {p q r : Option Nat × String}

theorem trans (h : NotBehind p q) (h' : NotBehind q r) : NotBehind p r := by
  rcases h with hsooner | ⟨heq, hle⟩
  · rcases h' with hsooner' | ⟨heq', -⟩
    · exact Or.inl (hsooner.trans hsooner')
    · exact Or.inl (heq' ▸ hsooner)
  · rcases h' with hsooner' | ⟨heq', hle'⟩
    · exact Or.inl (heq ▸ hsooner')
    · exact Or.inr ⟨heq.trans heq', String.le_trans hle hle'⟩

theorem total (p q : Option Nat × String) : NotBehind p q ∨ NotBehind q p := by
  rcases sooner_trichotomy p.1 q.1 with h | h | h
  · exact Or.inl (Or.inl h)
  · rcases String.le_total p.2 q.2 with hle | hle
    · exact Or.inl (Or.inr ⟨h, hle⟩)
    · exact Or.inr (Or.inr ⟨h.symm, hle⟩)
  · exact Or.inr (Or.inl h)

theorem antisymm (h : NotBehind p q) (h' : NotBehind q p) : p = q := by
  rcases h with hsooner | ⟨heq, hle⟩
  · rcases h' with hsooner' | ⟨heq', -⟩
    · exact absurd (hsooner.trans hsooner') (not_sooner_self _)
    · exact absurd (heq' ▸ hsooner) (not_sooner_self _)
  · rcases h' with hsooner' | ⟨-, hle'⟩
    · exact absurd (heq ▸ hsooner') (not_sooner_self _)
    · exact Prod.ext heq (String.le_antisymm hle hle')

end NotBehind

variable {stops : List Stop} {names : Registry String} {histories : Registry History}

theorem not_decide_lt {a b : String} {d : Decidable (b < a)} :
    (!decide (b < a)) = true ↔ a ≤ b := by
  rw [Bool.not_eq_true', decide_eq_false_iff_not, String.not_lt]

theorem precedes_iff {a b : StopSummary} :
    precedes stops a b = true ↔ NotBehind (place stops a) (place stops b) := by
  simp only [precedes, NotBehind, place]
  cases sequence? stops a.key with
  | none =>
      cases sequence? stops b.key with
      | none => simp only [Sooner, not_decide_lt, false_or, true_and]
      | some n => simp [Sooner]
  | some m =>
      cases sequence? stops b.key with
      | none => simp [Sooner]
      | some n =>
          simp only [Sooner, Bool.or_eq_true, Bool.and_eq_true, decide_eq_true_eq, not_decide_lt,
            Option.some.injEq]

theorem precedes_trans (a b c : StopSummary) (h : precedes stops a b = true)
    (h' : precedes stops b c = true) : precedes stops a c = true :=
  precedes_iff.mpr ((precedes_iff.mp h).trans (precedes_iff.mp h'))

theorem precedes_total (a b : StopSummary) :
    (precedes stops a b || precedes stops b a) = true := by
  rw [Bool.or_eq_true, precedes_iff, precedes_iff]
  exact NotBehind.total _ _

/-!
# Sorted summaries
-/

theorem pairwise_summariesOf (stops : List Stop) (names : Registry String)
    (histories : Registry History) :
    (summariesOf stops names histories).Pairwise fun a b =>
      NotBehind (place stops a) (place stops b) :=
  (List.pairwise_mergeSort precedes_trans precedes_total _).imp precedes_iff.mp

theorem perm_summariesOf (stops : List Stop) (names : Registry String)
    (histories : Registry History) :
    (summariesOf stops names histories).Perm
      (histories.map fun e => stopSummary names e.1 e.2) :=
  List.mergeSort_perm _ _

theorem map_key_summariesOf (stops : List Stop) (names : Registry String)
    (histories : Registry History) :
    ((summariesOf stops names histories).map (·.key)).Perm histories.keys := by
  have hkeys : (histories.map fun e => stopSummary names e.1 e.2).map (·.key) = histories.keys := by
    rw [List.map_map]
    rfl
  exact hkeys ▸ (perm_summariesOf stops names histories).map _

theorem summariesOf_congr {names' : Registry String}
    (h : ∀ key, names'.find? key = names.find? key) :
    summariesOf stops names' histories = summariesOf stops names histories := by
  have hsame : stopSummary names' = stopSummary names := by
    funext key known
    rw [stopSummary, stopSummary, h]
  rw [summariesOf, summariesOf, hsame]

/-- Whether two stops have the same place. -/
def Ties (stops : List Stop) (names : Registry String) (key key' : String) : Prop :=
  sequence? stops key = sequence? stops key' ∧
    (names.find? key).getD key = (names.find? key').getD key'

instance (stops : List Stop) (names : Registry String) (key key' : String) :
    Decidable (Ties stops names key key') :=
  inferInstanceAs (Decidable (_ ∧ _))

theorem summariesOf_perm {histories' : Registry History} (hperm : histories'.Perm histories) :
    (summariesOf stops names histories').Perm (summariesOf stops names histories) :=
  (perm_summariesOf _ _ _).trans ((hperm.map _).trans (perm_summariesOf _ _ _).symm)

theorem summariesOf_eq_of_perm (hnodup : histories.keys.Nodup)
    (hties : ∀ key ∈ histories.keys, ∀ key' ∈ histories.keys, Ties stops names key key' →
      key = key')
    {histories' : Registry History} (hperm : histories'.Perm histories) :
    summariesOf stops names histories' = summariesOf stops names histories := by
  have hsummaries : (summariesOf stops names histories').Perm (summariesOf stops names histories) :=
    summariesOf_perm hperm
  refine List.Perm.eq_of_pairwise ?_ (pairwise_summariesOf _ _ _) (pairwise_summariesOf _ _ _)
    hsummaries
  intro a b ha hb hab hba
  have hplace := hab.antisymm hba
  rcases List.mem_map.mp ((perm_summariesOf _ _ _).mem_iff.mp (hsummaries.mem_iff.mp ha)) with
    ⟨⟨key, known⟩, hmem, rfl⟩
  rcases List.mem_map.mp ((perm_summariesOf _ _ _).mem_iff.mp hb) with ⟨⟨key', known'⟩, hmem', rfl⟩
  have hkey : key = key' :=
    hties key (List.mem_map.mpr ⟨_, hmem, rfl⟩) key' (List.mem_map.mpr ⟨_, hmem', rfl⟩)
      ⟨congrArg Prod.fst hplace, congrArg Prod.snd hplace⟩
  subst hkey
  have hknown := Registry.find?_of_mem hnodup hmem
  rw [Registry.find?_of_mem hnodup hmem', Option.some.injEq] at hknown
  rw [hknown]

theorem map_place_summariesOf {histories' : Registry History}
    (hperm : histories'.Perm histories) :
    (summariesOf stops names histories').map (place stops) =
      (summariesOf stops names histories).map (place stops) := by
  refine List.Perm.eq_of_pairwise (fun p q _ _ => NotBehind.antisymm) ?_ ?_
    ((summariesOf_perm hperm).map _)
  · exact List.pairwise_map.mpr (pairwise_summariesOf _ _ _)
  · exact List.pairwise_map.mpr (pairwise_summariesOf _ _ _)

/-!
# Stops with the same place
-/

theorem not_sublist_swap {α : Type} {a b : α} {l : List α} (hl : l.Nodup)
    (h : [a, b].Sublist l) : ¬[b, a].Sublist l := by
  induction l with
  | nil => cases h
  | cons x rest ih =>
      have hparts := List.nodup_cons.mp hl
      intro h'
      cases h with
      | cons _ hab =>
          cases h' with
          | cons _ hba => exact ih hparts.2 hab hba
          | cons_cons _ _ => exact hparts.1 (hab.subset (by simp))
      | cons_cons _ hb =>
          cases h' with
          | cons _ hba => exact hparts.1 (hba.subset (by simp))
          | cons_cons _ ha => exact hparts.1 (ha.subset (by simp))

theorem pair_sublist_of_mem {α : Type} {a b : α} {l : List α} (ha : a ∈ l) (hb : b ∈ l)
    (hne : a ≠ b) : [a, b].Sublist l ∨ [b, a].Sublist l := by
  induction l with
  | nil => cases ha
  | cons x rest ih =>
      rcases List.mem_cons.mp ha with rfl | ha
      · rcases List.mem_cons.mp hb with rfl | hb
        · exact absurd rfl hne
        · exact Or.inl ((List.singleton_sublist.mpr hb).cons_cons _)
      · rcases List.mem_cons.mp hb with hb | hb
        · rw [hb]
          exact Or.inr ((List.singleton_sublist.mpr ha).cons_cons x)
        · exact (ih ha hb).imp (fun h => h.cons x) fun h => h.cons x

theorem pair_sublist_summariesOf {e e' : String × History} (hties : Ties stops names e.1 e'.1)
    (h : [e, e'].Sublist histories) :
    [stopSummary names e.1 e.2, stopSummary names e'.1 e'.2].Sublist
      (summariesOf stops names histories) := by
  have hname : (names.find? e.1).getD e.1 ≤ (names.find? e'.1).getD e'.1 := by
    simp only [hties.2, String.le_refl]
  have hle : precedes stops (stopSummary names e.1 e.2) (stopSummary names e'.1 e'.2) = true :=
    precedes_iff.mpr (Or.inr ⟨hties.1, hname⟩)
  have hmap := h.map fun (e : String × History) => stopSummary names e.1 e.2
  exact List.pair_sublist_mergeSort precedes_trans precedes_total hle hmap

theorem summariesOf_reverse_ne (hnodup : histories.keys.Nodup) {key key' : String}
    (hkey : key ∈ histories.keys) (hkey' : key' ∈ histories.keys) (hne : key ≠ key')
    (hties : Ties stops names key key') :
    summariesOf stops names histories.reverse ≠ summariesOf stops names histories := by
  intro hsame
  rcases List.mem_map.mp hkey with ⟨e, hmem, rfl⟩
  rcases List.mem_map.mp hkey' with ⟨e', hmem', rfl⟩
  have hties' : Ties stops names e'.1 e.1 := ⟨hties.1.symm, hties.2.symm⟩
  have hdistinct : (summariesOf stops names histories).Nodup :=
    (List.pairwise_map.mp ((map_key_summariesOf stops names histories).nodup_iff.mpr hnodup)).imp
      fun hne heq => hne (congrArg StopSummary.key heq)
  -- The sort is stable, so the two stand in the list as they were enumerated: either way round.
  rcases pair_sublist_of_mem hmem hmem' fun heq => hne (congrArg Prod.fst heq) with hpair | hpair
  · have hreverse := pair_sublist_summariesOf hties' hpair.reverse
    rw [hsame] at hreverse
    exact not_sublist_swap hdistinct (pair_sublist_summariesOf hties hpair) hreverse
  · have hreverse := pair_sublist_summariesOf hties hpair.reverse
    rw [hsame] at hreverse
    exact not_sublist_swap hdistinct (pair_sublist_summariesOf hties' hpair) hreverse

/-!
# Places on a route
-/

theorem eq_of_sequence? (hnumbers : (stops.map (·.sequence)).Nodup) {key key' : String} {n : Nat}
    (h : sequence? stops key = some n) (h' : sequence? stops key' = some n) : key = key' := by
  rcases Option.map_eq_some_iff.mp h with ⟨stop, hstop, hn⟩
  rcases Option.map_eq_some_iff.mp h' with ⟨stop', hstop', hn'⟩
  rcases key_of_lastStop? hstop with ⟨hmem, hkey⟩
  rcases key_of_lastStop? hstop' with ⟨hmem', hkey'⟩
  have hsame : stop = stop' := List.inj_on_of_nodup_map hnumbers hmem hmem' (hn.trans hn'.symm)
  rw [← hkey, ← hkey', hsame]

theorem nodup_sequence_of_text {text : String} {route : Route}
    (h : (Route.ofText text).2 = .ok (route, stops)) : (stops.map (·.sequence)).Nodup := by
  rcases Route.stops_of_text h with ⟨doc, -, -, hnumbers⟩
  rw [hnumbers]
  exact List.nodup_range' 1

/-- Names and histories as a session has them, enumerated in any order. -/
structure Enumerates (s : Session) (names : Registry String) (histories : Registry History) :
    Prop where
  names : ∀ key, names.find? key = s.names.find? key
  histories : histories.Perm s.tracker.histories

end Session

def Snapshot.ahead (key : String) (name : Option String) : Snapshot :=
  ⟨key, name, ⟨0, 0⟩, 0, .upcoming⟩

namespace Simulation

variable {m : Simulation}

/-- In every state, the summaries are the same for all orders of enumeration exactly if no two
tracked stops have the same place. In any case, all orders give the same stops, and at each
position of the list the same number and name. Of the stops that a document gives, no two have the
same place, so that a tie is one between two stops of one name off the route. -/
theorem summaries_determined_iff (hm : m.Reachable) :
    ((∀ names histories, m.session.Enumerates names histories →
        Session.summariesOf m.session.stops names histories = m.session.summaries) ↔
      ∀ key ∈ m.session.tracker.histories.keys, ∀ key' ∈ m.session.tracker.histories.keys,
        Session.Ties m.session.stops m.session.names key key' → key = key') ∧
    (∀ names histories, m.session.Enumerates names histories →
      (Session.summariesOf m.session.stops names histories).Perm m.session.summaries ∧
        (Session.summariesOf m.session.stops names histories).map (Session.place m.session.stops) =
          m.session.summaries.map (Session.place m.session.stops)) ∧
    ∀ text route, (Route.ofText text).2 = .ok (route, m.session.stops) → ∀ key key',
      Session.Ties m.session.stops m.session.names key key' →
        key = key' ∨ Session.sequence? m.session.stops key = none := by
  have hnodup := hm.orderly.keys
  refine ⟨⟨?_, ?_⟩, ?_, ?_⟩
  · intro hsame key hkey key' hkey' hties
    by_contra hne
    exact Session.summariesOf_reverse_ne hnodup hkey hkey' hne hties
      (hsame _ _ ⟨fun _ => rfl, List.reverse_perm _⟩)
  · intro hties names histories henumerates
    rw [Session.summariesOf_congr henumerates.names]
    exact Session.summariesOf_eq_of_perm hnodup hties henumerates.histories
  · intro names histories henumerates
    rw [Session.summariesOf_congr henumerates.names]
    exact ⟨Session.summariesOf_perm henumerates.histories,
      Session.map_place_summariesOf henumerates.histories⟩
  · intro text route htext key key' hties
    cases hnumber : Session.sequence? m.session.stops key with
    | none => exact Or.inr rfl
    | some n =>
        exact Or.inl (Session.eq_of_sequence? (Session.nodup_sequence_of_text htext) hnumber
          (hties.1.symm.trans hnumber))

theorem summaries_determined_iff_two :
    exists m, (standard (.playback .lone) .silent).observe
        [Snapshot.ahead "quay" (some "Quay"), Snapshot.ahead "mill" none] ⟨0, 0⟩ = some m ∧
      m.Reachable ∧ ∀ names histories, m.session.Enumerates names histories →
        Session.summariesOf m.session.stops names histories = m.session.summaries := by
  have hobserved : ((standard (.playback .lone) .silent).observe
      [Snapshot.ahead "quay" (some "Quay"), Snapshot.ahead "mill" none] ⟨0, 0⟩).map (fun m =>
        decide (∀ key ∈ m.session.tracker.histories.keys,
          ∀ key' ∈ m.session.tracker.histories.keys,
            Session.Ties m.session.stops m.session.names key key' → key = key')) = some true := by
    decide +kernel
  rcases Option.map_eq_some_iff.mp hobserved with ⟨m, hm, hties⟩
  have hreachable : m.Reachable := (reachable_standard _ _).step (.observe hm)
  exact ⟨m, hm, hreachable, (summaries_determined_iff hreachable).1.mpr (of_decide_eq_true hties)⟩

def namesakes : List Snapshot :=
  (List.range 12).map (fun i => Snapshot.ahead (toString i) none) ++
    [Snapshot.ahead "quay-west" (some "Quay"), Snapshot.ahead "quay-east" (some "Quay")]

/-- After one response, two orders of enumeration give two lists. -/
theorem summaries_of_namesakes :
    exists m, (standard (.playback .lone) .silent).observe namesakes ⟨0, 0⟩ = some m ∧
      m.Reachable ∧
      m.session.Enumerates m.session.names m.session.tracker.histories.reverse ∧
      Session.summariesOf m.session.stops m.session.names m.session.tracker.histories.reverse ≠
        m.session.summaries := by
  have hobserved : ((standard (.playback .lone) .silent).observe namesakes ⟨0, 0⟩).map (fun m =>
      decide ("quay-west" ∈ m.session.tracker.histories.keys ∧
        "quay-east" ∈ m.session.tracker.histories.keys ∧
          Session.Ties m.session.stops m.session.names "quay-west" "quay-east")) = some true := by
    decide +kernel
  rcases Option.map_eq_some_iff.mp hobserved with ⟨m, hm, hboth⟩
  rcases of_decide_eq_true hboth with ⟨hwest, heast, hties⟩
  have hreachable : m.Reachable := (reachable_standard _ _).step (.observe hm)
  exact ⟨m, hm, hreachable, ⟨fun _ => rfl, List.reverse_perm _⟩,
    Session.summariesOf_reverse_ne hreachable.orderly.keys hwest heast (by decide) hties⟩

end Simulation
end TransitSim
