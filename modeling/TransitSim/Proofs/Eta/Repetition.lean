import TransitSim.Proofs.Eta.Agreement

/-!
# Repeating a response

A response that tells of each stop ahead once leaves in each of the histories an estimate of the
minute that it tells. Taken again, it finds these minutes, so that nothing is written down. This
needs no assumption about the state in which the response is taken first.
-/

namespace TransitSim

open Calendar

/-- Whether no two snapshots say that the same stop is ahead. -/
def DistinctAhead (snapshots : List Snapshot) : Prop :=
  ((snapshots.filter (·.status = .upcoming)).map (·.key)).Nodup

instance (snapshots : List Snapshot) : Decidable (DistinctAhead snapshots) :=
  inferInstanceAs (Decidable ((snapshots.filter (·.status = .upcoming)).map (·.key)).Nodup)

def Observation.withoutChange : Observation → Observation
  | .reached key arrived => .reached key arrived
  | .upcoming key eta _ changes => .upcoming key eta none changes

def BoardEntry.withoutChange (e : BoardEntry) : BoardEntry :=
  { e with minutes := none }

/-- A board that tells no changes. -/
def Board.withoutChanges (b : Board) : Board :=
  ⟨b.reached.map .withoutChange, b.upcoming.map .withoutChange⟩

/-!
# One snapshot
-/

theorem DistinctAhead.of_cons {s : Snapshot} {rest : List Snapshot}
    (h : DistinctAhead (s :: rest)) : DistinctAhead rest := by
  rw [DistinctAhead, List.filter_cons] at h
  split at h
  · exact (List.nodup_cons.mp h).2
  · exact h

theorem DistinctAhead.key_ne {s : Snapshot} {rest : List Snapshot} (h : DistinctAhead (s :: rest))
    (hs : s.status = .upcoming) : ∀ s' ∈ rest, s'.status = .upcoming → s'.key ≠ s.key := by
  intro s' hs' hahead heq
  have hkept : (s :: rest).filter (·.status = .upcoming) = s :: rest.filter (·.status = .upcoming) :=
    List.filter_cons_of_pos (decide_eq_true hs)
  rw [DistinctAhead, hkept, List.map_cons] at h
  apply (List.nodup_cons.mp h).1
  rw [← heq]
  exact List.mem_map_of_mem (List.mem_filter.mpr ⟨hs', decide_eq_true hahead⟩)

theorem Registry.put_of_find? {V : Type} {r : Registry V} {key : String} {value : V}
    (h : r.find? key = some value) : r.put key value = r := by
  induction r with
  | nil => cases h
  | cons e rest ih =>
      rcases e with ⟨k, v⟩
      rw [find?_cons] at h
      rw [put]
      split at h
      · rename_i hkey
        cases h
        rw [if_pos hkey]
      · rename_i hkey
        rw [if_neg hkey, ih h]

theorem History.observe_again (offset : Offset) (h : History) (eta observed observed' : Instant) :
    (h.observe offset eta observed).observe offset eta observed' = h.observe offset eta observed ∧
      (h.observe offset eta observed).change? offset eta observed' = none := by
  rcases last_observe offset h eta observed with ⟨last, hlast, hminute⟩
  exact observe_of_same observed' hlast hminute.symm

namespace Tracker

variable {t t' u : Tracker} {observed : Instant} {lines : Journal}

theorem observe_again {s : Snapshot} {o : Observation}
    (h : t.observe s observed = some (o, t', lines)) (hoffset : u.offset = t.offset)
    (hknown : s.status = .upcoming → u.history? s.key = t'.history? s.key) (observed' : Instant) :
    u.observe s observed' = some (o.withoutChange, u, []) := by
  rcases observe_cases h with ⟨eta, heta, ⟨hreached, rfl, -, -⟩ | ⟨before, -, hahead, rfl, rfl, -⟩⟩
  · simp only [observe, heta, hreached, bind, Option.bind]
    rfl
  · have hfound := hknown hahead
    rw [history?_put, if_pos rfl] at hfound
    rcases History.observe_again t.offset before eta observed observed' with ⟨hsame, hnone⟩
    simp only [observe, heta, hahead, bind, Option.bind, hfound, Option.getD_some, hoffset, hsame,
      hnone]
    rw [Registry.put_of_find? hfound, ← hoffset]
    rfl

theorem observeAll_again {snapshots : List Snapshot} {os : List Observation}
    (h : t.observeAll observed snapshots = some (os, t', lines))
    (hdistinct : DistinctAhead snapshots) (hoffset : u.offset = t.offset)
    (hknown : ∀ s ∈ snapshots, s.status = .upcoming → u.history? s.key = t'.history? s.key)
    (observed' : Instant) :
    u.observeAll observed' snapshots = some (os.map .withoutChange, u, []) := by
  induction snapshots generalizing t os lines with
  | nil =>
      cases h
      rfl
  | cons s rest ih =>
      rcases observeAll_cases h with ⟨o, t₁, first, others, remarks, hfirst, hrest, rfl, -⟩
      rcases List.forall_mem_cons.mp hknown with ⟨hhead, htail⟩
      have hkept : s.status = .upcoming → u.history? s.key = t₁.history? s.key := by
        intro hahead
        rw [hhead hahead]
        exact history?_observeAll hrest (hdistinct.key_ne hahead)
      have hagain := observe_again hfirst hoffset hkept observed'
      have hothers := ih hrest hdistinct.of_cons (hoffset.trans (offset_observe hfirst).symm) htail
      simp only [observeAll, hagain, hothers, bind, Option.bind]
      rfl

end Tracker

/-!
# Boards
-/

theorem BoardEntry.ofObservation_withoutChange (offset : Offset) (s : Snapshot) (o : Observation) :
    ofObservation offset s o.withoutChange = (ofObservation offset s o).withoutChange := by
  cases o <;> rfl

theorem Board.ofObservations_withoutChange (offset : Offset) (snapshots : List Snapshot)
    (os : List Observation) :
    ofObservations offset (snapshots.zip (os.map .withoutChange)) =
      (ofObservations offset (snapshots.zip os)).withoutChanges := by
  have hentries : ((snapshots.zip (os.map .withoutChange)).map fun pair =>
      BoardEntry.ofObservation offset pair.1 pair.2) =
      ((snapshots.zip os).map fun pair =>
        BoardEntry.ofObservation offset pair.1 pair.2).map .withoutChange := by
    rw [List.zip_map_right, List.map_map, List.map_map]
    apply List.map_congr_left
    intro pair _
    exact BoardEntry.ofObservation_withoutChange offset pair.1 pair.2
  simp only [ofObservations, hentries, withoutChanges, List.filter_map]
  rfl

theorem Board.withoutChanges_twice (b : Board) : b.withoutChanges.withoutChanges =
    b.withoutChanges := by
  simp only [withoutChanges, List.map_map]
  rfl

def Tracker.respondAgain (t : Tracker) (snapshots : List Snapshot) :
    List Instant → Option (List Board × Tracker × Journal)
  | [] => some ([], t, [])
  | observed :: rest => do
      let (board, t, first) ← t.respond snapshots observed
      let (boards, t, others) ← respondAgain t snapshots rest
      some (board :: boards, t, first ++ others)

def Tracker.IsFixed (t : Tracker) (b : Board) (snapshots : List Snapshot) : Prop :=
  ∀ observed, t.respond snapshots observed = some (b.withoutChanges, t, [])

theorem Tracker.isFixed_of_respond {t t' : Tracker} {snapshots : List Snapshot}
    {observed : Instant} {board : Board} {lines : Journal} (hdistinct : DistinctAhead snapshots)
    (h : t.respond snapshots observed = some (board, t', lines)) : t'.IsFixed board snapshots := by
  intro observed'
  rcases respond_cases h with ⟨os, hall, rfl⟩
  have hagain := observeAll_again hall hdistinct (offset_observeAll hall) (fun _ _ _ => rfl)
    observed'
  simp only [respond, hagain, bind, Option.bind, Board.ofObservations_withoutChange]

theorem Tracker.IsFixed.respondAgain {t : Tracker} {b : Board} {snapshots : List Snapshot}
    (h : t.IsFixed b snapshots) (times : List Instant) :
    t.respondAgain snapshots times =
      some (List.replicate times.length b.withoutChanges, t, []) := by
  induction times with
  | nil => rfl
  | cons observed rest ih =>
      simp only [Tracker.respondAgain, h observed, ih, bind, Option.bind]
      rfl

end TransitSim
