import TransitSim.Proofs.Session.Summaries

/-!
# What the summaries tell

The summaries of a session that was given the stops of a document are told from the document and
from the responses alone: which stops there are, in which order, and by which names. The responses
are those that the session has heard since it was given the stops; of the estimates in them, those
count that came after the last reset, and of the names all.
-/

namespace TransitSim

/-- Whether the summaries of a session with the stops of a route tell what it has heard: all
snapshots, and those since the last reset. -/
structure Session.Recounts (s : Session) (stops : List Stop) (all recent : List Snapshot) :
    Prop where
  nodup : (s.summaries.map (·.key)).Nodup
  mem_iff : ∀ key, key ∈ s.summaries.map (·.key) ↔ IsAhead recent key
  order : s.summaries.Pairwise fun a b =>
    Sooner (sequence? stops a.key) (sequence? stops b.key) ∨
      (lastStop? stops a.key = none ∧ lastStop? stops b.key = none ∧ a.name ≤ b.name)
  name_of_stop : ∀ e ∈ s.summaries, ∀ stop, lastStop? stops e.key = some stop → e.name = stop.name
  name_of_other : ∀ e ∈ s.summaries, lastStop? stops e.key = none →
    e.name = (firstName? all e.key).getD e.key
  estimates : ∀ e ∈ s.summaries, exists known, s.tracker.history? e.key = some known ∧
    e.last = known.last ∧ e.summary = s.tracker.summarize e.key

namespace Simulation

variable {m₀ m : Simulation} {all recent : List Snapshot}

structure IsFresh (m : Simulation) (stops : List Stop) : Prop where
  reachable : m.Reachable
  names : m.session.names = Session.stopNames stops
  stops : m.session.stops = stops
  histories : m.session.tracker.histories = []

theorem isFresh_withStops {config : Config} {source : Source} {s : Session}
    (h : Session.new config source = .ok s) (stops : List Stop) (clock : Clock) (sink : Sink)
    (feed : Feed) (journal : Journal) :
    IsFresh ⟨s.withStops stops, clock, sink, feed, journal⟩ stops where
  reachable := (Reachable.new h clock sink feed journal).step (.withStops _ stops)
  names := rfl
  stops := rfl
  histories := by
    rcases Session.new_eq_ok h with ⟨offset, -, rfl, -, -⟩
    rfl

theorem Heard.name_eq {stops : List Stop} (h : Heard m₀ all recent m) (hm₀ : m₀.IsFresh stops)
    {e : StopSummary} (he : e ∈ m.session.summaries) :
    e.name = (((Session.lastStop? stops e.key).map (·.name)).or
      (Session.firstName? all e.key)).getD e.key := by
  rcases Session.mem_summaries_iff.mp he with ⟨key, known, -, rfl⟩
  show (m.session.names.find? key).getD key = _
  rw [h.find?_names, hm₀.names, Session.find?_stopNames]
  rfl

theorem Heard.recounts {stops : List Stop} (h : Heard m₀ all recent m) (hm₀ : m₀.IsFresh stops)
    (hnumbers : (stops.map (·.sequence)).Nodup) : m.session.Recounts stops all recent := by
  have horderly := (h.reachable hm₀.reachable).orderly
  have hkeys : (m.session.summaries.map (·.key)).Perm m.session.tracker.histories.keys :=
    Session.map_key_summariesOf _ _ _
  have hnodup := hkeys.nodup_iff.mpr horderly.keys
  have hstops : m.session.stops = stops := h.stops.trans hm₀.stops
  constructor
  case nodup => exact hnodup
  case mem_iff =>
    intro key
    rw [hkeys.mem_iff, h.mem_keys hm₀.histories]
  case order =>
    have hsorted := Session.pairwise_summariesOf m.session.stops m.session.names
      m.session.tracker.histories
    refine (hsorted.and (List.pairwise_map.mp hnodup)).imp ?_
    rw [hstops]
    rintro a b ⟨hsooner | ⟨hnumber, hname⟩, hne⟩
    · exact Or.inl hsooner
    · have hnumber : Session.sequence? stops a.key = Session.sequence? stops b.key := hnumber
      cases hb : Session.sequence? stops b.key with
      | none =>
          exact Or.inr ⟨Option.map_eq_none_iff.mp (hnumber.trans hb),
            Option.map_eq_none_iff.mp hb, hname⟩
      | some n =>
          exact absurd (Session.eq_of_sequence? hnumbers (hnumber.trans hb) hb) hne
  case name_of_stop =>
    intro e he stop hstop
    rw [h.name_eq hm₀ he, hstop, Option.map_some, Option.some_or, Option.getD_some]
  case name_of_other =>
    intro e he hnone
    rw [h.name_eq hm₀ he, hnone, Option.map_none, Option.none_or]
  case estimates =>
    intro e he
    rcases Session.mem_summaries_iff.mp he with ⟨key, known, hmem, rfl⟩
    have hknown : m.session.tracker.history? key = some known :=
      Registry.find?_of_mem horderly.keys hmem
    refine ⟨known, hknown, rfl, ?_⟩
    rw [Session.stopSummary, Tracker.summarize, hknown]

/-- For every document from which a route can be read, and for every session that is given its
stops, the summaries tell what has been heard since, whatever else has happened. The stops are the
points of the document, and a record of a response with the two numbers of a point has the key of
its stop. Every response within the calendar is heard, and no step but to be given other stops
leads to a state of which this could not be said. -/
theorem summaries_of_heard {text : String} {route : Route} {stops : List Stop} {config : Config}
    {source : Source} {s : Session} {clock : Clock} {sink : Sink} {feed : Feed} {journal : Journal}
    (hroute : (Route.ofText text).2 = .ok (route, stops)) (hnew : Session.new config source = .ok s)
    (h : Heard ⟨s.withStops stops, clock, sink, feed, journal⟩ all recent m) :
    m.session.Recounts stops all recent ∧
    (exists doc, Json.ofText? text = some doc ∧
      List.Forall₂ (fun feature stop => Route.Describes feature stop ∧
          ∀ lon lat record snapshot, GeoJson.IsAt feature lon lat →
            Response.IsAt record lat.toFloat lon.toFloat →
              Response.snapshot? record = some snapshot → snapshot.key = stop.key)
        ((GeoJson.featuresIn doc).filter GeoJson.isPoint) stops) ∧
    (∀ snapshots observed, (∀ snapshot ∈ snapshots, snapshot.InCalendar) →
      exists m', m.observe snapshots observed = some m' ∧
        Heard ⟨s.withStops stops, clock, sink, feed, journal⟩ (all ++ snapshots)
          (recent ++ snapshots) m') ∧
    ∀ m', Step m m' →
      (exists others, m' = { m with session := m.session.withStops others }) ∨
        exists all' recent',
          Heard ⟨s.withStops stops, clock, sink, feed, journal⟩ all' recent' m' := by
  refine ⟨?_, ?_, ?_, fun m' hstep => h.of_step hstep⟩
  · exact h.recounts (isFresh_withStops hnew stops clock sink feed journal)
      (Session.nodup_sequence_of_text hroute)
  · rcases Route.stops_of_text hroute with ⟨doc, hdoc, hstops, -⟩
    refine ⟨doc, hdoc, hstops.imp fun feature stop hstop => ⟨hstop, ?_⟩⟩
    intro lon lat record snapshot hfeature hrecord hsnapshot
    exact Route.key_of_record hstop hfeature hrecord hsnapshot
  · intro snapshots observed hall
    cases hobserve : m.observe snapshots observed with
    | none =>
        rcases observe_eq_none_iff.mp hobserve with ⟨snapshot, hmem, hbeyond⟩
        exact absurd (hall snapshot hmem) hbeyond
    | some m' => exact ⟨m', rfl, h.response (Or.inl ⟨observed, hobserve⟩)⟩

end Simulation

namespace Route

def harbour : String :=
  "\x7b\"type\":\"FeatureCollection\",\"features\":[" ++
  "\x7b\"type\":\"Feature\",\"geometry\":" ++
  "\x7b\"type\":\"LineString\",\"coordinates\":[[0,0],[2,1]]\x7d\x7d," ++
  "\x7b\"type\":\"Feature\",\"properties\":\x7b\"Stop Name\":\"Pier\"\x7d," ++
  "\"geometry\":\x7b\"type\":\"Point\",\"coordinates\":[2,1]\x7d\x7d]\x7d"

theorem stops_harbour :
    (ofText harbour).2.toOption.map (·.2.map fun stop => (stop.key, stop.name)) =
      some [("1-2", "Pier")] := by
  decide +kernel

theorem exists_harbour :
    exists route stop, (ofText harbour).2 = .ok (route, [stop]) ∧ stop.key = "1-2" ∧
      stop.name = "Pier" := by
  have hread := stops_harbour
  cases hresult : (ofText harbour).2 with
  | error e => simp [hresult, Except.toOption] at hread
  | ok read =>
      rcases read with ⟨route, stops⟩
      simp only [hresult, Except.toOption, Option.map_some, Option.some.injEq] at hread
      rcases List.map_eq_singleton_iff.mp hread with ⟨stop, rfl, hstop⟩
      rcases Prod.mk.inj hstop with ⟨hkey, hname⟩
      exact ⟨route, stop, rfl, hkey, hname⟩

end Route

namespace Simulation

def harbourTold : List Snapshot × List Snapshot :=
  ([Snapshot.ahead "ferry" (some "Dock")],
    [Snapshot.ahead "ferry" none, Snapshot.ahead "1-2" (some "Steps")])

theorem inCalendar_harbourTold :
    ∀ snapshot ∈ harbourTold.1 ++ harbourTold.2, snapshot.InCalendar := by
  have hall : (harbourTold.1 ++ harbourTold.2).all (·.final?.isSome) = true := by
    decide +kernel
  intro snapshot hmem
  exact Option.isSome_iff_ne_none.mp (List.all_eq_true.mp hall snapshot hmem)

theorem summaries_of_heard_harbour :
    exists route stop m, (Route.ofText Route.harbour).2 = .ok (route, [stop]) ∧
      Heard ⟨(Session.standard (.playback .lone)).withStops [stop], ⟨⟨0, 0⟩, 0⟩, .memory [],
        .silent, []⟩ (harbourTold.1 ++ harbourTold.2) harbourTold.2 m ∧
      m.session.Recounts [stop] (harbourTold.1 ++ harbourTold.2) harbourTold.2 ∧
      ∀ e ∈ m.session.summaries, (e.key = "1-2" → e.name = "Pier") ∧
        (e.key = "ferry" → e.name = "Dock") := by
  rcases Route.exists_harbour with ⟨route, stop, hroute, hkey, hname⟩
  have hnew := Session.new_standard (.playback .lone)
  have hcalendar := inCalendar_harbourTold
  have hnothing : Heard ⟨(Session.standard (.playback .lone)).withStops [stop], ⟨⟨0, 0⟩, 0⟩,
      .memory [], .silent, []⟩ [] [] _ := .nothing
  rcases (summaries_of_heard hroute hnew hnothing).2.2.1 harbourTold.1 ⟨0, 0⟩
    fun snapshot hmem => hcalendar snapshot (List.mem_append_left _ hmem) with ⟨m₁, -, h₁⟩
  rcases (summaries_of_heard hroute hnew h₁.reset).2.2.1 harbourTold.2 ⟨0, 0⟩
    fun snapshot hmem => hcalendar snapshot (List.mem_append_right _ hmem) with ⟨m₂, -, h₂⟩
  have hrecounts := (summaries_of_heard hroute hnew h₂).1
  refine ⟨route, stop, m₂, hroute, h₂, hrecounts, fun e he => ⟨fun hpier => ?_, fun hferry => ?_⟩⟩
  · have hstop : Session.lastStop? [stop] e.key = some stop := by
      simp [Session.lastStop?, hkey, hpier]
    rw [hrecounts.name_of_stop e he stop hstop, hname]
  · have hnone : Session.lastStop? [stop] e.key = none := by
      simp [Session.lastStop?, hkey, hferry]
    rw [hrecounts.name_of_other e he hnone, hferry]
    rfl

end Simulation
end TransitSim
