import TransitSim.Proofs.Session.Reachable

/-!
# What a step can do

Most of what happens to a session moves it along and leaves alone how it is configured and what it
knows of stops. What does not is one of four things: the session is given stops, a change of speed
is granted, all is forgotten, or a response is taken. A property of the settings or of the knowledge
has to be looked at in these four cases only.
-/

namespace TransitSim

/-- Whether a session has the settings of another one and knows the same of stops. -/
structure Session.Moves (s s' : Session) : Prop where
  config : s'.config = s.config
  stops : s'.stops = s.stops
  names : s'.names = s.names
  tracker : s'.tracker = s.tracker
  board : s'.board = s.board

theorem Session.moves_self (s : Session) : s.Moves s :=
  ⟨rfl, rfl, rfl, rfl, rfl⟩

theorem Session.Moves.trans {s s' s'' : Session} (h : s.Moves s') (h' : s'.Moves s'') :
    s.Moves s'' where
  config := h'.config.trans h.config
  stops := h'.stops.trans h.stops
  names := h'.names.trans h.names
  tracker := h'.tracker.trans h.tracker
  board := h'.board.trans h.board

namespace Simulation

variable {m m' : Simulation}

/-!
# What moves a session
-/

theorem moves_tick (m : Simulation) : m.session.Moves m.tick.2.session := by
  simp only [tick, Session.tick]
  split
  · exact ⟨rfl, rfl, rfl, rfl, rfl⟩
  · split <;> exact ⟨rfl, rfl, rfl, rfl, rfl⟩

theorem moves_seek (m : Simulation) (index : Nat) :
    m.session.Moves (m.seek index).2.session := by
  simp only [seek, Session.seek]
  cases m.session.source.seek index <;> exact ⟨rfl, rfl, rfl, rfl, rfl⟩

theorem moves_start (m : Simulation) : m.session.Moves m.start.2.session := by
  simp only [start, Session.start]
  cases m.session.scheduler.start m.clock.now <;> exact ⟨rfl, rfl, rfl, rfl, rfl⟩

theorem moves_perform (m : Simulation) (job : Job) :
    m.session.Moves (m.perform job).session := by
  cases job with
  | void | fetch route | alarm => exact ⟨rfl, rfl, rfl, rfl, rfl⟩
  | report r =>
      simp only [perform]
      split <;> exact ⟨rfl, rfl, rfl, rfl, rfl⟩

theorem moves_foldl_perform (m : Simulation) (jobs : List Job) :
    m.session.Moves (jobs.foldl perform m).session := by
  induction jobs generalizing m with
  | nil => exact m.session.moves_self
  | cons job rest ih => exact (moves_perform m job).trans (ih (m.perform job))

theorem moves_passTo (m : Simulation) (time : Nat) : m.session.Moves (m.passTo time).session := by
  simp only [passTo]
  split <;> exact ⟨rfl, rfl, rfl, rfl, rfl⟩

theorem moves_sleep (m : Simulation) (ms : Nat) : m.session.Moves (m.sleep ms).session := by
  simp only [sleep]
  split
  · exact m.session.moves_self
  · have hidle : m.session.Moves { m.session with jobs := [] } := ⟨rfl, rfl, rfl, rfl, rfl⟩
    have hwork := moves_foldl_perform { m with session := { m.session with jobs := [] } }
      (m.session.jobs.filter Job.isOutward)
    refine (hidle.trans (hwork.trans ?_)).trans (moves_passTo _ _)
    exact ⟨rfl, rfl, rfl, rfl, rfl⟩

/-!
# What changes settings and knowledge
-/

def Respeeds (m m' : Simulation) : Prop :=
  exists multiplier, (m.setMultiplier multiplier).1 = .ok () ∧
    m' = (m.setMultiplier multiplier).2 ∧
      Session.Moves { m.session with config := { m.session.config with multiplier } } m'.session

def Hears (m : Simulation) (snapshots : List Snapshot) (m' : Simulation) : Prop :=
  (exists observed, m.observe snapshots observed = some m') ∨
    exists a rest, m.session.answers = a :: rest ∧ a.result = .ok snapshots ∧
      m.takeAnswer = some m'

theorem Hears.step {snapshots : List Snapshot} (h : m.Hears snapshots m') : Step m m' := by
  rcases h with ⟨observed, h⟩ | ⟨a, rest, -, -, h⟩
  · exact .observe h
  · exact .answer h

theorem Hears.exists_observe {snapshots : List Snapshot} (h : m.Hears snapshots m') :
    exists answers observed lines,
      ({ m.session with answers } : Session).observe snapshots observed =
        some (m'.session, lines) := by
  rcases h with ⟨observed, h⟩ | ⟨a, rest, hanswers, hresult, h⟩
  · simp only [observe, Option.map_eq_some_iff, Prod.exists] at h
    rcases h with ⟨s, lines, hobserve, rfl⟩
    exact ⟨m.session.answers, observed, lines, hobserve⟩
  · simp only [takeAnswer, hanswers, Session.apply, hresult, Option.map_eq_some_iff,
      Prod.exists] at h
    rcases h with ⟨s, lines, hobserve, rfl⟩
    exact ⟨rest, a.observed, lines, hobserve⟩

theorem setMultiplier_cases (m : Simulation) (multiplier : Nat) :
    m.Respeeds (m.setMultiplier multiplier).2 ∨ (m.setMultiplier multiplier).2 = m := by
  cases hset : m.session.scheduler.setMultiplier m.clock.now multiplier with
  | error e => exact Or.inr (by simp [setMultiplier, Session.setMultiplier, hset, Except.map])
  | ok scheduler =>
      refine Or.inl ⟨multiplier, ?_, rfl, ?_⟩
      · simp [setMultiplier, Session.setMultiplier, hset, Except.map]
      · simp only [setMultiplier, Session.setMultiplier, hset, Except.map]
        exact ⟨rfl, rfl, rfl, rfl, rfl⟩

theorem takeAnswer_cases (h : m.takeAnswer = some m') :
    m.session.Moves m'.session ∨ exists snapshots, m.Hears snapshots m' := by
  cases hanswers : m.session.answers with
  | nil =>
      simp only [takeAnswer, hanswers, Option.some.injEq] at h
      exact Or.inl (h ▸ m.session.moves_self)
  | cons a rest =>
      cases hresult : a.result with
      | ok snapshots => exact Or.inr ⟨snapshots, Or.inr ⟨a, rest, hanswers, hresult, h⟩⟩
      | error e =>
          simp only [takeAnswer, hanswers, Session.apply, hresult, Option.map_some,
            Option.some.injEq] at h
          exact Or.inl (h ▸ ⟨rfl, rfl, rfl, rfl, rfl⟩)

/-- A step moves a session along, or gives it stops, or changes its speed, or is a reset, or takes a
response. -/
theorem step_cases (h : Step m m') :
    m.session.Moves m'.session ∨
      (exists stops, m' = { m with session := m.session.withStops stops }) ∨
        m.Respeeds m' ∨ m' = m.reset ∨ exists snapshots, m.Hears snapshots m' := by
  cases h with
  | withStops stops => exact Or.inr (Or.inl ⟨stops, rfl⟩)
  | tick => exact Or.inl (moves_tick m)
  | seek index => exact Or.inl (moves_seek m index)
  | start => exact Or.inl (moves_start m)
  | stop => exact Or.inl ⟨rfl, rfl, rfl, rfl, rfl⟩
  | setMultiplier multiplier =>
      rcases setMultiplier_cases m multiplier with hgranted | hrefused
      · exact Or.inr (Or.inr (Or.inl hgranted))
      · exact Or.inl (hrefused.symm ▸ m.session.moves_self)
  | reset => exact Or.inr (Or.inr (Or.inr (Or.inl rfl)))
  | observe hobserve => exact Or.inr (Or.inr (Or.inr (Or.inr ⟨_, Or.inl ⟨_, hobserve⟩⟩)))
  | receive htake => exact Or.inl ⟨rfl, rfl, rfl, rfl, rfl⟩
  | answer hanswer =>
      rcases takeAnswer_cases hanswer with hmoves | hears
      · exact Or.inl hmoves
      · exact Or.inr (Or.inr (Or.inr (Or.inr hears)))
  | work hjob =>
      refine Or.inl (Session.Moves.trans ?_ (moves_perform _ _))
      exact ⟨rfl, rfl, rfl, rfl, rfl⟩
  | fire htimer hdue =>
      rw [Scheduler.fire_eq_fireTimes]
      exact Or.inl ⟨rfl, rfl, rfl, rfl, rfl⟩
  | pass time => exact Or.inl (moves_passTo m time)
  | sleep ms => exact Or.inl (moves_sleep m ms)

end Simulation
end TransitSim
