import TransitSim.Proofs.Eta.Repetition
import TransitSim.Proofs.Session.Names
import TransitSim.Proofs.Session.Replay

/-!
# Recordings that have run out

A recording that has run out repeats its last response. If this response tells of each stop ahead
once, it changes nothing after it has been taken for the first time: neither what is remembered of
stops nor their names, and of the board just that it tells no changes.
-/

namespace TransitSim

open Calendar

namespace Session

/-!
# Names
-/

theorem learnNames_of_known {names : Registry String} {snapshots : List Snapshot}
    (h : ∀ s ∈ snapshots, s.name.isSome → (names.find? s.key).isSome) :
    learnNames names snapshots = names := by
  induction snapshots with
  | nil => rfl
  | cons s rest ih =>
      rcases List.forall_mem_cons.mp h with ⟨hhead, htail⟩
      rw [learnNames, List.foldl_cons]
      cases hname : s.name with
      | none => exact ih htail
      | some name =>
          rcases Option.isSome_iff_exists.mp (hhead (by rw [hname]; rfl)) with ⟨known, hknown⟩
          have hkept : names.putNew s.key name = names := by
            rw [Registry.putNew, hknown]
          dsimp only
          rw [hkept]
          exact ih htail

theorem learnNames_again (names : Registry String) (snapshots : List Snapshot) :
    learnNames (learnNames names snapshots) snapshots = learnNames names snapshots := by
  apply learnNames_of_known
  intro s hs hname
  have hfirst : (firstName? snapshots s.key).isSome := by
    rw [firstName?, List.findSome?_isSome_iff]
    exact ⟨s, hs, by simpa using hname⟩
  rw [find?_learnNames, Option.isSome_or, hfirst, Bool.or_true]

end Session

namespace Simulation

variable {m m' : Simulation}

/-!
# Sessions
-/

def withoutChanges (m : Simulation) : Simulation :=
  { m with session := { m.session with board := m.session.board.withoutChanges } }

def observeAgain (m : Simulation) (snapshots : List Snapshot) (times : List Instant) :
    Option Simulation :=
  times.foldlM (fun m observed => m.observe snapshots observed) m

structure KnowsAll (m : Simulation) (snapshots : List Snapshot) : Prop where
  tracker : m.session.tracker.IsFixed m.session.board snapshots
  names : Session.learnNames m.session.names snapshots = m.session.names

theorem withoutChanges_twice (m : Simulation) :
    m.withoutChanges.withoutChanges = m.withoutChanges := by
  simp only [withoutChanges, Board.withoutChanges_twice]

theorem knowsAll_of_observe {snapshots : List Snapshot} {observed : Instant}
    (hdistinct : DistinctAhead snapshots) (h : m.observe snapshots observed = some m') :
    m'.KnowsAll snapshots := by
  rcases exists_respond_of_observe h with ⟨lines, hrespond⟩
  constructor
  case tracker => exact Tracker.isFixed_of_respond hdistinct hrespond
  case names =>
    have hears : m.Hears snapshots m' := Or.inl ⟨observed, h⟩
    rw [hears.lore.2.1, Session.learnNames_again]

theorem KnowsAll.withoutChanges {snapshots : List Snapshot} (h : m.KnowsAll snapshots) :
    m.withoutChanges.KnowsAll snapshots where
  tracker := by
    intro observed
    rw [Simulation.withoutChanges, Board.withoutChanges_twice]
    exact h.tracker observed
  names := h.names

theorem KnowsAll.observe {snapshots : List Snapshot} (h : m.KnowsAll snapshots)
    (observed : Instant) : m.observe snapshots observed = some m.withoutChanges := by
  simp only [Simulation.observe, Session.observe, h.tracker observed, h.names, bind, Option.bind,
    Option.map_some, note, List.append_nil]
  rfl

theorem KnowsAll.observeAgain {snapshots : List Snapshot} (h : m.KnowsAll snapshots)
    {times : List Instant} (htimes : times ≠ []) :
    m.observeAgain snapshots times = some m.withoutChanges := by
  induction times generalizing m with
  | nil => exact absurd rfl htimes
  | cons first rest ih =>
      have hfirst : m.observeAgain snapshots (first :: rest) =
          m.withoutChanges.observeAgain snapshots rest := by
        rw [Simulation.observeAgain, List.foldlM_cons, h.observe first]
        rfl
      rw [hfirst]
      cases rest with
      | nil => rfl
      | cons next rest =>
          rw [ih h.withoutChanges (List.cons_ne_nil next rest), withoutChanges_twice]

end Simulation

/-!
# The last response
-/

namespace Recording

def lastSnapshots (r : Recording) : List Snapshot :=
  Response.snapshots r.vehicle (r.response (r.responses.length - 1))

theorem snapshots_of_le {r : Recording} {index : Nat} (h : r.responses.length ≤ index + 1) :
    Response.snapshots r.vehicle (r.response index) = r.lastSnapshots := by
  have hlast : min index (r.responses.length - 1) = r.responses.length - 1 := by omega
  simp only [lastSnapshots, response, hlast, Nat.min_self]

variable {r : Recording}

theorem keeps_isFixed (hdistinct : DistinctAhead r.lastSnapshots) (first : Nat) :
    r.Keeps fun taken board tracker =>
      first < taken → r.responses.length ≤ taken → tracker.IsFixed board r.lastSnapshots := by
  intro taken board tracker board' tracker' lines observed _ hrespond _ hlength
  rw [snapshots_of_le hlength] at hrespond
  exact Tracker.isFixed_of_respond hdistinct hrespond

theorem keeps_tracker {b : Board} {t : Tracker} (hfixed : t.IsFixed b r.lastSnapshots) :
    r.Keeps fun taken board tracker =>
      r.responses.length ≤ taken ∧ tracker = t ∧ (board = b ∨ board = b.withoutChanges) := by
  rintro taken board tracker board' tracker' lines observed ⟨hlength, rfl, -⟩ hrespond
  rw [snapshots_of_le (Nat.le_succ_of_le hlength), hfixed observed] at hrespond
  cases hrespond
  exact ⟨Nat.le_succ_of_le hlength, rfl, Or.inr rfl⟩

end Recording

namespace Simulation

variable {m m' : Simulation}

theorem Awaits.known_of_settled {r : Recording} {ticks taken : Nat} {log : List Act}
    (h : m.Awaits r ticks taken) (hdistinct : DistinctAhead r.lastSnapshots)
    (hproceeds : m.Proceeds log m') (hplain : ∀ e ∈ log, e.command.isPlain = true)
    (hsettled : m'.IsSettled) (hless : taken < ticks + countTicks log)
    (hlength : r.responses.length ≤ ticks + countTicks log) :
    m'.Awaits r (ticks + countTicks log) (ticks + countTicks log) ∧
      m'.session.tracker.IsFixed m'.session.board r.lastSnapshots := by
  have hfirst : m.Consumes r ticks (fun later board tracker =>
      taken < later → r.responses.length ≤ later → tracker.IsFixed board r.lastSnapshots) [] :=
    ⟨taken, h, fun hself => absurd hself (Nat.lt_irrefl _)⟩
  rcases (plainLaw_consumes (Recording.keeps_isFixed hdistinct taken)).proceeds hproceeds hplain
    hfirst with ⟨later, hawaits, hknown⟩
  rw [List.nil_append] at hawaits
  have hlater : later = ticks + countTicks log := hawaits.taken_of_isSettled hsettled
  subst hlater
  exact ⟨hawaits, hknown hless hlength⟩

theorem Awaits.remains {r : Recording} {count : Nat} {log : List Act}
    (h : m.Awaits r count count) (hlength : r.responses.length ≤ count)
    (hfixed : m.session.tracker.IsFixed m.session.board r.lastSnapshots)
    (hproceeds : m.Proceeds log m') (hplain : ∀ e ∈ log, e.command.isPlain = true) :
    m'.session.tracker = m.session.tracker ∧
      (m'.session.board = m.session.board ∨
        m'.session.board = m.session.board.withoutChanges) ∧
      ∀ command es us, command.isPlain = true → ¬m'.Fails command es us := by
  have hkeeps := Recording.keeps_tracker hfixed
  have hfirst : m.Consumes r count (fun taken board tracker =>
      r.responses.length ≤ taken ∧ tracker = m.session.tracker ∧
        (board = m.session.board ∨ board = m.session.board.withoutChanges)) [] :=
    ⟨count, h, hlength, rfl, Or.inl rfl⟩
  have hlast := (plainLaw_consumes hkeeps).proceeds hproceeds hplain hfirst
  have hconsumes := hlast
  rcases hlast with ⟨taken, -, -, htracker, hboard⟩
  refine ⟨htracker, hboard, ?_⟩
  intro command es us hcommand hfails
  rcases hconsumes.fails hkeeps hfails hcommand with
    ⟨later, board, tracker, observed, -, ⟨hlater, rfl, -⟩, hnone⟩
  rw [Recording.snapshots_of_le (Nat.le_succ_of_le hlater), hfixed observed] at hnone
  cases hnone

/-- A response that tells of each stop ahead once can be repeated any number of times: it changes
nothing but the board, which tells no changes any more. So does a recording that has run out: when
its last response has been taken, nothing that is remembered of stops changes, and no command that
leaves the estimates alone fails. -/
theorem repeating_is_harmless :
    (∀ (t t' : Tracker) snapshots observed board lines, DistinctAhead snapshots →
      t.respond snapshots observed = some (board, t', lines) → ∀ times,
        t'.respondAgain snapshots times =
          some (List.replicate times.length board.withoutChanges, t', [])) ∧
      (∀ (m m' : Simulation) snapshots observed, DistinctAhead snapshots →
        m.observe snapshots observed = some m' → ∀ times, times ≠ [] →
          m'.observeAgain snapshots times = some m'.withoutChanges) ∧
      ∀ (m m₁ m₂ : Simulation) r log later, m.Reachable → m.feed = .recorded r →
        DistinctAhead r.lastSnapshots →
          m.Proceeds log m₁ → (∀ e ∈ log, e.command.isPlain = true) → m₁.IsSettled →
            0 < m.session.answers.length + m.requests + countTicks log →
              r.responses.length ≤ r.cursor + m.requests + countTicks log →
                m₁.Proceeds later m₂ → (∀ e ∈ later, e.command.isPlain = true) →
                  m₂.session.tracker = m₁.session.tracker ∧
                    (m₂.session.board = m₁.session.board ∨
                      m₂.session.board = m₁.session.board.withoutChanges) ∧
                    ∀ command es us, command.isPlain = true → ¬m₂.Fails command es us := by
  refine ⟨?_, ?_, ?_⟩
  · intro t t' snapshots observed board lines hdistinct hrespond times
    exact (Tracker.isFixed_of_respond hdistinct hrespond).respondAgain times
  · intro m m' snapshots observed hdistinct hobserve times htimes
    exact (knowsAll_of_observe hdistinct hobserve).observeAgain htimes
  · intro m m₁ m₂ r log later hm hfeed hdistinct hlog hplain hsettled hsome hlength hlater hplain'
    rcases hm.awaits hfeed with ⟨taken, hawaits, hcursor⟩
    have hless : taken < r.cursor + m.requests + countTicks log := by omega
    rcases hawaits.known_of_settled hdistinct hlog hplain hsettled hless hlength with
      ⟨hsettles, hfixed⟩
    exact hsettles.remains hlength hfixed hlater hplain'

def atLast : Simulation :=
  standard (.playback .lone) (.recorded { Recording.moving with cursor := 1 })

theorem repeating_is_harmless_atLast :
    (exists board t' lines, (Tracker.new .utc).respond Recording.moving.lastSnapshots ⟨0, 0⟩ =
        some (board, t', lines) ∧
      t'.respondAgain Recording.moving.lastSnapshots [⟨60, 0⟩, ⟨120, 0⟩] =
        some ([board.withoutChanges, board.withoutChanges], t', [])) ∧
      (exists m', atLast.observe Recording.moving.lastSnapshots ⟨0, 0⟩ = some m' ∧
        m'.observeAgain Recording.moving.lastSnapshots [⟨60, 0⟩] = some m'.withoutChanges) ∧
      exists m₁, atLast.tick.2.settle = some m₁ ∧
        m₁.tick.2.session.tracker = m₁.session.tracker := by
  rcases repeating_is_harmless with ⟨htracker, hsession, hrecording⟩
  have hdistinct : DistinctAhead Recording.moving.lastSnapshots := by
    decide +kernel
  have hrespond : ((Tracker.new .utc).respond Recording.moving.lastSnapshots ⟨0, 0⟩).isSome := by
    decide +kernel
  have hobserve : (atLast.observe Recording.moving.lastSnapshots ⟨0, 0⟩).isSome := by
    decide +kernel
  have htick : atLast.tick.1.toOption.isSome := by
    decide +kernel
  have hsettle : atLast.tick.2.settle.isSome := by
    decide +kernel
  rcases Option.isSome_iff_exists.mp hrespond with ⟨⟨board, t', lines⟩, hboard⟩
  rcases Option.isSome_iff_exists.mp hobserve with ⟨m', hm'⟩
  rcases Option.isSome_iff_exists.mp hsettle with ⟨m₁, hm₁⟩
  refine ⟨⟨board, t', lines, hboard, htracker _ _ _ _ _ _ hdistinct hboard _⟩,
    ⟨m', hm', hsession _ _ _ _ hdistinct hm' _ (List.cons_ne_nil _ _)⟩, m₁, hm₁, ?_⟩
  rcases atLast.tick.2.settle_cases.1 m₁ hm₁ with ⟨es, hdoes, -⟩
  have hsettled : m₁.IsSettled := by
    cases hdoes with
    | settle hleads hes hsettled => exact hsettled
  have hlog := Proceeds.step (.step .nil (.tick atLast)) hdoes
  have hcount : countTicks (([] ++ [(⟨.tick, [], .position atLast.tick.1,
      atLast.tick.2.session.view⟩ : Act)]) ++ [⟨.settle, es, .done, m₁.session.view⟩]) = 1 := by
    cases hresult : atLast.tick.1 with
    | error e =>
        rw [hresult] at htick
        cases htick
    | ok u => rfl
  have hlater : m₁.Proceeds _ m₁.tick.2 := .step .nil (.tick m₁)
  exact (hrecording atLast m₁ m₁.tick.2 _ _ _ (reachable_standard _ _) rfl hdistinct hlog
    (by simp [Command.isPlain]) hsettled (by rw [hcount]; decide) (by rw [hcount]; decide) hlater
    (by simp [Command.isPlain])).1

end Simulation
end TransitSim
