import TransitSim.Proofs.Run.Load

/-!
# Runs end

A run that nobody ends, but whose ticks are limited, comes to an end by itself. The cost of a run
says how many steps it takes at most: each tick that is left pays for getting it, for the work and
the answer that it leaves, and for the turns that other work gets meanwhile. Every step lowers the
cost, and what `Run.finish` grants is enough to begin with.
-/

namespace TransitSim
namespace Run

/-!
# Every step lowers the cost
-/

def left (r : Run) : Nat :=
  match r.limit with
  | some limit => limit - r.taken
  | none => (r.simulation.session.source.ahead?.getD 0) + 1

def cost (r : Run) : Nat :=
  9 * r.left + r.simulation.load + r.turns

/-- A run that goes on until its ticks are used up. -/
structure Lively (r : Run) : Prop where
  ready : r.simulation.session.scheduler.Ready
  running : r.simulation.session.isRunning = true
  unasked : r.deadline = none
  bounded : r.limit = none → r.simulation.session.source.ahead? ≠ none

theorem Lively.of_keeps {r r' : Run} (h : r.Lively)
    (hkeeps : r.simulation.session.Keeps r'.simulation.session) (hlimit : r'.limit = r.limit)
    (hdeadline : r'.deadline = r.deadline) : r'.Lively where
  ready := hkeeps.ready h.ready
  running := hkeeps.isRunning.trans h.running
  unasked := hdeadline.trans h.unasked
  bounded := by
    have hsource : r'.simulation.session.source = r.simulation.session.source :=
      congrArg Course.source hkeeps.course
    rw [hlimit, hsource]
    exact h.bounded

theorem left_of_keeps {r r' : Run} (hkeeps : r.simulation.session.Keeps r'.simulation.session)
    (hlimit : r'.limit = r.limit) (htaken : r'.taken = r.taken) : r'.left = r.left := by
  have hsource : r'.simulation.session.source = r.simulation.session.source :=
    congrArg Course.source hkeeps.course
  simp only [left, hlimit, htaken, hsource]

theorem left_of_tick {r r' : Run} {u : Update} {c : Course}
    (hahead : r.simulation.session.source.ahead? ≠ some 0)
    (hbounded : r.limit = none → r.simulation.session.source.ahead? ≠ none)
    (hcourse : r.simulation.session.course.tick = .ok (u, c))
    (hsource : r'.simulation.session.source = c.source) (hlimit : r'.limit = r.limit)
    (htaken : r'.taken = r.taken + 1) (hfull : ¬r'.isFull = true) : r'.left + 1 = r.left := by
  obtain ⟨v, d, hnext, hless, -⟩ := Course.tick_of_ahead?_ne (c := r.simulation.session.course)
    hahead
  cases hnext.symm.trans hcourse
  cases hr : r.limit with
  | some n =>
      have hroom : ¬n ≤ r'.taken := fun hle =>
        hfull (isFull_iff.mpr ⟨n, hlimit.trans hr, hle⟩)
      simp only [left, hlimit, hr]
      omega
  | none =>
      rcases Option.ne_none_iff_exists'.mp (hbounded hr) with ⟨k, hk⟩
      have hleft : r'.simulation.session.source.ahead? = some (k - 1) := by
        rw [hsource, hless]
        show r.simulation.session.source.ahead?.map (· - 1) = _
        rw [hk, Option.map_some]
      have hpos : k ≠ 0 := by
        rintro rfl
        exact hahead hk
      simp only [left, hlimit, hr, hleft, hk, Option.getD_some]
      omega

theorem Lively.onTick {r r' : Run} (h : r.Lively) (htick : r.onTick = some (.goes r')) :
    r'.Lively ∧ r'.cost < r.cost := by
  rcases onTick_cases htick with ⟨tick, rest, hqueue, hcases⟩
  rcases hcases with ⟨hstale, -, hturn⟩ | ⟨hcurrent, hahead, u, c, hcourse, -, hturn⟩ |
    ⟨-, -, -, hturn⟩
  · cases hturn
    have hload := Simulation.load_withQueue hqueue hstale
    refine ⟨⟨h.ready.of_queue rest, h.running, h.unasked, h.bounded⟩, ?_⟩
    show 9 * r.left + (r.simulation.withQueue rest).load + (r.turns + 1) < _
    rw [cost]
    omega
  · dsimp only at hturn
    split at hturn
    · cases hturn
    · rename_i hfull
      cases hturn
      have hmoved := (Simulation.tick_eq_ok (m := r.simulation.withQueue rest) hcourse).2.2
      have hsource : (r.simulation.withQueue rest).tick.2.session.source = c.source := by
        rw [hmoved]
      have hscheduler : (r.simulation.withQueue rest).tick.2.session.scheduler =
          (r.simulation.withQueue rest).session.scheduler := by
        rw [hmoved]
      have hload := Simulation.load_tick hqueue hcurrent hcourse
      have hleft :
          ({ r with
              simulation := (r.simulation.withQueue rest).tick.2
              taken := r.taken + 1
              turns := r.turns + 1 } : Run).left + 1 = r.left :=
        left_of_tick hahead h.bounded hcourse hsource rfl rfl hfull
      constructor
      · constructor
        case ready =>
          rw [hscheduler]
          exact h.ready.of_queue rest
        case running =>
          show (r.simulation.withQueue rest).tick.2.session.scheduler.isRunning = true
          rw [hscheduler]
          exact h.running
        case unasked => exact h.unasked
        case bounded =>
          intro hlimit
          rcases Option.ne_none_iff_exists'.mp (h.bounded hlimit) with ⟨k, hk⟩
          obtain ⟨v, d, hnext, hless, -⟩ := Course.tick_of_ahead?_ne
            (c := r.simulation.session.course) hahead
          cases hnext.symm.trans hcourse
          rw [hsource, hless]
          show r.simulation.session.source.ahead?.map (· - 1) ≠ none
          simp [hk]
      · rw [cost, cost]
        simp only
        omega
  · cases hturn

theorem Lively.onAnswer {r r' : Run} (h : r.Lively) (hanswer : r.onAnswer = some (.goes r')) :
    r'.Lively ∧ r'.cost < r.cost := by
  rcases onAnswer_cases hanswer with ⟨hsome, ⟨m, hm, hturn⟩ | ⟨-, hturn⟩⟩
  · cases hturn
    have hkeeps := Simulation.keeps_takeAnswer hm
    have hload := Simulation.load_takeAnswer hsome hm
    have hleft : ({ r with simulation := m, turns := r.turns + 1 } : Run).left = r.left :=
      left_of_keeps hkeeps rfl rfl
    refine ⟨h.of_keeps hkeeps rfl rfl, ?_⟩
    rw [cost, hleft, cost]
    simp only
    omega
  · cases hturn

theorem Lively.work {r : Run} (h : r.Lively) : r.work.Lively :=
  h.of_keeps (Simulation.keeps_performSome r.simulation Simulation.batch) rfl rfl

theorem left_work (r : Run) : r.work.left = r.left :=
  left_of_keeps (Simulation.keeps_performSome r.simulation Simulation.batch) rfl rfl

theorem Lively.advance {r : Run} (h : r.Lively) :
    (exists result m, r.advance = .turn (.ends result m)) ∨ r.advance = .turn .fails ∨
      exists r', (r.advance = .turn (.goes r') ∨ exists time, r.advance = .wait time ∧
        r' = r.onPass time) ∧ r'.Lively ∧ r'.cost < r.cost := by
  have hover : r.isOver = false := by simp [isOver, h.unasked]
  cases htake : r.take? with
  | some turn =>
      by_cases hturns : r.turns < patience
      · have hadvance : r.advance = .turn turn := by simp [Run.advance, hover, htake, hturns]
        cases turn with
        | ends result m => exact Or.inl ⟨result, m, hadvance⟩
        | fails => exact Or.inr (Or.inl hadvance)
        | goes r' =>
            refine Or.inr (Or.inr ⟨r', Or.inl hadvance, ?_⟩)
            rcases Option.or_eq_some_iff.mp htake with htick | ⟨-, hanswer⟩
            · exact h.onTick htick
            · exact h.onAnswer hanswer
      · have hadvance : r.advance = .turn (.goes r.work) := by
          simp [Run.advance, hover, htake, hturns]
        refine Or.inr (Or.inr ⟨r.work, Or.inl hadvance, h.work, ?_⟩)
        have hload := (Simulation.load_work h.ready).1
        have hpatience : 0 < patience := by decide
        have hleft := left_work r
        show 9 * r.work.left + r.simulation.work.load + 0 < _
        rw [hleft, cost]
        omega
  | none =>
      rcases Option.or_eq_none_iff.mp htake with ⟨htick, hanswer⟩
      have hqueue := onTick_eq_none htick
      have hcurrent := Scheduler.hasCurrent_of_nil hqueue
      by_cases hjobs : r.simulation.hasWork = true
      · have hadvance : r.advance = .turn (.goes r.work) := by
          simp [Run.advance, hover, htake, rest, hjobs]
        refine Or.inr (Or.inr ⟨r.work, Or.inl hadvance, h.work, ?_⟩)
        have hload := (Simulation.load_work h.ready).2 hjobs hcurrent
        have hleft := left_work r
        show 9 * r.work.left + r.simulation.work.load + 0 < _
        rw [hleft, cost]
        omega
      · rcases Option.isSome_iff_exists.mp h.running with ⟨t, ht⟩
        have hwake : r.simulation.session.scheduler.nextWake? = some (Clock.wake t.due) := by
          simp [Scheduler.nextWake?, ht]
        have hadvance : r.advance = .wait (Clock.wake t.due) := by
          simp [Run.advance, hover, htake, rest, hjobs, hwake, h.unasked, earlier?]
        have hkeeps := Simulation.keeps_passTo r.simulation (Clock.wake t.due)
        refine Or.inr (Or.inr ⟨_, Or.inr ⟨_, hadvance, rfl⟩, h.of_keeps hkeeps rfl rfl, ?_⟩)
        have hload := Simulation.load_passTo h.ready hqueue
          (by simpa [Simulation.hasWork] using hjobs) hwake
        have hleft : (r.onPass (Clock.wake t.due)).left = r.left := left_of_keeps hkeeps rfl rfl
        show 9 * (r.onPass (Clock.wake t.due)).left +
          (r.simulation.passTo (Clock.wake t.due)).load + 0 < _
        rw [hleft, cost]
        omega

theorem Lively.goOn {fuel : Nat} {r : Run} (h : r.Lively) (hfuel : r.cost < fuel) :
    goOn fuel r ≠ .endless := by
  induction fuel generalizing r with
  | zero => exact absurd hfuel (Nat.not_lt_zero _)
  | succ fuel ih =>
      rcases h.advance with ⟨result, m, hadvance⟩ | hadvance |
        ⟨r', hadvance | ⟨time, hadvance, rfl⟩, hlively, hcost⟩
      · simp [Run.goOn, hadvance]
      · simp [Run.goOn, hadvance]
      · simp only [Run.goOn, hadvance]
        exact ih hlively (Nat.lt_of_lt_of_le hcost (Nat.le_of_lt_succ hfuel))
      · simp only [Run.goOn, hadvance]
        exact ih hlively (Nat.lt_of_lt_of_le hcost (Nat.le_of_lt_succ hfuel))

theorem Lively.cost_lt {r : Run} (h : r.Lively) (hbegins : r.taken = 0) (hturns : r.turns = 0) :
    exists fuel, r.stepBound? = some fuel ∧ r.cost < fuel := by
  obtain ⟨ticks, hticks, hleft⟩ : exists ticks, r.tickBound? = some ticks ∧ r.left ≤ ticks := by
    cases hlimit : r.limit with
    | some n => exact ⟨n + 1, by simp [tickBound?, hlimit], by simp [left, hlimit, hbegins]⟩
    | none =>
        cases hsource : r.simulation.session.source with
        | route follower speed step =>
            exact absurd (by rw [hsource]; rfl) (h.bounded hlimit)
        | playback player =>
            exact ⟨player.length - player.cursor + 1, by simp [tickBound?, hlimit, hsource],
              by simp [left, hlimit, hsource, Source.ahead?]⟩
  refine ⟨_, by rw [stepBound?, hticks, Option.map_some], ?_⟩
  have hload := r.simulation.load_le
  rw [cost, hturns]
  omega

theorem Lively.finish {r : Run} (h : r.Lively) (hbegins : r.taken = 0) (hturns : r.turns = 0) :
    r.finish ≠ .endless := by
  rcases h.cost_lt hbegins hturns with ⟨fuel, hfuel, hcost⟩
  simp only [Run.finish, hfuel]
  exact h.goOn hcost

end Run
end TransitSim
