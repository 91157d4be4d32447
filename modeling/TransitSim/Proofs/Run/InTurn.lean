import TransitSim.Proofs.Run.Orders

/-!
# Events in turn

`Run.goOn` takes events in one certain order. What holds of all orders of events therefore holds of
it as well.

Two things stand in the way of reading its steps as events. The number of turns without work decides
what comes next, but no event looks at it; it is set aside here. And a turn for work does several
pieces of work in one step, which are the same as so many events. Each of these does the first piece
of the work that is left: work is done in the order in which it was left.
-/

namespace TransitSim

def Turn.unturned : Turn → Turn
  | .goes r => .goes { r with turns := 0 }
  | t => t

/-- Whether an event does work, if any, in the order in which it was left. -/
def Event.isInTurn : Event → Bool
  | job index => index == 0
  | _ => true

namespace Run

/-!
# The number of turns does not count
-/

@[simp] theorem updates_turns (r : Run) (turns : Nat) (e : Event) :
    ({ r with turns } : Run).updates e = r.updates e := by
  cases e <;> rfl

theorem react_turns (r : Run) (turns : Nat) (e : Event) :
    (({ r with turns } : Run).react e).map Turn.unturned = (r.react e).map Turn.unturned := by
  cases e with
  | shutdown => rfl
  | job index => simp [react, onJob, Turn.unturned, Function.comp_def]
  | fire =>
      simp only [react, onFire]
      split
      · rfl
      · split <;> rfl
  | pass time => rfl
  | answer =>
      simp only [react, onAnswer]
      split
      · rfl
      · split <;> rfl
  | tick =>
      cases hqueue : r.simulation.session.scheduler.queue with
      | nil => simp [react, onTick_of_nil, hqueue]
      | cons tick rest =>
          simp only [react, onTick_of_cons hqueue,
            onTick_of_cons (r := { r with turns }) (show _ = tick :: rest from hqueue)]
          split
          · cases htick : (r.simulation.withQueue rest).tick with
            | mk result m =>
                cases result with
                | error e => rfl
                | ok u =>
                    simp only [isFull, Option.map_some]
                    cases r.limit with
                    | none => rfl
                    | some limit =>
                        by_cases hfull : limit ≤ r.taken + 1 <;> simp [hfull, Turn.unturned]
          · rfl

theorem deadline_of_react {r r' : Run} {e : Event} (h : r.react e = some (.goes r')) :
    r'.deadline = r.deadline := by
  by_cases he : e = .tick
  · subst he
    rcases onTick_cases h with ⟨tick, rest, -, hcases⟩
    rcases hcases with ⟨-, -, hturn⟩ | ⟨-, -, u, c, -, -, hturn⟩ | ⟨-, -, -, hturn⟩
    · cases hturn
      rfl
    · dsimp only at hturn
      split at hturn
      · cases hturn
      · cases hturn
        rfl
    · cases hturn
  · rcases (react_cases_of_ne_tick he h).2 with ⟨r'', hturn, -, -, -, hdeadline⟩ | ⟨-, hturn⟩ |
      ⟨-, hturn, -⟩
    · cases hturn
      exact hdeadline
    · cases hturn
    · cases hturn

section Led

variable {P : Event → Prop}

def Led (P : Event → Prop) (r : Run) (us : List Update) (r' : Run) : Prop :=
  exists es turns, r.Leads es us (.goes { r' with turns }) ∧ ∀ e ∈ es, P e

theorem led_self (r : Run) : Led P r [] r :=
  ⟨[], r.turns, .start, fun _ he => nomatch he⟩

theorem Led.turns {r r' : Run} {us : List Update} (h : Led P r us r') (turns : Nat) :
    Led P r us { r' with turns } :=
  h

theorem Led.react {r r' : Run} {us : List Update} {e : Event} {turn : Turn} (h : Led P r us r')
    (hreact : r'.react e = some turn) (he : P e) :
    exists es turn', r.Leads (es ++ [e]) (us ++ r'.updates e) turn' ∧
      turn'.unturned = turn.unturned ∧ ∀ e' ∈ es ++ [e], P e' := by
  rcases h with ⟨es, turns, hleads, hes⟩
  have hsame := react_turns r' turns e
  rw [hreact, Option.map_some] at hsame
  rcases Option.map_eq_some_iff.mp hsame with ⟨turn', hreact', hturn'⟩
  have hleads' := Leads.react hleads hreact'
  rw [updates_turns] at hleads'
  exact ⟨es, turn', hleads', hturn', List.forall_mem_append.mpr ⟨hes, by simpa using he⟩⟩

theorem Led.goes {r r' r'' : Run} {us : List Update} {e : Event} (h : Led P r us r')
    (hreact : r'.react e = some (.goes r'')) (he : P e) :
    Led P r (us ++ r'.updates e) r'' := by
  rcases h.react hreact he with ⟨es, turn', hleads, hturn', hes⟩
  cases turn' with
  | goes q =>
      refine ⟨es ++ [e], q.turns, ?_, hes⟩
      have hq : q = { r'' with turns := q.turns } := by
        rcases q with ⟨m, taken, limit, deadline, turns⟩
        injection hturn' with hq
        injection hq with h₁ h₂ h₃ h₄
        simp only at h₁ h₂ h₃ h₄
        subst h₁ h₂ h₃ h₄
        rfl
      rw [hq] at hleads
      exact hleads
  | ends result m => cases hturn'
  | fails => cases hturn'

end Led

/-!
# A turn for work
-/

end Run

namespace Simulation

theorem perform_append (m : Simulation) (jobs rest : List Job) (job : Job) :
    (m.withJobs (jobs ++ rest)).perform job =
      ((m.withJobs rest).perform job).withJobs
        (jobs ++ ((m.withJobs rest).perform job).session.jobs) := by
  cases job with
  | void => rfl
  | fetch route => rfl
  | alarm =>
      simp only [perform, ring, withJobs]
      by_cases hmore : Scheduler.burst ≤ m.session.scheduler.dueBy m.clock.now <;> simp [hmore]
  | report report =>
      simp only [perform, withJobs]
      cases m.sink.report report <;> rfl

end Simulation

namespace Run

section Led

variable {P : Event → Prop}

theorem Led.foldl_perform {r r' : Run} {us : List Update} {jobs : List Job} {m : Simulation}
    (h : Led P r us { r' with simulation := m.withJobs (jobs ++ m.session.jobs) })
    (hP : P (.job 0)) :
    Led P r us { r' with simulation := jobs.foldl Simulation.perform m } := by
  induction jobs generalizing m with
  | nil => exact h
  | cons job jobs ih =>
      have hdone := h.goes (e := .job 0) rfl hP
      have hjobs : (m.withJobs (jobs ++ m.session.jobs)).perform job =
          (m.perform job).withJobs (jobs ++ (m.perform job).session.jobs) :=
        Simulation.perform_append m jobs m.session.jobs job
      apply ih
      rw [← hjobs, ← List.append_nil us]
      exact hdone

theorem Led.work {r r' : Run} {us : List Update} (h : Led P r us r') (hP : P (.job 0)) :
    Led P r us r'.work := by
  have hwaiting : Led P r us
      { r' with
        simulation :=
          (r'.simulation.withJobs (r'.simulation.session.jobs.drop Simulation.batch)).withJobs
            (r'.simulation.session.jobs.take Simulation.batch ++
              r'.simulation.session.jobs.drop Simulation.batch) } := by
    rw [List.take_append_drop]
    exact h
  exact hwaiting.foldl_perform hP

end Led

/-!
# The order of a run
-/

theorem Leads.not_mem_shutdown {r : Run} {es : List Event} {us : List Update} {turn : Turn}
    (h : r.Leads es us turn) (hturn : ∀ m, turn ≠ .ends (.ok .interrupted) m) :
    .shutdown ∉ es := by
  induction h with
  | start => exact List.not_mem_nil
  | react h hreact ih =>
      simp only [List.mem_append, List.mem_singleton, not_or]
      refine ⟨ih fun m => nofun, ?_⟩
      rintro rfl
      cases hreact
      exact hturn _ rfl

theorem Leads.not_mem_of_getLast? {r : Run} {es : List Event} {us : List Update} {turn : Turn}
    (h : r.Leads es us turn) (hlast : es.getLast? ≠ some .shutdown) : .shutdown ∉ es := by
  cases h with
  | start => exact List.not_mem_nil
  | react h hreact =>
      rw [List.getLast?_concat] at hlast
      simp only [List.mem_append, List.mem_singleton, not_or]
      exact ⟨h.not_mem_shutdown fun m => nofun, fun heq => hlast (congrArg some heq.symm)⟩

theorem advance_cases (r : Run) :
    (exists e turn, r.react e = some turn ∧ (r.deadline = none → e ≠ .shutdown) ∧
        e.isInTurn = true ∧ r.advance = .turn turn) ∨
      r.advance = .turn (.goes r.work) ∨ (exists time, r.advance = .wait time) ∨
      r.advance = .stuck := by
  by_cases hover : r.isOver = true
  · refine Or.inl ⟨.shutdown, _, rfl, ?_, rfl, by simp [advance, hover]⟩
    intro hnone
    simp [isOver, hnone] at hover
  · cases htake : r.take? with
    | some turn =>
        by_cases hturns : r.turns < patience
        · have hadvance : r.advance = .turn turn := by simp [advance, hover, htake, hturns]
          rcases Option.or_eq_some_iff.mp htake with htick | ⟨-, hanswer⟩
          · exact Or.inl ⟨.tick, turn, htick, fun _ => Event.noConfusion, rfl, hadvance⟩
          · exact Or.inl ⟨.answer, turn, hanswer, fun _ => Event.noConfusion, rfl, hadvance⟩
        · exact Or.inr (Or.inl (by simp [advance, hover, htake, hturns]))
    | none =>
        by_cases hjobs : r.simulation.hasWork = true
        · exact Or.inr (Or.inl (by simp [advance, hover, htake, rest, hjobs]))
        · cases hwake : earlier? r.simulation.session.scheduler.nextWake? r.deadline with
          | none =>
              exact Or.inr (Or.inr (Or.inr
                (by simp [advance, hover, htake, rest, hjobs, hwake])))
          | some time =>
              exact Or.inr (Or.inr (Or.inl
                ⟨time, by simp [advance, hover, htake, rest, hjobs, hwake]⟩))

/-- What a run may come to by events that do all work in order. Without a time at which it is ended,
none of them ends it. -/
inductive Comes (r : Run) : Ending → Prop where
  | ended {es : List Event} {us : List Update} {result : Except Error Outcome} {m : Simulation}
      (leads : r.Leads es us (.ends result m))
      (unasked : r.deadline = none → .shutdown ∉ es)
      (inTurn : ∀ e ∈ es, e.isInTurn = true) : Comes r (.ended result m.stop)
  | failed {es : List Event} {us : List Update} (leads : r.Leads es us .fails)
      (inTurn : ∀ e ∈ es, e.isInTurn = true) : Comes r .failed
  | endless : Comes r .endless

theorem comes_goOn (fuel : Nat) {r r' : Run} {us : List Update}
    (h : Led (·.isInTurn = true) r us r')
    (hdeadline : r'.deadline = r.deadline) : r.Comes (goOn fuel r') := by
  induction fuel generalizing r' us with
  | zero => exact .endless
  | succ fuel ih =>
      rcases advance_cases r' with ⟨e, turn, hreact, he, hinTurn, hadvance⟩ | hadvance |
        ⟨time, hadvance⟩ | hadvance
      · rcases h.react hreact hinTurn with ⟨es, turn', hleads, hturn, hes⟩
        simp only [goOn, hadvance]
        cases turn with
        | goes r'' => exact ih (h.goes hreact hinTurn) ((deadline_of_react hreact).trans hdeadline)
        | ends result m =>
            cases turn' with
            | goes q => cases hturn
            | fails => cases hturn
            | ends result' m' =>
                cases hturn
                refine .ended hleads (fun hnone => hleads.not_mem_of_getLast? ?_) hes
                rw [List.getLast?_concat]
                exact fun hlast => he (hdeadline.trans hnone) (Option.some.inj hlast)
        | fails =>
            cases turn' with
            | goes q => cases hturn
            | ends result m => cases hturn
            | fails => exact .failed hleads hes
      · simp only [goOn, hadvance]
        exact ih (h.work rfl) hdeadline
      · simp only [goOn, hadvance]
        exact ih (h.goes (e := .pass time) rfl rfl) hdeadline
      · simp only [goOn, hadvance]
        exact .endless

theorem comes_finish (r : Run) : r.Comes r.finish := by
  simp only [finish]
  split
  · exact comes_goOn _ r.led_self rfl
  · exact .endless

end Run

namespace Simulation

theorem run_cases (m : Simulation) (limit deadline : Option Nat) :
    (exists e, (m.beginRun limit deadline).1 = .error e ∧
        m.run limit deadline = .ended (.error e) (m.beginRun limit deadline).2.simulation) ∨
      ((m.beginRun limit deadline).1 = .ok () ∧
        m.run limit deadline = (m.beginRun limit deadline).2.finish) := by
  cases hbegin : m.beginRun limit deadline with
  | mk result r =>
      cases result with
      | error e => exact Or.inl ⟨e, rfl, by simp [run, hbegin]⟩
      | ok => exact Or.inr ⟨rfl, by simp [run, hbegin]⟩

end Simulation
end TransitSim
