import TransitSim.Proofs.Run.Orders
import TransitSim.Proofs.Session.Answers
import TransitSim.Proofs.Session.Reachable

/-!
# What runs keep

Whatever events come, a run stays within the states that a session can be in, and within the
calendar if it was there. No event adds to the stale ticks of the queue, and as long as the timer
runs there is another tick to be had.
-/

namespace TransitSim

def Event.isTick : Event → Bool
  | tick => true
  | _ => false

def Turn.simulation? : Turn → Option Simulation
  | goes r => some r.simulation
  | ends _ m => some m
  | fails => none

namespace Run

/-!
# What runs keep
-/

theorem reachable_of_react {r : Run} (hr : r.simulation.Reachable) {e : Event} {turn : Turn}
    (h : r.react e = some turn) {m : Simulation} (hm : turn.simulation? = some m) :
    m.Reachable := by
  cases e with
  | shutdown =>
      cases h
      cases hm
      exact hr
  | tick =>
      rcases onTick_cases h with ⟨tick, rest, hqueue, hcases⟩
      have hreceived : (r.simulation.withQueue rest).Reachable :=
        hr.step (.receive (by rw [Scheduler.take?, hqueue]))
      rcases hcases with ⟨-, -, rfl⟩ | ⟨-, -, u, c, -, -, rfl⟩ | ⟨-, -, -, rfl⟩
      · cases hm
        exact hreceived
      · have hticked := hreceived.step (.tick _)
        dsimp only at hm
        split at hm <;> cases hm <;> exact hticked
      · cases hm
        exact hreceived.step (.tick _)
  | answer =>
      rcases (onAnswer_cases h).2 with ⟨m', hanswer, rfl⟩ | ⟨-, rfl⟩
      · cases hm
        exact hr.step (.answer hanswer)
      · cases hm
  | job index =>
      rcases onJob_cases h with ⟨job, hjob, rfl⟩
      cases hm
      exact hr.step (.work hjob)
  | fire =>
      rcases onFire_cases h with ⟨t, ht, hdue, rfl⟩
      cases hm
      exact hr.step (.fire ht hdue)
  | pass time =>
      cases h
      cases hm
      exact hr.step (.pass _ time)

theorem Leads.reachable {r : Run} {es : List Event} {us : List Update} {turn : Turn}
    (h : r.Leads es us turn) (hr : r.simulation.Reachable) {m : Simulation}
    (hm : turn.simulation? = some m) : m.Reachable := by
  induction h generalizing m with
  | start =>
      cases hm
      exact hr
  | react h hreact ih => exact reachable_of_react (ih rfl) hreact hm

theorem inCalendar_of_react {r : Run} (hr : r.simulation.InCalendar) {e : Event} {turn : Turn}
    (h : r.react e = some turn) :
    exists m, turn.simulation? = some m ∧ m.InCalendar := by
  cases e with
  | shutdown =>
      cases h
      exact ⟨_, rfl, hr⟩
  | tick =>
      rcases onTick_cases h with ⟨tick, rest, -, hcases⟩
      have hreceived : (r.simulation.withQueue rest).InCalendar := hr.of_eq rfl rfl
      rcases hcases with ⟨-, -, rfl⟩ | ⟨-, -, u, c, -, -, rfl⟩ | ⟨-, -, -, rfl⟩
      · exact ⟨_, rfl, hreceived⟩
      · dsimp only
        split <;> exact ⟨_, rfl, hreceived.tick⟩
      · exact ⟨_, rfl, hreceived.tick⟩
  | answer =>
      rcases hr.takeAnswer with ⟨m, hm, hwithin⟩
      rcases (onAnswer_cases h).2 with ⟨m', hm', rfl⟩ | ⟨hnone, rfl⟩
      · cases hm.symm.trans hm'
        exact ⟨m, rfl, hwithin⟩
      · cases hm.symm.trans hnone
  | job index =>
      rcases onJob_cases h with ⟨job, -, rfl⟩
      have hleft : (r.simulation.withJobs (r.simulation.session.jobs.eraseIdx index)).InCalendar :=
        hr.of_eq rfl rfl
      exact ⟨_, rfl, hleft.perform job⟩
  | fire =>
      rcases onFire_cases h with ⟨t, -, -, rfl⟩
      exact ⟨_, rfl, hr.of_eq rfl rfl⟩
  | pass time =>
      cases h
      exact ⟨_, rfl, hr.passTo time⟩

theorem Leads.inCalendar {r : Run} {es : List Event} {us : List Update} {turn : Turn}
    (h : r.Leads es us turn) (hr : r.simulation.InCalendar) :
    exists m, turn.simulation? = some m ∧ m.InCalendar := by
  induction h with
  | start => exact ⟨_, rfl, hr⟩
  | react h hreact ih =>
      rcases ih with ⟨m, hm, hwithin⟩
      cases hm
      exact inCalendar_of_react hwithin hreact

/-!
# Ticks come, and stale ones go
-/

theorem Leads.countP_isTick {r r' : Run} {es : List Event} {us : List Update}
    (h : r.Leads es us (.goes r')) (hr : r.simulation.Reachable) :
    es.countP Event.isTick + r'.simulation.session.scheduler.stale.length =
      r.simulation.session.scheduler.stale.length + us.length := by
  generalize hturn : Turn.goes r' = turn at h
  induction h generalizing r' with
  | start =>
      cases hturn
      simp
  | react h hreact ih =>
      rename_i es us q e turn
      subst hturn
      have hready := (h.reachable hr rfl).ready
      have hcount := ih rfl
      rw [List.countP_append, List.countP_singleton, List.length_append]
      by_cases he : e = .tick
      · subst he
        rcases onTick_cases hreact with ⟨tick, rest, hqueue, hcases⟩
        rcases hcases with ⟨hstale, hupdates, hturn⟩ |
          ⟨hcurrent, -, u, c, hcourse, hupdates, hturn⟩ | ⟨-, -, -, hturn⟩
        · cases hturn
          have hstales : q.simulation.session.scheduler.stale =
              tick :: (q.simulation.withQueue rest).session.scheduler.stale :=
            Scheduler.stale_of_not_isCurrent hqueue hstale
          rw [hstales, List.length_cons] at hcount
          rw [hupdates]
          simp only [Event.isTick, if_true, List.length_nil]
          omega
        · dsimp only at hturn
          split at hturn
          · cases hturn
          · cases hturn
            have hmoved := (Simulation.tick_eq_ok (m := q.simulation.withQueue rest) hcourse).2.2
            have hstales : (q.simulation.withQueue rest).tick.2.session.scheduler.stale =
                q.simulation.session.scheduler.stale := by
              rw [hmoved, Scheduler.stale_of_isCurrent hqueue hcurrent]
              rfl
            rw [hupdates, hstales]
            simp only [Event.isTick, if_true, List.length_singleton]
            omega
        · cases hturn
      · rcases react_cases_of_ne_tick he hreact with ⟨hupdates, hcases⟩
        have htick : e.isTick = false := by
          cases e <;> first | rfl | exact absurd rfl he
        rcases hcases with ⟨r'', hturn, hkeeps, -⟩ | ⟨-, hturn⟩ | ⟨-, hturn, -⟩
        · cases hturn
          rcases hkeeps.scheduler with ⟨n, hn⟩
          rw [hupdates, hn, hready.stale_fireTimes, htick]
          simpa using hcount
        · cases hturn
        · cases hturn

theorem onFire_of_due {r : Run} {t : Timer} (ht : r.simulation.session.scheduler.timer = some t)
    (hdue : t.due ≤ r.simulation.clock.now) :
    exists r', r.onFire = some (.goes r') ∧
      r'.simulation.session.scheduler = r.simulation.session.scheduler.fire := by
  simp only [onFire, ht, if_pos hdue]
  exact ⟨_, rfl, rfl⟩

theorem exists_onTick {r : Run} (hrunning : r.simulation.session.isRunning = true) :
    exists time r', (r.onPass time).react .fire = some (.goes r') ∧
      (r'.react .tick).isSome = true := by
  rcases Option.isSome_iff_exists.mp hrunning with ⟨t, ht⟩
  have hwaited : (r.onPass t.due).simulation.session.scheduler.timer = some t := by
    rw [← ht]
    exact congrArg Scheduler.timer (Simulation.scheduler_passTo _ _)
  have hdue : t.due ≤ (r.onPass t.due).simulation.clock.now := by
    rw [show (r.onPass t.due).simulation.clock = r.simulation.clock.forwardTo t.due from
      Simulation.clock_passTo _ _]
    exact Nat.le_max_right _ _
  rcases onFire_of_due hwaited hdue with ⟨r', hfire, hfired⟩
  refine ⟨t.due, r', hfire, ?_⟩
  rw [Option.isSome_iff_ne_none]
  intro hnone
  have hqueue := onTick_eq_none hnone
  simp [hfired, Scheduler.fire, hwaited] at hqueue

end Run
end TransitSim
