import TransitSim.Proofs.Session.Course

/-!
# Ticks in a row

The plain way to move a vehicle on is to take one position after the other. What comes out of it
depends on the course of the session alone. A session follows such a row if its course is where the
row has led, whatever else has happened to it meanwhile.
-/

namespace TransitSim
namespace Simulation

def tickTimes (m : Simulation) : Nat → List (Except Error Update) × Simulation
  | 0 => ([], m)
  | n + 1 => ((m.tickTimes n).1 ++ [(m.tickTimes n).2.tick.1], (m.tickTimes n).2.tick.2)

theorem tick_eq_ok {m : Simulation} {u : Update} {c : Course}
    (h : m.session.course.tick = .ok (u, c)) :
    m.tick.1 = .ok u ∧ m.tick.2.clock = m.clock ∧
      m.tick.2.session =
        { m.session with
          source := c.source
          ticks := c.ticks
          last := c.last
          jobs := m.session.jobs ++
            [Session.reportJob u m.clock.instant, .fetch m.session.config.routeCode] } := by
  simp [tick, Session.tick_eq_ok h]

theorem tick_eq_error {m : Simulation} (h : m.session.course.tick = .error .playbackComplete) :
    m.tick.1 = .error .playbackComplete ∧ m.tick.2.clock = m.clock ∧
      m.tick.2.session = m.session.stopTimer := by
  have htick := Session.tick_eq_error h m.clock.instant
  exact ⟨htick.1, rfl, htick.2⟩

theorem tick_of_course {m m' : Simulation} (h : m'.session.course = m.session.course) :
    m'.tick.1 = m.tick.1 ∧ m'.tick.2.session.course = m.tick.2.session.course := by
  by_cases hahead : m.session.course.source.ahead? = some 0
  · have htick := Course.tick_of_ahead?_zero hahead
    have hm := tick_eq_error htick
    have hm' := tick_eq_error (h ▸ htick)
    rw [hm.1, hm'.1, hm.2.2, hm'.2.2]
    exact ⟨rfl, h⟩
  · rcases Course.tick_of_ahead?_ne hahead with ⟨u, c, htick, -⟩
    have hm := tick_eq_ok htick
    have hm' := tick_eq_ok (h ▸ htick)
    rw [hm.1, hm'.1, hm.2.2, hm'.2.2]
    exact ⟨rfl, rfl⟩

theorem tickTimes_of_course {m m' : Simulation} (h : m'.session.course = m.session.course)
    (n : Nat) :
    (m'.tickTimes n).1 = (m.tickTimes n).1 ∧
      (m'.tickTimes n).2.session.course = (m.tickTimes n).2.session.course := by
  induction n with
  | zero => exact ⟨rfl, h⟩
  | succ n ih =>
      have htick := tick_of_course ih.2
      rw [tickTimes, tickTimes, ih.1, htick.1]
      exact ⟨rfl, htick.2⟩

theorem tickTimes_add (m : Simulation) (a b : Nat) :
    (m.tickTimes (a + b)).1 = (m.tickTimes a).1 ++ ((m.tickTimes a).2.tickTimes b).1 ∧
      (m.tickTimes (a + b)).2 = ((m.tickTimes a).2.tickTimes b).2 := by
  induction b with
  | zero => exact ⟨(List.append_nil _).symm, rfl⟩
  | succ b ih =>
      rw [← Nat.add_assoc, tickTimes, tickTimes, ih.1, ih.2, List.append_assoc]
      exact ⟨rfl, rfl⟩

theorem length_tickTimes (m : Simulation) (n : Nat) : (m.tickTimes n).1.length = n := by
  induction n with
  | zero => rfl
  | succ n ih => rw [tickTimes, List.length_append, ih, List.length_singleton]

theorem ahead?_tickTimes (m : Simulation) (n : Nat) :
    (m.tickTimes n).2.session.source.ahead? = m.session.source.ahead?.map (· - n) := by
  induction n with
  | zero => simp [tickTimes]
  | succ n ih =>
      have hone : (m.tickTimes n).2.tick.2.session.source.ahead? =
          (m.tickTimes n).2.session.source.ahead?.map (· - 1) := by
        by_cases hahead : (m.tickTimes n).2.session.course.source.ahead? = some 0
        · have hahead' : (m.tickTimes n).2.session.source.ahead? = some 0 := hahead
          rw [(tick_eq_error (Course.tick_of_ahead?_zero hahead)).2.2]
          show (m.tickTimes n).2.session.source.ahead? = _
          rw [hahead']
          rfl
        · rcases Course.tick_of_ahead?_ne hahead with ⟨u, c, htick, hless, -⟩
          rw [(tick_eq_ok htick).2.2]
          exact hless
      rw [tickTimes, hone, ih, Option.map_map]
      congr 1

/-!
# Following a row
-/

structure Follows (m : Simulation) (us : List Update) (s : Session) : Prop where
  results : (m.tickTimes us.length).1 = us.map .ok
  course : s.course = (m.tickTimes us.length).2.session.course
  ticks : s.ticks = m.session.ticks + us.length
  ahead : s.source.ahead? = m.session.source.ahead?.map (· - us.length)
  within : ∀ k, m.session.source.ahead? = some k → us.length ≤ k

theorem follows_nil {m : Simulation} {s : Session} (h : s.course = m.session.course) :
    m.Follows [] s where
  results := rfl
  course := h
  ticks := congrArg Course.ticks h
  ahead := by
    have hsource : s.source = m.session.source := congrArg Course.source h
    simp [hsource]
  within := fun k _ => Nat.zero_le k

theorem Follows.keeps {m : Simulation} {us : List Update} {s s' : Session} (h : m.Follows us s)
    (hkeeps : s'.course = s.course) : m.Follows us s' where
  results := h.results
  course := hkeeps.trans h.course
  ticks := (congrArg Course.ticks hkeeps).trans h.ticks
  ahead := by
    have hsource : s'.source = s.source := congrArg Course.source hkeeps
    rw [hsource]
    exact h.ahead
  within := h.within

theorem Follows.of_course {m m' : Simulation} {us : List Update} {s : Session}
    (h : m'.Follows us s) (hcourse : m'.session.course = m.session.course) : m.Follows us s := by
  have hrow := tickTimes_of_course hcourse us.length
  have hsource : m'.session.source = m.session.source := congrArg Course.source hcourse
  have hticks : m'.session.ticks = m.session.ticks := congrArg Course.ticks hcourse
  exact
    { results := hrow.1 ▸ h.results
      course := h.course.trans hrow.2
      ticks := hticks ▸ h.ticks
      ahead := hsource ▸ h.ahead
      within := hsource ▸ h.within }

theorem Follows.tick {m : Simulation} {us : List Update} {s s' : Session} (h : m.Follows us s)
    (hahead : s.source.ahead? ≠ some 0) {u : Update} {c : Course}
    (htick : s.course.tick = .ok (u, c)) (hs' : s'.course = c) : m.Follows (us ++ [u]) s' := by
  rcases Course.tick_of_ahead?_ne (c := s.course) hahead with ⟨v, d, hnext, hless, -, hticks⟩
  cases hnext.symm.trans htick
  rw [h.course] at htick
  have hrow := Simulation.tick_eq_ok htick
  have hsource : s'.source = c.source := congrArg Course.source hs'
  constructor
  case results =>
    rw [List.length_append, List.length_singleton, tickTimes, h.results, hrow.1, List.map_append]
    rfl
  case course =>
    rw [List.length_append, List.length_singleton, tickTimes, hs', hrow.2.2]
    rfl
  case ticks =>
    have hs'ticks : s'.ticks = c.ticks := congrArg Course.ticks hs'
    rw [hs'ticks, hticks, List.length_append, List.length_singleton, ← Nat.add_assoc, ← h.ticks]
    rfl
  case ahead =>
    rw [hsource, hless]
    show s.source.ahead?.map (· - 1) = _
    rw [h.ahead, Option.map_map, List.length_append, List.length_singleton]
    congr 1
  case within =>
    intro k hk
    have hle := h.within k hk
    have hne : k - us.length ≠ 0 := by
      intro hzero
      apply hahead
      rw [h.ahead, hk, Option.map_some, hzero]
    rw [List.length_append, List.length_singleton]
    omega

end Simulation
end TransitSim
