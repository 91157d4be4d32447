import TransitSim.Proofs.Session.Course

/-!
# Answers beyond the calendar

Taking an answer can fail in one way only: the estimate for one of its stops, once corrected, lies
beyond the years that can be told. Nobody has looked at that before. A simulation is within the
calendar if no answer that waits, and none that its feed will ever give, has such an estimate; it
stays within the calendar whatever happens to it, and can always take its answers.
-/

namespace TransitSim

/-!
# When a response cannot be taken
-/

/-- Whether a corrected time can be told. -/
def Snapshot.InCalendar (s : Snapshot) : Prop :=
  s.final? ≠ none

namespace Tracker

theorem observe_eq_none_iff {t : Tracker} {s : Snapshot} {observed : Calendar.Instant} :
    t.observe s observed = none ↔ ¬s.InCalendar := by
  cases hfinal : s.final? with
  | none => simp [observe, hfinal, Snapshot.InCalendar]
  | some eta => cases hstatus : s.status <;> simp [observe, hfinal, hstatus, Snapshot.InCalendar]

theorem observeAll_eq_none_iff {t : Tracker} {snapshots : List Snapshot}
    {observed : Calendar.Instant} :
    t.observeAll observed snapshots = none ↔ exists s, s ∈ snapshots ∧ ¬s.InCalendar := by
  induction snapshots generalizing t with
  | nil => simp [observeAll]
  | cons s rest ih =>
      cases hobserve : t.observe s observed with
      | none =>
          have hs := observe_eq_none_iff.mp hobserve
          simp [observeAll, hobserve, hs]
      | some result =>
          have hs : s.InCalendar := by
            intro hfinal
            have hnone : t.observe s observed = none :=
              observe_eq_none_iff.mpr fun hs => hs hfinal
            rw [hobserve] at hnone
            cases hnone
          cases hrest : result.2.1.observeAll observed rest with
          | none =>
              have hbeyond := ih.mp hrest
              simpa [observeAll, hobserve, hrest, hs] using hbeyond
          | some others =>
              have hwithin : ¬exists s, s ∈ rest ∧ ¬s.InCalendar := by
                rw [← ih (t := result.2.1), hrest]
                exact Option.some_ne_none _
              simpa [observeAll, hobserve, hrest, hs] using hwithin

end Tracker

def Answer.InCalendar (a : Answer) : Prop :=
  ∀ snapshots, a.result = .ok snapshots → ∀ s ∈ snapshots, s.InCalendar

theorem Session.apply_eq_none_iff {s : Session} {a : Answer} :
    s.apply a = none ↔ ¬a.InCalendar := by
  cases hresult : a.result with
  | error e => simp [apply, hresult, Answer.InCalendar]
  | ok snapshots =>
      have hrespond : s.apply a = none ↔ s.tracker.observeAll a.observed snapshots = none := by
        cases hall : s.tracker.observeAll a.observed snapshots <;>
          simp [apply, hresult, observe, Tracker.respond, hall]
      rw [hrespond, Tracker.observeAll_eq_none_iff]
      simp [Answer.InCalendar, hresult]

theorem Simulation.takeAnswer_eq_none_iff {m : Simulation} :
    m.takeAnswer = none ↔
      exists a rest, m.session.answers = a :: rest ∧ ¬a.InCalendar := by
  cases hanswers : m.session.answers with
  | nil => simp [takeAnswer, hanswers]
  | cons a rest => simp [takeAnswer, hanswers, Session.apply_eq_none_iff]

/-!
# Simulations within the calendar
-/

def Feed.InCalendar : Feed → Prop
  | silent | failing => True
  | recorded r => ∀ index, ∀ s ∈ Response.snapshots r.vehicle (r.response index), s.InCalendar

theorem Feed.InCalendar.fetch {f : Feed} (h : f.InCalendar) (route : String)
    (time : Calendar.Instant) :
    (f.fetch route).2.InCalendar ∧ (Answer.mk time (f.fetch route).1).InCalendar := by
  cases f with
  | silent =>
      refine ⟨trivial, ?_⟩
      rintro snapshots ⟨⟩ s hs
      cases hs
  | failing =>
      refine ⟨trivial, ?_⟩
      rintro snapshots ⟨⟩
  | recorded r =>
      refine ⟨h, ?_⟩
      rintro snapshots ⟨⟩
      exact h r.cursor

namespace Simulation

/-- Whether all times that have been answered, or will be, can be told. -/
structure InCalendar (m : Simulation) : Prop where
  feed : m.feed.InCalendar
  answers : ∀ a ∈ m.session.answers, a.InCalendar

theorem InCalendar.of_eq {m m' : Simulation} (h : m.InCalendar) (hfeed : m'.feed = m.feed)
    (hanswers : m'.session.answers = m.session.answers) : m'.InCalendar where
  feed := hfeed ▸ h.feed
  answers := hanswers ▸ h.answers

theorem InCalendar.perform {m : Simulation} (h : m.InCalendar) (job : Job) :
    (m.perform job).InCalendar := by
  cases job with
  | alarm => exact h.of_eq rfl rfl
  | void => exact h
  | report r =>
      simp only [Simulation.perform]
      split <;> exact h.of_eq rfl rfl
  | fetch route =>
      have hfetch := h.feed.fetch route m.clock.instant
      constructor
      case feed => exact hfetch.1
      case answers =>
        intro a ha
        rcases List.mem_append.mp ha with hold | hnew
        · exact h.answers a hold
        · rw [List.mem_singleton.mp hnew]
          exact hfetch.2

theorem InCalendar.passTo {m : Simulation} (h : m.InCalendar) (time : Nat) :
    (m.passTo time).InCalendar := by
  simp only [Simulation.passTo]
  split <;> exact h.of_eq rfl rfl

theorem InCalendar.tick {m : Simulation} (h : m.InCalendar) : m.tick.2.InCalendar := by
  by_cases hahead : m.session.source.ahead? = some 0
  · have htick := Session.tick_eq_error (Course.tick_of_ahead?_zero (c := m.session.course) hahead)
      m.clock.instant
    refine h.of_eq rfl ?_
    simp only [Simulation.tick, session_note, htick.2]
    rfl
  · rcases Course.tick_of_ahead?_ne (c := m.session.course) hahead with ⟨u, c, htick, -⟩
    refine h.of_eq rfl ?_
    simp only [Simulation.tick, session_note, Session.tick_eq_ok htick]

theorem InCalendar.takeAnswer {m : Simulation} (h : m.InCalendar) :
    exists m', m.takeAnswer = some m' ∧ m'.InCalendar := by
  cases hanswers : m.session.answers with
  | nil => exact ⟨m, by simp [Simulation.takeAnswer, hanswers], h⟩
  | cons a rest =>
      cases htake : m.takeAnswer with
      | none =>
          rcases takeAnswer_eq_none_iff.mp htake with ⟨b, others, hcons, hbeyond⟩
          rw [hanswers] at hcons
          cases hcons
          exact absurd (h.answers a (hanswers ▸ List.mem_cons_self)) hbeyond
      | some m' =>
          refine ⟨m', rfl, ?_⟩
          rcases takeAnswer_eq hanswers htake with ⟨-, hfeed, hsession⟩
          constructor
          case feed => exact hfeed ▸ h.feed
          case answers =>
            intro b hb
            rw [hsession] at hb
            exact h.answers b (hanswers ▸ List.mem_cons_of_mem a hb)

end Simulation
end TransitSim
