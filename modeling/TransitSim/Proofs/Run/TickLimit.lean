import TransitSim.Proofs.Run.InTurn
import TransitSim.Proofs.Session.Reachable

/-!
# The limit of a run

A run with a limit is meant to take no more ticks than the limit says. The number of ticks is looked
at after a tick only, so a run whose limit is zero takes one tick all the same, and then ends as if
that had been asked for. At all other limits the bound holds, however events come.
-/

namespace TransitSim
namespace Run

theorem EndsAt.length_le {r : Run} {us : List Update} {e : Event} {result : Except Error Outcome}
    (h : r.EndsAt us e result) {n : Nat} (hn : r.limit = some n) : us.length ≤ max n 1 := by
  cases h with
  | interrupted room => exact Nat.le_of_lt (room n hn)
  | full limit taken =>
      cases hn.symm.trans limit
      exact Nat.le_of_eq taken
  | exhausted room ahead => exact Nat.le_of_lt (room n hn)

theorem EndsAt.length_eq {r : Run} {us : List Update} {e : Event}
    (h : r.EndsAt us e (.ok .tickLimit)) {n : Nat} (hn : r.limit = some n) :
    us.length = max n 1 := by
  cases h with
  | full limit taken =>
      cases hn.symm.trans limit
      exact taken

/-- How many ticks are taken on the way to a turn. -/
structure Counts (m : Simulation) (n : Nat) (us : List Update) (turn : Turn) : Prop where
  length_le : us.length ≤ max n 1
  goes : ∀ r, turn = .goes r → r.simulation.session.ticks = m.session.ticks + us.length
  ends : ∀ result m', turn = .ends result m' → m'.session.ticks = m.session.ticks + us.length
  tickLimit : ∀ m', turn = .ends (.ok .tickLimit) m' → us.length = max n 1

theorem Leads.counts {r : Run} {es : List Event} {us : List Update} {turn : Turn}
    (h : r.Leads es us turn) (hbegins : r.taken = 0) {n : Nat} (hn : r.limit = some n) :
    Counts r.simulation n us turn := by
  rcases h.cases hbegins with ⟨r', rfl, hgoing⟩ | ⟨e, result, m, -, rfl, hfollows, hends⟩ |
    ⟨es', r', -, rfl, hleads, -⟩
  · constructor
    case length_le => exact Nat.le_of_lt (hgoing.room n hn)
    case goes =>
      intro r'' hr''
      cases hr''
      exact hgoing.follows.ticks
    case ends => exact fun result m hturn => nomatch hturn
    case tickLimit => exact fun m hturn => nomatch hturn
  · constructor
    case length_le => exact hends.length_le hn
    case goes => exact fun r' hturn => nomatch hturn
    case ends =>
      intro result' m' hturn
      cases hturn
      exact hfollows.ticks
    case tickLimit =>
      intro m' hturn
      cases hturn
      exact hends.length_eq hn
  · constructor
    case length_le => exact Nat.le_of_lt ((hleads.going hbegins).room n hn)
    case goes => exact fun r' hturn => nomatch hturn
    case ends => exact fun result m hturn => nomatch hturn
    case tickLimit => exact fun m hturn => nomatch hturn

def Ending.ticksAtLimit? : Ending → Option Nat
  | .ended (.ok .tickLimit) m => some m.session.ticks
  | _ => none

theorem Ending.ticksAtLimit?_eq_some {ending : Ending} {n : Nat}
    (h : ending.ticksAtLimit? = some n) :
    exists m, ending = .ended (.ok .tickLimit) m ∧ m.session.ticks = n := by
  cases ending with
  | failed => cases h
  | endless => cases h
  | ended result m =>
      cases result with
      | error e => cases h
      | ok outcome =>
          cases outcome with
          | playbackComplete => cases h
          | interrupted => cases h
          | tickLimit =>
              cases h
              exact ⟨m, rfl, rfl⟩

end Run

namespace Simulation

/-- In every state, and in whatever order events come, a run takes no more ticks than its limit or
one, and exactly as many if it ends at the limit. -/
theorem ticks_of_limit (m : Simulation) (n : Nat) (deadline : Option Nat) :
    (∀ es us turn, (m.beginRun (some n) deadline).2.Leads es us turn → Run.Counts m n us turn) ∧
      ∀ result m', m.run (some n) deadline = .ended result m' →
        m'.session.ticks ≤ m.session.ticks + max n 1 ∧
          (result = .ok .tickLimit → m'.session.ticks = m.session.ticks + max n 1) := by
  rcases m.beginRun_eq (some n) deadline with ⟨b, hbegin, hcourse⟩
  have hticks : b.session.ticks = m.session.ticks := congrArg Course.ticks hcourse
  have hcounts : ∀ es us turn, (m.beginRun (some n) deadline).2.Leads es us turn →
      Run.Counts m n us turn := by
    intro es us turn hleads
    rw [hbegin] at hleads
    have hcounts := hleads.counts rfl rfl
    exact
      { hcounts with
        goes := fun r hr => (hcounts.goes r hr).trans (by rw [hticks])
        ends := fun result m' hm' => (hcounts.ends result m' hm').trans (by rw [hticks]) }
  refine ⟨hcounts, ?_⟩
  intro result m' hrun
  rcases m.run_cases (some n) deadline with ⟨e, -, hfailed⟩ | ⟨-, hfinish⟩
  · rw [hrun, hbegin] at hfailed
    cases hfailed
    refine ⟨?_, nofun⟩
    rw [hticks]
    exact Nat.le_add_right _ _
  · have hcomes := (m.beginRun (some n) deadline).2.comes_finish
    rw [← hfinish, hrun] at hcomes
    cases hcomes with
    | ended hleads hunasked hinTurn =>
        rename_i es us m₁
        have hc := hcounts es us _ hleads
        have hstop : m₁.stop.session.ticks = m₁.session.ticks := rfl
        rw [hstop, hc.ends result m₁ rfl]
        refine ⟨Nat.add_le_add_left hc.length_le _, ?_⟩
        rintro rfl
        rw [hc.tickLimit m₁ rfl]

/-- A limit of zero does not keep a run from taking a tick. -/
theorem limit_zero_takes_one :
    (standard (.playback Player.lone) .silent).Reachable ∧
      exists m', (standard (.playback Player.lone) .silent).run (some 0) none =
          .ended (.ok .tickLimit) m' ∧
        m'.session.ticks = (standard (.playback Player.lone) .silent).session.ticks + 1 := by
  refine ⟨reachable_standard _ _, ?_⟩
  have hticks : ((standard (.playback Player.lone) .silent).run (some 0) none).ticksAtLimit? =
      some 1 := by decide +kernel
  rcases Run.Ending.ticksAtLimit?_eq_some hticks with ⟨m', hm', hm'ticks⟩
  exact ⟨m', hm', hm'ticks⟩

end Simulation
end TransitSim
