import TransitSim.Proofs.Calendar.ClockFace
import TransitSim.Proofs.Eta.Observing
import TransitSim.Proofs.Session.Answers

/-!
# What a response can bring about

A response may be any JSON value. Reading it leaves out records without a coordinate or a time, and
all that is done with the others succeeds, but for one thing: the correction of an estimate may lead
beyond the calendar. Nobody looks at that when the response is read, so that a single such record
takes the whole response, and whoever takes it, down with it.

Everything after the correction is safe whatever the tracker has seen before. A clock shows one of
1440 minutes, the difference of two of them can always be written, and so every line of the board
has a text.
-/

namespace TransitSim

open Calendar

/-!
# The corrected time
-/

def Calendar.Instant.total (i : Instant) : Int :=
  i.seconds * 1000000000 + i.nanos

theorem Calendar.Instant.seconds_carry {seconds nanos : Int} (hlow : -1000000000 ≤ nanos)
    (hhigh : nanos < 2000000000) :
    (carry seconds nanos).seconds = seconds + nanos / 1000000000 := by
  have hsecond : (nanosPerSecond : Int) = 1000000000 := rfl
  rw [carry]
  by_cases hneg : nanos < 0
  · rw [if_pos hneg]
    simp only
    omega
  · rw [if_neg hneg]
    by_cases hover : (nanosPerSecond : Int) ≤ nanos
    · rw [if_pos hover]
      simp only
      omega
    · rw [if_neg hover]
      simp only
      omega

theorem Calendar.Instant.seconds_shift {i : Instant} (h : i.nanos < nanosPerSecond) (ms : Int) :
    (i.shift (ms.tdiv 1000) (ms.tmod 1000 * 1000000)).seconds =
      (i.total + ms * 1000000) / 1000000000 := by
  have hsecond : nanosPerSecond = 1000000000 := rfl
  have hsplit : 1000 * ms.tdiv 1000 + ms.tmod 1000 = ms := Int.mul_tdiv_add_tmod ms 1000
  have hlt : ms.tmod 1000 < 1000 := Int.tmod_lt_of_pos ms (by decide)
  have hgt : -1000 < ms.tmod 1000 := Int.lt_tmod_of_pos ms (by decide)
  rw [shift, if_pos h, seconds_carry (by omega) (by omega), total]
  omega

theorem Snapshot.inCalendar_iff {s : Snapshot} (h : s.eta.nanos < nanosPerSecond) :
    s.InCalendar ↔
      Instant.firstSecond ≤ (s.eta.total + correction s.delta * 1000000) / 1000000000 ∧
        (s.eta.total + correction s.delta * 1000000) / 1000000000 ≤ Instant.lastSecond := by
  simp only [InCalendar, final?, Instant.addMillis?, Instant.inRange?, Instant.seconds_shift h]
  split <;> simp_all

/-!
# Clocks and lines
-/

theorem History.natAbs_minutes_lt {offset : Offset} {h : History} {eta observed : Instant}
    {c : Transition} (hchange : h.change? offset eta observed = some c) :
    c.minutes.natAbs < 1440 := by
  cases hlast : h.last with
  | none => simp [change?, hlast] at hchange
  | some previous =>
      have heta := minuteOfDay_lt offset eta
      have hprevious := minuteOfDay_lt offset previous
      simp only [change?, hlast] at hchange
      split at hchange
      · cases hchange
      · cases hchange
        simp only
        omega

def Observation.IsWithinDay : Observation → Prop
  | reached .. => True
  | upcoming _ _ change _ => ∀ c, change = some c → c.minutes.natAbs < 1440

theorem Observation.IsWithinDay.line? {o : Observation} (h : o.IsWithinDay) (offset : Offset)
    (s : Snapshot) : exists text, (BoardEntry.ofObservation offset s o).line? = some text := by
  cases o with
  | reached key arrived => exact ⟨_, rfl⟩
  | upcoming key eta change changes =>
      cases change with
      | none => exact ⟨_, rfl⟩
      | some c =>
          have hle : ¬BoardEntry.greatest < c.minutes.natAbs := by
            have hlt : c.minutes.natAbs < 1440 := h c rfl
            have hday : 1440 ≤ BoardEntry.greatest := by decide
            omega
          simp only [BoardEntry.ofObservation, BoardEntry.line?, BoardEntry.changeText?,
            Option.map_some, if_neg hle]
          exact ⟨_, rfl⟩

namespace Tracker

theorem isWithinDay_observe {t t' : Tracker} {s : Snapshot} {observed : Instant} {o : Observation}
    {lines : Journal} (h : t.observe s observed = some (o, t', lines)) : o.IsWithinDay := by
  rcases observe_cases h with ⟨eta, -, ⟨-, rfl, -, -⟩ | ⟨before, -, -, rfl, -, -⟩⟩
  · trivial
  · exact fun c hc => History.natAbs_minutes_lt hc

theorem isWithinDay_observeAll {t t' : Tracker} {snapshots : List Snapshot} {observed : Instant}
    {os : List Observation} {lines : Journal}
    (h : t.observeAll observed snapshots = some (os, t', lines)) :
    os.length = snapshots.length ∧ ∀ o ∈ os, o.IsWithinDay := by
  induction snapshots generalizing t os lines with
  | nil =>
      cases h
      exact ⟨rfl, fun _ ho => nomatch ho⟩
  | cons s rest ih =>
      rcases observeAll_cases h with ⟨o, t₁, first, others, remarks, hfirst, hrest, rfl, -⟩
      rcases ih hrest with ⟨hlength, hall⟩
      exact ⟨congrArg (· + 1) hlength, List.forall_mem_cons.mpr ⟨isWithinDay_observe hfirst, hall⟩⟩

end Tracker

def Board.entries (b : Board) : List BoardEntry :=
  b.reached ++ b.upcoming

theorem Board.entries_ofObservations_perm (offset : Offset)
    (seen : List (Snapshot × Observation)) :
    (ofObservations offset seen).entries.Perm
      (seen.map fun (s, o) => BoardEntry.ofObservation offset s o) :=
  List.filter_append_perm ..

namespace Tracker

theorem respond_eq_none_iff {t : Tracker} {snapshots : List Snapshot} {observed : Instant} :
    t.respond snapshots observed = none ↔ exists s, s ∈ snapshots ∧ ¬s.InCalendar := by
  have hrespond : t.respond snapshots observed = none ↔ t.observeAll observed snapshots = none := by
    cases hall : t.observeAll observed snapshots <;> simp [respond, hall]
  exact hrespond.trans observeAll_eq_none_iff

theorem entries_respond {t t' : Tracker} {snapshots : List Snapshot} {observed : Instant}
    {board : Board} {lines : Journal} (h : t.respond snapshots observed = some (board, t', lines)) :
    board.entries.length = snapshots.length ∧
      ∀ e ∈ board.entries, exists text, e.line? = some text := by
  rcases respond_cases h with ⟨os, hall, rfl⟩
  rcases isWithinDay_observeAll hall with ⟨hlength, hwithin⟩
  have hperm := Board.entries_ofObservations_perm t'.offset (snapshots.zip os)
  constructor
  · rw [hperm.length_eq, List.length_map, List.length_zip, hlength, Nat.min_self]
  · intro e he
    rcases List.mem_map.mp (hperm.mem_iff.mp he) with ⟨⟨s, o⟩, hmem, rfl⟩
    exact (hwithin o (List.of_mem_zip hmem).2).line? t'.offset s

/-- Whatever a service answers, and whatever is known already, a response can be taken unless the
corrected time of one of its records lies beyond the calendar; one such record is enough to fail.
Otherwise the board has a line for each record that could be read, and each line has a text. -/
theorem respond_snapshots (t : Tracker) (vehicle : String) (response : Json) (observed : Instant) :
    (t.respond (Response.snapshots vehicle response) observed = none ↔
        exists s, s ∈ Response.snapshots vehicle response ∧ ¬s.InCalendar) ∧
      (∀ s ∈ Response.snapshots vehicle response, s.eta.nanos < nanosPerSecond →
        (s.InCalendar ↔
          Instant.firstSecond ≤ (s.eta.total + Snapshot.correction s.delta * 1000000) / 1000000000 ∧
            (s.eta.total + Snapshot.correction s.delta * 1000000) / 1000000000 ≤
              Instant.lastSecond)) ∧
      ∀ board t' lines,
        t.respond (Response.snapshots vehicle response) observed = some (board, t', lines) →
          board.entries.length = (Response.snapshots vehicle response).length ∧
            ∀ e ∈ board.entries, exists text, e.line? = some text :=
  ⟨respond_eq_none_iff, fun _ _ h => Snapshot.inCalendar_iff h,
    fun _ _ _ h => entries_respond h⟩

end Tracker

def Json.halfBeyond : Json :=
  .array [.object [
    ("vehicleInfo", .object [("upcomingStops", .array [
      .object [
        ("delta", .number (.real 1e300)),
        ("eta", .number (.natural 0)),
        ("stop", .object [("coordinate", .object [
          ("lat", .number (.real 22.5)),
          ("lon", .number (.real 88.25))])])],
      .object [
        ("eta", .number (.natural 0)),
        ("stop", .object [("coordinate", .object [
          ("lat", .number (.real 22.75)),
          ("lon", .number (.real 88.5))])])]])]),
    ("vehicleNumber", .string "WB052366")]]

/-- The record that could be taken is lost with the one that cannot. -/
theorem Tracker.respond_fails_beyond_calendar :
    (Response.snapshots "WB052366" .halfBeyond).length = 2 ∧
      ((Response.snapshots "WB052366" .halfBeyond).filter (·.final?.isSome)).length = 1 ∧
        (Tracker.new .utc).respond (Response.snapshots "WB052366" .halfBeyond) ⟨0, 0⟩ = none := by
  have hnone : ((Tracker.new .utc).respond (Response.snapshots "WB052366" .halfBeyond)
      ⟨0, 0⟩).isNone = true := by
    decide +kernel
  exact ⟨by decide +kernel, by decide +kernel, Option.isNone_iff_eq_none.mp hnone⟩

end TransitSim
