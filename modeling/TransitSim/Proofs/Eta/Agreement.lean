import TransitSim.Cli.Program
import TransitSim.Proofs.Eta.MinuteRuns
import TransitSim.Proofs.Eta.Orderly
import TransitSim.Proofs.Eta.Range

/-!
# The board agrees with the histories

The board is made from the estimates of a response, whereas a history keeps the first estimate of a
minute. Both show the same all the same: an estimate that is not written down is in the minute of
the one that is kept, and a clock shows nothing but minutes. Therefore the last line for a stop
tells the time and the number of changes that the summary of the stop will tell.
-/

namespace TransitSim

open Calendar

/-!
# Lines of a board
-/

namespace BoardEntry

def TellsReached (offset : Offset) (s : Snapshot) (e : BoardEntry) : Prop :=
  exists eta, s.final? = some eta ∧ e = ⟨s.key, s.label, clockTime offset eta, true, 0, none⟩

structure TellsAhead (offset : Offset) (s : Snapshot) (e : BoardEntry) : Prop where
  key : e.key = s.key
  name : e.name = s.label
  time : s.final?.map (clockTime offset) = some e.time
  ahead : e.reached = false

end BoardEntry

namespace Board

theorem ofObservations_append (offset : Offset) (seen others : List (Snapshot × Observation)) :
    ofObservations offset (seen ++ others) =
      ⟨(ofObservations offset seen).reached ++ (ofObservations offset others).reached,
        (ofObservations offset seen).upcoming ++ (ofObservations offset others).upcoming⟩ := by
  simp [ofObservations]

theorem ofObservations_cons (offset : Offset) (s : Snapshot) (o : Observation)
    (seen : List (Snapshot × Observation)) :
    ofObservations offset ((s, o) :: seen) =
      if (BoardEntry.ofObservation offset s o).reached then
        ⟨.ofObservation offset s o :: (ofObservations offset seen).reached,
          (ofObservations offset seen).upcoming⟩
      else
        ⟨(ofObservations offset seen).reached,
          .ofObservation offset s o :: (ofObservations offset seen).upcoming⟩ := by
  cases hreached : (BoardEntry.ofObservation offset s o).reached <;>
    simp [ofObservations, hreached]

def IsLatest (b : Board) (e : BoardEntry) : Prop :=
  exists earlier later, b.upcoming = earlier ++ e :: later ∧ ∀ e' ∈ later, e'.key ≠ e.key

end Board

namespace Tracker

variable {t t' : Tracker} {observed : Instant} {lines : Journal}

/-!
# One snapshot
-/

def ShowsChange (t : Tracker) (s : Snapshot) : Prop :=
  exists known last, t.history? s.key = some known ∧ known.last = some last ∧
    s.final?.map (clockTime t.offset) ≠ some (clockTime t.offset last)

def transitions (t : Tracker) (key : String) : List Transition :=
  ((t.history? key).getD .empty).transitions

structure Notes (t : Tracker) (s : Snapshot) (e : BoardEntry) (t' : Tracker) : Prop where
  change : t.ShowsChange s → exists c, t'.transitions s.key = t.transitions s.key ++ [c] ∧
    e.minutes = some c.minutes ∧ c.minutes ≠ 0 ∧ 1 ≤ e.changes
  same : ¬t.ShowsChange s → t'.transitions s.key = t.transitions s.key ∧ e.minutes = none

def Backs (t : Tracker) (e : BoardEntry) : Prop :=
  exists known last, t.history? e.key = some known ∧ known.last = some last ∧
    e.time = clockTime t.offset last ∧ e.changes = known.changes

theorem observe_reached {s : Snapshot} {o : Observation}
    (h : t.observe s observed = some (o, t', lines)) (hstatus : s.status = .reached) :
    t' = t ∧ BoardEntry.TellsReached t.offset s (.ofObservation t.offset s o) := by
  rcases observe_cases h with ⟨eta, heta, ⟨-, rfl, rfl, -⟩ | ⟨before, -, hahead, -⟩⟩
  · exact ⟨rfl, eta, heta, rfl⟩
  · rw [hstatus] at hahead
    cases hahead

theorem observe_ahead {s : Snapshot} {o : Observation}
    (h : t.observe s observed = some (o, t', lines)) (hstatus : s.status = .upcoming) :
    exists eta, s.final? = some eta ∧
      t'.history? s.key =
        some (((t.history? s.key).getD .empty).observe t.offset eta observed) ∧
      (∀ key, key ≠ s.key → t'.history? key = t.history? key) ∧
      BoardEntry.ofObservation t.offset s o = ⟨s.key, s.label, clockTime t.offset eta, false,
        (((t.history? s.key).getD .empty).observe t.offset eta observed).changes,
        (((t.history? s.key).getD .empty).change? t.offset eta observed).map (·.minutes)⟩ := by
  rcases observe_cases h with ⟨eta, heta, ⟨hreached, -⟩ | ⟨before, rfl, -, rfl, rfl, -⟩⟩
  · rw [hstatus] at hreached
    cases hreached
  · refine ⟨eta, heta, ?_, fun key hkey => ?_, rfl⟩
    · rw [history?_put, if_pos rfl]
    · rw [history?_put, if_neg hkey]

theorem showsChange_iff {s : Snapshot} {eta : Instant} (heta : s.final? = some eta) :
    t.ShowsChange s ↔ exists last, ((t.history? s.key).getD .empty).last = some last ∧
      minuteOfDay t.offset eta ≠ minuteOfDay t.offset last := by
  cases hknown : t.history? s.key with
  | none => simp [ShowsChange, hknown, History.empty]
  | some known => simp [ShowsChange, hknown, heta, clockTime_eq_iff]

theorem notes_observe {s : Snapshot} {o : Observation}
    (h : t.observe s observed = some (o, t', lines)) (hstatus : s.status = .upcoming) :
    t.Notes s (.ofObservation t.offset s o) t' := by
  rcases observe_ahead h hstatus with ⟨eta, heta, hself, -, hentry⟩
  rw [hentry]
  constructor
  case change =>
    intro hchange
    rcases (showsChange_iff heta).mp hchange with ⟨last, hlast, hother⟩
    rcases History.observe_of_other observed hlast hother with
      ⟨c, htold, hminutes, hrecord⟩
    rw [hrecord] at hself
    refine ⟨c, ?_, ?_, hminutes, ?_⟩
    · rw [transitions, hself]
      rfl
    · rw [htold, Option.map_some]
    · rw [hrecord]
      exact Nat.le_add_left 1 _
  case same =>
    intro hsame
    have hkept : ∀ last, ((t.history? s.key).getD .empty).last = some last →
        minuteOfDay t.offset eta = minuteOfDay t.offset last := by
      intro last hlast
      exact not_not.mp fun hother => hsame ((showsChange_iff heta).mpr ⟨last, hlast, hother⟩)
    rw [transitions, hself, Option.getD_some]
    cases hlast : ((t.history? s.key).getD .empty).last with
    | none =>
        rw [(History.observe_of_first observed hlast).1,
          (History.observe_of_first observed hlast).2]
        exact ⟨rfl, rfl⟩
    | some last =>
        have hunchanged := History.observe_of_same observed hlast (hkept last hlast)
        rw [hunchanged.1, hunchanged.2]
        exact ⟨rfl, rfl⟩

theorem backs_observe {s : Snapshot} {o : Observation}
    (h : t.observe s observed = some (o, t', lines)) (hstatus : s.status = .upcoming) :
    t'.Backs (.ofObservation t.offset s o) := by
  rcases observe_ahead h hstatus with ⟨eta, -, hself, -, hentry⟩
  rcases History.last_observe t.offset ((t.history? s.key).getD .empty) eta observed with
    ⟨last, hlast, hminute⟩
  rw [hentry, Backs, offset_observe h]
  exact ⟨_, last, hself, hlast, clockTime_eq_iff.mpr hminute.symm, rfl⟩

/-!
# Responses
-/

theorem history?_observeAll {snapshots : List Snapshot} {os : List Observation} {key : String}
    (h : t.observeAll observed snapshots = some (os, t', lines))
    (hothers : ∀ s ∈ snapshots, s.status = .upcoming → s.key ≠ key) :
    t'.history? key = t.history? key := by
  induction snapshots generalizing t os lines with
  | nil =>
      cases h
      rfl
  | cons s rest ih =>
      rcases observeAll_cases h with ⟨o, t₁, first, others, remarks, hfirst, hrest, -, -⟩
      have htail := ih hrest fun s' hs' => hothers s' (List.mem_cons_of_mem s hs')
      cases hstatus : s.status with
      | reached => rw [htail, (observe_reached hfirst hstatus).1]
      | upcoming =>
          rcases observe_ahead hfirst hstatus with ⟨eta, -, -, hother, -⟩
          rw [htail, hother key (hothers s List.mem_cons_self hstatus).symm]

theorem observeAll_split {before after : List Snapshot} {s : Snapshot} {os : List Observation}
    (h : t.observeAll observed (before ++ s :: after) = some (os, t', lines)) :
    exists os₁ t₁ lines₁ o t₂ lines₂ os₂ lines₃,
      t.observeAll observed before = some (os₁, t₁, lines₁) ∧
        t₁.observe s observed = some (o, t₂, lines₂) ∧
          t₂.observeAll observed after = some (os₂, t', lines₃) ∧ os = os₁ ++ o :: os₂ := by
  induction before generalizing t os lines with
  | nil =>
      rcases observeAll_cases h with ⟨o, t₁, first, others, remarks, hfirst, hrest, rfl, -⟩
      exact ⟨[], t, [], o, t₁, first, others, remarks, rfl, hfirst, hrest, rfl⟩
  | cons s' rest ih =>
      rcases observeAll_cases h with ⟨o', t₀, first, others, remarks, hfirst, hrest, rfl, -⟩
      rcases ih hrest with ⟨os₁, t₁, lines₁, o, t₂, lines₂, os₂, lines₃, hbefore, hs, hafter, rfl⟩
      refine ⟨o' :: os₁, t₁, first ++ lines₁, o, t₂, lines₂, os₂, lines₃, ?_, hs, hafter, rfl⟩
      simp only [observeAll, hfirst, hbefore, bind, Option.bind]

theorem length_observeAll {snapshots : List Snapshot} {os : List Observation}
    (h : t.observeAll observed snapshots = some (os, t', lines)) :
    os.length = snapshots.length :=
  (isWithinDay_observeAll h).1

theorem forall₂_observeAll {snapshots : List Snapshot} {os : List Observation}
    (h : t.observeAll observed snapshots = some (os, t', lines)) :
    List.Forall₂ (BoardEntry.TellsReached t.offset) (snapshots.filter (·.status = .reached))
        (Board.ofObservations t.offset (snapshots.zip os)).reached ∧
      List.Forall₂ (BoardEntry.TellsAhead t.offset) (snapshots.filter (·.status = .upcoming))
        (Board.ofObservations t.offset (snapshots.zip os)).upcoming := by
  induction snapshots generalizing t os lines with
  | nil =>
      cases h
      exact ⟨.nil, .nil⟩
  | cons s rest ih =>
      rcases observeAll_cases h with ⟨o, t₁, first, others, remarks, hfirst, hrest, rfl, -⟩
      have htail := ih hrest
      rw [offset_observe hfirst] at htail
      rw [List.zip_cons_cons, Board.ofObservations_cons]
      cases hstatus : s.status with
      | reached =>
          rcases observe_reached hfirst hstatus with ⟨-, eta, heta, hentry⟩
          rw [hentry, List.filter_cons_of_pos (by simp [hstatus]),
            List.filter_cons_of_neg (by simp [hstatus])]
          exact ⟨.cons ⟨eta, heta, rfl⟩ htail.1, htail.2⟩
      | upcoming =>
          rcases observe_ahead hfirst hstatus with ⟨eta, heta, -, -, hentry⟩
          rw [hentry, List.filter_cons_of_neg (by simp [hstatus]),
            List.filter_cons_of_pos (by simp [hstatus])]
          exact ⟨htail.1, .cons ⟨rfl, rfl, by rw [heta]; rfl, rfl⟩ htail.2⟩

theorem key_ne_of_forall₂ {offset : Offset} {snapshots : List Snapshot} {es : List BoardEntry}
    {key : String} (h : List.Forall₂ (BoardEntry.TellsAhead offset) snapshots es)
    (hothers : ∀ e ∈ es, e.key ≠ key) : ∀ s ∈ snapshots, s.key ≠ key := by
  induction h with
  | nil => exact fun _ hs => absurd hs List.not_mem_nil
  | cons htells _ ih =>
      rcases List.forall_mem_cons.mp hothers with ⟨hhead, htail⟩
      exact List.forall_mem_cons.mpr ⟨htells.key ▸ hhead, ih htail⟩

theorem backs_of_isLatest {snapshots : List Snapshot} {os : List Observation} {e : BoardEntry}
    (h : t.observeAll observed snapshots = some (os, t', lines))
    (he : (Board.ofObservations t.offset (snapshots.zip os)).IsLatest e) : t'.Backs e := by
  induction snapshots generalizing t os lines with
  | nil =>
      rcases he with ⟨earlier, later, hupcoming, -⟩
      simp [Board.ofObservations] at hupcoming
  | cons s rest ih =>
      rcases observeAll_cases h with ⟨o, t₁, first, others, remarks, hfirst, hrest, rfl, -⟩
      rcases he with ⟨earlier, later, hupcoming, hlater⟩
      have hoffset : t₁.offset = t.offset := offset_observe hfirst
      rw [List.zip_cons_cons, Board.ofObservations_cons] at hupcoming
      cases hstatus : s.status with
      | reached =>
          rcases observe_reached hfirst hstatus with ⟨-, eta, -, hentry⟩
          rw [hentry, if_pos rfl] at hupcoming
          exact ih hrest ⟨earlier, later, hoffset ▸ hupcoming, hlater⟩
      | upcoming =>
          have hbacks := backs_observe hfirst hstatus
          rcases observe_ahead hfirst hstatus with ⟨eta, -, -, -, hentry⟩
          rw [hentry] at hbacks
          rw [hentry, if_neg Bool.false_ne_true] at hupcoming
          cases earlier with
          | cons _ earlier =>
              have htail := (List.cons.inj hupcoming).2
              exact ih hrest ⟨earlier, later, hoffset ▸ htail, hlater⟩
          | nil =>
              rcases List.cons.inj hupcoming with ⟨rfl, rfl⟩
              rcases hbacks with ⟨known, last, hknown, hlast, htime, hchanges⟩
              have hkeys := key_ne_of_forall₂ (forall₂_observeAll hrest).2 (hoffset ▸ hlater)
              have hkept := history?_observeAll hrest fun s' hs' hahead =>
                hkeys s' (List.mem_filter.mpr ⟨hs', decide_eq_true hahead⟩)
              refine ⟨known, last, hkept.trans hknown, hlast, ?_, hchanges⟩
              rw [htime, offset_observeAll hrest]

/-- What a board says of the snapshots of a response that a tracker has taken. -/
structure Shows (t : Tracker) (snapshots : List Snapshot) (observed : Instant) (b : Board) :
    Prop where
  reached : List.Forall₂ (BoardEntry.TellsReached t.offset)
    (snapshots.filter (·.status = .reached)) b.reached
  upcoming : List.Forall₂ (BoardEntry.TellsAhead t.offset)
    (snapshots.filter (·.status = .upcoming)) b.upcoming
  notes : ∀ before s after, snapshots = before ++ s :: after → s.status = .upcoming →
    exists os₁ t₁ lines₁ o t₂ lines₂ e, t.observeAll observed before = some (os₁, t₁, lines₁) ∧
      t₁.observe s observed = some (o, t₂, lines₂) ∧
        b.upcoming[(before.filter (·.status = .upcoming)).length]? = some e ∧ t₁.Notes s e t₂

theorem shows_respond {snapshots : List Snapshot} {board : Board}
    (h : t.respond snapshots observed = some (board, t', lines)) :
    t.Shows snapshots observed board := by
  rcases respond_cases h with ⟨os, hall, rfl⟩
  rw [offset_observeAll hall]
  have hlines := forall₂_observeAll hall
  refine ⟨hlines.1, hlines.2, ?_⟩
  rintro before s after rfl hstatus
  rcases observeAll_split hall with
    ⟨os₁, t₁, lines₁, o, t₂, lines₂, os₂, lines₃, hbefore, hs, hafter, rfl⟩
  have hnotes := notes_observe hs hstatus
  rcases observe_ahead hs hstatus with ⟨eta, -, -, -, hentry⟩
  rw [offset_observeAll hbefore] at hnotes hentry
  refine ⟨os₁, t₁, lines₁, o, t₂, lines₂, _, hbefore, hs, ?_, hnotes⟩
  have hlength := (forall₂_observeAll hbefore).2.length_eq
  rw [List.zip_append (length_observeAll hbefore).symm, List.zip_cons_cons,
    Board.ofObservations_append, Board.ofObservations_cons, hentry, if_neg Bool.false_ne_true,
    hlength, List.getElem?_append_right (Nat.le_refl _), Nat.sub_self, List.getElem?_cons_zero]

end Tracker

/-!
# What agrees
-/

/-- Whether the last line for each stop tells what is known of the stop. -/
def Board.Agrees (b : Board) (t : Tracker) : Prop :=
  ∀ e, b.IsLatest e → exists known last, t.history? e.key = some known ∧
    known.last = some last ∧ e.time = clockTime t.offset last ∧ e.changes = known.changes ∧
      e.changes = (t.summarize e.key).total

theorem Tracker.Orderly.agrees {t t' : Tracker} (ht : t.Orderly) {snapshots : List Snapshot}
    {observed : Instant} {board : Board} {lines : Journal}
    (h : t.respond snapshots observed = some (board, t', lines)) : board.Agrees t' := by
  intro e he
  rcases respond_cases h with ⟨os, hall, rfl⟩
  rw [offset_observeAll hall] at he
  rcases backs_of_isLatest hall he with ⟨known, last, hknown, hlast, htime, hchanges⟩
  have horderly := (ht.respond h).histories e.key known hknown
  refine ⟨known, last, hknown, hlast, htime, hchanges, ?_⟩
  rw [summarize, hknown, hchanges, horderly.changes]
  rfl

theorem Tracker.orderly_replay {t t' : Tracker} {calls : List Call} (ht : t.Orderly)
    (h : t.replay calls = some t') : t'.Orderly := by
  induction calls generalizing t with
  | nil =>
      cases h
      exact ht
  | cons c rest ih =>
      simp only [replay, List.foldlM_cons, bind, Option.bind_eq_some_iff] at h
      rcases h with ⟨t₁, hcall, hrest⟩
      refine ih ?_ hrest
      cases c with
      | clear =>
          cases hcall
          exact orderly_of_histories_nil rfl
      | observe s observed =>
          simp only [call, Option.map_eq_some_iff, Prod.exists] at hcall
          rcases hcall with ⟨o, t₂, lines, hobserve, rfl⟩
          exact ht.observe hobserve

/-- Whether the summaries tell of each stop ahead what the last line for it tells. -/
def Session.SumsUp (s : Session) : Prop :=
  ∀ e, s.board.IsLatest e →
    (exists sum, sum ∈ s.summaries ∧ sum.key = e.key) ∧
      ∀ sum ∈ s.summaries, sum.key = e.key → sum.summary.total = e.changes ∧
        Cli.summaryLine s.tracker.offset sum = sum.name ++ ": ETA " ++ e.time ++ ", " ++
          toString e.changes ++ " changes (" ++ toString sum.summary.delays ++ " later, " ++
            toString sum.summary.earlier ++ " earlier)\n"

theorem Session.mem_summaries_iff {s : Session} {sum : StopSummary} :
    sum ∈ s.summaries ↔ exists key known, (key, known) ∈ s.tracker.histories ∧
      stopSummary s.names key known = sum := by
  rw [summaries, summariesOf, List.mem_mergeSort, List.mem_map]
  simp only [Prod.exists]

theorem Session.sumsUp_of_agrees {s : Session} (ht : s.tracker.Orderly)
    (h : s.board.Agrees s.tracker) : s.SumsUp := by
  intro e he
  rcases h e he with ⟨known, last, hknown, hlast, htime, hchanges, htotal⟩
  constructor
  · exact ⟨stopSummary s.names e.key known, mem_summaries_iff.mpr
      ⟨e.key, known, Registry.mem_of_find? hknown, rfl⟩, rfl⟩
  · intro sum hsum hkey
    rcases mem_summaries_iff.mp hsum with ⟨key, known', hmem, rfl⟩
    have hfound : s.tracker.history? e.key = some known' := by
      rw [← hkey]
      exact Registry.find?_of_mem ht.keys hmem
    rw [hknown, Option.some.injEq] at hfound
    subst hfound
    have hcount : (stopSummary s.names key known).summary.total = e.changes := by
      rw [htotal, Tracker.summarize, hknown]
      rfl
    refine ⟨hcount, ?_⟩
    have hshown : (stopSummary s.names key known).last = some last := hlast
    rw [Cli.summaryLine, hshown, hcount, htime]

namespace Simulation

variable {m m' : Simulation}

theorem Reachable.agrees (h : m.Reachable) : m.session.board.Agrees m.session.tracker := by
  have hempty : ∀ t, Board.empty.Agrees t := by
    rintro t e ⟨earlier, later, hupcoming, -⟩
    simp [Board.empty] at hupcoming
  induction h with
  | new h clock sink feed journal =>
      rcases Session.new_eq_ok h with ⟨offset, -, rfl, -, -⟩
      exact hempty _
  | step h hstep ih =>
      rcases estimates_of_step hstep with hsame | hclear | ⟨snapshots, observed, lines, htold⟩
      · rcases Prod.mk.inj hsame with ⟨hboard, htracker⟩
        rw [hboard, htracker]
        exact ih
      · rw [(Prod.mk.inj hclear).1]
        exact hempty _
      · exact h.orderly.agrees htold

theorem Reachable.sumsUp (h : m.Reachable) : m.session.SumsUp :=
  Session.sumsUp_of_agrees h.orderly h.agrees

theorem observe_eq_none_iff {snapshots : List Snapshot} {observed : Instant} :
    m.observe snapshots observed = none ↔ exists s, s ∈ snapshots ∧ ¬s.InCalendar := by
  have hnone : m.session.tracker.respond snapshots observed = none ↔ _ :=
    Tracker.respond_eq_none_iff
  rw [← hnone]
  cases hrespond : m.session.tracker.respond snapshots observed <;>
    simp [observe, Session.observe, hrespond]

end Simulation

/-- Whatever a tracker has seen, and in whatever state a session is, a response within the calendar
gives a board that has the stops reached and the stops ahead in order, and tells a change for just
those stops for which a clock shows another time than for the estimate that has been kept; just
these changes are written down. In all states the last line for a stop shows the time of the
estimate that is kept and the number of changes that have been written down, and so does the line
of the summary for the stop. -/
theorem Board.agrees_with_histories :
    (∀ offset calls t, (Tracker.new offset).replay calls = some t → ∀ snapshots observed,
      (t.respond snapshots observed = none ↔ exists s, s ∈ snapshots ∧ ¬s.InCalendar) ∧
        ∀ board t' lines, t.respond snapshots observed = some (board, t', lines) →
          t.Shows snapshots observed board ∧ board.Agrees t') ∧
      ∀ m : Simulation, m.Reachable →
        m.session.board.Agrees m.session.tracker ∧ m.session.SumsUp ∧
          ∀ snapshots observed,
            (m.observe snapshots observed = none ↔ exists s, s ∈ snapshots ∧ ¬s.InCalendar) ∧
              ∀ m', m.observe snapshots observed = some m' →
                m.session.tracker.Shows snapshots observed m'.session.board ∧
                  m'.session.board.Agrees m'.session.tracker ∧ m'.session.SumsUp := by
  constructor
  case left =>
    intro offset calls t ht snapshots observed
    have horderly : t.Orderly := Tracker.orderly_replay (Tracker.orderly_of_histories_nil rfl) ht
    exact ⟨Tracker.respond_eq_none_iff,
      fun board t' lines h => ⟨Tracker.shows_respond h, horderly.agrees h⟩⟩
  case right =>
    intro m hm
    refine ⟨hm.agrees, hm.sumsUp, fun snapshots observed =>
      ⟨Simulation.observe_eq_none_iff, fun m' h => ?_⟩⟩
    have hm' : m'.Reachable := .step hm (.observe h)
    rcases Simulation.exists_respond_of_observe h with ⟨lines, htold⟩
    exact ⟨Tracker.shows_respond htold, hm'.agrees, hm'.sumsUp⟩

def Tracker.twice : List Snapshot :=
  [⟨"quay", none, ⟨50, 0⟩, 0, .upcoming⟩, ⟨"mill", none, ⟨30, 0⟩, 0, .reached⟩,
    ⟨"quay", none, ⟨130, 0⟩, 0, .upcoming⟩]

theorem Board.agrees_with_histories_twice :
    exists t board t' lines, (Tracker.new .utc).replay Tracker.drift.dropLast = some t ∧
      t.respond Tracker.twice ⟨0, 0⟩ = some (board, t', lines) ∧
        board.upcoming.map (fun e => (e.time, e.changes, e.minutes)) =
          [("12:00 AM", 0, none), ("12:02 AM", 1, some 2)] ∧
        t.Shows Tracker.twice ⟨0, 0⟩ board ∧ board.Agrees t' ∧
          exists m',
            (Simulation.standard (.playback .lone) .silent).observe Tracker.twice ⟨0, 0⟩ =
              some m' ∧ m'.session.SumsUp := by
  have hupcoming : ((Tracker.new .utc).replay Tracker.drift.dropLast).bind (fun t =>
      (t.respond Tracker.twice ⟨0, 0⟩).map fun told =>
        told.1.upcoming.map fun e => (e.time, e.changes, e.minutes)) =
      some [("12:00 AM", 0, none), ("12:02 AM", 1, some 2)] := by
    decide +kernel
  have hobserve : ((Simulation.standard (.playback .lone) .silent).observe Tracker.twice
      ⟨0, 0⟩).isSome := by
    decide +kernel
  rcases Option.bind_eq_some_iff.mp hupcoming with ⟨t, ht, htold⟩
  rcases Option.map_eq_some_iff.mp htold with ⟨⟨board, t', lines⟩, hrespond, hboard⟩
  rcases Option.isSome_iff_exists.mp hobserve with ⟨m', hm'⟩
  have hshows := (agrees_with_histories.1 .utc _ t ht Tracker.twice ⟨0, 0⟩).2 board t' lines
    hrespond
  have hsession := agrees_with_histories.2 _
    (Simulation.reachable_standard (.playback .lone) .silent)
  exact ⟨t, board, t', lines, ht, hrespond, hboard, hshows.1, hshows.2, m', hm',
    ((hsession.2.2 Tracker.twice ⟨0, 0⟩).2 m' hm').2.2⟩

end TransitSim
