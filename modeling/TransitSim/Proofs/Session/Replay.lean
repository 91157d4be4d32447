import TransitSim.Proofs.Eta.Digest
import TransitSim.Proofs.Session.Requests

/-!
# Replaying a recording of estimates

A session asks for estimates at each of its ticks. Requests wait to be sent, answers wait to be
taken, and both may happen at any time while somebody waits, in a run or between ticks. Over a
recording all this makes no difference in the end: once everything is settled, the recording has
been asked as often as there were ticks, and what is known is the digest of so many responses.
-/

namespace TransitSim
namespace Simulation

/-- How a simulation stands over a recording after a number of ticks, when a number of responses
has been taken. -/
structure Digests (recording : Recording) (first : Tracker) (ticks taken : Nat) (m : Simulation) :
    Prop where
  feed : m.feed = .recorded { recording with cursor := taken + m.session.answers.length }
  answers : m.session.answers.map Answer.result =
    (List.range' taken m.session.answers.length).map fun index =>
      .ok (Response.snapshots recording.vehicle (recording.response index))
  requests :
    ticks = taken + m.session.answers.length + (m.session.jobs.filterMap Job.fetch?).length
  known : recording.undatedDigest first taken = some (m.session.board, m.session.tracker.undated)

def Replays (recording : Recording) (first : Tracker) (us : List Update) (m : Simulation) : Prop :=
  exists taken, m.Digests recording first us.length taken

/-!
# Digests of what has been taken
-/

section Replays

variable {recording : Recording} {first : Tracker} {m m' : Simulation}

def IsDigest (recording : Recording) (first : Tracker) (taken : Nat) (board : Board)
    (tracker : Tracker) : Prop :=
  recording.undatedDigest first taken = some (board, tracker.undated)

theorem keeps_isDigest : recording.Keeps (IsDigest recording first) := by
  intro taken board tracker board' tracker' lines observed hknown hrespond
  rw [IsDigest, Recording.undatedDigest_succ hknown observed, hrespond]
  rfl

theorem replays_iff {us : List Update} :
    m.Replays recording first us ↔ m.Consumes recording 0 (IsDigest recording first) us := by
  constructor
  · rintro ⟨taken, h⟩
    refine ⟨taken, ⟨h.feed, h.answers, ?_⟩, h.known⟩
    rw [Nat.zero_add]
    exact h.requests
  · rintro ⟨taken, h, hknown⟩
    rw [Nat.zero_add] at h
    exact ⟨taken, h.feed, h.answers, h.requests, hknown⟩

theorem Does.replays {command : Command} {es : List Event} {reply : Reply}
    (h : m.Does command es reply m') (hplain : command.isPlain = true) {before : List Update}
    (hm : m.Replays recording first before) (view : View) :
    m'.Replays recording first (before ++ Act.taken ⟨command, es, reply, view⟩) :=
  replays_iff.mpr ((plainLaw_consumes keeps_isDigest).does h hplain (replays_iff.mp hm) view)

theorem Proceeds.replays {log : List Act} (h : m.Proceeds log m')
    (hplain : ∀ e ∈ log, e.command.isPlain = true) (hm : m.Replays recording first []) :
    m'.Replays recording first (log.flatMap Act.taken) :=
  replays_iff.mpr ((plainLaw_consumes keeps_isDigest).proceeds h hplain (replays_iff.mp hm))

theorem Fails.exists_undatedDigest_eq_none {command : Command} {es : List Event}
    {us before : List Update} (h : m.Fails command es us) (hplain : command.isPlain = true)
    (hm : m.Replays recording first before) :
    exists count, count ≤ (before ++ us).length ∧ recording.undatedDigest first count = none := by
  rcases (replays_iff.mp hm).fails keeps_isDigest h hplain with
    ⟨taken, board, tracker, observed, hle, hknown, hnone⟩
  rw [Nat.zero_add] at hle
  refine ⟨taken + 1, hle, ?_⟩
  rw [Recording.undatedDigest_succ hknown observed, hnone]
  rfl

theorem Replays.digests_of_isSettled {us : List Update} (h : m.Replays recording first us)
    (hsettled : m.IsSettled) : m.Digests recording first us.length us.length := by
  rcases h with ⟨taken, h⟩
  have hawaits : m.Awaits recording us.length taken := ⟨h.feed, h.answers, h.requests⟩
  have htaken := hawaits.taken_of_isSettled hsettled
  rwa [htaken] at h

end Replays

/-!
# What is known in the end
-/

variable {recording : Recording} {m m' : Simulation}

def countTicks (log : List Act) : Nat :=
  (log.flatMap Act.taken).length

/-- A log of a new session over a recording, in which nobody interferes with the estimates. -/
structure IsReplay (config : Config) (recording : Recording) (log : List Act) (m : Simulation) :
    Prop where
  begins : exists (m₀ : Simulation) (source : Source),
    m₀.session.IsNew config source ∧ m₀.feed = .recorded recording ∧ m₀.Proceeds log m
  plain : ∀ e ∈ log, e.command.isPlain = true

theorem IsReplay.step {config : Config} {log : List Act} {command : Command} {es : List Event}
    {reply : Reply} (h : m.IsReplay config recording log) (hdoes : m.Does command es reply m')
    (hplain : command.isPlain = true) :
    m'.IsReplay config recording (log ++ [⟨command, es, reply, m'.session.view⟩]) := by
  rcases h.begins with ⟨m₀, source, hnew, hfeed, hproceeds⟩
  constructor
  case begins => exact ⟨m₀, source, hnew, hfeed, hproceeds.step hdoes⟩
  case plain => exact List.forall_mem_append.mpr ⟨h.plain, List.forall_mem_singleton.mpr hplain⟩

theorem IsReplay.tickTimes {config : Config} {log : List Act}
    (h : m.IsReplay config recording log) {n : Nat}
    (hn : ∀ k, m.session.source.ahead? = some k → n ≤ k) :
    exists log', (m.tickTimes n).2.IsReplay config recording log' ∧
      countTicks log' = countTicks log + n := by
  induction n with
  | zero => exact ⟨log, h, rfl⟩
  | succ n ih =>
      rcases ih fun k hk => Nat.le_of_succ_le (hn k hk) with ⟨log', hlog', hcount⟩
      have hahead : (m.tickTimes n).2.session.course.source.ahead? ≠ some 0 := by
        show (m.tickTimes n).2.session.source.ahead? ≠ some 0
        rw [ahead?_tickTimes]
        intro hzero
        rcases Option.map_eq_some_iff.mp hzero with ⟨k, hk, hsub⟩
        have hle := hn k hk
        omega
      rcases Course.tick_of_ahead?_ne hahead with ⟨u, c, htick, -⟩
      refine ⟨_, hlog'.step (.tick _) rfl, ?_⟩
      rw [countTicks, List.flatMap_append, List.length_append, (tick_eq_ok htick).1,
        ← Nat.add_assoc, ← hcount]
      rfl

theorem IsReplay.settle {config : Config} {log : List Act}
    (h : m.IsReplay config recording log) (hsettle : m.settle = some m') :
    exists log', m'.IsReplay config recording log' ∧ countTicks log' = countTicks log ∧
      m'.session.course = m.session.course := by
  rcases m.settle_cases.1 m' hsettle with ⟨es, hdoes, -⟩
  refine ⟨_, h.step hdoes rfl, ?_, ?_⟩
  · rw [countTicks, List.flatMap_append, List.length_append]
    rfl
  · cases hdoes with
    | settle hleads hes hsettled => exact (hleads.going rfl).follows.course

/-- Whether a recording has been asked a number of times, and all that it answered is known. The
times at which the answers came, whatever they were, only stand in the changes. -/
structure HasDigested (recording : Recording) (offset : Calendar.Offset) (count : Nat)
    (m : Simulation) : Prop where
  feed : m.feed = .recorded { recording with cursor := count }
  known : ∀ observed, exists tracker,
    recording.digest (.new offset) observed count = some (m.session.board, tracker) ∧
      m.session.tracker.undated = tracker.undated

theorem IsReplay.replays {config : Config} {responses : List Json} {vehicle : String}
    {offset : Calendar.Offset} {log : List Act} (h : m.IsReplay config recording log)
    (hrecording : Recording.ofResponses responses vehicle = .ok recording)
    (hoffset : config.offset? = some offset) :
    m.Replays recording (.new offset) (log.flatMap Act.taken) := by
  rcases h.begins with ⟨⟨session, clock, sink, feed, journal⟩, source, ⟨s, stops, hnew, rfl⟩, rfl,
    hproceeds⟩
  rcases Session.new_eq_ok hnew with ⟨offset', hoffset', rfl, -, -⟩
  cases hoffset.symm.trans hoffset'
  have hcursor : recording.cursor = 0 := by
    simp only [Recording.ofResponses] at hrecording
    split at hrecording <;> cases hrecording
    rfl
  refine hproceeds.replays h.plain ⟨0, ?_⟩
  constructor
  case feed =>
    show Feed.recorded recording = .recorded { recording with cursor := 0 }
    rw [← hcursor]
  case answers => rfl
  case requests => rfl
  case known => rfl

theorem Replays.hasDigested {offset : Calendar.Offset} {us : List Update}
    (h : m.Replays recording (.new offset) us) (hsettled : m.IsSettled) :
    m.HasDigested recording offset us.length := by
  have hdigests := h.digests_of_isSettled hsettled
  constructor
  case feed => simpa [hsettled.answers] using hdigests.feed
  case known =>
    intro observed
    have hknown := hdigests.known
    rw [Recording.undatedDigest_eq _ _ observed, Option.map_eq_some_iff] at hknown
    rcases hknown with ⟨⟨board, tracker⟩, hdigest, heq⟩
    injection heq with hboard htracker
    exact ⟨tracker, hboard ▸ hdigest, htracker.symm⟩

theorem IsReplay.hasDigested_of_settle {config : Config} {responses : List Json} {vehicle : String}
    {offset : Calendar.Offset} {log : List Act} (h : m.IsReplay config recording log)
    (hrecording : Recording.ofResponses responses vehicle = .ok recording)
    (hoffset : config.offset? = some offset) {es : List Event} {reply : Reply}
    (hdoes : m.Does .settle es reply m') : m'.HasDigested recording offset (countTicks log) := by
  have hreplays := hdoes.replays rfl (h.replays hrecording hoffset) m'.session.view
  cases hdoes with
  | settle hleads hes hsettled =>
      rw [show Act.taken _ = [] from rfl, List.append_nil] at hreplays
      exact hreplays.hasDigested hsettled

theorem HasDigested.unique {offset : Calendar.Offset} {count : Nat}
    (h : m.HasDigested recording offset count) (h' : m'.HasDigested recording offset count) :
    m'.feed = m.feed ∧ m'.session.board = m.session.board ∧
      m'.session.tracker.undated = m.session.tracker.undated := by
  rcases h.known fun _ => ⟨0, 0⟩ with ⟨tracker, hdigest, htracker⟩
  rcases h'.known fun _ => ⟨0, 0⟩ with ⟨tracker', hdigest', htracker'⟩
  rw [hdigest, Option.some.injEq, Prod.mk.injEq] at hdigest'
  rcases hdigest' with ⟨hboard, rfl⟩
  exact ⟨h'.feed.trans h.feed.symm, hboard.symm, htracker'.trans htracker.symm⟩

/-- A new session over a recording, whatever commands it is given and however they are carried out,
has asked the recording once for each tick that took a position, and knows the digest of so many
responses, as soon as all is settled. Settling completes unless that digest holds a time beyond the
calendar, and nothing else can make a command fail. Logs with equally many ticks end alike. -/
theorem settle_hasDigested {config : Config} {responses : List Json} {vehicle : String}
    {offset : Calendar.Offset} {log : List Act}
    (hrecording : Recording.ofResponses responses vehicle = .ok recording)
    (hoffset : config.offset? = some offset) (h : m.IsReplay config recording log) :
    (∀ es reply m', m.Does .settle es reply m' →
        m'.HasDigested recording offset (countTicks log)) ∧
      (∀ m', m.settle = some m' → m'.HasDigested recording offset (countTicks log)) ∧
      (∀ observed, m.settle = none ↔
        recording.digest (.new offset) observed (countTicks log) = none) ∧
      (∀ command es us observed, command.isPlain = true → m.Fails command es us →
        exists count, count ≤ countTicks log + us.length ∧
          recording.digest (.new offset) observed count = none) ∧
      (∀ (config₁ : Config) (log₁ : List Act) (m₁ : Simulation),
        config₁.offset? = some offset → m₁.IsReplay config₁ recording log₁ →
          countTicks log₁ = countTicks log →
        ∀ es reply m' es₁ reply₁ m₁',
          m.Does .settle es reply m' → m₁.Does .settle es₁ reply₁ m₁' →
          m₁'.feed = m'.feed ∧ m₁'.session.board = m'.session.board ∧
            m₁'.session.tracker.undated = m'.session.tracker.undated) := by
  have hsettles : ∀ es reply m', m.Does .settle es reply m' →
      m'.HasDigested recording offset (countTicks log) :=
    fun _ _ _ hdoes => h.hasDigested_of_settle hrecording hoffset hdoes
  have hsettle : ∀ m', m.settle = some m' → m'.HasDigested recording offset (countTicks log) := by
    intro m' hm'
    rcases m.settle_cases.1 m' hm' with ⟨es, hdoes, -⟩
    exact hsettles es _ m' hdoes
  have hfails : ∀ command es us observed, command.isPlain = true → m.Fails command es us →
      exists count, count ≤ countTicks log + us.length ∧
        recording.digest (.new offset) observed count = none := by
    intro command es us observed hplain hfail
    rcases hfail.exists_undatedDigest_eq_none hplain (h.replays hrecording hoffset) with
      ⟨count, hle, hnone⟩
    rw [List.length_append] at hle
    exact ⟨count, hle, recording.digest_eq_none_iff.mpr hnone⟩
  refine ⟨hsettles, hsettle, fun observed => ⟨fun hnone => ?_, fun hnone => ?_⟩, hfails, ?_⟩
  · rcases m.settle_cases.2 hnone with ⟨es, hfail, -⟩
    rcases hfails _ es [] observed rfl hfail with ⟨count, hle, hdigest⟩
    rw [Recording.digest_eq_none_iff] at hdigest ⊢
    exact Recording.undatedDigest_eq_none_of_le hdigest hle
  · cases hm : m.settle with
    | none => rfl
    | some m' =>
        rcases (hsettle m' hm).known observed with ⟨tracker, hdigest, -⟩
        cases hnone.symm.trans hdigest
  · intro config₁ log₁ m₁ hoffset₁ h₁ hticks es reply m' es₁ reply₁ m₁' hdoes hdoes₁
    have hdigested₁ := h₁.hasDigested_of_settle hrecording hoffset₁ hdoes₁
    exact (hsettles es reply m' hdoes).unique (hticks ▸ hdigested₁)

theorem isReplay_crossing : crossing.IsReplay .standard .drifting [] where
  begins := ⟨crossing, .playback .crossing, ⟨_, [], Session.new_standard _, rfl⟩, rfl, .nil⟩
  plain := fun _ he => nomatch he

theorem settle_hasDigested_crossing :
    exists m₁ m₂ m₃, (crossing.tickTimes 1).2.settle = some m₁ ∧
      (m₁.tickTimes 2).2.settle = some m₂ ∧ (crossing.tickTimes 3).2.settle = some m₃ ∧
        m₂.HasDigested .drifting .utc 3 ∧
        m₂.session.board.upcoming.map (fun e => (e.changes, e.minutes)) = [(1, some 2)] ∧
        m₃.session.board = m₂.session.board ∧
        m₃.session.tracker.undated = m₂.session.tracker.undated := by
  have hrecording : Recording.ofResponses [.estimate 0, .estimate 30000, .estimate 150000]
      "WB052366" = .ok .drifting := rfl
  have hoffset : Config.standard.offset? = some .utc := rfl
  have hdigest : ∀ count ≤ 3,
      Recording.drifting.digest (.new .utc) (fun _ => ⟨0, 0⟩) count ≠ none := by
    decide +kernel
  have hsettles : ∀ {m : Simulation} {log : List Act}, m.IsReplay .standard .drifting log →
      countTicks log ≤ 3 → exists m', m.settle = some m' := by
    intro m log h hle
    cases hsettle : m.settle with
    | some m' => exact ⟨m', rfl⟩
    | none =>
        have hnone := ((settle_hasDigested hrecording hoffset h).2.2.1 fun _ => ⟨0, 0⟩).mp hsettle
        exact absurd hnone (hdigest _ hle)
  have hahead : crossing.session.source.ahead? = some 4 := rfl
  obtain ⟨log₁, hlog₁, hcount₁⟩ := isReplay_crossing.tickTimes (n := 1) (by simp [hahead])
  rcases hsettles hlog₁ (by rw [hcount₁]; decide) with ⟨m₁, hm₁⟩
  obtain ⟨log₁', hlog₁', hcount₁', hcourse⟩ := hlog₁.settle hm₁
  have hahead₁ : m₁.session.source.ahead? = some 3 := by
    rw [show m₁.session.source = _ from congrArg Course.source hcourse]
    exact ahead?_tickTimes crossing 1
  obtain ⟨log₂, hlog₂, hcount₂⟩ := hlog₁'.tickTimes (n := 2) (by simp [hahead₁])
  obtain ⟨log₃, hlog₃, hcount₃⟩ := isReplay_crossing.tickTimes (n := 3) (by simp [hahead])
  have hthree : countTicks log₂ = 3 := by rw [hcount₂, hcount₁', hcount₁]; rfl
  rcases hsettles hlog₂ (Nat.le_of_eq hthree) with ⟨m₂, hm₂⟩
  rcases hsettles hlog₃ (Nat.le_of_eq hcount₃) with ⟨m₃, hm₃⟩
  rcases (settle_cases _).1 m₂ hm₂ with ⟨es₂, hdoes₂, -⟩
  rcases (settle_cases _).1 m₃ hm₃ with ⟨es₃, hdoes₃, -⟩
  obtain ⟨-, hsettled, -, -, halike⟩ := settle_hasDigested hrecording hoffset hlog₂
  have hdigested := hsettled m₂ hm₂
  rw [hthree] at hdigested
  have hends := halike .standard log₃ _ hoffset hlog₃ (hcount₃.trans hthree.symm) _ _ _ _ _ _
    hdoes₂ hdoes₃
  rcases hdigested.known fun _ => ⟨0, 0⟩ with ⟨tracker, hknown, -⟩
  have hmoved : (Recording.drifting.digest (.new .utc) (fun _ => ⟨0, 0⟩) 3).map
      (·.1.upcoming.map fun e => (e.changes, e.minutes)) = some [(1, some 2)] := by
    decide +kernel
  rw [hknown] at hmoved
  exact ⟨m₁, m₂, m₃, hm₁, hm₂, hm₃, hdigested, Option.some.inj hmoved, hends.2⟩

end Simulation

def Recording.moving : Recording where
  responses := [.estimate 0, .estimate 60000]
  vehicle := "WB052366"
  cursor := 0
  responses_pos := Nat.two_pos

end TransitSim
