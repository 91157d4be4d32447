import TransitSim.Proofs.Config.Validation
import TransitSim.Proofs.Run.Refinement
import TransitSim.Proofs.Session.Conduct

/-!
# Refused commands

A command may be refused: a start while the timer is running, a multiplier that is zero or leaves no
time between ticks, a jump on a route or beyond a recording, a tick at the end of a recording. What
a session holds is looked at before it is changed, so that a refused command leaves everything as it
was. The one exception is meant: the tick that finds a recording at its end stops the timer.

A recording at its end stays there. Nothing but a jump that succeeds or a reset makes it go on.
-/

namespace TransitSim

/-!
# Why parts of a session refuse
-/

theorem Source.seek_eq_error_iff {s : Source} {index : Nat} {e : Error} :
    s.seek index = .error e ↔
      (s.mode = .route ∧ e = .input .seekOnRoute) ∨
        exists player, s = .playback player ∧ player.length ≤ index ∧
          e = .indexOutOfRange index player.length := by
  cases s with
  | route follower speed step => simp [seek, mode, eq_comm]
  | playback player =>
      by_cases hlt : index < player.samples.length
      · simp [seek, mode, Player.seek, Player.length, hlt, Nat.not_le.mpr hlt, bind, Except.bind]
      · have hle : player.samples.length ≤ index := Nat.le_of_not_lt hlt
        simp [seek, mode, Player.seek, Player.length, hle, bind, Except.bind, eq_comm]

theorem Source.ahead?_eq_zero_iff {s : Source} :
    s.ahead? = some 0 ↔ exists player, s = .playback player ∧ player.isComplete = true := by
  cases s with
  | route follower speed step => simp [ahead?]
  | playback player => simp [ahead?, Player.isComplete, Nat.sub_eq_zero_iff_le]

def Source.InBounds : Source → Prop
  | route .. => True
  | playback player => player.cursor ≤ player.length

theorem Source.InBounds.next {s s' : Source} {u : Update} (h : s.next = .ok (u, s')) :
    s'.InBounds := by
  cases s with
  | route follower speed step =>
      cases h
      trivial
  | playback player =>
      cases hsample : player.samples[player.cursor]? with
      | none => simp [Source.next, Player.advance, hsample, bind, Except.bind] at h
      | some sample =>
          simp only [Source.next, Player.advance, hsample, bind, Except.bind, Except.ok.injEq,
            Prod.mk.injEq] at h
          rw [← h.2]
          exact (List.getElem?_eq_some_iff.mp hsample).1

theorem Source.InBounds.seek {s s' : Source} {index : Nat} {u : Update}
    (h : s.seek index = .ok (u, s')) : s'.InBounds := by
  cases s with
  | route follower speed step => cases h
  | playback player =>
      cases hsample : player.samples[index]? with
      | none => simp [Source.seek, Player.seek, hsample, bind, Except.bind] at h
      | some sample =>
          simp only [Source.seek, Player.seek, hsample, bind, Except.bind, Except.ok.injEq,
            Prod.mk.injEq] at h
          rw [← h.2]
          exact Nat.le_of_lt (List.getElem?_eq_some_iff.mp hsample).1

theorem Source.inBounds_reset (s : Source) : s.reset.InBounds := by
  cases s with
  | route follower speed step => trivial
  | playback player => exact Nat.zero_le _

theorem Run.Leads.ends_ok {r : Run} {es : List Event} {us : List Update}
    {result : Except Error Outcome} {m : Simulation} (h : r.Leads es us (.ends result m))
    (hbegins : r.taken = 0) : exists outcome, result = .ok outcome := by
  rcases h.cases hbegins with ⟨r', hgoes, -⟩ | ⟨e, result', m', -, hturn, -, hends⟩ |
    ⟨es', r', -, hfails, -⟩
  · cases hgoes
  · cases hturn
    cases hends with
    | interrupted room => exact ⟨_, rfl⟩
    | full limit taken => exact ⟨_, rfl⟩
    | exhausted room ahead => exact ⟨_, rfl⟩
  · cases hfails

theorem Run.Leads.of_complete {r : Run} {es : List Event} {us : List Update}
    {turn : Turn} (h : r.Leads es us turn) (hbegins : r.taken = 0)
    (hahead : r.simulation.session.source.ahead? = some 0) :
    us = [] ∧ ∀ m, turn.simulation? = some m →
      m.session.course = r.simulation.session.course := by
  have hfollows {s : Session} (hrow : r.simulation.Follows us s) :
      us = [] ∧ s.course = r.simulation.session.course := by
    have hnone : us = [] := List.length_eq_zero_iff.mp (Nat.le_zero.mp (hrow.within 0 hahead))
    subst hnone
    exact ⟨rfl, hrow.course⟩
  rcases h.cases hbegins with ⟨r', rfl, hgoing⟩ | ⟨e, result, m, -, rfl, hrow, -⟩ |
    ⟨es', r', -, rfl, hleads, -⟩
  · refine ⟨(hfollows hgoing.follows).1, ?_⟩
    rintro m ⟨⟩
    exact (hfollows hgoing.follows).2
  · refine ⟨(hfollows hrow).1, ?_⟩
    rintro m ⟨⟩
    exact (hfollows hrow).2
  · exact ⟨(hfollows (hleads.going hbegins).follows).1, fun m hm => by cases hm⟩

namespace Simulation

variable {m m' : Simulation} {command : Command} {events : List Event} {reply : Reply} {e : Error}

/-!
# Which commands are refused
-/

/-- Which commands are refused, and why. -/
inductive Refuses (m : Simulation) : Command → Error → Prop where
  | running (h : m.session.isRunning = true) : Refuses m .start .alreadyRunning
  | zero : Refuses m (.setMultiplier 0) (.input .zeroMultiplier)
  | noPeriod {multiplier : Nat} (hpos : 0 < multiplier)
      (h : m.session.scheduler.base < multiplier) :
      Refuses m (.setMultiplier multiplier)
        (.input (.noPeriod multiplier m.session.scheduler.base))
  | seekOnRoute {index : Nat} (h : m.session.mode = .route) :
      Refuses m (.seek index) (.input .seekOnRoute)
  | seekBeyond {index : Nat} {player : Player} (hsource : m.session.source = .playback player)
      (h : player.length ≤ index) :
      Refuses m (.seek index) (.indexOutOfRange index player.length)
  | complete {player : Player} (hsource : m.session.source = .playback player)
      (h : player.isComplete = true) : Refuses m .tick .playbackComplete

def Reply.error? : Reply → Option Error
  | granted (.error e) | position (.error e) | outcome (.error e) _ => some e
  | _ => none

/-- Whether a session has come from another by stopping the timer. The work left differs at most in
the turns of the timer. -/
structure OnlyStops (m m' : Simulation) : Prop where
  session : m'.session =
    { m.session with scheduler := m.session.scheduler.stop, jobs := m'.session.jobs }
  outward : m'.session.jobs.filter Job.isOutward = m.session.jobs.filter Job.isOutward
  idle : m.session.isRunning = false → m'.session = m.session
  clock : m'.clock = m.clock
  sink : m'.sink = m.sink
  feed : m'.feed = m.feed

/-!
# Command by command
-/

theorem start_of_running (h : m.session.isRunning = true) :
    m.start = (.error .alreadyRunning, m.note (Journal.warn Scheduler.alreadyRunning)) := by
  have hrunning : m.session.scheduler.isRunning = true := h
  simp [start, Session.start, Scheduler.start, Scheduler.startRemarks, hrunning]

theorem start_of_idle (hready : m.session.scheduler.Ready) (h : m.session.isRunning = false) :
    m.start.1 = .ok () := by
  simp [start, Session.start, hready.start h]

theorem start_eq_error_iff (hready : m.session.scheduler.Ready) :
    m.start.1 = .error e ↔ m.Refuses .start e := by
  constructor
  · intro h
    cases hrunning : m.session.isRunning with
    | true =>
        rw [start_of_running hrunning] at h
        cases h
        exact .running hrunning
    | false =>
        rw [start_of_idle hready hrunning] at h
        cases h
  · intro h
    cases h with
    | running hrunning => rw [start_of_running hrunning]

theorem setMultiplier_eq_error_iff {multiplier : Nat} :
    (m.setMultiplier multiplier).1 = .error e ↔ m.Refuses (.setMultiplier multiplier) e := by
  have hchecked : (m.setMultiplier multiplier).1 = .error e ↔
      Period.checked m.session.scheduler.base multiplier = .error e := by
    cases h : Period.checked m.session.scheduler.base multiplier <;>
      simp [setMultiplier, Session.setMultiplier, Scheduler.setMultiplier, h, Except.map]
  rw [hchecked, Period.checked_eq_error_iff]
  constructor
  · rintro (⟨rfl, rfl⟩ | ⟨hpos, hshort, rfl⟩)
    · exact .zero
    · exact .noPeriod hpos hshort
  · intro h
    cases h with
    | zero => exact Or.inl ⟨rfl, rfl⟩
    | noPeriod hpos hshort => exact Or.inr ⟨hpos, hshort, rfl⟩

theorem course_setMultiplier (m : Simulation) (multiplier : Nat) :
    (m.setMultiplier multiplier).2.session.course = m.session.course := by
  simp only [setMultiplier, Session.setMultiplier]
  cases m.session.scheduler.setMultiplier m.clock.now multiplier <;> rfl

theorem setMultiplier_of_error {multiplier : Nat}
    (h : (m.setMultiplier multiplier).1 = .error e) : (m.setMultiplier multiplier).2 = m := by
  cases hset : m.session.setMultiplier m.clock.now multiplier with
  | error e' => simp [setMultiplier, hset]
  | ok s => simp [setMultiplier, hset] at h

theorem seek_eq_error_iff {index : Nat} :
    (m.seek index).1 = .error e ↔ m.Refuses (.seek index) e := by
  have hsource : (m.seek index).1 = .error e ↔ m.session.source.seek index = .error e := by
    cases h : m.session.source.seek index <;> simp [seek, Session.seek, h, Except.map]
  rw [hsource, Source.seek_eq_error_iff]
  constructor
  · rintro (⟨hmode, rfl⟩ | ⟨player, hplayer, hbeyond, rfl⟩)
    · exact .seekOnRoute hmode
    · exact .seekBeyond hplayer hbeyond
  · intro h
    cases h with
    | seekOnRoute hmode => exact Or.inl ⟨hmode, rfl⟩
    | seekBeyond hplayer hbeyond => exact Or.inr ⟨_, hplayer, hbeyond, rfl⟩

theorem seek_of_error {index : Nat} (h : (m.seek index).1 = .error e) :
    (m.seek index).2 = m := by
  cases hseek : m.session.seek m.clock.instant index with
  | error e' => simp [seek, hseek]
  | ok next => simp [seek, hseek] at h

theorem tick_of_complete (h : m.session.source.ahead? = some 0) :
    m.tick.1 = .error .playbackComplete ∧ m.tick.2.session = m.session.stopTimer := by
  have htick := tick_eq_error (Course.tick_of_ahead?_zero (c := m.session.course) h)
  exact ⟨htick.1, htick.2.2⟩

theorem tick_eq_error_iff : m.tick.1 = .error e ↔ m.Refuses .tick e := by
  constructor
  · intro h
    by_cases hahead : m.session.source.ahead? = some 0
    · rw [(tick_of_complete hahead).1] at h
      cases h
      rcases Source.ahead?_eq_zero_iff.mp hahead with ⟨player, hplayer, hcomplete⟩
      exact .complete hplayer hcomplete
    · rcases Course.tick_of_ahead?_ne (c := m.session.course) hahead with ⟨u, c, hcourse, -⟩
      rw [(tick_eq_ok hcourse).1] at h
      cases h
  · intro h
    cases h with
    | complete hplayer hcomplete =>
        exact (tick_of_complete (Source.ahead?_eq_zero_iff.mpr ⟨_, hplayer, hcomplete⟩)).1

theorem filter_isOutward_jobsAfterStop (s : Session) :
    s.jobsAfterStop.filter Job.isOutward = s.jobs.filter Job.isOutward := by
  have hkept := Session.filterMap_jobsAfterStop (p := Option.guard Job.isOutward) rfl rfl s
  rwa [List.filterMap_eq_filter] at hkept

theorem onlyStops_tick (h : m.session.source.ahead? = some 0) : m.OnlyStops m.tick.2 := by
  have hstopped := (tick_of_complete h).2
  constructor
  case session =>
    rw [hstopped]
    rfl
  case outward =>
    rw [hstopped]
    exact filter_isOutward_jobsAfterStop m.session
  case idle =>
    intro hidle
    have hjobs : m.session.jobsAfterStop = m.session.jobs := by simp [Session.jobsAfterStop, hidle]
    rw [hstopped, Session.stopTimer, Scheduler.stop_of_idle hidle, hjobs]
  case clock => rfl
  case sink => rfl
  case feed => rfl

/-!
# All commands
-/

theorem Does.refused_iff (h : m.Does command events reply m')
    (hready : m.session.scheduler.Ready) :
    (reply.error? = some e ↔ m.Refuses command e) ∧
      (reply.error? = some e →
        (command ≠ .tick → exists lines, m' = m.note lines) ∧
          (command = .tick → m.OnlyStops m')) := by
  have hgranted {result : Except Error Unit} :
      (Reply.granted result).error? = some e ↔ result = .error e := by
    cases result <;> simp [Reply.error?]
  have hposition {result : Except Error Update} :
      (Reply.position result).error? = some e ↔ result = .error e := by
    cases result <;> simp [Reply.error?]
  cases h with
  | tick =>
      rw [hposition]
      refine ⟨tick_eq_error_iff, fun herror => ⟨fun hne => absurd rfl hne, fun _ => ?_⟩⟩
      cases tick_eq_error_iff.mp herror with
      | complete hplayer hcomplete =>
          exact onlyStops_tick (Source.ahead?_eq_zero_iff.mpr ⟨_, hplayer, hcomplete⟩)
  | seek index =>
      rw [hposition]
      refine ⟨seek_eq_error_iff, fun herror => ⟨fun _ => ⟨[], ?_⟩, by simp⟩⟩
      rw [seek_of_error herror, note, List.append_nil]
  | start =>
      rw [hgranted]
      refine ⟨start_eq_error_iff hready, fun herror => ⟨fun _ => ?_, by simp⟩⟩
      cases (start_eq_error_iff hready).mp herror with
      | running hrunning => exact ⟨_, congrArg Prod.snd (start_of_running hrunning)⟩
  | setMultiplier multiplier =>
      rw [hgranted]
      refine ⟨setMultiplier_eq_error_iff, fun herror => ⟨fun _ => ⟨[], ?_⟩, by simp⟩⟩
      rw [setMultiplier_of_error herror, note, List.append_nil]
  | stop | reset | observe | settle | idle => refine ⟨⟨?_, ?_⟩, ?_⟩ <;> (intro h; cases h)
  | refuse he =>
      rcases beginRun_of_ready hready _ _ with ⟨b, hbegin, -⟩
      rw [hbegin] at he
      cases he
  | run hbegin hleads =>
      rename_i m₁ limit deadline us result
      rcases m.beginRun_eq limit deadline with ⟨b, hb, -⟩
      rw [hb] at hleads
      rcases hleads.ends_ok rfl with ⟨outcome, rfl⟩
      refine ⟨⟨?_, ?_⟩, ?_⟩ <;> (intro h; cases h)

/-!
# Recordings at their end
-/

/-- Whether a command makes a recording go on: a jump that succeeded, or a reset. -/
def Act.rewinds (act : Act) : Bool :=
  match act.command, act.reply with
  | .seek _, .position (.ok _) | .reset, _ => true
  | _, _ => false

theorem Does.of_complete (h : m.Does command events reply m')
    (hahead : m.session.source.ahead? = some 0) {view : View}
    (hon : (Act.mk command events reply view).rewinds = false) :
    m'.session.course = m.session.course ∧ (Act.mk command events reply view).taken = [] ∧
      (command = .tick → reply = .position (.error .playbackComplete)) := by
  cases h with
  | tick =>
      have htick := tick_of_complete hahead
      rw [htick.1, htick.2]
      exact ⟨rfl, rfl, fun _ => rfl⟩
  | seek index =>
      refine ⟨?_, rfl, by simp⟩
      cases hseek : (m.seek index).1 with
      | ok u =>
          rw [hseek] at hon
          cases hon
      | error e => rw [seek_of_error hseek]
  | start => exact ⟨course_start m, rfl, by simp⟩
  | stop => exact ⟨rfl, rfl, by simp⟩
  | setMultiplier multiplier => exact ⟨course_setMultiplier m multiplier, rfl, by simp⟩
  | reset => cases hon
  | observe hobserve =>
      refine ⟨?_, rfl, by simp⟩
      simp only [Simulation.observe, Option.map_eq_some_iff, Prod.exists] at hobserve
      rcases hobserve with ⟨s, lines, hsession, rfl⟩
      exact (Session.keeps_observe hsession).course
  | refuse he =>
      rename_i limit deadline e
      refine ⟨?_, rfl, by simp⟩
      rcases m.beginRun_eq limit deadline with ⟨b, hb, hcourse⟩
      rw [hb]
      exact hcourse
  | run hbegin hleads =>
      rename_i n limit deadline us result
      rcases m.beginRun_eq limit deadline with ⟨b, hb, hcourse⟩
      rw [hb] at hleads
      have hsource : b.session.source = m.session.source := congrArg Course.source hcourse
      rcases hleads.of_complete rfl (hsource ▸ hahead) with ⟨rfl, hkept⟩
      exact ⟨(hkept n rfl).trans hcourse, rfl, by simp⟩
  | settle hleads => exact ⟨(hleads.of_complete rfl hahead).2 _ rfl, rfl, by simp⟩
  | idle hleads => exact ⟨(hleads.of_complete rfl hahead).2 _ rfl, rfl, by simp⟩

theorem Proceeds.of_complete {log : List Act} (h : m.Proceeds log m')
    (hahead : m.session.source.ahead? = some 0) (hon : ∀ act ∈ log, act.rewinds = false) :
    m'.session.course = m.session.course ∧
      ∀ act ∈ log, act.taken = [] ∧
        (act.command = .tick → act.reply = .position (.error .playbackComplete)) := by
  induction h with
  | nil => exact ⟨rfl, fun act hact => by cases hact⟩
  | step h hdoes ih =>
      rename_i log m₁ m₂ command events reply
      rcases List.forall_mem_append.mp hon with ⟨hbefore, hlast⟩
      rcases ih hbefore with ⟨hcourse, hall⟩
      have hsource : m₁.session.source = m.session.source := congrArg Course.source hcourse
      have hdone := hdoes.of_complete (hsource ▸ hahead) (hlast _ (List.mem_singleton_self _))
      refine ⟨hdone.1.trans hcourse, List.forall_mem_append.mpr ⟨hall, ?_⟩⟩
      intro act hact
      cases List.mem_singleton.mp hact
      exact hdone.2

theorem inBounds_of_step (h : Step m m') (hm : m.session.source.InBounds) :
    m'.session.source.InBounds := by
  have hstays {s : Session} (hcourse : s.course = m.session.course) : s.source.InBounds := by
    rw [show s.source = m.session.source from congrArg Course.source hcourse]
    exact hm
  cases h with
  | withStops stops => exact hm
  | tick =>
      cases hnext : m.session.source.next with
      | ok next =>
          have hmoved : m.tick.2.session.source = next.2 := by
            simp [tick, Session.tick, hnext]
          rw [hmoved]
          exact .next hnext
      | error e =>
          have hstayed : m.tick.2.session.source = m.session.source := by
            simp only [tick, Session.tick, hnext]
            split <;> rfl
          rw [hstayed]
          exact hm
  | seek index =>
      cases hseek : m.session.source.seek index with
      | ok next =>
          have hmoved : (m.seek index).2.session.source = next.2 := by
            simp [seek, Session.seek, hseek, Except.map]
          rw [hmoved]
          exact .seek hseek
      | error e =>
          have hrefused : (m.seek index).1 = .error e := by
            simp [seek, Session.seek, hseek, Except.map]
          rw [seek_of_error hrefused]
          exact hm
  | start => exact hstays (course_start m)
  | stop => exact hm
  | setMultiplier multiplier => exact hstays (course_setMultiplier m multiplier)
  | reset => exact Source.inBounds_reset m.session.source
  | observe hobserve =>
      simp only [observe, Option.map_eq_some_iff, Prod.exists] at hobserve
      rcases hobserve with ⟨s, lines, hsession, rfl⟩
      exact hstays (Session.keeps_observe hsession).course
  | receive htake => exact hm
  | answer hanswer => exact hstays (keeps_takeAnswer hanswer).course
  | work hjob => exact hstays (keeps_perform _ _).course
  | fire htimer hdue => exact hm
  | pass time => exact hstays (keeps_passTo m time).course
  | sleep ms => exact hstays (keeps_sleep m ms).course

/-- In every state, commands are refused for the reasons given and for no other. What was refused
has changed nothing but the journal; only the tick that finds a recording at its end stops the
timer, and from then on ticks bring no position until somebody jumps or resets. A recording within
its bounds stays there, so that its end is the only place where ticks fail. -/
theorem refused_changes_nothing (hm : m.Reachable) :
    (∀ command events reply m' e, m.Does command events reply m' →
      (reply.error? = some e ↔ m.Refuses command e) ∧
        (reply.error? = some e →
          (command ≠ .tick → exists lines, m' = m.note lines) ∧
            (command = .tick → m.OnlyStops m'))) ∧
      (m.tick.1 = .error .playbackComplete → ∀ log m', m.tick.2.Proceeds log m' →
        (∀ act ∈ log, act.rewinds = false) →
          m'.tick.1 = .error .playbackComplete ∧
            ∀ act ∈ log, act.taken = [] ∧
              (act.command = .tick → act.reply = .position (.error .playbackComplete))) ∧
      (m.session.source.InBounds →
        (∀ m', m.Step m' → m'.session.source.InBounds) ∧
          ∀ player, m.session.source = .playback player →
            (player.isComplete = true ↔ player.cursor = player.length)) := by
  refine ⟨fun command events reply m' e h => h.refused_iff hm.ready, ?_, ?_⟩
  · intro hover log m' hlog hon
    cases tick_eq_error_iff.mp hover with
    | complete hplayer hcomplete =>
        have hahead := Source.ahead?_eq_zero_iff.mpr ⟨_, hplayer, hcomplete⟩
        have hstopped : m.tick.2.session.source = m.session.source := by
          rw [(tick_of_complete hahead).2]
          rfl
        rcases hlog.of_complete (hstopped ▸ hahead) hon with ⟨hcourse, hall⟩
        have hsource : m'.session.source = m.session.source :=
          (congrArg Course.source hcourse).trans hstopped
        exact ⟨(tick_of_complete (hsource ▸ hahead)).1, hall⟩
  · intro hbounds
    refine ⟨fun m' hstep => inBounds_of_step hstep hbounds, fun player hplayer => ?_⟩
    have hle : player.cursor ≤ player.length := by
      rw [hplayer] at hbounds
      exact hbounds
    simp only [Player.isComplete, decide_eq_true_eq]
    omega

theorem refused_changes_nothing_lone :
    (standard (.playback .lone) .silent).start.2.tick.2.Reachable ∧
      (standard (.playback .lone) .silent).start.2.tick.2.Refuses .tick .playbackComplete ∧
        (standard (.playback .lone) .silent).start.2.tick.2.session.isRunning = true ∧
          (standard (.playback .lone) .silent).start.2.tick.2.OnlyStops
            (standard (.playback .lone) .silent).start.2.tick.2.tick.2 := by
  have hm : (standard (.playback .lone) .silent).start.2.tick.2.Reachable :=
    ((reachable_standard _ _).step (.start _)).step (.tick _)
  have hsource : (standard (.playback .lone) .silent).start.2.tick.2.session.source =
      .playback { Player.lone with cursor := 1 } := rfl
  have hrefuses : (standard (.playback .lone) .silent).start.2.tick.2.Refuses .tick
      .playbackComplete := .complete hsource rfl
  rcases (refused_changes_nothing hm).1 _ _ _ _ _ (.tick _) with ⟨hiff, hleaves⟩
  exact ⟨hm, hrefuses, rfl, (hleaves (hiff.mpr hrefuses)).2 rfl⟩

end Simulation
end TransitSim
