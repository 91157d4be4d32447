import TransitSim.Proofs.Run.Row
import TransitSim.Session.Run

/-!
# Orders of events

A run reacts to one event at a time, and events may come in any order that its state allows.
`Leads` tells where a sequence of events takes a run and which positions were taken on the way.

The main fact is that a run follows the plain loop: after any events the positions taken are those
that as many ticks in a row would have given, and the course of the session is where these ticks
would have left it. Only events of the kind `tick` matter for it; all others keep the session.
-/

namespace TransitSim
namespace Simulation

def withQueue (m : Simulation) (queue : List Tick) : Simulation :=
  { m with session := { m.session with scheduler := { m.session.scheduler with queue } } }

def withJobs (m : Simulation) (jobs : List Job) : Simulation :=
  { m with session := { m.session with jobs } }

end Simulation

namespace Run

/-!
# Where events lead
-/

def update? (r : Run) : Option Update :=
  match r.simulation.session.scheduler.queue with
  | [] => none
  | tick :: rest =>
      if r.simulation.session.scheduler.isCurrent tick then
        (r.simulation.withQueue rest).tick.1.toOption
      else none

def updates (r : Run) : Event → List Update
  | .tick => r.update?.toList
  | _ => []

/-- Where events lead, and the positions that are taken at them. -/
inductive Leads (r : Run) : List Event → List Update → Turn → Prop where
  | start : Leads r [] [] (.goes r)
  | react {es : List Event} {us : List Update} {r' : Run} {e : Event} {turn : Turn}
      (h : Leads r es us (.goes r')) (hreact : r'.react e = some turn) :
      Leads r (es ++ [e]) (us ++ r'.updates e) turn

/-!
# What a reaction can be
-/

theorem onTick_of_nil {r : Run} (h : r.simulation.session.scheduler.queue = []) :
    r.onTick = none := by
  simp [onTick, Scheduler.take?, h]

theorem onTick_of_cons {r : Run} {tick : Tick} {rest : List Tick}
    (h : r.simulation.session.scheduler.queue = tick :: rest) :
    r.onTick =
      if r.simulation.session.scheduler.isCurrent tick then
        match (r.simulation.withQueue rest).tick with
        | (.ok _, m) =>
            let r' : Run := { r with simulation := m, taken := r.taken + 1, turns := r.turns + 1 }
            some (if r'.isFull then .ends (.ok .tickLimit) m else .goes r')
        | (.error e, m) =>
            some (.ends (if e.isPlaybackComplete then .ok .playbackComplete else .error e) m)
      else
        some (.goes { r with simulation := r.simulation.withQueue rest, turns := r.turns + 1 }) := by
  have hcurrent : ({ r.simulation.session.scheduler with queue := rest } : Scheduler).isCurrent
      tick = r.simulation.session.scheduler.isCurrent tick := rfl
  simp only [onTick, Scheduler.take?, h, hcurrent]
  cases r.simulation.session.scheduler.isCurrent tick <;> rfl

theorem onTick_eq_none {r : Run} (h : r.onTick = none) :
    r.simulation.session.scheduler.queue = [] := by
  cases hqueue : r.simulation.session.scheduler.queue with
  | nil => rfl
  | cons tick rest =>
      rw [onTick_of_cons hqueue] at h
      split at h
      · split at h <;> cases h
      · cases h

theorem onTick_cases {r : Run} {turn : Turn} (h : r.onTick = some turn) :
    exists tick rest, r.simulation.session.scheduler.queue = tick :: rest ∧
      ((r.simulation.session.scheduler.isCurrent tick = false ∧ r.updates .tick = [] ∧
          turn = .goes
            { r with simulation := r.simulation.withQueue rest, turns := r.turns + 1 }) ∨
        (r.simulation.session.scheduler.isCurrent tick = true ∧
          r.simulation.session.source.ahead? ≠ some 0 ∧
          exists u c, r.simulation.session.course.tick = .ok (u, c) ∧ r.updates .tick = [u] ∧
            turn =
              let r' : Run :=
                { r with
                  simulation := (r.simulation.withQueue rest).tick.2
                  taken := r.taken + 1
                  turns := r.turns + 1 }
              if r'.isFull then .ends (.ok .tickLimit) r'.simulation else .goes r') ∨
        (r.simulation.session.scheduler.isCurrent tick = true ∧
          r.simulation.session.source.ahead? = some 0 ∧ r.updates .tick = [] ∧
          turn = .ends (.ok .playbackComplete) (r.simulation.withQueue rest).tick.2)) := by
  cases hqueue : r.simulation.session.scheduler.queue with
  | nil =>
      rw [onTick_of_nil hqueue] at h
      cases h
  | cons tick rest =>
      refine ⟨tick, rest, rfl, ?_⟩
      rw [onTick_of_cons hqueue] at h
      cases hcurrent : r.simulation.session.scheduler.isCurrent tick with
      | false =>
          rw [hcurrent, if_neg Bool.false_ne_true] at h
          cases h
          exact Or.inl ⟨rfl, by simp [updates, update?, hqueue, hcurrent], rfl⟩
      | true =>
          rw [hcurrent, if_pos rfl] at h
          by_cases hahead : r.simulation.session.source.ahead? = some 0
          · have htick := Course.tick_of_ahead?_zero (c := r.simulation.session.course) hahead
            have hresult := (Simulation.tick_eq_error (m := r.simulation.withQueue rest) htick).1
            rw [← Prod.eta (r.simulation.withQueue rest).tick, hresult] at h
            cases h
            refine Or.inr (Or.inr ⟨rfl, hahead, ?_, rfl⟩)
            simp [updates, update?, hqueue, hcurrent, hresult, Except.toOption]
          · obtain ⟨u, c, htick, -⟩ := Course.tick_of_ahead?_ne (c := r.simulation.session.course)
              hahead
            have hresult := (Simulation.tick_eq_ok (m := r.simulation.withQueue rest) htick).1
            rw [← Prod.eta (r.simulation.withQueue rest).tick, hresult] at h
            cases h
            refine Or.inr (Or.inl ⟨rfl, hahead, u, c, htick, ?_, rfl⟩)
            simp [updates, update?, hqueue, hcurrent, hresult, Except.toOption]

theorem onAnswer_cases {r : Run} {turn : Turn} (h : r.onAnswer = some turn) :
    r.simulation.session.answers ≠ [] ∧
      ((exists m, r.simulation.takeAnswer = some m ∧
          turn = .goes { r with simulation := m, turns := r.turns + 1 }) ∨
        (r.simulation.takeAnswer = none ∧ turn = .fails)) := by
  simp only [onAnswer] at h
  split at h
  · cases h
  · rename_i hsome
    refine ⟨by simpa using hsome, ?_⟩
    split at h
    · rename_i m hanswer
      cases h
      exact Or.inl ⟨m, hanswer, rfl⟩
    · rename_i hanswer
      cases h
      exact Or.inr ⟨hanswer, rfl⟩

theorem onJob_cases {r : Run} {index : Nat} {turn : Turn} (h : r.onJob index = some turn) :
    exists job, r.simulation.session.jobs[index]? = some job ∧
      turn = .goes
        { r with
          simulation :=
            (r.simulation.withJobs (r.simulation.session.jobs.eraseIdx index)).perform job } := by
  simp only [onJob, Option.map_eq_some_iff] at h
  rcases h with ⟨job, hjob, rfl⟩
  exact ⟨job, hjob, rfl⟩

theorem onFire_cases {r : Run} {turn : Turn} (h : r.onFire = some turn) :
    exists t, r.simulation.session.scheduler.timer = some t ∧ t.due ≤ r.simulation.clock.now ∧
      turn = .goes
        { r with
          simulation :=
            { r.simulation with
              session :=
                { r.simulation.session with
                  scheduler := r.simulation.session.scheduler.fire } } } := by
  simp only [onFire] at h
  split at h
  · cases h
  · rename_i t ht
    split at h
    · rename_i hdue
      cases h
      exact ⟨t, ht, hdue, rfl⟩
    · cases h

theorem react_cases_of_ne_tick {r : Run} {e : Event} (he : e ≠ .tick) {turn : Turn}
    (h : r.react e = some turn) :
    r.updates e = [] ∧
      ((exists r' : Run, turn = .goes r' ∧ r.simulation.session.Keeps r'.simulation.session ∧
          r'.taken = r.taken ∧ r'.limit = r.limit ∧ r'.deadline = r.deadline) ∨
        (e = .shutdown ∧ turn = .ends (.ok .interrupted) r.simulation) ∨
        (e = .answer ∧ turn = .fails ∧ r.simulation.takeAnswer = none)) := by
  cases e with
  | tick => exact absurd rfl he
  | shutdown =>
      cases h
      exact ⟨rfl, Or.inr (Or.inl ⟨rfl, rfl⟩)⟩
  | answer =>
      refine ⟨rfl, ?_⟩
      rcases (onAnswer_cases h).2 with ⟨m, hanswer, rfl⟩ | ⟨hanswer, rfl⟩
      · exact Or.inl ⟨_, rfl, Simulation.keeps_takeAnswer hanswer, rfl, rfl, rfl⟩
      · exact Or.inr (Or.inr ⟨rfl, rfl, hanswer⟩)
  | job index =>
      rcases onJob_cases h with ⟨job, -, rfl⟩
      have hleft : r.simulation.session.Keeps
          (r.simulation.withJobs (r.simulation.session.jobs.eraseIdx index)).session :=
        .of_eq rfl rfl rfl rfl
      exact ⟨rfl, Or.inl ⟨_, rfl, hleft.trans (Simulation.keeps_perform _ job), rfl, rfl, rfl⟩⟩
  | fire =>
      rcases onFire_cases h with ⟨t, -, -, rfl⟩
      refine ⟨rfl, Or.inl ⟨_, rfl, ⟨rfl, rfl, rfl, 1, ?_⟩, rfl, rfl, rfl⟩⟩
      exact Scheduler.fire_eq_fireTimes _
  | pass time =>
      cases h
      exact ⟨rfl, Or.inl ⟨_, rfl, Simulation.keeps_passTo _ _, rfl, rfl, rfl⟩⟩

theorem isFull_iff {r : Run} : r.isFull = true ↔ exists n, r.limit = some n ∧ n ≤ r.taken := by
  cases hlimit : r.limit <;> simp [isFull, hlimit]

/-!
# How far a run has come

A run that has taken no tick yet is followed over its events. It has room for another tick as long
as it goes on; the limit is looked at after a tick only, so that the first one always has room.
-/

/-- How a run stands that has gone on for some positions. -/
structure Going (r : Run) (us : List Update) (r' : Run) : Prop where
  follows : r.simulation.Follows us r'.simulation.session
  isRunning : r'.simulation.session.isRunning = r.simulation.session.isRunning
  taken : r'.taken = us.length
  limit : r'.limit = r.limit
  room : ∀ n, r.limit = some n → us.length < max n 1

/-- Why a run ends at an event, some positions having been taken with it. -/
inductive EndsAt (r : Run) (us : List Update) : Event → Except Error Outcome → Prop where
  | interrupted (room : ∀ n, r.limit = some n → us.length < max n 1) :
      EndsAt r us .shutdown (.ok .interrupted)
  | full {n : Nat} (limit : r.limit = some n) (taken : us.length = max n 1) :
      EndsAt r us .tick (.ok .tickLimit)
  | exhausted (room : ∀ n, r.limit = some n → us.length < max n 1)
      (ahead : r.simulation.session.source.ahead? = some us.length) :
      EndsAt r us .tick (.ok .playbackComplete)

theorem going_self {r : Run} (h : r.taken = 0) : r.Going [] r where
  follows := Simulation.follows_nil rfl
  isRunning := rfl
  taken := h
  limit := rfl
  room := fun n _ => Nat.lt_of_lt_of_le Nat.zero_lt_one (Nat.le_max_right n 1)

theorem Going.of_keeps {r r' r'' : Run} {us : List Update} (h : r.Going us r')
    (hkeeps : r'.simulation.session.Keeps r''.simulation.session) (htaken : r''.taken = r'.taken)
    (hlimit : r''.limit = r'.limit) : r.Going us r'' where
  follows := h.follows.keeps hkeeps.course
  isRunning := hkeeps.isRunning.trans h.isRunning
  taken := htaken.trans h.taken
  limit := hlimit.trans h.limit
  room := h.room

theorem Going.onTick {r r' : Run} {us : List Update} {turn : Turn} (h : r.Going us r')
    (htick : r'.onTick = some turn) :
    (exists r'', turn = .goes r'' ∧ r.Going (us ++ r'.updates .tick) r'') ∨
      (exists result m, turn = .ends result m ∧
        r.simulation.Follows (us ++ r'.updates .tick) m.session ∧
        r.EndsAt (us ++ r'.updates .tick) .tick result) := by
  rcases onTick_cases htick with ⟨tick, rest, hqueue, hcases⟩
  rcases hcases with ⟨-, hupdates, rfl⟩ | ⟨-, hahead, u, c, hcourse, hupdates, rfl⟩ |
    ⟨-, hahead, hupdates, rfl⟩
  · rw [hupdates, List.append_nil]
    exact Or.inl ⟨_, rfl, h.follows.keeps rfl, h.isRunning, h.taken, h.limit, h.room⟩
  · rw [hupdates]
    have hmoved := Simulation.tick_eq_ok (m := r'.simulation.withQueue rest) hcourse
    have hfollows : r.simulation.Follows (us ++ [u])
        (r'.simulation.withQueue rest).tick.2.session := by
      refine h.follows.tick hahead hcourse ?_
      rw [hmoved.2.2]
      rfl
    have hrunning : (r'.simulation.withQueue rest).tick.2.session.isRunning =
        r.simulation.session.isRunning := by
      rw [hmoved.2.2]
      exact h.isRunning
    have hlength : (us ++ [u]).length = us.length + 1 := List.length_append
    have htaken := h.taken
    dsimp only
    split
    · rename_i hfull
      rcases isFull_iff.mp hfull with ⟨n, hlimit, hn⟩
      have hlimit' : r.limit = some n := h.limit.symm.trans hlimit
      have hroom := h.room n hlimit'
      refine Or.inr ⟨_, _, rfl, hfollows, .full hlimit' ?_⟩
      simp only at hn
      omega
    · rename_i hfull
      refine Or.inl ⟨_, rfl, hfollows, hrunning, ?_, h.limit, ?_⟩
      · simp only
        omega
      · intro n hlimit
        have hn : ¬ n ≤ r'.taken + 1 := fun hle =>
          hfull (isFull_iff.mpr ⟨n, h.limit.trans hlimit, hle⟩)
        omega
  · rw [hupdates, List.append_nil]
    have hover := Simulation.tick_eq_error (m := r'.simulation.withQueue rest)
      (Course.tick_of_ahead?_zero hahead)
    have hcourse : (r'.simulation.withQueue rest).tick.2.session.course =
        r'.simulation.session.course := by
      rw [hover.2.2]
      rfl
    refine Or.inr ⟨_, _, rfl, h.follows.keeps hcourse, .exhausted h.room ?_⟩
    have hleft := h.follows.ahead
    rw [hahead] at hleft
    rcases Option.map_eq_some_iff.mp hleft.symm with ⟨k, hk, hzero⟩
    have hle := h.follows.within k hk
    rw [hk]
    congr 1
    omega

theorem Leads.cases {r : Run} {es : List Event} {us : List Update} {turn : Turn}
    (h : r.Leads es us turn) (hbegins : r.taken = 0) :
    (exists r', turn = .goes r' ∧ r.Going us r') ∨
      (exists e result m, es.getLast? = some e ∧ turn = .ends result m ∧
        r.simulation.Follows us m.session ∧ r.EndsAt us e result) ∨
      (exists es' r', es = es' ++ [.answer] ∧ turn = .fails ∧ r.Leads es' us (.goes r') ∧
        r'.simulation.takeAnswer = none) := by
  induction h with
  | start => exact Or.inl ⟨r, rfl, going_self hbegins⟩
  | react h hreact ih =>
      rename_i es us r' e turn
      have hgoing : r.Going us r' := by
        rcases ih with ⟨r'', hr'', hgoing⟩ | ⟨e, result, m, -, hends, -⟩ |
          ⟨es', q, -, hfails, -⟩
        · cases hr''
          exact hgoing
        · cases hends
        · cases hfails
      by_cases he : e = .tick
      · subst he
        rcases hgoing.onTick hreact with hgoes | ⟨result, m, hturn, hfollows, hends⟩
        · exact Or.inl hgoes
        · exact Or.inr (Or.inl ⟨_, result, m, List.getLast?_concat, hturn, hfollows, hends⟩)
      · rcases react_cases_of_ne_tick he hreact with ⟨hupdates, hcases⟩
        rw [hupdates, List.append_nil]
        rcases hcases with ⟨r'', rfl, hkeeps, htaken, hlimit, -⟩ | ⟨rfl, rfl⟩ | ⟨rfl, rfl, hanswer⟩
        · exact Or.inl ⟨r'', rfl, hgoing.of_keeps hkeeps htaken hlimit⟩
        · exact Or.inr (Or.inl ⟨_, _, _, List.getLast?_concat, rfl, hgoing.follows,
            .interrupted hgoing.room⟩)
        · exact Or.inr (Or.inr ⟨es, r', rfl, rfl, h, hanswer⟩)

theorem Leads.going {r r' : Run} {es : List Event} {us : List Update}
    (h : r.Leads es us (.goes r')) (hbegins : r.taken = 0) : r.Going us r' := by
  rcases h.cases hbegins with ⟨r'', hr'', hgoing⟩ | ⟨e, result, m, -, hends, -⟩ |
    ⟨es', q, -, hfails, -⟩
  · cases hr''
    exact hgoing
  · cases hends
  · cases hfails

end Run

namespace Simulation

/-!
# Where a run begins
-/

theorem course_start (m : Simulation) : m.start.2.session.course = m.session.course := by
  simp only [start, Session.start]
  cases m.session.scheduler.start m.clock.now <;> rfl

theorem beginRun_eq (m : Simulation) (limit deadline : Option Nat) :
    exists m', (m.beginRun limit deadline).2 = ⟨m', 0, limit, deadline, 0⟩ ∧
      m'.session.course = m.session.course := by
  simp only [beginRun]
  split
  · exact ⟨m, rfl, rfl⟩
  · exact ⟨m.start.2, rfl, course_start m⟩

end Simulation
end TransitSim
