import TransitSim.Proofs.Session.Past

/-!
# Runs with a past

Whatever a run with a past comes to, the run without it may come to, and the other way round. Old
ticks and old work are events of their own, to which nothing corresponds on the other side. One way
they are left out; the other way they are put in front of the event that has to wait for them.
-/

namespace TransitSim

/-!
# Reactions
-/

/-- Whether a run is another one with a past. The number of turns without work does not count. -/
structure Run.HasPast (p : Past) (r₀ r : Run) : Prop where
  simulation : Simulation.HasPast p r₀.simulation r.simulation
  taken : r.taken = r₀.taken
  limit : r.limit = r₀.limit
  deadline : r.deadline = r₀.deadline

def Run.Resembles (r₀ r : Run) : Prop :=
  exists p, Run.HasPast p r₀ r

inductive Turn.Resembles : Turn → Turn → Prop where
  | goes {r₀ r : Run} (h : r₀.Resembles r) : Resembles (.goes r₀) (.goes r)
  | ends {result : Except Error Outcome} {m₀ m : Simulation} (h : m₀.Resembles m) :
      Resembles (.ends result m₀) (.ends result m)
  | fails : Resembles .fails .fails

theorem Turn.Resembles.of_unturned {turn₀ turn turn' : Turn} (h : turn₀.Resembles turn)
    (hsame : turn'.unturned = turn.unturned) : turn₀.Resembles turn' := by
  cases h with
  | goes hr =>
      cases turn' with
      | goes r' =>
          rcases hr with ⟨p, hr⟩
          injection hsame with hsame
          injection hsame with hsimulation htaken hlimit hdeadline
          exact .goes ⟨p, hsimulation ▸ hr.simulation, htaken.trans hr.taken,
            hlimit.trans hr.limit, hdeadline.trans hr.deadline⟩
      | ends result m => cases hsame
      | fails => cases hsame
  | ends hm =>
      cases turn' with
      | goes r' => cases hsame
      | ends result m =>
          cases hsame
          exact .ends hm
      | fails => cases hsame
  | fails =>
      cases turn' with
      | goes r' => cases hsame
      | ends result m => cases hsame
      | fails => exact .fails

namespace Run

section HasPast

variable {p : Past} {r₀ r : Run}

theorem HasPast.queue (h : HasPast p r₀ r) :
    r.simulation.session.scheduler.queue =
      p.ticks ++ r₀.simulation.session.scheduler.queue.map (Tick.later p.generations) := by
  rw [h.simulation.session]
  rfl

theorem HasPast.jobs (h : HasPast p r₀ r) :
    r.simulation.session.jobs = p.jobs ++ r₀.simulation.session.jobs := by
  rw [h.simulation.session]
  rfl

theorem HasPast.isFull (h : HasPast p r₀ r) : r.isFull = r₀.isFull := by
  rw [Run.isFull, Run.isFull, h.limit, h.taken]

theorem HasPast.onTick (h : HasPast p r₀ r) (hticks : p.ticks = []) :
    Option.Rel Turn.Resembles r₀.onTick r.onTick ∧ r.update? = r₀.update? := by
  have hqueue := h.queue
  rw [hticks, List.nil_append] at hqueue
  cases hqueue₀ : r₀.simulation.session.scheduler.queue with
  | nil =>
      rw [hqueue₀] at hqueue
      rw [onTick_of_nil hqueue₀, onTick_of_nil hqueue, update?, update?, hqueue, hqueue₀]
      exact ⟨.none, rfl⟩
  | cons t rest =>
      rw [hqueue₀, List.map_cons] at hqueue
      have hcurrent : r.simulation.session.scheduler.isCurrent (t.later p.generations) =
          r₀.simulation.session.scheduler.isCurrent t := by
        rw [h.simulation.session]
        exact Scheduler.isCurrent_after ..
      have hreceived : Simulation.HasPast p (r₀.simulation.withQueue rest)
          (r.simulation.withQueue (rest.map (Tick.later p.generations))) := by
        refine ⟨?_, h.simulation.clock, h.simulation.feed⟩
        simp only [Simulation.withQueue, h.simulation.session, Session.after, Scheduler.after,
          hticks, List.nil_append]
      rcases hreceived.tick with ⟨hresult, hticked⟩
      rw [onTick_of_cons hqueue₀, onTick_of_cons hqueue, hcurrent, update?, update?, hqueue,
        hqueue₀]
      simp only [hcurrent, hresult, and_true]
      cases r₀.simulation.session.scheduler.isCurrent t with
      | false => exact .some (.goes ⟨p, hreceived, h.taken, h.limit, h.deadline⟩)
      | true =>
          rcases htick₀ : (r₀.simulation.withQueue rest).tick with ⟨result, m₀⟩
          rcases htick : (r.simulation.withQueue (rest.map (Tick.later p.generations))).tick with
            ⟨result', m⟩
          rw [htick₀, htick] at hresult hticked
          cases (show result' = result from hresult)
          cases result with
          | error e => exact .some (.ends ⟨p, hticked⟩)
          | ok u =>
              have hmoved : Run.HasPast p
                  { r₀ with simulation := m₀, taken := r₀.taken + 1, turns := r₀.turns + 1 }
                  { r with simulation := m, taken := r.taken + 1, turns := r.turns + 1 } :=
                ⟨hticked, congrArg (· + 1) h.taken, h.limit, h.deadline⟩
              simp only [if_true, hmoved.isFull]
              split
              · exact .some (.ends ⟨p, hticked⟩)
              · exact .some (.goes ⟨p, hmoved⟩)

theorem HasPast.onTick_old (h : HasPast p r₀ r) (hticks : p.ticks ≠ []) :
    exists r', r.react .tick = some (.goes r') ∧ r.updates .tick = [] ∧
      HasPast p.dropTick r₀ r' := by
  cases hold : p.ticks with
  | nil => exact absurd hold hticks
  | cons t rest =>
      have hqueue := h.queue
      rw [hold, List.cons_append] at hqueue
      have hlt : t.generation < p.generations := p.ticks_lt t (hold ▸ List.mem_cons_self)
      have hstale : r.simulation.session.scheduler.isCurrent t = false := by
        rw [h.simulation.session]
        exact Scheduler.isCurrent_after_of_lt _ _ _ hlt
      have hreact : r.react .tick = _ := onTick_of_cons hqueue
      rw [hstale, if_neg Bool.false_ne_true] at hreact
      refine ⟨_, hreact, ?_, ?_, h.taken, h.limit, h.deadline⟩
      · rw [updates, update?, hqueue]
        simp [hstale]
      · refine ⟨?_, h.simulation.clock, h.simulation.feed⟩
        simp only [Simulation.withQueue, h.simulation.session, Session.after, Scheduler.after,
          Past.dropTick, hold, List.tail_cons]

theorem HasPast.onJob_old (h : HasPast p r₀ r) {index : Nat} (hindex : index < p.jobs.length) :
    exists r', r.react (.job index) = some (.goes r') ∧ HasPast (p.dropJob index) r₀ r' := by
  have hjob : r.simulation.session.jobs[index]? = some p.jobs[index] := by
    rw [h.jobs, List.getElem?_append_left hindex, List.getElem?_eq_getElem hindex]
  have hleft : Simulation.HasPast (p.dropJob index) r₀.simulation
      (r.simulation.withJobs (r.simulation.session.jobs.eraseIdx index)) := by
    refine ⟨?_, h.simulation.clock, h.simulation.feed⟩
    rw [h.jobs, List.eraseIdx_append_of_lt_length hindex]
    simp only [Simulation.withJobs, h.simulation.session, Session.after, Past.dropJob]
  have hinert := p.jobs_inert p.jobs[index] (List.getElem_mem hindex)
  have hreact : r.react (.job index) = _ := congrArg (Option.map _) hjob
  refine ⟨_, hreact, ?_, h.taken, h.limit, h.deadline⟩
  show Simulation.HasPast _ _ ((r.simulation.withJobs _).perform p.jobs[index])
  cases hcase : p.jobs[index] with
  | alarm =>
      rw [hcase] at hinert
      cases hinert
  | fetch route =>
      rw [hcase] at hinert
      cases hinert
  | void => exact hleft
  | report report =>
      have hreported := (r.simulation.withJobs
        (r.simulation.session.jobs.eraseIdx index)).perform_report report
      rcases hreported with ⟨hsession, hclock, hfeed⟩
      exact ⟨hsession.trans hleft.session, hclock.trans hleft.clock, hfeed.trans hleft.feed⟩

theorem HasPast.onJob (h : HasPast p r₀ r) (index : Nat) :
    Option.Rel Turn.Resembles (r₀.onJob index) (r.onJob (p.jobs.length + index)) := by
  have hjob : r.simulation.session.jobs[p.jobs.length + index]? =
      r₀.simulation.session.jobs[index]? := by
    rw [h.jobs, List.getElem?_append_right (Nat.le_add_right _ _), Nat.add_sub_cancel_left]
  have hleft : Simulation.HasPast p
      (r₀.simulation.withJobs (r₀.simulation.session.jobs.eraseIdx index))
      (r.simulation.withJobs (r.simulation.session.jobs.eraseIdx (p.jobs.length + index))) := by
    refine ⟨?_, h.simulation.clock, h.simulation.feed⟩
    rw [h.jobs, List.eraseIdx_append_of_length_le (Nat.le_add_right _ _), Nat.add_sub_cancel_left]
    simp only [Simulation.withJobs, h.simulation.session, Session.after]
  rw [Run.onJob, Run.onJob, hjob]
  cases r₀.simulation.session.jobs[index]? with
  | none => exact .none
  | some job => exact .some (.goes ⟨p, hleft.perform job, h.taken, h.limit, h.deadline⟩)

theorem HasPast.onAnswer (h : HasPast p r₀ r) :
    Option.Rel Turn.Resembles r₀.onAnswer r.onAnswer := by
  have hanswers : r.simulation.session.answers = r₀.simulation.session.answers := by
    rw [h.simulation.session]
    rfl
  have htake := h.simulation.takeAnswer
  rw [Run.onAnswer, Run.onAnswer, hanswers]
  split
  · exact .none
  · cases htake₀ : r₀.simulation.takeAnswer with
    | none =>
        rw [htake₀] at htake
        rw [eq_none_of_none_rel htake]
        exact .some .fails
    | some m₀ =>
        rw [htake₀] at htake
        rcases exists_of_some_rel htake with ⟨m, hm, p', hpast⟩
        rw [hm]
        exact .some (.goes ⟨p', hpast, h.taken, h.limit, h.deadline⟩)

theorem HasPast.onFire (h : HasPast p r₀ r) :
    Option.Rel Turn.Resembles r₀.onFire r.onFire := by
  have htimer : r.simulation.session.scheduler.timer =
      r₀.simulation.session.scheduler.timer.map (Timer.later p.generations) := by
    rw [h.simulation.session]
    rfl
  have hfire : r.simulation.session.scheduler.fire =
      (r₀.simulation.session.scheduler.fire).after p.generations p.ticks := by
    rw [h.simulation.session, Scheduler.fire_eq_fireTimes, Scheduler.fire_eq_fireTimes]
    exact Scheduler.fireTimes_after ..
  rw [Run.onFire, Run.onFire, htimer, h.simulation.clock, hfire]
  cases r₀.simulation.session.scheduler.timer with
  | none => exact .none
  | some t =>
      have hdue : (t.later p.generations).due = t.due := rfl
      simp only [Option.map_some, hdue]
      split
      · refine .some (.goes ⟨p, ⟨?_, h.simulation.clock, h.simulation.feed⟩, h.taken, h.limit,
          h.deadline⟩)
        simp only [h.simulation.session, Session.after]
      · exact .none

theorem HasPast.react (h : HasPast p r₀ r) {e : Event} (hticks : e = .tick → p.ticks = [])
    (hjobs : ∀ index, e = .job index → p.jobs = []) :
    Option.Rel Turn.Resembles (r₀.react e) (r.react e) ∧ r.updates e = r₀.updates e := by
  cases e with
  | shutdown => exact ⟨.some (.ends ⟨p, h.simulation⟩), rfl⟩
  | tick =>
      rcases h.onTick (hticks rfl) with ⟨hreact, hupdate⟩
      exact ⟨hreact, congrArg Option.toList hupdate⟩
  | answer => exact ⟨h.onAnswer, rfl⟩
  | job index =>
      have hreact := h.onJob index
      rw [hjobs index rfl, List.length_nil, Nat.zero_add] at hreact
      exact ⟨hreact, rfl⟩
  | fire => exact ⟨h.onFire, rfl⟩
  | pass time =>
      exact ⟨.some (.goes ⟨p, h.simulation.passTo time, h.taken, h.limit, h.deadline⟩), rfl⟩

end HasPast
end Run

/-- Whether an event is another one, or does work that stands further in front. -/
inductive Event.Precedes : Event → Event → Prop where
  | refl (e : Event) : Precedes e e
  | job {i j : Nat} (h : i ≤ j) : Precedes (.job i) (.job j)

namespace Event.Precedes

variable {e₀ e : Event}

theorem isQuiet (h : e₀.Precedes e) (he : e.isQuiet = true) : e₀.isQuiet = true := by
  cases h with
  | refl => exact he
  | job hle => rfl

theorem isOutside (h : e₀.Precedes e) (he : e.isOutside = true) : e₀.isOutside = true := by
  cases h with
  | refl => exact he
  | job hle => rfl

theorem isInTurn (h : e₀.Precedes e) (he : e.isInTurn = true) : e₀.isInTurn = true := by
  cases h with
  | refl => exact he
  | job hle =>
      simp only [Event.isInTurn, beq_iff_eq] at he ⊢
      omega

theorem and {P Q : Event → Prop} (hP : ∀ {e₀ e : Event}, e₀.Precedes e → P e → P e₀)
    (hQ : ∀ {e₀ e : Event}, e₀.Precedes e → Q e → Q e₀) (h : e₀.Precedes e) (he : P e ∧ Q e) :
    P e₀ ∧ Q e₀ :=
  ⟨hP h he.1, hQ h he.2⟩

end Event.Precedes

namespace Run

theorem HasPast.react_cases {p : Past} {r₀ r : Run} (h : HasPast p r₀ r) {e : Event} {turn : Turn}
    (hreact : r.react e = some turn) :
    (exists r', turn = .goes r' ∧ r₀.Resembles r' ∧ r.updates e = []) ∨
      (exists e₀ turn₀, r₀.react e₀ = some turn₀ ∧ turn₀.Resembles turn ∧
        r.updates e = r₀.updates e₀ ∧ e₀.Precedes e) := by
  have hsame (e₀ : Event) (hrel : Option.Rel Turn.Resembles (r₀.react e₀) (r.react e)) :
      exists turn₀, r₀.react e₀ = some turn₀ ∧ turn₀.Resembles turn := by
    rw [hreact] at hrel
    exact exists_of_rel_some hrel
  by_cases htick : e = .tick ∧ p.ticks ≠ []
  · rcases htick with ⟨rfl, hticks⟩
    rcases h.onTick_old hticks with ⟨r', hold, hupdates, hpast⟩
    cases hreact.symm.trans hold
    exact Or.inl ⟨r', rfl, ⟨_, hpast⟩, hupdates⟩
  · have hticks : e = .tick → p.ticks = [] :=
      fun he => Classical.not_not.mp fun hne => htick ⟨he, hne⟩
    cases e with
    | job index =>
        by_cases hindex : index < p.jobs.length
        · rcases h.onJob_old hindex with ⟨r', hold, hpast⟩
          cases hreact.symm.trans hold
          exact Or.inl ⟨r', rfl, ⟨_, hpast⟩, rfl⟩
        · have hjob := h.onJob (index - p.jobs.length)
          rw [Nat.add_sub_cancel' (Nat.le_of_not_lt hindex)] at hjob
          rcases hsame (.job (index - p.jobs.length)) hjob with ⟨turn₀, hturn₀, hturn⟩
          exact Or.inr ⟨_, turn₀, hturn₀, hturn, rfl, .job (Nat.sub_le _ _)⟩
    | shutdown | tick | answer | fire | pass time =>
        rcases h.react hticks fun index he => nomatch he with ⟨hrel, hupdates⟩
        rcases hsame _ hrel with ⟨turn₀, hturn₀, hturn⟩
        exact Or.inr ⟨_, turn₀, hturn₀, hturn, hupdates, .refl _⟩

/-!
# Runs
-/

variable {P : Event → Prop}

theorem Leads.without_past (hP : ∀ {e₀ e : Event}, e₀.Precedes e → P e → P e₀) {r₀ r : Run}
    {es : List Event} {us : List Update} {turn : Turn} (h : r.Leads es us turn)
    (hes : ∀ e ∈ es, P e) (hr : r₀.Resembles r) :
    exists es₀ turn₀, r₀.Leads es₀ us turn₀ ∧ turn₀.Resembles turn ∧ ∀ e ∈ es₀, P e := by
  -- Events that have to do with the past are left out; so the induction is on the longer run.
  induction h with
  | start => exact ⟨[], _, .start, .goes hr, fun _ he => nomatch he⟩
  | react h hreact ih =>
      rcases List.forall_mem_append.mp hes with ⟨hbefore, hlast⟩
      have he := hlast _ (List.mem_singleton_self _)
      rcases ih hbefore with ⟨es₀, turn₀, hleads, hturn₀, hes₀⟩
      cases hturn₀ with
      | goes hresembles =>
          rcases hresembles with ⟨p, hpast⟩
          rcases hpast.react_cases hreact with ⟨r'', rfl, hr'', hupdates⟩ |
            ⟨e₀, turn₁, hreact₀, hturn₁, hupdates, hprecedes⟩
          · rw [hupdates, List.append_nil]
            exact ⟨es₀, _, hleads, .goes hr'', hes₀⟩
          · rw [hupdates]
            refine ⟨es₀ ++ [e₀], turn₁, .react hleads hreact₀, hturn₁, ?_⟩
            exact List.forall_mem_append.mpr ⟨hes₀, by simpa using hP hprecedes he⟩

theorem Led.dropTicks (htick : P .tick) {p : Past} {r₀ r r' : Run} {us : List Update}
    (h : Led P r us r') (hpast : HasPast p r₀ r') :
    exists p' r'', Led P r us r'' ∧ HasPast p' r₀ r'' ∧ p'.ticks = [] ∧ p'.jobs = p.jobs := by
  generalize hcount : p.ticks.length = count
  induction count generalizing p r' with
  | zero => exact ⟨p, r', h, hpast, List.length_eq_zero_iff.mp hcount, rfl⟩
  | succ count ih =>
      have hticks : p.ticks ≠ [] := List.ne_nil_of_length_eq_add_one hcount
      rcases hpast.onTick_old hticks with ⟨r₁, hreact, hupdates, hpast₁⟩
      have hled := h.goes hreact htick
      rw [hupdates, List.append_nil] at hled
      have hless : p.dropTick.ticks.length = count := by
        rw [Past.dropTick, List.length_tail, hcount]
        rfl
      have hrest := ih hled hpast₁ hless
      exact hrest

theorem Led.dropJobs (hjob : P (.job 0)) {p : Past} {r₀ r r' : Run} {us : List Update}
    (h : Led P r us r') (hpast : HasPast p r₀ r') :
    exists p' r'', Led P r us r'' ∧ HasPast p' r₀ r'' ∧ p'.jobs = [] ∧ p'.ticks = p.ticks := by
  generalize hcount : p.jobs.length = count
  induction count generalizing p r' with
  | zero => exact ⟨p, r', h, hpast, List.length_eq_zero_iff.mp hcount, rfl⟩
  | succ count ih =>
      have hfirst : 0 < p.jobs.length := hcount ▸ Nat.succ_pos count
      rcases hpast.onJob_old hfirst with ⟨r₁, hreact, hpast₁⟩
      have hled := h.goes hreact hjob
      rw [updates_of_isQuiet rfl, List.append_nil] at hled
      have hless : (p.dropJob 0).jobs.length = count := by
        rw [Past.dropJob, List.length_eraseIdx_of_lt hfirst, hcount]
        rfl
      have hrest := ih hled hpast₁ hless
      exact hrest

theorem Led.makeWay (hP : ∀ {e₀ e : Event}, e₀.Precedes e → P e → P e₀) {p : Past} {r₀ r r' : Run}
    {us : List Update} (h : Led P r us r') (hpast : HasPast p r₀ r') {e : Event} (he : P e) :
    exists p' r'', Led P r us r'' ∧ HasPast p' r₀ r'' ∧ (e = .tick → p'.ticks = []) ∧
      ∀ index, e = .job index → p'.jobs = [] := by
  cases e with
  | tick =>
      rcases h.dropTicks he hpast with ⟨p', r'', hled, hpast', hticks, -⟩
      exact ⟨p', r'', hled, hpast', fun _ => hticks, nofun⟩
  | job index =>
      rcases h.dropJobs (hP (.job (Nat.zero_le index)) he) hpast with
        ⟨p', r'', hled, hpast', hjobs, -⟩
      exact ⟨p', r'', hled, hpast', nofun, fun _ _ => hjobs⟩
  | shutdown | answer | fire | pass time =>
      exact ⟨p, r', h, hpast, nofun, nofun⟩

theorem Leads.with_past (hP : ∀ {e₀ e : Event}, e₀.Precedes e → P e → P e₀) {r₀ r : Run}
    {es₀ : List Event} {us : List Update} {turn₀ : Turn} (h : r₀.Leads es₀ us turn₀)
    (hes : ∀ e ∈ es₀, P e) (hr : r₀.Resembles r) :
    exists es turn, r.Leads es us turn ∧ turn₀.Resembles turn ∧ ∀ e ∈ es, P e := by
  induction h with
  | start => exact ⟨[], _, .start, .goes hr, fun _ he => nomatch he⟩
  | react h hreact ih =>
      rename_i es₀ us r₀' e turn₀
      rcases List.forall_mem_append.mp hes with ⟨hbefore, hlast⟩
      have he := hlast _ (List.mem_singleton_self _)
      rcases ih hbefore with ⟨es, turn, hleads, hturn, hes'⟩
      cases hturn with
      | goes hresembles =>
          rename_i r'
          rcases hresembles with ⟨p, hpast⟩
          have hled : Led P r us r' := ⟨es, r'.turns, hleads, hes'⟩
          rcases hled.makeWay hP hpast he with ⟨p', r'', hled', hpast', hticks, hjobs⟩
          rcases hpast'.react hticks hjobs with ⟨hrel, hupdates⟩
          rw [hreact] at hrel
          rcases exists_of_some_rel hrel with ⟨turn', hreact', hturn'⟩
          rcases hled'.react hreact' he with ⟨es', turn'', hleads', hsame, hes''⟩
          rw [hupdates] at hleads'
          exact ⟨_, turn'', hleads', hturn'.of_unturned hsame, hes''⟩

end Run

namespace Simulation

theorem HasPast.beginRun {p : Past} {m₀ m : Simulation} (h : HasPast p m₀ m)
    (limit deadline : Option Nat) :
    (m.beginRun limit deadline).1 = (m₀.beginRun limit deadline).1 ∧
      Run.HasPast p (m₀.beginRun limit deadline).2 (m.beginRun limit deadline).2 := by
  have hrunning : m.session.isRunning = m₀.session.isRunning := by
    rw [h.session, Session.isRunning_after]
  rw [Simulation.beginRun, Simulation.beginRun, hrunning]
  split
  · exact ⟨rfl, h, rfl, rfl, rfl⟩
  · exact ⟨h.start.1, h.start.2, rfl, rfl, rfl⟩

end Simulation
end TransitSim
