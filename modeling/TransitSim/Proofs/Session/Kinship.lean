import TransitSim.Proofs.Run.Past

/-!
# Simulations that differ in their past

Two simulations with pasts of their own, but nothing else to tell them apart, are akin. They do the
same, show the same, and fail alike; which events have happened may differ.
-/

namespace TransitSim

def Simulation.Akin (m m' : Simulation) : Prop :=
  exists m₀, Resembles m₀ m ∧ Resembles m₀ m'

def Turn.Akin (turn turn' : Turn) : Prop :=
  exists turn₀, Turn.Resembles turn₀ turn ∧ Turn.Resembles turn₀ turn'

def Run.Akin (r r' : Run) : Prop :=
  exists r₀, Run.Resembles r₀ r ∧ Run.Resembles r₀ r'

section Akin

variable {P : Event → Prop} {m m' : Simulation}

theorem Run.Akin.simulation {r r' : Run} (h : r.Akin r') : r.simulation.Akin r'.simulation := by
  rcases h with ⟨r₀, ⟨p, hr⟩, ⟨p', hr'⟩⟩
  exact ⟨r₀.simulation, ⟨p, hr.simulation⟩, ⟨p', hr'.simulation⟩⟩

namespace Turn

variable {turn' : Turn}

theorem Akin.of_goes {r : Run} (h : Akin (.goes r) turn') :
    exists r', turn' = .goes r' ∧ r.Akin r' := by
  rcases h with ⟨turn₀, hturn, hturn'⟩
  cases hturn with
  | goes hr =>
      cases hturn' with
      | goes hr' => exact ⟨_, rfl, _, hr, hr'⟩

theorem Akin.of_ends {result : Except Error Outcome} (h : Akin (.ends result m) turn') :
    exists m', turn' = .ends result m' ∧ m.Akin m' := by
  rcases h with ⟨turn₀, hturn, hturn'⟩
  cases hturn with
  | ends hm =>
      cases hturn' with
      | ends hm' => exact ⟨_, rfl, _, hm, hm'⟩

theorem Akin.of_fails (h : Akin .fails turn') : turn' = .fails := by
  rcases h with ⟨turn₀, hturn, hturn'⟩
  cases hturn with
  | fails =>
      cases hturn' with
      | fails => rfl

end Turn

theorem Run.Leads.akin (hP : ∀ {e₀ e : Event}, e₀.Precedes e → P e → P e₀) {r r' : Run}
    {es : List Event} {us : List Update} {turn : Turn} (h : r.Leads es us turn)
    (hes : ∀ e ∈ es, P e) (hr : r.Akin r') :
    exists es' turn', r'.Leads es' us turn' ∧ turn.Akin turn' ∧ ∀ e ∈ es', P e := by
  rcases hr with ⟨r₀, hr, hr'⟩
  rcases h.without_past hP hes hr with ⟨es₀, turn₀, hleads₀, hturn, hes₀⟩
  rcases hleads₀.with_past hP hes₀ hr' with ⟨es', turn', hleads', hturn', hes'⟩
  exact ⟨es', turn', hleads', ⟨turn₀, hturn, hturn'⟩, hes'⟩

namespace Simulation

theorem Akin.symm (h : m.Akin m') : m'.Akin m := by
  rcases h with ⟨m₀, hm, hm'⟩
  exact ⟨m₀, hm', hm⟩

theorem Akin.view (h : m.Akin m') : m'.session.view = m.session.view := by
  rcases h with ⟨m₀, ⟨p, hm⟩, ⟨p', hm'⟩⟩
  exact hm'.view.trans hm.view.symm

theorem Akin.tick (h : m.Akin m') : m'.tick.1 = m.tick.1 ∧ m.tick.2.Akin m'.tick.2 := by
  rcases h with ⟨m₀, ⟨p, hm⟩, ⟨p', hm'⟩⟩
  exact ⟨hm'.tick.1.trans hm.tick.1.symm, _, ⟨p, hm.tick.2⟩, ⟨p', hm'.tick.2⟩⟩

theorem Akin.seek (h : m.Akin m') (index : Nat) :
    (m'.seek index).1 = (m.seek index).1 ∧ (m.seek index).2.Akin (m'.seek index).2 := by
  rcases h with ⟨m₀, ⟨p, hm⟩, ⟨p', hm'⟩⟩
  exact ⟨(hm'.seek index).1.trans (hm.seek index).1.symm, _, ⟨p, (hm.seek index).2⟩,
    ⟨p', (hm'.seek index).2⟩⟩

theorem Akin.start (h : m.Akin m') : m'.start.1 = m.start.1 ∧ m.start.2.Akin m'.start.2 := by
  rcases h with ⟨m₀, ⟨p, hm⟩, ⟨p', hm'⟩⟩
  exact ⟨hm'.start.1.trans hm.start.1.symm, _, ⟨p, hm.start.2⟩, ⟨p', hm'.start.2⟩⟩

theorem Akin.stop (h : m.Akin m') : m.stop.Akin m'.stop := by
  rcases h with ⟨m₀, ⟨p, hm⟩, ⟨p', hm'⟩⟩
  exact ⟨_, ⟨p, hm.stop⟩, ⟨p', hm'.stop⟩⟩

theorem Akin.setMultiplier (h : m.Akin m') (multiplier : Nat) :
    (m'.setMultiplier multiplier).1 = (m.setMultiplier multiplier).1 ∧
      (m.setMultiplier multiplier).2.Akin (m'.setMultiplier multiplier).2 := by
  rcases h with ⟨m₀, ⟨p, hm⟩, ⟨p', hm'⟩⟩
  exact ⟨(hm'.setMultiplier multiplier).1.trans (hm.setMultiplier multiplier).1.symm, _,
    ⟨p, (hm.setMultiplier multiplier).2⟩, ⟨p', (hm'.setMultiplier multiplier).2⟩⟩

theorem Akin.reset (h : m.Akin m') : m.reset.Akin m'.reset := by
  rcases h with ⟨m₀, ⟨p, hm⟩, ⟨p', hm'⟩⟩
  exact ⟨_, ⟨p, hm.reset⟩, ⟨p', hm'.reset⟩⟩

theorem Akin.observe (h : m.Akin m') (snapshots : List Snapshot) (observed : Calendar.Instant) :
    Option.Rel Akin (m.observe snapshots observed) (m'.observe snapshots observed) := by
  rcases h with ⟨m₀, ⟨p, hm⟩, ⟨p', hm'⟩⟩
  have hrel := hm.observe snapshots observed
  have hrel' := hm'.observe snapshots observed
  cases hcase₀ : m₀.observe snapshots observed with
  | none =>
      rw [hcase₀] at hrel hrel'
      rw [eq_none_of_none_rel hrel, eq_none_of_none_rel hrel']
      exact .none
  | some m₁ =>
      rw [hcase₀] at hrel hrel'
      rcases exists_of_some_rel hrel with ⟨n, hn, hresembles⟩
      rcases exists_of_some_rel hrel' with ⟨n', hn', hresembles'⟩
      rw [hn, hn']
      exact .some ⟨m₁, hresembles, hresembles'⟩

theorem Akin.beginRun (h : m.Akin m') (limit deadline : Option Nat) :
    (m'.beginRun limit deadline).1 = (m.beginRun limit deadline).1 ∧
      (m.beginRun limit deadline).2.Akin (m'.beginRun limit deadline).2 := by
  rcases h with ⟨m₀, ⟨p, hm⟩, ⟨p', hm'⟩⟩
  exact ⟨(hm'.beginRun limit deadline).1.trans (hm.beginRun limit deadline).1.symm, _,
    ⟨p, (hm.beginRun limit deadline).2⟩, ⟨p', (hm'.beginRun limit deadline).2⟩⟩

theorem Akin.watch (h : m.Akin m') : (Run.watch m).Akin (Run.watch m') := by
  rcases h with ⟨m₀, ⟨p, hm⟩, ⟨p', hm'⟩⟩
  exact ⟨Run.watch m₀, ⟨p, hm, rfl, rfl, rfl⟩, ⟨p', hm', rfl, rfl, rfl⟩⟩

/-!
# Commands
-/

theorem Akin.settles (hP : ∀ {e₀ e : Event}, e₀.Precedes e → P e → P e₀) (hjob : P (.job 0))
    {es : List Event} {r : Run} (h : m.Akin m') (hleads : (Run.watch m).Leads es [] (.goes r))
    (hes : ∀ e ∈ es, P e) (hsettled : r.simulation.IsSettled) :
    exists es' r', (Run.watch m').Leads es' [] (.goes r') ∧ r.simulation.Akin r'.simulation ∧
      r'.simulation.IsSettled ∧ ∀ e ∈ es', P e := by
  rcases hleads.akin hP hes h.watch with ⟨es₁, turn₁, hleads₁, hturn, hes₁⟩
  rcases hturn.of_goes with ⟨r₁, rfl, r₀, ⟨p, hr⟩, ⟨p₁, hr₁⟩⟩
  have hled : Run.Led P (.watch m') [] r₁ := ⟨es₁, r₁.turns, hleads₁, hes₁⟩
  rcases hled.dropJobs hjob hr₁ with ⟨p₂, r₂, ⟨es₂, turns, hleads₂, hes₂⟩, hr₂, hjobs, -⟩
  refine ⟨es₂, { r₂ with turns }, hleads₂,
    ⟨r₀.simulation, ⟨p, hr.simulation⟩, ⟨p₂, hr₂.simulation⟩⟩, ?_, hes₂⟩
  constructor
  case answers =>
    have hanswers := hsettled.answers
    rw [hr.simulation.session] at hanswers
    show r₂.simulation.session.answers = []
    rw [hr₂.simulation.session]
    exact hanswers
  case jobs =>
    intro job hmem
    apply hsettled.jobs
    rw [show r₂.simulation.session.jobs = _ from hr₂.jobs, hjobs] at hmem
    rw [hr.jobs]
    exact List.mem_append_right _ hmem

theorem Does.akin (hP : ∀ {e₀ e : Event}, e₀.Precedes e → P e → P e₀) (hjob : P (.job 0))
    {command : Command} {es : List Event} {reply : Reply} {m₁ : Simulation}
    (h : m.Does command es reply m₁) (hes : ∀ e ∈ es, P e) (hm : m.Akin m') :
    exists es' m₁', m'.Does command es' reply m₁' ∧ m₁.Akin m₁' ∧ ∀ e ∈ es', P e := by
  cases h with
  | tick => exact ⟨[], _, hm.tick.1 ▸ .tick m', hm.tick.2, nofun⟩
  | seek index => exact ⟨[], _, (hm.seek index).1 ▸ .seek m' index, (hm.seek index).2, nofun⟩
  | start => exact ⟨[], _, hm.start.1 ▸ .start m', hm.start.2, nofun⟩
  | stop => exact ⟨[], _, .stop m', hm.stop, nofun⟩
  | setMultiplier multiplier =>
      rcases hm.setMultiplier multiplier with ⟨hresult, hm₁⟩
      exact ⟨[], _, hresult ▸ .setMultiplier m' multiplier, hm₁, nofun⟩
  | reset => exact ⟨[], _, .reset m', hm.reset, nofun⟩
  | observe hobserve =>
      rename_i snapshots observed
      have hrel := hm.observe snapshots observed
      rw [hobserve] at hrel
      rcases exists_of_some_rel hrel with ⟨m₁', hobserve', hm₁⟩
      exact ⟨[], m₁', .observe hobserve', hm₁, nofun⟩
  | refuse he =>
      rename_i limit deadline e
      rcases hm.beginRun limit deadline with ⟨hresult, hr⟩
      exact ⟨[], _, .refuse (hresult.trans he), hr.simulation, nofun⟩
  | run hbegin hleads =>
      rename_i n limit deadline us result
      rcases hm.beginRun limit deadline with ⟨hresult, hr⟩
      rcases hleads.akin hP hes hr with ⟨es', turn', hleads', hturn, hes'⟩
      rcases hturn.of_ends with ⟨n', rfl, hn⟩
      exact ⟨es', _, .run (hresult.trans hbegin) hleads', hn.stop, hes'⟩
  | settle hleads hquiet hsettled =>
      rcases hm.settles (Event.Precedes.and hP Event.Precedes.isQuiet) ⟨hjob, rfl⟩ hleads
        (fun e he => ⟨hes e he, hquiet e he⟩) hsettled with
        ⟨es', r', hleads', hr', hsettled', hes'⟩
      exact ⟨es', _, .settle hleads' (fun e he => (hes' e he).2) hsettled', hr',
        fun e he => (hes' e he).1⟩
  | idle hleads houtside =>
      rcases hleads.akin (Event.Precedes.and hP Event.Precedes.isOutside)
        (fun e he => ⟨hes e he, houtside e he⟩) hm.watch with ⟨es', turn', hleads', hturn, hes'⟩
      rcases hturn.of_goes with ⟨r', rfl, hr'⟩
      exact ⟨es', _, .idle hleads' fun e he => (hes' e he).2, hr'.simulation,
        fun e he => (hes' e he).1⟩

theorem Fails.akin (hP : ∀ {e₀ e : Event}, e₀.Precedes e → P e → P e₀) {command : Command}
    {es : List Event} {us : List Update} (h : m.Fails command es us) (hes : ∀ e ∈ es, P e)
    (hm : m.Akin m') : exists es', m'.Fails command es' us ∧ ∀ e ∈ es', P e := by
  cases h with
  | observe hobserve =>
      rename_i snapshots observed
      have hrel := hm.observe snapshots observed
      rw [hobserve] at hrel
      exact ⟨[], .observe (eq_none_of_none_rel hrel), nofun⟩
  | run hbegin hleads =>
      rename_i limit deadline
      rcases hm.beginRun limit deadline with ⟨hresult, hr⟩
      rcases hleads.akin hP hes hr with ⟨es', turn', hleads', hturn, hes'⟩
      rw [hturn.of_fails] at hleads'
      exact ⟨es', .run (hresult.trans hbegin) hleads', hes'⟩
  | settle hleads hquiet =>
      rcases hleads.akin (Event.Precedes.and hP Event.Precedes.isQuiet)
        (fun e he => ⟨hes e he, hquiet e he⟩) hm.watch with ⟨es', turn', hleads', hturn, hes'⟩
      rw [hturn.of_fails] at hleads'
      exact ⟨es', .settle hleads' fun e he => (hes' e he).2, fun e he => (hes' e he).1⟩

/-!
# Logs
-/

def Act.outline (a : Act) : Act :=
  { a with events := [] }

theorem Proceeds.akin (hP : ∀ {e₀ e : Event}, e₀.Precedes e → P e → P e₀) (hjob : P (.job 0))
    {log : List Act} {m₁ : Simulation} (h : m.Proceeds log m₁)
    (hlog : ∀ a ∈ log, ∀ e ∈ a.events, P e) (hm : m.Akin m') :
    exists log' m₁', m'.Proceeds log' m₁' ∧ log'.map Act.outline = log.map Act.outline ∧
      m₁.Akin m₁' ∧ ∀ a ∈ log', ∀ e ∈ a.events, P e := by
  induction h with
  | nil => exact ⟨[], m', .nil, rfl, hm, fun _ ha => nomatch ha⟩
  | step h hdoes ih =>
      rename_i log n₁ n₂ command events reply
      rcases List.forall_mem_append.mp hlog with ⟨hbefore, hlast⟩
      rcases ih hbefore with ⟨log', n₁', hproceeds, houtline, hn₁, hlog'⟩
      rcases hdoes.akin hP hjob (hlast _ (List.mem_singleton_self _)) hn₁ with
        ⟨events', n₂', hdoes', hn₂, hevents'⟩
      refine ⟨_, n₂', .step hproceeds hdoes', ?_, hn₂, ?_⟩
      · rw [List.map_append, List.map_append, houtline]
        simp only [List.map_cons, List.map_nil, Act.outline, hn₂.view]
      · exact List.forall_mem_append.mpr ⟨hlog', by simpa using hevents'⟩

end Simulation
end Akin

namespace Simulation

/-!
# What there is to be seen
-/

/-- Whether a sequence of commands, replies and views may be seen, the events in between being of
some kind. -/
def Shows (P : Event → Prop) (m : Simulation) (outline : List Act) : Prop :=
  exists log m', m.Proceeds log m' ∧ log.map Act.outline = outline ∧ ∀ a ∈ log, ∀ e ∈ a.events, P e

def Breaks (P : Event → Prop) (m : Simulation) (outline : List Act) (command : Command)
    (us : List Update) : Prop :=
  exists log m' es, m.Proceeds log m' ∧ log.map Act.outline = outline ∧ m'.Fails command es us ∧
    (∀ a ∈ log, ∀ e ∈ a.events, P e) ∧ ∀ e ∈ es, P e

section Shows

variable {P : Event → Prop} {m m' : Simulation}

theorem Shows.akin (hP : ∀ {e₀ e : Event}, e₀.Precedes e → P e → P e₀) (hjob : P (.job 0))
    {outline : List Act} (h : m.Shows P outline) (hm : m.Akin m') : m'.Shows P outline := by
  rcases h with ⟨log, m₁, hproceeds, rfl, hlog⟩
  rcases hproceeds.akin hP hjob hlog hm with ⟨log', m₁', hproceeds', houtline, -, hlog'⟩
  exact ⟨log', m₁', hproceeds', houtline, hlog'⟩

theorem Breaks.akin (hP : ∀ {e₀ e : Event}, e₀.Precedes e → P e → P e₀) (hjob : P (.job 0))
    {outline : List Act} {command : Command} {us : List Update}
    (h : m.Breaks P outline command us) (hm : m.Akin m') : m'.Breaks P outline command us := by
  rcases h with ⟨log, m₁, es, hproceeds, rfl, hfails, hlog, hes⟩
  rcases hproceeds.akin hP hjob hlog hm with ⟨log', m₁', hproceeds', houtline, hm₁, hlog'⟩
  rcases hfails.akin hP hes hm₁ with ⟨es', hfails', hes'⟩
  exact ⟨log', m₁', es', hproceeds', houtline, hfails', hlog', hes'⟩

end Shows

/-- Whether two simulations show the same and fail alike, in any order of events as well as with all
work done in order. -/
structure Alike (m m' : Simulation) : Prop where
  shows : ∀ outline, m.Shows (fun _ => True) outline ↔ m'.Shows (fun _ => True) outline
  showsInTurn : ∀ outline,
    m.Shows (·.isInTurn = true) outline ↔ m'.Shows (·.isInTurn = true) outline
  breaks : ∀ outline command us,
    m.Breaks (fun _ => True) outline command us ↔ m'.Breaks (fun _ => True) outline command us
  breaksInTurn : ∀ outline command us,
    m.Breaks (·.isInTurn = true) outline command us ↔
      m'.Breaks (·.isInTurn = true) outline command us

/-- Simulations that differ in their past only show the same, and fail alike. -/
theorem Akin.alike {m m' : Simulation} (h : m.Akin m') : m.Alike m' where
  shows := fun _ =>
    ⟨fun hm => hm.akin (fun _ _ => trivial) trivial h,
      fun hm => hm.akin (fun _ _ => trivial) trivial h.symm⟩
  showsInTurn := fun _ =>
    ⟨fun hm => hm.akin Event.Precedes.isInTurn rfl h,
      fun hm => hm.akin Event.Precedes.isInTurn rfl h.symm⟩
  breaks := fun _ _ _ =>
    ⟨fun hm => hm.akin (fun _ _ => trivial) trivial h,
      fun hm => hm.akin (fun _ _ => trivial) trivial h.symm⟩
  breaksInTurn := fun _ _ _ =>
    ⟨fun hm => hm.akin Event.Precedes.isInTurn rfl h,
      fun hm => hm.akin Event.Precedes.isInTurn rfl h.symm⟩

end Simulation
end TransitSim
