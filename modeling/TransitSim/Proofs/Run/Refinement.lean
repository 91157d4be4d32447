import TransitSim.Proofs.Run.Invariants
import TransitSim.Proofs.Run.Termination

/-!
# Runs refine ticks in a row

A run that nobody ends does what a loop of plain ticks does, whatever else happens meanwhile and in
whatever order: it takes the positions that the loop would have taken, and as many; it leaves the
course where the loop would have left it; and its result tells whether the limit or the end of the
recording came first. The one way in which a run can fail is an answer beyond the calendar.

Ticks that an earlier run has left in the queue are dropped one by one, since no timer adds to them.
So no order of events can take ticks forever, and two runs in a row do what one run with both limits
together does.
-/

namespace TransitSim
namespace Run

def Ending.simulation? : Ending → Option Simulation
  | ended _ m => some m
  | failed | endless => none

/-!
# Where a run stops
-/

theorem earlier?_of_le {n : Nat} {ahead : Option Nat} (h : ∀ k, ahead = some k → n ≤ k) :
    earlier? (some n) ahead = some n := by
  cases ahead with
  | none => rfl
  | some k => rw [earlier?, Nat.min_eq_left (h k rfl)]

theorem earlier?_of_lt {limit : Option Nat} {k : Nat} (h : ∀ n, limit = some n → k < n) :
    earlier? limit (some k) = some k ∧ limit ≠ some k := by
  cases limit with
  | none => exact ⟨rfl, nofun⟩
  | some n =>
      have hlt := h n rfl
      refine ⟨by rw [earlier?, Nat.min_eq_right (Nat.le_of_lt hlt)], ?_⟩
      intro heq
      exact Nat.ne_of_gt hlt (Option.some.inj heq)

theorem le_earlier? {limit ahead : Option Nat} {t k : Nat} (ht : earlier? limit ahead = some t)
    (hlimit : ∀ n, limit = some n → k < n) (hahead : ∀ j, ahead = some j → k ≤ j) : k ≤ t := by
  cases limit with
  | none => exact hahead t ht
  | some n =>
      cases ahead with
      | none =>
          rw [← Option.some.inj ht]
          exact Nat.le_of_lt (hlimit n rfl)
      | some j =>
          rw [← Option.some.inj ht]
          exact Nat.le_min.mpr ⟨Nat.le_of_lt (hlimit n rfl), hahead j rfl⟩

theorem lt_of_lt_max {limit : Option Nat} {k : Nat} (hlimit : limit ≠ some 0)
    (h : ∀ n, limit = some n → k < max n 1) : ∀ n, limit = some n → k < n := by
  intro n hn
  have hlt := h n hn
  have hpos : n ≠ 0 := by
    rintro rfl
    exact hlimit hn
  omega

end Run

namespace Simulation

/-- A simulation that is where some ticks in a row would have left another one, its timer stopped,
with the positions and the result that go with it. -/
structure Completes (m : Simulation) (limit : Option Nat) (t : Nat) (us : List Update)
    (result : Except Error Outcome) (m' : Simulation) : Prop where
  updates : (m.tickTimes t).1 = us.map .ok
  course : m'.session.course = (m.tickTimes t).2.session.course
  result_eq : result = .ok (if limit = some t then .tickLimit else .playbackComplete)
  idle : m'.session.isRunning = false

def Runs (m : Simulation) (limit : Option Nat) (us : List Update) (result : Except Error Outcome)
    (m' : Simulation) : Prop :=
  exists es m₁, (m.beginRun limit none).2.Leads es us (.ends result m₁) ∧ .shutdown ∉ es ∧
    m' = m₁.stop

theorem Runs.completes {m m' : Simulation} {limit : Option Nat} {us : List Update}
    {result : Except Error Outcome} (h : m.Runs limit us result m') {t : Nat}
    (hlimit : limit ≠ some 0)
    (ht : Run.earlier? limit m.session.source.ahead? = some t) :
    m.Completes limit t us result m' := by
  rcases h with ⟨es, m₁, hleads, hunasked, rfl⟩
  rcases m.beginRun_eq limit none with ⟨b, hbegin, hcourse⟩
  rw [hbegin] at hleads
  have hsource : b.session.source = m.session.source := congrArg Course.source hcourse
  rcases hleads.cases rfl with ⟨r', hgoes, -⟩ | ⟨e, result', m₂, hlast, hturn, hfollows, hends⟩ |
    ⟨es', r', -, hfails, -⟩
  · cases hgoes
  · cases hturn
    have hrow := hfollows.of_course hcourse
    have hlength : us.length = t ∧
        result = .ok (if limit = some t then .tickLimit else .playbackComplete) := by
      cases hends with
      | interrupted room => exact absurd (List.mem_of_getLast? hlast) hunasked
      | full hn taken =>
          rename_i n
          cases hn
          have hpos : n ≠ 0 := by
            rintro rfl
            exact hlimit rfl
          have hn : us.length = n := by omega
          rw [Run.earlier?_of_le (hn ▸ hrow.within)] at ht
          cases ht
          exact ⟨hn, by rw [if_pos rfl]⟩
      | exhausted room ahead =>
          have hahead : m.session.source.ahead? = some us.length := hsource ▸ ahead
          rcases Run.earlier?_of_lt (Run.lt_of_lt_max hlimit room) with ⟨hsmaller, hother⟩
          rw [hahead, hsmaller] at ht
          cases ht
          exact ⟨rfl, by rw [if_neg hother]⟩
    rcases hlength with ⟨rfl, hresult⟩
    exact
      { updates := hrow.results
        course := hrow.course
        result_eq := hresult
        idle := Scheduler.isRunning_stop _ }
  · cases hfails

theorem Completes.ahead?_eq {m m' : Simulation} {limit : Option Nat} {t : Nat}
    {us : List Update} {result : Except Error Outcome} (h : m.Completes limit t us result m') :
    m'.session.source.ahead? = m.session.source.ahead?.map (· - t) := by
  rw [← ahead?_tickTimes]
  exact congrArg (Source.ahead? ∘ Course.source) h.course

theorem Runs.append {m m₁ m₂ m' : Simulation} {a b : Nat} {us₁ us₂ us : List Update}
    {result₁ result₂ result : Except Error Outcome} (ha : 0 < a) (hb : 0 < b)
    (hfirst : m.Runs (some a) us₁ result₁ m₁) (hsecond : m₁.Runs (some b) us₂ result₂ m₂)
    (hboth : m.Runs (some (a + b)) us result m') :
    us₁ ++ us₂ = us ∧ result₂ = result ∧ m₂.session.course = m'.session.course := by
  have hsome : ∀ (n : Nat) (ahead : Option Nat), exists t,
      Run.earlier? (some n) ahead = some t ∧ t = (ahead.map (min n)).getD n := by
    intro n ahead
    cases ahead <;> exact ⟨_, rfl, rfl⟩
  have hzero : ∀ n : Nat, 0 < n → some n ≠ some 0 := by
    intro n hn heq
    cases heq
    exact Nat.lt_irrefl 0 hn
  rcases hsome a m.session.source.ahead? with ⟨t₁, ht₁, hlen₁⟩
  rcases hsome b m₁.session.source.ahead? with ⟨t₂, ht₂, hlen₂⟩
  rcases hsome (a + b) m.session.source.ahead? with ⟨t, ht, hlen⟩
  have h₁ := hfirst.completes (hzero a ha) ht₁
  have h₂ := hsecond.completes (hzero b hb) ht₂
  have h := hboth.completes (hzero (a + b) (Nat.add_pos_left ha b)) ht
  rw [h₁.ahead?_eq] at hlen₂
  have hsum : t₁ + t₂ = t ∧ (some b = some t₂ ↔ some (a + b) = some t) := by
    cases hk : m.session.source.ahead? with
    | none =>
        simp only [hk, Option.map_none, Option.getD_none] at hlen₁ hlen₂ hlen
        simp only [Option.some.injEq]
        omega
    | some k =>
        simp only [hk, Option.map_some, Option.getD_some] at hlen₁ hlen₂ hlen
        simp only [Option.some.injEq]
        omega
  have hrow := tickTimes_of_course h₁.course t₂
  have hadd := m.tickTimes_add t₁ t₂
  rw [hsum.1] at hadd
  refine ⟨?_, ?_, ?_⟩
  · have hok : (us₁ ++ us₂).map (Except.ok (ε := Error)) = us.map .ok := by
      rw [List.map_append, ← h₁.updates, ← h₂.updates, ← h.updates, hadd.1, hrow.1]
    exact (List.map_inj_right fun _ _ => Except.ok.inj).mp hok
  · rw [h₂.result_eq, h.result_eq]
    simp only [hsum.2]
  · rw [h₂.course, hrow.2, h.course, hadd.2]

/-!
# Runs of ready sessions
-/

structure Begins (m b : Simulation) : Prop where
  course : b.session.course = m.session.course
  queue : b.session.scheduler.queue = m.session.scheduler.queue
  isRunning : b.session.isRunning = true
  reachable : m.Reachable → b.Reachable
  inCalendar : m.InCalendar → b.InCalendar

theorem beginRun_of_ready {m : Simulation} (h : m.session.scheduler.Ready)
    (limit deadline : Option Nat) :
    exists b, m.beginRun limit deadline = (.ok (), ⟨b, 0, limit, deadline, 0⟩) ∧ m.Begins b := by
  cases hrunning : m.session.isRunning with
  | true => exact ⟨m, by simp [beginRun, hrunning], rfl, rfl, hrunning, id, id⟩
  | false =>
      have hstart := h.start hrunning m.clock.now
      have hstarted : m.start.1 = .ok () ∧
          m.start.2.session.scheduler = m.session.scheduler.spawn m.clock.now ∧
            m.start.2.session.answers = m.session.answers ∧ m.start.2.feed = m.feed := by
        simp only [start, Session.start, hstart]
        exact ⟨trivial, rfl, rfl, rfl⟩
      rcases hstarted with ⟨hok, hscheduler, hanswers, hfeed⟩
      refine ⟨m.start.2, ?_, ?_⟩
      · simp only [beginRun, hrunning, Bool.false_eq_true, if_false]
        rw [← hok]
      · exact
          { course := m.course_start
            queue := (congrArg Scheduler.queue hscheduler).trans rfl
            isRunning := (congrArg Scheduler.isRunning hscheduler).trans rfl
            reachable := fun hm => hm.step (.start m)
            inCalendar := fun hm => hm.of_eq hfeed hanswers }

theorem Runs.reachable {m m' : Simulation} {limit : Option Nat} {us : List Update}
    {result : Except Error Outcome} (h : m.Runs limit us result m') (hm : m.Reachable) :
    m'.Reachable := by
  rcases h with ⟨es, m₁, hleads, -, rfl⟩
  rcases beginRun_of_ready hm.ready limit none with ⟨b, hbegin, hb⟩
  rw [hbegin] at hleads
  exact (hleads.reachable (hb.reachable hm) rfl).step (.stop m₁)

theorem Runs.inCalendar {m m' : Simulation} {limit : Option Nat} {us : List Update}
    {result : Except Error Outcome} (h : m.Runs limit us result m') (hm : m.Reachable)
    (hcalm : m.InCalendar) : m'.InCalendar := by
  rcases h with ⟨es, m₁, hleads, -, rfl⟩
  rcases beginRun_of_ready hm.ready limit none with ⟨b, hbegin, hb⟩
  rw [hbegin] at hleads
  rcases hleads.inCalendar (hb.inCalendar hcalm) with ⟨m', hm', hwithin⟩
  cases hm'
  exact hwithin.of_eq rfl rfl

/-- What holds wherever events lead a run that nobody ends: its positions are those of a row of
ticks; while it goes on there is another tick to be had, and only so many have been taken; where it
ends, it completes the row; and where it fails, an answer has been beyond the calendar. -/
structure Refines (m : Simulation) (limit : Option Nat) (t : Nat) (es : List Event)
    (us : List Update) (turn : Turn) : Prop where
  length_le : us.length ≤ t
  updates : (m.tickTimes us.length).1 = us.map .ok
  course : ∀ r, turn = .goes r →
    r.simulation.session.course = (m.tickTimes us.length).2.session.course
  ticks_le : ∀ r, turn = .goes r →
    es.countP Event.isTick ≤ m.session.scheduler.queue.length + us.length
  next : ∀ r, turn = .goes r → exists time r',
    (r.onPass time).react .fire = some (.goes r') ∧ (r'.react .tick).isSome = true
  ends : ∀ result m', turn = .ends result m' → m.Completes limit t us result m'.stop
  fails : turn = .fails → exists es' r a rest, es = es' ++ [.answer] ∧
    (m.beginRun limit none).2.Leads es' us (.goes r) ∧
      r.simulation.session.answers = a :: rest ∧ ¬a.InCalendar
  calm : m.InCalendar → turn ≠ .fails

theorem refines {m : Simulation} (hm : m.Reachable) {limit : Option Nat} {t : Nat}
    (hlimit : limit ≠ some 0) (ht : Run.earlier? limit m.session.source.ahead? = some t)
    {es : List Event} {us : List Update} {turn : Turn}
    (h : (m.beginRun limit none).2.Leads es us turn) (hunasked : .shutdown ∉ es) :
    m.Refines limit t es us turn := by
  rcases beginRun_of_ready hm.ready limit none with ⟨b, hbegin, hb⟩
  have hleads : Run.Leads ⟨b, 0, limit, none, 0⟩ es us turn := by
    rw [hbegin] at h
    exact h
  rcases hleads.cases rfl with ⟨r, rfl, hgoing⟩ | ⟨e, result, m₁, -, rfl, -⟩ |
    ⟨es', r, rfl, rfl, hbefore, hanswer⟩
  case inl =>
    have hrow := hgoing.follows.of_course hb.course
    constructor
    case length_le => exact Run.le_earlier? ht (Run.lt_of_lt_max hlimit hgoing.room) hrow.within
    case updates => exact hrow.results
    case course =>
      rintro r' ⟨⟩
      exact hrow.course
    case ticks_le =>
      rintro r' ⟨⟩
      have hcount := hleads.countP_isTick (hb.reachable hm)
      have hstale : b.session.scheduler.stale.length ≤ m.session.scheduler.queue.length := by
        rw [← hb.queue]
        exact List.length_filter_le _ _
      simp only at hcount
      omega
    case next =>
      rintro r' ⟨⟩
      exact Run.exists_onTick (hgoing.isRunning.trans hb.isRunning)
    case ends => exact fun result m' hturn => nomatch hturn
    case fails => exact fun hturn => nomatch hturn
    case calm => exact fun _ hturn => nomatch hturn
  case inr.inl =>
    have hcompletes : m.Completes limit t us result m₁.stop :=
      Runs.completes ⟨es, m₁, h, hunasked, rfl⟩ hlimit ht
    have hlength : t = us.length := by
      rw [← m.length_tickTimes t, hcompletes.updates, List.length_map]
    constructor
    case length_le => exact Nat.le_of_eq hlength.symm
    case updates => exact hlength ▸ hcompletes.updates
    case course => exact fun r hturn => nomatch hturn
    case ticks_le => exact fun r hturn => nomatch hturn
    case next => exact fun r hturn => nomatch hturn
    case ends =>
      rintro result' m' ⟨⟩
      exact hcompletes
    case fails => exact fun hturn => nomatch hturn
    case calm => exact fun _ hturn => nomatch hturn
  case inr.inr =>
    have hgoing := hbefore.going rfl
    have hrow := hgoing.follows.of_course hb.course
    rcases takeAnswer_eq_none_iff.mp hanswer with ⟨a, rest, hanswers, hbeyond⟩
    constructor
    case length_le => exact Run.le_earlier? ht (Run.lt_of_lt_max hlimit hgoing.room) hrow.within
    case updates => exact hrow.results
    case course => exact fun r hturn => nomatch hturn
    case ticks_le => exact fun r hturn => nomatch hturn
    case next => exact fun r hturn => nomatch hturn
    case ends => exact fun result m' hturn => nomatch hturn
    case fails =>
      rw [hbegin]
      exact fun _ => ⟨es', r, a, rest, rfl, hbefore, hanswers, hbeyond⟩
    case calm =>
      intro hcalm _
      rcases hleads.inCalendar (hb.inCalendar hcalm) with ⟨m', hm', -⟩
      cases hm'

theorem run_ends {m : Simulation} (hm : m.Reachable) {limit : Option Nat} {t : Nat}
    (hlimit : limit ≠ some 0) (ht : Run.earlier? limit m.session.source.ahead? = some t) :
    (m.run limit none = .failed ∧ ¬m.InCalendar) ∨
      exists us result m', m.run limit none = .ended result m' ∧ m.Runs limit us result m' ∧
        m.Completes limit t us result m' := by
  rcases beginRun_of_ready hm.ready limit none with ⟨b, hbegin, hb⟩
  have hlively : Run.Lively ⟨b, 0, limit, none, 0⟩ := by
    constructor
    case ready => exact (hb.reachable hm).ready
    case running => exact hb.isRunning
    case unasked => rfl
    case bounded =>
      rintro rfl
      have hsource : b.session.source = m.session.source := congrArg Course.source hb.course
      show b.session.source.ahead? ≠ none
      rw [hsource, show m.session.source.ahead? = some t from ht]
      exact Option.some_ne_none t
  have hends := hlively.finish rfl rfl
  have hcomes := (m.beginRun limit none).2.comes_finish
  rcases m.run_cases limit none with ⟨e, he, -⟩ | ⟨-, hrun⟩
  · rw [hbegin] at he
    cases he
  · rw [← hrun] at hcomes
    cases hresult : m.run limit none with
    | endless =>
        rw [hrun, hbegin] at hresult
        exact absurd hresult hends
    | failed =>
        rw [hresult] at hcomes
        cases hcomes with
        | failed hleads =>
            have hunasked := hleads.not_mem_shutdown fun m => nofun
            exact Or.inl ⟨rfl, fun hcalm =>
              (refines hm hlimit ht hleads hunasked).calm hcalm rfl⟩
    | ended result m' =>
        rw [hresult] at hcomes
        cases hcomes with
        | ended hleads hunasked =>
            have hruns : m.Runs limit _ result _ :=
              ⟨_, _, hleads, hunasked (by rw [hbegin]), rfl⟩
            exact Or.inr ⟨_, _, _, rfl, hruns, hruns.completes hlimit ht⟩

/-- In every state, a run whose ticks are limited, by a limit that is not zero or by the end of a
recording, and that nobody ends refines a row of ticks, in whatever order events come. It ends by
itself unless an answer is beyond the calendar. Two such runs in a row are as good as one. -/
theorem run_refines_ticks {m : Simulation} (hm : m.Reachable) {limit : Option Nat} {t : Nat}
    (hlimit : limit ≠ some 0) (ht : Run.earlier? limit m.session.source.ahead? = some t) :
    (m.beginRun limit none).1 = .ok () ∧
      (∀ es us turn, (m.beginRun limit none).2.Leads es us turn → .shutdown ∉ es →
        m.Refines limit t es us turn) ∧
      ((m.run limit none = .failed ∧ ¬m.InCalendar) ∨
        exists us result m', m.run limit none = .ended result m' ∧ m.Runs limit us result m' ∧
          m.Completes limit t us result m') ∧
      ∀ a b us₁ us₂ us result₁ result₂ result m₁ m₂ m', 0 < a → 0 < b → limit = some (a + b) →
        m.Runs (some a) us₁ result₁ m₁ → m₁.Runs (some b) us₂ result₂ m₂ →
          m.Runs limit us result m' →
            us₁ ++ us₂ = us ∧ result₂ = result ∧ m₂.session.course = m'.session.course := by
  rcases beginRun_of_ready hm.ready limit none with ⟨b, hbegin, hb⟩
  refine ⟨by rw [hbegin], fun es us turn h => refines hm hlimit ht h, run_ends hm hlimit ht, ?_⟩
  intro a b us₁ us₂ us result₁ result₂ result m₁ m₂ m' ha hb hsum hfirst hsecond hboth
  subst hsum
  exact Runs.append ha hb hfirst hsecond hboth

theorem inCalendar_crossing : crossing.InCalendar where
  feed := by
    have hresponses : ∀ index < 3, ∀ s ∈ Response.snapshots Recording.drifting.vehicle
        (Recording.drifting.response index), s.final? ≠ none := by
      decide +kernel
    intro index
    have hlast : Recording.drifting.response index =
        Recording.drifting.response (min index 2) := by
      simp only [Recording.response, Recording.drifting, List.length_cons, List.length_nil,
        Nat.reduceAdd, Nat.reduceSub, Nat.min_assoc, Nat.min_self]
    show ∀ s ∈ Response.snapshots _ (Recording.drifting.response index), _
    rw [hlast]
    exact hresponses (min index 2) (by omega)
  answers := fun _ ha => nomatch ha

theorem run_refines_ticks_crossing :
    exists us₁ us₂ us result₁ result m₁ m₂ m',
      crossing.run (some 1) none = .ended result₁ m₁ ∧
        m₁.run (some 3) none = .ended result m₂ ∧
        crossing.run (some 4) none = .ended result m' ∧
        crossing.Completes (some 4) 4 us result m' ∧ us₁ ++ us₂ = us ∧
        m₂.session.course = m'.session.course ∧
        m'.session.tracker.summarize "22.5-88.25" = ⟨1, 1, 0⟩ := by
  have hends : ∀ {m : Simulation} {n : Nat}, m.Reachable → m.InCalendar → some n ≠ some 0 →
      Run.earlier? (some n) m.session.source.ahead? = some n →
      exists us result m', m.run (some n) none = .ended result m' ∧
        m.Runs (some n) us result m' ∧ m.Completes (some n) n us result m' := by
    intro m n hm hcalm hn hahead
    rcases (run_refines_ticks hm hn hahead).2.2.1 with ⟨-, hbeyond⟩ | hended
    · exact absurd hcalm hbeyond
    · exact hended
  have hm := reachable_crossing
  have hcalm := inCalendar_crossing
  have hahead : crossing.session.source.ahead? = some 4 := rfl
  rcases hends (n := 1) hm hcalm (by decide) rfl with
    ⟨us₁, result₁, m₁, hrun₁, hruns₁, hcompletes₁⟩
  have hahead₁ : m₁.session.source.ahead? = some 3 := by
    rw [hcompletes₁.ahead?_eq, hahead]
    rfl
  rcases hends (n := 3) (hruns₁.reachable hm) (hruns₁.inCalendar hm hcalm) (by decide)
    (by rw [hahead₁]; rfl) with ⟨us₂, result₂, m₂, hrun₂, hruns₂, -⟩
  rcases hends (n := 4) hm hcalm (by decide) rfl with
    ⟨us, result, m', hrun, hruns, hcompletes⟩
  obtain ⟨-, -, -, happend⟩ := run_refines_ticks hm (show some 4 ≠ some 0 by decide)
    (show Run.earlier? (some 4) crossing.session.source.ahead? = some 4 from rfl)
  rcases happend 1 3 us₁ us₂ us result₁ result₂ result m₁ m₂ m' Nat.one_pos (Nat.succ_pos 2) rfl
    hruns₁ hruns₂ hruns with ⟨hus, rfl, hcourse⟩
  have hmoved : (crossing.run (some 4) none).simulation?.map
      (·.session.tracker.summarize "22.5-88.25") = some ⟨1, 1, 0⟩ := by
    decide +kernel
  rw [hrun] at hmoved
  exact ⟨us₁, us₂, us, result₁, result₂, m₁, m₂, m', hrun₁, hrun₂, hrun, hcompletes, hus, hcourse,
    Option.some.inj hmoved⟩

end Simulation

def Run.Ending.isFailed : Ending → Bool
  | failed => true
  | _ => false

theorem Run.Ending.eq_failed {ending : Ending} (h : ending.isFailed = true) : ending = .failed := by
  cases ending <;> first | rfl | cases h

def Json.beyond : Json :=
  .array [.object [
    ("vehicleInfo", .object [("upcomingStops", .array [.object [
      ("delta", .number (.real 1e300)),
      ("eta", .number (.natural 0)),
      ("stop", .object [("coordinate", .object [
        ("lat", .number (.real 22.5)),
        ("lon", .number (.real 88.25))])])]])]),
    ("vehicleNumber", .string "WB052366")]]

def Feed.beyond : Feed :=
  .recorded ⟨[.beyond], "WB052366", 0, Nat.zero_lt_one⟩

namespace Simulation

/-- A run that should end with its recording fails at an estimate that cannot be told. -/
theorem run_fails_beyond_calendar :
    (standard (.playback .lone) .beyond).Reachable ∧
      Run.earlier? none (standard (.playback .lone) .beyond).session.source.ahead? = some 1 ∧
        (standard (.playback .lone) .beyond).run none none = .failed := by
  refine ⟨reachable_standard _ _, rfl, Run.Ending.eq_failed ?_⟩
  decide +kernel

end Simulation
end TransitSim
