import TransitSim.Proofs.Tick.Timeline

/-!
# Waiting for ticks

Sleeping, waiting for the next tick and taking all ticks are ways in which time passes, the running
timer fires and ticks are received. What holds of all of these, in any order, therefore holds of a
scheduler whatever is done with it.
-/

namespace TransitSim

open Duration (millisecond)

namespace Timer

theorem dueAfter_le {u : Timer} {time k : Nat} (h : k < u.dueBy time) :
    u.dueAfter (u.fired + k) ≤ time := by
  have hle : u.fired + k + 1 ≤ (time - u.start) / u.period := by
    unfold dueBy at h
    omega
  have hmul : (u.fired + k + 1) * u.period ≤ time - u.start :=
    Nat.le_trans (Nat.mul_le_mul_right _ hle) (Nat.div_mul_le_self _ _)
  have hstart : u.start ≤ time := by
    apply Nat.le_of_not_lt
    intro hlt
    rw [Nat.sub_eq_zero_of_le (Nat.le_of_lt hlt), Nat.zero_div] at hle
    omega
  unfold dueAfter
  omega

theorem lt_dueAfter {u : Timer} (hpos : 0 < u.period) (time : Nat) :
    time < u.dueAfter (u.fired + u.dueBy time) := by
  have hlt : time - u.start < u.period * ((time - u.start) / u.period + 1) :=
    Nat.lt_mul_div_succ _ hpos
  have hle : (time - u.start) / u.period ≤ u.fired + u.dueBy time := by
    unfold dueBy
    omega
  have hmul := Nat.mul_le_mul_left u.period (Nat.succ_le_succ hle)
  unfold dueAfter
  rw [Nat.mul_comm (u.fired + u.dueBy time + 1)]
  simp only [Nat.succ_eq_add_one] at hmul
  omega

end Timer

namespace Scheduler

section
variable {s s' : Scheduler} {u : Timer} {tick : Tick} {now ms : Nat}

theorem next_of_take (h : s.take? = some (tick, s')) : s.next now ms = (some tick, s', now) := by
  simp only [next, h]

theorem next_of_idle (h : s.take? = none) (htimer : s.timer = none) :
    s.next now ms = (none, s, now + Period.ofMillis ms) := by
  simp only [next, h, nextWake?, htimer, Option.map_none]

theorem next_of_late (h : s.take? = none) (htimer : s.timer = some u)
    (hlate : ¬max now (Clock.wake u.due) < now + Period.ofMillis ms) :
    s.next now ms = (none, s, now + Period.ofMillis ms) := by
  simp only [next, h, nextWake?, htimer, Option.map_some, if_neg hlate]

theorem next_of_soon (h : s.take? = none) (htimer : s.timer = some u)
    (hsoon : max now (Clock.wake u.due) < now + Period.ofMillis ms) :
    s.next now ms =
      ((s.fireBurst (max now (Clock.wake u.due))).take?.map Prod.fst,
        ((s.fireBurst (max now (Clock.wake u.due))).take?.map Prod.snd).getD
          (s.fireBurst (max now (Clock.wake u.due))), max now (Clock.wake u.due)) := by
  simp only [next, h, nextWake?, htimer, Option.map_some, if_pos hsoon]
  cases (s.fireBurst (max now (Clock.wake u.due))).take? <;> rfl

end

namespace Timeline

variable {base : Nat} {t : Timeline}

theorem step_pass {time : Nat} (h : t.MayPass time) :
    t.step (.pass time) = { t with now := time } :=
  if_pos h

theorem mayPass_of_idle (hidle : t.scheduler.timer = none) {time : Nat} (hle : t.now ≤ time)
    (hwhole : time % millisecond = 0) : t.MayPass time := by
  refine ⟨hle, hwhole, ?_⟩
  intro hrunning
  unfold isRunning at hrunning
  rw [hidle] at hrunning
  cases hrunning

theorem Sound.awaits (h : Sound base t) {u : Timer} (hu : t.scheduler.timer = some u) :
    t.deadline = u.due ∧ t.now ≤ Clock.wake u.due ∧ 0 < u.period := by
  rcases h.running u hu with ⟨earlier, l, hlives, -, hruns⟩
  refine ⟨hruns.deadline_eq, hruns.le_wake, ?_⟩
  rw [hruns.timer_eq]
  apply h.period_pos l
  rw [hlives]
  exact List.mem_append_right _ (List.mem_singleton_self l)

theorem Sound.mayPass (h : Sound base t) {u : Timer} (hu : t.scheduler.timer = some u) {time : Nat}
    (hle : t.now ≤ time) (hwhole : time % millisecond = 0) (hwake : time ≤ Clock.wake u.due) :
    t.MayPass time := by
  refine ⟨hle, hwhole, ?_⟩
  intro _
  rw [(h.awaits hu).1]
  exact hwake

theorem Sound.exists_fires (h : Sound base t) {u : Timer} (hu : t.scheduler.timer = some u)
    {time : Nat} (hwhole : time % millisecond = 0) (hle : t.now ≤ time) (n : Nat)
    (hdue : ∀ k < n, u.dueAfter (u.fired + k) ≤ time) :
    exists acts, (t.run acts).scheduler = t.scheduler.fireTimes n ∧ (t.run acts).now ≤ time ∧
      (t.run acts).received = t.received := by
  induction n generalizing t u with
  | zero => exact ⟨[], (fireTimes_zero _).symm, hle, rfl⟩
  | succ n ih =>
      rcases h.awaits hu with ⟨hdeadline, hnow, -⟩
      have hwake : Clock.wake u.due ≤ time := Clock.wake_le (hdue 0 (Nat.succ_pos n)) hwhole
      have hpass : t.MayPass (Clock.wake u.due) :=
        h.mayPass hu hnow (Clock.wake_mod _) (Nat.le_refl _)
      have hwoken : t.deadline ≤ Clock.wake u.due := by
        rw [hdeadline]
        exact Clock.le_wake _
      have hfire : ({ t with now := Clock.wake u.due } : Timeline).step .fire =
          { t with
            now := Clock.wake u.due
            scheduler := t.scheduler.fire
            deadline := nextDeadline u.period t.deadline (Clock.wake u.due) } := by
        simp only [Timeline.step, hu, if_pos hwoken]
      have hsound := (h.pass hpass).step .fire
      rw [hfire] at hsound
      have hfired : t.scheduler.fire.timer = some { u with fired := u.fired + 1 } := by
        rw [fire_eq_fireTimes, timer_fireTimes, hu]
        rfl
      have hlater : ∀ k < n, ({ u with fired := u.fired + 1 } : Timer).dueAfter (u.fired + 1 + k) ≤
          time := by
        intro k hk
        rw [Nat.add_assoc, Nat.add_comm 1 k]
        exact hdue (k + 1) (Nat.succ_lt_succ hk)
      rcases ih hsound hfired hwake hlater with ⟨acts, hscheduler, hnow, hreceived⟩
      refine ⟨.pass (Clock.wake u.due) :: .fire :: acts, ?_, ?_, ?_⟩
      · rw [run_cons, run_cons, step_pass hpass, hfire, hscheduler, fire_eq_fireTimes,
          fireTimes_fireTimes, Nat.add_comm]
      · rw [run_cons, run_cons, step_pass hpass, hfire]
        exact hnow
      · rw [run_cons, run_cons, step_pass hpass, hfire]
        exact hreceived

theorem Sound.exists_fires_pass (h : Sound base t) {u : Timer} (hu : t.scheduler.timer = some u)
    {time stop : Nat} (hwhole : time % millisecond = 0) (hle : t.now ≤ time) (n : Nat)
    (hdue : ∀ k < n, u.dueAfter (u.fired + k) ≤ time) (hstop : stop % millisecond = 0)
    (hlater : time ≤ stop) (hwake : stop ≤ Clock.wake (u.dueAfter (u.fired + n))) :
    exists acts, (t.run acts).scheduler = t.scheduler.fireTimes n ∧ (t.run acts).now = stop ∧
      (t.run acts).received = t.received := by
  rcases h.exists_fires hu hwhole hle n hdue with ⟨acts, hscheduler, hnow, hreceived⟩
  have htimer : (t.run acts).scheduler.timer = some { u with fired := u.fired + n } := by
    rw [hscheduler, timer_fireTimes, hu]
    rfl
  have hpass : (t.run acts).MayPass stop :=
    (h.run acts).mayPass htimer (Nat.le_trans hnow hlater) hstop hwake
  have hrun : t.run (acts ++ [.pass stop]) = { t.run acts with now := stop } := by
    rw [run_append, run_singleton, step_pass hpass]
  exact ⟨acts ++ [.pass stop], by rw [hrun, hscheduler], by rw [hrun], by rw [hrun, hreceived]⟩

theorem exists_pass {time : Nat} (hpass : t.MayPass time) :
    exists acts, (t.run acts).scheduler = t.scheduler ∧ (t.run acts).now = time ∧
      (t.run acts).received = t.received := by
  have hrun : t.run [.pass time] = { t with now := time } := step_pass hpass
  exact ⟨[.pass time], by rw [hrun], by rw [hrun], by rw [hrun]⟩

theorem exists_take {tick : Tick} {s : Scheduler} (htake : t.scheduler.take? = some (tick, s)) :
    exists acts, (t.run acts).scheduler = s ∧ (t.run acts).now = t.now ∧
      (t.run acts).received = t.received ++ [tick] := by
  have hrun : t.run [.take] = { t with scheduler := s, received := t.received ++ [tick] } := by
    simp only [run_singleton, step, htake]
  exact ⟨[.take], by rw [hrun], by rw [hrun], by rw [hrun]⟩

/-!
# Ways to wait
-/

theorem stop_whole (h : t.now % millisecond = 0) (ms : Nat) :
    (t.now + Period.ofMillis ms) % millisecond = 0 := by
  unfold Period.ofMillis
  rw [Nat.add_mul_mod_self_right]
  exact h

theorem Sound.exists_sleep (h : Sound base t) (ms : Nat) :
    exists acts, ((t.run acts).scheduler, (t.run acts).now) = t.scheduler.sleep t.now ms ∧
      (t.run acts).received = t.received := by
  by_cases hms : ms = 0
  · refine ⟨[], ?_, rfl⟩
    unfold sleep
    rw [if_pos hms]
    rfl
  · have hstop := stop_whole h.whole ms
    have hsleep : t.scheduler.sleep t.now ms =
        (t.scheduler.firedBefore (t.now + Period.ofMillis ms), t.now + Period.ofMillis ms) :=
      if_neg hms
    rw [hsleep]
    generalize htime : t.now + Period.ofMillis ms = stop at hstop
    have hlong : t.now + millisecond ≤ stop := by
      rw [← htime]
      exact Nat.add_le_add_left (Nat.le_mul_of_pos_left _ (Nat.pos_of_ne_zero hms)) _
    cases htimer : t.scheduler.timer with
    | none =>
        have hle : t.now ≤ stop := Nat.le_trans (Nat.le_add_right _ _) hlong
        rcases exists_pass (mayPass_of_idle htimer hle hstop) with
          ⟨acts, hscheduler, hnow, hreceived⟩
        refine ⟨acts, ?_, hreceived⟩
        rw [hscheduler, hnow]
        unfold firedBefore fireBy fireTimes
        rw [htimer]
    | some u =>
        have hbefore : (stop - millisecond) % millisecond = 0 := by
          unfold millisecond at *
          omega
        have hpos := (h.awaits htimer).2.2
        have hwake : stop ≤ Clock.wake (u.dueAfter (u.fired + u.dueBy (stop - millisecond))) := by
          have hlater := u.lt_dueAfter hpos (stop - millisecond)
          have hle := Clock.le_wake (u.dueAfter (u.fired + u.dueBy (stop - millisecond)))
          have hmod := Clock.wake_mod (u.dueAfter (u.fired + u.dueBy (stop - millisecond)))
          unfold millisecond at *
          omega
        rcases h.exists_fires_pass htimer hbefore (by omega) _ (fun k => Timer.dueAfter_le) hstop
          (Nat.sub_le _ _) hwake with ⟨acts, hscheduler, hnow, hreceived⟩
        refine ⟨acts, ?_, hreceived⟩
        rw [hscheduler, hnow]
        unfold firedBefore fireBy dueBy
        rw [htimer]

theorem Sound.exists_fireBurst (h : Sound base t) {u : Timer} (hu : t.scheduler.timer = some u) :
    exists acts, (t.run acts).scheduler = t.scheduler.fireBurst (Clock.wake u.due) ∧
      (t.run acts).now = Clock.wake u.due ∧ (t.run acts).received = t.received := by
  have hburst : ∀ k < min burst (u.dueBy (Clock.wake u.due)),
      u.dueAfter (u.fired + k) ≤ Clock.wake u.due :=
    fun k hk => Timer.dueAfter_le (Nat.lt_of_lt_of_le hk (Nat.min_le_right _ _))
  have hlater : Clock.wake u.due ≤
      Clock.wake (u.dueAfter (u.fired + min burst (u.dueBy (Clock.wake u.due)))) := by
    apply Clock.wake_mono
    unfold Timer.due Timer.dueAfter
    exact Nat.add_le_add_left
      (Nat.mul_le_mul_right _ (Nat.add_le_add_right (Nat.le_add_right _ _) 1)) _
  have hfires := h.exists_fires_pass hu (Clock.wake_mod _) (h.awaits hu).2.1 _ hburst
    (Clock.wake_mod _) (Nat.le_refl _) hlater
  unfold fireBurst Scheduler.dueBy
  rw [hu]
  exact hfires

theorem Sound.exists_next (h : Sound base t) (ms : Nat) :
    exists acts, ((t.run acts).scheduler, (t.run acts).now) = (t.scheduler.next t.now ms).2 ∧
      (t.run acts).received = t.received ++ (t.scheduler.next t.now ms).1.toList := by
  have hstop := stop_whole h.whole ms
  have hle : t.now ≤ t.now + Period.ofMillis ms := Nat.le_add_right _ _
  cases htake : t.scheduler.take? with
  | some found =>
      rcases found with ⟨tick, s⟩
      rcases exists_take htake with ⟨acts, hscheduler, hnow, hreceived⟩
      rw [next_of_take htake]
      exact ⟨acts, by rw [hscheduler, hnow], hreceived⟩
  | none =>
      cases htimer : t.scheduler.timer with
      | none =>
          rcases exists_pass (mayPass_of_idle htimer hle hstop) with
            ⟨acts, hscheduler, hnow, hreceived⟩
          rw [next_of_idle htake htimer]
          exact ⟨acts, by rw [hscheduler, hnow], by rw [hreceived]; exact (List.append_nil _).symm⟩
      | some u =>
          have hwoken : max t.now (Clock.wake u.due) = Clock.wake u.due :=
            Nat.max_eq_right (h.awaits htimer).2.1
          by_cases hsoon : max t.now (Clock.wake u.due) < t.now + Period.ofMillis ms
          · rcases h.exists_fireBurst htimer with ⟨first, hfired, htime, hsame⟩
            rw [next_of_soon htake htimer hsoon, hwoken, ← hfired]
            cases hnext : (t.run first).scheduler.take? with
            | none =>
                exact ⟨first, by rw [htime]; rfl, by rw [hsame]; exact (List.append_nil _).symm⟩
            | some found =>
                rcases found with ⟨tick, s⟩
                rcases exists_take hnext with ⟨second, hscheduler, hlast, hreceived⟩
                refine ⟨first ++ second, ?_, ?_⟩
                · rw [run_append, hscheduler, hlast, htime]
                  rfl
                · rw [run_append, hreceived, hsame]
                  rfl
          · rw [hwoken] at hsoon
            rcases exists_pass (h.mayPass htimer hle hstop (Nat.le_of_not_lt hsoon)) with
              ⟨acts, hscheduler, htime, hreceived⟩
            rw [← hwoken] at hsoon
            rw [next_of_late htake htimer hsoon]
            exact ⟨acts, by rw [hscheduler, htime],
              by rw [hreceived]; exact (List.append_nil _).symm⟩

theorem exists_drain (t : Timeline) :
    exists acts, (t.run acts).scheduler = t.scheduler.drain.2 ∧ (t.run acts).now = t.now ∧
      (t.run acts).received = t.received ++ t.scheduler.drain.1 := by
  generalize hqueue : t.scheduler.queue = queue
  induction queue generalizing t with
  | nil =>
      refine ⟨[], ?_, rfl, ?_⟩
      · unfold drain
        rw [← hqueue]
        rfl
      · unfold drain
        rw [hqueue, List.append_nil]
        rfl
  | cons tick rest ih =>
      have htake : t.scheduler.take? = some (tick, { t.scheduler with queue := rest }) := by
        unfold take?
        rw [hqueue]
      rcases exists_take htake with ⟨first, hscheduler, hnow, hreceived⟩
      rcases ih (t.run first) (by rw [hscheduler]) with ⟨second, hlast, htime, hall⟩
      refine ⟨first ++ second, ?_, ?_, ?_⟩
      · rw [run_append, hlast, hscheduler]
        rfl
      · rw [run_append, htime, hnow]
      · rw [run_append, hall, hreceived, hscheduler]
        unfold drain
        rw [hqueue, List.append_assoc]
        rfl

/-!
# All timers at once
-/

theorem Sound.exists_hasSent (h : Sound base t) {l : Life} (hl : l ∈ t.lives) :
    l.ended.getD t.now ≤ t.now ∧
      exists n, HasSent base (l.ended.getD t.now) n l (t.ticksOf l) := by
  cases hended : l.ended with
  | some time => exact h.ended l hl time hended
  | none =>
      refine ⟨Nat.le_refl _, ?_⟩
      cases htimer : t.scheduler.timer with
      | none => exact absurd hended (h.idle htimer l hl).1
      | some u =>
          rcases h.running u htimer with ⟨earlier, last, hlives, hearlier, hruns⟩
          rw [hlives] at hl
          rcases List.mem_append.mp hl with hbefore | hlast
          · exact absurd hended (hearlier l hbefore)
          · rw [List.mem_singleton.mp hlast]
            exact ⟨u.fired, hruns.hasSent⟩

theorem HasSent.firedAt_le {time n : Nat} {l : Life} {ticks : List Tick}
    (h : HasSent base time n l ticks) {k : Nat} (hk : k < n) : (l.tick base k).firedAt ≤ time :=
  Nat.le_trans (Nat.add_le_add_left (Nat.mul_le_mul_right _ hk) _) h.le

/-- Whatever is done with a scheduler, each timer has sent the first ticks of its row of times, none
of them after the present or its end, and all of them that have passed if its period is a whole
number of milliseconds. Every tick is one of some timer, and no two timers share a generation. What
fails changes nothing, and to wait in any way is to do things of the same kind. -/
theorem ticks_in_progression (base : Nat) (acts : List Act) :
    let t := (new base).run acts
    (∀ l ∈ t.lives, 0 < l.period base ∧
      exists n, t.ticksOf l = (List.range n).map (l.tick base) ∧
        (t.received.filter fun tick => tick.generation = l.generation) <+: t.ticksOf l ∧
        (∀ k < n, (l.tick base k).firedAt ≤ t.now ∧
          ∀ time, l.ended = some time → (l.tick base k).firedAt ≤ time) ∧
        (l.period base % millisecond = 0 →
          ∀ k, (l.tick base k).firedAt < l.ended.getD t.now → k < n)) ∧
    (t.lives.map (·.generation)).Pairwise (· < ·) ∧
    (∀ tick ∈ t.sent, exists l, l ∈ t.lives ∧ l.generation = tick.generation) ∧
    (∀ u, t.scheduler.timer = some u → t.deadline = u.due) ∧
    (∀ e, t.scheduler.start t.now = .error e → t.step .start = t) ∧
    (∀ multiplier e, t.scheduler.setMultiplier t.now multiplier = .error e →
      t.step (.setMultiplier multiplier) = t) ∧
    (∀ ms,
      (exists more, ((t.run more).scheduler, (t.run more).now) = t.scheduler.sleep t.now ms ∧
        (t.run more).received = t.received) ∧
      (exists more, ((t.run more).scheduler, (t.run more).now) = (t.scheduler.next t.now ms).2 ∧
        (t.run more).received = t.received ++ (t.scheduler.next t.now ms).1.toList)) ∧
    (exists more, (t.run more).scheduler = t.scheduler.drain.2 ∧ (t.run more).now = t.now ∧
      (t.run more).received = t.received ++ t.scheduler.drain.1) := by
  intro t
  have h : Sound base t := (sound_new base).run acts
  refine ⟨?_, h.growing, h.origin, fun u hu => (h.awaits hu).1, ?_, ?_,
    fun ms => ⟨h.exists_sleep ms, h.exists_next ms⟩, exists_drain t⟩
  · intro l hl
    rcases h.exists_hasSent hl with ⟨hle, n, hn⟩
    refine ⟨h.period_pos l hl, n, hn.ticks_eq, ?_, ?_, hn.all⟩
    · exact (List.prefix_append t.received t.scheduler.queue).filter _
    · intro k hk
      refine ⟨Nat.le_trans (hn.firedAt_le hk) hle, ?_⟩
      intro time hended
      have hfired := hn.firedAt_le hk
      rw [hended] at hfired
      exact hfired
  · intro e he
    simp only [step, he]
  · intro multiplier e he
    simp only [step, he]

def respeeded : List Act :=
  [.start, .pass (10 * millisecond), .fire, .setMultiplier 2, .pass (15 * millisecond), .fire]

theorem ticks_in_progression_respeeded :
    ((new (10 * millisecond)).run respeeded).lives =
        [⟨0, 0, 1, some (10 * millisecond)⟩, ⟨1, 10 * millisecond, 2, none⟩] ∧
      ∀ l ∈ ((new (10 * millisecond)).run respeeded).lives,
        exists n, 0 < n ∧ ((new (10 * millisecond)).run respeeded).ticksOf l =
          (List.range n).map (l.tick (10 * millisecond)) := by
  have hlives : ((new (10 * millisecond)).run respeeded).lives =
      [⟨0, 0, 1, some (10 * millisecond)⟩, ⟨1, 10 * millisecond, 2, none⟩] := rfl
  refine ⟨hlives, ?_⟩
  intro l hl
  rcases (ticks_in_progression (10 * millisecond) respeeded).1 l hl with ⟨-, n, hticks, -⟩
  refine ⟨n, ?_, hticks⟩
  apply Nat.pos_of_ne_zero
  rintro rfl
  have hnil : ((new (10 * millisecond)).run respeeded).ticksOf l = [] := hticks
  rw [hlives] at hl
  cases hl with
  | head => exact absurd hnil (by decide)
  | tail _ hl =>
      cases List.mem_singleton.mp hl
      exact absurd hnil (by decide)

end Timeline
end Scheduler
end TransitSim
