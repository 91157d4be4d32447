import Mathlib.Data.List.Nodup
import TransitSim.Trip.Player

/-!
# Playback as a cursor in a sorted list

A player holds the samples that it was given in the order of their times, and those of one time as
they came; there is only one such list. Whatever a player is asked, in whatever order, its answers
are those of a cursor in that list.
-/

namespace TransitSim

/-!
# The order of instants
-/

namespace Calendar
namespace Instant

theorem notAfter_iff {a b : Instant} :
    a.notAfter b = true ↔ a.seconds < b.seconds ∨ (a.seconds = b.seconds ∧ a.nanos ≤ b.nanos) := by
  simp [notAfter]

theorem notAfter_trans (a b c : Instant) (hab : a.notAfter b = true) (hbc : b.notAfter c = true) :
    a.notAfter c = true := by
  rw [notAfter_iff] at *
  omega

theorem notAfter_total (a b : Instant) : (a.notAfter b || b.notAfter a) = true := by
  rw [Bool.or_eq_true, notAfter_iff, notAfter_iff]
  omega

theorem notAfter_antisymm {a b : Instant} (hab : a.notAfter b = true) (hba : b.notAfter a = true) :
    a = b := by
  rw [notAfter_iff] at hab hba
  cases a
  cases b
  simp only [mk.injEq]
  simp only at hab hba
  omega

end Instant
end Calendar

namespace Player

/-!
# Samples in the order of their times
-/

/-- A list holds some samples in the order of their times, and those of one time as they came. -/
structure IsInOrder (samples l : List Sample) : Prop where
  perm : l.Perm samples
  sorted : l.Pairwise fun a b => a.time.notAfter b.time = true
  stable : ∀ time, l.filter (·.time = time) = samples.filter (·.time = time)

theorem isInOrder_sorted (samples : List Sample) : IsInOrder samples (sorted samples) := by
  have htrans : ∀ a b c : Sample, a.time.notAfter b.time = true → b.time.notAfter c.time = true →
      a.time.notAfter c.time = true := fun a b c => Calendar.Instant.notAfter_trans _ _ _
  have htotal : ∀ a b : Sample, (a.time.notAfter b.time || b.time.notAfter a.time) = true :=
    fun a b => Calendar.Instant.notAfter_total _ _
  have hperm : (sorted samples).Perm samples := List.mergeSort_perm _ _
  constructor
  case perm => exact hperm
  case sorted => exact List.pairwise_mergeSort htrans htotal samples
  case stable =>
    intro time
    have hequal : (samples.filter (·.time = time)).Pairwise
        fun a b => a.time.notAfter b.time = true := by
      rw [List.pairwise_filter]
      apply List.pairwise_of_forall
      intro a b ha hb
      rw [of_decide_eq_true ha, of_decide_eq_true hb, Calendar.Instant.notAfter_iff]
      omega
    have hpart : (samples.filter (·.time = time)).Sublist (sorted samples) :=
      List.sublist_mergeSort htrans htotal hequal List.filter_sublist
    have hfiltered := hpart.filter (·.time = time)
    rw [List.filter_filter, List.filter_congr (q := (·.time = time)) (by simp)] at hfiltered
    refine (hfiltered.eq_of_length ?_).symm
    exact ((hperm.filter _).length_eq).symm

theorem IsInOrder.head_notAfter {samples : List Sample} {a : Sample} {l : List Sample}
    (h : IsInOrder samples (a :: l)) {b : Sample} (hb : b ∈ samples) :
    a.time.notAfter b.time = true := by
  rcases List.mem_cons.mp (h.perm.mem_iff.mpr hb) with hsame | hlater
  · rw [hsame, Calendar.Instant.notAfter_iff]
    omega
  · exact (List.pairwise_cons.mp h.sorted).1 b hlater

theorem IsInOrder.unique {samples l m : List Sample} (hl : IsInOrder samples l)
    (hm : IsInOrder samples m) : l = m := by
  induction l generalizing samples m with
  | nil =>
      have hnil : samples = [] := hl.perm.symm.eq_nil
      rw [hnil] at hm
      exact hm.perm.eq_nil.symm
  | cons a l ih =>
      cases m with
      | nil =>
          have hnil : samples = [] := hm.perm.symm.eq_nil
          rw [hnil] at hl
          cases hl.perm.eq_nil
      | cons b m =>
          have ha : a ∈ samples := hl.perm.mem_iff.mp (List.mem_cons_self ..)
          have hb : b ∈ samples := hm.perm.mem_iff.mp (List.mem_cons_self ..)
          have htime : a.time = b.time :=
            Calendar.Instant.notAfter_antisymm (hl.head_notAfter hb) (hm.head_notAfter ha)
          have hfirst := (hl.stable a.time).trans (hm.stable a.time).symm
          rw [List.filter_cons_of_pos (by simp),
            List.filter_cons_of_pos (by simp [htime])] at hfirst
          obtain rfl : a = b := (List.cons.inj hfirst).1
          have hrest : IsInOrder l l := ⟨.refl l, (List.pairwise_cons.mp hl.sorted).2, fun _ => rfl⟩
          have hother : IsInOrder l m := by
            constructor
            case perm => exact (List.perm_cons a).mp (hm.perm.trans hl.perm.symm)
            case sorted => exact (List.pairwise_cons.mp hm.sorted).2
            case stable =>
              intro time
              have heq := (hm.stable time).trans (hl.stable time).symm
              by_cases ht : a.time = time
              · rw [List.filter_cons_of_pos (by simp [ht]),
                  List.filter_cons_of_pos (by simp [ht])] at heq
                exact (List.cons.inj heq).2
              · rwa [List.filter_cons_of_neg (by simp [ht]),
                  List.filter_cons_of_neg (by simp [ht])] at heq
          rw [ih hrest hother]

theorem IsInOrder.of_perm {samples others l : List Sample} (h : IsInOrder samples l)
    (hothers : others.Perm samples) (hdistinct : (samples.map (·.time)).Nodup) :
    IsInOrder others l where
  perm := h.perm.trans hothers.symm
  sorted := h.sorted
  stable := by
    intro time
    have hperm : (others.filter (·.time = time)).Perm (samples.filter (·.time = time)) :=
      hothers.filter _
    have hshort : (samples.filter (·.time = time)).length ≤ 1 := by
      rw [← List.countP_eq_length_filter]
      have hcount := List.nodup_iff_count_le_one.mp hdistinct time
      rw [List.count, List.countP_map] at hcount
      simpa [Function.comp_def, beq_eq_decide] using hcount
    rw [h.stable time]
    cases hone : samples.filter (·.time = time) with
    | nil =>
        rw [hone] at hperm
        exact hperm.eq_nil.symm
    | cons s rest =>
        rw [hone] at hperm hshort
        obtain rfl : rest = [] := List.eq_nil_of_length_eq_zero (by simpa using hshort)
        exact (List.perm_singleton.mp hperm).symm

/-!
# What a cursor answers
-/

inductive Call where
  | advance
  | seek (index : Nat)
  | reset
  | sampleAt (index : Nat)
  | headingAt (index : Nat)

inductive Reply where
  | frame (result : Except Error Frame)
  | sample (result : Except Error Sample)
  | heading (result : Option Float)
  | done

def moved (p : Player) : Except Error (Frame × Player) → Reply × Player
  | .ok (frame, q) => (.frame (.ok frame), q)
  | .error e => (.frame (.error e), p)

def call (p : Player) : Call → Reply × Player
  | .advance => p.moved p.advance
  | .seek index => p.moved (p.seek index)
  | .reset => (.done, p.reset)
  | .sampleAt index => (.sample (p.sampleAt index), p)
  | .headingAt index => (.heading (p.headingAt? index), p)

def callAll (p : Player) : List Call → List Reply × Player
  | [] => ([], p)
  | c :: rest =>
      let (reply, q) := p.call c
      let (replies, last) := q.callAll rest
      (reply :: replies, last)

def direction? (l : List Sample) (i : Nat) : Option Float :=
  if h : i + 1 < l.length then some (Sphere.bearing l[i].coordinate l[i + 1].coordinate) else none

def view (l : List Sample) (i : Nat) (h : i < l.length) : Frame :=
  ⟨i, l[i], direction? l i⟩

/-- What a cursor before the sample number `c` of a list answers, and where it stands then. -/
inductive Answers (l : List Sample) : Nat → Call → Reply → Nat → Prop where
  | advance {c : Nat} (h : c < l.length) :
      Answers l c .advance (.frame (.ok (view l c h))) (c + 1)
  | complete : Answers l l.length .advance (.frame (.error .playbackComplete)) l.length
  | seek {c i : Nat} (h : i < l.length) : Answers l c (.seek i) (.frame (.ok (view l i h))) i
  | seekBeyond {c i : Nat} (h : l.length ≤ i) :
      Answers l c (.seek i) (.frame (.error (.indexOutOfRange i l.length))) c
  | reset {c : Nat} : Answers l c .reset .done 0
  | sampleAt {c i : Nat} (h : i < l.length) : Answers l c (.sampleAt i) (.sample (.ok l[i])) c
  | sampleBeyond {c i : Nat} (h : l.length ≤ i) :
      Answers l c (.sampleAt i) (.sample (.error (.indexOutOfRange i l.length))) c
  | headingAt {c i : Nat} : Answers l c (.headingAt i) (.heading (direction? l i)) c

/-- What a cursor answers to one call after the other. -/
inductive Reads (l : List Sample) : Nat → List Call → List Reply → Nat → Prop where
  | nil {c : Nat} : Reads l c [] [] c
  | cons {c d e : Nat} {call : Call} {calls : List Call} {reply : Reply} {replies : List Reply} :
      Answers l c call reply d → Reads l d calls replies e →
      Reads l c (call :: calls) (reply :: replies) e

/-!
# A player is a cursor
-/

theorem headingAt?_eq (p : Player) (i : Nat) : p.headingAt? i = direction? p.samples i := by
  unfold headingAt? direction?
  by_cases hnext : i + 1 < p.samples.length
  · have hi : i < p.samples.length := by omega
    simp [hnext, hi]
  · have hnone : p.samples[i + 1]? = none := List.getElem?_eq_none (by omega)
    rw [hnone, dif_neg hnext]
    cases p.samples[i]? <;> rfl

theorem frame_eq (p : Player) {i : Nat} (h : i < p.samples.length) :
    p.frame i p.samples[i] = view p.samples i h := by
  unfold frame view
  rw [headingAt?_eq]

theorem answers_call (p : Player) (hp : p.cursor ≤ p.samples.length) (c : Call) :
    exists reply cursor, p.call c = (reply, { p with cursor }) ∧ cursor ≤ p.samples.length ∧
      Answers p.samples p.cursor c reply cursor := by
  cases c with
  | advance =>
      by_cases hbefore : p.cursor < p.samples.length
      · refine ⟨_, p.cursor + 1, ?_, hbefore, Answers.advance hbefore⟩
        simp only [call, advance, List.getElem?_eq_getElem hbefore, moved, frame_eq]
      · have hend : p.cursor = p.samples.length := by omega
        refine ⟨.frame (.error .playbackComplete), p.cursor, ?_, hp, ?_⟩
        · simp only [call, advance, List.getElem?_eq_none (Nat.le_of_eq hend.symm), moved]
        · rw [hend]
          exact .complete
  | seek i =>
      by_cases hi : i < p.samples.length
      · refine ⟨_, i, ?_, Nat.le_of_lt hi, Answers.seek hi⟩
        simp only [call, seek, List.getElem?_eq_getElem hi, moved, frame_eq]
      · refine ⟨_, p.cursor, ?_, hp, Answers.seekBeyond (Nat.le_of_not_lt hi)⟩
        simp only [call, seek, List.getElem?_eq_none (Nat.le_of_not_lt hi), moved, length]
  | reset => exact ⟨.done, 0, rfl, Nat.zero_le _, .reset⟩
  | sampleAt i =>
      by_cases hi : i < p.samples.length
      · refine ⟨_, p.cursor, ?_, hp, Answers.sampleAt hi⟩
        simp only [call, sampleAt, List.getElem?_eq_getElem hi]
      · refine ⟨_, p.cursor, ?_, hp, Answers.sampleBeyond (Nat.le_of_not_lt hi)⟩
        simp only [call, sampleAt, List.getElem?_eq_none (Nat.le_of_not_lt hi), length]
  | headingAt i =>
      refine ⟨_, p.cursor, ?_, hp, Answers.headingAt⟩
      simp only [call, headingAt?_eq]

theorem reads_callAll (p : Player) (hp : p.cursor ≤ p.samples.length) (calls : List Call) :
    exists replies cursor, p.callAll calls = (replies, { p with cursor }) ∧
      cursor ≤ p.samples.length ∧ Reads p.samples p.cursor calls replies cursor := by
  induction calls generalizing p with
  | nil => exact ⟨[], p.cursor, rfl, hp, .nil⟩
  | cons c rest ih =>
      rcases answers_call p hp c with ⟨reply, d, hcall, hd, hanswers⟩
      rcases ih { p with cursor := d } hd with ⟨replies, e, hrest, he, hreads⟩
      refine ⟨reply :: replies, e, ?_, he, .cons hanswers hreads⟩
      simp only [callAll, hcall, hrest]

theorem Answers.unique {l : List Sample} {c d e : Nat} {call : Call} {first second : Reply}
    (hfirst : Answers l c call first d) (hsecond : Answers l c call second e) :
    first = second ∧ d = e := by
  cases hfirst with
  | advance h =>
      cases hsecond with
      | advance => exact ⟨rfl, rfl⟩
      | complete => omega
  | complete =>
      cases hsecond with
      | advance h => omega
      | complete => exact ⟨rfl, rfl⟩
  | seek h | seekBeyond h | sampleAt h | sampleBeyond h =>
      cases hsecond <;> first | exact ⟨rfl, rfl⟩ | omega
  | reset | headingAt =>
      cases hsecond
      exact ⟨rfl, rfl⟩

theorem Reads.unique {l : List Sample} {c d e : Nat} {calls : List Call}
    {first second : List Reply} (hfirst : Reads l c calls first d)
    (hsecond : Reads l c calls second e) : first = second ∧ d = e := by
  induction hfirst generalizing second e with
  | nil =>
      cases hsecond
      exact ⟨rfl, rfl⟩
  | cons hanswer hrest ih =>
      cases hsecond with
      | cons hanswer' hrest' =>
          rcases hanswer.unique hanswer' with ⟨rfl, rfl⟩
          rcases ih hrest' with ⟨rfl, rfl⟩
          exact ⟨rfl, rfl⟩

theorem callAll_advances (p : Player) (n : Nat) (hn : p.cursor + n ≤ p.samples.length) :
    exists frames : List Frame,
      (p.callAll (List.replicate n .advance)).1 = frames.map (Reply.frame ∘ .ok) ∧
        frames.map (·.sample) = (p.samples.drop p.cursor).take n ∧
        frames.map (·.index) = List.range' p.cursor n := by
  induction n generalizing p with
  | zero => exact ⟨[], rfl, rfl, rfl⟩
  | succ n ih =>
      have hbefore : p.cursor < p.samples.length := by omega
      rcases ih { p with cursor := p.cursor + 1 } (by simp only; omega) with
        ⟨frames, hreplies, hsamples, hindices⟩
      refine ⟨view p.samples p.cursor hbefore :: frames, ?_, ?_, ?_⟩
      · simp only [List.replicate_succ, callAll, call, advance,
          List.getElem?_eq_getElem hbefore, moved, frame_eq, List.map_cons, Function.comp_apply,
          hreplies]
      · rw [List.map_cons, hsamples, List.drop_eq_getElem_cons hbefore, List.take_succ_cons]
        rfl
      · rw [List.map_cons, hindices, List.range'_succ]
        rfl

theorem ofSamples_eq {samples : List Sample} (h : samples ≠ []) :
    ofSamples samples = .ok ⟨sorted samples, 0, sorted_ne h⟩ := by
  unfold ofSamples
  rw [dif_neg h]

/-- From some samples, at least one, comes a player before the first of them in the order of their
times, where samples of one time stay as they came. There is only one such order, and samples of
different times may come in any. To whatever it is asked the player answers as a cursor in that
list, which never leaves it; what is one beyond the number of a sample is at most the length of the
list, so that it can be told wherever that can. Reset after any calls, as many advances as there are
samples show each of them once, in order. -/
theorem ofSamples_reads_in_order {samples : List Sample} (h : samples ≠ []) :
    exists p, ofSamples samples = .ok p ∧ p.cursor = 0 ∧
      (∀ l, IsInOrder samples l ↔ l = p.samples) ∧
      (∀ others : List Sample, others.Perm samples → (samples.map (·.time)).Nodup →
        ofSamples others = .ok p) ∧
      (∀ calls, exists cursor, (p.callAll calls).2 = { p with cursor } ∧
        cursor ≤ p.samples.length ∧
          ∀ replies stop, Reads p.samples 0 calls replies stop ↔
            replies = (p.callAll calls).1 ∧ stop = cursor) ∧
      (∀ i s, p.sampleAt i = .ok s → i + 1 ≤ p.samples.length) ∧
      ∀ calls, exists frames : List Frame,
        ((p.callAll calls).2.reset.callAll (List.replicate samples.length .advance)).1 =
            frames.map (Reply.frame ∘ .ok) ∧
          frames.map (·.sample) = p.samples ∧
          frames.map (·.index) = List.range samples.length := by
  have hlength : (sorted samples).length = samples.length :=
    (isInOrder_sorted samples).perm.length_eq
  refine ⟨⟨sorted samples, 0, sorted_ne h⟩, ofSamples_eq h, rfl, ?_, ?_, ?_, ?_, ?_⟩
  · intro l
    constructor
    · intro hl
      exact hl.unique (isInOrder_sorted samples)
    · rintro rfl
      exact isInOrder_sorted samples
  · intro others hperm hdistinct
    have hothers : others ≠ [] := by
      rintro rfl
      exact h hperm.symm.eq_nil
    have hsame : sorted others = sorted samples :=
      (isInOrder_sorted others).unique ((isInOrder_sorted samples).of_perm hperm hdistinct)
    rw [ofSamples_eq hothers]
    congr 2
  · intro calls
    rcases reads_callAll ⟨sorted samples, 0, sorted_ne h⟩ (Nat.zero_le _) calls with
      ⟨replies, cursor, hcalls, hcursor, hreads⟩
    refine ⟨cursor, by rw [hcalls], hcursor, ?_⟩
    intro others stop
    rw [hcalls]
    constructor
    · intro hothers
      exact hothers.unique hreads
    · rintro ⟨rfl, rfl⟩
      exact hreads
  · intro i s hs
    unfold sampleAt at hs
    split at hs
    · rename_i found
      exact (List.getElem?_eq_some_iff.mp found).1
    · cases hs
  · intro calls
    rcases reads_callAll ⟨sorted samples, 0, sorted_ne h⟩ (Nat.zero_le _) calls with
      ⟨replies, cursor, hcalls, -, -⟩
    rw [hcalls]
    rcases callAll_advances ⟨sorted samples, 0, sorted_ne h⟩ samples.length
      (Nat.le_of_eq (by rw [hlength, Nat.zero_add])) with ⟨frames, hreplies, hsamples, hindices⟩
    refine ⟨frames, hreplies, ?_, ?_⟩
    · rw [hsamples, List.drop_zero, ← hlength, List.take_length]
    · rw [hindices, List.range_eq_range']

def sampleOn (ride : String) (second : Int) : Sample :=
  ⟨"", ride, ⟨second, 0⟩, ⟨0, 0⟩, 0⟩

theorem ofSamples_reads_in_order_twins :
    [sampleOn "late" 2, sampleOn "first" 1, sampleOn "second" 1] ≠ [] ∧
      exists p, ofSamples [sampleOn "late" 2, sampleOn "first" 1, sampleOn "second" 1] = .ok p ∧
        p.samples = [sampleOn "first" 1, sampleOn "second" 1, sampleOn "late" 2] := by
  have hne : [sampleOn "late" 2, sampleOn "first" 1, sampleOn "second" 1] ≠ [] :=
    List.cons_ne_nil _ _
  rcases ofSamples_reads_in_order hne with ⟨p, hp, -, horder, -⟩
  refine ⟨hne, p, hp, ((horder _).mp ?_).symm⟩
  constructor
  case perm => exact ((List.Perm.swap _ _ _).trans ((List.Perm.swap _ _ _).cons _)).symm
  case sorted => decide
  case stable =>
    intro time
    by_cases hone : (⟨1, 0⟩ : Calendar.Instant) = time
    · subst hone
      rfl
    · simp [sampleOn, hone, List.filter_cons]

end Player
end TransitSim
