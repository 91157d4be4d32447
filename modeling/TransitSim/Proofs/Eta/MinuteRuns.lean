import Mathlib.Data.List.DropRight
import Mathlib.Data.List.SplitBy
import TransitSim.Eta.Tracker

/-!
# Histories as runs of minutes

A tracker updates one history at a time and never looks back. This module tells what the result
is: the estimates for a stop since all stops were last forgotten fall into runs that share a minute
of the day, the history keeps the first estimate of each run, and every pair of neighbouring runs
is one change.

The proof goes through the first estimates of the runs: a further estimate either joins the last
run and leaves them alone, or begins a run of its own and stands behind them.
-/

namespace TransitSim

open Calendar

structure Estimate where
  eta : Instant
  observed : Instant
  deriving DecidableEq, Repr

namespace Estimate

def sameMinute (offset : Offset) (a b : Estimate) : Bool :=
  minuteOfDay offset a.eta == minuteOfDay offset b.eta

/-- The maximal runs of neighbours in the same minute of the day. -/
def runs (offset : Offset) (es : List Estimate) : List (List Estimate) :=
  es.splitBy (sameMinute offset)

def heads (rs : List (List Estimate)) : List Estimate :=
  rs.filterMap List.head?

def change (offset : Offset) (a b : Estimate) : Transition where
  previous := a.eta
  new := b.eta
  minutes := (minuteOfDay offset b.eta : Int) - minuteOfDay offset a.eta
  observed := b.observed

end Estimate

def History.ofRuns (offset : Offset) (rs : List (List Estimate)) : History where
  last := (rs.getLast?.bind List.head?).map (·.eta)
  changes := rs.length - 1
  transitions :=
    (Estimate.heads rs).zipWith (Estimate.change offset) (Estimate.heads rs).tail

namespace Tracker

/-- What is done to a tracker. -/
inductive Call where
  | observe (s : Snapshot) (observed : Instant)
  | clear

namespace Call

def isObserve : Call → Bool
  | observe .. => true
  | clear => false

/-- Whether the time of a snapshot lies within the calendar. -/
def InRange : Call → Prop
  | observe s _ => s.final?.isSome
  | clear => True

instance : DecidablePred InRange := fun c =>
  match c with
  | observe s _ => inferInstanceAs (Decidable (s.final?.isSome = true))
  | clear => inferInstanceAs (Decidable True)

def isAhead (key : String) (s : Snapshot) : Bool :=
  s.status = .upcoming ∧ s.key = key

/-- Whether a call has to do with a stop: it tells that the stop is ahead, or forgets all stops. -/
def concerns (key : String) : Call → Bool
  | observe s _ => isAhead key s
  | clear => true

def estimate? (key : String) : Call → Option Estimate
  | observe s observed => if isAhead key s then s.final?.map (⟨·, observed⟩) else none
  | clear => none

end Call

def call (t : Tracker) : Call → Option Tracker
  | .observe s observed => (t.observe s observed).map fun (_, t, _) => t
  | .clear => some t.clear

/-- Does calls in order. -/
def replay (t : Tracker) (calls : List Call) : Option Tracker :=
  calls.foldlM call t

/-- The estimates for a stop since all stops were last forgotten. -/
def estimates (key : String) (calls : List Call) : List Estimate :=
  (calls.rtakeWhile Call.isObserve).filterMap (Call.estimate? key)

end Tracker

namespace Estimate

/-!
# A further estimate
-/

theorem sameMinute_iff {offset : Offset} {a b : Estimate} :
    sameMinute offset a b = true ↔ minuteOfDay offset a.eta = minuteOfDay offset b.eta := by
  simp [sameMinute]

theorem runs_concat_of_other {offset : Offset} {es : List Estimate} {e : Estimate}
    (h : ∀ x ∈ es.getLast?, sameMinute offset x e = false) :
    runs offset (es ++ [e]) = runs offset es ++ [[e]] := by
  have := List.splitBy_append_cons [] h
  simpa [runs, List.splitBy, List.splitBy.loop] using this

theorem runs_concat_of_same {offset : Offset} {es : List Estimate} {x e : Estimate}
    (hlast : es.getLast? = some x) (h : sameMinute offset x e = true) :
    exists front run, runs offset es = front ++ [run] ∧ run ≠ [] ∧
      runs offset (es ++ [e]) = front ++ [run ++ [e]] := by
  have hes : es ≠ [] := by
    rintro rfl
    cases hlast
  have hne : runs offset es ≠ [] := List.splitBy_ne_nil.mpr hes
  obtain ⟨front, run, hruns⟩ : exists front run, runs offset es = front ++ [run] :=
    ⟨_, _, (List.dropLast_append_getLast hne).symm⟩
  obtain ⟨hflat, hnil, hchain, hends⟩ := List.splitBy_eq_iff.mp hruns
  have hrun : run ≠ [] := by
    rintro rfl
    simp at hnil
  have hrunLast : run.getLast? = some x := by
    rw [hflat, List.flatten_concat, List.getLast?_append_of_ne_nil _ hrun] at hlast
    exact hlast
  refine ⟨front, run, hruns, hrun, List.splitBy_eq_iff.mpr ⟨?_, ?_, ?_, ?_⟩⟩
  · simp [hflat]
  · simp only [List.mem_append, List.mem_singleton, not_or] at hnil ⊢
    exact ⟨hnil.1, by simp⟩
  · intro m hm
    rcases List.mem_append.mp hm with hm | hm
    · exact hchain m (List.mem_append.mpr (Or.inl hm))
    · rw [List.mem_singleton.mp hm]
      refine List.isChain_append.mpr ⟨hchain run (by simp), List.isChain_singleton e, ?_⟩
      intro a ha b hb
      rw [hrunLast] at ha
      cases ha
      cases hb
      exact h
  · rw [List.isChain_append] at hends ⊢
    refine ⟨hends.1, List.isChain_singleton _, ?_⟩
    intro a ha b hb
    cases hb
    obtain ⟨ha', hb', hab⟩ := hends.2.2 a ha run rfl
    exact ⟨ha', by simp, by rw [List.head_append_of_ne_nil hb']; exact hab⟩

theorem heads_append (rs rs' : List (List Estimate)) : heads (rs ++ rs') = heads rs ++ heads rs' :=
  List.filterMap_append

theorem length_heads_runs (offset : Offset) (es : List Estimate) :
    (heads (runs offset es)).length = (runs offset es).length := by
  have hnil : [] ∉ runs offset es := List.nil_notMem_splitBy _ _
  generalize runs offset es = rs at hnil
  induction rs with
  | nil => rfl
  | cons run rest ih =>
      obtain ⟨a, run, rfl⟩ : exists a tail, run = a :: tail := by
        cases run with
        | nil => simp at hnil
        | cons a tail => exact ⟨a, tail, rfl⟩
      have : [] ∉ rest := fun h => hnil (List.mem_cons_of_mem _ h)
      simpa [heads] using ih this

theorem sameMinute_last_head {offset : Offset} {es : List Estimate} {x : Estimate}
    (hlast : es.getLast? = some x) :
    exists a, (heads (runs offset es)).getLast? = some a ∧ sameMinute offset a x = true := by
  induction es using List.reverseRecOn generalizing x with
  | nil => cases hlast
  | append_singleton es e ih =>
      rw [List.getLast?_concat] at hlast
      cases hlast
      by_cases hsame : exists y, es.getLast? = some y ∧ sameMinute offset y e = true
      · obtain ⟨y, hy, hyx⟩ := hsame
        obtain ⟨a, ha, hay⟩ := ih hy
        obtain ⟨front, run, hruns, hrun, hnext⟩ := runs_concat_of_same hy hyx
        refine ⟨a, ?_, sameMinute_iff.mpr ?_⟩
        · rw [hruns, heads_append] at ha
          rw [hnext, heads_append]
          cases run with
          | nil => exact absurd rfl hrun
          | cons b run => simpa [heads] using ha
        · exact (sameMinute_iff.mp hay).trans (sameMinute_iff.mp hyx)
      · have hother : ∀ y ∈ es.getLast?, sameMinute offset y e = false := by
          intro y hy
          simpa using fun h => hsame ⟨y, hy, h⟩
        refine ⟨e, ?_, sameMinute_iff.mpr rfl⟩
        rw [runs_concat_of_other hother, heads_append]
        simp [heads]

theorem heads_runs_concat {offset : Offset} {es : List Estimate} {a e : Estimate}
    (ha : (heads (runs offset es)).getLast? = some a) :
    heads (runs offset (es ++ [e])) =
      if sameMinute offset a e then heads (runs offset es) else heads (runs offset es) ++ [e] := by
  obtain ⟨x, hx⟩ : exists x, es.getLast? = some x := by
    cases hx : es.getLast? with
    | none =>
        rw [List.getLast?_eq_none_iff.mp hx] at ha
        cases ha
    | some x => exact ⟨x, rfl⟩
  obtain ⟨b, hb, hbx⟩ : exists b, (heads (runs offset es)).getLast? = some b ∧
      sameMinute offset b x = true := sameMinute_last_head hx
  rw [ha] at hb
  cases hb
  have hminute : sameMinute offset x e = sameMinute offset a e := by
    simp only [sameMinute, sameMinute_iff.mp hbx]
  cases hae : sameMinute offset a e with
  | true =>
      obtain ⟨front, run, hruns, hrun, hnext⟩ := runs_concat_of_same hx (hminute.trans hae)
      rw [hruns, hnext, heads_append, heads_append]
      cases run with
      | nil => exact absurd rfl hrun
      | cons b run => simp [heads]
  | false =>
      have hother : ∀ y ∈ es.getLast?, sameMinute offset y e = false := by
        intro y hy
        rw [hx] at hy
        cases hy
        exact hminute.trans hae
      rw [runs_concat_of_other hother, heads_append]
      simp [heads]

theorem runs_eq_nil_iff {offset : Offset} {es : List Estimate} : runs offset es = [] ↔ es = [] :=
  List.splitBy_eq_nil

theorem exists_first_of_last_run (offset : Offset) {es : List Estimate} (h : es ≠ []) :
    exists run first, (runs offset es).getLast? = some run ∧ run.head? = some first := by
  have hne : runs offset es ≠ [] := fun hnil => h (runs_eq_nil_iff.mp hnil)
  have hmem := List.getLast_mem hne
  refine ⟨_, _, List.getLast?_eq_some_getLast hne, List.head?_eq_some_head ?_⟩
  exact List.ne_nil_of_mem_splitBy hmem

end Estimate

namespace History

/-!
# Histories of runs
-/

/-- Of the runs of estimates only the first ones count. -/
theorem ofRuns_runs (offset : Offset) (es : List Estimate) :
    ofRuns offset (Estimate.runs offset es) =
      { last := (Estimate.heads (Estimate.runs offset es)).getLast?.map (·.eta)
        changes := (Estimate.heads (Estimate.runs offset es)).length - 1
        transitions :=
          (Estimate.heads (Estimate.runs offset es)).zipWith (Estimate.change offset)
            (Estimate.heads (Estimate.runs offset es)).tail } := by
  have hnil := List.nil_notMem_splitBy (Estimate.sameMinute offset) es
  rw [Estimate.length_heads_runs]
  unfold Estimate.runs
  generalize es.splitBy (Estimate.sameMinute offset) = rs at hnil
  cases rs using List.reverseRecOn with
  | nil => rfl
  | append_singleton front run =>
      cases run with
      | nil => simp at hnil
      | cons a run => simp [ofRuns, Estimate.heads]

theorem zipWith_tail_concat {α β : Type} (f : α → α → β) {as : List α} {a : α}
    (ha : as.getLast? = some a) (b : α) :
    (as ++ [b]).zipWith f (as ++ [b]).tail = as.zipWith f as.tail ++ [f a b] := by
  induction as with
  | nil => cases ha
  | cons c rest ih =>
      cases rest with
      | nil =>
          cases ha
          rfl
      | cons d rest => simpa using ih (by simpa using ha)

theorem change?_eq (offset : Offset) (h : History) {a e : Estimate} (ha : h.last = some a.eta) :
    h.change? offset e.eta e.observed =
      if Estimate.sameMinute offset a e then none else some (Estimate.change offset a e) := by
  by_cases hsame : minuteOfDay offset a.eta = minuteOfDay offset e.eta
  · simp [change?, ha, Estimate.sameMinute, hsame]
  · have hminutes : (minuteOfDay offset e.eta : Int) - minuteOfDay offset a.eta ≠ 0 := by omega
    simp [change?, ha, Estimate.sameMinute, hsame, hminutes, Estimate.change]

theorem observe_eq (offset : Offset) {h : History} {a : Estimate} (ha : h.last = some a.eta)
    (e : Estimate) :
    h.observe offset e.eta e.observed =
      if Estimate.sameMinute offset a e then h else h.record (Estimate.change offset a e) := by
  rw [observe, change?_eq offset h ha, ha]
  cases Estimate.sameMinute offset a e <;> rfl

theorem observe_ofRuns (offset : Offset) (es : List Estimate) (e : Estimate) :
    (ofRuns offset (Estimate.runs offset es)).observe offset e.eta e.observed =
      ofRuns offset (Estimate.runs offset (es ++ [e])) := by
  rw [ofRuns_runs, ofRuns_runs]
  cases ha : (Estimate.heads (Estimate.runs offset es)).getLast? with
  | none =>
      have hes : es = [] := by
        have hheads := congrArg List.length (List.getLast?_eq_none_iff.mp ha)
        rw [Estimate.length_heads_runs] at hheads
        exact Estimate.runs_eq_nil_iff.mp (List.length_eq_zero_iff.mp hheads)
      subst hes
      rfl
  | some a =>
      have hpos : 0 < (Estimate.heads (Estimate.runs offset es)).length := by
        apply List.length_pos_iff.mpr
        intro hnil
        rw [hnil] at ha
        cases ha
      rw [Estimate.heads_runs_concat ha, observe_eq offset rfl]
      cases hsame : Estimate.sameMinute offset a e with
      | true => simp [ha]
      | false =>
          simp only [record, Bool.false_eq_true, if_false, List.getLast?_concat,
            List.length_append, List.length_singleton, zipWith_tail_concat _ ha]
          rw [Nat.sub_add_cancel hpos]
          rfl

theorem length_transitions_ofRuns (offset : Offset) (es : List Estimate) :
    (ofRuns offset (Estimate.runs offset es)).transitions.length =
      (Estimate.runs offset es).length - 1 := by
  rw [ofRuns_runs]
  simp [Estimate.length_heads_runs]

theorem minutes_observe_ne_zero {offset : Offset} {h : History}
    (hne : ∀ t ∈ h.transitions, t.minutes ≠ 0) (eta observed : Instant) :
    ∀ t ∈ (h.observe offset eta observed).transitions, t.minutes ≠ 0 := by
  cases hlast : h.last with
  | none => simpa [observe, hlast] using hne
  | some previous =>
      have hstep := observe_eq offset (a := ⟨previous, observed⟩) hlast ⟨eta, observed⟩
      simp only at hstep
      rw [hstep]
      split
      · exact hne
      · rename_i hsame
        intro t ht
        rcases List.mem_append.mp ht with ht | ht
        · exact hne t ht
        · rw [List.mem_singleton.mp ht]
          simp only [Estimate.sameMinute_iff] at hsame
          simp only [Estimate.change]
          omega

theorem minutes_ofRuns_ne_zero (offset : Offset) (es : List Estimate) :
    ∀ t ∈ (ofRuns offset (Estimate.runs offset es)).transitions, t.minutes ≠ 0 := by
  induction es using List.reverseRecOn with
  | nil => simp [ofRuns, Estimate.runs, Estimate.heads]
  | append_singleton es e ih =>
      rw [← observe_ofRuns]
      exact minutes_observe_ne_zero ih e.eta e.observed

theorem delays_add_earlier {h : History} (hne : ∀ t ∈ h.transitions, t.minutes ≠ 0) :
    h.summary.delays + h.summary.earlier = h.summary.total := by
  simp only [summary]
  generalize h.transitions = ts at hne
  induction ts with
  | nil => rfl
  | cons t ts ih =>
      have ih := ih fun u hu => hne u (List.mem_cons_of_mem t hu)
      rcases Int.lt_or_gt_of_ne (hne t List.mem_cons_self) with hlt | hgt
      · have hnot : ¬ 0 < t.minutes := by omega
        simp only [List.filter_cons, hlt, hnot, decide_true, decide_false, if_true,
          Bool.false_eq_true, if_false, List.length_cons]
        omega
      · have hnot : ¬ t.minutes < 0 := by omega
        simp only [List.filter_cons, hgt, hnot, decide_true, decide_false, if_true,
          Bool.false_eq_true, if_false, List.length_cons]
        omega

def ofEstimates? (offset : Offset) (es : List Estimate) : Option History :=
  if es = [] then none else some (ofRuns offset (Estimate.runs offset es))

theorem ofEstimates?_getD (offset : Offset) (es : List Estimate) :
    (ofEstimates? offset es).getD .empty = ofRuns offset (Estimate.runs offset es) := by
  by_cases h : es = []
  · subst h
    rfl
  · simp [ofEstimates?, h]

end History

namespace Tracker

/-!
# One call
-/

theorem estimates_concat_clear (key : String) (calls : List Call) :
    estimates key (calls ++ [.clear]) = [] := by
  rw [estimates, List.rtakeWhile_concat_neg]
  · rfl
  · simp [Call.isObserve]

theorem estimates_concat_observe (key : String) (calls : List Call) (s : Snapshot)
    (observed : Instant) :
    estimates key (calls ++ [.observe s observed]) =
      estimates key calls ++ ((Call.observe s observed).estimate? key).toList := by
  rw [estimates, List.rtakeWhile_concat_pos _ _ _ (by rfl), List.filterMap_append, estimates]
  cases h : (Call.observe s observed).estimate? key <;> simp [h]

theorem call_observe_reached {t : Tracker} {s : Snapshot} {eta observed : Instant}
    (hfinal : s.final? = some eta) (hstatus : s.status = .reached) :
    t.call (.observe s observed) = some t := by
  simp [call, observe, hfinal, hstatus]

theorem call_observe_upcoming {t : Tracker} {s : Snapshot} {eta observed : Instant}
    (hfinal : s.final? = some eta) (hstatus : s.status = .upcoming) :
    t.call (.observe s observed) =
      some { t with
        histories := t.histories.put s.key
          (((t.history? s.key).getD .empty).observe t.offset eta observed) } := by
  simp [call, observe, hfinal, hstatus]

/-- Whether a tracker knows of each stop what the estimates in some calls tell. -/
def Knows (t : Tracker) (calls : List Call) : Prop :=
  ∀ key, t.history? key = History.ofEstimates? t.offset (estimates key calls)

theorem knows_new (offset : Offset) : (new offset).Knows [] := by
  intro key
  rfl

theorem Knows.call {t t' : Tracker} {calls : List Call} (h : t.Knows calls) {c : Call}
    (hc : t.call c = some t') : t'.offset = t.offset ∧ t'.Knows (calls ++ [c]) := by
  cases c with
  | clear =>
      cases hc
      refine ⟨rfl, fun key => ?_⟩
      rw [estimates_concat_clear]
      rfl
  | observe s observed =>
      cases hfinal : s.final? with
      | none => simp [Tracker.call, observe, hfinal] at hc
      | some eta =>
          cases hstatus : s.status with
          | reached =>
              rw [call_observe_reached hfinal hstatus] at hc
              cases hc
              refine ⟨rfl, fun key => ?_⟩
              rw [estimates_concat_observe, h key]
              simp [Call.estimate?, Call.isAhead, hstatus]
          | upcoming =>
              rw [call_observe_upcoming hfinal hstatus] at hc
              cases hc
              refine ⟨rfl, fun key => ?_⟩
              rw [estimates_concat_observe, history?, Registry.find?_put]
              by_cases hkey : key = s.key
              · subst hkey
                rw [if_pos rfl, h s.key, History.ofEstimates?_getD]
                rw [History.observe_ofRuns t.offset _ ⟨eta, observed⟩]
                simp [Call.estimate?, Call.isAhead, hstatus, hfinal, History.ofEstimates?]
              · rw [if_neg hkey]
                have hother : (Call.observe s observed).estimate? key = none := by
                  simp [Call.estimate?, Call.isAhead, Ne.symm hkey]
                rw [hother, Option.toList_none, List.append_nil]
                exact h key

/-!
# Any number of calls
-/

theorem replay_concat (t : Tracker) (calls : List Call) (c : Call) :
    t.replay (calls ++ [c]) = (t.replay calls).bind (·.call c) := by
  simp [replay, List.foldlM_append]

theorem call_isSome_iff (t : Tracker) (c : Call) : (t.call c).isSome ↔ c.InRange := by
  cases c with
  | clear => simp [call, Call.InRange]
  | observe s observed =>
      cases hfinal : s.final? with
      | none => simp [call, observe, Call.InRange, hfinal]
      | some eta =>
          cases hstatus : s.status with
          | reached => simp [call_observe_reached hfinal hstatus, Call.InRange, hfinal]
          | upcoming => simp [call_observe_upcoming hfinal hstatus, Call.InRange, hfinal]

theorem replay_isSome (t : Tracker) {calls : List Call} (h : ∀ c ∈ calls, c.InRange) :
    (t.replay calls).isSome := by
  induction calls using List.reverseRecOn with
  | nil => rfl
  | append_singleton calls c ih =>
      obtain ⟨t', ht'⟩ := Option.isSome_iff_exists.mp
        (ih fun d hd => h d (List.mem_append_left _ hd))
      rw [replay_concat, ht']
      exact (call_isSome_iff t' c).mpr (h c (by simp))

theorem knows_replay {offset : Offset} {calls : List Call} {t : Tracker}
    (h : (new offset).replay calls = some t) : t.offset = offset ∧ t.Knows calls := by
  induction calls using List.reverseRecOn generalizing t with
  | nil =>
      cases h
      exact ⟨rfl, knows_new offset⟩
  | append_singleton calls c ih =>
      rw [replay_concat] at h
      obtain ⟨t', ht', hc⟩ := Option.bind_eq_some_iff.mp h
      obtain ⟨hoffset, hknows⟩ := ih ht'
      obtain ⟨hoffset', hknows'⟩ := hknows.call hc
      exact ⟨hoffset'.trans hoffset, hknows'⟩

theorem estimates_filter_concerns (key : String) (calls : List Call) :
    estimates key (calls.filter (Call.concerns key)) = estimates key calls := by
  induction calls using List.reverseRecOn with
  | nil => rfl
  | append_singleton calls c ih =>
      rw [List.filter_append]
      cases c with
      | clear =>
          rw [estimates_concat_clear]
          exact estimates_concat_clear key _
      | observe s observed =>
          rw [estimates_concat_observe, ← ih]
          cases hahead : Call.isAhead key s with
          | true =>
              have hkept : [Call.observe s observed].filter (Call.concerns key) =
                  [.observe s observed] := by simp [Call.concerns, hahead]
              rw [hkept, estimates_concat_observe]
          | false =>
              have hdropped : [Call.observe s observed].filter (Call.concerns key) = [] := by
                simp [Call.concerns, hahead]
              simp [hdropped, Call.estimate?, hahead]

/-- Calls within the calendar go through, and afterwards the history of each stop is told by the
runs of its estimates since all stops were last forgotten. It is there exactly if there are any; it
keeps the first estimate of the last run; its changes go from run to run, none of them by zero
minutes; and the summary counts them. Calls that do not concern the stop leave no trace in it. -/
theorem history?_eq_runs (offset : Offset) (calls : List Call) (h : ∀ c ∈ calls, c.InRange) :
    exists t, (new offset).replay calls = some t ∧ ∀ key,
      let rs := Estimate.runs offset (estimates key calls)
      (t.history? key = none ↔ estimates key calls = []) ∧
      (∀ known, t.history? key = some known →
        (exists run first, rs.getLast? = some run ∧ run.head? = some first ∧
          known.last = some first.eta) ∧
        known.transitions =
          (Estimate.heads rs).zipWith (Estimate.change offset) (Estimate.heads rs).tail ∧
        (Estimate.heads rs).length = rs.length ∧
        (∀ c ∈ known.transitions, c.minutes ≠ 0) ∧
        known.changes = rs.length - 1 ∧
        (t.summarize key).total = known.changes ∧
        (t.summarize key).delays + (t.summarize key).earlier = (t.summarize key).total) ∧
      ∀ calls' t', calls'.filter (Call.concerns key) = calls.filter (Call.concerns key) →
        (new offset).replay calls' = some t' → t'.history? key = t.history? key := by
  obtain ⟨t, ht⟩ := Option.isSome_iff_exists.mp (replay_isSome (new offset) h)
  refine ⟨t, ht, fun key => ?_⟩
  obtain ⟨hoffset, hknows⟩ := knows_replay ht
  have hkey := hknows key
  rw [hoffset] at hkey
  refine ⟨?_, ?_, ?_⟩
  · rw [hkey]
    simp [History.ofEstimates?]
  · intro known hknown
    have hsome : estimates key calls ≠ [] ∧
        History.ofRuns offset (Estimate.runs offset (estimates key calls)) = known := by
      rw [hknown, History.ofEstimates?] at hkey
      split at hkey
      · cases hkey
      · rename_i hne
        exact ⟨hne, (Option.some.inj hkey).symm⟩
    obtain ⟨hne, rfl⟩ := hsome
    have hsummary : t.summarize key =
        (History.ofRuns offset (Estimate.runs offset (estimates key calls))).summary := by
      rw [summarize, hknown]
    have hminutes := History.minutes_ofRuns_ne_zero offset (estimates key calls)
    refine ⟨?_, rfl, Estimate.length_heads_runs offset _, hminutes, rfl, ?_, ?_⟩
    · obtain ⟨run, first, hrun, hfirst⟩ := Estimate.exists_first_of_last_run offset hne
      exact ⟨run, first, hrun, hfirst, by simp [History.ofRuns, hrun, hfirst]⟩
    · rw [hsummary]
      exact History.length_transitions_ofRuns offset _
    · rw [hsummary]
      exact History.delays_add_earlier hminutes
  · intro calls' t' hcalls ht'
    obtain ⟨hoffset', hknows'⟩ := knows_replay ht'
    have hkey' := hknows' key
    rw [hoffset', ← estimates_filter_concerns, hcalls, estimates_filter_concerns] at hkey'
    rw [hkey, hkey']

def drift : List Call :=
  let seen key (status : Status) (second : Int) : Call :=
    .observe ⟨key, none, ⟨second, 0⟩, 0, status⟩ ⟨second - 20, 0⟩
  [seen "quay" .upcoming 130, .clear, seen "quay" .upcoming 30, seen "mill" .upcoming 600,
    seen "quay" .upcoming 50, seen "quay" .reached 300, seen "quay" .upcoming 65]

theorem history?_eq_runs_drift :
    (∀ c ∈ drift, c.InRange) ∧
      exists t known, (new .utc).replay drift = some t ∧ t.history? "quay" = some known ∧
        known.last = some ⟨65, 0⟩ ∧ known.transitions = [⟨⟨30, 0⟩, ⟨65, 0⟩, 1, ⟨45, 0⟩⟩] ∧
        known.changes = 1 := by
  have hrange : ∀ c ∈ drift, c.InRange := by decide +kernel
  have hes : estimates "quay" drift =
      [⟨⟨30, 0⟩, ⟨10, 0⟩⟩, ⟨⟨50, 0⟩, ⟨30, 0⟩⟩, ⟨⟨65, 0⟩, ⟨45, 0⟩⟩] := by
    decide +kernel
  obtain ⟨t, ht, hall⟩ := history?_eq_runs .utc drift hrange
  obtain ⟨habsent, hpresent, -⟩ := hall "quay"
  obtain ⟨known, hknown⟩ : exists known, t.history? "quay" = some known := by
    cases hknown : t.history? "quay" with
    | none =>
        rw [habsent.mp hknown] at hes
        cases hes
    | some known => exact ⟨known, rfl⟩
  obtain ⟨⟨run, first, hrun, hfirst, hlast⟩, htransitions, -, -, hchanges, -⟩ :=
    hpresent known hknown
  rw [hes] at hrun htransitions hchanges
  cases hrun
  cases hfirst
  exact ⟨hrange, t, known, ht, hknown, hlast, htransitions, hchanges⟩

end Tracker
end TransitSim
