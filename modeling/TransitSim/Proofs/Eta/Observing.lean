import TransitSim.Eta.Board

/-!
# What a tracker does with a response

When snapshots can be taken, it is known step by step what has become of them. Nothing that is
proved of a tracker has to unfold the steps again.
-/

namespace TransitSim
namespace Tracker

variable {t t' : Tracker} {observed : Calendar.Instant} {lines : Journal}

theorem history?_put (t : Tracker) (key : String) (known : History) (k : String) :
    history? { t with histories := t.histories.put key known } k =
      if k = key then some known else t.history? k :=
  Registry.find?_put t.histories key known k

theorem observe_cases {s : Snapshot} {o : Observation}
    (h : t.observe s observed = some (o, t', lines)) :
    exists eta, s.final? = some eta ∧
      ((s.status = .reached ∧ o = .reached s.key eta ∧ t' = t ∧ lines = []) ∨
        exists before, before = (t.history? s.key).getD .empty ∧ s.status = .upcoming ∧
          o = .upcoming s.key eta (before.change? t.offset eta observed)
            (before.observe t.offset eta observed).changes ∧
          t' = { t with
            histories := t.histories.put s.key (before.observe t.offset eta observed) } ∧
          lines = (before.change? t.offset eta observed).elim []
            fun c => Journal.info (remark t.offset s.label c)) := by
  cases hfinal : s.final? with
  | none => simp [observe, hfinal] at h
  | some eta =>
      refine ⟨eta, rfl, ?_⟩
      cases hstatus : s.status with
      | reached =>
          simp only [observe, hfinal, hstatus, bind, Option.bind, Option.some.injEq,
            Prod.mk.injEq] at h
          exact Or.inl ⟨rfl, h.1.symm, h.2.1.symm, h.2.2.symm⟩
      | upcoming =>
          simp only [observe, hfinal, hstatus, bind, Option.bind, Option.some.injEq,
            Prod.mk.injEq] at h
          refine Or.inr ⟨_, rfl, rfl, h.1.symm, h.2.1.symm, ?_⟩
          rw [← h.2.2]
          cases ((t.history? s.key).getD .empty).change? t.offset eta observed <;> rfl

theorem observeAll_cases {s : Snapshot} {rest : List Snapshot} {os : List Observation}
    (h : t.observeAll observed (s :: rest) = some (os, t', lines)) :
    exists o t₁ first others remarks, t.observe s observed = some (o, t₁, first) ∧
      t₁.observeAll observed rest = some (others, t', remarks) ∧
        os = o :: others ∧ lines = first ++ remarks := by
  cases hfirst : t.observe s observed with
  | none => simp [observeAll, hfirst] at h
  | some told =>
      rcases told with ⟨o, t₁, first⟩
      cases hrest : t₁.observeAll observed rest with
      | none => simp [observeAll, hfirst, hrest] at h
      | some result =>
          rcases result with ⟨others, t₂, remarks⟩
          simp only [observeAll, hfirst, hrest, bind, Option.bind, Option.some.injEq,
            Prod.mk.injEq] at h
          rcases h with ⟨rfl, rfl, rfl⟩
          exact ⟨o, t₁, first, others, remarks, rfl, hrest, rfl, rfl⟩

theorem respond_cases {snapshots : List Snapshot} {board : Board}
    (h : t.respond snapshots observed = some (board, t', lines)) :
    exists os, t.observeAll observed snapshots = some (os, t', lines) ∧
      board = .ofObservations t'.offset (snapshots.zip os) := by
  cases hall : t.observeAll observed snapshots with
  | none => simp [respond, hall] at h
  | some told =>
      simp only [respond, hall, bind, Option.bind, Option.some.injEq, Prod.mk.injEq] at h
      rcases h with ⟨rfl, rfl, rfl⟩
      exact ⟨told.1, rfl, rfl⟩

/-!
# The offset
-/

theorem offset_observe {o : Observation} {s : Snapshot}
    (h : t.observe s observed = some (o, t', lines)) : t'.offset = t.offset := by
  rcases observe_cases h with ⟨eta, -, ⟨-, -, rfl, -⟩ | ⟨before, -, -, -, rfl, -⟩⟩
  · rfl
  · rfl

theorem offset_observeAll {os : List Observation} {snapshots : List Snapshot}
    (h : t.observeAll observed snapshots = some (os, t', lines)) : t'.offset = t.offset := by
  induction snapshots generalizing t os lines with
  | nil =>
      cases h
      rfl
  | cons s rest ih =>
      rcases observeAll_cases h with ⟨o, t₁, first, others, remarks, hfirst, hrest, -, -⟩
      exact (ih hrest).trans (offset_observe hfirst)

theorem offset_respond {board : Board} {snapshots : List Snapshot}
    (h : t.respond snapshots observed = some (board, t', lines)) : t'.offset = t.offset := by
  rcases respond_cases h with ⟨os, hall, -⟩
  exact offset_observeAll hall

end Tracker
end TransitSim
