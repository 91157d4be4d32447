/-!
# Delimiters

What stands before the first delimiter of a text and what stands behind it can be told.
-/

namespace TransitSim

theorem eq_of_append_delimiter {α : Type} {d : α} {as bs cs ds : List α} (ha : d ∉ as)
    (hc : d ∉ cs) (h : as ++ d :: bs = cs ++ d :: ds) : as = cs ∧ bs = ds := by
  induction as generalizing cs with
  | nil =>
      cases cs with
      | nil => exact ⟨rfl, (List.cons.inj h).2⟩
      | cons c cs => exact absurd ((List.cons.inj h).1 ▸ List.mem_cons_self) hc
  | cons a as ih =>
      cases cs with
      | nil => exact absurd ((List.cons.inj h).1 ▸ List.mem_cons_self) ha
      | cons c cs =>
          have hhead : a = c := (List.cons.inj h).1
          have htail := ih (fun hmem => ha (List.mem_cons_of_mem a hmem))
            (fun hmem => hc (List.mem_cons_of_mem c hmem)) (List.cons.inj h).2
          exact ⟨by rw [hhead, htail.1], htail.2⟩

end TransitSim
