import TransitSim.Proofs.Json.Reading

/-!
# Compact texts are lines

A compact text has no line break of its own, and those in strings are escaped.
-/

namespace TransitSim
namespace Json

theorem newline_not_mem_escape (c : Char) : '\n' ∉ escape c := by
  have hhex : ∀ n : Fin 16, hexChar n ≠ '\n' := by decide
  rcases escape_cases c with ⟨e, hescape, -, hescaped, -⟩ | ⟨hnumbered, hescape⟩ |
    ⟨hescape, -, -, hlow⟩
  · have he : e ≠ '\n' := by
      rintro rfl
      cases hescaped
    rw [hescape]
    simp [Ne.symm he]
  · have hlow := hnumbered.1
    have htens := hhex ⟨c.toNat / 16, by omega⟩
    have hones := hhex ⟨c.toNat % 16, by omega⟩
    rw [hescape]
    simp [Ne.symm htens, Ne.symm hones]
  · have hc : c ≠ '\n' := by
      rintro rfl
      exact absurd hlow (by decide)
    rw [hescape]
    simp [Ne.symm hc]

theorem newline_not_mem_quoted (s : String) : '\n' ∉ quoted s := by
  intro h
  simp only [quoted, List.mem_append, List.mem_cons, List.mem_flatMap, List.not_mem_nil,
    or_false] at h
  rcases h with (h | ⟨c, -, hc⟩) | h
  · cases h
  · exact newline_not_mem_escape c hc
  · cases h

theorem newline_not_mem_digits {ds : List Char} (h : AreDigits ds) : '\n' ∉ ds := by
  intro hmem
  exact absurd (h _ hmem) (by decide)

theorem newline_not_mem_numeral {n : Numeral} (h : n.IsProper) : '\n' ∉ n.chars := by
  have hfraction : '\n' ∉ fractionChars n.fraction := by
    cases heq : n.fraction with
    | none => simp [fractionChars]
    | some ds => simp [fractionChars, newline_not_mem_digits (h.fraction ds heq).2]
  have hexponent : '\n' ∉ exponentChars n.exponent := by
    cases n.exponent with
    | none => simp [exponentChars]
    | some e =>
        have hdigits := newline_not_mem_digits (areDigits_natDigits e.natAbs)
        rw [exponentChars]
        split <;> simp [hdigits]
  have hbody : '\n' ∉ n.body := by
    simp [Numeral.body, newline_not_mem_digits h.digits, hfraction, hexponent]
  rw [Numeral.chars]
  split
  · simp [hbody]
  · exact hbody

theorem newline_not_mem_number (n : Number) : '\n' ∉ n.text := by
  rcases text_of_number n with ⟨numeral, -, hproper, htext⟩ | ⟨-, htext⟩
  · rw [htext]
    exact newline_not_mem_numeral hproper
  · rw [htext]
    decide

theorem newline_not_mem_separated {items : List (List Char)} (h : ∀ item ∈ items, '\n' ∉ item)
    (depth : Nat) : '\n' ∉ Style.compact.separated depth items := by
  induction items with
  | nil => simp [Style.separated]
  | cons item rest ih =>
      rw [List.forall_mem_cons] at h
      rcases h with ⟨hitem, hrest⟩
      cases rest with
      | nil => simpa [Style.separated, Style.lineBreak] using hitem
      | cons next rest =>
          have hmore := ih hrest
          simp [Style.separated, Style.lineBreak, hitem, hmore]

theorem newline_not_mem_enclosed {items : List (List Char)} (h : ∀ item ∈ items, '\n' ∉ item)
    {opening closing : Char} (ho : opening ≠ '\n') (hc : closing ≠ '\n') (depth : Nat) :
    '\n' ∉ Style.compact.enclosed depth opening closing items := by
  have hseparated := newline_not_mem_separated h (depth + 1)
  rw [Style.enclosed]
  split
  · simp [ho.symm, hc.symm]
  · simp [ho.symm, hc.symm, Style.lineBreak, hseparated]

mutual

theorem newline_not_mem_chars : ∀ (j : Json) (depth : Nat), '\n' ∉ chars .compact depth j
  | .null, _ => by
      rw [chars]
      decide
  | .bool true, _ => by
      rw [chars]
      decide
  | .bool false, _ => by
      rw [chars]
      decide
  | .number n, _ => newline_not_mem_number n
  | .string s, _ => newline_not_mem_quoted s
  | .array items, depth =>
      newline_not_mem_enclosed (newline_not_mem_itemChars items _) (by decide) (by decide) depth
  | .object members, depth =>
      newline_not_mem_enclosed (newline_not_mem_memberChars members _) (by decide) (by decide) depth

theorem newline_not_mem_itemChars : ∀ (items : List Json) (depth : Nat),
    ∀ item ∈ itemChars .compact depth items, '\n' ∉ item
  | [], _ => by
      intro item h
      cases h
  | item :: rest, depth => by
      rw [itemChars, List.forall_mem_cons]
      exact ⟨newline_not_mem_chars item depth, newline_not_mem_itemChars rest depth⟩

theorem newline_not_mem_memberChars : ∀ (members : List (String × Json)) (depth : Nat),
    ∀ member ∈ memberChars .compact depth members, '\n' ∉ member
  | [], _ => by
      intro member h
      cases h
  | (key, value) :: rest, depth => by
      rw [memberChars, List.forall_mem_cons]
      refine ⟨?_, newline_not_mem_memberChars rest depth⟩
      have hvalue := newline_not_mem_chars value depth
      have hkey := newline_not_mem_quoted key
      simp [Style.colon, hkey, hvalue]

end

end Json
end TransitSim
