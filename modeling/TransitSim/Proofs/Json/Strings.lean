import TransitSim.Json.Writing

/-!
# Reading back strings

A string is read back from its quoted form. Each character comes back as itself, but for the
control characters that are written with their number; these come back as numbers, and none of them
is half of a pair.
-/

namespace TransitSim
namespace Json

def IsNumbered (c : Char) : Prop :=
  c.toNat < 0x20 ∧ c ≠ '\x08' ∧ c ≠ '\x0c' ∧ c ≠ '\n' ∧ c ≠ '\r' ∧ c ≠ '\t'

instance : DecidablePred IsNumbered := fun c =>
  inferInstanceAs (Decidable (c.toNat < 0x20 ∧ c ≠ '\x08' ∧ c ≠ '\x0c' ∧ c ≠ '\n' ∧ c ≠ '\r' ∧
    c ≠ '\t'))

def piece (c : Char) : Piece :=
  if IsNumbered c then .unit c.toNat else .char c

def pieces (s : String) : List Piece :=
  s.toList.map piece

/-!
# Reading pieces
-/

theorem hexDigit?_hexChar {n : Nat} (h : n < 16) : hexDigit? (hexChar n) = some n := by
  have hall : ∀ n : Fin 16, hexDigit? (hexChar n) = some n.val := by decide
  exact hall ⟨n, h⟩

theorem hexFour?_hexChar {n : Nat} (h : n < 0x20) :
    hexFour? '0' '0' (hexChar (n / 16)) (hexChar (n % 16)) = some n := by
  have hzero : hexDigit? '0' = some 0 := by decide
  have hsplit : (0 * 16 + 0) * 256 + n / 16 * 16 + n % 16 = n := by omega
  simp only [hexFour?, hzero, hexDigit?_hexChar (show n / 16 < 16 by omega),
    hexDigit?_hexChar (show n % 16 < 16 by omega), bind, Option.bind, hsplit]

def putPiece (p : Piece) : Option (List Piece × List Char) → Option (List Piece × List Char) :=
  Option.map fun (ps, rest) => (p :: ps, rest)

theorem readPieces?_unit {a b c d : Char} {n : Nat} (rest : List Char)
    (h : hexFour? a b c d = some n) :
    readPieces? ('\\' :: 'u' :: a :: b :: c :: d :: rest) =
      putPiece (.unit n) (readPieces? rest) := by
  rw [readPieces?, h]
  cases readPieces? rest <;> rfl

theorem readPieces?_escaped {e c : Char} (rest : List Char) (he : e ≠ 'u')
    (h : escaped? e = some c) :
    readPieces? ('\\' :: e :: rest) = putPiece (.char c) (readPieces? rest) := by
  rw [readPieces?.eq_def]
  split
  case h_1 heq => cases heq
  case h_2 heq => cases heq
  case h_3 heq =>
    cases heq
    exact absurd rfl he
  case h_4 heq =>
    cases heq
    rw [h]
    cases readPieces? rest <;> rfl
  case h_5 hescape heq =>
    cases heq
    exact absurd rfl (hescape e rest · rfl)

theorem readPieces?_plain {c : Char} (rest : List Char) (hquote : c ≠ '"') (hslash : c ≠ '\\')
    (h : 0x20 ≤ c.toNat) : readPieces? (c :: rest) = putPiece (.char c) (readPieces? rest) := by
  have hrefused : ¬(c = '\\' ∨ c.toNat < 0x20) := not_or.mpr ⟨hslash, Nat.not_lt.mpr h⟩
  rw [readPieces?.eq_def]
  split
  case h_1 heq => cases heq
  case h_2 heq =>
    cases heq
    exact absurd rfl hquote
  case h_3 heq =>
    cases heq
    exact absurd rfl hslash
  case h_4 heq =>
    cases heq
    exact absurd rfl hslash
  case h_5 heq =>
    cases heq
    rw [if_neg hrefused]
    cases readPieces? rest <;> rfl

theorem escape_cases (c : Char) :
    (exists e, escape c = ['\\', e] ∧ e ≠ 'u' ∧ escaped? e = some c ∧ ¬IsNumbered c) ∨
      (IsNumbered c ∧
        escape c = ['\\', 'u', '0', '0', hexChar (c.toNat / 16), hexChar (c.toNat % 16)]) ∨
      (escape c = [c] ∧ c ≠ '"' ∧ c ≠ '\\' ∧ 0x20 ≤ c.toNat) := by
  by_cases hquote : c = '"'
  · exact Or.inl ⟨'"', by subst hquote; decide⟩
  by_cases hslash : c = '\\'
  · exact Or.inl ⟨'\\', by subst hslash; decide⟩
  by_cases hb : c = '\x08'
  · exact Or.inl ⟨'b', by subst hb; decide⟩
  by_cases hf : c = '\x0c'
  · exact Or.inl ⟨'f', by subst hf; decide⟩
  by_cases hn : c = '\n'
  · exact Or.inl ⟨'n', by subst hn; decide⟩
  by_cases hr : c = '\r'
  · exact Or.inl ⟨'r', by subst hr; decide⟩
  by_cases ht : c = '\t'
  · exact Or.inl ⟨'t', by subst ht; decide⟩
  by_cases hlow : c.toNat < 0x20
  · refine Or.inr (Or.inl ⟨⟨hlow, hb, hf, hn, hr, ht⟩, ?_⟩)
    simp only [escape, if_neg hquote, if_neg hslash, if_neg hb, if_neg hf, if_neg hn, if_neg hr,
      if_neg ht, if_pos hlow]
  · refine Or.inr (Or.inr ⟨?_, hquote, hslash, Nat.le_of_not_lt hlow⟩)
    simp only [escape, if_neg hquote, if_neg hslash, if_neg hb, if_neg hf, if_neg hn, if_neg hr,
      if_neg ht, if_neg hlow]

theorem readPieces?_escape (c : Char) (rest : List Char) :
    readPieces? (escape c ++ rest) = putPiece (piece c) (readPieces? rest) := by
  rcases escape_cases c with ⟨e, hescape, hletter, he, hc⟩ | ⟨hc, hescape⟩ |
    ⟨hescape, hquote, hslash, hlow⟩
  · rw [hescape, piece, if_neg hc]
    exact readPieces?_escaped rest hletter he
  · rw [hescape, piece, if_pos hc]
    exact readPieces?_unit rest (hexFour?_hexChar hc.1)
  · rw [hescape, piece, if_neg fun hc => absurd hc.1 (Nat.not_lt.mpr hlow)]
    exact readPieces?_plain rest hquote hslash hlow

theorem readPieces?_escapes (cs rest : List Char) :
    readPieces? (cs.flatMap escape ++ '"' :: rest) = some (cs.map piece, rest) := by
  induction cs with
  | nil => rw [List.flatMap_nil, List.nil_append, readPieces?, List.map_nil]
  | cons c cs ih =>
      rw [List.flatMap_cons, List.append_assoc, readPieces?_escape, ih]
      rfl

/-!
# Joining pieces
-/

theorem chars?_unit {n : Nat} (rest : List Piece) (h : n < 0x20) :
    chars? (.unit n :: rest) = (chars? rest).map (Char.ofNat n :: ·) := by
  have hhigh : isHighHalf n = false := by
    rw [isHighHalf]
    simp only [Bool.and_eq_false_iff, decide_eq_false_iff_not]
    omega
  have hlow : isLowHalf n = false := by
    rw [isLowHalf]
    simp only [Bool.and_eq_false_iff, decide_eq_false_iff_not]
    omega
  rw [chars?.eq_def]
  split
  case h_1 heq => cases heq
  case h_2 heq => cases heq
  case h_3 heq =>
    cases heq
    simp only [hhigh, hlow, Bool.false_eq_true, if_false]
  case h_4 heq =>
    cases heq
    simp only [hhigh, hlow, Bool.or_self, Bool.false_eq_true, if_false]

theorem chars?_piece (c : Char) (rest : List Piece) :
    chars? (piece c :: rest) = (chars? rest).map (c :: ·) := by
  rw [piece]
  split
  case isTrue hc => rw [chars?_unit rest hc.1, Char.ofNat_toNat]
  case isFalse hc => rw [chars?]

theorem string?_pieces (s : String) : string? (pieces s) = some s := by
  have hchars : ∀ cs : List Char, chars? (cs.map piece) = some cs := by
    intro cs
    induction cs with
    | nil => rfl
    | cons c cs ih =>
        rw [List.map_cons, chars?_piece, ih]
        rfl
  rw [string?, pieces, hchars, Option.map_some, String.ofList_toList]

end Json
end TransitSim
