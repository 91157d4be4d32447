import TransitSim.Text.Utf8

/-!
# Reading back UTF-8

What is written as UTF-8 is read as the same text: each character is read from the octets that were
written for it, whatever follows them.
-/

namespace TransitSim
namespace Utf8

/-!
# One character
-/

theorem toNat_ofNat {n : Nat} (h : n < 256) : (UInt8.ofNat n).toNat = n := by
  rw [UInt8.toNat_ofNat', Nat.mod_eq_of_lt h]

theorem isTail_ofNat {n : Nat} (h : n < 0x40) : isTail (UInt8.ofNat (n + 0x80)) = true := by
  rw [isTail, toNat_ofNat (by omega)]
  simp only [Bool.and_eq_true, decide_eq_true_eq]
  omega

theorem tailBits_ofNat {n : Nat} (h : n < 0x40) : tailBits (UInt8.ofNat (n + 0x80)) = n := by
  rw [tailBits, toNat_ofNat (by omega)]
  omega

section
variable {n : Nat} (rest : List UInt8)

theorem first?_one (h : n < 0x80) :
    first? (UInt8.ofNat n :: rest) = some (Char.ofNat n, 1) := by
  simp only [first?, toNat_ofNat (show n < 256 by omega), if_pos h]

theorem first?_two (hlow : 0x80 ≤ n) (hhigh : n < 0x800) :
    first? (UInt8.ofNat (n / 64 % 0x20 + 0xC0) :: UInt8.ofNat (n % 0x40 + 0x80) :: rest) =
      some (Char.ofNat n, 2) := by
  have hsplit : (n / 64 % 0x20 + 0xC0) % 0x20 * 0x40 + n % 0x40 = n := by omega
  simp only [first?, toNat_ofNat (show n / 64 % 0x20 + 0xC0 < 256 by omega),
    isTail_ofNat (show n % 0x40 < 0x40 by omega), tailBits_ofNat (show n % 0x40 < 0x40 by omega),
    hsplit]
  rw [if_neg (by omega), if_neg (by decide), if_pos (by simp; omega)]

theorem first?_three (hlow : 0x800 ≤ n) (hhigh : n < 0x10000)
    (hvalid : n < 0xD800 ∨ 0xDFFF < n) :
    first? (UInt8.ofNat (n / 4096 % 0x10 + 0xE0) :: UInt8.ofNat (n / 64 % 0x40 + 0x80) ::
      UInt8.ofNat (n % 0x40 + 0x80) :: rest) = some (Char.ofNat n, 3) := by
  have hsplit : ((n / 4096 % 0x10 + 0xE0) % 0x10 * 0x40 + n / 64 % 0x40) * 0x40 + n % 0x40 = n := by
    omega
  simp only [first?, toNat_ofNat (show n / 4096 % 0x10 + 0xE0 < 256 by omega),
    isTail_ofNat (show n % 0x40 < 0x40 by omega), tailBits_ofNat (show n % 0x40 < 0x40 by omega),
    isTail_ofNat (show n / 64 % 0x40 < 0x40 by omega),
    tailBits_ofNat (show n / 64 % 0x40 < 0x40 by omega), hsplit]
  rw [if_neg (by omega), if_neg (by decide), if_neg (by simp), if_neg (by decide),
    if_pos (by simp; omega), if_neg (by simp; omega)]

theorem first?_four (hlow : 0x10000 ≤ n) (hhigh : n < 0x110000) :
    first? (UInt8.ofNat (n / 262144 % 0x08 + 0xF0) :: UInt8.ofNat (n / 4096 % 0x40 + 0x80) ::
      UInt8.ofNat (n / 64 % 0x40 + 0x80) :: UInt8.ofNat (n % 0x40 + 0x80) :: rest) =
        some (Char.ofNat n, 4) := by
  have hsplit : (((n / 262144 % 0x08 + 0xF0) % 0x08 * 0x40 + n / 4096 % 0x40) * 0x40
      + n / 64 % 0x40) * 0x40 + n % 0x40 = n := by
    omega
  simp only [first?, toNat_ofNat (show n / 262144 % 0x08 + 0xF0 < 256 by omega),
    isTail_ofNat (show n % 0x40 < 0x40 by omega), tailBits_ofNat (show n % 0x40 < 0x40 by omega),
    isTail_ofNat (show n / 64 % 0x40 < 0x40 by omega),
    tailBits_ofNat (show n / 64 % 0x40 < 0x40 by omega),
    isTail_ofNat (show n / 4096 % 0x40 < 0x40 by omega),
    tailBits_ofNat (show n / 4096 % 0x40 < 0x40 by omega), hsplit]
  rw [if_neg (by omega), if_neg (by decide), if_neg (by simp), if_neg (by decide),
    if_neg (by simp), if_neg (by simp; omega)]

end

theorem first?_encodeChar (c : Char) (rest : List UInt8) :
    first? (String.utf8EncodeChar c ++ rest) = some (c, (String.utf8EncodeChar c).length) := by
  have hvalid : c.toNat < 0xD800 ∨ 0xDFFF < c.toNat ∧ c.toNat < 0x110000 := c.valid
  have hchar : Char.ofNat c.toNat = c := Char.ofNat_toNat c
  have hval : c.val.toNat = c.toNat := rfl
  simp only [String.utf8EncodeChar, hval]
  by_cases hone : c.toNat ≤ 0x7F
  · simp only [if_pos hone, List.cons_append, List.nil_append, first?_one rest
      (show c.toNat < 0x80 by omega), hchar, List.length_cons, List.length_nil]
  by_cases htwo : c.toNat ≤ 0x7FF
  · simp only [if_neg hone, if_pos htwo, List.cons_append, List.nil_append, first?_two rest
      (show 0x80 ≤ c.toNat by omega) (by omega), hchar, List.length_cons, List.length_nil]
  by_cases hthree : c.toNat ≤ 0xFFFF
  · simp only [if_neg hone, if_neg htwo, if_pos hthree, List.cons_append, List.nil_append,
      first?_three rest (show 0x800 ≤ c.toNat by omega) (by omega) (by omega), hchar,
      List.length_cons, List.length_nil]
  · simp only [if_neg hone, if_neg htwo, if_neg hthree, List.cons_append, List.nil_append,
      first?_four rest (show 0x10000 ≤ c.toNat by omega) (by omega), hchar, List.length_cons,
      List.length_nil]

/-!
# Texts
-/

theorem toList_loop (bs : ByteArray) (i : Nat) (before : List UInt8) :
    ByteArray.toList.loop bs i before = before.reverse ++ bs.data.toList.drop i := by
  fun_induction ByteArray.toList.loop bs i before with
  | case1 i before hlt ih =>
      have hlength : i < bs.data.toList.length := by simpa using hlt
      have hget : bs.get! i = bs.data[i]! := by
        cases bs
        rfl
      rw [ih, List.drop_eq_getElem_cons hlength, hget, getElem!_pos bs.data i hlt]
      simp only [List.reverse_cons, List.append_assoc, List.cons_append, List.nil_append,
        Array.getElem_toList]
  | case2 i before hge =>
      rw [List.drop_eq_nil_of_le (by simpa using Nat.le_of_not_lt hge), List.append_nil]

theorem encode_ofList (cs : List Char) :
    encode (String.ofList cs) = cs.flatMap String.utf8EncodeChar := by
  rw [encode, String.toUTF8_eq_toByteArray, ByteArray.toList, toList_loop]
  simp [List.utf8Encode]

theorem decodeFrom_append (read : Nat) (octets rest : List UInt8) :
    decodeFrom read octets.length (octets ++ rest) = decodeFrom read 0 rest := by
  induction octets with
  | nil => rfl
  | cons b octets ih => simpa only [List.cons_append, List.length_cons, decodeFrom] using ih

theorem encodeChar_ne_nil (c : Char) : String.utf8EncodeChar c ≠ [] := by
  intro hnil
  have hpos := c.utf8Size_pos
  rw [← String.length_utf8EncodeChar, hnil] at hpos
  cases hpos

theorem decodeFrom_encodeChar (read : Nat) (c : Char) (rest : List UInt8) :
    decodeFrom read 0 (String.utf8EncodeChar c ++ rest) =
      (decodeFrom (read + (String.utf8EncodeChar c).length) 0 rest).map (c :: ·) := by
  have hfirst := first?_encodeChar c rest
  cases hoctets : String.utf8EncodeChar c with
  | nil => exact absurd hoctets (encodeChar_ne_nil c)
  | cons b octets =>
      rw [hoctets, List.cons_append] at hfirst
      rw [List.cons_append, decodeFrom]
      simp only [hfirst, List.length_cons, Nat.add_sub_cancel]
      rw [decodeFrom_append]

theorem decodeFrom_encodeChars (read : Nat) (cs : List Char) :
    decodeFrom read 0 (cs.flatMap String.utf8EncodeChar) = .ok cs := by
  induction cs generalizing read with
  | nil => rfl
  | cons c cs ih =>
      rw [List.flatMap_cons, decodeFrom_encodeChar, ih]
      rfl

theorem text?_encode (s : String) : text? (encode s) = some s := by
  have hdecode : decode (encode s) = .ok s.toList := by
    rw [← String.ofList_toList (s := s), encode_ofList, decode, decodeFrom_encodeChars,
      String.toList_ofList]
  rw [text?, hdecode]
  simp only [String.ofList_toList]

/-!
# What is read has been written
-/

theorem toNat_char {n : Nat} (h : n.isValidChar) : (Char.ofNat n).toNat = n := by
  unfold Char.ofNat
  rw [dif_pos h]
  rfl

theorem eq_ofNat {b : UInt8} {n : Nat} (h : b.toNat = n) : b = UInt8.ofNat n := by
  rw [← h, UInt8.ofNat_toNat]

theorem isTail_iff {b : UInt8} : isTail b = true ↔ 0x80 ≤ b.toNat ∧ b.toNat ≤ 0xBF := by
  simp [isTail]

theorem encodeChar_one {n : Nat} (h : n < 0x80) :
    String.utf8EncodeChar (Char.ofNat n) = [UInt8.ofNat n] := by
  have hval : (Char.ofNat n).val.toNat = n := toNat_char (.inl (by omega))
  simp only [String.utf8EncodeChar, hval]
  rw [if_pos (by omega)]

theorem encodeChar_two {a b : UInt8} (ha : 0xC2 ≤ a.toNat ∧ a.toNat ≤ 0xDF)
    (hb : isTail b = true) :
    String.utf8EncodeChar (Char.ofNat (a.toNat % 0x20 * 0x40 + tailBits b)) = [a, b] := by
  rw [isTail_iff] at hb
  unfold tailBits
  have hval : (Char.ofNat (a.toNat % 0x20 * 0x40 + b.toNat % 0x40)).val.toNat =
      a.toNat % 0x20 * 0x40 + b.toNat % 0x40 := toNat_char (.inl (by omega))
  simp only [String.utf8EncodeChar, hval]
  rw [if_neg (by omega), if_pos (by omega), ← eq_ofNat (b := a) (by omega),
    ← eq_ofNat (b := b) (by omega)]

theorem encodeChar_three {a b c : UInt8} {n : Nat} (ha : 0xE0 ≤ a.toNat ∧ a.toNat ≤ 0xEF)
    (hb : isTail b = true) (hc : isTail c = true)
    (hn : (a.toNat % 0x10 * 0x40 + tailBits b) * 0x40 + tailBits c = n) (hlow : 0x800 ≤ n)
    (hvalid : n < 0xD800 ∨ 0xDFFF < n) :
    String.utf8EncodeChar (Char.ofNat n) = [a, b, c] := by
  rw [isTail_iff] at hb hc
  unfold tailBits at hn
  have hval : (Char.ofNat n).val.toNat = n :=
    toNat_char (hvalid.imp id fun h => ⟨h, by omega⟩)
  simp only [String.utf8EncodeChar, hval]
  rw [if_neg (by omega), if_neg (by omega), if_pos (by omega), ← eq_ofNat (b := a) (by omega),
    ← eq_ofNat (b := b) (by omega), ← eq_ofNat (b := c) (by omega)]

theorem encodeChar_four {a b c d : UInt8} {n : Nat} (ha : 0xF0 ≤ a.toNat ∧ a.toNat ≤ 0xF4)
    (hb : isTail b = true) (hc : isTail c = true) (hd : isTail d = true)
    (hn : ((a.toNat % 0x08 * 0x40 + tailBits b) * 0x40 + tailBits c) * 0x40 + tailBits d = n)
    (hlow : 0x10000 ≤ n) (hhigh : n ≤ 0x10FFFF) :
    String.utf8EncodeChar (Char.ofNat n) = [a, b, c, d] := by
  rw [isTail_iff] at hb hc hd
  unfold tailBits at hn
  have hval : (Char.ofNat n).val.toNat = n := toNat_char (.inr ⟨by omega, by omega⟩)
  simp only [String.utf8EncodeChar, hval]
  rw [if_neg (by omega), if_neg (by omega), if_neg (by omega), ← eq_ofNat (b := a) (by omega),
    ← eq_ofNat (b := b) (by omega), ← eq_ofNat (b := c) (by omega), ← eq_ofNat (b := d) (by omega)]

theorem exists_of_first? {octets : List UInt8} {c : Char} {size : Nat}
    (h : first? octets = some (c, size)) :
    exists rest, octets = String.utf8EncodeChar c ++ rest ∧
      size = (String.utf8EncodeChar c).length := by
  cases octets with
  | nil => cases h
  | cons a rest =>
      by_cases hone : a.toNat < 0x80
      · simp only [first?, if_pos hone, Option.some.injEq, Prod.mk.injEq] at h
        rcases h with ⟨rfl, rfl⟩
        rw [encodeChar_one hone, UInt8.ofNat_toNat]
        exact ⟨rest, rfl, rfl⟩
      cases rest with
      | nil => simp [first?, hone] at h
      | cons b rest =>
          by_cases hb : isTail b = true
          case neg => simp [first?, hone, hb] at h
          by_cases htwo : 0xC2 ≤ a.toNat ∧ a.toNat ≤ 0xDF
          · simp only [first?, if_neg hone, hb, htwo, decide_true, Bool.and_self, Bool.not_true,
              if_true, Bool.false_eq_true, if_false, Option.some.injEq, Prod.mk.injEq] at h
            rcases h with ⟨rfl, rfl⟩
            rw [encodeChar_two htwo hb]
            exact ⟨rest, rfl, rfl⟩
          cases rest with
          | nil => simp [first?, hone, hb, htwo] at h
          | cons c' rest =>
              by_cases hc : isTail c' = true
              case neg => simp [first?, hone, hb, htwo, hc] at h
              by_cases hthree : 0xE0 ≤ a.toNat ∧ a.toNat ≤ 0xEF
              · generalize hn : (a.toNat % 0x10 * 0x40 + tailBits b) * 0x40 + tailBits c' = n
                have hread : (0x800 ≤ n ∧ (0xD800 ≤ n → 0xDFFF < n)) ∧ Char.ofNat n = c ∧
                    3 = size := by
                  simpa [first?, hone, hb, htwo, hc, hthree, hn] using h
                rcases hread with ⟨⟨hlow, hvalid⟩, rfl, rfl⟩
                rw [encodeChar_three hthree hb hc hn hlow (by omega)]
                exact ⟨rest, rfl, rfl⟩
              cases rest with
              | nil => simp [first?, hone, hb, htwo, hc, hthree] at h
              | cons d rest =>
                  generalize hn : ((a.toNat % 0x08 * 0x40 + tailBits b) * 0x40 + tailBits c') * 0x40
                    + tailBits d = n
                  have hread : ((((isTail d = true ∧ 0xF0 ≤ a.toNat) ∧ a.toNat ≤ 0xF4) ∧
                      0x10000 ≤ n) ∧ n ≤ 0x10FFFF) ∧ Char.ofNat n = c ∧ 4 = size := by
                    simpa [first?, hone, hb, htwo, hc, hthree, hn] using h
                  rcases hread with ⟨⟨⟨⟨⟨hd, hfrom⟩, hto⟩, hlow⟩, hhigh⟩, rfl, rfl⟩
                  rw [encodeChar_four ⟨hfrom, hto⟩ hb hc hd hn hlow hhigh]
                  exact ⟨rest, rfl, rfl⟩

theorem decodeFrom_cases {read : Nat} {octets : List UInt8} {cs : List Char}
    (h : decodeFrom read 0 octets = .ok cs) :
    (octets = [] ∧ cs = []) ∨ exists c later rest place, cs = c :: later ∧
      octets = String.utf8EncodeChar c ++ rest ∧ decodeFrom place 0 rest = .ok later := by
  cases octets with
  | nil =>
      cases h
      exact .inl ⟨rfl, rfl⟩
  | cons b octets =>
      cases hfirst : first? (b :: octets) with
      | none =>
          rw [decodeFrom] at h
          simp only [hfirst] at h
          cases h
      | some found =>
          rcases exists_of_first? hfirst with ⟨rest, hrest, -⟩
          rw [hrest, decodeFrom_encodeChar] at h
          cases hlater : decodeFrom (read + (String.utf8EncodeChar found.1).length) 0 rest with
          | error place =>
              rw [hlater] at h
              cases h
          | ok later =>
              rw [hlater] at h
              cases h
              exact .inr ⟨found.1, later, rest, _, rfl, hrest, hlater⟩

theorem eq_flatMap_of_decodeFrom {read : Nat} {octets : List UInt8} {cs : List Char}
    (h : decodeFrom read 0 octets = .ok cs) : octets = cs.flatMap String.utf8EncodeChar := by
  induction cs generalizing read octets with
  | nil =>
      rcases decodeFrom_cases h with ⟨rfl, -⟩ | ⟨c, later, rest, place, hcs, -, -⟩
      · rfl
      · cases hcs
  | cons c cs ih =>
      rcases decodeFrom_cases h with ⟨-, hcs⟩ | ⟨c, later, rest, place, hcs, rfl, hlater⟩
      · cases hcs
      · cases hcs
        rw [List.flatMap_cons, ← ih hlater]

/-- Octets are read as some characters exactly if they are what is written for them. -/
theorem decode_eq_ok_iff {octets : List UInt8} {cs : List Char} :
    decode octets = .ok cs ↔ octets = cs.flatMap String.utf8EncodeChar := by
  constructor
  · exact eq_flatMap_of_decodeFrom
  · rintro rfl
    exact decodeFrom_encodeChars 0 cs

end Utf8
end TransitSim
