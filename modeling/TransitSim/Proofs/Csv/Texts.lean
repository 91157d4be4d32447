import Mathlib.Data.List.Forall2
import TransitSim.Proofs.Csv.Lines
import TransitSim.Proofs.Text.Utf8

/-!
# Fields as text

A field is text if its octets are the UTF-8 of something; the blanks at both ends of it are left
out. A reader first cuts off the blanks of ASCII and then reads the rest, which comes to the same.
-/

namespace TransitSim
namespace Text

variable {c : Char} {cs : List Char}

theorem trim_cons (h : isBlank c = true) : trim (c :: cs) = trim cs := by
  unfold trim trimStart
  rw [List.dropWhile_cons_of_pos h]

theorem trim_concat (h : isBlank c = true) : trim (cs ++ [c]) = trim cs := by
  unfold trim trimStart
  rw [List.dropWhile_append]
  cases hrest : cs.dropWhile isBlank with
  | nil => simp [h]
  | cons d rest =>
      rw [List.isEmpty_cons, if_neg Bool.false_ne_true, List.reverse_append, List.reverse_singleton,
        List.singleton_append, List.dropWhile_cons_of_pos h]

end Text

namespace Utf8

open String (utf8EncodeChar)

theorem decode_cons {b : UInt8} (hb : b.toNat < 0x80) {octets : List UInt8} {cs : List Char} :
    decode (b :: octets) = .ok cs ↔
      exists later, decode octets = .ok later ∧ cs = Char.ofNat b.toNat :: later := by
  simp only [decode_eq_ok_iff]
  have hone : utf8EncodeChar (Char.ofNat b.toNat) = [b] := by
    rw [encodeChar_one hb, UInt8.ofNat_toNat]
  constructor
  · intro h
    cases cs with
    | nil => cases h
    | cons c later =>
        have hfirst := first?_encodeChar c (later.flatMap utf8EncodeChar)
        rw [← List.flatMap_cons, ← h] at hfirst
        simp only [first?, if_pos hb, Option.some.injEq, Prod.mk.injEq] at hfirst
        rw [List.flatMap_cons, ← hfirst.1, hone] at h
        cases h
        exact ⟨later, rfl, by rw [hfirst.1]⟩
  · rintro ⟨later, rfl, rfl⟩
    rw [List.flatMap_cons, hone]
    rfl

theorem getLast?_encodeChar {c : Char} (h : 0x80 ≤ c.toNat) :
    (utf8EncodeChar c).getLast? = some (UInt8.ofNat (c.toNat % 0x40 + 0x80)) := by
  have hval : c.val.toNat = c.toNat := rfl
  simp only [utf8EncodeChar, hval]
  rw [if_neg (by omega)]
  split
  · rfl
  · split <;> rfl

theorem eq_concat_of_encodeChars {cs : List Char} {octets : List UInt8} {b : UInt8}
    (hb : b.toNat < 0x80) (h : cs.flatMap utf8EncodeChar = octets ++ [b]) :
    exists before, cs = before ++ [Char.ofNat b.toNat] ∧
      octets = before.flatMap utf8EncodeChar := by
  rcases List.eq_nil_or_concat cs with rfl | ⟨before, c, rfl⟩
  · simp at h
  · rw [List.concat_eq_append] at h ⊢
    rw [List.flatMap_append, List.flatMap_singleton] at h
    have hlast : (utf8EncodeChar c).getLast? = some b := by
      have hboth := congrArg List.getLast? h
      rw [List.getLast?_append_of_ne_nil _ (encodeChar_ne_nil c), List.getLast?_concat] at hboth
      exact hboth
    by_cases hone : c.toNat < 0x80
    · have hc : utf8EncodeChar c = [UInt8.ofNat c.toNat] := by
        rw [← encodeChar_one hone, Char.ofNat_toNat]
      rw [hc] at h hlast
      have hlast : UInt8.ofNat c.toNat = b := Option.some.inj hlast
      have hb : b.toNat = c.toNat := by
        rw [← hlast, toNat_ofNat (by omega)]
      refine ⟨before, by rw [hb, Char.ofNat_toNat], ?_⟩
      exact (List.append_inj_left' h rfl).symm
    · rw [getLast?_encodeChar (Nat.le_of_not_lt hone)] at hlast
      rw [← Option.some.inj hlast, toNat_ofNat (by omega)] at hb
      omega

theorem decode_concat {b : UInt8} (hb : b.toNat < 0x80) {octets : List UInt8} {cs : List Char} :
    decode (octets ++ [b]) = .ok cs ↔
      exists before, decode octets = .ok before ∧ cs = before ++ [Char.ofNat b.toNat] := by
  simp only [decode_eq_ok_iff]
  constructor
  · intro h
    rcases eq_concat_of_encodeChars hb h.symm with ⟨before, hcs, hoctets⟩
    exact ⟨before, hoctets, hcs⟩
  · rintro ⟨before, rfl, rfl⟩
    rw [List.flatMap_append, List.flatMap_singleton, encodeChar_one hb, UInt8.ofNat_toNat]

end Utf8

namespace Csv

open Utf8 (decode)

/-- The octets of a field and its text. -/
def IsText (octets : List UInt8) (text : String) : Prop :=
  exists s, Utf8.encode s = octets ∧ text = String.ofList (Text.trim s.toList)

theorem isBlank_of_isBlankOctet {b : UInt8} (h : isBlankOctet b = true) :
    b.toNat < 0x80 ∧ Text.isBlank (Char.ofNat b.toNat) = true := by
  simp only [isBlankOctet, Bool.or_eq_true, beq_iff_eq] at h
  rcases h with (((rfl | rfl) | rfl) | rfl) | rfl <;> decide

def Trims (octets : List UInt8) (cs : List Char) : Prop :=
  exists all, decode octets = .ok all ∧ Text.trim all = cs

variable {cs : List Char}

theorem trims_cons {b : UInt8} (h : isBlankOctet b = true) (octets : List UInt8) :
    Trims (b :: octets) cs ↔ Trims octets cs := by
  rcases isBlank_of_isBlankOctet h with ⟨hb, hblank⟩
  unfold Trims
  constructor
  · rintro ⟨all, hall, htrim⟩
    rcases (Utf8.decode_cons hb).mp hall with ⟨later, hlater, rfl⟩
    rw [Text.trim_cons hblank] at htrim
    exact ⟨later, hlater, htrim⟩
  · rintro ⟨later, hlater, htrim⟩
    refine ⟨_, (Utf8.decode_cons hb).mpr ⟨later, hlater, rfl⟩, ?_⟩
    rw [Text.trim_cons hblank, htrim]

theorem trims_concat {b : UInt8} (h : isBlankOctet b = true) (octets : List UInt8) :
    Trims (octets ++ [b]) cs ↔ Trims octets cs := by
  rcases isBlank_of_isBlankOctet h with ⟨hb, hblank⟩
  unfold Trims
  constructor
  · rintro ⟨all, hall, htrim⟩
    rcases (Utf8.decode_concat hb).mp hall with ⟨before, hbefore, rfl⟩
    rw [Text.trim_concat hblank] at htrim
    exact ⟨before, hbefore, htrim⟩
  · rintro ⟨before, hbefore, htrim⟩
    refine ⟨_, (Utf8.decode_concat hb).mpr ⟨before, hbefore, rfl⟩, ?_⟩
    rw [Text.trim_concat hblank, htrim]

theorem trims_dropWhile (octets : List UInt8) :
    Trims (octets.dropWhile isBlankOctet) cs ↔ Trims octets cs := by
  induction octets with
  | nil => rfl
  | cons b octets ih =>
      by_cases hb : isBlankOctet b = true
      · rw [List.dropWhile_cons_of_pos hb, ih, trims_cons hb]
      · rw [List.dropWhile_cons_of_neg hb]

theorem trims_reverse_dropWhile (octets : List UInt8) :
    Trims (octets.dropWhile isBlankOctet).reverse cs ↔ Trims octets.reverse cs := by
  induction octets with
  | nil => rfl
  | cons b octets ih =>
      by_cases hb : isBlankOctet b = true
      · rw [List.dropWhile_cons_of_pos hb, ih, List.reverse_cons, trims_concat hb]
      · rw [List.dropWhile_cons_of_neg hb]

theorem trims_trimOctets (octets : List UInt8) :
    Trims (trimOctets octets) cs ↔ Trims octets cs := by
  unfold trimOctets
  rw [trims_reverse_dropWhile, List.reverse_reverse, trims_dropWhile]

theorem isText_iff_trims {octets : List UInt8} {text : String} :
    IsText octets text ↔ Trims octets text.toList := by
  unfold IsText Trims
  constructor
  · rintro ⟨s, rfl, rfl⟩
    refine ⟨s.toList, ?_, String.toList_ofList.symm⟩
    rw [Utf8.decode_eq_ok_iff, ← Utf8.encode_ofList, String.ofList_toList]
  · rintro ⟨all, hall, htrim⟩
    rw [Utf8.decode_eq_ok_iff] at hall
    refine ⟨String.ofList all, by rw [hall, Utf8.encode_ofList], ?_⟩
    rw [String.toList_ofList, htrim, String.ofList_toList]

theorem fieldText_eq_ok_iff {octets : List UInt8} {text : String} :
    fieldText octets = .ok text ↔ IsText octets text := by
  rw [isText_iff_trims, ← trims_trimOctets]
  unfold fieldText Trims
  cases decode (trimOctets octets) with
  | error valid => simp [Except.map]
  | ok all =>
      simp only [Except.map, Except.ok.injEq, exists_eq_left']
      rw [← String.toList_inj, String.toList_ofList]

instance (octets : List UInt8) (text : String) : Decidable (IsText octets text) :=
  decidable_of_iff (fieldText octets = .ok text) fieldText_eq_ok_iff

theorem textsFrom_eq_ok_iff (p : Place) (index : Nat) {fields : List (List UInt8)}
    {texts : List String} :
    textsFrom p index fields = .ok texts ↔ List.Forall₂ IsText fields texts := by
  induction fields generalizing index texts with
  | nil => simp [textsFrom, eq_comm]
  | cons field fields ih =>
      rw [textsFrom, List.forall₂_cons_left_iff]
      simp only [← fieldText_eq_ok_iff, ← ih (index + 1)]
      cases fieldText field with
      | error valid => simp
      | ok text =>
          cases textsFrom p (index + 1) fields with
          | error fault => simp [Except.map]
          | ok rest => simp [Except.map, eq_comm]

theorem texts_eq_ok_iff {r : Record} {columns : Nat} {texts : List String} :
    r.texts columns = .ok texts ↔ texts.length = columns ∧ List.Forall₂ IsText r.fields texts := by
  unfold Record.texts
  split
  · rename_i hlength
    rw [textsFrom_eq_ok_iff]
    constructor
    · intro h
      exact ⟨h.length_eq ▸ hlength, h⟩
    · exact And.right
  · rename_i hlength
    refine iff_of_false (fun h => by cases h) ?_
    rintro ⟨hcolumns, h⟩
    exact hlength (h.length_eq.trans hcolumns)

end Csv
end TransitSim
