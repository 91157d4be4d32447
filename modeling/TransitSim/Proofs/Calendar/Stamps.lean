import Mathlib.Data.List.Perm.Basic
import TransitSim.Proofs.Calendar.Civil

/-!
# Stamps are read back

An instant is read back from its text on any clock and with any digits that lose nothing, and from
its bare texts in universal time. No text belongs to two of the three grammars, so that it does not
matter in which order they are tried.
-/

namespace TransitSim
namespace Calendar

open Text

/-!
# Written stamps
-/

/-- An instant on a clock some minutes ahead, with the offset of the clock. -/
def clockStamp (minutes : Int) (places : Nat) (i : Instant) : String :=
  String.ofList ((Civil.ofInstant (i.ahead minutes)).chars 'T' places ++ offsetChars minutes)

def bareStamp (between : Char) (places : Nat) (i : Instant) : String :=
  String.ofList ((Civil.ofInstant i).chars between places)

/-- The year that a clock shows some minutes ahead. -/
def clockYear (minutes : Int) (i : Instant) : Int :=
  (Civil.ofInstant (i.ahead minutes)).date.year

/-- The grammars of stamps in the order in which they are tried. -/
def grammars : List (List Char → Option Instant) :=
  [readStrict?, readBare? fun cs => some (trimStart cs), readBare? (expect? 'T')]

theorem readStamp?_eq (s : String) :
    readStamp? s = grammars.findSome? fun read => read s.toList := by
  simp only [readStamp?, grammars, List.findSome?_cons, List.findSome?_nil]
  cases readStrict? s.toList with
  | some i => rfl
  | none =>
      cases readBare? (fun cs => some (trimStart cs)) s.toList with
      | some i => rfl
      | none => cases readBare? (expect? 'T') s.toList <;> rfl

/-!
# Grammars exclude each other
-/

theorem expect?_eq_some {c : Char} {cs rest : List Char} (h : expect? c cs = some rest) :
    cs = c :: rest := by
  cases cs with
  | nil => cases h
  | cons d ds =>
      rw [expect?] at h
      split at h
      case isTrue heq =>
        cases h
        rw [heq]
      case isFalse => cases h

theorem spacedNumber?_letter {c : Char} (hblank : isBlank c = false) (hdigit : c.isDigit = false)
    (most : Nat) (rest : List Char) : spacedNumber? most (c :: rest) = none := by
  have hnone : ((c :: rest).take most).takeWhile Char.isDigit = [] := by
    cases most with
    | zero => rfl
    | succ most => exact List.takeWhile_cons_of_neg (Bool.not_eq_true _ ▸ hdigit)
  rw [spacedNumber?, trimStart_cons hblank, number?, hnone]
  rfl

/-- Between date and time a bare grammar passes over what the strict one does, or finds no hour. -/
def PassesOver (between : List Char → Option Rest) : Prop :=
  ∀ {cs rest rest' : List Char} {n : Nat}, separator? cs = some rest →
    number? 2 2 rest = some (n, rest') →
      between cs = some rest ∨ (between cs).bind (spacedNumber? 2) = none

theorem separator?_eq_some {cs rest : List Char} (h : separator? cs = some rest) :
    exists c, cs = c :: rest ∧ (c = 'T' ∨ c = 't' ∨ c = ' ') := by
  cases cs with
  | nil => cases h
  | cons c cs =>
      rw [separator?] at h
      split at h
      case isTrue hc =>
        cases h
        exact ⟨c, rfl, hc⟩
      case isFalse => cases h

theorem passesOver_blanks : PassesOver fun cs => some (trimStart cs) := by
  intro cs rest rest' n hseparator hnumber
  rcases separator?_eq_some hseparator with ⟨c, rfl, rfl | rfl | rfl⟩
  · apply Or.inr
    show spacedNumber? 2 (trimStart ('T' :: rest)) = none
    rw [trimStart_cons (by decide)]
    exact spacedNumber?_letter (by decide) (by decide) 2 rest
  · apply Or.inr
    show spacedNumber? 2 (trimStart ('t' :: rest)) = none
    rw [trimStart_cons (by decide)]
    exact spacedNumber?_letter (by decide) (by decide) 2 rest
  · apply Or.inl
    rcases number?_eq_some hnumber with ⟨ds, rfl, hds, hlength, -⟩
    have htrim : trimStart (' ' :: (ds ++ rest')) = trimStart (ds ++ rest') :=
      List.dropWhile_cons_of_pos (by decide)
    show some (trimStart (' ' :: (ds ++ rest'))) = _
    rw [htrim, trimStart_digits hds (by omega)]

theorem passesOver_expect : PassesOver (expect? 'T') := by
  intro cs rest rest' n hseparator hnumber
  rcases separator?_eq_some hseparator with ⟨c, rfl, rfl | rfl | rfl⟩
  · exact Or.inl rfl
  · exact Or.inr rfl
  · exact Or.inr rfl

theorem readBare?_of_readStrict? {between : List Char → Option Rest} (hbetween : PassesOver between)
    {cs : List Char} {i : Instant} (h : readStrict? cs = some i) : readBare? between cs = none := by
  rw [readStrict?] at h
  rcases Option.bind_eq_some_iff.mp h with ⟨⟨year, cs₁⟩, hyear, h⟩
  rcases Option.bind_eq_some_iff.mp h with ⟨cs₂, hminus, h⟩
  rcases Option.bind_eq_some_iff.mp h with ⟨⟨month, cs₃⟩, hmonth, h⟩
  rcases Option.bind_eq_some_iff.mp h with ⟨cs₄, hminus', h⟩
  rcases Option.bind_eq_some_iff.mp h with ⟨⟨day, cs₅⟩, hday, h⟩
  rcases Option.bind_eq_some_iff.mp h with ⟨cs₆, hseparator, h⟩
  rcases Option.bind_eq_some_iff.mp h with ⟨⟨hour, cs₇⟩, hhour, h⟩
  rcases Option.bind_eq_some_iff.mp h with ⟨cs₈, hcolon, h⟩
  rcases Option.bind_eq_some_iff.mp h with ⟨⟨minute, cs₉⟩, hminute, h⟩
  rcases Option.bind_eq_some_iff.mp h with ⟨cs₁₀, hcolon', h⟩
  rcases Option.bind_eq_some_iff.mp h with ⟨⟨second, cs₁₁⟩, hsecond, h⟩
  rcases Option.bind_eq_some_iff.mp h with ⟨⟨nanos, cs₁₂⟩, hfraction, h⟩
  rcases Option.bind_eq_some_iff.mp h with ⟨⟨offset, cs₁₃⟩, hoffset, -⟩
  have hmore : cs₁₂.isEmpty = false := by
    cases cs₁₂ with
    | nil => cases hoffset
    | cons => rfl
  have hfound : ∀ {n : Nat} {cs rest : List Char}, number? 2 2 cs = some (n, rest) →
      spacedNumber? 2 cs = some (n, rest) :=
    fun hread => spacedNumber?_of_number? (by decide) hread
  simp only [readBare?, bind, Option.bind, spacedYear?_of_number? hyear, hminus, hfound hmonth,
    hminus', hfound hday]
  rcases hbetween hseparator hhour with hpass | hstop
  · simp only [hpass, hfound hhour, hcolon, hfound hminute, hcolon', hfound hsecond, hfraction,
      hmore, Bool.false_eq_true, if_false]
  · cases hfrom : between cs₅ with
    | none => rfl
    | some rest =>
        rw [hfrom, Option.bind_some] at hstop
        simp only [hstop]

theorem readBare?_blanks_of_expect {cs : List Char} {i : Instant}
    (h : readBare? (expect? 'T') cs = some i) :
    readBare? (fun cs => some (trimStart cs)) cs = none := by
  rw [readBare?] at h
  rcases Option.bind_eq_some_iff.mp h with ⟨⟨year, cs₁⟩, hyear, h⟩
  rcases Option.bind_eq_some_iff.mp h with ⟨cs₂, hminus, h⟩
  rcases Option.bind_eq_some_iff.mp h with ⟨⟨month, cs₃⟩, hmonth, h⟩
  rcases Option.bind_eq_some_iff.mp h with ⟨cs₄, hminus', h⟩
  rcases Option.bind_eq_some_iff.mp h with ⟨⟨day, cs₅⟩, hday, h⟩
  rcases Option.bind_eq_some_iff.mp h with ⟨cs₆, hletter, -⟩
  have hstop : spacedNumber? 2 (trimStart cs₅) = none := by
    rw [expect?_eq_some hletter, trimStart_cons (by decide)]
    exact spacedNumber?_letter (by decide) (by decide) 2 cs₆
  simp only [readBare?, bind, Option.bind, hyear, hminus, hmonth, hminus', hday, hstop]

/-- No text belongs to two grammars. -/
theorem grammars_exclude : grammars.Pairwise fun f g => ∀ cs, f cs = none ∨ g cs = none := by
  have hstrict : ∀ {between}, PassesOver between → ∀ cs, readStrict? cs = none ∨
      readBare? between cs = none := by
    intro between hbetween cs
    cases h : readStrict? cs with
    | none => exact Or.inl rfl
    | some i => exact Or.inr (readBare?_of_readStrict? hbetween h)
  have hbare : ∀ cs, readBare? (fun cs => some (trimStart cs)) cs = none ∨
      readBare? (expect? 'T') cs = none := by
    intro cs
    cases h : readBare? (expect? 'T') cs with
    | none => exact Or.inr rfl
    | some i => exact Or.inl (readBare?_blanks_of_expect h)
  simp only [grammars, List.pairwise_cons, List.mem_cons, List.not_mem_nil, or_false,
    forall_eq_or_imp, forall_eq, false_implies, implies_true, List.Pairwise.nil, and_true]
  exact ⟨⟨hstrict passesOver_blanks, hstrict passesOver_expect⟩, hbare⟩

theorem findSome?_grammars_iff {order : List (List Char → Option Instant)}
    (horder : order.Perm grammars) {cs : List Char} {i : Instant} :
    (order.findSome? fun read => read cs) = some i ↔ exists read, read ∈ grammars ∧ read cs = some i := by
  have hexclude : order.Pairwise fun f g => ∀ cs, f cs = none ∨ g cs = none := by
    refine (horder.pairwise_iff ?_).mpr grammars_exclude
    intro f g h cs
    exact (h cs).symm
  constructor
  · intro h
    rcases List.exists_of_findSome?_eq_some h with ⟨read, hmem, hread⟩
    exact ⟨read, horder.mem_iff.mp hmem, hread⟩
  · intro h
    rcases h with ⟨read, hmem, hread⟩
    rw [← horder.mem_iff] at hmem
    clear horder
    induction order with
    | nil => cases hmem
    | cons f order ih =>
        rw [List.pairwise_cons] at hexclude
        rw [List.findSome?_cons]
        rcases List.mem_cons.mp hmem with rfl | hmem
        · rw [hread]
        · rcases hexclude.1 read hmem cs with hnone | hnone
          · rw [hnone]
            exact ih hexclude.2 hmem
          · rw [hnone] at hread
            cases hread

theorem findSome?_grammars_perm {order : List (List Char → Option Instant)}
    (h : order.Perm grammars) (s : String) :
    (order.findSome? fun read => read s.toList) = readStamp? s := by
  apply Option.ext
  intro i
  rw [readStamp?_eq, findSome?_grammars_iff h, findSome?_grammars_iff (List.Perm.refl grammars)]

theorem readStamp?_of_mem {read : List Char → Option Instant} (hmem : read ∈ grammars) {s : String}
    {i : Instant} (h : read s.toList = some i) : readStamp? s = some i := by
  rw [readStamp?_eq, findSome?_grammars_iff (List.Perm.refl grammars)]
  exact ⟨read, hmem, h⟩

/-!
# Reading written stamps
-/

theorem valid_of_clockYear {i : Instant} (hnanos : i.nanos < nanosPerSecond) {minutes : Int}
    (hminutes : minutes.natAbs < 1440) (hfirst : 0 ≤ clockYear minutes i)
    (hlast : clockYear minutes i ≤ 9999) :
    i.Valid ∧ (Date.ofDays ((i.ahead minutes).seconds / secondsPerDay)).exists = true := by
  have hzero : firstDay 0 = -719528 := by decide
  have hbeyond : firstDay 10000 = 2932897 := by decide
  have hfirstSecond : Instant.firstSecond = -8334601228800 := by decide
  have hlastSecond : Instant.lastSecond = 8210266876799 := by decide
  have hfrom : firstDay 0 ≤ (i.ahead minutes).seconds / secondsPerDay :=
    le_year_ofDays_iff.mp hfirst
  have hbefore : ¬firstDay 10000 ≤ (i.ahead minutes).seconds / secondsPerDay := by
    intro h
    have hyear : 10000 ≤ clockYear minutes i := le_year_ofDays_iff.mpr h
    omega
  have hlocal : (i.ahead minutes).seconds = i.seconds + minutes * 60 := rfl
  unfold secondsPerDay at hfrom hbefore
  rw [exists_ofDays_div_iff]
  refine ⟨⟨by omega, by omega, Or.inl hnanos⟩, by omega, by omega⟩

theorem readStamp?_clockStamp {i : Instant} {places : Nat} (hnanos : i.nanos < nanosPerSecond)
    (hplaces : LosesNothing places i.nanos) {minutes : Int} (hminutes : minutes.natAbs < 1440)
    (hfirst : 0 ≤ clockYear minutes i) (hlast : clockYear minutes i ≤ 9999) :
    readStamp? (clockStamp minutes places i) = some i := by
  rcases valid_of_clockYear hnanos hminutes hfirst hlast with ⟨hvalid, hdate⟩
  apply readStamp?_of_mem (show readStrict? ∈ grammars from List.mem_cons_self)
  have hshown := Civil.isShown_ofInstant
    (show (i.ahead minutes).nanos < 2 * nanosPerSecond from Nat.lt_of_lt_of_le hnanos (by decide))
  have hordinary : (Civil.ofInstant (i.ahead minutes)).nanos = i.nanos :=
    Civil.nanos_ofInstant hnanos
  rw [← hordinary] at hplaces
  rw [clockStamp, String.toList_ofList,
    Civil.readStrict?_chars hshown hplaces ⟨hfirst, hlast⟩ hminutes]
  exact Civil.instant?_ofInstant hvalid hdate

theorem readStamp?_bareStamp {i : Instant} {places : Nat} (hvalid : i.Valid)
    (hnanos : i.nanos < nanosPerSecond) (hplaces : LosesNothing places i.nanos) {sign : Char}
    {between : List Char → Option Rest} (hmem : readBare? between ∈ grammars)
    (hbetween : between (sign :: (Civil.ofInstant i).timeChars places) =
      some ((Civil.ofInstant i).timeChars places)) :
    readStamp? (bareStamp sign places i) = some i := by
  apply readStamp?_of_mem hmem
  have hshown := Civil.isShown_ofInstant
    (show i.nanos < 2 * nanosPerSecond from Nat.lt_of_lt_of_le hnanos (by decide))
  rw [← Civil.nanos_ofInstant hnanos] at hplaces
  rw [bareStamp, String.toList_ofList, Civil.readBare?_chars hshown hplaces hbetween]
  exact Civil.instant?_ofInstant_universal hvalid

/-- An instant outside of leap seconds is read back from what any clock shows in a year of four
digits, with the offset of the clock and any digits that lose nothing, and from the bare texts of
universal time. No text belongs to two of the three grammars, and so they may be tried in any
order. -/
theorem readStamp?_stamps :
    (∀ (i : Instant) (places : Nat), i.nanos < nanosPerSecond → LosesNothing places i.nanos →
        (∀ minutes : Int, minutes.natAbs < 1440 → 0 ≤ clockYear minutes i →
          clockYear minutes i ≤ 9999 → readStamp? (clockStamp minutes places i) = some i) ∧
        (Instant.firstSecond ≤ i.seconds → i.seconds ≤ Instant.lastSecond →
          readStamp? (bareStamp ' ' places i) = some i ∧
            readStamp? (bareStamp 'T' places i) = some i)) ∧
      (grammars.Pairwise fun f g => ∀ cs, f cs = none ∨ g cs = none) ∧
      ∀ order : List (List Char → Option Instant), order.Perm grammars → ∀ s : String,
        (order.findSome? fun read => read s.toList) = readStamp? s := by
  refine ⟨?_, grammars_exclude, fun order h s => findSome?_grammars_perm h s⟩
  intro i places hnanos hplaces
  constructor
  · intro minutes hminutes hfirst hlast
    exact readStamp?_clockStamp hnanos hplaces hminutes hfirst hlast
  · intro hfirst hlast
    have hvalid : i.Valid := ⟨hfirst, hlast, Or.inl hnanos⟩
    have hblank : ∀ b ∈ [' '], isBlank b = true := by
      intro b hb
      rw [List.mem_singleton.mp hb]
      decide
    constructor
    · apply readStamp?_bareStamp hvalid hnanos hplaces
        (show readBare? (fun cs => some (trimStart cs)) ∈ grammars by simp [grammars])
      exact congrArg some (Civil.trimStart_timeChars places _ [' '] hblank)
    · apply readStamp?_bareStamp hvalid hnanos hplaces
        (show readBare? (expect? 'T') ∈ grammars by simp [grammars])
      rw [expect?, if_pos rfl]

theorem readStamp?_stamps_yearZero :
    readStamp? "0000-01-01T00:00:00.25+05:30" = some ⟨-62167239000, 250000000⟩ ∧
      readStamp? "-0001-12-31 18:30:00.250000" = some ⟨-62167239000, 250000000⟩ := by
  have hclock : clockStamp 330 2 ⟨-62167239000, 250000000⟩ = "0000-01-01T00:00:00.25+05:30" := by
    decide +kernel
  have hbare : bareStamp ' ' 6 ⟨-62167239000, 250000000⟩ = "-0001-12-31 18:30:00.250000" := by
    decide +kernel
  rcases readStamp?_stamps with ⟨hwritten, -⟩
  rw [← hclock, ← hbare]
  constructor
  · exact (hwritten ⟨-62167239000, 250000000⟩ 2 (by decide) (by decide)).1 330 (by decide)
      (by decide) (by decide)
  · exact ((hwritten ⟨-62167239000, 250000000⟩ 6 (by decide) (by decide)).2 (by decide)
      (by decide)).1

end Calendar
end TransitSim
