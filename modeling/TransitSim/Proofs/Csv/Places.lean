import TransitSim.Proofs.Csv.Lines

/-!
# Where records stand

A file is seen as its records with the octets of each: the line breaks that are passed over, and
then the record with the line break that ends it. A reader takes a record to begin where the one
before it has ended. So its place is in front of the line breaks that are passed over, and its line
is counted without them. The second octet of a line break of two is among them.
-/

namespace TransitSim
namespace Csv

/-- A record as it stands in a file: the line breaks passed over in front of it, its octets with the
line break that ends it, and its fields. -/
structure Slot where
  breaks : List UInt8
  line : List UInt8
  fields : List (List UInt8)

def Slot.octets (s : Slot) : List UInt8 :=
  s.breaks ++ s.line

/-- The octets of a file behind its byte order mark, and the records as they stand there. -/
inductive Layout : List UInt8 → List Slot → Prop where
  | nil {breaks : List UInt8} (hbreaks : ∀ b ∈ breaks, isBreak b = true) : Layout breaks []
  | cons {breaks line rest : List UInt8} {first : UInt8} {fields : List (List UInt8)} {last : Bool}
      {slots : List Slot} (hbreaks : ∀ b ∈ breaks, isBreak b = true)
      (hfirst : isBreak first = false) (hline : Line (first :: line) fields last)
      (hlast : last = true → rest = []) (hrest : Layout rest slots) :
      Layout (breaks ++ (first :: line ++ rest)) (⟨breaks, first :: line, fields⟩ :: slots)

def markOf (octets : List UInt8) : List UInt8 :=
  if byteOrderMark <+: octets then byteOrderMark else []

/-- The octets of a file and the records as they stand in it. -/
def Laid (octets : List UInt8) (slots : List Slot) : Prop :=
  Layout (octets.drop (markOf octets).length) slots

/-- The octets of a file up to the end of some records at its beginning. -/
def front (octets : List UInt8) (before : List Slot) : List UInt8 :=
  markOf octets ++ before.flatMap Slot.octets

/-- The number of the line that goes on behind some octets. -/
def lineBehind (octets : List UInt8) : Nat :=
  1 + octets.count lineFeed

def placed (p : Place) : List Slot → List Record
  | [] => []
  | s :: rest => ⟨p, s.fields⟩ :: placed (p.after s.octets) rest

def Place.behind (p : Place) (slots : List Slot) : Place :=
  slots.foldl (fun p s => p.after s.octets) p

variable {octets : List UInt8} {slots before after : List Slot} {slot : Slot}

/-!
# Places
-/

theorem placed_append (p : Place) (before after : List Slot) :
    placed p (before ++ after) = placed p before ++ placed (p.behind before) after := by
  induction before generalizing p with
  | nil => rfl
  | cons s rest ih =>
      rw [List.cons_append, placed, placed, List.cons_append, ih]
      rfl

theorem map_fields_placed (p : Place) (slots : List Slot) :
    (placed p slots).map (·.fields) = slots.map (·.fields) := by
  induction slots generalizing p with
  | nil => rfl
  | cons s rest ih => rw [placed, List.map_cons, List.map_cons, ih]

theorem line_behind (p : Place) (slots : List Slot) :
    (p.behind slots).line = p.line + (slots.flatMap Slot.octets).count lineFeed := by
  induction slots generalizing p with
  | nil => rfl
  | cons s rest ih =>
      have hrest := ih (p.after s.octets)
      rw [List.flatMap_cons, List.count_append, ← Nat.add_assoc]
      exact hrest

theorem lineBehind_append (octets breaks : List UInt8) :
    lineBehind octets = lineBehind (octets ++ breaks) ↔ lineFeed ∉ breaks := by
  rw [← List.count_eq_zero]
  unfold lineBehind
  rw [List.count_append]
  omega

/-!
# Layouts
-/

theorem recordsFrom_of_layout (h : Layout octets slots) (p : Place) :
    recordsFrom p octets = placed p slots := by
  induction h generalizing p with
  | nil hbreaks => exact recordsFrom_nil p (List.dropWhile_eq_nil_iff.mpr hbreaks)
  | cons hbreaks hfirst hline hlast hrest ih =>
      rw [recordsFrom_line p hbreaks hfirst hline hlast, ih]
      rfl

theorem exists_layout {records : List (List (List UInt8))} (h : Lines octets records) :
    exists slots, Layout octets slots ∧ slots.map (·.fields) = records := by
  induction h with
  | nil hbreaks => exact ⟨[], .nil hbreaks, rfl⟩
  | cons hbreaks hfirst hline hlast hrest ih =>
      rcases ih with ⟨slots, hslots, hfields⟩
      exact ⟨_, .cons hbreaks hfirst hline hlast hslots, by rw [List.map_cons, hfields]⟩

theorem Layout.prefix (h : Layout octets (before ++ slot :: after)) :
    before.flatMap Slot.octets ++ slot.octets <+: octets := by
  induction before generalizing octets with
  | nil =>
      cases h with
      | cons hbreaks hfirst hline hlast hrest =>
          rename_i rest _ _ _
          exact ⟨rest, by simp [Slot.octets]⟩
  | cons first before ih =>
      cases h with
      | cons hbreaks hfirst hline hlast hrest =>
          rcases ih hrest with ⟨rest, hrest⟩
          refine ⟨rest, ?_⟩
          rw [← hrest]
          simp [Slot.octets]

/-!
# Records of plain fields
-/

def Slot.plain (breaks : List UInt8) (values : List (List UInt8)) (value : List UInt8)
    (b : UInt8) : Slot :=
  ⟨breaks, values.flatMap (· ++ [comma]) ++ (value ++ [b]), values ++ [value]⟩

theorem line_of_plain {values : List (List UInt8)} {value : List UInt8} {b : UInt8}
    (hplain : ∀ v ∈ values ++ [value], IsPlain v) (hbreak : isBreak b = true) :
    Line (values.flatMap (· ++ [comma]) ++ (value ++ [b])) (values ++ [value]) false := by
  induction values with
  | nil => exact .broken (.plain (hplain value List.mem_cons_self)) hbreak
  | cons v values ih =>
      rw [List.cons_append] at hplain
      rcases List.forall_mem_cons.mp hplain with ⟨hv, hrest⟩
      rw [List.flatMap_cons, List.append_assoc, List.append_assoc, List.singleton_append]
      exact .comma (.plain hv) (ih hrest)

theorem layout_plain {breaks value : List UInt8} {values : List (List UInt8)} {b : UInt8}
    (hbreaks : ∀ b ∈ breaks, isBreak b = true) (hplain : ∀ v ∈ values ++ [value], IsPlain v)
    (hbreak : isBreak b = true)
    (hfirst : ((values.flatMap (· ++ [comma]) ++ (value ++ [b])).head?.all (!isBreak ·)) = true)
    (h : Layout octets slots) :
    Layout ((Slot.plain breaks values value b).octets ++ octets)
      (Slot.plain breaks values value b :: slots) := by
  have hline := line_of_plain hplain hbreak
  unfold Slot.plain Slot.octets
  generalize values.flatMap (· ++ [comma]) ++ (value ++ [b]) = line at *
  cases line with
  | nil =>
      rcases hline.ne_nil_or_last with hne | hlast
      · exact absurd rfl hne
      · cases hlast
  | cons first line =>
      rw [List.append_assoc]
      exact .cons hbreaks (by simpa using hfirst) hline Bool.noConfusion h

instance (octets : List UInt8) : Decidable (IsPlain octets) :=
  decidable_of_iff ((octets.all fun b => !endsField b) = true ∧ octets.head? ≠ some quote) <| by
    simp only [List.all_eq_true, Bool.not_eq_true']
    constructor
    · intro h
      exact ⟨h.1, h.2⟩
    · intro h
      exact ⟨h.none_ends, h.head_ne⟩

/-!
# Files
-/

theorem markOf_prefix (octets : List UInt8) : markOf octets <+: octets := by
  unfold markOf
  split
  · assumption
  · exact List.nil_prefix

theorem count_markOf (octets : List UInt8) : (markOf octets).count lineFeed = 0 := by
  unfold markOf
  split
  · decide
  · rfl

theorem records_eq (octets : List UInt8) :
    records octets =
      recordsFrom ⟨0, 1, (markOf octets).length⟩ (octets.drop (markOf octets).length) := by
  by_cases hmark : byteOrderMark <+: octets
  · rcases hmark with ⟨rest, rfl⟩
    have hof : markOf (byteOrderMark ++ rest) = byteOrderMark :=
      if_pos (List.prefix_append byteOrderMark rest)
    rw [hof, List.drop_left]
    rfl
  · have hof : markOf octets = [] := if_neg hmark
    rw [hof]
    unfold records
    split
    · rename_i rest
      exact absurd (List.prefix_append byteOrderMark rest) hmark
    · rfl

theorem exists_laid (octets : List UInt8) : exists slots, Laid octets slots := by
  rcases exists_lines (octets.drop (markOf octets).length) with ⟨records, h⟩
  rcases exists_layout h with ⟨slots, hslots, -⟩
  exact ⟨slots, hslots⟩

theorem Laid.records_eq (h : Laid octets slots) :
    records octets = placed ⟨0, 1, (markOf octets).length⟩ slots := by
  rw [Csv.records_eq, recordsFrom_of_layout h]

theorem Laid.prefix (h : Laid octets (before ++ slot :: after)) :
    front octets before ++ slot.octets <+: octets := by
  rcases markOf_prefix octets with ⟨rest, hrest⟩
  unfold Laid at h
  have hdrop : octets.drop (markOf octets).length = rest := by
    rw [← @List.drop_left _ (markOf octets) rest, hrest]
  rw [hdrop] at h
  have hall := (List.prefix_append_right_inj (markOf octets)).mpr h.prefix
  rw [hrest, ← List.append_assoc] at hall
  exact hall

theorem Laid.records_append (h : Laid octets (before ++ slot :: after)) :
    exists earlier place later,
      records octets = earlier ++ ⟨place, slot.fields⟩ :: later ∧
        earlier.map (·.fields) = before.map (·.fields) ∧
        place.line = lineBehind (front octets before) := by
  have hall : records octets =
      placed ⟨0, 1, (markOf octets).length⟩ before ++
        placed (Place.behind ⟨0, 1, (markOf octets).length⟩ before) (slot :: after) := by
    rw [h.records_eq, placed_append]
  refine ⟨_, _, _, hall, map_fields_placed _ before, ?_⟩
  rw [line_behind]
  unfold lineBehind front
  rw [List.count_append, count_markOf, Nat.zero_add]

end Csv
end TransitSim
