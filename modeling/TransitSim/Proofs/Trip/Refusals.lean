import TransitSim.Proofs.Csv.Places
import TransitSim.Proofs.Trip.Acceptance

/-!
# Where a refused trip is at fault

The error of a refused table names a line for its first record that cannot be read. It is the line
that goes on behind the record before it. That is the line of the record itself, unless line feeds
lie between the two: an empty line, or the second octet of the line break.
-/

namespace TransitSim

namespace Trip

/-!
# Records that cannot be read
-/

/-- The fields of a record are text, one for each column, and describe a sample. -/
def IsReadable (header : List String) (fields : List (List UInt8)) : Prop :=
  exists row, List.Forall₂ Csv.IsText fields row ∧ row.length = header.length ∧
    IsDistinct header ∧ IsValid header row

variable {header : List String} {octets : List UInt8}

theorem exists_checkedSample_iff (hcomplete : IsComplete header) {r : Csv.Record} :
    (exists s, checkedSample header r = .ok s) ↔ IsReadable header r.fields := by
  simp only [checkedSample_eq_ok_iff hcomplete, Csv.texts_eq_ok_iff]
  constructor
  · rintro ⟨s, row, ⟨hlength, htexts⟩, hdistinct, hs⟩
    have hrow : IsRow header row := ⟨hcomplete, hdistinct, hlength⟩
    exact ⟨row, htexts, hlength, hdistinct, hrow.isValid_iff.mpr ⟨s, hs⟩⟩
  · rintro ⟨row, htexts, hlength, hdistinct, hvalid⟩
    have hrow : IsRow header row := ⟨hcomplete, hdistinct, hlength⟩
    rcases hrow.isValid_iff.mp hvalid with ⟨s, hs⟩
    exact ⟨s, row, ⟨hlength, htexts⟩, hdistinct, hs⟩

theorem exists_fault (hcomplete : IsComplete header) {r : Csv.Record}
    (h : ¬IsReadable header r.fields) :
    exists fault, recordSample header r = .error fault ∧
      checkedSample header r = .error (.trip r.place.line fault) := by
  rw [← exists_checkedSample_iff hcomplete] at h
  unfold checkedSample at h ⊢
  cases hrecord : recordSample header r with
  | ok s =>
      rw [hrecord] at h
      exact absurd ⟨s, rfl⟩ h
  | error fault => exact ⟨fault, rfl, rfl⟩

/-!
# The first one of them
-/

theorem exists_first {α : Type} {p : α → Prop} {xs : List α} (h : ∃ x ∈ xs, ¬p x) :
    exists before x after, xs = before ++ x :: after ∧ (∀ y ∈ before, p y) ∧ ¬p x := by
  classical
  rcases h with ⟨y, hy, hnot⟩
  have hsome : (xs.find? fun x => decide (¬p x)).isSome = true :=
    List.find?_isSome.mpr ⟨y, hy, decide_eq_true hnot⟩
  rcases Option.isSome_iff_exists.mp hsome with ⟨x, hfound⟩
  rcases List.find?_eq_some_iff_append.mp hfound with ⟨hx, before, after, hxs, hbefore⟩
  refine ⟨before, x, after, hxs, ?_, of_decide_eq_true hx⟩
  intro y hy
  simpa using hbefore y hy

theorem samples_of_unreadable {first bad : Csv.Slot} {before after : List Csv.Slot}
    (hlaid : Csv.Laid octets (first :: before ++ bad :: after))
    (hheader : List.Forall₂ Csv.IsText first.fields header) (hcomplete : IsComplete header)
    (hbefore : ∀ slot ∈ before, IsReadable header slot.fields)
    (hbad : ¬IsReadable header bad.fields) :
    exists place fault, recordSample header ⟨place, bad.fields⟩ = .error fault ∧
      samples octets =
        .error (.trip (Csv.lineBehind (Csv.front octets (first :: before))) fault) := by
  rcases hlaid.records_append with ⟨earlier, place, later, hrecords, hearlier, hline⟩
  rcases List.map_eq_cons_iff.mp hearlier with ⟨r, rest, rfl, hfirst, hrest⟩
  rw [List.cons_append] at hrecords
  have htexts : r.texts r.fields.length = .ok header := by
    rw [Csv.texts_eq_ok_iff, hfirst]
    exact ⟨hheader.length_eq.symm, hheader⟩
  have hread : ∀ r ∈ rest, exists s, checkedSample header r = .ok s := by
    intro r hr
    rw [exists_checkedSample_iff hcomplete]
    have hfields : r.fields ∈ before.map (·.fields) := by
      rw [← hrest]
      exact List.mem_map_of_mem hr
    rcases List.mem_map.mp hfields with ⟨slot, hslot, heq⟩
    rw [← heq]
    exact hbefore slot hslot
  rcases exists_fault (r := ⟨place, bad.fields⟩) hcomplete hbad with ⟨fault, hfault, hchecked⟩
  refine ⟨place, fault, hfault, ?_⟩
  rw [samples_of_records hrecords htexts hcomplete, Except.mapM_eq_error hread hchecked, hline]

/-- Every file has its records somewhere. If the header is complete and a record cannot be read, the
file is refused for the first such record. The line in the error is the one that goes on behind the
record before. It is the line on which the record begins exactly if no line feed lies between the
two records. -/
theorem samples_name_line (octets : List UInt8) :
    (exists slots, Csv.Laid octets slots) ∧
      ∀ first rest header, Csv.Laid octets (first :: rest) →
        List.Forall₂ Csv.IsText first.fields header → IsComplete header →
        (∃ slot ∈ rest, ¬IsReadable header slot.fields) →
          exists before bad after place fault, rest = before ++ bad :: after ∧
            (∀ slot ∈ before, IsReadable header slot.fields) ∧
            ¬IsReadable header bad.fields ∧
            recordSample header ⟨place, bad.fields⟩ = .error fault ∧
            samples octets =
              .error (.trip (Csv.lineBehind (Csv.front octets (first :: before))) fault) ∧
            Csv.front octets (first :: before) ++ bad.breaks ++ bad.line <+: octets ∧
            (Csv.lineBehind (Csv.front octets (first :: before)) =
                Csv.lineBehind (Csv.front octets (first :: before) ++ bad.breaks) ↔
              Csv.lineFeed ∉ bad.breaks) := by
  refine ⟨Csv.exists_laid octets, ?_⟩
  intro first rest header hlaid hheader hcomplete hexists
  rcases exists_first hexists with ⟨before, bad, after, rfl, hbefore, hbad⟩
  rcases samples_of_unreadable hlaid hheader hcomplete hbefore hbad with
    ⟨place, fault, hfault, hsamples⟩
  have hprefix : Csv.front octets (first :: before) ++ bad.octets <+: octets :=
    Csv.Laid.prefix hlaid
  rw [Csv.Slot.octets, ← List.append_assoc] at hprefix
  exact ⟨before, bad, after, place, fault, rfl, hbefore, hbad, hfault, hsamples, hprefix,
    Csv.lineBehind_append _ _⟩

/-!
# A table in which lines end with two octets
-/

def crlfHeader : Csv.Slot :=
  .plain [] (["Driver ID", "Rid", "Ts", "Lat", "Lon"].map Utf8.encode) (Utf8.encode "Speed") 0x0D

def crlfRow : Csv.Slot :=
  .plain [0x0A, 0x0D, 0x0A] (["7", "r", "nope", "22.5", "88.25"].map Utf8.encode)
    (Utf8.encode "0") 0x0D

def crlfFile : List UInt8 :=
  Utf8.encode "Driver ID,Rid,Ts,Lat,Lon,Speed\r\n\r\n7,r,nope,22.5,88.25,0\r\n"

theorem laid_crlfFile : Csv.Laid crlfFile [crlfHeader, crlfRow] := by
  have hbody : crlfFile.drop (Csv.markOf crlfFile).length =
      crlfHeader.octets ++ (crlfRow.octets ++ [0x0A]) := by decide +kernel
  unfold Csv.Laid
  rw [hbody]
  apply Csv.layout_plain (by decide +kernel) (by decide +kernel) rfl (by decide +kernel)
  apply Csv.layout_plain (by decide +kernel) (by decide +kernel) rfl (by decide +kernel)
  exact .nil (by decide +kernel)

theorem not_isReadable_crlfRow : ¬IsReadable plainHeader crlfRow.fields := by
  rintro ⟨row, htexts, -, -, hvalid⟩
  have hrow : row = ["7", "r", "nope", "22.5", "88.25", "0"] := by
    have hall : (Csv.textsFrom ⟨0, 1, 0⟩ 0 crlfRow.fields).toOption =
        some ["7", "r", "nope", "22.5", "88.25", "0"] := by decide +kernel
    rw [(Csv.textsFrom_eq_ok_iff _ 0).mpr htexts] at hall
    exact Option.some.inj hall
  rcases hvalid.time with ⟨value, time, hhas, htime⟩
  rw [hrow] at hhas
  have hvalue : value = "nope" := by simpa [Has, plainHeader, requiredColumns] using hhas
  have hnone : Calendar.readStamp? "nope" = none := by decide +kernel
  rw [hvalue, hnone] at htime
  cases htime

theorem samples_name_line_crlf :
    Csv.Laid crlfFile [crlfHeader, crlfRow] ∧
      List.Forall₂ Csv.IsText crlfHeader.fields plainHeader ∧ IsComplete plainHeader ∧
      ¬IsReadable plainHeader crlfRow.fields ∧
      (exists fault, samples crlfFile = .error (.trip 1 fault)) ∧
      Csv.lineBehind (Csv.front crlfFile [crlfHeader] ++ crlfRow.breaks) = 3 := by
  have hheader : List.Forall₂ Csv.IsText crlfHeader.fields plainHeader := by decide +kernel
  have hcomplete : IsComplete plainHeader := fun _ hname => hname
  rcases (samples_name_line crlfFile).2 crlfHeader [crlfRow] plainHeader laid_crlfFile hheader
    hcomplete ⟨crlfRow, List.mem_cons_self, not_isReadable_crlfRow⟩ with
    ⟨before, bad, after, place, fault, hrow, -, -, -, hsamples, -, -⟩
  have hbefore : before = [] := by
    cases before with
    | nil => rfl
    | cons slot before =>
        have hlength := congrArg List.length hrow
        simp at hlength
  have hone : Csv.lineBehind (Csv.front crlfFile [crlfHeader]) = 1 := by decide +kernel
  rw [hbefore, hone] at hsamples
  exact ⟨laid_crlfFile, hheader, hcomplete, not_isReadable_crlfRow, ⟨fault, hsamples⟩,
    by decide +kernel⟩

/-- The line in an error is not always that of the record: here the record begins on line three. -/
theorem line_of_crlf_short :
    Csv.Laid crlfFile [crlfHeader, crlfRow] ∧
      List.Forall₂ Csv.IsText crlfHeader.fields plainHeader ∧ IsComplete plainHeader ∧
      ¬IsReadable plainHeader crlfRow.fields ∧
      ¬exists fault, samples crlfFile = .error (.trip
        (Csv.lineBehind (Csv.front crlfFile [crlfHeader] ++ crlfRow.breaks)) fault) := by
  refine ⟨laid_crlfFile, by decide +kernel, fun _ hname => hname, not_isReadable_crlfRow, ?_⟩
  rintro ⟨fault, hsamples⟩
  have hthree : Csv.lineBehind (Csv.front crlfFile [crlfHeader] ++ crlfRow.breaks) = 3 := by
    decide +kernel
  have hone : (match samples crlfFile with
      | .error (.trip line _) => some line
      | _ => none) = some 1 := by decide +kernel
  rw [hsamples, hthree] at hone
  cases hone

end Trip
end TransitSim
