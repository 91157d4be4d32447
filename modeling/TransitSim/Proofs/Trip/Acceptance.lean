import TransitSim.Proofs.Config.Validation
import TransitSim.Proofs.Csv.Texts
import TransitSim.Proofs.Route.Stops
import TransitSim.Trip.Table

/-!
# Which tables are trips

A file is read as a trip exactly if it is a table with all required columns and each of its rows
describes a sample; otherwise it is refused as a whole. The samples are those that the rows
describe, in their order, whatever the order of the columns is and whatever other columns there are.
-/

namespace TransitSim

namespace Trip

/-!
# Tables and their rows
-/

/-- The texts of the header and of the rows of a file. All rows are as long as the header. -/
def IsTable (octets : List UInt8) (header : List String) (rows : List (List String)) : Prop :=
  exists first rest, Csv.File octets (first :: rest) ∧ List.Forall₂ Csv.IsText first header ∧
    List.Forall₂ (List.Forall₂ Csv.IsText) rest rows ∧ ∀ row ∈ rows, row.length = header.length

def Has (header row : List String) (name value : String) : Prop :=
  (name, value) ∈ header.zip row

def IsNumber (value : String) (x : Float) : Prop :=
  Decimal.read? value = some x ∧ x.isFinite = true

/-- The columns of a row that hold numbers and a time can be read, and the numbers lie in their
ranges. -/
structure IsValid (header row : List String) : Prop where
  lat : exists value x, Has header row "Lat" value ∧ IsNumber value x ∧ -90 ≤ x ∧ x ≤ 90
  lon : exists value x, Has header row "Lon" value ∧ IsNumber value x ∧ -180 ≤ x ∧ x ≤ 180
  speed : exists value x, Has header row "Speed" value ∧ IsNumber value x ∧ 0 ≤ x
  time : exists value time, Has header row "Ts" value ∧ Calendar.readStamp? value = some time

/-- A row describes a sample. -/
structure IsSample (header row : List String) (s : Sample) : Prop where
  driver : Has header row "Driver ID" s.driver
  ride : Has header row "Rid" s.ride
  time : exists value, Has header row "Ts" value ∧ Calendar.readStamp? value = some s.time
  lat : exists value, Has header row "Lat" value ∧ IsNumber value s.coordinate.lat
  lon : exists value, Has header row "Lon" value ∧ IsNumber value s.coordinate.lon
  speed : exists value, Has header row "Speed" value ∧ IsNumber value s.speed
  lat_range : -90 ≤ s.coordinate.lat ∧ s.coordinate.lat ≤ 90
  lon_range : -180 ≤ s.coordinate.lon ∧ s.coordinate.lon ≤ 180
  speed_nonneg : 0 ≤ s.speed

def IsComplete (header : List String) : Prop :=
  ∀ name ∈ requiredColumns, name ∈ header

def IsDistinct (header : List String) : Prop :=
  ∀ name ∈ requiredColumns, header.count name ≤ 1

/-- A table with its columns in another order, and with others among them that are not required. -/
structure Extends (header : List String) (rows : List (List String)) (header' : List String)
    (rows' : List (List String)) : Prop where
  names : exists others, header'.Perm (header ++ others) ∧ ∀ name ∈ others, name ∉ requiredColumns
  cells : List.Forall₂ (fun row row' => exists others,
    (header'.zip row').Perm (header.zip row ++ others) ∧
      ∀ cell ∈ others, cell.1 ∉ requiredColumns) rows rows'

variable {header row : List String} {name value : String}

/-!
# Columns
-/

theorem has_cons {column cell : String} :
    Has (column :: header) (cell :: row) name value ↔
      (name = column ∧ value = cell) ∨ Has header row name value := by
  simp [Has]

theorem Has.mem (h : Has header row name value) : name ∈ header :=
  (List.of_mem_zip h).1

theorem has_field (hname : name ∈ header) (hlength : row.length = header.length) :
    Has header row name (field header row name) := by
  induction header generalizing row with
  | nil => cases hname
  | cons column header ih =>
      cases row with
      | nil => cases hlength
      | cons cell row =>
          rw [has_cons]
          by_cases hcolumn : name = column
          · subst hcolumn
            exact .inl ⟨rfl, by simp [field]⟩
          · have hrest : name ∈ header := (List.mem_cons.mp hname).resolve_left hcolumn
            have hfield : field (column :: header) (cell :: row) name = field header row name := by
              unfold field
              rw [List.zip_cons_cons, List.lookup_cons, beq_false_of_ne hcolumn]
            rw [hfield]
            exact .inr (ih hrest (Nat.succ.inj hlength))

theorem Has.unique {value' : String} (hcount : header.count name ≤ 1)
    (h : Has header row name value) (h' : Has header row name value') : value = value' := by
  induction header generalizing row with
  | nil => cases h
  | cons column header ih =>
      cases row with
      | nil => cases h
      | cons cell row =>
          rw [has_cons] at h h'
          rw [List.count_cons] at hcount
          by_cases hcolumn : name = column
          · subst hcolumn
            have hnone : name ∉ header := by
              rw [← List.count_eq_zero]
              simpa using hcount
            rcases h with ⟨-, rfl⟩ | h
            · rcases h' with ⟨-, rfl⟩ | h'
              · rfl
              · exact absurd h'.mem hnone
            · exact absurd h.mem hnone
          · exact ih (Nat.le_of_add_right_le hcount)
              (h.resolve_left fun heq => hcolumn heq.1) (h'.resolve_left fun heq => hcolumn heq.1)

theorem has_iff (hname : name ∈ header) (hcount : header.count name ≤ 1)
    (hlength : row.length = header.length) :
    Has header row name value ↔ field header row name = value := by
  have hfield := has_field hname hlength
  constructor
  · exact hfield.unique hcount
  · rintro rfl
    exact hfield

theorem lackingColumns_isEmpty_iff :
    (lackingColumns header).isEmpty = true ↔ IsComplete header := by
  simp [lackingColumns, IsComplete]

theorem repeatedColumn?_eq_none_iff {seen : List String} :
    repeatedColumn? seen header = none ↔
      ∀ name ∈ requiredColumns, header.count name ≤ 1 ∧ (name ∈ seen → name ∉ header) := by
  induction header generalizing seen with
  | nil => simp [repeatedColumn?]
  | cons column header ih =>
      have hother : ∀ name, name ≠ column → ((column :: header).count name = header.count name ∧
          (name ∈ column :: header ↔ name ∈ header)) := by
        intro name hne
        exact ⟨List.count_cons_of_ne hne.symm, by simp [hne]⟩
      rw [repeatedColumn?]
      by_cases hrequired : column ∈ requiredColumns
      · rw [if_pos (List.contains_iff_mem.mpr hrequired)]
        by_cases hseen : column ∈ seen
        · rw [if_pos (List.contains_iff_mem.mpr hseen)]
          refine iff_of_false (fun h => by cases h) ?_
          intro h
          exact (h column hrequired).2 hseen List.mem_cons_self
        · rw [if_neg (fun h => hseen (List.contains_iff_mem.mp h)), ih]
          apply forall₂_congr
          intro name _
          by_cases hname : name = column
          · subst hname
            have hzero : name ∉ header ↔ header.count name = 0 := List.count_eq_zero.symm
            simp only [hzero, hseen, List.count_cons_self, List.mem_cons_self, true_implies,
              false_implies, and_true]
            omega
          · rw [(hother name hname).1, (hother name hname).2, List.mem_cons, or_iff_right hname]
      · rw [if_neg (fun h => hrequired (List.contains_iff_mem.mp h)), ih]
        apply forall₂_congr
        intro name hname
        have hne : name ≠ column := by
          rintro rfl
          exact hrequired hname
        rw [(hother name hne).1, (hother name hne).2]

theorem repeatedColumn?_nil : repeatedColumn? [] header = none ↔ IsDistinct header := by
  simp [repeatedColumn?_eq_none_iff, IsDistinct]

/-!
# Samples
-/

theorem number_eq_ok_iff {column : String} {x : Float} :
    number column value = .ok x ↔ IsNumber value x := by
  unfold number IsNumber
  cases Decimal.read? value with
  | none => simp
  | some y =>
      by_cases hfinite : y.isFinite = true
      · simp only [if_pos hfinite, Except.ok.injEq, Option.some.injEq]
        exact ⟨fun h => ⟨h, h ▸ hfinite⟩, And.left⟩
      · simp only [if_neg hfinite, Option.some.injEq]
        refine iff_of_false (fun h => by cases h) ?_
        rintro ⟨rfl, h⟩
        exact hfinite h

theorem sample_eq_ok_iff {s : Sample} :
    sample header row = .ok s ↔
      IsNumber (field header row "Lat") s.coordinate.lat ∧
        IsNumber (field header row "Lon") s.coordinate.lon ∧
        IsNumber (field header row "Speed") s.speed ∧ ¬s.speed < 0 ∧
        s.coordinate.onEarth = true ∧
        Calendar.readStamp? (field header row "Ts") = some s.time ∧
        field header row "Driver ID" = s.driver ∧ field header row "Rid" = s.ride := by
  constructor
  · intro h
    unfold sample at h
    rcases Except.of_bind h with ⟨lat, hlat, h⟩
    rcases Except.of_bind h with ⟨lon, hlon, h⟩
    rcases Except.of_bind h with ⟨speed, hspeed, h⟩
    split at h
    · cases h
    · rename_i hnonneg
      split at h
      · cases h
      · rename_i hearth
        simp only at h
        split at h
        · cases h
        · rename_i time htime
          cases h
          exact ⟨number_eq_ok_iff.mp hlat, number_eq_ok_iff.mp hlon, number_eq_ok_iff.mp hspeed,
            hnonneg, by simpa using hearth, htime, rfl, rfl⟩
  · rintro ⟨hlat, hlon, hspeed, hnonneg, hearth, htime, hdriver, hride⟩
    unfold sample
    rw [number_eq_ok_iff.mpr hlat, number_eq_ok_iff.mpr hlon, number_eq_ok_iff.mpr hspeed]
    show (if s.speed < 0 then _ else _) = _
    rw [if_neg hnonneg, if_neg (by simpa using hearth)]
    simp only [htime, hdriver, hride]

structure IsRow (header row : List String) : Prop where
  complete : IsComplete header
  distinct : IsDistinct header
  length_eq : row.length = header.length

theorem IsRow.has_iff (h : IsRow header row) (hname : name ∈ requiredColumns) :
    Has header row name value ↔ field header row name = value :=
  Trip.has_iff (h.complete name hname) (h.distinct name hname) h.length_eq

theorem IsRow.exists_has_iff (h : IsRow header row) (hname : name ∈ requiredColumns)
    {p : String → Prop} :
    (exists value, Has header row name value ∧ p value) ↔ p (field header row name) := by
  simp only [h.has_iff hname, exists_eq_left']

theorem IsRow.sample_eq_ok_iff (h : IsRow header row) {s : Sample} :
    sample header row = .ok s ↔ IsSample header row s := by
  rw [Trip.sample_eq_ok_iff, Coordinate.onEarth_iff]
  constructor
  · rintro ⟨hlat, hlon, hspeed, hnonneg, hearth, htime, hdriver, hride⟩
    constructor
    case driver => exact (h.has_iff (by decide)).mpr hdriver
    case ride => exact (h.has_iff (by decide)).mpr hride
    case time => exact (h.exists_has_iff (by decide)).mpr htime
    case lat => exact (h.exists_has_iff (by decide)).mpr hlat
    case lon => exact (h.exists_has_iff (by decide)).mpr hlon
    case speed => exact (h.exists_has_iff (by decide)).mpr hspeed
    case lat_range => exact hearth.1
    case lon_range => exact hearth.2
    case speed_nonneg => exact (Binary64.not_lt_zero_iff hspeed.2).mp hnonneg
  · intro hs
    have hspeed := (h.exists_has_iff (by decide)).mp hs.speed
    exact ⟨(h.exists_has_iff (by decide)).mp hs.lat, (h.exists_has_iff (by decide)).mp hs.lon,
      hspeed, (Binary64.not_lt_zero_iff hspeed.2).mpr hs.speed_nonneg, ⟨hs.lat_range, hs.lon_range⟩,
      (h.exists_has_iff (by decide)).mp hs.time, (h.has_iff (by decide)).mp hs.driver,
      (h.has_iff (by decide)).mp hs.ride⟩

theorem IsRow.isValid_iff (h : IsRow header row) :
    IsValid header row ↔ exists s, IsSample header row s := by
  constructor
  · intro hvalid
    rcases hvalid.lat with ⟨lat, x, hlat, hx, hxrange⟩
    rcases hvalid.lon with ⟨lon, y, hlon, hy, hyrange⟩
    rcases hvalid.speed with ⟨speed, v, hspeed, hv, hnonneg⟩
    rcases hvalid.time with ⟨stamp, time, hstamp, htime⟩
    refine ⟨⟨field header row "Driver ID", field header row "Rid", time, ⟨x, y⟩, v⟩, ?_⟩
    constructor
    case driver => exact (h.has_iff (by decide)).mpr rfl
    case ride => exact (h.has_iff (by decide)).mpr rfl
    case time => exact ⟨stamp, hstamp, htime⟩
    case lat => exact ⟨lat, hlat, hx⟩
    case lon => exact ⟨lon, hlon, hy⟩
    case speed => exact ⟨speed, hspeed, hv⟩
    case lat_range => exact hxrange
    case lon_range => exact hyrange
    case speed_nonneg => exact hnonneg
  · rintro ⟨s, hs⟩
    constructor
    case lat =>
      rcases hs.lat with ⟨value, hvalue, hx⟩
      exact ⟨value, _, hvalue, hx, hs.lat_range⟩
    case lon =>
      rcases hs.lon with ⟨value, hvalue, hx⟩
      exact ⟨value, _, hvalue, hx, hs.lon_range⟩
    case speed =>
      rcases hs.speed with ⟨value, hvalue, hx⟩
      exact ⟨value, _, hvalue, hx, hs.speed_nonneg⟩
    case time =>
      rcases hs.time with ⟨value, hvalue, htime⟩
      exact ⟨value, _, hvalue, htime⟩

theorem checkedSample_eq_ok_iff (hcomplete : IsComplete header) {r : Csv.Record} {s : Sample} :
    checkedSample header r = .ok s ↔
      exists row, r.texts header.length = .ok row ∧ IsDistinct header ∧ IsSample header row s := by
  have hchecked : checkedSample header r = .ok s ↔ recordSample header r = .ok s := by
    unfold checkedSample
    cases recordSample header r <;> simp
  rw [hchecked, ← repeatedColumn?_nil]
  unfold recordSample
  cases htexts : r.texts header.length with
  | error fault =>
      refine iff_of_false (fun h => by cases h) ?_
      rintro ⟨row, hrow, -⟩
      cases hrow
  | ok row =>
      simp only [Except.ok.injEq, exists_eq_left']
      cases hrepeated : repeatedColumn? [] header with
      | some name => exact iff_of_false (fun h => by cases h) (fun h => by cases h.1)
      | none =>
          have hrow : IsRow header row :=
            ⟨hcomplete, repeatedColumn?_nil.mp hrepeated, (Csv.texts_eq_ok_iff.mp htexts).1⟩
          rw [← hrow.sample_eq_ok_iff]
          exact (and_iff_right rfl).symm

/-!
# Tables as they are read
-/

section
variable {α β γ : Type} {R : α → β → Prop}

theorem forall₂_and_iff {p : β → Prop} {as : List α} {bs : List β} :
    List.Forall₂ (fun a b => p b ∧ R a b) as bs ↔ List.Forall₂ R as bs ∧ ∀ b ∈ bs, p b := by
  constructor
  · intro h
    induction h with
    | nil => exact ⟨.nil, by simp⟩
    | cons hab _ ih => exact ⟨.cons hab.2 ih.1, List.forall_mem_cons.mpr ⟨hab.1, ih.2⟩⟩
  · rintro ⟨h, hall⟩
    induction h with
    | nil => exact .nil
    | cons hab _ ih =>
        rcases List.forall_mem_cons.mp hall with ⟨hb, hrest⟩
        exact .cons ⟨hb, hab⟩ (ih hrest)

theorem forall₂_exists_iff {S : β → γ → Prop} {as : List α} {cs : List γ} :
    List.Forall₂ (fun a c => exists b, R a b ∧ S b c) as cs ↔
      exists bs, List.Forall₂ R as bs ∧ List.Forall₂ S bs cs := by
  constructor
  · intro h
    induction h with
    | nil => exact ⟨[], .nil, .nil⟩
    | cons hac _ ih =>
        rcases hac with ⟨b, hab, hbc⟩
        rcases ih with ⟨bs, habs, hbcs⟩
        exact ⟨b :: bs, .cons hab habs, .cons hbc hbcs⟩
  · rintro ⟨bs, habs, hbcs⟩
    induction habs generalizing cs with
    | nil =>
        cases hbcs
        exact .nil
    | cons hab _ ih =>
        cases hbcs with
        | cons hbc hbcs => exact .cons ⟨_, hab, hbc⟩ (ih hbcs)

theorem exists_forall₂_iff {as : List α} :
    (exists bs, List.Forall₂ R as bs) ↔ ∀ a ∈ as, exists b, R a b := by
  induction as with
  | nil => simp
  | cons a as ih =>
      rw [List.forall_mem_cons, ← ih]
      constructor
      · rintro ⟨bs, h⟩
        cases h with
        | cons hab hrest => exact ⟨⟨_, hab⟩, _, hrest⟩
      · rintro ⟨⟨b, hab⟩, bs, hrest⟩
        exact ⟨b :: bs, .cons hab hrest⟩

theorem forall₂_congr_left {S : α → γ → Prop} {S' : β → γ → Prop} {as : List α} {bs : List β}
    (h : List.Forall₂ R as bs) (hiff : ∀ a b, R a b → ∀ c, S a c ↔ S' b c) {cs : List γ} :
    List.Forall₂ S as cs ↔ List.Forall₂ S' bs cs := by
  induction h generalizing cs with
  | nil => simp
  | cons hab _ ih =>
      cases cs with
      | nil => simp
      | cons c cs => rw [List.forall₂_cons, List.forall₂_cons, hiff _ _ hab, ih]

end

theorem isTable_iff {octets : List UInt8} {rows : List (List String)} :
    IsTable octets header rows ↔
      exists r rest, Csv.records octets = r :: rest ∧ r.texts r.fields.length = .ok header ∧
        List.Forall₂ (fun r row => r.texts header.length = .ok row) rest rows := by
  simp only [Csv.texts_eq_ok_iff, forall₂_and_iff]
  constructor
  · rintro ⟨first, rest, hfile, hheader, hrows, hlength⟩
    rw [Csv.file_iff] at hfile
    rcases List.map_eq_cons_iff.mp hfile with ⟨r, records, hrecords, rfl, rfl⟩
    rw [List.forall₂_map_left_iff] at hrows
    exact ⟨r, records, hrecords, ⟨hheader.length_eq.symm, hheader⟩, hrows, hlength⟩
  · rintro ⟨r, records, hrecords, ⟨-, hheader⟩, hrows, hlength⟩
    refine ⟨r.fields, records.map (·.fields), ?_, hheader, ?_, hlength⟩
    · rw [Csv.file_iff, hrecords]
      rfl
    · rw [List.forall₂_map_left_iff]
      exact hrows

theorem IsTable.unique {octets : List UInt8} {header' : List String}
    {rows rows' : List (List String)} (h : IsTable octets header rows)
    (h' : IsTable octets header' rows') : header = header' ∧ rows = rows' := by
  rcases isTable_iff.mp h with ⟨r, rest, hrecords, hheader, hrows⟩
  rcases isTable_iff.mp h' with ⟨r', rest', hrecords', hheader', hrows'⟩
  rw [hrecords] at hrecords'
  cases hrecords'
  rw [hheader] at hheader'
  cases hheader'
  refine ⟨rfl, Relator.RightUnique.forall₂ ?_ hrows hrows'⟩
  intro r row row' hrow hrow'
  rw [hrow] at hrow'
  exact Except.ok.inj hrow'

theorem header_eq_ok_iff {r : Csv.Record} {rest : List Csv.Record} :
    Trip.header (r :: rest) = .ok header ↔ r.texts r.fields.length = .ok header := by
  cases htexts : r.texts r.fields.length <;> simp [Trip.header, htexts]

theorem samples_of_records {octets : List UInt8} {r : Csv.Record} {rest : List Csv.Record}
    (hrecords : Csv.records octets = r :: rest) (hheader : r.texts r.fields.length = .ok header)
    (hcomplete : IsComplete header) :
    samples octets = rest.mapM (checkedSample header) := by
  unfold samples
  simp only [hrecords, header_eq_ok_iff.mpr hheader]
  show (if (lackingColumns header).isEmpty = true then rest.mapM (checkedSample header)
    else _) = _
  rw [if_pos (lackingColumns_isEmpty_iff.mpr hcomplete)]

theorem samples_eq_ok_iff {octets : List UInt8} {ss : List Sample} :
    samples octets = .ok ss ↔ exists header rows, IsTable octets header rows ∧ IsComplete header ∧
      List.Forall₂ (fun row s => IsDistinct header ∧ IsSample header row s) rows ss := by
  constructor
  · intro h
    unfold samples at h
    rcases Except.of_bind h with ⟨header, hheader, h⟩
    split at h
    · rename_i hlacking
      have hcomplete := lackingColumns_isEmpty_iff.mp hlacking
      cases hrecords : Csv.records octets with
      | nil =>
          rw [hrecords] at hheader
          cases hheader
          cases hlacking
      | cons r rest =>
          rw [hrecords] at hheader h
          rw [List.drop_one, List.tail_cons, Except.mapM_eq_ok_iff] at h
          simp only [checkedSample_eq_ok_iff hcomplete, forall₂_exists_iff] at h
          rcases h with ⟨rows, hrows, hsamples⟩
          have htable : IsTable octets header rows :=
            isTable_iff.mpr ⟨r, rest, hrecords, header_eq_ok_iff.mp hheader, hrows⟩
          exact ⟨header, rows, htable, hcomplete, hsamples⟩
    · cases h
  · rintro ⟨header, rows, htable, hcomplete, hsamples⟩
    rcases isTable_iff.mp htable with ⟨r, rest, hrecords, hheader, hrows⟩
    rw [samples_of_records hrecords hheader hcomplete, Except.mapM_eq_ok_iff]
    simp only [checkedSample_eq_ok_iff hcomplete, forall₂_exists_iff]
    exact ⟨rows, hrows, hsamples⟩

theorem IsTable.samples_eq_ok_iff {octets : List UInt8} {rows : List (List String)}
    (h : IsTable octets header rows) {ss : List Sample} :
    samples octets = .ok ss ↔ IsComplete header ∧
      List.Forall₂ (fun row s => IsDistinct header ∧ IsSample header row s) rows ss := by
  rw [Trip.samples_eq_ok_iff]
  constructor
  · rintro ⟨_, _, hfound, hall⟩
    rcases h.unique hfound with ⟨rfl, rfl⟩
    exact hall
  · intro hall
    exact ⟨header, rows, h, hall⟩

theorem IsTable.isRow {octets : List UInt8} {rows : List (List String)}
    (h : IsTable octets header rows) (hcomplete : IsComplete header) (hdistinct : IsDistinct header)
    (hrow : row ∈ rows) : IsRow header row := by
  rcases h with ⟨first, rest, -, -, -, hlength⟩
  exact ⟨hcomplete, hdistinct, hlength row hrow⟩

theorem exists_samples_iff {octets : List UInt8} :
    (exists ss, samples octets = .ok ss) ↔ exists header rows, IsTable octets header rows ∧
      IsComplete header ∧ ∀ row ∈ rows, IsDistinct header ∧ IsValid header row := by
  simp only [samples_eq_ok_iff]
  constructor
  · rintro ⟨ss, header, rows, htable, hcomplete, hall⟩
    refine ⟨header, rows, htable, hcomplete, ?_⟩
    intro row hrow
    rcases exists_forall₂_iff.mp ⟨ss, hall⟩ row hrow with ⟨s, hdistinct, hs⟩
    exact ⟨hdistinct, (htable.isRow hcomplete hdistinct hrow).isValid_iff.mpr ⟨s, hs⟩⟩
  · rintro ⟨header, rows, htable, hcomplete, hall⟩
    have hsamples : ∀ row ∈ rows, exists s, IsDistinct header ∧ IsSample header row s := by
      intro row hrow
      rcases hall row hrow with ⟨hdistinct, hvalid⟩
      rcases (htable.isRow hcomplete hdistinct hrow).isValid_iff.mp hvalid with ⟨s, hs⟩
      exact ⟨s, hdistinct, hs⟩
    rcases exists_forall₂_iff.mpr hsamples with ⟨ss, hss⟩
    exact ⟨ss, header, rows, htable, hcomplete, hss⟩

/-!
# Other columns, in another order
-/

section
variable {header' row' : List String} {rows rows' : List (List String)}

theorem Extends.isComplete_iff (h : Extends header rows header' rows') :
    IsComplete header' ↔ IsComplete header := by
  rcases h.names with ⟨others, hnames, hothers⟩
  apply forall₂_congr
  intro name hname
  rw [hnames.mem_iff, List.mem_append, or_iff_left (fun hin => hothers name hin hname)]

theorem Extends.isDistinct_iff (h : Extends header rows header' rows') :
    IsDistinct header' ↔ IsDistinct header := by
  rcases h.names with ⟨others, hnames, hothers⟩
  apply forall₂_congr
  intro name hname
  rw [hnames.count_eq, List.count_append,
    List.count_eq_zero_of_not_mem (fun hin => hothers name hin hname), Nat.add_zero]

theorem IsSample.of_has
    (hhas : ∀ name ∈ requiredColumns, ∀ value,
      Has header row name value → Has header' row' name value) {s : Sample}
    (h : IsSample header row s) : IsSample header' row' s where
  driver := hhas _ (by decide) _ h.driver
  ride := hhas _ (by decide) _ h.ride
  time := h.time.imp fun value htime => ⟨hhas _ (by decide) value htime.1, htime.2⟩
  lat := h.lat.imp fun value hlat => ⟨hhas _ (by decide) value hlat.1, hlat.2⟩
  lon := h.lon.imp fun value hlon => ⟨hhas _ (by decide) value hlon.1, hlon.2⟩
  speed := h.speed.imp fun value hspeed => ⟨hhas _ (by decide) value hspeed.1, hspeed.2⟩
  lat_range := h.lat_range
  lon_range := h.lon_range
  speed_nonneg := h.speed_nonneg

theorem Extends.samples_eq_ok_iff {octets octets' : List UInt8}
    (h : Extends header rows header' rows') (htable : IsTable octets header rows)
    (htable' : IsTable octets' header' rows') {ss : List Sample} :
    samples octets = .ok ss ↔ samples octets' = .ok ss := by
  rw [htable.samples_eq_ok_iff, htable'.samples_eq_ok_iff, h.isComplete_iff, h.isDistinct_iff]
  apply and_congr_right'
  apply forall₂_congr_left h.cells
  rintro row row' ⟨others, hcells, hothers⟩ s
  have hhas : ∀ name ∈ requiredColumns, ∀ value,
      Has header' row' name value ↔ Has header row name value := by
    intro name hname value
    unfold Has
    rw [hcells.mem_iff, List.mem_append, or_iff_left (fun hin => hothers _ hin hname)]
  apply and_congr_right'
  constructor
  · exact IsSample.of_has fun name hname value => (hhas name hname value).mpr
  · exact IsSample.of_has fun name hname value => (hhas name hname value).mp

end

/-- A file is read as the samples that its rows describe, one for each and in their order, if it is
a table with all required columns, none of them twice if there are rows, and if all rows can be
read; everything else is refused. Neither the order of the columns nor other ones matter. -/
theorem samples_iff_table (octets : List UInt8) :
    (∀ ss, samples octets = .ok ss ↔ exists header rows, IsTable octets header rows ∧
      IsComplete header ∧ (rows ≠ [] → IsDistinct header) ∧
        List.Forall₂ (IsSample header) rows ss) ∧
    ((exists ss, samples octets = .ok ss) ↔ exists header rows, IsTable octets header rows ∧
      IsComplete header ∧ ∀ row ∈ rows, IsDistinct header ∧ IsValid header row) ∧
    ((exists e, samples octets = .error e) ↔ ¬exists header rows, IsTable octets header rows ∧
      IsComplete header ∧ ∀ row ∈ rows, IsDistinct header ∧ IsValid header row) ∧
    (∀ octets' header rows header' rows', IsTable octets header rows →
      IsTable octets' header' rows' → Extends header rows header' rows' →
        ∀ ss, samples octets = .ok ss ↔ samples octets' = .ok ss) := by
  refine ⟨?_, exists_samples_iff, ?_, ?_⟩
  · intro ss
    have hrows : ∀ header : List String, ∀ rows : List (List String),
        (∀ row ∈ rows, IsDistinct header) ↔ (rows ≠ [] → IsDistinct header) := by
      intro header rows
      constructor
      · intro h hne
        rcases List.exists_mem_of_ne_nil rows hne with ⟨row, hrow⟩
        exact h row hrow
      · intro h row hrow
        exact h (List.ne_nil_of_mem hrow)
    simp only [samples_eq_ok_iff, List.forall₂_and_left, hrows]
  · rw [← exists_samples_iff]
    cases samples octets <;> simp
  · intro octets' header rows header' rows' htable htable' h ss
    exact h.samples_eq_ok_iff htable htable'

def plainHeader : List String := requiredColumns

def plainRow : List String := ["7", "r", "1970-01-01T00:00:00Z", "22.5", "88.25", "0"]

def plainFile : List UInt8 :=
  Utf8.encode "Driver ID,Rid,Ts,Lat,Lon,Speed\n7,r,1970-01-01T00:00:00Z,22.5,88.25,0"

def widerHeader : List String := ["Speed", "Note", "Driver ID", "Rid", "Ts", "Lat", "Lon"]

def widerRow : List String := ["0", "", "7", "r", "1970-01-01T00:00:00Z", "22.5", "88.25"]

def widerFile : List UInt8 :=
  Utf8.encode
    "Speed,Note,\"Driver ID\",Rid,Ts,Lat,Lon\r\n\r\n0,, 7 ,r,1970-01-01T00:00:00Z,22.5,88.25\r\n"

theorem isTable_plainFile : IsTable plainFile plainHeader [plainRow] :=
  ⟨plainHeader.map Utf8.encode, [plainRow.map Utf8.encode],
    (Csv.file_iff _ _).mpr (by decide +kernel), by decide +kernel, by decide +kernel, by decide⟩

theorem isTable_widerFile : IsTable widerFile widerHeader [widerRow] :=
  ⟨widerHeader.map Utf8.encode,
    [["0", "", " 7 ", "r", "1970-01-01T00:00:00Z", "22.5", "88.25"].map Utf8.encode],
    (Csv.file_iff _ _).mpr (by decide +kernel), by decide +kernel, by decide +kernel, by decide⟩

theorem extends_widerHeader : Extends plainHeader [plainRow] widerHeader [widerRow] where
  names := ⟨["Note"], by decide +kernel, by decide⟩
  cells := .cons ⟨[("Note", "")], by decide +kernel, by decide⟩ .nil

theorem samples_iff_table_wider :
    IsTable plainFile plainHeader [plainRow] ∧ IsTable widerFile widerHeader [widerRow] ∧
      Extends plainHeader [plainRow] widerHeader [widerRow] ∧
      exists s, samples plainFile = .ok [s] ∧ samples widerFile = .ok [s] ∧
        IsSample plainHeader plainRow s := by
  refine ⟨isTable_plainFile, isTable_widerFile, extends_widerHeader, ?_⟩
  rcases samples_iff_table plainFile with ⟨hsamples, -, -, hwider⟩
  have hone : (samples plainFile).toOption.map List.length = some 1 := by decide +kernel
  cases hfound : samples plainFile with
  | error e =>
      rw [hfound] at hone
      cases hone
  | ok ss =>
      rw [hfound] at hone
      rcases List.length_eq_one_iff.mp (Option.some.inj hone) with ⟨s, rfl⟩
      rcases (hsamples [s]).mp hfound with ⟨header, rows, htable, -, -, hrows⟩
      rcases htable.unique isTable_plainFile with ⟨rfl, rfl⟩
      refine ⟨s, rfl, ?_, ?_⟩
      · exact (hwider _ _ _ _ _ isTable_plainFile isTable_widerFile extends_widerHeader _).mp hfound
      · cases hrows with
        | cons hs _ => exact hs

end Trip
end TransitSim
