import Mathlib.Data.List.Basic
import TransitSim.Eta.Response
import TransitSim.Registry

/-!
# Responses record by record

A response is read as far as the records of the first entry for a vehicle, and each record is read
by itself: six of its members decide what snapshot it gives, or whether it gives one at all. Nothing
else that stands in a response counts, so that it can be altered without a trace.
-/

namespace TransitSim

open Calendar

namespace Json

/-!
# Altering a member
-/

def setMember (key : String) (value : Option Json) (members : List (String × Json)) :
    List (String × Json) :=
  match value with
  | some j => putMember key j members
  | none => members.filter (·.1 ≠ key)

def alter? (f : Option Json → Option Json) : List String → Option Json → Option Json
  | [], j => f j
  | key :: rest, some (.object members) =>
      some (.object (setMember key (alter? f rest (members.lookup key)) members))
  | _ :: _, j => j

def alter (f : Option Json → Option Json) (path : List String) (j : Json) : Json :=
  (alter? f path (some j)).getD j

def Apart (p q : List String) : Prop := ¬p <+: q ∧ ¬q <+: p

instance (p q : List String) : Decidable (Apart p q) :=
  inferInstanceAs (Decidable (¬p <+: q ∧ ¬q <+: p))

theorem find?_putMember (key : String) (value : Json) (members : Registry Json) (k : String) :
    Registry.find? (putMember key value members) k =
      if k = key then some value else members.find? k := by
  induction members with
  | nil => rw [putMember, Registry.find?_cons]
  | cons m rest ih =>
      rcases m with ⟨k', v⟩
      rw [putMember]
      split
      case isTrue heq =>
        subst heq
        by_cases hk : k = key
        · rw [Registry.find?_cons, if_pos hk, if_pos hk]
        · rw [Registry.find?_cons, Registry.find?_cons, if_neg hk, if_neg hk, if_neg hk]
      case isFalse hne =>
        split
        case isTrue => rw [Registry.find?_cons]
        case isFalse =>
          rw [Registry.find?_cons, Registry.find?_cons, ih]
          by_cases hk : k = k'
          · rw [if_pos hk, if_pos hk, if_neg fun heq => hne (heq.symm.trans hk)]
          · rw [if_neg hk, if_neg hk]

theorem find?_filter_ne (key : String) (members : Registry Json) (k : String) :
    Registry.find? (members.filter (·.1 ≠ key)) k =
      if k = key then none else members.find? k := by
  induction members with
  | nil => exact (ite_self none).symm
  | cons m rest ih =>
      rcases m with ⟨k', v⟩
      by_cases hk' : k' = key
      · rw [List.filter_cons_of_neg (by simpa using hk'), ih, Registry.find?_cons]
        by_cases hk : k = key
        · rw [if_pos hk, if_pos hk]
        · rw [if_neg hk, if_neg hk, if_neg fun heq => hk (heq.trans hk')]
      · rw [List.filter_cons_of_pos (by simpa using hk'), Registry.find?_cons,
          Registry.find?_cons, ih]
        by_cases hk : k = k'
        · rw [if_pos hk, if_pos hk, if_neg fun heq => hk' (hk.symm.trans heq)]
        · rw [if_neg hk, if_neg hk]

theorem lookup_setMember (key : String) (value : Option Json) (members : List (String × Json))
    (k : String) :
    (setMember key value members).lookup k = if k = key then value else members.lookup k := by
  cases value with
  | some j => exact find?_putMember key j members k
  | none => exact find?_filter_ne key members k

theorem alter?_cons_some (f : Option Json → Option Json) (key : String) (rest : List String)
    (j : Json) : alter? f (key :: rest) (some j) = some (alter f (key :: rest) j) := by
  cases j <;> rfl

end Json

namespace Response

open Json

/-!
# Paths to an altered member
-/

theorem bind_descend?_alter? (f : Option Json → Option Json) {p q : List String} (h : Apart p q)
    (j : Option Json) : (alter? f p j).bind (descend? q) = j.bind (descend? q) := by
  induction p generalizing q j with
  | nil => exact absurd List.nil_prefix h.1
  | cons key rest ih =>
      cases q with
      | nil => exact absurd List.nil_prefix h.2
      | cons key' rest' =>
          cases j with
          | none => rfl
          | some j =>
              cases j with
              | object members =>
                  show ((setMember key _ members).lookup key').bind (descend? rest') = _
                  rw [lookup_setMember]
                  by_cases hkey : key' = key
                  · subst hkey
                    have hrest : Apart rest rest' :=
                      ⟨fun hpre => h.1 (List.cons_prefix_cons.mpr ⟨rfl, hpre⟩),
                        fun hpre => h.2 (List.cons_prefix_cons.mpr ⟨rfl, hpre⟩)⟩
                    rw [if_pos rfl]
                    exact ih hrest (members.lookup key')
                  · rw [if_neg hkey]
                    rfl
              | _ => rfl

theorem descend?_alter (f : Option Json → Option Json) {p q : List String} (h : Apart p q)
    (j : Json) : descend? q (alter f p j) = descend? q j := by
  cases p with
  | nil => exact absurd List.nil_prefix h.1
  | cons key rest =>
      have hbind := bind_descend?_alter? f h (some j)
      rwa [alter?_cons_some] at hbind

theorem bind_descend?_alter?_self (f : Option Json → Option Json) {p : List String}
    {j : Option Json} {v : Json} (h : j.bind (descend? p) = some v) :
    (alter? f p j).bind (descend? p) = f (some v) := by
  induction p generalizing j with
  | nil =>
      have hself : ∀ o : Option Json, o.bind (descend? []) = o := by
        intro o
        cases o <;> rfl
      rw [hself] at h ⊢
      rw [h]
      rfl
  | cons key rest ih =>
      cases j with
      | none => cases h
      | some j =>
          cases j with
          | object members =>
              show ((setMember key _ members).lookup key).bind (descend? rest) = _
              rw [lookup_setMember, if_pos rfl]
              exact ih h
          | _ => cases h

theorem descend?_alter_self (f : Option Json → Option Json) {key : String} {rest : List String}
    {j v : Json} (h : descend? (key :: rest) j = some v) :
    descend? (key :: rest) (alter f (key :: rest) j) = f (some v) := by
  have hbind := bind_descend?_alter?_self f (p := key :: rest) (j := some j) h
  rwa [alter?_cons_some] at hbind

/-!
# Single records
-/

def number? (path : List String) (j : Json) : Option Float :=
  (descend? path j).bind Json.float?

def place? (record : Json) : Option Coordinate := do
  let lat ← number? ["stop", "coordinate", "lat"] record
  let lon ← number? ["stop", "coordinate", "lon"] record
  some ⟨lat, lon⟩

def IsTime : Json → Prop
  | .string s => (readStamp? s).isSome
  | .number n => exists ms, n.toInt? = some ms ∧
      Instant.firstSecond * 1000 ≤ ms ∧ ms < (Instant.lastSecond + 1) * 1000
  | _ => False

/-- Whether a record tells a place by two numbers, and a time. -/
structure IsWellFormed (record : Json) : Prop where
  lat : exists n, descend? ["stop", "coordinate", "lat"] record = some (.number n)
  lon : exists n, descend? ["stop", "coordinate", "lon"] record = some (.number n)
  eta : exists j, record.member? "eta" = some j ∧ IsTime j

def readPaths : List (List String) :=
  [["stop", "coordinate", "lat"], ["stop", "coordinate", "lon"], ["stop", "name"], ["eta"],
    ["delta"], ["status"]]

theorem isSome_ofMillis?_iff {ms : Int} :
    (Instant.ofMillis? ms).isSome ↔
      Instant.firstSecond * 1000 ≤ ms ∧ ms < (Instant.lastSecond + 1) * 1000 := by
  have hrange : (Instant.ofMillis? ms).isSome ↔
      Instant.firstSecond ≤ ms / 1000 ∧ ms / 1000 ≤ Instant.lastSecond := by
    rw [Instant.ofMillis?, Instant.inRange?, Option.isSome_ite]
  rw [hrange]
  generalize Instant.firstSecond = first
  generalize Instant.lastSecond = last
  omega

theorem isSome_time?_iff (j : Json) : (time? j).isSome ↔ IsTime j := by
  cases j with
  | number n =>
      cases hn : n.toInt? with
      | none => simp [time?, IsTime, hn]
      | some ms =>
          have hlast : (Instant.lastSecond + 1) * 1000 < 2 ^ 63 := by decide
          have htime : time? (.number n) =
              if ms < Nat.pow 2 63 then Instant.ofMillis? ms else none := by
            rw [time?, hn]
            rfl
          have hsome : IsTime (.number n) ↔ (Instant.ofMillis? ms).isSome := by
            rw [isSome_ofMillis?_iff, IsTime, hn]
            constructor
            · rintro ⟨ms', ⟨⟩, hms⟩
              exact hms
            · intro hms
              exact ⟨ms, rfl, hms⟩
          rw [htime, hsome]
          split
          · exact Iff.rfl
          · rename_i hgreat
            constructor
            · intro hnone
              cases hnone
            · intro hwithin
              have hless := (isSome_ofMillis?_iff.mp hwithin).2
              have hpower : ((Nat.pow 2 63 : Nat) : Int) = 2 ^ 63 := rfl
              omega
  | string s => exact Iff.rfl
  | _ => exact iff_of_false Bool.false_ne_true id

theorem isSome_number?_iff {path : List String} {j : Json} :
    (number? path j).isSome ↔ exists n, descend? path j = some (.number n) := by
  rw [number?]
  cases descend? path j with
  | none => simp
  | some found => cases found <;> simp [Json.float?]

theorem isSome_place?_iff {record : Json} :
    (place? record).isSome ↔
      (number? ["stop", "coordinate", "lat"] record).isSome ∧
        (number? ["stop", "coordinate", "lon"] record).isSome := by
  rw [place?]
  cases number? ["stop", "coordinate", "lat"] record with
  | none => simp
  | some lat => cases number? ["stop", "coordinate", "lon"] record <;> simp

theorem snapshot?_eq (record : Json) :
    snapshot? record = (place? record).bind fun c =>
      ((record.member? "eta").bind time?).map fun eta =>
        { key := c.key
          name := (descend? ["stop", "name"] record).bind Json.text?
          eta
          delta := ((record.member? "delta").bind Json.float?).getD 0
          status := status record } := by
  simp only [snapshot?, place?, number?, bind, Option.bind_assoc, Option.bind_some,
    Option.map_eq_bind]
  rfl

theorem isSome_snapshot?_iff (record : Json) :
    (snapshot? record).isSome ↔ IsWellFormed record := by
  have heta : ((record.member? "eta").bind time?).isSome ↔
      exists j, record.member? "eta" = some j ∧ IsTime j := by
    cases record.member? "eta" with
    | none => simp
    | some j => simp [isSome_time?_iff]
  have hparts : (snapshot? record).isSome ↔
      (place? record).isSome ∧ ((record.member? "eta").bind time?).isSome := by
    rw [snapshot?_eq]
    cases place? record with
    | none => simp
    | some c => simp only [Option.bind_some, Option.isSome_map, Option.isSome_some, true_and]
  rw [hparts, isSome_place?_iff, isSome_number?_iff, isSome_number?_iff, heta]
  constructor
  · rintro ⟨⟨hlat, hlon⟩, heta⟩
    exact ⟨hlat, hlon, heta⟩
  · rintro ⟨hlat, hlon, heta⟩
    exact ⟨⟨hlat, hlon⟩, heta⟩

theorem descend?_singleton (key : String) (j : Json) : descend? [key] j = j.member? key := by
  rw [descend?]
  cases j.member? key <;> rfl

theorem snapshot?_congr {record record' : Json}
    (h : ∀ path ∈ readPaths, descend? path record' = descend? path record) :
    snapshot? record' = snapshot? record := by
  have hmember : ∀ key, [key] ∈ readPaths → record'.member? key = record.member? key := by
    intro key hkey
    rw [← descend?_singleton, ← descend?_singleton, h [key] hkey]
  rw [snapshot?_eq, snapshot?_eq, place?, place?, number?, number?, number?, number?, status,
    status, h ["stop", "coordinate", "lat"] (by decide), h ["stop", "coordinate", "lon"] (by decide),
    h ["stop", "name"] (by decide), hmember "eta" (by decide), hmember "delta" (by decide),
    hmember "status" (by decide)]

/-!
# Lists of records
-/

/-- The snapshots of records, at most one of each. -/
def told (records : List Json) : List Snapshot :=
  records.flatMap fun record => (snapshot? record).toList

/-- Lists of records that differ in malformed ones, and in members that do not count. -/
inductive Revises : List Json → List Json → Prop
  | nil : Revises [] []
  | kept (record : Json) {records records' : List Json} (rest : Revises records records') :
      Revises (record :: records) (record :: records')
  | altered (record : Json) (f : Option Json → Option Json) {path : List String}
      {records records' : List Json} (apart : ∀ read ∈ readPaths, Apart path read)
      (rest : Revises records records') :
      Revises (record :: records) (record.alter f path :: records')
  | inserted {record : Json} {records records' : List Json} (malformed : ¬IsWellFormed record)
      (rest : Revises records records') : Revises records (record :: records')
  | deleted {record : Json} {records records' : List Json} (malformed : ¬IsWellFormed record)
      (rest : Revises records records') : Revises (record :: records) records'

theorem told_cons (record : Json) (records : List Json) :
    told (record :: records) = (snapshot? record).toList ++ told records :=
  List.flatMap_cons

theorem told_append (records records' : List Json) :
    told (records ++ records') = told records ++ told records' :=
  List.flatMap_append

theorem told_cons_of_malformed {record : Json} (h : ¬IsWellFormed record) (records : List Json) :
    told (record :: records) = told records := by
  have hnone : snapshot? record = none := by
    rw [← Option.not_isSome_iff_eq_none, isSome_snapshot?_iff]
    exact h
  rw [told_cons, hnone]
  rfl

theorem Revises.told_eq {records records' : List Json} (h : Revises records records') :
    told records' = told records := by
  induction h with
  | nil => rfl
  | kept record _ ih => rw [told_cons, told_cons, ih]
  | altered record f apart _ ih =>
      have hsame : snapshot? (record.alter f _) = snapshot? record :=
        snapshot?_congr fun read hread => descend?_alter f (apart read hread) record
      rw [told_cons, told_cons, ih, hsame]
  | inserted malformed _ ih => rw [told_cons_of_malformed malformed, ih]
  | deleted malformed _ ih => rw [told_cons_of_malformed malformed, ih]

/-!
# Entries
-/

def recordsPath : List String := ["vehicleInfo", "upcomingStops"]

def Names (vehicle : String) (entry : Json) : Prop :=
  entry.member? "vehicleNumber" = some (.string vehicle)

def Lists (vehicle : String) (response : Json) (records : List Json) : Prop :=
  exists before entry after, response = .array (before ++ entry :: after) ∧
    (∀ e ∈ before, ¬Names vehicle e) ∧ Names vehicle entry ∧
      descend? recordsPath entry = some (.array records)

/-- Lists of entries that differ in what does not count: entries for other vehicles in front of the
first one for a vehicle, entries behind it, and members that are not read. -/
inductive Edits (vehicle : String) : List Json → List Json → Prop
  | ahead {before before' : List Json} (rest : List Json) (old : ∀ e ∈ before, ¬Names vehicle e)
      (new : ∀ e ∈ before', ¬Names vehicle e) : Edits vehicle (before ++ rest) (before' ++ rest)
  | behind {entry : Json} (before after after' : List Json) (names : Names vehicle entry) :
      Edits vehicle (before ++ entry :: after) (before ++ entry :: after')
  | member (before : List Json) (entry : Json) (after : List Json) (f : Option Json → Option Json)
      {path : List String} (name : Apart path ["vehicleNumber"])
      (records : Apart path recordsPath) :
      Edits vehicle (before ++ entry :: after) (before ++ entry.alter f path :: after)
  | records (before : List Json) {entry : Json} (after : List Json) {records records' : List Json}
      (found : descend? recordsPath entry = some (.array records))
      (revises : Revises records records') :
      Edits vehicle (before ++ entry :: after)
        (before ++ entry.alter (fun _ => some (.array records')) recordsPath :: after)

section
variable {vehicle : String}

theorem isAbout_iff {entry : Json} : isAbout vehicle entry = true ↔ Names vehicle entry := by
  rw [isAbout, Names, decide_eq_true_iff]
  cases entry.member? "vehicleNumber" with
  | none => simp
  | some j => cases j <;> simp [Json.text?]

theorem stops?_eq_some_iff {response : Json} {records : List Json} :
    stops? vehicle response = some records ↔ Lists vehicle response records := by
  constructor
  · intro h
    rcases Option.bind_eq_some_iff.mp h with ⟨es, hes, h⟩
    rcases Option.bind_eq_some_iff.mp h with ⟨entry, hfind, h⟩
    rcases Option.bind_eq_some_iff.mp h with ⟨j, hj, hrecords⟩
    rcases List.find?_eq_some_iff_append.mp hfind with ⟨habout, before, after, rfl, hbefore⟩
    cases response with
    | array items =>
        cases hes
        cases j with
        | array found =>
            cases hrecords
            refine ⟨before, entry, after, rfl, fun e he hnames => ?_, isAbout_iff.mp habout, hj⟩
            have hother := hbefore e he
            rw [isAbout_iff.mpr hnames] at hother
            cases hother
        | _ => cases hrecords
    | _ => cases hes
  · rintro ⟨before, entry, after, rfl, hbefore, hnames, hrecords⟩
    have hfind : (before ++ entry :: after).find? (isAbout vehicle) = some entry := by
      refine List.find?_eq_some_iff_append.mpr
        ⟨isAbout_iff.mpr hnames, before, after, rfl, fun e he => ?_⟩
      cases habout : isAbout vehicle e with
      | false => rfl
      | true => exact absurd (isAbout_iff.mp habout) (hbefore e he)
    show ((before ++ entry :: after).find? (isAbout vehicle)).bind
      (fun entry => (descend? recordsPath entry).bind Json.items?) = _
    rw [hfind, Option.bind_some, hrecords]
    rfl

def toldBy (entry : Json) : List Snapshot :=
  told (((descend? recordsPath entry).bind Json.items?).getD [])

theorem snapshots_array (es : List Json) :
    snapshots vehicle (.array es) = ((es.find? (isAbout vehicle)).map toldBy).getD [] := by
  have hstops : stops? vehicle (.array es) =
      (es.find? (isAbout vehicle)).bind fun entry => (descend? recordsPath entry).bind items? := rfl
  rw [snapshots, hstops, List.filterMap_eq_flatMap_toList]
  cases es.find? (isAbout vehicle) with
  | none => rfl
  | some entry => rfl

theorem snapshots_of_lists {response : Json} {records : List Json}
    (h : Lists vehicle response records) : snapshots vehicle response = told records := by
  rw [snapshots, stops?_eq_some_iff.mpr h, List.filterMap_eq_flatMap_toList]
  rfl

theorem snapshots_eq_nil {response : Json} (h : ∀ records, ¬Lists vehicle response records) :
    snapshots vehicle response = [] := by
  cases hstops : stops? vehicle response with
  | none => rw [snapshots, hstops, Option.getD_none, List.filterMap_nil]
  | some records => exact absurd (stops?_eq_some_iff.mp hstops) (h records)

theorem snapshots_replace {entry entry' : Json}
    (habout : isAbout vehicle entry' = isAbout vehicle entry) (htold : toldBy entry' = toldBy entry)
    (before after : List Json) :
    snapshots vehicle (.array (before ++ entry' :: after)) =
      snapshots vehicle (.array (before ++ entry :: after)) := by
  rw [snapshots_array, snapshots_array, List.find?_append, List.find?_append]
  cases before.find? (isAbout vehicle) with
  | some e => rfl
  | none =>
      rw [List.find?_cons, List.find?_cons, habout]
      cases isAbout vehicle entry with
      | false => rfl
      | true =>
          show toldBy entry' = toldBy entry
          exact htold

theorem isAbout_alter {path : List String} (f : Option Json → Option Json)
    (h : Apart path ["vehicleNumber"]) (entry : Json) :
    isAbout vehicle (entry.alter f path) = isAbout vehicle entry := by
  rw [isAbout, isAbout, ← descend?_singleton, ← descend?_singleton, descend?_alter f h]

theorem find?_others {es : List Json} (h : ∀ e ∈ es, ¬Names vehicle e) :
    es.find? (isAbout vehicle) = none := by
  rw [List.find?_eq_none]
  intro e he habout
  exact h e he (isAbout_iff.mp habout)

theorem Edits.snapshots_eq {es es' : List Json} (h : Edits vehicle es es') :
    snapshots vehicle (.array es') = snapshots vehicle (.array es) := by
  cases h with
  | ahead rest old new =>
      rw [snapshots_array, snapshots_array, List.find?_append, List.find?_append, find?_others old,
        find?_others new]
  | behind before after after' names =>
      rw [snapshots_array, snapshots_array, List.find?_append, List.find?_append,
        List.find?_cons_of_pos (isAbout_iff.mpr names),
        List.find?_cons_of_pos (isAbout_iff.mpr names)]
  | member before entry after f name records =>
      refine snapshots_replace (isAbout_alter f name entry) ?_ before after
      rw [toldBy, toldBy, descend?_alter f records]
  | records before after found revises =>
      rename_i entry records records'
      refine snapshots_replace (isAbout_alter _ (by decide) entry) ?_ before after
      have hfound : descend? recordsPath
          (entry.alter (fun _ => some (.array records')) recordsPath) = some (.array records') :=
        descend?_alter_self (fun _ => some (.array records')) found
      rw [toldBy, toldBy, hfound, found]
      exact revises.told_eq

end

/-- A response gives nothing unless it is an array in which the first entry that names the vehicle
has an array of records. Then each well-formed record gives one snapshot, in order, and no other
record gives any. What does not count can be edited: malformed records, entries for other vehicles,
the entries behind the first one, and members that are not read. A record gives the same snapshot
wherever it is listed, whatever the other records are. -/
theorem snapshots_record_by_record :
    (∀ vehicle response,
      ((∀ records, ¬Lists vehicle response records) → snapshots vehicle response = []) ∧
        ∀ records, Lists vehicle response records →
          snapshots vehicle response = records.flatMap fun record => (snapshot? record).toList) ∧
      (∀ record, (snapshot? record).isSome ↔ IsWellFormed record) ∧
      (∀ vehicle es es', Edits vehicle es es' →
        snapshots vehicle (.array es') = snapshots vehicle (.array es)) ∧
      (∀ vehicle response response' before record record' after,
        Lists vehicle response (before ++ record :: after) →
          Lists vehicle response' (before ++ record' :: after) → exists front back,
            snapshots vehicle response = front ++ (snapshot? record).toList ++ back ∧
              snapshots vehicle response' = front ++ (snapshot? record').toList ++ back) ∧
      ∀ record, IsWellFormed record → exists s, snapshot? record = some s ∧
        ∀ vehicle response before after, Lists vehicle response (before ++ record :: after) →
          snapshots vehicle response = told before ++ s :: told after := by
  have hsplit : ∀ {vehicle response before record after},
      Lists vehicle response (before ++ record :: after) →
        snapshots vehicle response =
          told before ++ (snapshot? record).toList ++ told after := by
    intro vehicle response before record after h
    rw [snapshots_of_lists h, told_append, told_cons, List.append_assoc]
  refine ⟨?_, isSome_snapshot?_iff, fun vehicle es es' h => h.snapshots_eq, ?_, ?_⟩
  · intro vehicle response
    exact ⟨snapshots_eq_nil, fun records h => snapshots_of_lists h⟩
  · intro vehicle response response' before record record' after h h'
    exact ⟨told before, told after, hsplit h, hsplit h'⟩
  · intro record hrecord
    rcases Option.isSome_iff_exists.mp ((isSome_snapshot?_iff record).mpr hrecord) with ⟨s, hs⟩
    refine ⟨s, hs, fun vehicle response before after h => ?_⟩
    rw [hsplit h, hs, Option.toList_some, List.append_assoc]
    rfl

def atPier : Json :=
  .object [("eta", .number (.natural 0)), ("stop", .object [("coordinate", .object [
    ("lat", .number (.real 22.5)), ("lon", .number (.negative 88))])])]

def ferry : Json :=
  .object [("vehicleInfo", .object [("upcomingStops", .array [.null, atPier])]),
    ("vehicleNumber", .string "F")]

theorem isWellFormed_atPier : IsWellFormed atPier :=
  ⟨⟨_, rfl⟩, ⟨_, rfl⟩, ⟨_, rfl, 0, rfl, by decide, by decide⟩⟩

theorem lists_ferry (records after : List Json) :
    Lists "F" (.array ([] ++ ferry.alter (fun _ => some (.array records)) recordsPath :: after))
      records :=
  ⟨[], _, after, rfl, fun _ h => (List.not_mem_nil h).elim, rfl, rfl⟩

theorem snapshots_record_by_record_ferry :
    snapshots "F" .null = [] ∧
      exists s, snapshot? atPier = some s ∧ snapshots "F" (.array [ferry]) = [s] ∧
        snapshots "F" (.array ([] ++
          ferry.alter (fun _ => some (.array [atPier])) recordsPath :: [])) = [s] ∧
        exists front back,
          snapshots "F" (.array ([] ++ ferry.alter (fun _ => some (.array [.null, atPier]))
            recordsPath :: [.null])) = front ++ [] ++ back ∧
          snapshots "F" (.array ([] ++ ferry.alter (fun _ => some (.array [atPier, atPier]))
            recordsPath :: [.null])) = front ++ [s] ++ back := by
  rcases snapshots_record_by_record with ⟨hlists, hformed, hedits, hremaining, hrecord⟩
  have hnone : ∀ records, ¬Lists "F" .null records := by
    rintro records ⟨before, entry, after, hnull, -⟩
    cases hnull
  rcases hrecord atPier isWellFormed_atPier with ⟨s, hs, hwhere⟩
  have hferry := hwhere "F" (.array [ferry]) [.null] []
    ⟨[], ferry, [], rfl, fun _ h => (List.not_mem_nil h).elim, rfl, rfl⟩
  have hrevises : Revises [.null, atPier] [atPier] :=
    .deleted (fun h => nomatch h.lat) (.kept atPier .nil)
  have hfound : descend? recordsPath ferry = some (.array [.null, atPier]) := rfl
  have hedited := hedits "F" _ _ (.records [] [] hfound hrevises)
  have hother := hremaining "F" _ _ [] .null atPier [atPier] (lists_ferry [.null, atPier] [.null])
    (lists_ferry [atPier, atPier] [.null])
  rw [hs] at hother
  exact ⟨(hlists "F" .null).1 hnone, s, hs, hferry, hedited.trans hferry, hother⟩

end Response
end TransitSim
