import Mathlib.Data.List.Induction
import TransitSim.Proofs.Json.Reading
import TransitSim.Proofs.Route.Stops

/-!
# What is read of a document

The features of a document are gone through once. The positions that count are those of the first
line and of all points: the first one that is not on the earth is the error, and without one the
document is a route if its first line is long enough. Its stops are its points, numbered in order.
A position that has fewer than two numbers is none, and a document with one has no features.
-/

namespace TransitSim

open GeoJson

namespace Route

/-!
# Lines and points
-/

def line? (f : Feature) : Option (List Position) :=
  match f.geometry with
  | some (.lineString positions) => some positions
  | _ => none

def point? (f : Feature) : Option Position :=
  match f.geometry with
  | some (.point p) => some p
  | _ => none

def firstLine? (fs : List Feature) : Option (List Position) :=
  fs.findSome? line?

/-- The points among features, with where they lie. -/
def pointsIn (fs : List Feature) : List (Feature × Position) :=
  fs.filterMap fun f => (point? f).map fun p => (f, p)

def place (p : Position) : Coordinate :=
  ⟨p.lat, p.lon⟩

def IsOnEarth (p : Position) : Prop :=
  (-90 ≤ p.lat ∧ p.lat ≤ 90) ∧ -180 ≤ p.lon ∧ p.lon ≤ 180

/-- Whether all positions that count are on the earth. -/
structure IsSound (fs : List Feature) : Prop where
  line : ∀ line, firstLine? fs = some line → ∀ p ∈ line, IsOnEarth p
  points : ∀ f p, (f, p) ∈ pointsIn fs → IsOnEarth p

def counting (before : List Feature) (f : Feature) : List Position :=
  match f.geometry, firstLine? before with
  | some (.lineString positions), none => positions
  | some (.point p), _ => [p]
  | _, _ => []

def IsFirstFault (fs : List Feature) (p : Position) : Prop :=
  exists before f after sound rest, fs = before ++ f :: after ∧ IsSound before ∧
    counting before f = sound ++ p :: rest ∧ (∀ q ∈ sound, IsOnEarth q) ∧ ¬ IsOnEarth p

/-!
# Stops
-/

inductive Says : Option Json → Option String → Prop
  | missing : Says none none
  | null : Says (some .null) none
  | text (s : String) : Says (some (.string s)) (some s)
  | other (j : Json) : j ≠ .null → (∀ s, j ≠ .string s) → Says (some j) (some j.compactText)

structure IsStopAt (point : Feature × Position) (stop : Stop) : Prop where
  coordinate : stop.coordinate = place point.2
  name : exists said, Says (point.1.properties.lookup "Stop Name") said ∧
    stop.name = said.getD ("Stop " ++ toString stop.sequence)
  code : Says (point.1.properties.lookup "Stop Code") stop.code

def stopAt (before : Nat) (point : Feature × Position) : Stop where
  coordinate := place point.2
  name := (propertyText? point.1 "Stop Name").getD ("Stop " ++ toString (before + 1))
  code := propertyText? point.1 "Stop Code"
  sequence := before + 1

theorem says_propertyText (f : Feature) (name : String) :
    Says (f.properties.lookup name) (propertyText? f name) := by
  simp only [propertyText?]
  split
  · rename_i hmissing
    rw [hmissing]
    exact .missing
  · rename_i hnull
    rw [hnull]
    exact .null
  · rename_i s hstring
    rw [hstring]
    exact .text s
  · rename_i j hnull hstring hother
    rw [hother]
    exact .other j hnull hstring

theorem isStopAt_stopAt (before : Nat) (point : Feature × Position) :
    IsStopAt point (stopAt before point) where
  coordinate := rfl
  name := ⟨_, says_propertyText point.1 "Stop Name", rfl⟩
  code := says_propertyText point.1 "Stop Code"

theorem said_eq {f : Feature} {name : String} {said : Option String}
    (h : Says (f.properties.lookup name) said) : said = propertyText? f name := by
  simp only [propertyText?]
  generalize f.properties.lookup name = value at h
  cases h with
  | missing | null | text => rfl
  | other j hnull hstring =>
    cases j with
    | null => exact absurd rfl hnull
    | string s => exact absurd rfl (hstring s)
    | bool | number | array | object => rfl

theorem IsStopAt.eq_stopAt {point : Feature × Position} {stop : Stop} {before : Nat}
    (h : IsStopAt point stop) (hsequence : stop.sequence = before + 1) :
    stop = stopAt before point := by
  rcases h with ⟨hcoordinate, ⟨said, hsaid, hname⟩, hcode⟩
  rcases stop with ⟨coordinate, name, code, sequence⟩
  dsimp only at hcoordinate hname hcode hsequence
  rw [stopAt, hcoordinate, hname, said_eq hsaid, said_eq hcode, hsequence]

/-!
# Coordinates
-/

variable {p : Position} {f : Feature} {fs : List Feature}

theorem onEarth_place_iff : (place p).onEarth = true ↔ IsOnEarth p :=
  Coordinate.onEarth_iff

theorem coordinate_of_isOnEarth (h : IsOnEarth p) : coordinate p = .ok (place p) := by
  rw [coordinate, Coordinate.checked]
  exact if_pos (onEarth_place_iff.mpr h)

theorem coordinate_of_not_isOnEarth (h : ¬ IsOnEarth p) :
    coordinate p = .error (.offEarth p.lat p.lon) := by
  rw [coordinate, Coordinate.checked]
  exact if_neg (fun hplace => h (onEarth_place_iff.mp hplace))

theorem coordinates_of_isOnEarth {line : List Position} (h : ∀ p ∈ line, IsOnEarth p) :
    line.mapM coordinate = .ok (line.map place) := by
  rw [Except.mapM_eq_ok_iff, List.forall₂_map_right_iff, List.forall₂_same]
  intro p hp
  exact coordinate_of_isOnEarth (h p hp)

theorem coordinates_of_fault {sound rest : List Position} (hsound : ∀ q ∈ sound, IsOnEarth q)
    (hp : ¬ IsOnEarth p) :
    (sound ++ p :: rest).mapM coordinate = .error (.offEarth p.lat p.lon) := by
  apply Except.mapM_eq_error
  · intro q hq
    exact ⟨place q, coordinate_of_isOnEarth (hsound q hq)⟩
  · exact coordinate_of_not_isOnEarth hp

theorem stop_of_isOnEarth (f : Feature) (before : Nat) (h : IsOnEarth p) :
    stop f p (before + 1) = .ok (stopAt before (f, p)) := by
  rw [stop, coordinate_of_isOnEarth h]
  rfl

theorem stop_of_not_isOnEarth (f : Feature) (sequence : Nat) (h : ¬ IsOnEarth p) :
    stop f p sequence = .error (.offEarth p.lat p.lon) := by
  rw [stop, coordinate_of_not_isOnEarth h]
  rfl

/-!
# Features one after another
-/

theorem firstLine_append_singleton :
    firstLine? (fs ++ [f]) = (firstLine? fs).or (line? f) := by
  rw [firstLine?, List.findSome?_append]
  simp [firstLine?]

theorem pointsIn_append_singleton :
    pointsIn (fs ++ [f]) = pointsIn fs ++ ((point? f).map fun p => (f, p)).toList := by
  rw [pointsIn, List.filterMap_append]
  cases h : point? f <;> simp [h, pointsIn]

theorem isSound_nil : IsSound [] where
  line := by
    intro line h
    cases h
  points := by
    intro f p h
    cases h

def found (fs : List Feature) : Sketch where
  line := (firstLine? fs).map fun line => line.map place
  stops := (pointsIn fs).mapIdx stopAt

theorem found_append_singleton :
    found (fs ++ [f]) =
      { line := ((firstLine? fs).or (line? f)).map fun line => line.map place
        stops := (found fs).stops ++
          ((point? f).map fun p => stopAt (found fs).stops.length (f, p)).toList } := by
  rw [found, firstLine_append_singleton, pointsIn_append_singleton]
  cases hpoint : point? f with
  | none => simp [found]
  | some p => simp [found, List.mapIdx_append]

theorem add_cases (fs : List Feature) (f : Feature) :
    (firstLine? fs = none ∧ line? f = some (counting fs f) ∧ point? f = none ∧
        (found fs).add f = do
          let points ← (counting fs f).mapM coordinate
          .ok ⟨some points, (found fs).stops⟩) ∨
      (exists p, line? f = none ∧ point? f = some p ∧ counting fs f = [p] ∧
        (found fs).add f = do
          let stop ← stop f p ((found fs).stops.length + 1)
          .ok ⟨(found fs).line, (found fs).stops ++ [stop]⟩) ∨
      ((firstLine? fs).or (line? f) = firstLine? fs ∧ point? f = none ∧ counting fs f = [] ∧
        (found fs).add f = .ok (found fs)) := by
  rcases f with ⟨geometry, properties⟩
  rcases geometry with - | g
  · exact Or.inr (Or.inr ⟨Option.or_none, rfl, rfl, rfl⟩)
  · cases g with
    | point p => exact Or.inr (Or.inl ⟨p, rfl, rfl, rfl, rfl⟩)
    | lineString line =>
        cases hfirst : firstLine? fs with
        | none =>
          refine Or.inl ⟨rfl, ?_, rfl, ?_⟩
          · simp only [counting, hfirst, line?]
          · simp [Sketch.add, counting, hfirst, found]
        | some first =>
          refine Or.inr (Or.inr ⟨Option.some_or, rfl, ?_, ?_⟩)
          · simp only [counting, hfirst]
          · simp [Sketch.add, hfirst, found]
    | multiPoint | multiLineString | polygon | multiPolygon | collection =>
        exact Or.inr (Or.inr ⟨Option.or_none, rfl, rfl, rfl⟩)

theorem mem_counting_iff :
    p ∈ counting fs f ↔
      (firstLine? fs = none ∧ exists line, line? f = some line ∧ p ∈ line) ∨ point? f = some p := by
  rcases add_cases fs f with ⟨hnone, hline, hpoint, -⟩ | ⟨q, hline, hpoint, hcounting, -⟩ |
    ⟨hline, hpoint, hcounting, -⟩
  · simp [hnone, hline, hpoint]
  · simp [hline, hpoint, hcounting, eq_comm]
  · rw [hcounting, hpoint]
    refine iff_of_false List.not_mem_nil ?_
    rintro (⟨hnone, line, hfound, -⟩ | h)
    · rw [hnone, hfound] at hline
      cases hline
    · cases h

theorem isSound_append_singleton_iff :
    IsSound (fs ++ [f]) ↔ IsSound fs ∧ ∀ p ∈ counting fs f, IsOnEarth p := by
  constructor
  · intro h
    refine ⟨⟨?_, ?_⟩, ?_⟩
    · intro line hline
      exact h.line line (by rw [firstLine_append_singleton, hline, Option.some_or])
    · intro g p hmem
      apply h.points g p
      rw [pointsIn_append_singleton]
      exact List.mem_append_left _ hmem
    · intro p hmem
      rcases mem_counting_iff.mp hmem with ⟨hnone, line, hline, hp⟩ | hpoint
      · refine h.line line ?_ p hp
        rw [firstLine_append_singleton, hnone, hline, Option.none_or]
      · apply h.points f p
        rw [pointsIn_append_singleton, hpoint]
        exact List.mem_append_right _ (List.mem_singleton.mpr rfl)
  · rintro ⟨h, hcounting⟩
    refine ⟨?_, ?_⟩
    · intro line hline p hp
      rw [firstLine_append_singleton] at hline
      rcases Option.or_eq_some_iff.mp hline with hline | ⟨hnone, hline⟩
      · exact h.line line hline p hp
      · exact hcounting p (mem_counting_iff.mpr (Or.inl ⟨hnone, line, hline, hp⟩))
    · intro g p hmem
      rw [pointsIn_append_singleton, List.mem_append] at hmem
      rcases hmem with hmem | hmem
      · exact h.points g p hmem
      · rcases Option.map_eq_some_iff.mp (Option.mem_toList.mp hmem) with ⟨q, hq, hpair⟩
        cases hpair
        exact hcounting p (mem_counting_iff.mpr (Or.inr hq))

theorem add_of_sound (h : ∀ p ∈ counting fs f, IsOnEarth p) :
    (found fs).add f = .ok (found (fs ++ [f])) := by
  rw [found_append_singleton]
  rcases add_cases fs f with ⟨hnone, hline, hpoint, hadd⟩ | ⟨p, hline, hpoint, hcounting, hadd⟩ |
    ⟨hline, hpoint, -, hadd⟩
  · rw [hadd, coordinates_of_isOnEarth h, hnone, hline, hpoint]
    simp only [Option.none_or, Option.map_some, Option.map_none, Option.toList_none,
      List.append_nil]
    rfl
  · have hp : IsOnEarth p := h p (by rw [hcounting]; exact List.mem_singleton.mpr rfl)
    rw [hadd, stop_of_isOnEarth f _ hp, hline, hpoint, Option.or_none]
    rfl
  · rw [hadd, hline, hpoint]
    simp [found]

theorem add_of_fault {sound rest : List Position} (hcounting : counting fs f = sound ++ p :: rest)
    (hsound : ∀ q ∈ sound, IsOnEarth q) (hp : ¬ IsOnEarth p) :
    (found fs).add f = .error (.offEarth p.lat p.lon) := by
  rcases add_cases fs f with ⟨-, -, -, hadd⟩ | ⟨q, -, -, hpoint, hadd⟩ | ⟨-, -, hnothing, -⟩
  · rw [hadd, hcounting, coordinates_of_fault hsound hp]
    rfl
  · have hmem : p ∈ [q] := by
      rw [← hpoint, hcounting]
      exact List.mem_append_right _ List.mem_cons_self
    rw [hadd, ← List.mem_singleton.mp hmem, stop_of_not_isOnEarth f _ hp]
    rfl
  · rw [hnothing] at hcounting
    simp at hcounting

/-!
# All features
-/

theorem ofFeatures_of_sound (h : IsSound fs) : Sketch.ofFeatures fs = .ok (found fs) := by
  induction fs using List.reverseRecOn with
  | nil => rfl
  | append_singleton fs f ih =>
      rcases isSound_append_singleton_iff.mp h with ⟨hfs, hf⟩
      rw [Sketch.ofFeatures] at ih ⊢
      rw [List.foldlM_append, ih hfs]
      change (found fs).add f >>= pure = _
      rw [bind_pure]
      exact add_of_sound hf

theorem ofFeatures_of_firstFault (h : IsFirstFault fs p) :
    Sketch.ofFeatures fs = .error (.offEarth p.lat p.lon) := by
  rcases h with ⟨before, f, after, sound, rest, rfl, hbefore, hcounting, hsound, hp⟩
  have hfirst := ofFeatures_of_sound hbefore
  rw [Sketch.ofFeatures] at hfirst ⊢
  rw [List.foldlM_append, hfirst]
  change (f :: after).foldlM Sketch.add (found before) = _
  rw [List.foldlM_cons, add_of_fault hcounting hsound hp]
  rfl

theorem onEarth_or_first (ps : List Position) :
    (∀ p ∈ ps, IsOnEarth p) ∨
      exists sound p rest, ps = sound ++ p :: rest ∧ (∀ q ∈ sound, IsOnEarth q) ∧
        ¬ IsOnEarth p := by
  induction ps with
  | nil => exact Or.inl (fun p h => absurd h List.not_mem_nil)
  | cons p rest ih =>
      by_cases hp : IsOnEarth p
      · rcases ih with hall | ⟨sound, q, rest, rfl, hsound, hq⟩
        · exact Or.inl (List.forall_mem_cons.mpr ⟨hp, hall⟩)
        · exact Or.inr ⟨p :: sound, q, rest, rfl, List.forall_mem_cons.mpr ⟨hp, hsound⟩, hq⟩
      · exact Or.inr ⟨[], p, rest, rfl, fun q h => absurd h List.not_mem_nil, hp⟩

theorem IsFirstFault.append_singleton (h : IsFirstFault fs p) (f : Feature) :
    IsFirstFault (fs ++ [f]) p := by
  rcases h with ⟨before, g, after, sound, rest, rfl, hfault⟩
  exact ⟨before, g, after ++ [f], sound, rest, by simp, hfault⟩

theorem isSound_or_firstFault (fs : List Feature) :
    IsSound fs ∨ exists p, IsFirstFault fs p := by
  induction fs using List.reverseRecOn with
  | nil => exact Or.inl isSound_nil
  | append_singleton fs f ih =>
      rcases ih with hfs | ⟨p, hfault⟩
      · rcases onEarth_or_first (counting fs f) with hf | ⟨sound, p, rest, hcounting, hfault⟩
        · exact Or.inl (isSound_append_singleton_iff.mpr ⟨hfs, hf⟩)
        · exact Or.inr ⟨p, fs, f, [], sound, rest, rfl, hfs, hcounting, hfault⟩
      · exact Or.inr ⟨p, hfault.append_singleton f⟩

/-!
# Routes
-/

/-- Whether a route and stops are what features say: the places of the first line, and the points in
order, numbered from one on. -/
structure IsReading (fs : List Feature) (route : Route) (stops : List Stop) : Prop where
  sound : IsSound fs
  line : exists line, firstLine? fs = some line ∧ 2 ≤ line.length ∧
    route.points = line.map place ∧
    route.lengths = Path.measured Sphere.distance (line.map place)
  numbers : stops.map (·.sequence) = List.range' 1 stops.length
  stops : List.Forall₂ IsStopAt (pointsIn fs) stops

/-- Why features are no route. That there is no line, or just a short one, comes last. -/
inductive IsRefusal (fs : List Feature) : Error → Prop
  | position {p : Position} : IsFirstFault fs p → IsRefusal fs (.offEarth p.lat p.lon)
  | noLine : IsSound fs → firstLine? fs = none → IsRefusal fs (.route .noLine)
  | tooFewPoints {line : List Position} : IsSound fs → firstLine? fs = some line →
      line.length < 2 → IsRefusal fs (.route (.tooFewPoints line.length))

theorem ofPoints_of_two {line : List Position} (h : 2 ≤ line.length) :
    exists route, ofPoints (line.map place) = .ok route ∧ route.points = line.map place ∧
      route.lengths = Path.measured Sphere.distance (line.map place) := by
  rw [← List.length_map place] at h
  rw [ofPoints, Path.ofPoints?, dif_pos h]
  exact ⟨_, rfl, rfl, rfl⟩

theorem ofPoints_of_fewer {line : List Position} (h : line.length < 2) :
    ofPoints (line.map place) = .error (.route (.tooFewPoints line.length)) := by
  rw [← List.length_map place] at h
  rw [ofPoints, Path.ofPoints?, dif_neg (Nat.not_le.mpr h), List.length_map]

theorem numbers_found (fs : List Feature) :
    (found fs).stops.map (·.sequence) = List.range' 1 (found fs).stops.length := by
  apply List.ext_getElem
  · simp
  · intro i hi hj
    simp [found, stopAt, Nat.add_comm]

theorem forall₂_found (fs : List Feature) :
    List.Forall₂ IsStopAt (pointsIn fs) (found fs).stops := by
  rw [List.forall₂_iff_get]
  refine ⟨by simp [found], ?_⟩
  intro i hi hj
  simp only [found, List.get_eq_getElem, List.getElem_mapIdx]
  exact isStopAt_stopAt i _

theorem stops_eq_found {stops : List Stop}
    (hnumbers : stops.map (·.sequence) = List.range' 1 stops.length)
    (hstops : List.Forall₂ IsStopAt (pointsIn fs) stops) : stops = (found fs).stops := by
  rcases List.forall₂_iff_get.mp hstops with ⟨hlength, hall⟩
  apply List.ext_getElem
  · simp [found, hlength]
  · intro i hi hj
    have hpoint : i < (pointsIn fs).length := by omega
    have hsequence : stops[i].sequence = i + 1 := by
      have hget := congrArg (fun numbers : List Nat => numbers[i]?) hnumbers
      simpa [hi, Nat.add_comm] using hget
    simp only [found, List.getElem_mapIdx]
    exact (hall i hpoint hi).eq_stopAt hsequence

/-!
# Texts
-/

variable {text : String}

theorem featuresOfText_of_json {j : Json} (hj : Json.ofText? text = some j)
    (hfs : (Document.ofJson j).bind Document.features = .ok fs) :
    featuresOfText text = .ok fs := by
  simp only [featuresOfText, Document.ofText, hj, hfs]

theorem ofText_of_firstFault (hfs : featuresOfText text = .ok fs) (h : IsFirstFault fs p) :
    (ofText text).2 = .error (.offEarth p.lat p.lon) := by
  simp only [ofText, hfs, ofFeatures, ofFeatures_of_firstFault h]

theorem ofText_of_noLine (hfs : featuresOfText text = .ok fs) (h : IsSound fs)
    (hline : firstLine? fs = none) : (ofText text).2 = .error (.route .noLine) := by
  simp only [ofText, hfs, ofFeatures, ofFeatures_of_sound h, found, hline, Option.map_none]

theorem ofText_of_line {line : List Position} (hfs : featuresOfText text = .ok fs)
    (h : IsSound fs) (hline : firstLine? fs = some line) :
    (ofText text).2 = (ofPoints (line.map place)).map fun route => (route, (found fs).stops) := by
  simp only [ofText, hfs, ofFeatures, ofFeatures_of_sound h, found, hline, Option.map_some]

theorem ofText_of_isReading {route : Route} {stops : List Stop}
    (hfs : featuresOfText text = .ok fs) (h : IsReading fs route stops) :
    (ofText text).2 = .ok (route, stops) := by
  rcases h with ⟨hsound, ⟨line, hline, htwo, hpoints, hlengths⟩, hnumbers, hstops⟩
  rcases ofPoints_of_two htwo with ⟨route', hroute', hpoints', hlengths'⟩
  have hsame : route' = route := by
    rcases route with ⟨points, lengths⟩
    rcases route' with ⟨points', lengths'⟩
    dsimp only at hpoints hlengths hpoints' hlengths'
    subst hpoints hlengths hpoints' hlengths'
    rfl
  rw [ofText_of_line hfs hsound hline, hroute', hsame, stops_eq_found hnumbers hstops]
  rfl

theorem ofText_of_isRefusal {e : Error} (hfs : featuresOfText text = .ok fs)
    (h : IsRefusal fs e) : (ofText text).2 = .error e := by
  cases h with
  | position hfault => exact ofText_of_firstFault hfs hfault
  | noLine hsound hline => exact ofText_of_noLine hfs hsound hline
  | tooFewPoints hsound hline hshort =>
      rw [ofText_of_line hfs hsound hline, ofPoints_of_fewer hshort]
      rfl

theorem exists_isReading_iff (fs : List Feature) :
    (exists route stops, IsReading fs route stops) ↔
      IsSound fs ∧ exists line, firstLine? fs = some line ∧ 2 ≤ line.length := by
  constructor
  · rintro ⟨route, stops, h⟩
    rcases h.line with ⟨line, hline, htwo, -⟩
    exact ⟨h.sound, line, hline, htwo⟩
  · rintro ⟨hsound, line, hline, htwo⟩
    rcases ofPoints_of_two htwo with ⟨route, -, hpoints, hlengths⟩
    exact ⟨route, (found fs).stops, hsound, ⟨line, hline, htwo, hpoints, hlengths⟩,
      numbers_found fs, forall₂_found fs⟩

theorem isReading_or_isRefusal (fs : List Feature) :
    (exists route stops, IsReading fs route stops) ∨ exists e, IsRefusal fs e := by
  rcases isSound_or_firstFault fs with hsound | ⟨p, hfault⟩
  · cases hline : firstLine? fs with
    | none => exact Or.inr ⟨_, .noLine hsound hline⟩
    | some line =>
        by_cases htwo : 2 ≤ line.length
        · exact Or.inl ((exists_isReading_iff fs).mpr ⟨hsound, line, hline, htwo⟩)
        · exact Or.inr ⟨_, .tooFewPoints hsound hline (Nat.not_le.mp htwo)⟩
  · exact Or.inr ⟨_, .position hfault⟩

theorem ofText_eq_ok_iff {route : Route} {stops : List Stop}
    (hfs : featuresOfText text = .ok fs) :
    (ofText text).2 = .ok (route, stops) ↔ IsReading fs route stops := by
  constructor
  · intro h
    rcases isReading_or_isRefusal fs with ⟨route', stops', hreading⟩ | ⟨e, hrefusal⟩
    · rw [ofText_of_isReading hfs hreading] at h
      cases h
      exact hreading
    · rw [ofText_of_isRefusal hfs hrefusal] at h
      cases h
  · exact ofText_of_isReading hfs

theorem ofText_eq_error_iff {e : Error} (hfs : featuresOfText text = .ok fs) :
    (ofText text).2 = .error e ↔ IsRefusal fs e := by
  constructor
  · intro h
    rcases isReading_or_isRefusal fs with ⟨route, stops, hreading⟩ | ⟨e', hrefusal⟩
    · rw [ofText_of_isReading hfs hreading] at h
      cases h
    · rw [ofText_of_isRefusal hfs hrefusal] at h
      cases h
      exact hrefusal
  · exact ofText_of_isRefusal hfs

theorem IsReading.of_same {fs' : List Feature} {route : Route} {stops : List Stop}
    (hline : firstLine? fs' = firstLine? fs) (hpoints : pointsIn fs' = pointsIn fs)
    (h : IsReading fs route stops) : IsReading fs' route stops := by
  rcases h with ⟨⟨hsoundLine, hsoundPoints⟩, hfirst, hnumbers, hstops⟩
  rw [← hline] at hsoundLine hfirst
  rw [← hpoints] at hsoundPoints hstops
  exact ⟨⟨hsoundLine, hsoundPoints⟩, hfirst, hnumbers, hstops⟩

/-- What is read of a document is the first line and the points, wherever they stand and whatever
else there is; a document that is refused is refused for the first position that counts and is not
on the earth, and only without one for its line. -/
theorem reading_of_text (h : featuresOfText text = .ok fs) :
    ((exists route stops, (ofText text).2 = .ok (route, stops)) ↔
        IsSound fs ∧ exists line, firstLine? fs = some line ∧ 2 ≤ line.length) ∧
      (∀ route stops, (ofText text).2 = .ok (route, stops) ↔ IsReading fs route stops) ∧
      (∀ e, (ofText text).2 = .error e ↔ IsRefusal fs e) ∧
      ∀ text' fs', featuresOfText text' = .ok fs' → firstLine? fs' = firstLine? fs →
        pointsIn fs' = pointsIn fs →
        ∀ read, (ofText text').2 = .ok read ↔ (ofText text).2 = .ok read := by
  refine ⟨?_, fun route stops => ofText_eq_ok_iff h, fun e => ofText_eq_error_iff h, ?_⟩
  · simp only [ofText_eq_ok_iff h]
    exact exists_isReading_iff fs
  · intro text' fs' h' hline hpoints read
    rcases read with ⟨route, stops⟩
    rw [ofText_eq_ok_iff h, ofText_eq_ok_iff h']
    exact ⟨IsReading.of_same hline.symm hpoints.symm, IsReading.of_same hline hpoints⟩

def shaped (kind : String) (coordinates properties : Json) : Json :=
  .object
    [("geometry", .object [("coordinates", coordinates), ("type", .string kind)]),
      ("properties", properties), ("type", .string "Feature")]

def lonLat (lon lat : Nat) : Json :=
  .array [.ofNat lon, .ofNat lat]

def detour : Json :=
  .object
    [("features", .array
        [shaped "Point" (lonLat 2 1)
          (.object [("Stop Code", .ofNat 42), ("Stop Name", .string "Pier")]),
        .object [("geometry", .null), ("type", .string "Feature")],
        shaped "LineString" (.array [lonLat 0 0, lonLat 2 1]) .null,
        shaped "LineString" (.array [lonLat 500 0]) .null,
        shaped "Point" (lonLat 0 0) (.object [("Stop Name", .null)])]),
      ("type", .string "FeatureCollection")]

theorem ofText?_detour : Json.ofText? detour.compactText = some detour := by
  rw [Json.ofText?, Json.ofText?_compactText]
  rfl

theorem stops_detour :
    (((Document.ofJson detour).bind Document.features).toOption.map fun fs =>
        (ofFeatures fs).2.toOption.map
          (·.2.map fun stop => (stop.sequence, stop.name, stop.code))) =
      some (some [(1, "Pier", some "42"), (2, "Stop 2", none)]) := by
  decide +kernel

theorem reading_of_detour :
    exists fs route stops, featuresOfText detour.compactText = .ok fs ∧
      IsReading fs route stops ∧ stops.map (fun stop => (stop.sequence, stop.name, stop.code)) =
        [(1, "Pier", some "42"), (2, "Stop 2", none)] := by
  have hstops := stops_detour
  cases hfs : (Document.ofJson detour).bind Document.features with
  | error fault => simp [hfs, Except.toOption] at hstops
  | ok fs =>
      have htext := featuresOfText_of_json ofText?_detour hfs
      cases hread : (ofFeatures fs).2 with
      | error e => simp [hfs, hread, Except.toOption] at hstops
      | ok read =>
          rcases read with ⟨route, stops⟩
          simp only [hfs, hread, Except.toOption, Option.map_some, Option.some.injEq] at hstops
          have hok : (ofText detour.compactText).2 = .ok (route, stops) := by
            rw [ofText, htext]
            exact hread
          exact ⟨fs, route, stops, htext, ((reading_of_text htext).2.1 route stops).mp hok, hstops⟩

end Route
end TransitSim
