import Mathlib.Data.List.Forall2
import TransitSim.Eta.Response
import TransitSim.Route.Document

/-!
# The stops of a document

When a route could be read from a document, each of its points has become a stop: they are numbered
from one on, lie where the numbers of the point say, longitude first, and have the name that the
properties give them. A record of a response with the same two numbers, each under its own name,
is about a stop with the same key.
-/

namespace TransitSim

open Response (descend?)

/-!
# Results of steps
-/

namespace Except

variable {α β ε : Type}

theorem of_bind {x : Except ε α} {f : α → Except ε β} {b : β} (h : (x >>= f) = .ok b) :
    exists a, x = .ok a ∧ f a = .ok b := by
  cases x with
  | error e => cases h
  | ok a => exact ⟨a, rfl, h⟩

theorem of_map {x : Except ε α} {f : α → β} {b : β} (h : x.map f = .ok b) :
    exists a, x = .ok a ∧ f a = b := by
  cases x with
  | error e => cases h
  | ok a =>
      cases h
      exact ⟨a, rfl, rfl⟩

theorem forall₂_of_mapM {f : α → Except ε β} {xs : List α} {ys : List β}
    (h : xs.mapM f = .ok ys) : List.Forall₂ (fun x y => f x = .ok y) xs ys := by
  induction xs generalizing ys with
  | nil =>
      cases h
      exact .nil
  | cons x rest ih =>
      rw [List.mapM_cons] at h
      rcases of_bind h with ⟨y, hx, h⟩
      rcases of_bind h with ⟨others, hrest, h⟩
      cases h
      exact .cons hx (ih hrest)

theorem mapM_eq_ok_iff {f : α → Except ε β} {xs : List α} {ys : List β} :
    xs.mapM f = .ok ys ↔ List.Forall₂ (fun x y => f x = .ok y) xs ys := by
  constructor
  · exact forall₂_of_mapM
  · intro h
    induction h with
    | nil => rfl
    | cons hx _ ih =>
        rw [List.mapM_cons, hx, ih]
        rfl

theorem mapM_eq_error {f : α → Except ε β} {before after : List α} {x : α} {e : ε}
    (hbefore : ∀ y ∈ before, exists z, f y = .ok z) (hx : f x = .error e) :
    (before ++ x :: after).mapM f = .error e := by
  induction before with
  | nil =>
      rw [List.nil_append, List.mapM_cons, hx]
      rfl
  | cons y before ih =>
      rcases List.forall_mem_cons.mp hbefore with ⟨⟨z, hy⟩, hrest⟩
      rw [List.cons_append, List.mapM_cons, hy, ih hrest]
      rfl

end Except

namespace GeoJson

variable {members : Members}

/-!
# Points
-/

theorem number_eq_ok {j : Json} {x : Float} (h : number j = .ok x) :
    exists n, j = .number n ∧ x = n.toFloat := by
  cases j with
  | number n =>
      cases h
      exact ⟨n, rfl, rfl⟩
  | null | bool | string | array | object => cases h

theorem array_eq_ok {j : Json} {js : List Json} (h : array j = .ok js) : j = .array js := by
  cases j with
  | array items =>
      cases h
      rfl
  | null | bool | number | string | object => cases h

theorem position_eq_ok {j : Json} {p : Position} (h : position j = .ok p) :
    exists lon lat rest, j = .array (.number lon :: .number lat :: rest) ∧
      p.lon = lon.toFloat ∧ p.lat = lat.toFloat := by
  rcases Except.of_bind h with ⟨js, hjs, hread⟩
  rw [array_eq_ok hjs]
  cases js with
  | nil => cases hread
  | cons x js =>
      cases js with
      | nil => cases hread
      | cons y rest =>
          rcases Except.of_bind hread with ⟨lon, hlon, hread⟩
          rcases Except.of_bind hread with ⟨lat, hlat, hread⟩
          rcases Except.of_bind hread with ⟨others, hothers, hread⟩
          cases hread
          rcases number_eq_ok hlon with ⟨m, rfl, rfl⟩
          rcases number_eq_ok hlat with ⟨n, rfl, rfl⟩
          exact ⟨m, n, rest, rfl, rfl, rfl⟩

theorem required_eq_ok {name : String} {j : Json} (h : required members name = .ok j) :
    members.lookup name = some j := by
  simp only [required] at h
  split at h
  · cases h
    assumption
  · cases h

theorem kind_eq_ok {s : String} (h : kind members = .ok s) :
    members.lookup "type" = some (.string s) := by
  rcases Except.of_bind h with ⟨j, hj, h⟩
  rw [required_eq_ok hj]
  cases j with
  | string t =>
      cases h
      rfl
  | null | bool | number | array | object => cases h

theorem geometry_cases {g : Geometry} (h : geometry members = .ok g) :
    exists s, members.lookup "type" = some (.string s) ∧
      ((s = "Point" ∧ exists j p, members.lookup "coordinates" = some j ∧ position j = .ok p ∧
          g = .point p) ∨
        (s ≠ "Point" ∧ ∀ p, g ≠ .point p)) := by
  rw [geometry] at h
  rcases Except.of_bind h with ⟨checked, -, h⟩
  rcases Except.of_bind h with ⟨s, hkind, h⟩
  refine ⟨s, kind_eq_ok hkind, ?_⟩
  split at h
  case h_1 =>
    rcases Except.of_map h with ⟨p, hp, rfl⟩
    rcases Except.of_bind hp with ⟨j, hj, hp⟩
    exact Or.inl ⟨rfl, j, p, required_eq_ok hj, hp, rfl⟩
  case h_2 | h_3 | h_4 | h_5 | h_6 =>
    rcases Except.of_map h with ⟨positions, -, rfl⟩
    exact Or.inr ⟨by decide, fun p hp => by cases hp⟩
  case h_7 =>
    refine Or.inr ⟨by decide, fun p hp => ?_⟩
    subst hp
    split at h
    · cases h
    · rcases Except.of_bind h with ⟨gs, -, h⟩
      cases h
    · cases h
  case h_8 => cases h

/-!
# Features
-/

def isPoint (feature : Json) : Bool :=
  (descend? ["geometry", "type"] feature).bind Json.text? = some "Point"

def IsAt (feature : Json) (lon lat : Json.Number) : Prop :=
  exists rest, descend? ["geometry", "coordinates"] feature =
    some (.array (.number lon :: .number lat :: rest))

def says? (feature : Json) (name : String) : Option String :=
  match descend? ["properties", name] feature with
  | none | some .null => none
  | some (.string s) => some s
  | some j => some j.compactText

theorem featureGeometry_cases {found : Option Geometry} (h : featureGeometry members = .ok found) :
    (isPoint (.object members) = true ∧ exists lon lat p, IsAt (.object members) lon lat ∧
        p.lon = lon.toFloat ∧ p.lat = lat.toFloat ∧ found = some (.point p)) ∨
      (isPoint (.object members) = false ∧ ∀ p, found ≠ some (.point p)) := by
  rcases Except.of_bind h with ⟨j, hj, hread⟩
  have hlookup := required_eq_ok hj
  cases j with
  | object inner =>
      rcases Except.of_map hread with ⟨g, hg, rfl⟩
      rcases geometry_cases hg with ⟨s, htype, ⟨rfl, j, p, hcoordinates, hp, rfl⟩ | ⟨hs, hother⟩⟩
      · rcases position_eq_ok hp with ⟨lon, lat, rest, rfl, hlon, hlat⟩
        refine Or.inl ⟨?_, lon, lat, p, ⟨rest, ?_⟩, hlon, hlat, rfl⟩
        · simp [isPoint, descend?, Json.member?, Json.text?, hlookup, htype]
        · simp [descend?, Json.member?, hlookup, hcoordinates]
      · refine Or.inr ⟨?_, fun p hp => hother p (Option.some.inj hp)⟩
        simp [isPoint, descend?, Json.member?, Json.text?, hlookup, htype, hs]
  | null =>
      cases hread
      exact Or.inr ⟨by simp [isPoint, descend?, Json.member?, hlookup], fun p hp => by cases hp⟩
  | bool | number | string | array => cases hread

theorem featureProperties_eq_ok {properties : Members}
    (h : featureProperties members = .ok properties) (name : String) :
    descend? ["properties", name] (.object members) = properties.lookup name := by
  simp only [featureProperties] at h
  split at h
  · rename_i hnone
    cases h
    simp [descend?, Json.member?, hnone]
  · rename_i hnull
    cases h
    simp [descend?, Json.member?, hnull]
  · rename_i hobject
    cases h
    simp [descend?, Json.member?, hobject]
  · cases h

theorem feature_eq_ok {f : Feature} (h : feature members = .ok f) :
    featureGeometry members = .ok f.geometry ∧
      ∀ name, Route.propertyText? f name = says? (.object members) name := by
  rcases Except.of_bind h with ⟨found, -, h⟩
  split at h
  · rcases Except.of_bind h with ⟨g, hg, h⟩
    rcases Except.of_bind h with ⟨properties, hproperties, h⟩
    rcases Except.of_bind h with ⟨checked, -, h⟩
    rcases Except.of_bind h with ⟨boxed, -, h⟩
    cases h
    refine ⟨hg, fun name => ?_⟩
    rw [says?, featureProperties_eq_ok hproperties name]
    rfl
  · cases h

/-!
# Documents
-/

def featuresIn (doc : Json) : List Json :=
  if (doc.member? "type").bind Json.text? = some "Feature" then [doc]
  else ((doc.member? "features").bind Json.items?).getD []

/-- Whether a feature has been read from an object. -/
def Reads (j : Json) (f : Feature) : Prop :=
  exists members, j = .object members ∧ feature members = .ok f

theorem features_eq_ok {fs : List Feature} (h : features members = .ok fs) :
    exists js, members.lookup "features" = some (.array js) ∧ List.Forall₂ Reads js fs := by
  rcases Except.of_bind h with ⟨checked, -, h⟩
  rcases Except.of_bind h with ⟨j, hj, h⟩
  rcases Except.of_bind h with ⟨js, hjs, h⟩
  have hlookup := required_eq_ok hj
  cases j with
  | array items =>
      cases hjs
      refine ⟨js, hlookup, (Except.forall₂_of_mapM h).imp fun j f hread => ?_⟩
      rcases Except.of_bind hread with ⟨members, hmembers, hf⟩
      cases j with
      | object inner =>
          cases hmembers
          exact ⟨members, rfl, hf⟩
      | null | bool | number | string | array => cases hmembers
  | null | bool | number | string | object => cases hjs

theorem ofJson_features {doc : Json} {d : Document} {fs : List Feature}
    (h : Document.ofJson doc = .ok d) (hfs : d.features = .ok fs) :
    List.Forall₂ Reads (featuresIn doc) fs := by
  rcases Except.of_bind h with ⟨members, hmembers, hread⟩
  cases doc with
  | null | bool | number | string | array => cases hmembers
  | object inner =>
      cases hmembers
      split at hread
      · rename_i s htype
        split at hread
        · rename_i hfeature
          rcases Except.of_map hread with ⟨f, hf, rfl⟩
          cases hfs
          have hself : featuresIn (.object members) = [.object members] := by
            simp [featuresIn, Json.member?, Json.text?, htype, hfeature]
          rw [hself]
          exact .cons ⟨members, rfl, hf⟩ .nil
        · rename_i hother
          split at hread
          · rcases Except.of_map hread with ⟨gs, hgs, rfl⟩
            cases hfs
            rcases features_eq_ok hgs with ⟨js, hjs, hall⟩
            have hitems : featuresIn (.object members) = js := by
              simp [featuresIn, Json.member?, Json.text?, Json.items?, htype, hother, hjs]
            rw [hitems]
            exact hall
          · split at hread
            · rcases Except.of_map hread with ⟨g, -, rfl⟩
              cases hfs
            · cases hread
      · cases hread

theorem featuresOfText_eq_ok {text : String} {fs : List Feature}
    (h : Route.featuresOfText text = .ok fs) :
    exists doc, Json.ofText? text = some doc ∧ List.Forall₂ Reads (featuresIn doc) fs := by
  simp only [Route.featuresOfText, Document.ofText] at h
  cases hdoc : Json.ofText? text with
  | none => simp [hdoc, Except.bind] at h
  | some doc =>
      cases hread : Document.ofJson doc with
      | error fault => simp [hdoc, hread, Except.bind] at h
      | ok d =>
          cases hfs : d.features with
          | error fault => simp [hdoc, hread, hfs, Except.bind] at h
          | ok found =>
              simp only [hdoc, hread, hfs, Except.bind] at h
              cases h
              exact ⟨doc, rfl, ofJson_features hread hfs⟩

end GeoJson

/-!
# Stops
-/

namespace Route

open GeoJson

/-- Whether a stop is what a feature says: it lies at its two numbers, the longitude first, and has
its name. -/
def Describes (feature : Json) (stop : Stop) : Prop :=
  (exists lon lat, IsAt feature lon lat ∧ stop.coordinate = ⟨lat.toFloat, lon.toFloat⟩) ∧
    stop.name = (says? feature "Stop Name").getD ("Stop " ++ toString stop.sequence)

theorem stop_eq_ok {f : Feature} {p : Position} {sequence : Nat} {stop : Stop}
    (h : Route.stop f p sequence = .ok stop) :
    stop.coordinate = ⟨p.lat, p.lon⟩ ∧ stop.sequence = sequence ∧
      stop.name = (propertyText? f "Stop Name").getD ("Stop " ++ toString sequence) := by
  rcases Except.of_bind h with ⟨c, hc, h⟩
  cases h
  refine ⟨?_, rfl, rfl⟩
  simp only [coordinate, Coordinate.checked] at hc
  split at hc
  · cases hc
    rfl
  · cases hc

theorem Sketch.add_stops {s s' : Sketch} {j : Json} {f : Feature} (hf : Reads j f)
    (h : s.add f = .ok s') :
    (isPoint j = true ∧ exists stop, Describes j stop ∧ stop.sequence = s.stops.length + 1 ∧
        s'.stops = s.stops ++ [stop]) ∨
      (isPoint j = false ∧ s'.stops = s.stops) := by
  rcases hf with ⟨members, rfl, hf⟩
  rcases feature_eq_ok hf with ⟨hg, hsays⟩
  rcases featureGeometry_cases hg with ⟨hpoint, lon, lat, p, hat, hlon, hlat, hfound⟩ |
    ⟨hpoint, hother⟩
  · simp only [Sketch.add, hfound] at h
    rcases Except.of_bind h with ⟨stop, hstop, h⟩
    cases h
    rcases stop_eq_ok hstop with ⟨hcoordinate, hsequence, hname⟩
    refine Or.inl ⟨hpoint, stop, ⟨⟨lon, lat, hat, ?_⟩, ?_⟩, hsequence, rfl⟩
    · rw [hcoordinate, hlon, hlat]
    · rw [hname, hsays, hsequence]
  · refine Or.inr ⟨hpoint, ?_⟩
    simp only [Sketch.add] at h
    split at h
    · rcases Except.of_bind h with ⟨points, -, h⟩
      cases h
      rfl
    · rename_i p hp
      exact absurd hp (hother p)
    · cases h
      rfl

theorem stops_foldlM {js : List Json} {fs : List Feature} (hfs : List.Forall₂ Reads js fs)
    {s s' : Sketch} (h : fs.foldlM Sketch.add s = .ok s') :
    exists added, s'.stops = s.stops ++ added ∧
      List.Forall₂ Describes (js.filter isPoint) added ∧
        added.map (·.sequence) = List.range' (s.stops.length + 1) added.length := by
  induction hfs generalizing s with
  | nil =>
      cases h
      exact ⟨[], (List.append_nil _).symm, .nil, rfl⟩
  | @cons j f js fs hf hfs ih =>
      rw [List.foldlM_cons] at h
      rcases Except.of_bind h with ⟨s₁, hfirst, hrest⟩
      rcases ih hrest with ⟨added, hstops, hall, hnumbers⟩
      rcases Sketch.add_stops hf hfirst with ⟨hpoint, stop, hstop, hsequence, hs₁⟩ |
        ⟨hpoint, hs₁⟩
      · refine ⟨stop :: added, ?_, ?_, ?_⟩
        · rw [hstops, hs₁, List.append_assoc, List.singleton_append]
        · rw [List.filter_cons_of_pos hpoint]
          exact .cons hstop hall
        · rw [List.map_cons, hnumbers, hsequence, hs₁]
          simp [List.range'_succ]
      · refine ⟨added, hs₁ ▸ hstops, ?_, hs₁ ▸ hnumbers⟩
        rw [List.filter_cons_of_neg (by simp [hpoint])]
        exact hall

theorem stops_of_text {text : String} {route : Route} {stops : List Stop}
    (h : (ofText text).2 = .ok (route, stops)) :
    exists doc, Json.ofText? text = some doc ∧
      List.Forall₂ Describes ((featuresIn doc).filter isPoint) stops ∧
        stops.map (·.sequence) = List.range' 1 stops.length := by
  simp only [ofText] at h
  cases hfs : featuresOfText text with
  | error e => simp [hfs] at h
  | ok fs =>
      simp only [hfs, ofFeatures] at h
      rcases featuresOfText_eq_ok hfs with ⟨doc, hdoc, hreads⟩
      cases hsketch : Sketch.ofFeatures fs with
      | error e => simp [hsketch] at h
      | ok s =>
          rcases stops_foldlM hreads hsketch with ⟨added, hstops, hall, hnumbers⟩
          rcases s with ⟨line, found⟩
          cases line with
          | none => simp [hsketch] at h
          | some points =>
              simp only [hsketch] at h
              rcases Except.of_map h with ⟨r, -, heq⟩
              cases heq
              cases hstops
              exact ⟨doc, hdoc, hall, hnumbers⟩

end Route

/-!
# Records at a stop
-/

def Response.IsAt (record : Json) (lat lon : Float) : Prop :=
  (descend? ["stop", "coordinate", "lat"] record).bind Json.float? = some lat ∧
    (descend? ["stop", "coordinate", "lon"] record).bind Json.float? = some lon

theorem Response.key_of_snapshot? {record : Json} {s : Snapshot} {lat lon : Float}
    (hat : IsAt record lat lon) (h : snapshot? record = some s) :
    s.key = Coordinate.key ⟨lat, lon⟩ := by
  rcases hat with ⟨hlat, hlon⟩
  rcases Option.bind_eq_some_iff.mp h with ⟨j, hj, h⟩
  rcases Option.bind_eq_some_iff.mp h with ⟨lat', hlat', h⟩
  rcases Option.bind_eq_some_iff.mp h with ⟨k, hk, h⟩
  rcases Option.bind_eq_some_iff.mp h with ⟨lon', hlon', h⟩
  rcases Option.bind_eq_some_iff.mp h with ⟨e, -, h⟩
  rcases Option.bind_eq_some_iff.mp h with ⟨eta, -, h⟩
  rw [hj, Option.bind_some, hlat'] at hlat
  rw [hk, Option.bind_some, hlon'] at hlon
  cases hlat
  cases hlon
  cases h
  rfl

theorem Route.key_of_record {feature record : Json} {stop : Stop} {lon lat : Json.Number}
    {s : Snapshot} (hstop : Describes feature stop) (hfeature : GeoJson.IsAt feature lon lat)
    (hrecord : Response.IsAt record lat.toFloat lon.toFloat)
    (h : Response.snapshot? record = some s) : s.key = stop.key := by
  rcases hstop.1 with ⟨lon', lat', ⟨rest, hat⟩, hcoordinate⟩
  rcases hfeature with ⟨rest', hat'⟩
  rw [hat] at hat'
  cases hat'
  rw [Response.key_of_snapshot? hrecord h, Stop.key, hcoordinate]

end TransitSim
