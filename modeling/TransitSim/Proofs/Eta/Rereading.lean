import TransitSim.Interchange.Eta
import TransitSim.Proofs.Calendar.Universal
import TransitSim.Proofs.Eta.MinuteRuns
import TransitSim.Proofs.Eta.Range
import TransitSim.Proofs.Json.Records

/-!
# Reading back histories

A history is written as JSON and read back the same, so that it is written with the same text
again. What is asked of it is that its numbers fit the words in which they are held and that its
instants lie in the calendar. A history that is read from any text has just that, and so have the
histories that a tracker remembers.
-/

namespace TransitSim

open Json Calendar

/-!
# Instants
-/

namespace Calendar.Instant

theorem ofRaw?_raw {i : Instant} (h : i.Valid) : ofRaw? (raw i.toJson) = some i := by
  rw [toJson, ofRaw?, text?_raw]
  simp only [bind, Option.bind, readRelaxed?_stampText h]

theorem valid_of_ofRaw? {r : Raw} {i : Instant} (h : ofRaw? r = some i) : i.Valid := by
  simp only [ofRaw?, bind, Option.bind_eq_some_iff] at h
  rcases h with ⟨s, -, h⟩
  exact valid_of_readRelaxed? h

theorem optional_ofRaw?_raw {last : Option Instant} (h : ∀ i, last = some i → i.Valid) :
    (Slot.given (raw ((last.map toJson).getD .null))).optional ofRaw? = some last := by
  cases last with
  | none => rfl
  | some i =>
      show (ofRaw? (raw i.toJson)).map some = some (some i)
      rw [ofRaw?_raw (h i rfl)]
      rfl

end Calendar.Instant

/-!
# Transitions
-/

namespace Transition

/-- Whether the minutes of a transition fit a word and its instants lie in the calendar. -/
structure Fits (t : Transition) : Prop where
  previous : t.previous.Valid
  new : t.new.Valid
  minutes : -2 ^ 63 ≤ t.minutes ∧ t.minutes < 2 ^ 63
  observed : t.observed.Valid

theorem slots?_toJson (t : Transition) :
    (raw t.toJson).slots? ["previous_eta", "new_eta", "delta_minutes", "observed_at"] =
      some [.given (raw t.previous.toJson), .given (raw t.new.toJson),
        .given (raw (.ofInt t.minutes)), .given (raw t.observed.toJson)] :=
  slots?_raw (show ["previous_eta", "new_eta", "delta_minutes", "observed_at"].Nodup by decide)

theorem ofRaw?_raw {t : Transition} (h : t.Fits) : ofRaw? (raw t.toJson) = some t := by
  have hhalf : Nat.pow 2 63 = 9223372036854775808 := rfl
  rcases h.minutes with ⟨hlow, hhigh⟩
  have hminutes : (raw (.ofInt t.minutes)).int? (-Nat.pow 2 63) (Nat.pow 2 63 - 1) =
      some t.minutes :=
    int?_raw (by omega) (by omega) (by omega)
  rw [ofRaw?, slots?_toJson]
  simp only [bind, Option.bind, Slot.required, Instant.ofRaw?_raw h.previous,
    Instant.ofRaw?_raw h.new, Instant.ofRaw?_raw h.observed, hminutes]

theorem fits_of_ofRaw? {r : Raw} {t : Transition} (h : ofRaw? r = some t) : t.Fits := by
  have hhalf : Nat.pow 2 63 = 9223372036854775808 := rfl
  simp only [ofRaw?, bind, Option.bind_eq_some_iff] at h
  rcases h with ⟨slots, -, h⟩
  split at h
  case h_1 =>
    simp only [Option.bind_eq_some_iff] at h
    rcases h with ⟨previous, hprevious, new, hnew, minutes, hminutes, observed, hobserved, h⟩
    cases h
    rcases exists_of_required hprevious with ⟨r, hprevious⟩
    rcases exists_of_required hnew with ⟨r, hnew⟩
    rcases exists_of_required hminutes with ⟨r, hminutes⟩
    rcases exists_of_required hobserved with ⟨r, hobserved⟩
    have hbounds := bounds_of_int? hminutes
    constructor
    case previous => exact Instant.valid_of_ofRaw? hprevious
    case new => exact Instant.valid_of_ofRaw? hnew
    case minutes =>
      dsimp only
      omega
    case observed => exact Instant.valid_of_ofRaw? hobserved
  case h_2 => cases h

end Transition

/-!
# Histories
-/

namespace History

/-- Whether the numbers of a history fit a word and its instants lie in the calendar. -/
structure Fits (h : History) : Prop where
  last : ∀ i, h.last = some i → i.Valid
  changes : h.changes < wordLimit
  transitions : ∀ t ∈ h.transitions, t.Fits

def text (h : History) : String :=
  h.toJson.compactText

def ofText? (s : String) : Option History :=
  (Raw.ofText? s).bind ofRaw?

theorem slots?_toJson (h : History) :
    (raw h.toJson).slots? ["last_known_eta", "significant_change_count", "transitions"] =
      some [.given (raw ((h.last.map Instant.toJson).getD .null)), .given (raw (.ofNat h.changes)),
        .given (raw (.array (h.transitions.map Transition.toJson)))] :=
  slots?_raw
    (show ["last_known_eta", "significant_change_count", "transitions"].Nodup by decide)

theorem ofRaw?_raw {h : History} (hfits : h.Fits) : ofRaw? (raw h.toJson) = some h := by
  have hchanges := natBelow?_raw hfits.changes (Nat.le_refl wordLimit)
  have htransitions := list?_raw fun t ht => Transition.ofRaw?_raw (hfits.transitions t ht)
  rw [ofRaw?, slots?_toJson]
  simp only [bind, Option.bind, Slot.required, Instant.optional_ofRaw?_raw hfits.last, hchanges,
    htransitions]

theorem fits_of_ofRaw? {r : Raw} {h : History} (hread : ofRaw? r = some h) : h.Fits := by
  simp only [ofRaw?, bind, Option.bind_eq_some_iff] at hread
  rcases hread with ⟨slots, -, hread⟩
  split at hread
  case h_1 =>
    simp only [Option.bind_eq_some_iff] at hread
    rcases hread with ⟨last, hlast, changes, hchanges, transitions, htransitions, hread⟩
    cases hread
    rcases exists_of_required hchanges with ⟨r, hchanges⟩
    rcases exists_of_required htransitions with ⟨r, htransitions⟩
    constructor
    case last =>
      intro i hi
      dsimp only at hi
      rw [hi] at hlast
      rcases exists_of_optional hlast with ⟨r, hread⟩
      exact Instant.valid_of_ofRaw? hread
    case changes => exact lt_of_natBelow? hchanges
    case transitions =>
      intro t ht
      rcases exists_of_list? htransitions t ht with ⟨item, hitem⟩
      exact Transition.fits_of_ofRaw? hitem
  case h_2 => cases hread

theorem ofText?_text {h : History} (hfits : h.Fits) : ofText? h.text = some h := by
  rw [ofText?, text, ofText?_compactText]
  exact ofRaw?_raw hfits

theorem fits_of_ofText? {s : String} {h : History} (hread : ofText? s = some h) : h.Fits := by
  rw [ofText?, Option.bind_eq_some_iff] at hread
  rcases hread with ⟨r, -, hread⟩
  exact fits_of_ofRaw? hread

def extreme : History where
  last := some ⟨-62167219201, 1000000001⟩
  changes := 18446744073709551615
  transitions :=
    [{ previous := ⟨253402300800, 0⟩
       new := ⟨Instant.firstSecond, 1000⟩
       minutes := -9223372036854775808
       observed := ⟨Instant.lastSecond, 1999999999⟩ }]

end History

/-!
# What trackers remember
-/

namespace Calendar.Instant

theorem nanos_carry_lt {seconds nanos : Int} (hlow : -1000000000 ≤ nanos)
    (hhigh : nanos < 2000000000) : (carry seconds nanos).nanos < nanosPerSecond := by
  have hsecond : nanosPerSecond = 1000000000 := rfl
  unfold carry
  split
  case isTrue =>
    dsimp only
    omega
  case isFalse =>
    split <;> dsimp only <;> omega

theorem tmod_of_tdiv (ms : Int) :
    (0 < ms.tdiv 1000 → 0 ≤ ms.tmod 1000) ∧ (ms.tdiv 1000 < 0 → ms.tmod 1000 ≤ 0) := by
  have hsplit : 1000 * ms.tdiv 1000 + ms.tmod 1000 = ms := Int.mul_tdiv_add_tmod ms 1000
  have hlt : ms.tmod 1000 < 1000 := Int.tmod_lt_of_pos ms (by decide)
  have hgt : -1000 < ms.tmod 1000 := Int.lt_tmod_of_pos ms (by decide)
  constructor
  · intro hpos
    exact Int.tmod_nonneg 1000 (by omega)
  · intro hneg
    have hopposite : 0 ≤ (-ms).tmod 1000 := Int.tmod_nonneg 1000 (by omega)
    rw [Int.neg_tmod] at hopposite
    omega

theorem valid_of_addMillis? {i j : Instant} (h : i.Valid) {ms : Int}
    (hadd : i.addMillis? ms = some j) : j.Valid := by
  have hsecond : nanosPerSecond = 1000000000 := rfl
  have hlt : ms.tmod 1000 < 1000 := Int.tmod_lt_of_pos ms (by decide)
  have hgt : -1000 < ms.tmod 1000 := Int.lt_tmod_of_pos ms (by decide)
  rcases tmod_of_tdiv ms with ⟨hforward, hbackward⟩
  rw [addMillis?, inRange?] at hadd
  split at hadd
  case isFalse => cases hadd
  case isTrue hrange =>
    cases hadd
    refine ⟨hrange.1, hrange.2, ?_⟩
    clear hrange
    generalize ms.tdiv 1000 = seconds at *
    generalize ms.tmod 1000 = millis at *
    rcases h with ⟨-, -, hordinary⟩
    by_cases hleap : i.nanos < nanosPerSecond
    · apply Or.inl
      rw [shift, if_pos hleap]
      exact nanos_carry_lt (by omega) (by omega)
    · have hlast : i.nanos < 2 * nanosPerSecond ∧ i.seconds % 60 = 59 := by omega
      rw [shift, if_neg hleap]
      split
      case isTrue => exact Or.inl (nanos_carry_lt (by omega) (by omega))
      case isFalse hstays =>
        split
        case isTrue => exact Or.inl (nanos_carry_lt (by omega) (by omega))
        case isFalse =>
          apply Or.inr
          dsimp only
          omega

end Calendar.Instant

theorem History.fits_empty : empty.Fits where
  last := by
    intro i hi
    cases hi
  changes := by decide
  transitions := by
    intro t ht
    cases ht

theorem History.fits_of_change? {offset : Offset} {h : History} (hfits : h.Fits)
    {eta observed : Instant} (heta : eta.Valid) (hobserved : observed.Valid) {c : Transition}
    (hchange : h.change? offset eta observed = some c) : c.Fits := by
  have hminutes := natAbs_minutes_lt hchange
  cases hlast : h.last with
  | none => simp [change?, hlast] at hchange
  | some previous =>
      simp only [change?, hlast] at hchange
      split at hchange
      case isTrue => cases hchange
      case isFalse =>
        cases hchange
        constructor
        case previous => exact hfits.last previous hlast
        case new => exact heta
        case minutes =>
          dsimp only at hminutes ⊢
          omega
        case observed => exact hobserved

theorem History.Fits.observe {h : History} (hfits : h.Fits) {eta observed : Instant}
    (heta : eta.Valid) (hobserved : observed.Valid) (hchanges : h.changes + 1 < wordLimit)
    (offset : Offset) :
    (h.observe offset eta observed).Fits ∧
      (h.observe offset eta observed).changes ≤ h.changes + 1 := by
  have hlast : ∀ i, some eta = some i → i.Valid := by
    intro i hi
    cases hi
    exact heta
  rw [History.observe]
  cases hknown : h.last with
  | none => exact ⟨⟨hlast, hfits.changes, hfits.transitions⟩, Nat.le_succ h.changes⟩
  | some previous =>
      cases hchange : h.change? offset eta observed with
      | none => exact ⟨hfits, Nat.le_succ h.changes⟩
      | some c =>
          have hc := fits_of_change? hfits heta hobserved hchange
          refine ⟨⟨?_, hchanges, ?_⟩, Nat.le_refl _⟩
          · intro i hi
            cases hi
            exact hc.new
          · intro t ht
            rcases List.mem_append.mp ht with hold | hnew
            · exact hfits.transitions t hold
            · rw [List.mem_singleton.mp hnew]
              exact hc

namespace Tracker

def Call.IsValid : Call → Prop
  | observe s observed => s.eta.Valid ∧ observed.Valid
  | clear => True

/-- Whether all histories fit, and none has more changes than a number. -/
def Fits (t : Tracker) (most : Nat) : Prop :=
  ∀ key known, t.history? key = some known → known.Fits ∧ known.changes ≤ most

variable {t t' : Tracker}

theorem Fits.call {most : Nat} (ht : t.Fits most) (hmost : most + 1 < wordLimit) {c : Call}
    (hc : c.IsValid) (hcall : t.call c = some t') : t'.Fits (most + 1) := by
  have hsame : t.Fits (most + 1) := by
    intro key known hknown
    rcases ht key known hknown with ⟨hfits, hle⟩
    exact ⟨hfits, Nat.le_succ_of_le hle⟩
  cases c with
  | clear =>
      cases hcall
      intro key known hknown
      cases hknown
  | observe s observed =>
      rcases hc with ⟨heta, hobserved⟩
      cases hfinal : s.final? with
      | none => simp [Tracker.call, observe, hfinal] at hcall
      | some eta =>
          cases hstatus : s.status with
          | reached =>
              rw [call_observe_reached hfinal hstatus] at hcall
              cases hcall
              exact hsame
          | upcoming =>
              rw [call_observe_upcoming hfinal hstatus] at hcall
              cases hcall
              have hbefore : ((t.history? s.key).getD .empty).Fits ∧
                  ((t.history? s.key).getD .empty).changes ≤ most := by
                cases hold : t.history? s.key with
                | none => exact ⟨History.fits_empty, Nat.zero_le most⟩
                | some known => exact ht s.key known hold
              have hafter := hbefore.1.observe (Instant.valid_of_addMillis? heta hfinal) hobserved
                (by omega) t.offset
              intro key known hknown
              rw [history?_put] at hknown
              split at hknown
              case isTrue =>
                cases hknown
                exact ⟨hafter.1, by omega⟩
              case isFalse => exact hsame key known hknown

theorem fits_replay {offset : Offset} {calls : List Call} (hcalls : ∀ c ∈ calls, c.IsValid)
    (hlength : calls.length < wordLimit) (h : (new offset).replay calls = some t) :
    t.Fits calls.length := by
  induction calls using List.reverseRecOn generalizing t with
  | nil =>
      cases h
      intro key known hknown
      cases hknown
  | append_singleton calls c ih =>
      rw [List.length_append, List.length_singleton] at hlength ⊢
      rw [replay_concat, Option.bind_eq_some_iff] at h
      rcases h with ⟨t', hbefore, hcall⟩
      have ht := ih (fun d hd => hcalls d (List.mem_append_left [c] hd)) (by omega) hbefore
      exact ht.call hlength (hcalls c (by simp)) hcall

theorem ofText?_text_of_replay {offset : Offset} {calls : List Call}
    (hcalls : ∀ c ∈ calls, c.IsValid) (hlength : calls.length < wordLimit)
    (h : (new offset).replay calls = some t) {key : String} {known : History}
    (hknown : t.history? key = some known) : History.ofText? known.text = some known :=
  History.ofText?_text (fits_replay hcalls hlength h key known hknown).1

end Tracker
end TransitSim
