import TransitSim.Proofs.Json.Reading

/-!
# Reading back records

Each field of a record that has been written is found under its name, and is read back. Only
doubles may have changed: what comes back for one is the number that its numeral stands for.
-/

namespace TransitSim
namespace Json

open Binary64

/-!
# Fields
-/

theorem membersNamed_of_mem {members : List (String × Raw)} (h : (members.map Prod.fst).Nodup)
    {key : String} {r : Raw} (hmem : (key, r) ∈ members) : membersNamed key members = [r] := by
  induction members with
  | nil => cases hmem
  | cons m rest ih =>
      rw [List.map_cons, List.nodup_cons] at h
      rcases List.mem_cons.mp hmem with rfl | hold
      · have hnone : membersNamed key rest = [] := by
          rw [membersNamed, List.map_eq_nil_iff, List.filter_eq_nil_iff]
          intro m' hm' heq
          exact h.1 (List.mem_map.mpr ⟨m', hm', of_decide_eq_true heq⟩)
        have hhead : membersNamed key ((key, r) :: rest) = r :: membersNamed key rest := by
          simp [membersNamed]
        rw [hhead, hnone]
      · have hkey : m.1 ≠ key := fun heq => h.1 (List.mem_map.mpr ⟨_, hold, heq.symm⟩)
        have htail : membersNamed key (m :: rest) = membersNamed key rest := by
          simp [membersNamed, hkey]
        rw [htail, ih h.2 hold]

theorem keyed?_rawMembers (members : List (String × Json)) :
    keyed? (rawMembers members) = some (members.map fun m => (m.1, raw m.2)) := by
  induction members with
  | nil => rfl
  | cons m rest ih =>
      rw [rawMembers, keyed?, string?_pieces, ih]
      rfl

theorem slots?_raw {members : List (String × Json)} (h : (members.map Prod.fst).Nodup) :
    (raw (.object members)).slots? (members.map Prod.fst) =
      some (members.map fun m => .given (raw m.2)) := by
  have hkeys : ((members.map fun m => (m.1, raw m.2)).map Prod.fst).Nodup := by
    rwa [List.map_map]
  have hfound : ∀ part : List (String × Json), (∀ m ∈ part, m ∈ members) →
      (part.map Prod.fst).mapM (slotNamed? (members.map fun m => (m.1, raw m.2))) =
        some (part.map fun m => .given (raw m.2)) := by
    intro part hpart
    induction part with
    | nil => rfl
    | cons m rest ih =>
        have hmem : (m.1, raw m.2) ∈ members.map fun m => (m.1, raw m.2) :=
          List.mem_map.mpr ⟨m, hpart m List.mem_cons_self, rfl⟩
        have hslot : slotNamed? (members.map fun m => (m.1, raw m.2)) m.1 =
            some (.given (raw m.2)) := by
          rw [slotNamed?, membersNamed_of_mem hkeys hmem]
        rw [List.map_cons, List.mapM_cons, hslot,
          ih fun m' hm' => hpart m' (List.mem_cons_of_mem m hm')]
        rfl
  rw [raw, Raw.slots?, keyed?_rawMembers]
  exact hfound members fun _ hm => hm

/-!
# Values
-/

theorem text?_raw (s : String) : (raw (.string s)).text? = some s :=
  string?_pieces s

/-- The number that the numeral of a double stands for, if it is a double. -/
def reread? (x : Float) : Option Float :=
  match exact x with
  | .finite minus m e =>
      (scale? (nearestDouble (written (shownDigits m e)).1) (written (shownDigits m e)).2).map
        fun y => if minus then -y else y
  | _ => none

theorem float?_raw (x : Float) : (raw (.ofFloat x)).float? = reread? x := by
  rw [ofFloat, raw, Number.raw, reread?]
  cases hexact : exact x with
  | infinite minus => rfl
  | nan => rfl
  | finite minus m e =>
      show (Numeral.number? _).map Number.toFloat = _
      rw [number?_ofDigits minus (isShown_shownDigits hexact), Option.map_map]
      rfl

theorem int?_raw {n least greatest : Int} (hfits : -2 ^ 63 ≤ n ∧ n < 2 ^ 64) (hlow : least ≤ n)
    (hhigh : n ≤ greatest) : (raw (.ofInt n)).int? least greatest = some n := by
  have hlimit : wordLimit = 18446744073709551616 := rfl
  have hhalf : Nat.pow 2 63 = 9223372036854775808 := rfl
  have hrange : least ≤ n ∧ n ≤ greatest := ⟨hlow, hhigh⟩
  rw [ofInt]
  by_cases hsign : 0 ≤ n
  · have hcast : (n.toNat : Int) = n := Int.toNat_of_nonneg hsign
    have hnumber : (Numeral.ofNat false n.toNat).number? = some (.natural n.toNat) :=
      number?_ofNat false (by omega)
    rw [if_pos hsign, raw, Number.raw, Raw.int?, hnumber]
    simp only [Number.toInt?, bind, Option.bind, hcast, if_pos hrange]
  · have hcast : -(n.natAbs : Int) = n := by omega
    have hnumber : (Numeral.ofNat true n.natAbs).number? = some (.negative n.natAbs) := by
      rw [number?_ofNat true (by omega), Bool.not_true, if_neg Bool.false_ne_true,
        if_neg (by omega)]
    rw [if_neg hsign, raw, Number.raw, Raw.int?, hnumber]
    simp only [Number.toInt?, bind, Option.bind, hcast, if_pos hrange]

theorem natBelow?_raw {n limit : Nat} (h : n < limit) (hlimit : limit ≤ wordLimit) :
    (raw (.ofNat n)).natBelow? limit = some n := by
  have hword : wordLimit = 18446744073709551616 := rfl
  have hsame : ofNat n = ofInt n := by
    rw [ofInt, if_pos (Int.natCast_nonneg n), Int.toNat_natCast]
    rfl
  rw [hsame, Raw.natBelow?, int?_raw (by omega) (Int.natCast_nonneg n) (by omega)]
  rfl

theorem list?_raw {α : Type} {read : Raw → Option α} {write : α → Json} {xs : List α}
    (h : ∀ x ∈ xs, read (raw (write x)) = some x) :
    (raw (.array (xs.map write))).list? read = some xs := by
  show (rawItems (xs.map write)).mapM read = some xs
  induction xs with
  | nil => rfl
  | cons x rest ih =>
      rw [List.map_cons, rawItems, List.mapM_cons, h x List.mem_cons_self,
        ih fun y hy => h y (List.mem_cons_of_mem x hy)]
      rfl

theorem word?_raw {α : Type} (words : List (String × α)) (s : String) :
    (raw (.string s)).word? words = words.lookup s := by
  rw [raw, Raw.word?, string?_pieces]
  rfl

/-!
# What is read
-/

theorem bounds_of_int? {r : Raw} {least greatest n : Int} (h : r.int? least greatest = some n) :
    least ≤ n ∧ n ≤ greatest := by
  cases r with
  | number numeral =>
      simp only [Raw.int?, bind, Option.bind_eq_some_iff] at h
      rcases h with ⟨number, -, value, -, h⟩
      split at h
      case isTrue hbounds =>
        cases h
        exact hbounds
      case isFalse => cases h
  | _ => cases h

theorem lt_of_natBelow? {r : Raw} {limit n : Nat} (h : r.natBelow? limit = some n) : n < limit := by
  rw [Raw.natBelow?, Option.map_eq_some_iff] at h
  rcases h with ⟨value, h, rfl⟩
  have hbounds := bounds_of_int? h
  omega

section
variable {α : Type} {read : Raw → Option α}

theorem exists_of_list? {r : Raw} {xs : List α} (h : r.list? read = some xs) :
    ∀ x ∈ xs, exists item, read item = some x := by
  cases r with
  | array items =>
      change items.mapM read = some xs at h
      induction items generalizing xs with
      | nil =>
          cases h
          intro x hx
          cases hx
      | cons item items ih =>
          simp only [List.mapM_cons, bind, Option.bind_eq_some_iff] at h
          rcases h with ⟨x, hitem, rest, hrest, h⟩
          cases h
          intro y hy
          rcases List.mem_cons.mp hy with rfl | hy
          · exact ⟨item, hitem⟩
          · exact ih hrest y hy
  | _ => cases h

theorem exists_of_required {s : Slot} {x : α} (h : s.required read = some x) :
    exists r, read r = some x := by
  cases s with
  | given r => exact ⟨r, h⟩
  | _ => cases h

theorem exists_of_optional {s : Slot} {x : α} (h : s.optional read = some (some x)) :
    exists r, read r = some x := by
  unfold Slot.optional at h
  split at h
  case h_2 r hnull =>
    rw [Option.map_eq_some_iff] at h
    rcases h with ⟨y, hread, hy⟩
    cases hy
    exact ⟨r, hread⟩
  all_goals cases h

end

end Json
end TransitSim
