import TransitSim.Json.Record
import TransitSim.Proofs.Decimal.Words
import TransitSim.Proofs.Decimal.Shortest
import TransitSim.Proofs.Json.Numerals
import TransitSim.Proofs.Json.Strings

/-!
# Reading back values

A value that has been written, compactly or indented, is read back as one tree. Nothing is lost in
it, but for the doubles, whose numerals are left to be judged.
-/

namespace TransitSim
namespace Json

open Binary64 Decimal Shortest

/-!
# The tree of a value
-/

def shownDigits (m : Nat) (e : Int) : Digits :=
  if m = 0 then ⟨0, 0⟩ else digits .even m e

def Number.raw : Number → Raw
  | .natural n => .number (.ofNat false n)
  | .negative n => .number (.ofNat true n)
  | .real x => match exact x with
      | .finite minus m e => .number (.ofDigits minus (shownDigits m e))
      | _ => .null

mutual

def raw : Json → Raw
  | .null => .null
  | .bool b => .bool b
  | .number n => n.raw
  | .string s => .string (pieces s)
  | .array items => .array (rawItems items)
  | .object members => .object (rawMembers members)

def rawItems : List Json → List Raw
  | [] => []
  | item :: rest => raw item :: rawItems rest

def rawMembers : List (String × Json) → List (List Piece × Raw)
  | [] => []
  | (key, value) :: rest => (pieces key, raw value) :: rawMembers rest

end

/-!
# Numbers
-/

theorem isShown_shownDigits {x : Float} {negative : Bool} {m : Nat} {e : Int}
    (h : exact x = .finite negative m e) : IsShown (shownDigits m e) := by
  rw [shownDigits]
  split
  case isTrue => exact ⟨Nat.zero_le _, fun _ => rfl⟩
  case isFalse hm =>
    rcases digits_of_isDouble .even (isDouble_of_exact h (Nat.pos_of_ne_zero hm)) with
      ⟨-, hpos, hle⟩
    exact ⟨hle, fun hzero => absurd hzero (Nat.ne_of_gt hpos)⟩

theorem text_of_number (n : Number) :
    (exists numeral : Numeral, n.raw = .number numeral ∧ numeral.IsProper ∧
        n.text = numeral.chars) ∨
      (n.raw = .null ∧ n.text = "null".toList) := by
  cases n with
  | natural n => exact Or.inl ⟨_, rfl, isProper_ofNat false n, (chars_ofNat false n).symm⟩
  | negative n => exact Or.inl ⟨_, rfl, isProper_ofNat true n, (chars_ofNat true n).symm⟩
  | real x =>
      rw [Number.raw, Number.text, Layout.finite?]
      cases hexact : exact x with
      | infinite negative => exact Or.inr ⟨rfl, rfl⟩
      | nan => exact Or.inr ⟨rfl, rfl⟩
      | finite negative m e =>
          have hbody : (if m = 0 then positionalText Layout.scientific.keepsPoint ⟨0, 0⟩
              else Layout.scientific.magnitude (digits Layout.scientific.tie m e)) =
              (Numeral.ofDigits false (shownDigits m e)).chars := by
            rw [← magnitude_scientific, shownDigits]
            split <;> rfl
          have hsign : ∀ d, (Numeral.ofDigits negative d).chars =
              if negative then '-' :: (Numeral.ofDigits false d).chars
              else (Numeral.ofDigits false d).chars := by
            intro d
            rw [Numeral.ofDigits, Numeral.ofDigits]
            split
            · split <;> cases negative <;> rfl
            · split <;> cases negative <;> rfl
          refine Or.inl ⟨_, rfl, isProper_ofDigits negative (isShown_shownDigits hexact), ?_⟩
          rw [hsign]
          dsimp only
          rw [hbody, Option.getD_some]

/-!
# White space
-/

theorem isSpace_of_numeral {c : Char} (h : c.isDigit = true ∨ c = '-') : isSpace c = false := by
  by_contra hspace
  rw [Bool.not_eq_false] at hspace
  simp only [isSpace, Bool.or_eq_true, decide_eq_true_eq] at hspace
  rcases hspace with ((rfl | rfl) | rfl) | rfl <;> exact absurd h (by decide)

theorem skipSpace_cons {c : Char} (h : isSpace c = false) (cs : List Char) :
    skipSpace (c :: cs) = c :: cs :=
  List.dropWhile_cons_of_neg (Bool.not_eq_true _ ▸ h)

theorem skipSpace_lineBreak (style : Style) (depth : Nat) (cs : List Char) :
    skipSpace (style.lineBreak depth ++ cs) = skipSpace cs := by
  refine List.dropWhile_append_of_pos fun c hc => ?_
  cases style with
  | compact => cases hc
  | indented =>
      rcases List.mem_cons.mp hc with rfl | hblank
      · rfl
      · rw [List.eq_of_mem_replicate hblank]
        rfl

theorem skipSpace_skipSpace (cs : List Char) : skipSpace (skipSpace cs) = skipSpace cs := by
  induction cs with
  | nil => rfl
  | cons c cs ih =>
      cases hc : isSpace c with
      | true =>
          have hskip : skipSpace (c :: cs) = skipSpace cs := List.dropWhile_cons_of_pos hc
          rw [hskip, ih]
      | false => rw [skipSpace_cons hc, skipSpace_cons hc]

theorem readValue?_skip {cs ds : List Char} (h : skipSpace cs = skipSpace ds) (fuel : Nat) :
    readValue? fuel cs = readValue? fuel ds := by
  cases fuel with
  | zero => rw [readValue?, readValue?]
  | succ fuel => rw [readValue?, readValue?, h]

theorem readItems?_skip {cs ds : List Char} (h : skipSpace cs = skipSpace ds) (fuel : Nat) :
    readItems? fuel cs = readItems? fuel ds := by
  cases fuel with
  | zero => rw [readItems?, readItems?]
  | succ fuel => rw [readItems?, readItems?, readValue?_skip h]

theorem readMembers?_skip {cs ds : List Char} (h : skipSpace cs = skipSpace ds) (fuel : Nat) :
    readMembers? fuel cs = readMembers? fuel ds := by
  cases fuel with
  | zero => rw [readMembers?, readMembers?]
  | succ fuel => rw [readMembers?, readMembers?, h]

/-!
# Written strings and containers
-/

theorem quoted_append (s : String) (cs : List Char) :
    quoted s ++ cs = '"' :: (s.toList.flatMap escape ++ '"' :: cs) := by
  rw [quoted, List.append_assoc]
  rfl

theorem enclosed_append (style : Style) (depth : Nat) (opening closing : Char) (item : List Char)
    (items : List (List Char)) (cs : List Char) :
    style.enclosed depth opening closing (item :: items) ++ cs =
      opening :: (style.separated (depth + 1) (item :: items) ++
        (style.lineBreak depth ++ closing :: cs)) := by
  rw [Style.enclosed, List.isEmpty_cons, if_neg Bool.false_ne_true, List.append_assoc,
    List.append_assoc]
  rfl

theorem length_enclosed (style : Style) (depth : Nat) (opening closing : Char)
    {items : List (List Char)} (h : items ≠ []) :
    (style.separated (depth + 1) items).length + 2 ≤
      (style.enclosed depth opening closing items).length := by
  rw [Style.enclosed, if_neg (by rwa [List.isEmpty_iff])]
  simp only [List.length_append, List.length_cons]
  omega

theorem separated_append (style : Style) (depth : Nat) (item : List Char) (items : List (List Char))
    (cs : List Char) :
    exists ds, style.separated depth (item :: items) ++ cs =
      style.lineBreak depth ++ (item ++ ds) := by
  cases items with
  | nil => exact ⟨cs, List.append_assoc ..⟩
  | cons next items =>
      refine ⟨',' :: (style.separated depth (next :: items) ++ cs), ?_⟩
      rw [Style.separated, List.append_assoc, List.append_assoc]
      · rfl
      · exact List.cons_ne_nil _ _

theorem skipSpace_separated (style : Style) (depth : Nat) {c : Char} (hc : isSpace c = false)
    (item : List Char) (items : List (List Char)) (cs : List Char) :
    (skipSpace (style.separated depth ((c :: item) :: items) ++ cs)).head? = some c := by
  rcases separated_append style depth (c :: item) items cs with ⟨ds, heq⟩
  rw [heq, skipSpace_lineBreak, List.cons_append, skipSpace_cons hc]
  rfl

/-!
# Steps of the reader
-/

theorem readValue?_numeral {c : Char} (cs : List Char) (h : c.isDigit = true ∨ c = '-')
    (fuel : Nat) :
    readValue? (fuel + 1) (c :: cs) =
      (numeral? (c :: cs)).map fun (n, rest) => (.number n, rest) := by
  rw [readValue?, skipSpace_cons (isSpace_of_numeral h)]
  split
  case h_7 => rfl
  all_goals
    rename_i heq
    cases heq
    exact absurd h (by decide)

theorem readValue?_bracket (cs : List Char) (fuel : Nat) :
    readValue? (fuel + 1) ('[' :: cs) = match skipSpace cs with
      | ']' :: rest => some (.array [], rest)
      | rest => (readItems? fuel rest).map fun (items, rest) => (.array items, rest) := by
  rw [readValue?, skipSpace_cons rfl]
  rfl

theorem readValue?_array {cs rest : List Char} {items : List Raw} {fuel : Nat}
    (hcs : ∀ c ∈ (skipSpace cs).head?, c ≠ ']') (h : readItems? fuel cs = some (items, rest)) :
    readValue? (fuel + 1) ('[' :: cs) = some (.array items, rest) := by
  rw [readValue?_bracket]
  split
  case h_1 heq =>
    rw [heq] at hcs
    exact absurd rfl (hcs ']' rfl)
  case h_2 => rw [readItems?_skip (skipSpace_skipSpace cs), h, Option.map_some]

theorem readValue?_brace (cs : List Char) (fuel : Nat) :
    readValue? (fuel + 1) ('\x7b' :: cs) = match skipSpace cs with
      | '\x7d' :: rest => some (.object [], rest)
      | rest => (readMembers? fuel rest).map fun (members, rest) => (.object members, rest) := by
  rw [readValue?, skipSpace_cons rfl]
  rfl

theorem readValue?_object {cs rest : List Char} {members : List (List Piece × Raw)} {fuel : Nat}
    (hcs : ∀ c ∈ (skipSpace cs).head?, c ≠ '\x7d')
    (h : readMembers? fuel cs = some (members, rest)) :
    readValue? (fuel + 1) ('\x7b' :: cs) = some (.object members, rest) := by
  rw [readValue?_brace]
  split
  case h_1 heq =>
    rw [heq] at hcs
    exact absurd rfl (hcs '\x7d' rfl)
  case h_2 => rw [readMembers?_skip (skipSpace_skipSpace cs), h, Option.map_some]

theorem readItems?_last {cs rest rest' : List Char} {item : Raw} {fuel : Nat}
    (hitem : readValue? fuel cs = some (item, rest')) (hrest : skipSpace rest' = ']' :: rest) :
    readItems? (fuel + 1) cs = some ([item], rest) := by
  rw [readItems?, hitem]
  simp only [bind, Option.bind, hrest]

theorem readItems?_comma {cs rest rest' : List Char} {item : Raw} {items : List Raw} {fuel : Nat}
    (hitem : readValue? fuel cs = some (item, ',' :: rest'))
    (hitems : readItems? fuel rest' = some (items, rest)) :
    readItems? (fuel + 1) cs = some (item :: items, rest) := by
  rw [readItems?, hitem]
  simp only [bind, Option.bind, skipSpace_cons (show isSpace ',' = false from rfl), hitems]

theorem readMembers?_key (key : String) (style : Style) (cs : List Char) (fuel : Nat) :
    readMembers? (fuel + 1) (quoted key ++ (style.colon ++ cs)) =
      (readValue? fuel cs).bind fun (value, rest) => match skipSpace rest with
        | '\x7d' :: rest => some ([(pieces key, value)], rest)
        | ',' :: rest => (readMembers? fuel rest).bind fun (members, rest) =>
            some ((pieces key, value) :: members, rest)
        | _ => none := by
  have hcolon : skipSpace (style.colon ++ cs) = ':' :: (style.colon ++ cs).tail := by
    cases style <;> rfl
  have hvalue : readValue? fuel (style.colon ++ cs).tail = readValue? fuel cs := by
    cases style with
    | compact => rfl
    | indented => exact readValue?_skip (show skipSpace (' ' :: cs) = skipSpace cs from rfl) fuel
  rw [quoted_append, readMembers?, skipSpace_cons rfl]
  split
  case h_1 heq =>
    cases heq
    rw [readPieces?_escapes]
    simp only [bind, Option.bind, hcolon]
    rw [← hvalue]
    rfl
  case h_2 hother => exact absurd rfl (hother _)

/-!
# Values
-/

theorem chars_ne_nil {n : Numeral} (h : n.IsProper) :
    exists c cs, n.chars = c :: cs ∧ (c.isDigit = true ∨ c = '-') := by
  rcases n with ⟨negative, whole, fraction, exponent⟩
  cases whole with
  | nil => cases h.whole
  | cons c cs =>
      cases negative with
      | true => exact ⟨'-', _, rfl, Or.inr rfl⟩
      | false => exact ⟨c, _, rfl, Or.inl (h.digits c List.mem_cons_self)⟩

theorem chars_eq_cons (style : Style) (depth : Nat) (j : Json) :
    exists c cs, chars style depth j = c :: cs ∧ isSpace c = false ∧ c ≠ ']' := by
  cases j with
  | null => exact ⟨'n', _, rfl, by decide⟩
  | bool b => cases b <;> exact ⟨_, _, rfl, by decide⟩
  | string s => exact ⟨'"', _, rfl, by decide⟩
  | array items =>
      rw [chars, Style.enclosed]
      split <;> exact ⟨'[', _, rfl, by decide⟩
  | object members =>
      rw [chars, Style.enclosed]
      split <;> exact ⟨'\x7b', _, rfl, by decide⟩
  | number n =>
      rw [chars]
      rcases text_of_number n with ⟨numeral, -, hproper, htext⟩ | ⟨-, htext⟩
      · rcases chars_ne_nil hproper with ⟨c, cs, heq, hc⟩
        refine ⟨c, cs, by rw [htext, heq], isSpace_of_numeral hc, ?_⟩
        rintro rfl
        exact absurd hc (by decide)
      · exact ⟨'n', _, htext, by decide⟩

theorem endsNumeral_cons {c : Char} (h : IsDelimiter c) (cs : List Char) :
    EndsNumeral (c :: cs) := by
  rintro _ ⟨⟩
  exact h

theorem endsNumeral_lineBreak {c : Char} (h : IsDelimiter c) (style : Style) (depth : Nat)
    (cs : List Char) : EndsNumeral (style.lineBreak depth ++ c :: cs) := by
  cases style with
  | compact => exact endsNumeral_cons h cs
  | indented => exact endsNumeral_cons (by decide) _

theorem readValue?_text (n : Number) {rest : List Char} (h : EndsNumeral rest) (fuel : Nat) :
    readValue? (fuel + 1) (n.text ++ rest) = some (n.raw, rest) := by
  rcases text_of_number n with ⟨numeral, hraw, hproper, htext⟩ | ⟨hraw, htext⟩
  · rcases chars_ne_nil hproper with ⟨c, cs, heq, hc⟩
    have hread := numeral?_chars hproper h
    rw [hraw, htext]
    rw [heq, List.cons_append] at hread ⊢
    rw [readValue?_numeral _ hc, hread, Option.map_some]
  · rw [hraw, htext]
    rfl

theorem length_chars_pos (style : Style) (depth : Nat) (j : Json) :
    0 < (chars style depth j).length := by
  rcases chars_eq_cons style depth j with ⟨c, cs, heq, -⟩
  rw [heq]
  exact Nat.succ_pos _

mutual

theorem readValue?_chars (style : Style) : ∀ (j : Json) (depth fuel : Nat) (rest : List Char),
    2 * (chars style depth j).length ≤ fuel → EndsNumeral rest →
      readValue? fuel (chars style depth j ++ rest) = some (raw j, rest)
  | j, depth, 0, rest, hfuel, _ => by
      have hpos := length_chars_pos style depth j
      omega
  | .null, depth, fuel + 1, rest, _, _ => rfl
  | .bool true, depth, fuel + 1, rest, _, _ => rfl
  | .bool false, depth, fuel + 1, rest, _, _ => rfl
  | .number n, depth, fuel + 1, rest, _, hrest => by
      rw [chars, raw]
      exact readValue?_text n hrest fuel
  | .string s, depth, fuel + 1, rest, _, _ => by
      rw [chars, raw, quoted_append, readValue?, skipSpace_cons rfl]
      show (readPieces? (s.toList.flatMap escape ++ '"' :: rest)).map _ = _
      rw [readPieces?_escapes]
      rfl
  | .array [], depth, fuel + 1, rest, _, _ => rfl
  | .array (item :: items), depth, fuel + 1, rest, hfuel, _ => by
      rw [chars] at hfuel ⊢
      have hlength := length_enclosed style depth '[' ']'
        (show itemChars style (depth + 1) (item :: items) ≠ [] from List.cons_ne_nil _ _)
      have hread := readItems?_separated style item items (depth + 1) depth fuel rest (by omega)
      rw [itemChars] at hread ⊢
      rw [raw, enclosed_append]
      refine readValue?_array ?_ hread
      rcases chars_eq_cons style (depth + 1) item with ⟨c, cs, heq, hspace, hc⟩
      rw [heq, skipSpace_separated style _ hspace]
      rintro _ ⟨⟩
      exact hc
  | .object [], depth, fuel + 1, rest, _, _ => rfl
  | .object ((key, value) :: members), depth, fuel + 1, rest, hfuel, _ => by
      rw [chars] at hfuel ⊢
      have hlength := length_enclosed style depth '\x7b' '\x7d'
        (show memberChars style (depth + 1) ((key, value) :: members) ≠ [] from
          List.cons_ne_nil _ _)
      have hread := readMembers?_separated style (key, value) members (depth + 1) depth fuel rest
        (by omega)
      rw [memberChars] at hread ⊢
      rw [raw, enclosed_append]
      refine readValue?_object ?_ hread
      rw [List.append_assoc, quoted_append, skipSpace_separated style _ rfl]
      rintro _ ⟨⟩
      decide
termination_by structural _ _ fuel => fuel

theorem readItems?_separated (style : Style) : ∀ (item : Json) (items : List Json)
    (depth outer fuel : Nat) (rest : List Char),
    2 * (style.separated depth (itemChars style depth (item :: items))).length + 1 ≤ fuel →
      readItems? fuel (style.separated depth (itemChars style depth (item :: items)) ++
        (style.lineBreak outer ++ ']' :: rest)) = some (rawItems (item :: items), rest)
  | item, [], depth, outer, fuel + 1, rest, hfuel => by
      have hsingle : style.separated depth (itemChars style depth [item]) =
          style.lineBreak depth ++ chars style depth item := rfl
      rw [hsingle] at hfuel ⊢
      rw [List.length_append] at hfuel
      have hends := endsNumeral_lineBreak (show IsDelimiter ']' by decide) style outer rest
      have hitem := readValue?_chars style item depth fuel _ (by omega) hends
      rw [← readValue?_skip (skipSpace_lineBreak style depth _)] at hitem
      rw [List.append_assoc]
      refine readItems?_last hitem ?_
      rw [skipSpace_lineBreak, skipSpace_cons rfl]
  | item, next :: items, depth, outer, fuel + 1, rest, hfuel => by
      have hcomma : style.separated depth (itemChars style depth (item :: next :: items)) =
          style.lineBreak depth ++ chars style depth item ++
            ',' :: style.separated depth (itemChars style depth (next :: items)) := rfl
      rw [hcomma] at hfuel ⊢
      simp only [List.length_append, List.length_cons] at hfuel
      have hitems := readItems?_separated style next items depth outer fuel rest (by omega)
      have hitem := readValue?_chars style item depth fuel (',' ::
        (style.separated depth (itemChars style depth (next :: items)) ++
          (style.lineBreak outer ++ ']' :: rest))) (by omega)
        (endsNumeral_cons (by decide) _)
      rw [← readValue?_skip (skipSpace_lineBreak style depth _)] at hitem
      rw [List.append_assoc, List.append_assoc, List.cons_append]
      exact readItems?_comma hitem hitems
termination_by structural _ _ _ _ fuel => fuel

theorem readMembers?_separated (style : Style) : ∀ (member : String × Json)
    (members : List (String × Json)) (depth outer fuel : Nat) (rest : List Char),
    2 * (style.separated depth (memberChars style depth (member :: members))).length + 1 ≤ fuel →
      readMembers? fuel (style.separated depth (memberChars style depth (member :: members)) ++
        (style.lineBreak outer ++ '\x7d' :: rest)) = some (rawMembers (member :: members), rest)
  | (key, value), [], depth, outer, fuel + 1, rest, hfuel => by
      have hsingle : style.separated depth (memberChars style depth [(key, value)]) =
          style.lineBreak depth ++ (quoted key ++ style.colon ++ chars style depth value) := rfl
      rw [hsingle] at hfuel ⊢
      simp only [List.length_append] at hfuel
      have hends := endsNumeral_lineBreak (show IsDelimiter '\x7d' by decide) style outer rest
      have hvalue := readValue?_chars style value depth fuel _ (by omega) hends
      rw [List.append_assoc, readMembers?_skip (skipSpace_lineBreak style depth _),
        List.append_assoc, List.append_assoc, readMembers?_key, hvalue, Option.bind_some]
      dsimp only
      rw [skipSpace_lineBreak, skipSpace_cons rfl]
      rfl
  | (key, value), next :: members, depth, outer, fuel + 1, rest, hfuel => by
      have hcomma : style.separated depth
            (memberChars style depth ((key, value) :: next :: members)) =
          style.lineBreak depth ++ (quoted key ++ style.colon ++ chars style depth value) ++
            ',' :: style.separated depth (memberChars style depth (next :: members)) := rfl
      rw [hcomma] at hfuel ⊢
      simp only [List.length_append, List.length_cons] at hfuel
      have hmembers := readMembers?_separated style next members depth outer fuel rest
        (by omega)
      have hvalue := readValue?_chars style value depth fuel (',' ::
        (style.separated depth (memberChars style depth (next :: members)) ++
          (style.lineBreak outer ++ '\x7d' :: rest))) (by omega)
        (endsNumeral_cons (by decide) _)
      rw [List.append_assoc, List.append_assoc,
        readMembers?_skip (skipSpace_lineBreak style depth _), List.append_assoc,
        List.append_assoc, List.cons_append, readMembers?_key, hvalue, Option.bind_some]
      dsimp only
      rw [skipSpace_cons rfl]
      show (readMembers? fuel _).bind _ = _
      rw [hmembers]
      rfl
termination_by structural _ _ _ _ fuel => fuel

end

theorem ofChars?_chars (style : Style) (j : Json) :
    Raw.ofChars? (chars style 0 j) = some (raw j) := by
  have hread := readValue?_chars style j 0 (2 * (chars style 0 j).length + 1) []
    (Nat.le_succ _) (fun _ h => by cases h)
  rw [List.append_nil] at hread
  rw [Raw.ofChars?, hread]
  rfl

theorem ofText?_compactText (j : Json) : Raw.ofText? j.compactText = some (raw j) := by
  rw [Raw.ofText?, compactText, String.toList_ofList, ofChars?_chars]

theorem ofText?_indentedText (j : Json) : Raw.ofText? j.indentedText = some (raw j) := by
  rw [Raw.ofText?, indentedText, String.toList_ofList, ofChars?_chars]

end Json
end TransitSim
