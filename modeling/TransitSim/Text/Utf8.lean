/-!
# UTF-8

Reading octets as UTF-8. `decode` gives the characters, or, for octets that are not UTF-8, how
many of the leading octets form whole characters.
-/

namespace TransitSim
namespace Utf8

def isTail (b : UInt8) : Bool :=
  0x80 ≤ b.toNat && b.toNat ≤ 0xBF

def tailBits (b : UInt8) : Nat :=
  b.toNat % 0x40

/-- The first character of a sequence and how many octets it takes. Overlong forms, surrogates
and values beyond the last code point are no characters. -/
def first? : List UInt8 → Option (Char × Nat)
  | [] => none
  | a :: rest =>
      let lead := a.toNat
      if lead < 0x80 then some (Char.ofNat lead, 1)
      else match rest with
        | [] => none
        | b :: rest =>
            if !isTail b then none
            else if 0xC2 ≤ lead && lead ≤ 0xDF then
              some (Char.ofNat (lead % 0x20 * 0x40 + tailBits b), 2)
            else match rest with
              | [] => none
              | c :: rest =>
                  if !isTail c then none
                  else if 0xE0 ≤ lead && lead ≤ 0xEF then
                    let n := (lead % 0x10 * 0x40 + tailBits b) * 0x40 + tailBits c
                    if n < 0x800 || (0xD800 ≤ n && n ≤ 0xDFFF) then none
                    else some (Char.ofNat n, 3)
                  else match rest with
                    | [] => none
                    | d :: _ =>
                        let n := ((lead % 0x08 * 0x40 + tailBits b) * 0x40 + tailBits c) * 0x40
                          + tailBits d
                        if !isTail d || lead < 0xF0 || 0xF4 < lead || n < 0x10000 || 0x10FFFF < n
                        then none
                        else some (Char.ofNat n, 4)

/-- The characters of a sequence of octets. `skip` octets in front belong to a character that has
been read; `read` octets lie before the next one. -/
def decodeFrom (read skip : Nat) : List UInt8 → Except Nat (List Char)
  | [] => .ok []
  | b :: rest =>
      match skip with
      | skip + 1 => decodeFrom read skip rest
      | 0 =>
          match first? (b :: rest) with
          | none => .error read
          | some (c, size) => (decodeFrom (read + size) (size - 1) rest).map (c :: ·)

def decode (octets : List UInt8) : Except Nat (List Char) :=
  decodeFrom 0 0 octets

def text? (octets : List UInt8) : Option String :=
  match decode octets with
  | .ok cs => some (String.ofList cs)
  | .error _ => none

/-- The characters of a sequence of octets, with `stray` in place of each octet that belongs to no
character. `skip` octets in front belong to a character that has been read. -/
def decodeLoosely (stray : List Char) (skip : Nat) : List UInt8 → List Char
  | [] => []
  | b :: rest =>
      match skip with
      | skip + 1 => decodeLoosely stray skip rest
      | 0 =>
          match first? (b :: rest) with
          | none => stray ++ decodeLoosely stray 0 rest
          | some (c, size) => c :: decodeLoosely stray (size - 1) rest

def encode (s : String) : List UInt8 :=
  s.toUTF8.toList

end Utf8
end TransitSim
