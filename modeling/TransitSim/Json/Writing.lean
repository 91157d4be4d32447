import TransitSim.Json.Value

/-!
# Writing JSON

A value is written compactly or with one item a line, indented by two blanks. Quotes, backslashes
and control characters are escaped, and nothing else.
-/

namespace TransitSim
namespace Json

/-!
# Strings
-/

def hexChar (n : Nat) : Char :=
  if n < 10 then Char.ofNat ('0'.toNat + n) else Char.ofNat ('a'.toNat + (n - 10))

def escape (c : Char) : List Char :=
  if c = '"' then ['\\', '"']
  else if c = '\\' then ['\\', '\\']
  else if c = '\x08' then ['\\', 'b']
  else if c = '\x0c' then ['\\', 'f']
  else if c = '\n' then ['\\', 'n']
  else if c = '\r' then ['\\', 'r']
  else if c = '\t' then ['\\', 't']
  else if c.toNat < 0x20 then ['\\', 'u', '0', '0', hexChar (c.toNat / 16), hexChar (c.toNat % 16)]
  else [c]

def quoted (s : String) : List Char :=
  '"' :: s.toList.flatMap escape ++ ['"']

/-!
# Values
-/

inductive Style where
  | compact
  | indented
  deriving DecidableEq, Repr

namespace Style

def lineBreak : Style → Nat → List Char
  | .compact, _ => []
  | .indented, depth => '\n' :: List.replicate (2 * depth) ' '

def colon : Style → List Char
  | .compact => [':']
  | .indented => [':', ' ']

def separated (style : Style) (depth : Nat) : List (List Char) → List Char
  | [] => []
  | [item] => style.lineBreak depth ++ item
  | item :: rest => style.lineBreak depth ++ item ++ ',' :: separated style depth rest

def enclosed (style : Style) (depth : Nat) (opening closing : Char) (items : List (List Char)) :
    List Char :=
  if items.isEmpty then [opening, closing]
  else opening :: separated style (depth + 1) items ++ style.lineBreak depth ++ [closing]

end Style

mutual

def chars (style : Style) (depth : Nat) : Json → List Char
  | .null => "null".toList
  | .bool true => "true".toList
  | .bool false => "false".toList
  | .number n => n.text
  | .string s => quoted s
  | .array items => style.enclosed depth '[' ']' (itemChars style (depth + 1) items)
  | .object members => style.enclosed depth '\x7b' '\x7d' (memberChars style (depth + 1) members)

def itemChars (style : Style) (depth : Nat) : List Json → List (List Char)
  | [] => []
  | item :: rest => chars style depth item :: itemChars style depth rest

def memberChars (style : Style) (depth : Nat) : List (String × Json) → List (List Char)
  | [] => []
  | (key, value) :: rest =>
      (quoted key ++ style.colon ++ chars style depth value) :: memberChars style depth rest

end

def compactText (j : Json) : String :=
  String.ofList (chars .compact 0 j)

def indentedText (j : Json) : String :=
  String.ofList (chars .indented 0 j)

end Json
end TransitSim
