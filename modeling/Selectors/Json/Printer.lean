import Selectors.Json.Basic

/-!
# Writing JSON texts

`Json.compact` writes a tree without blanks and `Json.pretty` on lines of their own with an indent
of two blanks. In strings only the quote, the backslash and control characters are escaped.
-/

namespace Selectors.Json

def hexDigit (n : Nat) : Char :=
  if n < 10 then Char.ofNat ('0'.toNat + n) else Char.ofNat ('a'.toNat + (n - 10))

def escapeChar (c : Char) : List Char :=
  match c with
  | '"' => ['\\', '"']
  | '\\' => ['\\', '\\']
  | '\x08' => ['\\', 'b']
  | '\x0c' => ['\\', 'f']
  | '\n' => ['\\', 'n']
  | '\r' => ['\\', 'r']
  | '\t' => ['\\', 't']
  | _ =>
    if c.toNat < 0x20 then
      ['\\', 'u', '0', '0', hexDigit (c.toNat / 16), hexDigit (c.toNat % 16)]
    else [c]

def quote (s : String) : String := "\"" ++ String.ofList (s.toList.flatMap escapeChar) ++ "\""

mutual
/-- The text of a tree without blanks; a fault is written as `null`. -/
def compact : Json → String
  | .null => "null"
  | .bool true => "true"
  | .bool false => "false"
  | .num literal => literal
  | .str value => quote value
  | .arr items => "[" ++ ",".intercalate (compactItems items) ++ "]"
  | .obj members => "\x7b" ++ ",".intercalate (compactMembers members) ++ "\x7d"
  | .fault _ => "null"

def compactItems : List Json → List String
  | [] => []
  | item :: items => item.compact :: compactItems items

def compactMembers : List (String × Json) → List String
  | [] => []
  | (name, value) :: members => (quote name ++ ":" ++ value.compact) :: compactMembers members
end

/-- Parts between brackets, each on a line of its own; `indent` stands before the closing bracket.
-/
def block (opening closing indent : String) (parts : List String) : String :=
  if parts.isEmpty then opening ++ closing
  else
    let lines := parts.map (indent ++ "  " ++ ·)
    opening ++ "\n" ++ ",\n".intercalate lines ++ "\n" ++ indent ++ closing

mutual
/-- The text of a tree whose lines after the first begin with an indent. -/
def prettyFrom (indent : String) : Json → String
  | .arr items => block "[" "]" indent (prettyItems (indent ++ "  ") items)
  | .obj members => block "\x7b" "\x7d" indent (prettyMembers (indent ++ "  ") members)
  | .null => "null"
  | .bool true => "true"
  | .bool false => "false"
  | .num literal => literal
  | .str value => quote value
  | .fault _ => "null"

def prettyItems (indent : String) : List Json → List String
  | [] => []
  | item :: items => item.prettyFrom indent :: prettyItems indent items

def prettyMembers (indent : String) : List (String × Json) → List String
  | [] => []
  | (name, value) :: members =>
    (quote name ++ ": " ++ value.prettyFrom indent) :: prettyMembers indent members
end

def pretty (j : Json) : String := j.prettyFrom ""

end Selectors.Json
