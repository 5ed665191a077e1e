import Selectors.Toml.Basic
import Selectors.Toml.Literal
import Selectors.Toml.Quoted

/-!
# Reading TOML texts

`TomlText.read?` gives the entries of the root table of a text, or `none` if the text is not TOML.
Inline tables may be spread over lines and end with a comma. The readers of parts take the rest of
the text and give what follows the part.
-/

namespace Selectors.TomlText

open TomlQuoted (isPlain)
open TomlLiteral (isBlank)

/-- How many parts a dotted key may have, and how many arrays and inline tables may stand within one
another. -/
def maxDepth : Nat := 80

/-! ## Blanks, comments and line ends -/

def dropBlanks (cs : List Char) : List Char := cs.dropWhile isBlank

def afterComment? : List Char → Option (List Char)
  | [] => some []
  | '\n' :: cs => some ('\n' :: cs)
  | '\r' :: '\n' :: cs => some ('\n' :: cs)
  | c :: cs => if isPlain c then afterComment? cs else none

/-- Leaves out blanks, a comment and the end of a line, which has to come. -/
def afterLine? (cs : List Char) : Option (List Char) := do
  let cs := dropBlanks cs
  match ← (if cs.head? = some '#' then afterComment? cs.tail else some cs) with
  | [] => some []
  | '\n' :: rest => some rest
  | '\r' :: '\n' :: rest => some rest
  | _ => none

def afterGap? (inComment : Bool) : List Char → Option (List Char)
  | [] => some []
  | '\n' :: cs => afterGap? false cs
  | '\r' :: '\n' :: cs => afterGap? false cs
  | c :: cs =>
    if inComment then (if isPlain c then afterGap? true cs else none)
    else if isBlank c then afterGap? false cs
    else if c == '#' then afterGap? true cs
    else some (c :: cs)

/-! ## Keys -/

def isBareKeyPart (c : Char) : Bool := c.isAlphanum || c == '_' || c == '-'

def beginsLines : List Char → Bool
  | '"' :: '"' :: '"' :: _ => true
  | '\'' :: '\'' :: '\'' :: _ => true
  | _ => false

def simpleKey? (cs : List Char) : Option (String × List Char) :=
  if beginsLines cs then none
  else match TomlQuoted.string? cs with
    | some result => some result
    | none =>
      let bare := cs.takeWhile isBareKeyPart
      if bare.isEmpty then none else some (String.ofList bare, cs.drop bare.length)

def key? : Nat → List Char → Option (List String × List Char)
  | 0, _ => none
  | parts + 1, cs => do
    let (name, rest) ← simpleKey? cs
    match dropBlanks rest with
    | '.' :: rest => do
      let (path, rest) ← key? parts (dropBlanks rest)
      return (name :: path, rest)
    | rest => return ([name], rest)

/-! ## Values -/

def literal? (cs : List Char) : Option (Toml × List Char) :=
  let word := TomlLiteral.chars cs
  let rest := cs.drop word.length
  if word == "true".toList then some (.bool true, rest)
  else if word == "false".toList then some (.bool false, rest)
  else if TomlLiteral.isLiteral word then some (.literal (String.ofList word), rest)
  else none

/-- Reads the rest of an array of at most so many items. -/
def items? (value? : List Char → Option (Toml × List Char)) :
    Nat → List Toml → List Char → Option (List Toml × List Char)
  | 0, _, _ => none
  | count + 1, sofar, cs => do
    match ← afterGap? false cs with
    | ']' :: rest => return (sofar.reverse, rest)
    | cs => do
      let (item, rest) ← value? cs
      match ← afterGap? false rest with
      | ',' :: rest => items? value? count (item :: sofar) rest
      | ']' :: rest => return ((item :: sofar).reverse, rest)
      | _ => none

def entries? (value? : List Char → Option (Toml × List Char)) :
    Nat → TomlEntries → List Char → Option (TomlEntries × List Char)
  | 0, _, _ => none
  | count + 1, sofar, cs => do
    match ← afterGap? false cs with
    | '}' :: rest => return (sofar, rest)
    | cs => do
      let (path, rest) ← key? maxDepth cs
      match ← afterGap? false rest with
      | '=' :: rest => do
        let (value, rest) ← value? (← afterGap? false rest)
        let entries ← Toml.assign? value path sofar
        match ← afterGap? false rest with
        | ',' :: rest => entries? value? count entries rest
        | '}' :: rest => return (entries, rest)
        | _ => none
      | _ => none

def value? : Nat → List Char → Option (Toml × List Char)
  | _, '"' :: cs => (TomlQuoted.string? ('"' :: cs)).map fun (s, rest) => (.text s, rest)
  | _, '\'' :: cs => (TomlQuoted.string? ('\'' :: cs)).map fun (s, rest) => (.text s, rest)
  | 0, '[' :: _ => none
  | 0, '{' :: _ => none
  | levels + 1, '[' :: cs => do
    let (items, rest) ← items? (value? levels) (cs.length + 1) [] cs
    return (.array false items, rest)
  | levels + 1, '{' :: cs => do
    let (entries, rest) ← entries? (value? levels) (cs.length + 1) [] cs
    return (.table .inline entries, rest)
  | _, cs => literal? cs

/-! ## Documents -/

/-- Reads at most so many lines. The path is that of the last header, the entries are those of the
root table. -/
def lines? : Nat → List String → TomlEntries → List Char → Option TomlEntries
  | 0, _, root, cs => if cs.isEmpty then some root else none
  | count + 1, path, root, cs => do
    match dropBlanks cs with
    | [] => return root
    | '[' :: '[' :: cs => do
      let (opened, rest) ← key? maxDepth (dropBlanks cs)
      match rest with
      | ']' :: ']' :: rest =>
        lines? count opened (← Toml.openElement? opened root) (← afterLine? rest)
      | _ => none
    | '[' :: cs => do
      let (opened, rest) ← key? maxDepth (dropBlanks cs)
      match rest with
      | ']' :: rest => lines? count opened (← Toml.openTable? opened root) (← afterLine? rest)
      | _ => none
    | c :: cs =>
      if c == '\n' || c == '\r' || c == '#' then do lines? count path root (← afterLine? (c :: cs))
      else do
        let (name, rest) ← key? maxDepth (c :: cs)
        match rest with
        | '=' :: rest => do
          let (value, rest) ← value? maxDepth (dropBlanks rest)
          lines? count path (← Toml.within? (Toml.assign? value name) path root) (← afterLine? rest)
        | _ => none

/-- The entries of the root table of a text. A byte order mark may stand before it. -/
def read? (text : String) : Option TomlEntries :=
  let chars := match text.toList with
    | '\uFEFF' :: cs => cs
    | cs => cs
  lines? (chars.length + 1) [] [] chars

end Selectors.TomlText
