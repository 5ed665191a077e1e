import Selectors.Json.Basic
import Selectors.Json.Number

/-!
# Tokens of JSON texts

`Token.ofText` cuts a text into tokens in one pass over its characters. The first character that no
token admits gives the token `broken`, and the rest of the text is not read.
-/

namespace Selectors

inductive Token where
  | beginArray
  | endArray
  | beginObject
  | endObject
  | comma
  | colon
  /-- A string, unless it stands for nothing. -/
  | string (value : Option String)
  /-- A literal name or a number. -/
  | scalar (value : Json)
  /-- The text stops being JSON here. -/
  | broken
  deriving Inhabited, Repr

/-! ## Strings in the making -/

/-- The part of a string that has been read: its characters, last first, the first half of a
surrogate pair that waits for the second, and whether all escapes so far stand for characters. -/
structure PartialString where
  chars : List Char := []
  half : Option Nat := none
  isLegible : Bool := true
  deriving Inhabited, Repr

namespace PartialString

def push (p : PartialString) (c : Char) : PartialString :=
  ⟨c :: p.chars, none, p.isLegible && p.half.isNone⟩

/-- Adds the code unit of an escape; two halves of a surrogate pair make one character. -/
def pushUnit (p : PartialString) (unit : Nat) : PartialString :=
  match p.half with
  | some high =>
    if 0xDC00 ≤ unit && unit < 0xE000 then
      let c := Char.ofNat (0x10000 + (high - 0xD800) * 0x400 + (unit - 0xDC00))
      ⟨c :: p.chars, none, p.isLegible⟩
    else ⟨p.chars, none, false⟩
  | none =>
    if 0xD800 ≤ unit && unit < 0xDC00 then ⟨p.chars, some unit, p.isLegible⟩
    else if 0xDC00 ≤ unit && unit < 0xE000 then ⟨p.chars, none, false⟩
    else p.push (Char.ofNat unit)

/-- The string, unless a half of a surrogate pair stands alone in it. -/
def value? (p : PartialString) : Option String :=
  if p.isLegible && p.half.isNone then some (String.ofList p.chars.reverse) else none

end PartialString

/-! ## The lexer -/

/-- What the lexer is in the midst of. Characters of numbers and words are kept last first. -/
inductive LexerMode where
  | between
  | string (sofar : PartialString)
  | escape (sofar : PartialString)
  | hex (sofar : PartialString) (digits : Nat) (value : Nat)
  | number (chars : List Char)
  | word (chars : List Char)
  | stopped
  deriving Inhabited, Repr

/-- The mode of the lexer and the tokens so far, last first. -/
structure Lexer where
  mode : LexerMode := .between
  tokens : List Token := []
  deriving Inhabited, Repr

namespace Lexer

def stop (l : Lexer) : Lexer := ⟨.stopped, .broken :: l.tokens⟩

def emit (l : Lexer) (t : Token) : Lexer := ⟨.between, t :: l.tokens⟩

def hexDigit? (c : Char) : Option Nat :=
  if c.isDigit then some (c.toNat - '0'.toNat)
  else if 'a' ≤ c && c ≤ 'f' then some (c.toNat - 'a'.toNat + 10)
  else if 'A' ≤ c && c ≤ 'F' then some (c.toNat - 'A'.toNat + 10)
  else none

def escape? : Char → Option Char
  | '"' => some '"'
  | '\\' => some '\\'
  | '/' => some '/'
  | 'b' => some '\x08'
  | 'f' => some '\x0c'
  | 'n' => some '\n'
  | 'r' => some '\r'
  | 't' => some '\t'
  | _ => none

/-- Ends a number; one beyond the double range stands for nothing. -/
def endNumber (l : Lexer) (chars : List Char) : Lexer :=
  let literal := chars.reverse
  if NumberLiteral.isWellFormed literal then
    l.emit <| .scalar <|
      if NumberLiteral.isInRange literal then .num (String.ofList literal) else .fault .value
  else l.stop

def endWord (l : Lexer) (chars : List Char) : Lexer :=
  match String.ofList chars.reverse with
  | "null" => l.emit (.scalar .null)
  | "true" => l.emit (.scalar (.bool true))
  | "false" => l.emit (.scalar (.bool false))
  | _ => l.stop

def start (l : Lexer) (c : Char) : Lexer :=
  match c with
  | ' ' | '\t' | '\n' | '\r' => ⟨.between, l.tokens⟩
  | '[' => l.emit .beginArray
  | ']' => l.emit .endArray
  | '{' => l.emit .beginObject
  | '}' => l.emit .endObject
  | ',' => l.emit .comma
  | ':' => l.emit .colon
  | '"' => ⟨.string {}, l.tokens⟩
  | _ =>
    if c == '-' || c.isDigit then ⟨.number [c], l.tokens⟩
    else if c.isAlpha then ⟨.word [c], l.tokens⟩
    else l.stop

def step (l : Lexer) (c : Char) : Lexer :=
  match l.mode with
  | .between => l.start c
  | .string sofar =>
    if c == '"' then l.emit (.string sofar.value?)
    else if c == '\\' then ⟨.escape sofar, l.tokens⟩
    else if c.toNat < 0x20 then l.stop
    else ⟨.string (sofar.push c), l.tokens⟩
  | .escape sofar =>
    if c == 'u' then ⟨.hex sofar 0 0, l.tokens⟩
    else match escape? c with
      | some escaped => ⟨.string (sofar.push escaped), l.tokens⟩
      | none => l.stop
  | .hex sofar digits value =>
    match hexDigit? c with
    | some d =>
      if digits == 3 then ⟨.string (sofar.pushUnit (16 * value + d)), l.tokens⟩
      else ⟨.hex sofar (digits + 1) (16 * value + d), l.tokens⟩
    | none => l.stop
  | .number chars =>
    if NumberLiteral.isPart c then ⟨.number (c :: chars), l.tokens⟩
    else
      let ended := l.endNumber chars
      match ended.mode with
      | .stopped => ended
      | _ => ended.start c
  | .word chars =>
    if c.isAlpha then ⟨.word (c :: chars), l.tokens⟩
    else
      let ended := l.endWord chars
      match ended.mode with
      | .stopped => ended
      | _ => ended.start c
  | .stopped => l

def finish (l : Lexer) : Lexer :=
  match l.mode with
  | .between | .stopped => l
  | .number chars => l.endNumber chars
  | .word chars => l.endWord chars
  | .string _ | .escape _ | .hex .. => l.stop

end Lexer

def Token.ofText (text : String) : List Token :=
  (text.toList.foldl Lexer.step {}).finish.tokens.reverse

end Selectors
