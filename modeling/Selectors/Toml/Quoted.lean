import Selectors.Json.Token

/-!
# Quoted TOML strings

Basic strings have escapes and literal strings have none; both come on one line or on several. Each
function reads the rest of a string after its opening quotes and gives its characters, last first,
and what follows the closing quotes.
-/

namespace Selectors.TomlQuoted

/-- Whether a character can stand for itself in a string or a comment: no control character but the
tab. -/
def isPlain (c : Char) : Bool := c == '\t' || (0x20 ≤ c.toNat && c.toNat != 0x7F)

def codePoint? (digits : List Char) : Option Char := do
  let code := (← digits.mapM Lexer.hexDigit?).foldl (fun n d => 16 * n + d) 0
  if code < 0xD800 || (0xDFFF < code && code < 0x110000) then some (Char.ofNat code) else none

def escape? : Char → Option Char
  | '"' => some '"'
  | '\\' => some '\\'
  | 'b' => some '\x08'
  | 'e' => some '\x1b'
  | 'f' => some '\x0c'
  | 'n' => some '\n'
  | 'r' => some '\r'
  | 't' => some '\t'
  | _ => none

def basic? (sofar : List Char) : List Char → Option (List Char × List Char)
  | [] => none
  | '"' :: cs => some (sofar, cs)
  | '\\' :: 'x' :: a :: b :: cs => do basic? ((← codePoint? [a, b]) :: sofar) cs
  | '\\' :: 'u' :: a :: b :: c :: d :: cs => do basic? ((← codePoint? [a, b, c, d]) :: sofar) cs
  | '\\' :: 'U' :: a :: b :: c :: d :: e :: f :: g :: h :: cs => do
    basic? ((← codePoint? [a, b, c, d, e, f, g, h]) :: sofar) cs
  | '\\' :: c :: cs => do basic? ((← escape? c) :: sofar) cs
  | c :: cs => if isPlain c then basic? (c :: sofar) cs else none

def literal? (sofar : List Char) : List Char → Option (List Char × List Char)
  | [] => none
  | '\'' :: cs => some (sofar, cs)
  | c :: cs => if isPlain c then literal? (c :: sofar) cs else none

/-- What is left out after a backslash at the end of a line. -/
inductive Skipping where
  /-- Nothing. -/
  | nothing
  /-- Blanks up to the end of the line, which has to come. -/
  | toLineEnd
  /-- Blanks and line ends. -/
  | toText
  deriving DecidableEq, Inhabited

def basicLines? (skipping : Skipping) (sofar : List Char) :
    List Char → Option (List Char × List Char)
  | [] => none
  | '\n' :: cs =>
    if skipping = .nothing then basicLines? .nothing ('\n' :: sofar) cs
    else basicLines? .toText sofar cs
  | '\r' :: '\n' :: cs =>
    if skipping = .nothing then basicLines? .nothing ('\n' :: '\r' :: sofar) cs
    else basicLines? .toText sofar cs
  | '"' :: '"' :: '"' :: '"' :: '"' :: cs =>
    if skipping = .toLineEnd then none else some ('"' :: '"' :: sofar, cs)
  | '"' :: '"' :: '"' :: '"' :: cs =>
    if skipping = .toLineEnd then none else some ('"' :: sofar, cs)
  | '"' :: '"' :: '"' :: cs => if skipping = .toLineEnd then none else some (sofar, cs)
  | '\\' :: 'x' :: a :: b :: cs => do
    if skipping = .toLineEnd then none else basicLines? .nothing ((← codePoint? [a, b]) :: sofar) cs
  | '\\' :: 'u' :: a :: b :: c :: d :: cs => do
    if skipping = .toLineEnd then none
    else basicLines? .nothing ((← codePoint? [a, b, c, d]) :: sofar) cs
  | '\\' :: 'U' :: a :: b :: c :: d :: e :: f :: g :: h :: cs => do
    if skipping = .toLineEnd then none
    else basicLines? .nothing ((← codePoint? [a, b, c, d, e, f, g, h]) :: sofar) cs
  | '\\' :: c :: cs => do
    if skipping = .toLineEnd then none
    else if c = ' ' || c = '\t' || c = '\r' then
      basicLines? .toLineEnd sofar (c :: cs)
    else if c = '\n' then basicLines? .toText sofar cs
    else basicLines? .nothing ((← escape? c) :: sofar) cs
  | c :: cs =>
    if skipping ≠ .nothing && (c = ' ' || c = '\t') then basicLines? skipping sofar cs
    else if skipping = .toLineEnd then none
    else if isPlain c then basicLines? .nothing (c :: sofar) cs
    else none

def literalLines? (sofar : List Char) : List Char → Option (List Char × List Char)
  | [] => none
  | '\r' :: '\n' :: cs => literalLines? ('\n' :: '\r' :: sofar) cs
  | '\n' :: cs => literalLines? ('\n' :: sofar) cs
  | '\'' :: '\'' :: '\'' :: '\'' :: '\'' :: cs => some ('\'' :: '\'' :: sofar, cs)
  | '\'' :: '\'' :: '\'' :: '\'' :: cs => some ('\'' :: sofar, cs)
  | '\'' :: '\'' :: '\'' :: cs => some (sofar, cs)
  | c :: cs => if isPlain c then literalLines? (c :: sofar) cs else none

def dropLineEnd : List Char → List Char
  | '\n' :: cs => cs
  | '\r' :: '\n' :: cs => cs
  | cs => cs

def string? : List Char → Option (String × List Char)
  | '"' :: '"' :: '"' :: cs => (basicLines? .nothing [] (dropLineEnd cs)).map finish
  | '"' :: cs => (basic? [] cs).map finish
  | '\'' :: '\'' :: '\'' :: cs => (literalLines? [] (dropLineEnd cs)).map finish
  | '\'' :: cs => (literal? [] cs).map finish
  | _ => none
where
  /-- The string of characters that come last first. -/
  finish : List Char × List Char → String × List Char
    | (chars, rest) => (String.ofList chars.reverse, rest)

end Selectors.TomlQuoted
