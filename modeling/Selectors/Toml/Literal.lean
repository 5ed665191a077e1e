/-!
# TOML literals

The grammars of TOML integers, floats, dates and times. A literal is recognised and kept as text; no
value is computed, so an integer passes whose digits would only fail when its value is asked for.
-/

namespace Selectors.TomlLiteral

def isBlank (c : Char) : Bool := c == ' ' || c == '\t'

def endsLiteral (c : Char) : Bool :=
  ['=', ',', '[', ']', '{', '}', '#', '\r', '\n'].contains c

/-- The characters before the first blank that a quote follows. -/
def beforeString : List Char → List Char
  | [] => []
  | [c] => [c]
  | c :: d :: cs => if isBlank c && (d == '"' || d == '\'') then [] else c :: beforeString (d :: cs)

/-- The characters of the literal at the beginning. It may consist of several words with blanks
between them; a word that begins with a quote is not part of it. -/
def chars (cs : List Char) : List Char :=
  ((beforeString (cs.takeWhile (!endsLiteral ·))).reverse.dropWhile isBlank).reverse

/-- Whether digits have single underscores between them at most; `isDigit` says what a digit is. -/
def areDigits (isDigit : Char → Bool) : List Char → Bool
  | [] => false
  | [c] => isDigit c
  | c :: '_' :: cs => isDigit c && areDigits isDigit cs
  | c :: cs => isDigit c && areDigits isDigit cs

def unsigned : List Char → List Char
  | '+' :: cs => cs
  | '-' :: cs => cs
  | cs => cs

def isHexDigit (c : Char) : Bool := c.isDigit || ('a' ≤ c && c ≤ 'f') || ('A' ≤ c && c ≤ 'F')

def isDecimal (cs : List Char) : Bool :=
  areDigits Char.isDigit cs && (cs.length == 1 || cs.head? != some '0')

def marksFloat (c : Char) : Bool := c == '.' || c == 'e' || c == 'E'

/-- Whether each underscore stands between hexadecimal digits. The flag says whether such a digit
stands right before the characters. -/
def underscoresSeparate : Bool → List Char → Bool
  | _, [] => true
  | afterDigit, '_' :: cs => afterDigit && cs.head?.any isHexDigit && underscoresSeparate false cs
  | _, c :: cs => underscoresSeparate (isHexDigit c) cs

/-- Whether an unsigned literal is taken for a decimal integer: digits without leading zeros, and
then nothing, or an underscore and whatever has no space and makes no float of it. Each underscore
separates digits; beyond that, what follows the first one matters only when the number is asked for.
-/
def isDecimalInteger (cs : List Char) : Bool :=
  let rest := cs.dropWhile Char.isDigit
  (cs == ['0'] || cs.head?.any (fun c => c.isDigit && c != '0'))
    && (rest.isEmpty || rest.head? == some '_')
    && !rest.any (fun c => c == ' ' || marksFloat c) && underscoresSeparate true rest

/-- An integer: decimal after a sign, or after a mark of its base. Digits after the mark may be
absent. -/
def isInteger : List Char → Bool
  | '0' :: 'x' :: cs => cs.isEmpty || areDigits isHexDigit cs
  | '0' :: 'o' :: cs => cs.isEmpty || areDigits (fun c => '0' ≤ c && c ≤ '7') cs
  | '0' :: 'b' :: cs => cs.isEmpty || areDigits (fun c => c == '0' || c == '1') cs
  | cs => isDecimalInteger (unsigned cs)

/-- A float: a decimal with a fraction, an exponent or both, or a name of an infinity or of no
number. -/
def isFloat (cs : List Char) : Bool :=
  let cs := unsigned cs
  let mantissa := cs.takeWhile fun c => c != 'e' && c != 'E'
  let exponent := cs.drop mantissa.length
  let whole := mantissa.takeWhile (· != '.')
  let fraction := mantissa.drop whole.length
  cs == "inf".toList || cs == "nan".toList
    || (isDecimal whole && !(fraction.isEmpty && exponent.isEmpty)
      && (fraction.isEmpty || areDigits Char.isDigit fraction.tail)
      && (exponent.isEmpty || areDigits Char.isDigit (unsigned exponent.tail)))

def twoDigits? (a b : Char) : Option Nat :=
  if a.isDigit && b.isDigit then some (10 * (a.toNat - '0'.toNat) + (b.toNat - '0'.toNat)) else none

def daysIn (year month : Nat) : Nat :=
  if month == 2 then (if year % 4 == 0 && (year % 100 != 0 || year % 400 == 0) then 29 else 28)
  else if month == 4 || month == 6 || month == 9 || month == 11 then 30
  else 31

def date? : List Char → Option (List Char)
  | a :: b :: c :: d :: '-' :: e :: f :: '-' :: g :: h :: cs => do
    let year := 100 * (← twoDigits? a b) + (← twoDigits? c d)
    let month ← twoDigits? e f
    let day ← twoDigits? g h
    if 1 ≤ month && month ≤ 12 && 1 ≤ day && day ≤ daysIn year month then some cs else none
  | _ => none

def secondFraction? : List Char → Option (List Char)
  | '.' :: c :: cs => if c.isDigit then some (cs.dropWhile Char.isDigit) else none
  | '.' :: [] => none
  | cs => some cs

def seconds? : List Char → Option (List Char)
  | ':' :: a :: b :: cs => do if (← twoDigits? a b) ≤ 60 then secondFraction? cs else none
  | ':' :: _ => none
  | cs => some cs

def time? : List Char → Option (List Char)
  | a :: b :: ':' :: c :: d :: cs => do
    if (← twoDigits? a b) ≤ 23 && (← twoDigits? c d) ≤ 59 then seconds? cs else none
  | _ => none

def isOffset : List Char → Bool
  | [] => true
  | ['Z'] | ['z'] => true
  | sign :: a :: b :: ':' :: c :: d :: [] =>
    (sign == '+' || sign == '-') && (twoDigits? a b).any (· ≤ 23) && (twoDigits? c d).any (· ≤ 59)
  | _ => false

def isDateTime (cs : List Char) : Bool :=
  match date? cs with
  | some [] => true
  | some (mark :: rest) => (mark == 'T' || mark == 't' || mark == ' ') && (time? rest).any isOffset
  | none => time? cs == some []

def isLiteral (cs : List Char) : Bool := isInteger cs || isFloat cs || isDateTime cs

end Selectors.TomlLiteral
