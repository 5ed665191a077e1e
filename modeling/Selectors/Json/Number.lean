/-!
# Number literals

The grammar of JSON numbers, and whether a number lies within the double range.
-/

namespace Selectors.NumberLiteral

def isPart (c : Char) : Bool :=
  c.isDigit || c == '-' || c == '+' || c == '.' || c == 'e' || c == 'E'

def isDigits (cs : List Char) : Bool := !cs.isEmpty && cs.all Char.isDigit

def unsigned : List Char → List Char
  | '-' :: cs => cs
  | cs => cs

def exponentDigits : List Char → List Char
  | '+' :: cs => cs
  | '-' :: cs => cs
  | cs => cs

def marksExponent (c : Char) : Bool := c == 'e' || c == 'E'

/-- The parts of an unsigned literal: the digits before the point, those after it, and the exponent,
if it has them. -/
structure Parts where
  whole : List Char
  fraction : Option (List Char)
  exponent : Option (List Char)

def split (cs : List Char) : Parts :=
  let mantissa := cs.takeWhile (!marksExponent ·)
  let exponent := (cs.dropWhile (!marksExponent ·)).tail?
  ⟨mantissa.takeWhile (· != '.'), (mantissa.dropWhile (· != '.')).tail?, exponent⟩

/-- Whether a literal follows the grammar: no leading zeros, and digits wherever a part is given. -/
def isWellFormed (cs : List Char) : Bool :=
  let parts := split (unsigned cs)
  isDigits parts.whole && (parts.whole.length == 1 || parts.whole.head? != some '0')
    && parts.fraction.all isDigits && parts.exponent.all fun e => isDigits (exponentDigits e)

def appendDigit (n : Nat) (c : Char) : Nat := 10 * n + (c.toNat - '0'.toNat)

def digitsValue (cs : List Char) : Nat := cs.foldl appendDigit 0

def exponentValue : List Char → Int
  | '-' :: cs => -(digitsValue cs)
  | cs => digitsValue (exponentDigits cs)

/-! ## The double range -/

/-- A natural number and the power of ten that it is multiplied by. -/
structure Scaled where
  significand : Nat
  exponent : Int
  deriving DecidableEq, Inhabited, Repr

/-- Appends digits to a significand as long as it fits 64 bits. Also gives the digits that are left.
-/
def appendDigits (significand : Nat) : List Char → Nat × List Char
  | [] => (significand, [])
  | c :: cs =>
    let longer := appendDigit significand c
    if longer < Nat.pow 2 64 then appendDigits longer cs else (significand, c :: cs)

/-- The significand and the exponent of a number. Digits for which the significand has no room are
dropped; a dropped digit before the point still multiplies by ten. -/
def Parts.scaled (parts : Parts) : Scaled :=
  let fraction := parts.fraction.getD []
  let (whole, leftBefore) := appendDigits 0 parts.whole
  let (significand, leftAfter) := appendDigits whole fraction
  let places : Int := leftBefore.length - (fraction.length - leftAfter.length)
  ⟨significand, places + (parts.exponent.map exponentValue).getD 0⟩

/-- The natural number with 53 significant binary digits that lies nearest; of two that are equally
near, the one whose last digit is even. -/
def nearestDouble (n : Nat) : Nat :=
  let unit := Nat.pow 2 (n.log2 - 52)
  let quotient := n / unit
  let excess := 2 * (n % unit)
  if excess < unit || (excess == unit && quotient % 2 == 0) then quotient * unit
  else (quotient + 1) * unit

/-- The least number that rounds beyond the greatest double: half a unit in the last place above it.
-/
def overflow : Nat := Nat.pow 2 1024 - Nat.pow 2 970

/-- Whether a well-formed literal writes a number within the double range. The significand and the
power of ten are rounded before they are multiplied; a power beyond the range cannot be used. -/
def isInRange (cs : List Char) : Bool :=
  let ⟨significand, exponent⟩ := (split (unsigned cs)).scaled
  significand == 0 || exponent < 0 || (exponent ≤ 308
    && nearestDouble significand * nearestDouble (Nat.pow 10 exponent.toNat) < overflow)

end Selectors.NumberLiteral
