import Selectors.NameTable
import Selectors.Pattern
import Selectors.Problem

/-!
# Substitutions

A substitution gives facts to pattern variables. `Substitution.combine` joins two of them, the
second counting where both bind a variable, and `Substitution.product` joins every one of a list
with every one of another.

Applying a substitution to a constraint puts facts for the bound pattern variables.
`Constraint.toAssertion` turns the result into an assertion over facts, provided that no variable is
left and the operator of every application is known.
-/

namespace Selectors

abbrev Substitution := NameTable String

namespace Substitution

def singleton (var fact : String) : Substitution := NameTable.empty.insert var fact

/-- The bindings of both; the second counts where both bind a variable. -/
def combine (s t : Substitution) : Substitution := s.union t

/-- Every substitution of the first list joined with every one of the second, the first varying
slowest. -/
def product (ss ts : List Substitution) : List Substitution := ss.flatMap fun s => ts.map s.combine

def hasDistinctFacts (s : Substitution) : Bool := decide s.values.Nodup

def text (s : Substitution) : String :=
  "\x7b" ++ ", ".intercalate (s.entries.map fun (var, fact) => var ++ " -> " ++ fact) ++ "\x7d"

/-- The order of lists of bindings: by variable, then by fact, a beginning before the whole. -/
def entriesLe : List (String × String) → List (String × String) → Bool
  | [], _ => true
  | _ :: _, [] => false
  | (var, fact) :: rest, (var', fact') :: rest' =>
    if var < var' then true
    else if var' < var then false
    else if fact < fact' then true
    else if fact' < fact then false
    else entriesLe rest rest'

def le (s t : Substitution) : Bool := entriesLe s.entries t.entries

/-- What a reference binds when it stands for a fact: a variable takes the fact, and a fact's name
is the fact or nothing. -/
def ofReference? (fact : String) : Reference → Option Substitution
  | .variable name => some (singleton name fact)
  | .fact name => if name = fact then some .empty else none

end Substitution

/-! ## Applying a substitution -/

/-- A bound variable becomes the fact it stands for; a name of a fact stays as it is. -/
def Reference.apply (s : Substitution) : Reference → Reference
  | .variable name =>
    match s.get? name with
    | some target => .fact target
    | none => .variable name
  | .fact name => .fact name

mutual
def Expr.apply (s : Substitution) : Expr → Expr
  | .ref r => .ref (r.apply s)
  | .app operator name args => .app operator name (Expr.applyAll s args)

def Expr.applyAll (s : Substitution) : List Expr → List Expr
  | [] => []
  | expr :: exprs => expr.apply s :: Expr.applyAll s exprs
end

mutual
def PatternArg.apply (s : Substitution) : PatternArg → PatternArg
  | .ref r => .ref (r.apply s)
  | .pred name args => .pred name (PatternArg.applyAll s args)

def PatternArg.applyAll (s : Substitution) : List PatternArg → List PatternArg
  | [] => []
  | arg :: args => arg.apply s :: PatternArg.applyAll s args
end

def Constraint.apply (s : Substitution) : Constraint → Constraint
  | .bind ref expr => .bind (ref.apply s) (expr.apply s)
  | .pred name args => .pred name (PatternArg.applyAll s args)

/-! ## Ground constraints -/

/-- The fact that a reference names. The error tells the constraint `within` which a variable is
left. -/
def Reference.toFact (within : Constraint) : Reference → Except Problem String
  | .fact name => .ok name
  | .variable name => .error (.unsubstitutedVariable name within.text)

mutual
/-- The term that an expression stands for. An application whose operator is not known is an error,
whatever its arguments. -/
def Expr.toTerm (within : Constraint) : Expr → Except Problem Term
  | .ref r => return .var (← r.toFact within)
  | .app (some operator) name args => return .app operator name (← Expr.toTerms within args)
  | .app none name _ => .error (.unresolvedApplication name within.text)

def Expr.toTerms (within : Constraint) : List Expr → Except Problem (List Term)
  | [] => .ok []
  | expr :: exprs => return (← expr.toTerm within) :: (← Expr.toTerms within exprs)
end

mutual
def PatternArg.toArgument (within : Constraint) : PatternArg → Except Problem Argument
  | .ref r => return .term (.var (← r.toFact within))
  | .pred name args => return .pred name (← PatternArg.toArguments within args)

def PatternArg.toArguments (within : Constraint) : List PatternArg → Except Problem (List Argument)
  | [] => .ok []
  | arg :: args => return (← arg.toArgument within) :: (← PatternArg.toArguments within args)
end

def Constraint.toAssertion (c : Constraint) : Except Problem Assertion :=
  match c with
  | .bind ref expr => return .bind (← ref.toFact c) (← expr.toTerm c)
  | .pred name args => return .pred ⟨name, ← PatternArg.toArguments c args⟩

end Selectors
