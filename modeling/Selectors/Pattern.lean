import Selectors.Fact

/-!
# Selectors

A selector declares patterns in its head and in a `with` clause, and constrains them in a `where`
clause. It names things in two ways: by a pattern variable, which stands for any fact, and by a
fact's own name. A constraint asks for a binding to an expression or for a predicate application
among the facts. The pattern variables of a piece of syntax, and the names of the applications in it
that are still open, are listed from left to right, an application before its arguments.
-/

namespace Selectors

/-! ## References and declared patterns -/

inductive Reference where
  | variable (name : String)
  | fact (name : String)
  deriving DecidableEq, Inhabited, Repr

namespace Reference

def name : Reference → String
  | .variable name => name
  | .fact name => name

def isVariable : Reference → Bool
  | .variable _ => true
  | .fact _ => false

def vars : Reference → List String
  | .variable name => [name]
  | .fact _ => []

/-- The written form: a fact stands between backticks. -/
def text : Reference → String
  | .variable name => name
  | .fact name => "`" ++ name ++ "`"

end Reference

/-- A declared pattern: a type, and what is to have it. -/
structure Declaration where
  type : String
  ref : Reference
  deriving DecidableEq, Inhabited, Repr

def Declaration.text (d : Declaration) : String := d.type ++ " " ++ d.ref.text

/-! ## Expressions -/

/-- The operator of an application is `none` while it is not known whether a function or a constructor
is meant. -/
inductive Expr where
  | ref (ref : Reference)
  | app (operator : Option Operator) (name : String) (args : List Expr)
  deriving Inhabited, Repr

namespace Expr

mutual
def decEq : (a b : Expr) → Decidable (a = b)
  | .ref r, .ref q => decidable_of_iff (r = q) (by simp)
  | .app o f as, .app p g bs =>
    have := decEqAll as bs
    decidable_of_iff (o = p ∧ f = g ∧ as = bs) (by simp)
  | .ref _, .app .. => isFalse (by simp)
  | .app .., .ref _ => isFalse (by simp)

def decEqAll : (as bs : List Expr) → Decidable (as = bs)
  | [], [] => isTrue rfl
  | a :: as, b :: bs =>
    have := decEq a b
    have := decEqAll as bs
    decidable_of_iff (a = b ∧ as = bs) (by simp)
  | [], _ :: _ => isFalse (by simp)
  | _ :: _, [] => isFalse (by simp)
end

instance : DecidableEq Expr := decEq

mutual
def text : Expr → String
  | .ref r => r.text
  | .app _ name args => name ++ "(" ++ ", ".intercalate (texts args) ++ ")"

def texts : List Expr → List String
  | [] => []
  | expr :: exprs => expr.text :: texts exprs
end

mutual
def vars : Expr → List String
  | .ref r => r.vars
  | .app _ _ args => varsOfAll args

def varsOfAll : List Expr → List String
  | [] => []
  | expr :: exprs => expr.vars ++ varsOfAll exprs
end

mutual
/-- The names of the applications whose operator is not known, with repetitions. -/
def unresolved : Expr → List String
  | .ref _ => []
  | .app none name args => name :: unresolvedOfAll args
  | .app (some _) _ args => unresolvedOfAll args

def unresolvedOfAll : List Expr → List String
  | [] => []
  | expr :: exprs => expr.unresolved ++ unresolvedOfAll exprs
end

end Expr

/-! ## Constraints -/

/-- An argument of a wanted predicate: a reference, or a predicate applied to arguments. -/
inductive PatternArg where
  | ref (ref : Reference)
  | pred (name : String) (args : List PatternArg)
  deriving Inhabited, Repr

namespace PatternArg

mutual
def decEq : (a b : PatternArg) → Decidable (a = b)
  | .ref r, .ref q => decidable_of_iff (r = q) (by simp)
  | .pred p as, .pred q bs =>
    have := decEqAll as bs
    decidable_of_iff (p = q ∧ as = bs) (by simp)
  | .ref _, .pred .. => isFalse (by simp)
  | .pred .., .ref _ => isFalse (by simp)

def decEqAll : (as bs : List PatternArg) → Decidable (as = bs)
  | [], [] => isTrue rfl
  | a :: as, b :: bs =>
    have := decEq a b
    have := decEqAll as bs
    decidable_of_iff (a = b ∧ as = bs) (by simp)
  | [], _ :: _ => isFalse (by simp)
  | _ :: _, [] => isFalse (by simp)
end

instance : DecidableEq PatternArg := decEq

mutual
def text : PatternArg → String
  | .ref r => r.text
  | .pred name args => name ++ "(" ++ ", ".intercalate (texts args) ++ ")"

def texts : List PatternArg → List String
  | [] => []
  | arg :: args => arg.text :: texts args
end

mutual
/-- The pattern variables that occur, from left to right, with repetitions. -/
def vars : PatternArg → List String
  | .ref r => r.vars
  | .pred _ args => varsOfAll args

def varsOfAll : List PatternArg → List String
  | [] => []
  | arg :: args => arg.vars ++ varsOfAll args
end

end PatternArg

inductive Constraint where
  | bind (ref : Reference) (expr : Expr)
  | pred (name : String) (args : List PatternArg)
  deriving DecidableEq, Inhabited, Repr

namespace Constraint

def text : Constraint → String
  | .bind ref expr => ref.text ++ " := " ++ expr.text
  | .pred name args => name ++ "(" ++ ", ".intercalate (args.map PatternArg.text) ++ ")"

def vars : Constraint → List String
  | .bind ref expr => ref.vars ++ expr.vars
  | .pred _ args => PatternArg.varsOfAll args

/-- The names of the applications whose operator is not known; a predicate has none. -/
def unresolved : Constraint → List String
  | .bind _ expr => expr.unresolved
  | .pred _ _ => []

end Constraint

/-! ## Selectors and style programs -/

structure Selector where
  head : List Declaration
  withDecls : List Declaration
  constraints : List Constraint
  deriving DecidableEq, Inhabited, Repr

namespace Selector

/-- All declared patterns, those of the head first. -/
def declarations (s : Selector) : List Declaration := s.head ++ s.withDecls

/-- The written form; an empty `with` or `where` clause is left out. -/
def text (s : Selector) : String :=
  "; ".intercalate (s.head.map Declaration.text)
    ++ (if s.withDecls.isEmpty then ""
      else " with " ++ "; ".intercalate (s.withDecls.map Declaration.text))
    ++ (if s.constraints.isEmpty then ""
      else " where " ++ "; ".intercalate (s.constraints.map Constraint.text))

end Selector

inductive Header where
  | selector (selector : Selector)
  | space (name : String)
  deriving DecidableEq, Inhabited, Repr

namespace Header

def text : Header → String
  | .selector s => s.text
  | .space name => name

def declarations : Header → List Declaration
  | .selector s => s.declarations
  | .space _ => []

def isNamespace : Header → Bool
  | .selector _ => false
  | .space _ => true

end Header

structure StyleProgram where
  headers : List Header
  deriving DecidableEq, Inhabited, Repr

end Selectors
