/-!
# Facts

A fact is declared with a type: a constructor applied to types, or a type variable. A term names a
fact or applies a function or a constructor to terms; it holds no pattern variables, which belong to
the expressions of selectors. A fact program is a list of statements: declarations of facts,
bindings of names to terms, and applications of predicates. Each kind of syntax has a written form,
`text`.
-/

namespace Selectors

/-! ## Types -/

inductive FactType where
  | constructor (name : String) (args : List FactType)
  | var (name : String)
  deriving Inhabited, Repr

namespace FactType

def nullary (name : String) : FactType := .constructor name []

mutual
def decEq : (s t : FactType) → Decidable (s = t)
  | .constructor c ss, .constructor d ts =>
    have := decEqAll ss ts
    decidable_of_iff (c = d ∧ ss = ts) (by simp)
  | .var a, .var b => decidable_of_iff (a = b) (by simp)
  | .constructor .., .var _ => isFalse (by simp)
  | .var _, .constructor .. => isFalse (by simp)

def decEqAll : (ss ts : List FactType) → Decidable (ss = ts)
  | [], [] => isTrue rfl
  | s :: ss, t :: ts =>
    have := decEq s t
    have := decEqAll ss ts
    decidable_of_iff (s = t ∧ ss = ts) (by simp)
  | [], _ :: _ => isFalse (by simp)
  | _ :: _, [] => isFalse (by simp)
end

instance : DecidableEq FactType := decEq

mutual
/-- The written form: a variable after a quote mark, a constructor before its arguments, if it has
any. -/
def text : FactType → String
  | .var name => "'" ++ name
  | .constructor name [] => name
  | .constructor name (arg :: args) =>
    name ++ "(" ++ ", ".intercalate (arg.text :: texts args) ++ ")"

def texts : List FactType → List String
  | [] => []
  | type :: types => type.text :: texts types
end

end FactType

/-! ## Terms -/

inductive Operator where
  | function
  | constructor
  deriving DecidableEq, Inhabited, Repr

inductive Term where
  | var (name : String)
  | app (operator : Operator) (name : String) (args : List Term)
  deriving Inhabited, Repr

namespace Term

mutual
def decEq : (s t : Term) → Decidable (s = t)
  | .var a, .var b => decidable_of_iff (a = b) (by simp)
  | .app o f ss, .app p g ts =>
    have := decEqAll ss ts
    decidable_of_iff (o = p ∧ f = g ∧ ss = ts) (by simp)
  | .var _, .app .. => isFalse (by simp)
  | .app .., .var _ => isFalse (by simp)

def decEqAll : (ss ts : List Term) → Decidable (ss = ts)
  | [], [] => isTrue rfl
  | s :: ss, t :: ts =>
    have := decEq s t
    have := decEqAll ss ts
    decidable_of_iff (s = t ∧ ss = ts) (by simp)
  | [], _ :: _ => isFalse (by simp)
  | _ :: _, [] => isFalse (by simp)
end

instance : DecidableEq Term := decEq

mutual
/-- The written form; functions and constructors look alike. -/
def text : Term → String
  | .var name => name
  | .app _ name args => name ++ "(" ++ ", ".intercalate (texts args) ++ ")"

def texts : List Term → List String
  | [] => []
  | term :: terms => term.text :: texts terms
end

mutual
/-- Whether a stated term meets a wanted one: a function application must be the very same call, a
constructor application must have the same name and as many arguments, which meet one by one. -/
def agrees : (stated wanted : Term) → Bool
  | .var a, .var b => a == b
  | .app .function f ss, .app .function g ts =>
    decide (Term.app .function f ss = .app .function g ts)
  | .app .constructor f ss, .app .constructor g ts => f == g && agreeAll ss ts
  | _, _ => false

def agreeAll : (stated wanted : List Term) → Bool
  | [], [] => true
  | s :: ss, t :: ts => s.agrees t && agreeAll ss ts
  | _, _ => false
end

end Term

/-! ## Statements and fact programs -/

/-- An argument of a predicate: a term, or a predicate applied to arguments. -/
inductive Argument where
  | term (term : Term)
  | pred (name : String) (args : List Argument)
  deriving Inhabited, Repr

structure Predicate where
  name : String
  args : List Argument
  deriving Inhabited, Repr

namespace Argument

mutual
def decEq : (a b : Argument) → Decidable (a = b)
  | .term s, .term t => decidable_of_iff (s = t) (by simp)
  | .pred p as, .pred q bs =>
    have := decEqAll as bs
    decidable_of_iff (p = q ∧ as = bs) (by simp)
  | .term _, .pred .. => isFalse (by simp)
  | .pred .., .term _ => isFalse (by simp)

def decEqAll : (as bs : List Argument) → Decidable (as = bs)
  | [], [] => isTrue rfl
  | a :: as, b :: bs =>
    have := decEq a b
    have := decEqAll as bs
    decidable_of_iff (a = b ∧ as = bs) (by simp)
  | [], _ :: _ => isFalse (by simp)
  | _ :: _, [] => isFalse (by simp)
end

instance : DecidableEq Argument := decEq

mutual
def text : Argument → String
  | .term t => t.text
  | .pred name args => name ++ "(" ++ ", ".intercalate (texts args) ++ ")"

def texts : List Argument → List String
  | [] => []
  | arg :: args => arg.text :: texts args
end

end Argument

namespace Predicate

deriving instance DecidableEq for Predicate

def text (p : Predicate) : String :=
  p.name ++ "(" ++ ", ".intercalate (p.args.map Argument.text) ++ ")"

def ofFacts (name : String) (facts : List String) : Predicate :=
  ⟨name, facts.map fun fact => .term (.var fact)⟩

end Predicate

inductive Statement where
  | decl (type : FactType) (name : String)
  | bind (name : String) (term : Term)
  | pred (predicate : Predicate)
  deriving DecidableEq, Inhabited, Repr

def Statement.text : Statement → String
  | .decl type name => type.text ++ " " ++ name
  | .bind name term => name ++ " := " ++ term.text
  | .pred predicate => predicate.text

structure FactProgram where
  statements : List Statement
  deriving DecidableEq, Inhabited, Repr

/-- A binding or a predicate application on its own: what a constraint amounts to once its variables
are replaced by facts. -/
inductive Assertion where
  | bind (name : String) (term : Term)
  | pred (predicate : Predicate)
  deriving DecidableEq, Inhabited, Repr

def Assertion.toStatement : Assertion → Statement
  | .bind name term => .bind name term
  | .pred predicate => .pred predicate

end Selectors
