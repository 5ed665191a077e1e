import Selectors.Substitution
import Selectors.Settings
import Selectors.Vocabulary

/-!
# Checking selectors

The scope of a selector has one entry for each declared name: its type, and whether it is a pattern
variable or a fact. A name declared again, of either kind, takes the later entry.

What is wrong with a selector can be told without facts: variables that are used and not declared,
applications whose operator is not known, and, if the settings ask for it, variables declared twice
and types that the vocabulary lacks.
-/

namespace Selectors

/-! ## Scopes -/

inductive Origin where
  | pattern
  | fact
  deriving DecidableEq, Inhabited, Repr

structure ScopeEntry where
  type : String
  origin : Origin
  deriving DecidableEq, Inhabited, Repr

abbrev Scope := NameTable ScopeEntry

namespace Scope

/-- Adds a declared pattern, over an earlier one of the same name. -/
def declare (scope : Scope) (d : Declaration) : Scope :=
  scope.insert d.ref.name ⟨d.type, if d.ref.isVariable then .pattern else .fact⟩

def ofDeclarations (ds : List Declaration) : Scope := ds.foldl declare .empty

def ofHeader (h : Header) : Scope := ofDeclarations h.declarations

def vars (scope : Scope) : List String :=
  (scope.entries.filter fun entry => entry.2.origin = .pattern).map (·.1)

/-- Whether a name's entry is a pattern variable. -/
def isVariable (scope : Scope) (name : String) : Bool :=
  match scope.get? name with
  | some entry => entry.origin = .pattern
  | none => false

/-- Whether a substitution binds exactly the variables of the scope. -/
def isCompletedBy (scope : Scope) (s : Substitution) : Bool := scope.vars = s.names

end Scope

/-! ## Checks -/

/-- What is wrong with one constraint: each undeclared variable once, at its first use, then each
open application. -/
def Constraint.problems (scope : Scope) (c : Constraint) : List Problem :=
  (c.vars.filter fun name => !scope.isVariable name).eraseDups.map (.undeclaredVariable · c.text)
    ++ c.unresolved.map (.unresolvedApplication · c.text)

def constraintProblems (scope : Scope) (cs : List Constraint) : List Problem :=
  cs.flatMap (·.problems scope)

/-- What is wrong with declared patterns, one after the other; `seen` are the variables declared
before. -/
def declarationProblems (v : Vocabulary) : (seen : List String) → List Declaration → List Problem
  | _, [] => []
  | seen, d :: ds =>
    (if d.ref.isVariable && seen.contains d.ref.name then [.duplicateDeclaration d.ref.name]
      else [])
      ++ (if v.hasType d.type then [] else [.unknownType d.ref.name d.type])
      ++ declarationProblems v (d.ref.vars ++ seen) ds

def Header.problems (v : Vocabulary) (settings : Settings) : Header → List Problem
  | .space _ => []
  | .selector s =>
    (if settings.checkDeclarations then declarationProblems v [] s.declarations else [])
      ++ constraintProblems (.ofDeclarations s.declarations) s.constraints

structure CheckSummary where
  selectors : Nat
  namespaces : Nat
  deriving DecidableEq, Inhabited, Repr

def StyleProgram.check (v : Vocabulary) (style : StyleProgram) (settings : Settings) :
    Except (List Diagnostic) CheckSummary :=
  let diagnostics := style.headers.zipIdx.flatMap fun (header, index) =>
    (header.problems v settings).map (·.toDiagnostic (some index))
  let namespaces := style.headers.countP (·.isNamespace)
  if diagnostics.isEmpty then .ok ⟨style.headers.length - namespaces, namespaces⟩
  else .error diagnostics

end Selectors
