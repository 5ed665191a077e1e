import Selectors.Checking

/-!
# Matching selectors

A candidate of a declared pattern is a declaration among the facts whose type is admitted and
accepted, and whose name the pattern's reference can stand for. `Declaration.candidates` lists what
the candidates bind, in the order of the facts, and `joinDeclarations` joins the lists of several
patterns. The result has one element for every choice of candidates; whether its bindings suit the
selector is decided later.

A ground constraint holds when one of the statements makes its assertion and the name it turns on is
admitted: the predicate's, or the outermost function or constructor of the bound term.
`keepSatisfying` keeps the substitutions under which all constraints hold. Before that, statements
that can meet none of the constraints may be dropped.

`matchHeader` lists the substitutions that a selector accepts: joined candidates of its declared
patterns that bind exactly the variables of a scope, under which all constraints hold, and that give
no two variables the same fact. `matchHeaders` does so for headers with scopes of their own, and
`compile` for a style program, each header being checked first.
-/

namespace Selectors

/-! ## Candidates of declared patterns -/

/-- Whether facts of the first type may stand where the second type is declared. -/
abbrev TypeAcceptance := String → String → Bool

/-- What one statement binds for a declared pattern, if it is a candidate. A declaration with a type
variable is an error, whatever the pattern asks for. -/
def Declaration.match? (accepts : TypeAcceptance) (filter : NameFilter) (d : Declaration) :
    Statement → Except Problem (Option Substitution)
  | .decl (.var type) name => .error (.typeVariable name type)
  | .decl (.constructor type _) name =>
    .ok <|
      if filter.admits type && accepts type d.type then Substitution.ofReference? name d.ref
      else none
  | .bind .. => .ok none
  | .pred _ => .ok none

def Declaration.candidates (accepts : TypeAcceptance) (filter : NameFilter) (facts : FactProgram)
    (d : Declaration) : Except Problem (List Substitution) :=
  (facts.statements.mapM (d.match? accepts filter)).map (List.filterMap id)

def joinDeclaration (accepts : TypeAcceptance) (filter : NameFilter) (facts : FactProgram)
    (running : List Substitution) (d : Declaration) : Except Problem (List Substitution) :=
  (d.candidates accepts filter facts).map (Substitution.product running)

/-- Joins the running substitutions with the candidates of all patterns, and stops as soon as none
is left. -/
def joinDeclarationsFrom (accepts : TypeAcceptance) (filter : NameFilter) (facts : FactProgram) :
    List Substitution → List Declaration → Except Problem (List Substitution)
  | running, [] => .ok running
  | running, d :: ds => do
    let next ← joinDeclaration accepts filter facts running d
    if next.isEmpty then .ok [] else joinDeclarationsFrom accepts filter facts next ds

def joinDeclarations (accepts : TypeAcceptance) (filter : NameFilter) (facts : FactProgram)
    (ds : List Declaration) : Except Problem (List Substitution) :=
  joinDeclarationsFrom accepts filter facts [.empty] ds

/-! ## Constraints that hold -/

def Assertion.isMadeBy (admission : Admission) : Assertion → Statement → Bool
  | .bind wantedName wanted, .bind name term =>
    admission.admitsTerm term && name == wantedName && term.agrees wanted
  | .pred wanted, .pred predicate =>
    admission.predicates.admits predicate.name && predicate == wanted
  | _, _ => false

def Assertion.holds (admission : Admission) (statements : List Statement) (a : Assertion) : Bool :=
  statements.any (a.isMadeBy admission)

/-- Whether all constraints hold under a substitution. The first constraint that does not hold, or
that has no assertion, decides. -/
def allHold (admission : Admission) (statements : List Statement) (s : Substitution) :
    List Constraint → Except Problem Bool
  | [] => .ok true
  | c :: cs => do
    let a ← (c.apply s).toAssertion
    if a.holds admission statements then allHold admission statements s cs else .ok false

/-- Whether a statement could meet one of the constraints, whatever the substitution. -/
def couldMeet (constraints : List Constraint) : Statement → Bool
  | .decl .. => false
  | .bind .. => constraints.any fun
    | .bind .. => true
    | .pred .. => false
  | .pred predicate => constraints.any fun
    | .bind .. => false
    | .pred name _ => name == predicate.name

def keepIfSatisfying (admission : Admission) (statements : List Statement)
    (constraints : List Constraint) (s : Substitution) : Except Problem (Option Substitution) :=
  (allHold admission statements s constraints).map fun holds => if holds then some s else none

/-- The substitutions under which all constraints hold, in order. With `prefilter`, statements that
could meet no constraint are dropped first. -/
def keepSatisfying (admission : Admission) (prefilter : Bool) (facts : FactProgram)
    (constraints : List Constraint) (substs : List Substitution) :
    Except Problem (List Substitution) :=
  if constraints.isEmpty then .ok substs
  else
    let statements := facts.statements.filter fun statement =>
      !prefilter || couldMeet constraints statement
    (substs.mapM (keepIfSatisfying admission statements constraints)).map (List.filterMap id)

/-! ## Matching -/

structure Context where
  facts : FactProgram
  settings : Settings
  accepts : TypeAcceptance

namespace Context

def ofVocabulary (v : Vocabulary) (facts : FactProgram) (settings : Settings) : Context :=
  match settings.typePolicy with
  | .exact => ⟨facts, settings, fun type declared => type == declared⟩
  | .subtype => ⟨facts, settings, (Subtypes.ofVocabulary v).isSubtype⟩

end Context

/-- The substitutions that a selector accepts, under a scope. What is wrong with its constraints
comes before the facts. -/
def matchSelector (ctx : Context) (s : Selector) (scope : Scope) :
    Except Problem (List Substitution) :=
  match constraintProblems scope s.constraints with
  | p :: _ => .error p
  | [] => do
    let admission := ctx.settings.admission
    let joined ← joinDeclarations ctx.accepts admission.types ctx.facts s.declarations
    let complete := joined.filter scope.isCompletedBy
    let satisfying ←
      keepSatisfying admission ctx.settings.prefilter ctx.facts s.constraints complete
    return satisfying.filter Substitution.hasDistinctFacts

/-- The substitutions that a header accepts, under a scope; a namespace accepts none. -/
def matchHeader (ctx : Context) (h : Header) (scope : Scope) : Except Problem (List Substitution) :=
  match h with
  | .space _ => .ok []
  | .selector s => matchSelector ctx s scope

abbrev Outcome := Except (List Diagnostic) (List Substitution)

structure Results where
  outcomes : List Outcome

/-- The outcome of a header that is matched as it is: what is wrong is reported under the header's
index. -/
def outcomeOf (ctx : Context) (index : Nat) (h : Header) (scope : Scope) : Outcome :=
  (matchHeader ctx h scope).mapError fun p => [p.toDiagnostic (some index)]

/-- The outcomes of headers under scopes, of which there must be as many. -/
def matchHeaders (ctx : Context) (headers : List Header) (scopes : List Scope) :
    Except (List Diagnostic) Results :=
  if headers.length ≠ scopes.length then
    .error [(Problem.scopeCount headers.length scopes.length).toDiagnostic none]
  else
    .ok ⟨(headers.zip scopes).zipIdx.map fun ((header, scope), index) =>
      outcomeOf ctx index header scope⟩

/-- The outcome of a header of a style program: all that is wrong with it, or what it accepts under
its own scope. -/
def compileHeader (v : Vocabulary) (ctx : Context) (index : Nat) (h : Header) : Outcome :=
  match h.problems v ctx.settings with
  | [] => outcomeOf ctx index h (.ofHeader h)
  | ps => .error (ps.map (·.toDiagnostic (some index)))

def compile (v : Vocabulary) (facts : FactProgram) (style : StyleProgram) (settings : Settings) :
    Results :=
  let ctx := Context.ofVocabulary v facts settings
  ⟨style.headers.zipIdx.map fun (header, index) => compileHeader v ctx index header⟩

end Selectors
