import Selectors.Fact

/-!
# Settings

Settings say which names take part in matching, how types are compared, whether declarations are
checked, and whether statements that no constraint can meet are dropped beforehand. Of facts,
`FactProgram.admitted` leaves the statements that take part: those that do not turn on a name which
is left out (`FactProgram.statements_admitted`).
-/

namespace Selectors

/-! ## Name filters -/

/-- Which names are admitted: all of them, or those listed. -/
inductive NameFilter where
  | all
  | only (names : List String)
  deriving DecidableEq, Inhabited, Repr

namespace NameFilter

def admits : NameFilter → String → Bool
  | .all, _ => true
  | .only names, name => names.contains name

@[simp] theorem admits_all (name : String) : all.admits name = true := rfl

theorem admits_only {names : List String} {name : String} :
    (only names).admits name = true ↔ name ∈ names := List.contains_iff_mem

/-- What is not admitted is missing from a list. -/
theorem admits_eq_false_iff {filter : NameFilter} {name : String} :
    filter.admits name = false ↔ ∃ names, filter = .only names ∧ name ∉ names := by
  cases filter with
  | all => simp
  | only names => simp [← Bool.not_eq_true, admits_only]

end NameFilter

/-! ## Settings of a run -/

structure Admission where
  types : NameFilter := .all
  predicates : NameFilter := .all
  functions : NameFilter := .all
  constructors : NameFilter := .all
  deriving DecidableEq, Inhabited, Repr

inductive TypePolicy where
  | exact
  | subtype
  deriving DecidableEq, Inhabited, Repr

/-- The settings of a run; each has a default. -/
structure Settings where
  typePolicy : TypePolicy := .exact
  prefilter : Bool := true
  checkDeclarations : Bool := false
  admission : Admission := {}
  deriving DecidableEq, Repr

instance : Inhabited Settings := ⟨{}⟩

/-- The defaults, but with declarations checked. -/
def checkedSettings : Settings := { checkDeclarations := true }

/-! ## Admitted terms and statements -/

/-- Whether a bound term is admitted by its outermost operator; the name of a fact always is. -/
def Admission.admitsTerm (admission : Admission) : Term → Bool
  | .var _ => true
  | .app .function name _ => admission.functions.admits name
  | .app .constructor name _ => admission.constructors.admits name

/-- Whether a statement takes part in matching: a declaration by its type, a binding by the
outermost operator of its term, a predicate application by its predicate. What has none of these
always does. -/
def Statement.isAdmitted (admission : Admission) : Statement → Bool
  | .decl (.constructor type _) _ => admission.types.admits type
  | .decl (.var _) _ => true
  | .bind _ (.app .function name _) => admission.functions.admits name
  | .bind _ (.app .constructor name _) => admission.constructors.admits name
  | .bind _ (.var _) => true
  | .pred predicate => admission.predicates.admits predicate.name

/-- The facts without the statements that are not admitted. -/
def FactProgram.admitted (admission : Admission) (facts : FactProgram) : FactProgram :=
  ⟨facts.statements.filter (·.isAdmitted admission)⟩

variable {admission : Admission} {statement : Statement}

/-- The name that a statement turns on is missing from the list of its kind. -/
inductive Statement.IsLeftOut (admission : Admission) : Statement → Prop
  | decl {names type args name} : admission.types = .only names → type ∉ names →
    IsLeftOut admission (.decl (.constructor type args) name)
  | function {names name f args} : admission.functions = .only names → f ∉ names →
    IsLeftOut admission (.bind name (.app .function f args))
  | constructor {names name f args} : admission.constructors = .only names → f ∉ names →
    IsLeftOut admission (.bind name (.app .constructor f args))
  | pred {names predicate} : admission.predicates = .only names → predicate.name ∉ names →
    IsLeftOut admission (.pred predicate)

theorem Statement.isAdmitted_eq_false_iff :
    statement.isAdmitted admission = false ↔ statement.IsLeftOut admission := by
  refine ⟨fun h => ?_, fun h => ?_⟩
  · rcases statement with ⟨⟨type, args⟩ | _, _⟩ | ⟨_, _ | ⟨_ | _, _, _⟩⟩ | _
    case decl.var | bind.var => cases h
    all_goals obtain ⟨names, heq, hmissing⟩ := NameFilter.admits_eq_false_iff.1 h
    case decl.constructor => exact .decl heq hmissing
    case bind.app.function => exact .function heq hmissing
    case bind.app.constructor => exact .constructor heq hmissing
    case pred => exact .pred heq hmissing
  · cases h with
    | decl heq hmissing | function heq hmissing | constructor heq hmissing | pred heq hmissing =>
      exact NameFilter.admits_eq_false_iff.2 ⟨_, heq, hmissing⟩

instance : DecidablePred (Statement.IsLeftOut admission) := fun _ =>
  decidable_of_iff _ Statement.isAdmitted_eq_false_iff

/-- The statements that are left stay where they were. -/
theorem FactProgram.statements_admitted (admission : Admission) (facts : FactProgram) :
    (facts.admitted admission).statements =
      facts.statements.filter fun statement => ¬ statement.IsLeftOut admission := by
  refine List.filter_congr fun statement _ => ?_
  simp [← Statement.isAdmitted_eq_false_iff]

end Selectors
