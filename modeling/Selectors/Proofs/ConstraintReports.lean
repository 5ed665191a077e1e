import Selectors.Proofs.Places

/-!
# What the check of constraints tells, and in which order

The check goes through the constraints one after the other. Of each it tells the names of the
variables that the scope lacks, each once and in the order in which they are first used, and then
the open applications, all of them and in the order of their places (`Constraint.ToldInOrder`).
Under every scope this is just what it finds (`constraintProblems_eq_iff_told`).
-/

namespace Selectors

/-! ## Places in constraints -/

def Reference.varName? : Reference → Option String
  | .variable name => some name
  | .fact _ => none

namespace Expr

def args : Expr → List Expr
  | .ref _ => []
  | .app _ _ args => args

def varName? : Expr → Option String
  | .ref r => r.varName?
  | .app .. => none

/-- The name of an application whose operator is not known. -/
def openName? : Expr → Option String
  | .ref _ => none
  | .app none name _ => some name
  | .app (some _) _ _ => none

end Expr

namespace PatternArg

def args : PatternArg → List PatternArg
  | .ref _ => []
  | .pred _ args => args

def varName? : PatternArg → Option String
  | .ref r => r.varName?
  | .pred .. => none

end PatternArg

namespace Constraint

/-- The variable at a place of a constraint. The bound reference stands at the place 0 and the
expression at the place 1; the arguments of a predicate are numbered from 0. -/
def variableAt? : Constraint → Place → Option String
  | .bind ref expr => nameInRow? (nameAt? Expr.args Expr.varName?) [.ref ref, expr]
  | .pred _ args => nameInRow? (nameAt? PatternArg.args PatternArg.varName?) args

/-- The name of the open application at a place of a constraint. -/
def openAt? : Constraint → Place → Option String
  | .bind ref expr => nameInRow? (nameAt? Expr.args Expr.openName?) [.ref ref, expr]
  | .pred _ _ => fun _ => none

end Constraint

/-! ## Walks over constraints -/

theorem Reference.toList_varName? (r : Reference) : r.varName?.toList = r.vars := by
  cases r <;> rfl

namespace Expr

theorem sizeOf_lt_of_mem_args (expr : Expr) : ∀ arg ∈ expr.args, sizeOf arg < sizeOf expr := by
  intro arg harg
  cases expr with
  | ref r => cases harg
  | app operator name args =>
    have hlt := List.sizeOf_lt_of_mem (show arg ∈ args from harg)
    simp only [app.sizeOf_spec]
    omega

theorem varsOfAll_eq_flatMap (exprs : List Expr) : varsOfAll exprs = exprs.flatMap vars := by
  induction exprs with
  | nil => rfl
  | cons expr exprs ih => rw [varsOfAll, ih, List.flatMap_cons]

theorem unresolvedOfAll_eq_flatMap (exprs : List Expr) :
    unresolvedOfAll exprs = exprs.flatMap unresolved := by
  induction exprs with
  | nil => rfl
  | cons expr exprs ih => rw [unresolvedOfAll, ih, List.flatMap_cons]

theorem vars_eq (expr : Expr) : expr.vars = expr.varName?.toList ++ expr.args.flatMap vars := by
  cases expr with
  | ref r => rw [vars, varName?, r.toList_varName?, args, List.flatMap_nil, List.append_nil]
  | app operator name args => exact varsOfAll_eq_flatMap args

theorem unresolved_eq (expr : Expr) :
    expr.unresolved = expr.openName?.toList ++ expr.args.flatMap unresolved := by
  rcases expr with r | ⟨_ | operator, name, args⟩
  · rfl
  · exact congrArg (name :: ·) (unresolvedOfAll_eq_flatMap args)
  · exact unresolvedOfAll_eq_flatMap args

end Expr

namespace PatternArg

theorem sizeOf_lt_of_mem_args (arg : PatternArg) : ∀ a ∈ arg.args, sizeOf a < sizeOf arg := by
  intro a ha
  cases arg with
  | ref r => cases ha
  | pred name args =>
    have hlt := List.sizeOf_lt_of_mem (show a ∈ args from ha)
    simp only [pred.sizeOf_spec]
    omega

theorem varsOfAll_eq_flatMap (args : List PatternArg) : varsOfAll args = args.flatMap vars := by
  induction args with
  | nil => rfl
  | cons arg args ih => rw [varsOfAll, ih, List.flatMap_cons]

theorem vars_eq (arg : PatternArg) : arg.vars = arg.varName?.toList ++ arg.args.flatMap vars := by
  cases arg with
  | ref r => rw [vars, varName?, r.toList_varName?, args, List.flatMap_nil, List.append_nil]
  | pred name args => exact varsOfAll_eq_flatMap args

end PatternArg

namespace Constraint

theorem listedInOrder_vars (c : Constraint) : ListedInOrder (c.variableAt? · = some ·) c.vars := by
  cases c with
  | bind r expr =>
    have hvars : (bind r expr).vars = [.ref r, expr].flatMap Expr.vars := by
      simp [vars, Expr.vars]
    rw [hvars]
    exact .row fun part _ => .tree Expr.sizeOf_lt_of_mem_args Expr.vars_eq part
  | pred name args =>
    rw [vars, PatternArg.varsOfAll_eq_flatMap]
    exact .row fun arg _ =>
      .tree PatternArg.sizeOf_lt_of_mem_args PatternArg.vars_eq arg

theorem listedInOrder_unresolved (c : Constraint) :
    ListedInOrder (c.openAt? · = some ·) c.unresolved := by
  cases c with
  | bind r expr =>
    have hunresolved : (bind r expr).unresolved = [.ref r, expr].flatMap Expr.unresolved := by
      simp [unresolved, Expr.unresolved]
    rw [hunresolved]
    exact .row fun part _ => .tree Expr.sizeOf_lt_of_mem_args Expr.unresolved_eq part
  | pred name args => exact ⟨[], .nil, fun place name => by simp [openAt?], rfl⟩

/-! ## What is told of a constraint -/

/-- The constraint uses a variable at a place, and at none before it, and the scope does not have
the variable. -/
structure FirstUndeclaredAt (scope : Scope) (c : Constraint) (place : Place) (name : String) :
    Prop where
  used : c.variableAt? place = some name
  undeclared : ∀ type, scope.get? name ≠ some ⟨type, .pattern⟩
  first : ∀ earlier, c.variableAt? earlier = some name → ¬ earlier < place

/-- Problems tell what is wrong with a constraint: each undeclared variable, in the order of first
use, and then the open application at each place, in the order of the places. They all quote the
constraint as it is written. -/
def ToldInOrder (scope : Scope) (c : Constraint) (problems : List Problem) : Prop :=
  ∃ undeclared unresolved : List String,
    ListedInOrder (c.FirstUndeclaredAt scope) undeclared ∧
      ListedInOrder (c.openAt? · = some ·) unresolved ∧
      undeclared.map (.undeclaredVariable · c.text)
        ++ unresolved.map (.unresolvedApplication · c.text) = problems

theorem listedInOrder_undeclared (scope : Scope) (c : Constraint) :
    ListedInOrder (c.FirstUndeclaredAt scope)
      (c.vars.filter fun name => !scope.isVariable name).eraseDups := by
  refine ((c.listedInOrder_vars.filter _).eraseDups).congr fun place name => ?_
  have hscope : (!scope.isVariable name) = true ↔
      ∀ type, scope.get? name ≠ some ⟨type, .pattern⟩ := by
    rw [Bool.not_eq_true', ← Bool.not_eq_true, Scope.isVariable_iff, not_exists]
  rw [hscope]
  refine ⟨fun ⟨⟨hused, hundeclared⟩, hfirst⟩ => ?_, fun h => ?_⟩
  · exact ⟨hused, hundeclared, fun earlier hearlier => hfirst earlier ⟨hearlier, hundeclared⟩⟩
  · exact ⟨⟨h.used, h.undeclared⟩, fun earlier hearlier => h.first earlier hearlier.1⟩

theorem toldInOrder_iff {scope : Scope} {c : Constraint} {problems : List Problem} :
    c.ToldInOrder scope problems ↔ c.problems scope = problems := by
  have hundeclared := c.listedInOrder_undeclared scope
  have hunresolved := c.listedInOrder_unresolved
  refine ⟨fun h => ?_, fun h => ⟨_, _, hundeclared, hunresolved, h⟩⟩
  obtain ⟨undeclared, unresolved, hu, ho, rfl⟩ := h
  rw [problems, hundeclared.unique hu, hunresolved.unique ho]

theorem forall₂_toldInOrder_iff {scope : Scope} {cs : List Constraint}
    {told : List (List Problem)} :
    List.Forall₂ (ToldInOrder scope) cs told ↔ cs.map (·.problems scope) = told := by
  have htold : ToldInOrder scope = fun c told => c.problems scope = told := by
    funext c told
    exact propext toldInOrder_iff
  rw [htold, ← List.forall₂_map_left_iff (R := (· = ·)), List.forall₂_eq_eq_eq]

end Constraint

/-- The check of constraints finds the problems that tell in order what is wrong with the first
constraint, then those that tell it of the next, and so on, and nothing else. -/
theorem constraintProblems_eq_iff_told (scope : Scope) (cs : List Constraint)
    (problems : List Problem) :
    constraintProblems scope cs = problems ↔
      ∃ told : List (List Problem), List.Forall₂ (Constraint.ToldInOrder scope) cs told ∧
        told.flatten = problems := by
  rw [constraintProblems, List.flatMap_def]
  refine ⟨fun h => ⟨_, Constraint.forall₂_toldInOrder_iff.2 rfl, h⟩, fun h => ?_⟩
  obtain ⟨told, htold, h⟩ := h
  rw [Constraint.forall₂_toldInOrder_iff.1 htold, h]

/-- An open application is told before the one among its arguments, a variable once. -/
example :
    constraintProblems (.ofDeclarations [⟨"A", .variable "v"⟩])
        [.bind (.variable "w") (.app none "g" [.ref (.variable "u"),
          .app none "h" [.ref (.variable "v"), .ref (.variable "w")], .app none "h" []])] =
      [.undeclaredVariable "w" "w := g(u, h(v, w), h())",
        .undeclaredVariable "u" "w := g(u, h(v, w), h())",
        .unresolvedApplication "g" "w := g(u, h(v, w), h())",
        .unresolvedApplication "h" "w := g(u, h(v, w), h())",
        .unresolvedApplication "h" "w := g(u, h(v, w), h())"] := by
  decide

end Selectors
