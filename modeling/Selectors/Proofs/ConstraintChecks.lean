import Selectors.Proofs.Multiplicity
import Selectors.Proofs.Shadowing

/-!
# What the check of constraints finds

Constraints are checked under a scope, without facts. The check finds nothing wrong with them just
when all of them become assertions under the substitutions that complete the scope
(`constraintProblems_eq_nil_iff_converts`). A used variable is reported as undeclared when it is
never declared, and also when its name is declared for a fact after its last declaration as a
variable (`undeclared_reported_iff`).
-/

namespace Selectors

/-! ## The check and the conversion -/

/-- The check and the conversion agree on every list of constraints, under every substitution that
binds exactly the variables of the scope. -/
theorem constraintProblems_eq_nil_iff_converts {scope : Scope} {s : Substitution}
    (hs : ∀ v, v ∈ s.names ↔ v ∈ scope.vars) (cs : List Constraint) :
    constraintProblems scope cs = [] ↔ ∀ c ∈ cs, ∃ a, (c.apply s).toAssertion = .ok a := by
  simp only [Constraint.toAssertion_apply_eq_ok_iff, Constraint.exists_denotes_iff, hs,
    Scope.mem_vars_iff]
  exact constraintProblems_eq_nil_iff

def planeScope : Scope := .ofDeclarations planeSelector.declarations

def nestedConstraint : Constraint :=
  .pred "P" [.pred "In" [.ref (.variable "v"), .ref (.variable "U")], .ref (.fact "w")]

def openConstraint : Constraint :=
  .bind (.variable "v") (.app (some .function) "f" [.app none "g" [.ref (.variable "U")]])

theorem constraintProblems_eq_nil_iff_converts_plane :
    (∀ v, v ∈ planeBinding.names ↔ v ∈ planeScope.vars) ∧
      (constraintProblems planeScope [nestedConstraint] = [] ∧
        ∀ c ∈ [nestedConstraint], ∃ a, (c.apply planeBinding).toAssertion = .ok a) ∧
      constraintProblems planeScope [nestedConstraint, openConstraint] ≠ [] ∧
        ¬ ∀ c ∈ [nestedConstraint, openConstraint],
          ∃ a, (c.apply planeBinding).toAssertion = .ok a := by
  have hs : ∀ v, v ∈ planeBinding.names ↔ v ∈ planeScope.vars := fun _ => Iff.rfl
  have hnested : constraintProblems planeScope [nestedConstraint] = [] := by decide
  have hopen : constraintProblems planeScope [nestedConstraint, openConstraint] ≠ [] := by decide
  exact ⟨hs, ⟨hnested, (constraintProblems_eq_nil_iff_converts hs _).1 hnested⟩, hopen,
    mt (constraintProblems_eq_nil_iff_converts hs _).2 hopen⟩

/-! ## Variables that constraints use -/

/-- A pattern variable occurs in an expression, at any depth. -/
inductive Expr.Uses (v : String) : Expr → Prop
  | ref : Expr.Uses v (.ref (.variable v))
  | arg {operator : Option Operator} {name : String} {args : List Expr} {expr : Expr} :
    expr ∈ args → expr.Uses v → Expr.Uses v (.app operator name args)

inductive PatternArg.Uses (v : String) : PatternArg → Prop
  | ref : PatternArg.Uses v (.ref (.variable v))
  | arg {name : String} {args : List PatternArg} {arg : PatternArg} :
    arg ∈ args → arg.Uses v → PatternArg.Uses v (.pred name args)

/-- A pattern variable occurs in a constraint: as the bound name, in the expression, or in an
argument of the predicate. -/
inductive Constraint.Uses (v : String) : Constraint → Prop
  | bound {expr : Expr} : Constraint.Uses v (.bind (.variable v) expr)
  | expr {r : Reference} {expr : Expr} : expr.Uses v → Constraint.Uses v (.bind r expr)
  | arg {name : String} {args : List PatternArg} {arg : PatternArg} :
    arg ∈ args → arg.Uses v → Constraint.Uses v (.pred name args)

mutual
theorem Expr.mem_vars_iff {v : String} : ∀ expr : Expr, v ∈ expr.vars ↔ expr.Uses v
  | .ref r => by
    rw [Expr.vars, Reference.mem_vars_iff]
    refine ⟨fun h => h ▸ .ref, fun h => ?_⟩
    cases h
    rfl
  | .app operator name args => by
    rw [Expr.vars, Expr.mem_varsOfAll_iff args]
    refine ⟨fun h => ?_, fun h => ?_⟩
    · obtain ⟨expr, hmem, h⟩ := h
      exact .arg hmem h
    · cases h with
      | arg hmem h => exact ⟨_, hmem, h⟩

theorem Expr.mem_varsOfAll_iff {v : String} : ∀ exprs : List Expr,
    v ∈ Expr.varsOfAll exprs ↔ ∃ expr ∈ exprs, expr.Uses v
  | [] => by simp [Expr.varsOfAll]
  | expr :: exprs => by
    simp [Expr.varsOfAll, Expr.mem_vars_iff expr, Expr.mem_varsOfAll_iff exprs]
end

mutual
theorem PatternArg.mem_vars_iff {v : String} : ∀ arg : PatternArg, v ∈ arg.vars ↔ arg.Uses v
  | .ref r => by
    rw [PatternArg.vars, Reference.mem_vars_iff]
    refine ⟨fun h => h ▸ .ref, fun h => ?_⟩
    cases h
    rfl
  | .pred name args => by
    rw [PatternArg.vars, PatternArg.mem_varsOfAll_iff args]
    refine ⟨fun h => ?_, fun h => ?_⟩
    · obtain ⟨arg, hmem, h⟩ := h
      exact .arg hmem h
    · cases h with
      | arg hmem h => exact ⟨_, hmem, h⟩

theorem PatternArg.mem_varsOfAll_iff {v : String} : ∀ args : List PatternArg,
    v ∈ PatternArg.varsOfAll args ↔ ∃ arg ∈ args, arg.Uses v
  | [] => by simp [PatternArg.varsOfAll]
  | arg :: args => by
    simp [PatternArg.varsOfAll, PatternArg.mem_vars_iff arg, PatternArg.mem_varsOfAll_iff args]
end

theorem Constraint.mem_vars_iff {v : String} {c : Constraint} : v ∈ c.vars ↔ c.Uses v := by
  cases c with
  | bind r expr =>
    rw [vars, List.mem_append, Reference.mem_vars_iff, Expr.mem_vars_iff]
    refine ⟨fun h => ?_, fun h => ?_⟩
    · rcases h with rfl | h
      · exact .bound
      · exact .expr h
    · cases h with
      | bound => exact .inl rfl
      | expr h => exact .inr h
  | pred name args =>
    rw [vars, PatternArg.mem_varsOfAll_iff]
    refine ⟨fun h => ?_, fun h => ?_⟩
    · obtain ⟨arg, hmem, h⟩ := h
      exact .arg hmem h
    · cases h with
      | arg hmem h => exact ⟨_, hmem, h⟩

/-! ## Variables that are reported -/

namespace Selector
variable {sel : Selector} {name : String}

/-- A variable is shadowed: it is declared, but the last declaration of its name is for a fact. -/
def Shadows (sel : Selector) (name : String) : Prop :=
  sel.Declares name ∧
    ∃ d, Declaration.lastNamed? name sel.declarations = some d ∧ d.ref = .fact name

theorem isVariable_eq_false_iff :
    (Scope.ofDeclarations sel.declarations).isVariable name = false ↔
      ¬ sel.Declares name ∨ sel.Shadows name := by
  rw [← Bool.not_eq_true, Scope.isVariable_ofDeclarations_iff]
  -- The scope knows the last declaration of the name only, of whichever kind it is.
  cases hlast : Declaration.lastNamed? name sel.declarations with
  | none =>
    have hname := Declaration.lastNamed?_eq_none_iff.1 hlast
    have hdeclares : ¬ sel.Declares name := fun ⟨d, hd, href⟩ => hname d hd (href ▸ rfl)
    simp [hdeclares]
  | some d =>
    obtain ⟨hd, hname⟩ := Declaration.mem_of_lastNamed? hlast
    simp only [Shadows, hlast, Option.some.injEq, exists_eq_left']
    cases href : d.ref with
    | «variable» v =>
      obtain rfl : v = name := by rw [← hname, href, Reference.name]
      have hdeclares : sel.Declares v := ⟨d, hd, href⟩
      simp [hdeclares]
    | fact target =>
      obtain rfl : target = name := by rw [← hname, href, Reference.name]
      simp [or_iff_not_imp_left]

/-- A variable is reported as undeclared when a constraint uses it and the selector never declares
it or shadows it. -/
theorem undeclaredVariable_mem_problems_iff {vocabulary : Vocabulary} {settings : Settings}
    {text : String} :
    .undeclaredVariable name text ∈ (Header.selector sel).problems vocabulary settings ↔
      ∃ c ∈ sel.constraints, c.text = text ∧ c.Uses name ∧
        (¬ sel.Declares name ∨ sel.Shadows name) := by
  have hdeclarations : .undeclaredVariable name text ∉
      declarationProblems vocabulary [] sel.declarations :=
    fun h => nomatch concernsDeclaration_of_mem_declarationProblems h
  simp only [mem_problems_iff, hdeclarations, and_false, false_or, constraintProblems,
    List.mem_flatMap, Constraint.mem_problems_iff, Constraint.mem_vars_iff,
    isVariable_eq_false_iff]
  refine exists_congr fun c => and_congr_right fun _ => ?_
  simp only [Problem.undeclaredVariable.injEq, reduceCtorEq, and_false, exists_false, or_false]
  refine ⟨fun h => ?_, fun h => ⟨name, h.2.1, h.2.2, rfl, h.1⟩⟩
  obtain ⟨v, huses, hv, rfl, htext⟩ := h
  exact ⟨htext, huses, hv⟩

end Selector

/-- Which variables the check of a selector reports as undeclared, and for which constraints: those
that are used and never declared, or shadowed. So these are just the variables that are used and
never declared if and only if the constraints use no shadowed variable. -/
theorem undeclared_reported_iff (vocabulary : Vocabulary) (settings : Settings) (sel : Selector) :
    (∀ name text,
        .undeclaredVariable name text ∈ (Header.selector sel).problems vocabulary settings ↔
          ∃ c ∈ sel.constraints, c.text = text ∧ c.Uses name ∧
            (¬ sel.Declares name ∨ sel.Shadows name)) ∧
      ((∀ name text,
          .undeclaredVariable name text ∈ (Header.selector sel).problems vocabulary settings ↔
            ∃ c ∈ sel.constraints, c.text = text ∧ c.Uses name ∧ ¬ sel.Declares name) ↔
        ∀ c ∈ sel.constraints, ∀ name, c.Uses name → ¬ sel.Shadows name) := by
  simp only [Selector.undeclaredVariable_mem_problems_iff, implies_true, true_and]
  refine ⟨fun h c hc name huses hshadows => ?_, fun h name text => ?_⟩
  · obtain ⟨_, _, _, _, hdeclares⟩ := (h name c.text).1 ⟨c, hc, rfl, huses, .inr hshadows⟩
    exact hdeclares hshadows.1
  · refine exists_congr fun c => and_congr_right fun hc => and_congr_right fun _ => ?_
    exact and_congr_right fun huses => or_iff_left (h c hc name huses)

/-- The selector `factLast` with a constraint on its variable. -/
def factLastUsed : Selector := { factLast with constraints := [.pred "P" [.ref (.variable "v")]] }

theorem factLastUsed_reported :
    (Header.selector factLastUsed).problems oneType {} = [.undeclaredVariable "v" "P(v)"] ∧
      factLastUsed.Declares "v" ∧
      ¬ ∀ name text,
        .undeclaredVariable name text ∈ (Header.selector factLastUsed).problems oneType {} ↔
          ∃ c ∈ factLastUsed.constraints, c.text = text ∧ c.Uses name ∧
            ¬ factLastUsed.Declares name := by
  have hproblems : (Header.selector factLastUsed).problems oneType {} =
      [.undeclaredVariable "v" "P(v)"] := by decide
  have hdeclares : factLastUsed.Declares "v" := ⟨⟨"A", .variable "v"⟩, List.mem_cons_self, rfl⟩
  refine ⟨hproblems, hdeclares, fun h => ?_⟩
  obtain ⟨_, _, _, _, hnot⟩ := (h "v" "P(v)").1 (hproblems ▸ List.mem_cons_self)
  exact hnot hdeclares

end Selectors
