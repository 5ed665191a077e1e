import Selectors.Proofs.Denotation

/-!
# Instances under two substitutions

Applying one substitution after another is applying both at once, the first counting where both bind
a variable (`Constraint.apply_apply`): a fact that was put for a variable is no variable again. An
instance keeps the variables that are not bound (`Constraint.vars_apply`) and all applications whose
operator is open (`Constraint.unresolved_apply`).
-/

namespace Selectors

/-! ## Applying twice -/

theorem Reference.apply_apply (s t : Substitution) (r : Reference) :
    (r.apply t).apply s = r.apply (s.combine t) := by
  cases r with
  | fact name => rfl
  | «variable» name => cases ht : t.get? name <;> simp [apply, ht]

mutual
theorem Expr.apply_apply (s t : Substitution) : ∀ expr : Expr,
    (expr.apply t).apply s = expr.apply (s.combine t)
  | .ref r => by simp only [Expr.apply, r.apply_apply]
  | .app operator name args => by simp only [Expr.apply, Expr.applyAll_applyAll s t args]

theorem Expr.applyAll_applyAll (s t : Substitution) : ∀ exprs : List Expr,
    Expr.applyAll s (Expr.applyAll t exprs) = Expr.applyAll (s.combine t) exprs
  | [] => rfl
  | expr :: exprs => by
    simp only [Expr.applyAll, Expr.apply_apply s t expr, Expr.applyAll_applyAll s t exprs]
end

mutual
theorem PatternArg.apply_apply (s t : Substitution) : ∀ arg : PatternArg,
    (arg.apply t).apply s = arg.apply (s.combine t)
  | .ref r => by simp only [PatternArg.apply, r.apply_apply]
  | .pred name args => by simp only [PatternArg.apply, PatternArg.applyAll_applyAll s t args]

theorem PatternArg.applyAll_applyAll (s t : Substitution) : ∀ args : List PatternArg,
    PatternArg.applyAll s (PatternArg.applyAll t args) = PatternArg.applyAll (s.combine t) args
  | [] => rfl
  | arg :: args => by
    simp only [PatternArg.applyAll, PatternArg.apply_apply s t arg,
      PatternArg.applyAll_applyAll s t args]
end

theorem Constraint.apply_apply (s t : Substitution) (c : Constraint) :
    (c.apply t).apply s = c.apply (s.combine t) := by
  cases c with
  | bind r expr => simp only [apply, r.apply_apply, expr.apply_apply]
  | pred name args => simp only [apply, PatternArg.applyAll_applyAll]

/-! ## What an instance denotes -/

theorem Reference.denotes_apply_iff {s t : Substitution} {r : Reference} {name : String} :
    (r.apply t).Denotes s name ↔ r.Denotes (s.combine t) name := by
  -- Both sides are what substituting and converting gives, whichever constraint errors name.
  rw [← @toFact_apply_eq_ok_iff _ (.pred "" []), r.apply_apply, toFact_apply_eq_ok_iff]

theorem Constraint.denotes_apply_iff {s t : Substitution} {c : Constraint} {a : Assertion} :
    (c.apply t).Denotes s a ↔ c.Denotes (s.combine t) a := by
  rw [← toAssertion_apply_eq_ok_iff, c.apply_apply, toAssertion_apply_eq_ok_iff]

/-! ## What is left -/

theorem Reference.vars_apply (s : Substitution) (r : Reference) :
    (r.apply s).vars = r.vars.filter fun v => (s.get? v).isNone := by
  cases r with
  | fact name => rfl
  | «variable» name => cases hs : s.get? name <;> simp [apply, vars, hs]

mutual
theorem Expr.vars_apply (s : Substitution) : ∀ expr : Expr,
    (expr.apply s).vars = expr.vars.filter fun v => (s.get? v).isNone
  | .ref r => by simp only [Expr.apply, Expr.vars, r.vars_apply]
  | .app operator name args => by simp only [Expr.apply, Expr.vars, Expr.varsOfAll_applyAll s args]

theorem Expr.varsOfAll_applyAll (s : Substitution) : ∀ exprs : List Expr,
    Expr.varsOfAll (Expr.applyAll s exprs) =
      (Expr.varsOfAll exprs).filter fun v => (s.get? v).isNone
  | [] => rfl
  | expr :: exprs => by
    simp only [Expr.applyAll, Expr.varsOfAll, List.filter_append, Expr.vars_apply s expr,
      Expr.varsOfAll_applyAll s exprs]
end

mutual
theorem PatternArg.vars_apply (s : Substitution) : ∀ arg : PatternArg,
    (arg.apply s).vars = arg.vars.filter fun v => (s.get? v).isNone
  | .ref r => by simp only [PatternArg.apply, PatternArg.vars, r.vars_apply]
  | .pred name args => by
    simp only [PatternArg.apply, PatternArg.vars, PatternArg.varsOfAll_applyAll s args]

theorem PatternArg.varsOfAll_applyAll (s : Substitution) : ∀ args : List PatternArg,
    PatternArg.varsOfAll (PatternArg.applyAll s args) =
      (PatternArg.varsOfAll args).filter fun v => (s.get? v).isNone
  | [] => rfl
  | arg :: args => by
    simp only [PatternArg.applyAll, PatternArg.varsOfAll, List.filter_append,
      PatternArg.vars_apply s arg, PatternArg.varsOfAll_applyAll s args]
end

theorem Constraint.vars_apply (s : Substitution) (c : Constraint) :
    (c.apply s).vars = c.vars.filter fun v => (s.get? v).isNone := by
  cases c with
  | bind r expr => simp only [apply, vars, List.filter_append, r.vars_apply, expr.vars_apply]
  | pred name args => simp only [apply, vars, PatternArg.varsOfAll_applyAll]

mutual
theorem Expr.unresolved_apply (s : Substitution) : ∀ expr : Expr,
    (expr.apply s).unresolved = expr.unresolved
  | .ref _ => rfl
  | .app none name args => by
    simp only [Expr.apply, Expr.unresolved, Expr.unresolvedOfAll_applyAll s args]
  | .app (some _) name args => by
    simp only [Expr.apply, Expr.unresolved, Expr.unresolvedOfAll_applyAll s args]

theorem Expr.unresolvedOfAll_applyAll (s : Substitution) : ∀ exprs : List Expr,
    Expr.unresolvedOfAll (Expr.applyAll s exprs) = Expr.unresolvedOfAll exprs
  | [] => rfl
  | expr :: exprs => by
    simp only [Expr.applyAll, Expr.unresolvedOfAll, Expr.unresolved_apply s expr,
      Expr.unresolvedOfAll_applyAll s exprs]
end

theorem Constraint.unresolved_apply (s : Substitution) (c : Constraint) :
    (c.apply s).unresolved = c.unresolved := by
  cases c with
  | bind r expr => exact expr.unresolved_apply s
  | pred name args => rfl

end Selectors
