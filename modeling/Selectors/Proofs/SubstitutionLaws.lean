import Selectors.Proofs.ConstraintChecks
import Selectors.Proofs.Instances

/-!
# How substitutions act

Substitutions act on expressions, on arguments of predicates and on constraints in the same way
(`Substitution.ActsBy`). One after another acts as both at once, an instance depends on the facts
for the variables that are used and on nothing else, and just the unbound ones of these are left
(`substitutions_compose`).
-/

namespace Selectors

variable {s t : Substitution}

/-! ## Equal instances -/

theorem Reference.apply_eq_apply_iff {r : Reference} :
    r.apply s = r.apply t ↔ ∀ v ∈ r.vars, s.get? v = t.get? v := by
  cases r with
  | fact name => simp [apply, vars]
  | «variable» name =>
    simp only [vars, List.mem_singleton, forall_eq]
    cases hs : s.get? name <;> cases ht : t.get? name <;> simp [apply, hs, ht]

mutual
theorem Expr.apply_eq_apply_iff : ∀ expr : Expr,
    expr.apply s = expr.apply t ↔ ∀ v ∈ expr.vars, s.get? v = t.get? v
  | .ref r => by
    rw [Expr.apply, Expr.apply, Expr.ref.injEq, Expr.vars, Reference.apply_eq_apply_iff]
  | .app operator name args => by
    simp only [Expr.apply, Expr.vars, Expr.app.injEq, true_and,
      Expr.applyAll_eq_applyAll_iff args]

theorem Expr.applyAll_eq_applyAll_iff : ∀ exprs : List Expr,
    Expr.applyAll s exprs = Expr.applyAll t exprs ↔
      ∀ v ∈ Expr.varsOfAll exprs, s.get? v = t.get? v
  | [] => by simp [Expr.applyAll, Expr.varsOfAll]
  | expr :: exprs => by
    simp only [Expr.applyAll, Expr.varsOfAll, List.cons.injEq, List.forall_mem_append,
      Expr.apply_eq_apply_iff expr, Expr.applyAll_eq_applyAll_iff exprs]
end

mutual
theorem PatternArg.apply_eq_apply_iff : ∀ arg : PatternArg,
    arg.apply s = arg.apply t ↔ ∀ v ∈ arg.vars, s.get? v = t.get? v
  | .ref r => by
    rw [PatternArg.apply, PatternArg.apply, PatternArg.ref.injEq, PatternArg.vars,
      Reference.apply_eq_apply_iff]
  | .pred name args => by
    simp only [PatternArg.apply, PatternArg.vars, PatternArg.pred.injEq, true_and,
      PatternArg.applyAll_eq_applyAll_iff args]

theorem PatternArg.applyAll_eq_applyAll_iff : ∀ args : List PatternArg,
    PatternArg.applyAll s args = PatternArg.applyAll t args ↔
      ∀ v ∈ PatternArg.varsOfAll args, s.get? v = t.get? v
  | [] => by simp [PatternArg.applyAll, PatternArg.varsOfAll]
  | arg :: args => by
    simp only [PatternArg.applyAll, PatternArg.varsOfAll, List.cons.injEq,
      List.forall_mem_append, PatternArg.apply_eq_apply_iff arg,
      PatternArg.applyAll_eq_applyAll_iff args]
end

theorem Constraint.apply_eq_apply_iff {c : Constraint} :
    c.apply s = c.apply t ↔ ∀ v ∈ c.vars, s.get? v = t.get? v := by
  cases c with
  | bind r expr =>
    simp only [apply, vars, bind.injEq, List.forall_mem_append, Reference.apply_eq_apply_iff,
      Expr.apply_eq_apply_iff]
  | pred name args =>
    simp only [apply, vars, pred.injEq, true_and, PatternArg.applyAll_eq_applyAll_iff]

/-! ## Laws of the action -/

/-- How applying substitutions acts on what uses pattern variables. `t` after `s` is both at once,
where `s` counts for a variable that both bind: the fact that `s` puts for it is out of the reach of
`t`, also where `t` binds a variable of that name. Two instances are equal just when the
substitutions agree on the variables that are used, and the unbound ones of these are left. -/
structure Substitution.ActsBy {α : Type} (apply : Substitution → α → α)
    (Uses : String → α → Prop) : Prop where
  apply_apply : ∀ s t a, apply t (apply s a) = apply (t.combine s) a
  apply_eq_apply_iff : ∀ s t a, apply s a = apply t a ↔ ∀ v, Uses v a → s.get? v = t.get? v
  uses_apply_iff : ∀ s a v, Uses v (apply s a) ↔ Uses v a ∧ s.get? v = none

/-- The laws from those about the list of the variables that are used. -/
theorem Substitution.ActsBy.of_vars {α : Type} {apply : Substitution → α → α}
    {Uses : String → α → Prop} {vars : α → List String} (hmem : ∀ v a, v ∈ vars a ↔ Uses v a)
    (happly : ∀ s t a, apply t (apply s a) = apply (t.combine s) a)
    (heq : ∀ s t a, apply s a = apply t a ↔ ∀ v ∈ vars a, s.get? v = t.get? v)
    (hvars : ∀ s a, vars (apply s a) = (vars a).filter fun v => (s.get? v).isNone) :
    ActsBy apply Uses where
  apply_apply := happly
  apply_eq_apply_iff s t a := by simp only [heq, hmem]
  uses_apply_iff s a v := by
    rw [← hmem, ← hmem, hvars, List.mem_filter, Option.isNone_iff_eq_none]

theorem Expr.actsBy_apply : Substitution.ActsBy Expr.apply Expr.Uses :=
  .of_vars (fun _ => mem_vars_iff) (fun s t => apply_apply t s) (fun _ _ => apply_eq_apply_iff)
    vars_apply

theorem PatternArg.actsBy_apply : Substitution.ActsBy PatternArg.apply PatternArg.Uses :=
  .of_vars (fun _ => mem_vars_iff) (fun s t => apply_apply t s) (fun _ _ => apply_eq_apply_iff)
    vars_apply

theorem Constraint.actsBy_apply : Substitution.ActsBy Constraint.apply Constraint.Uses :=
  .of_vars (fun _ _ => mem_vars_iff) (fun s t => apply_apply t s)
    (fun _ _ _ => apply_eq_apply_iff) vars_apply

/-- Substitutions compose: two of them combined, the second counting where both bind a variable,
act as the second and then the first, on constraints and on all that these consist of. -/
theorem substitutions_compose :
    (∀ (s t : Substitution) (v : String), (t.combine s).get? v = (s.get? v).or (t.get? v)) ∧
      Substitution.ActsBy Constraint.apply Constraint.Uses ∧
      Substitution.ActsBy PatternArg.apply PatternArg.Uses ∧
      Substitution.ActsBy Expr.apply Expr.Uses :=
  ⟨fun s t => t.get?_combine s, Constraint.actsBy_apply, PatternArg.actsBy_apply,
    Expr.actsBy_apply⟩

/-- The fact `w` that is put for `v` is not the variable `w`. -/
example :
    ((Constraint.pred "P" [.ref (.variable "v"), .ref (.variable "w"), .ref (.fact "v")]).apply
        (.singleton "v" "w")).apply (.ofList [("v", "x"), ("w", "y")]) =
      .pred "P" [.ref (.fact "w"), .ref (.fact "y"), .ref (.fact "v")] := by
  decide

end Selectors
