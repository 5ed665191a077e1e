import Selectors.Proofs.Substitutions

/-!
# What a constraint denotes under a substitution

`Constraint.Denotes s c a` reads the constraint `c` with the facts of `s` put for its pattern
variables: `a` is the assertion that it then makes. The relation follows the syntax and knows
neither partial instances nor errors. Main statements:

* `Constraint.toAssertion_apply_eq_ok_iff`: substituting and then converting gives exactly what the
  constraint denotes;
* `Constraint.exists_denotes_iff`: a constraint denotes something just when its variables are bound
  and the operators of its applications are known.
-/

namespace Selectors

inductive Reference.Denotes (s : Substitution) : Reference → String → Prop
  | bound {name target : String} : s.get? name = some target → Denotes s (.variable name) target
  | fact {name : String} : Denotes s (.fact name) name

mutual
/-- The term that an expression denotes. An application whose operator is open denotes none. -/
inductive Expr.Denotes (s : Substitution) : Expr → Term → Prop
  | ref {r : Reference} {target : String} :
    r.Denotes s target → Expr.Denotes s (.ref r) (.var target)
  | app {operator : Operator} {name : String} {args : List Expr} {terms : List Term} :
    Expr.AllDenote s args terms →
      Expr.Denotes s (.app (some operator) name args) (.app operator name terms)

inductive Expr.AllDenote (s : Substitution) : List Expr → List Term → Prop
  | nil : Expr.AllDenote s [] []
  | cons {expr : Expr} {exprs : List Expr} {term : Term} {terms : List Term} :
    expr.Denotes s term → Expr.AllDenote s exprs terms →
      Expr.AllDenote s (expr :: exprs) (term :: terms)
end

mutual
inductive PatternArg.Denotes (s : Substitution) : PatternArg → Argument → Prop
  | ref {r : Reference} {target : String} :
    r.Denotes s target → PatternArg.Denotes s (.ref r) (.term (.var target))
  | pred {name : String} {args : List PatternArg} {args' : List Argument} :
    PatternArg.AllDenote s args args' → PatternArg.Denotes s (.pred name args) (.pred name args')

inductive PatternArg.AllDenote (s : Substitution) : List PatternArg → List Argument → Prop
  | nil : PatternArg.AllDenote s [] []
  | cons {arg : PatternArg} {args : List PatternArg} {arg' : Argument} {args' : List Argument} :
    arg.Denotes s arg' → PatternArg.AllDenote s args args' →
      PatternArg.AllDenote s (arg :: args) (arg' :: args')
end

inductive Constraint.Denotes (s : Substitution) : Constraint → Assertion → Prop
  | bind {r : Reference} {expr : Expr} {name : String} {term : Term} :
    r.Denotes s name → expr.Denotes s term → Denotes s (.bind r expr) (.bind name term)
  | pred {name : String} {args : List PatternArg} {args' : List Argument} :
    PatternArg.AllDenote s args args' → Denotes s (.pred name args) (.pred ⟨name, args'⟩)

variable {s : Substitution} {within : Constraint}

/-! ## Substituting and converting -/

theorem Reference.toFact_apply_eq_ok_iff {r : Reference} {target : String} :
    (r.apply s).toFact within = .ok target ↔ r.Denotes s target := by
  cases r with
  | fact name =>
    refine ⟨fun h => ?_, fun h => ?_⟩
    · cases h
      exact .fact
    · cases h
      rfl
  | «variable» name =>
    cases hget : s.get? name with
    | none =>
      simp only [apply, hget, toFact, reduceCtorEq, false_iff]
      intro h
      cases h with
      | bound h => simp [hget] at h
    | some found =>
      simp only [apply, hget, toFact, Except.ok.injEq]
      refine ⟨fun h => .bound (h ▸ hget), fun h => ?_⟩
      cases h with
      | bound h => exact Option.some.inj (hget.symm.trans h)

mutual
theorem Expr.toTerm_apply_eq_ok_iff : ∀ {expr : Expr} {term : Term},
    (expr.apply s).toTerm within = .ok term ↔ expr.Denotes s term
  | .ref r, term => by
    simp only [Expr.apply, Expr.toTerm, bind_eq_ok_iff, Reference.toFact_apply_eq_ok_iff]
    refine ⟨fun h => ?_, fun h => ?_⟩
    · obtain ⟨target, h, ⟨⟩⟩ := h
      exact .ref h
    · cases h with
      | ref h => exact ⟨_, h, rfl⟩
  | .app (some operator) name args, term => by
    simp only [Expr.apply, Expr.toTerm, bind_eq_ok_iff, Expr.toTerms_applyAll_eq_ok_iff]
    refine ⟨fun h => ?_, fun h => ?_⟩
    · obtain ⟨terms, h, ⟨⟩⟩ := h
      exact .app h
    · cases h with
      | app h => exact ⟨_, h, rfl⟩
  | .app none name args, term => by
    simp only [Expr.apply, Expr.toTerm, reduceCtorEq, false_iff]
    intro h
    cases h

theorem Expr.toTerms_applyAll_eq_ok_iff : ∀ {exprs : List Expr} {terms : List Term},
    Expr.toTerms within (Expr.applyAll s exprs) = .ok terms ↔ Expr.AllDenote s exprs terms
  | [], terms => by
    refine ⟨fun h => ?_, fun h => ?_⟩
    · cases h
      exact .nil
    · cases h
      rfl
  | expr :: exprs, terms => by
    simp only [Expr.applyAll, Expr.toTerms, bind_eq_ok_iff, Expr.toTerm_apply_eq_ok_iff,
      Expr.toTerms_applyAll_eq_ok_iff]
    refine ⟨fun h => ?_, fun h => ?_⟩
    · obtain ⟨term, h, rest, hs, ⟨⟩⟩ := h
      exact .cons h hs
    · cases h with
      | cons h hs => exact ⟨_, h, _, hs, rfl⟩
end

mutual
theorem PatternArg.toArgument_apply_eq_ok_iff : ∀ {arg : PatternArg} {arg' : Argument},
    (arg.apply s).toArgument within = .ok arg' ↔ arg.Denotes s arg'
  | .ref r, arg' => by
    simp only [PatternArg.apply, PatternArg.toArgument, bind_eq_ok_iff,
      Reference.toFact_apply_eq_ok_iff]
    refine ⟨fun h => ?_, fun h => ?_⟩
    · obtain ⟨target, h, ⟨⟩⟩ := h
      exact .ref h
    · cases h with
      | ref h => exact ⟨_, h, rfl⟩
  | .pred name args, arg' => by
    simp only [PatternArg.apply, PatternArg.toArgument, bind_eq_ok_iff,
      PatternArg.toArguments_applyAll_eq_ok_iff]
    refine ⟨fun h => ?_, fun h => ?_⟩
    · obtain ⟨args', h, ⟨⟩⟩ := h
      exact .pred h
    · cases h with
      | pred h => exact ⟨_, h, rfl⟩

theorem PatternArg.toArguments_applyAll_eq_ok_iff :
    ∀ {args : List PatternArg} {args' : List Argument},
      PatternArg.toArguments within (PatternArg.applyAll s args) = .ok args' ↔
        PatternArg.AllDenote s args args'
  | [], args' => by
    refine ⟨fun h => ?_, fun h => ?_⟩
    · cases h
      exact .nil
    · cases h
      rfl
  | arg :: args, args' => by
    simp only [PatternArg.applyAll, PatternArg.toArguments, bind_eq_ok_iff,
      PatternArg.toArgument_apply_eq_ok_iff, PatternArg.toArguments_applyAll_eq_ok_iff]
    refine ⟨fun h => ?_, fun h => ?_⟩
    · obtain ⟨arg', h, rest, hs, ⟨⟩⟩ := h
      exact .cons h hs
    · cases h with
      | cons h hs => exact ⟨_, h, _, hs, rfl⟩
end

/-- Substituting in a constraint and converting the result gives what the constraint denotes. -/
theorem Constraint.toAssertion_apply_eq_ok_iff {c : Constraint} {a : Assertion} :
    (c.apply s).toAssertion = .ok a ↔ c.Denotes s a := by
  cases c with
  | bind r expr =>
    simp only [apply, toAssertion, bind_eq_ok_iff, Reference.toFact_apply_eq_ok_iff,
      Expr.toTerm_apply_eq_ok_iff]
    refine ⟨fun h => ?_, fun h => ?_⟩
    · obtain ⟨name, hr, term, he, ⟨⟩⟩ := h
      exact .bind hr he
    · cases h with
      | bind hr he => exact ⟨_, hr, _, he, rfl⟩
  | pred name args =>
    simp only [apply, toAssertion, bind_eq_ok_iff, PatternArg.toArguments_applyAll_eq_ok_iff]
    refine ⟨fun h => ?_, fun h => ?_⟩
    · obtain ⟨args', h, ⟨⟩⟩ := h
      exact .pred h
    · cases h with
      | pred h => exact ⟨_, h, rfl⟩

/-! ## Which constraints denote something -/

theorem Reference.exists_denotes_iff {r : Reference} :
    (∃ target, r.Denotes s target) ↔ ∀ v ∈ r.vars, v ∈ s.names := by
  cases r with
  | fact name => exact ⟨fun _ _ h => (List.not_mem_nil h).elim, fun _ => ⟨name, .fact⟩⟩
  | «variable» name =>
    simp only [vars, List.mem_singleton, forall_eq, NameTable.mem_names_iff]
    exact ⟨fun ⟨target, .bound h⟩ => ⟨target, h⟩, fun ⟨target, h⟩ => ⟨target, .bound h⟩⟩

mutual
theorem Expr.exists_denotes_iff : ∀ expr : Expr,
    (∃ term, expr.Denotes s term) ↔ (∀ v ∈ expr.vars, v ∈ s.names) ∧ expr.unresolved = []
  | .ref r => by
    simp only [Expr.vars, Expr.unresolved, and_true, ← Reference.exists_denotes_iff]
    exact ⟨fun ⟨_, .ref h⟩ => ⟨_, h⟩, fun ⟨_, h⟩ => ⟨_, .ref h⟩⟩
  | .app (some operator) name args => by
    simp only [Expr.vars, Expr.unresolved, ← Expr.exists_allDenote_iff]
    exact ⟨fun ⟨_, .app h⟩ => ⟨_, h⟩, fun ⟨_, h⟩ => ⟨_, .app h⟩⟩
  | .app none name args => by
    simp only [Expr.unresolved, reduceCtorEq, and_false, iff_false]
    intro h
    obtain ⟨_, ⟨⟩⟩ := h

theorem Expr.exists_allDenote_iff : ∀ exprs : List Expr,
    (∃ terms, Expr.AllDenote s exprs terms) ↔
      (∀ v ∈ Expr.varsOfAll exprs, v ∈ s.names) ∧ Expr.unresolvedOfAll exprs = []
  | [] => ⟨fun _ => ⟨fun _ h => (List.not_mem_nil h).elim, rfl⟩, fun _ => ⟨[], .nil⟩⟩
  | expr :: exprs => by
    simp only [Expr.varsOfAll, Expr.unresolvedOfAll, List.append_eq_nil_iff,
      List.forall_mem_append]
    refine ⟨fun h => ?_, fun h => ?_⟩
    · obtain ⟨_, _ | ⟨h, hs⟩⟩ := h
      obtain ⟨hv, hu⟩ := (Expr.exists_denotes_iff expr).1 ⟨_, h⟩
      obtain ⟨hvs, hus⟩ := (Expr.exists_allDenote_iff exprs).1 ⟨_, hs⟩
      exact ⟨⟨hv, hvs⟩, hu, hus⟩
    · obtain ⟨⟨hv, hvs⟩, hu, hus⟩ := h
      obtain ⟨_, h⟩ := (Expr.exists_denotes_iff expr).2 ⟨hv, hu⟩
      obtain ⟨_, hs⟩ := (Expr.exists_allDenote_iff exprs).2 ⟨hvs, hus⟩
      exact ⟨_, .cons h hs⟩
end

mutual
theorem PatternArg.exists_denotes_iff : ∀ arg : PatternArg,
    (∃ arg', arg.Denotes s arg') ↔ ∀ v ∈ arg.vars, v ∈ s.names
  | .ref r => by
    simp only [PatternArg.vars, ← Reference.exists_denotes_iff]
    exact ⟨fun ⟨_, .ref h⟩ => ⟨_, h⟩, fun ⟨_, h⟩ => ⟨_, .ref h⟩⟩
  | .pred name args => by
    simp only [PatternArg.vars, ← PatternArg.exists_allDenote_iff]
    exact ⟨fun ⟨_, .pred h⟩ => ⟨_, h⟩, fun ⟨_, h⟩ => ⟨_, .pred h⟩⟩

theorem PatternArg.exists_allDenote_iff : ∀ args : List PatternArg,
    (∃ args', PatternArg.AllDenote s args args') ↔
      ∀ v ∈ PatternArg.varsOfAll args, v ∈ s.names
  | [] => ⟨fun _ _ h => (List.not_mem_nil h).elim, fun _ => ⟨[], .nil⟩⟩
  | arg :: args => by
    simp only [PatternArg.varsOfAll, List.forall_mem_append]
    refine ⟨fun h => ?_, fun h => ?_⟩
    · obtain ⟨_, _ | ⟨h, hs⟩⟩ := h
      exact ⟨(PatternArg.exists_denotes_iff arg).1 ⟨_, h⟩,
        (PatternArg.exists_allDenote_iff args).1 ⟨_, hs⟩⟩
    · obtain ⟨hv, hvs⟩ := h
      obtain ⟨_, h⟩ := (PatternArg.exists_denotes_iff arg).2 hv
      obtain ⟨_, hs⟩ := (PatternArg.exists_allDenote_iff args).2 hvs
      exact ⟨_, .cons h hs⟩
end

/-- A constraint denotes an assertion just when its variables are bound and no application in it is
open. -/
theorem Constraint.exists_denotes_iff {c : Constraint} :
    (∃ a, c.Denotes s a) ↔ (∀ v ∈ c.vars, v ∈ s.names) ∧ c.unresolved = [] := by
  cases c with
  | bind r expr =>
    simp only [vars, unresolved, List.forall_mem_append, and_assoc,
      ← Reference.exists_denotes_iff, ← Expr.exists_denotes_iff]
    exact ⟨fun ⟨_, .bind hr he⟩ => ⟨⟨_, hr⟩, _, he⟩, fun ⟨⟨_, hr⟩, _, he⟩ => ⟨_, .bind hr he⟩⟩
  | pred name args =>
    simp only [vars, unresolved, and_true, ← PatternArg.exists_allDenote_iff]
    exact ⟨fun ⟨_, .pred h⟩ => ⟨_, h⟩, fun ⟨_, h⟩ => ⟨_, .pred h⟩⟩

end Selectors
