import Selectors.Proofs.Acceptance

/-!
# Scopes that are given

A batch is matched under the scopes that it is given, which need not be those of its headers. All
joined substitutions bind exactly the variables that the selector declares, so a scope completes all
of them or none (`Scope.isCompletedBy_iff_of_mem_joined`). Nothing but the variables of a scope
counts, and those that a selector does not declare cost it all its substitutions
(`matchHeader_under_scope`).
-/

namespace Selectors

variable {ctx : Context} {scope scope' : Scope} {sel : Selector} {s : Substitution}

/-! ## Scopes with the same variables -/

theorem Scope.isVariable_eq_of_vars (h : ∀ v, v ∈ scope.vars ↔ v ∈ scope'.vars) :
    scope.isVariable = scope'.isVariable := by
  funext v
  rw [Bool.eq_iff_iff, ← mem_vars_iff, ← mem_vars_iff]
  exact h v

theorem Scope.isCompletedBy_eq_of_vars (h : ∀ v, v ∈ scope.vars ↔ v ∈ scope'.vars) :
    scope.isCompletedBy = scope'.isCompletedBy := by
  have hvars : scope.vars = scope'.vars := scope.vars_sorted.eq_of_mem_iff scope'.vars_sorted h
  funext s
  rw [isCompletedBy, isCompletedBy, hvars]

theorem matchHeader_eq_of_vars (h : ∀ v, v ∈ scope.vars ↔ v ∈ scope'.vars) (header : Header) :
    matchHeader ctx header scope = matchHeader ctx header scope' := by
  cases header with
  | space name => rfl
  | selector sel =>
    have hproblems : constraintProblems scope sel.constraints =
        constraintProblems scope' sel.constraints := by
      simp only [constraintProblems, Constraint.problems, Scope.isVariable_eq_of_vars h]
    rw [matchHeader, matchHeader, matchSelector, matchSelector, hproblems,
      Scope.isCompletedBy_eq_of_vars h]

/-! ## Completed by all or by none -/

/-- What is asked of a joined substitution apart from completeness: all constraints hold under it,
and it gives no two variables the same fact. -/
structure Selector.Passes (ctx : Context) (sel : Selector) (s : Substitution) : Prop where
  constraints : ∀ c ∈ sel.constraints, ctx.Satisfies s c
  distinct : ∀ v w name, s.get? v = some name → s.get? w = some name → v = w

theorem Selector.passes_iff :
    sel.Passes ctx s ↔
      s.satisfies ctx.settings.admission ctx.facts.statements sel.constraints = true ∧
        s.hasDistinctFacts = true := by
  rw [Substitution.satisfies_iff, Substitution.hasDistinctFacts_iff]
  exact ⟨fun h => ⟨h.constraints, h.distinct⟩, fun h => ⟨h.1, h.2⟩⟩

instance : DecidablePred (sel.Passes ctx) := fun _ => decidable_of_iff' _ Selector.passes_iff

/-- Under any scope: the join, cut down to the substitutions that complete the scope, and then to
those that pass. -/
theorem matchHeader_eq_ok_iff {found : List Substitution} :
    matchHeader ctx (.selector sel) scope = .ok found ↔
      constraintProblems scope sel.constraints = [] ∧
        ∃ joined, joinDeclarations ctx.accepts ctx.settings.admission.types ctx.facts
            sel.declarations = .ok joined ∧
          (joined.filter scope.isCompletedBy).filter (sel.Passes ctx ·) = found := by
  have hkeeps : (sel.joined ctx).filter (sel.keeps ctx scope) =
      ((sel.joined ctx).filter scope.isCompletedBy).filter (sel.Passes ctx ·) := by
    rw [List.filter_filter]
    refine List.filter_congr fun s _ => ?_
    rw [Bool.eq_iff_iff, Selector.keeps]
    simp only [Bool.and_eq_true, decide_eq_true_eq, Selector.passes_iff]
    tauto
  rw [matchHeader, matchSelector_eq, okUnless_eq_ok_iff, hkeeps, Header.problem?,
    Option.or_eq_none_iff, List.head?_eq_none_iff, and_assoc]
  refine and_congr_right fun _ => ?_
  simp only [joinDeclarations_eq, okUnless_eq_ok_iff]
  refine ⟨fun h => ⟨_, ⟨h.1, rfl⟩, h.2⟩, fun h => ?_⟩
  obtain ⟨joined, ⟨hfacts, rfl⟩, hfound⟩ := h
  exact ⟨hfacts, hfound⟩

section
variable {joined : List Substitution}
  (hjoined : joinDeclarations ctx.accepts ctx.settings.admission.types ctx.facts sel.declarations =
    .ok joined)
include hjoined

theorem Scope.isCompletedBy_iff_of_mem_joined (hs : s ∈ joined) :
    scope.isCompletedBy s = true ↔ ∀ v, v ∈ scope.vars ↔ sel.Declares v := by
  rw [joinDeclarations_eq, okUnless_eq_ok_iff] at hjoined
  obtain ⟨-, rfl⟩ := hjoined
  have hnames : ∀ v, v ∈ s.names ↔ sel.Declares v := fun v => Selector.mem_names_of_mem_joined hs
  simp only [isCompletedBy_iff, ← mem_vars_iff, hnames]

theorem Scope.filter_isCompletedBy_eq_self (hvars : ∀ v, v ∈ scope.vars ↔ sel.Declares v) :
    joined.filter scope.isCompletedBy = joined := by
  refine List.filter_eq_self.2 ?_
  intro s hs
  exact (isCompletedBy_iff_of_mem_joined hjoined hs).2 hvars

theorem Scope.filter_isCompletedBy_eq_nil (hvars : ¬ ∀ v, v ∈ scope.vars ↔ sel.Declares v) :
    joined.filter scope.isCompletedBy = [] := by
  refine List.filter_eq_nil_iff.2 ?_
  intro s hs hcomplete
  exact hvars ((isCompletedBy_iff_of_mem_joined hjoined hs).1 hcomplete)

end

/-- What a scope can change. Scopes with the same variables give the same result, whatever their
types and facts are. If the variables are not those that a selector declares, it meets a problem or
lists nothing. If they are, no joined substitution is dropped for them, and the selector lists those
that pass, in order, provided that its constraints are in order and the join meets no problem. -/
theorem matchHeader_under_scope (ctx : Context) :
    (∀ (h : Header) (scope scope' : Scope), (∀ v, v ∈ scope.vars ↔ v ∈ scope'.vars) →
        matchHeader ctx h scope = matchHeader ctx h scope') ∧
      ∀ (sel : Selector) (scope : Scope),
        ((¬ ∀ v, v ∈ scope.vars ↔ sel.Declares v) →
          (∃ p, matchHeader ctx (.selector sel) scope = .error p) ∨
            matchHeader ctx (.selector sel) scope = .ok []) ∧
        ((∀ v, v ∈ scope.vars ↔ sel.Declares v) →
          (∀ joined, joinDeclarations ctx.accepts ctx.settings.admission.types ctx.facts
              sel.declarations = .ok joined → joined.filter scope.isCompletedBy = joined) ∧
            ∀ found, matchHeader ctx (.selector sel) scope = .ok found ↔
              constraintProblems scope sel.constraints = [] ∧
                ∃ joined, joinDeclarations ctx.accepts ctx.settings.admission.types ctx.facts
                    sel.declarations = .ok joined ∧
                  joined.filter (sel.Passes ctx ·) = found) := by
  refine ⟨fun h scope scope' hvars => matchHeader_eq_of_vars hvars h, ?_⟩
  intro sel scope
  refine ⟨fun hvars => ?_, fun hvars => ⟨fun joined hjoined => ?_, fun found => ?_⟩⟩
  · cases hmatch : matchHeader ctx (.selector sel) scope with
    | error p => exact .inl ⟨p, rfl⟩
    | ok found =>
      obtain ⟨-, joined, hjoined, rfl⟩ := matchHeader_eq_ok_iff.1 hmatch
      rw [Scope.filter_isCompletedBy_eq_nil hjoined hvars]
      exact .inr rfl
  · exact Scope.filter_isCompletedBy_eq_self hjoined hvars
  · rw [matchHeader_eq_ok_iff]
    refine and_congr_right fun _ => exists_congr fun joined => and_congr_right fun hjoined => ?_
    rw [Scope.filter_isCompletedBy_eq_self hjoined hvars]

/-- The variables of `planeSelector`, with other types, and a fact. -/
def strangeScope : Scope :=
  .ofList [("U", ⟨"", .pattern⟩), ("v", ⟨"VectorSpace", .pattern⟩), ("y", ⟨"Vector", .fact⟩)]

def widerScope : Scope := strangeScope.insert "w" ⟨"Vector", .pattern⟩

theorem matchHeader_under_strangeScope :
    ((∀ v, v ∈ strangeScope.vars ↔ v ∈ (Scope.ofHeader (.selector planeSelector)).vars) ∧
        matchHeader planeContext (.selector planeSelector) strangeScope =
          matchHeader planeContext (.selector planeSelector)
            (.ofHeader (.selector planeSelector))) ∧
      ((¬ ∀ v, v ∈ widerScope.vars ↔ planeSelector.Declares v) ∧
        ((∃ p, matchHeader planeContext (.selector planeSelector) widerScope = .error p) ∨
          matchHeader planeContext (.selector planeSelector) widerScope = .ok [])) ∧
      (∀ v, v ∈ strangeScope.vars ↔ planeSelector.Declares v) ∧
      ∃ joined, joinDeclarations planeContext.accepts .all planeContext.facts
          planeSelector.declarations = .ok joined ∧
        joined = [.ofList [("U", "X"), ("v", "x1")], .ofList [("U", "X"), ("v", "x2")]] ∧
        joined.filter (planeSelector.Passes planeContext ·) =
          [.ofList [("U", "X"), ("v", "x1")]] := by
  have hvars : ∀ v, v ∈ strangeScope.vars ↔
      v ∈ (Scope.ofHeader (.selector planeSelector)).vars := fun _ => Iff.rfl
  have hdeclared : ∀ v, v ∈ strangeScope.vars ↔ planeSelector.Declares v := by
    intro v
    have hstrange : strangeScope.vars = ["U", "v"] := rfl
    have hplane : Declaration.varsOfAll planeSelector.declarations = ["v", "v", "U"] := rfl
    rw [Selector.Declares, ← Declaration.mem_varsOfAll_iff, hstrange, hplane]
    simp only [List.mem_cons, List.not_mem_nil, or_false]
    tauto
  have hwider : ¬ ∀ v, v ∈ widerScope.vars ↔ planeSelector.Declares v := by
    intro h
    have hw := (hdeclared "w").2 ((h "w").1 (by decide))
    revert hw
    decide
  obtain ⟨hsame, hscope⟩ := matchHeader_under_scope planeContext
  obtain ⟨-, hfound⟩ := (hscope planeSelector strangeScope).2 hdeclared
  obtain ⟨-, joined, hjoined, hpasses⟩ := (hfound [.ofList [("U", "X"), ("v", "x1")]]).1 rfl
  refine ⟨⟨hvars, hsame _ _ _ hvars⟩, ⟨hwider, (hscope planeSelector widerScope).1 hwider⟩,
    hdeclared, joined, hjoined, ?_, hpasses⟩
  exact (Except.ok.inj hjoined).symm

end Selectors
