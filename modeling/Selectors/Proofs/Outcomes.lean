import Mathlib.Data.List.Forall2
import Selectors.Matching
import Selectors.Proofs.Holding
import Selectors.Proofs.Joins
import Selectors.Proofs.Scopes

/-!
# What becomes of a selector

`matchSelector_eq` puts the matching of a selector under a scope into closed form: its problem, if
there is one, is read off the constraints, the scope and the declarations with a type variable
(`Selector.problem?`), and otherwise the join is filtered by one test (`Selector.keeps`). The
constraints meet no problem on the way, since the substitutions that reach them complete the scope.
-/

namespace Selectors

def Header.constraints : Header → List Constraint
  | .selector sel => sel.constraints
  | .space _ => []

/-- The problem of a header under a scope: the first one of its constraints, else, if it declares a
pattern, the first declaration with a type variable among the facts. -/
def Header.problem? (facts : FactProgram) (scope : Scope) (h : Header) : Option Problem :=
  (constraintProblems scope h.constraints).head?.or
    (if h.declarations.isEmpty then none else facts.typeVariable?)

namespace Selector

def joined (ctx : Context) (sel : Selector) : List Substitution :=
  Selectors.joined ctx.accepts ctx.settings.admission.types ctx.facts sel.declarations

/-- Whether a joined substitution is kept. -/
def keeps (ctx : Context) (scope : Scope) (sel : Selector) (s : Substitution) : Bool :=
  scope.isCompletedBy s
    && s.satisfies ctx.settings.admission ctx.facts.statements sel.constraints
    && s.hasDistinctFacts

end Selector

variable {ctx : Context} {scope : Scope} {sel : Selector}

theorem matchSelector_eq :
    matchSelector ctx sel scope =
      okUnless ((Header.selector sel).problem? ctx.facts scope)
        ((sel.joined ctx).filter (sel.keeps ctx scope)) := by
  unfold matchSelector
  cases hcs : constraintProblems scope sel.constraints with
  | cons p ps => simp [Header.problem?, Header.constraints, hcs]
  | nil =>
    have hproblem : (Header.selector sel).problem? ctx.facts scope =
        if sel.declarations.isEmpty then none else ctx.facts.typeVariable? := by
      rw [Header.problem?, Header.constraints, hcs]
      rfl
    have hdenotes : ∀ s ∈ (sel.joined ctx).filter scope.isCompletedBy,
        ∀ c ∈ sel.constraints, ∃ a, c.Denotes s a := fun s hs =>
      exists_denotes_of_isCompletedBy hcs (List.mem_filter.1 hs).2
    dsimp only
    rw [joinDeclarations_eq, hproblem, ← Selector.joined]
    cases (if sel.declarations.isEmpty then none else ctx.facts.typeVariable?) with
    | some p => rfl
    | none =>
      simp only [okUnless_none, bind, Except.bind, keepSatisfying_eq_filter hdenotes]
      simp only [pure, Except.pure, List.filter_filter]
      refine congrArg Except.ok (List.filter_congr fun s _ => ?_)
      rw [Selector.keeps, Bool.and_comm, Bool.and_comm (scope.isCompletedBy s)]

/-! ## Problems -/

theorem matchHeader_eq_error_iff {h : Header} {p : Problem} :
    matchHeader ctx h scope = .error p ↔ h.problem? ctx.facts scope = some p := by
  cases h with
  | selector sel => rw [matchHeader, matchSelector_eq, okUnless_eq_error_iff]
  | space name => simp [matchHeader, Header.problem?, Header.constraints, Header.declarations,
      constraintProblems]

theorem Header.problem?_of_cons {facts : FactProgram} {h : Header} {p : Problem}
    {ps : List Problem} (hcs : constraintProblems scope h.constraints = p :: ps) :
    h.problem? facts scope = some p := by
  rw [problem?, hcs]
  rfl

theorem Header.problem?_eq_some_iff {facts : FactProgram} {h : Header} {p : Problem}
    (hcs : constraintProblems scope h.constraints = []) :
    h.problem? facts scope = some p ↔ h.declarations ≠ [] ∧ facts.typeVariable? = some p := by
  rw [problem?, hcs, List.head?_nil, Option.none_or]
  cases h.declarations <;> simp

theorem Header.problem?_eq_none_iff {facts : FactProgram} {h : Header}
    (hcs : constraintProblems scope h.constraints = []) :
    h.problem? facts scope = none ↔ h.declarations = [] ∨ facts.typeVariable? = none := by
  rw [problem?, hcs, List.head?_nil, Option.none_or]
  cases h.declarations <;> simp

/-- Headers have related problems if their constraints have, one by one, and the facts have. -/
theorem Header.problem?_rel {R : Problem → Problem → Prop} {facts facts' : FactProgram}
    {scope' : Scope} {h h' : Header}
    (hcs : List.Forall₂ R (constraintProblems scope h.constraints)
      (constraintProblems scope' h'.constraints))
    (hdeclarations : h.declarations.isEmpty = h'.declarations.isEmpty)
    (hfacts : Option.Rel R facts.typeVariable? facts'.typeVariable?) :
    Option.Rel R (h.problem? facts scope) (h'.problem? facts' scope') := by
  rw [problem?, problem?, hdeclarations]
  cases hps : constraintProblems scope h.constraints with
  | cons p ps =>
    rw [hps, List.forall₂_cons_left_iff] at hcs
    obtain ⟨p', ps', hp, -, hps'⟩ := hcs
    rw [hps']
    exact .some hp
  | nil =>
    rw [hps, List.forall₂_nil_left_iff] at hcs
    rw [hcs]
    simp only [List.head?_nil, Option.none_or]
    split
    · exact .none
    · exact hfacts

theorem unsubstitutedVariable_notMem_constraintProblems {cs : List Constraint} {v c : String} :
    .unsubstitutedVariable v c ∉ constraintProblems scope cs := by
  intro hmem
  obtain ⟨c, -, hc⟩ := List.mem_flatMap.1 hmem
  rcases Constraint.mem_problems_iff.1 hc with ⟨_, _, _, hp⟩ | ⟨_, _, hp⟩ <;> cases hp

/-- What stops the matching of a header, under any scope. A problem of its constraints does so
whatever the facts are. Else the first fact that is declared with a type variable does, if a pattern
is declared, whatever is admitted, accepted or without candidates. Nothing else does: no variable is
found unsubstituted, and none undeclared and no application unresolved but by the check of the
constraints. -/
theorem matchHeader_error_determined (h : Header) (scope : Scope) :
    (∀ p ps, constraintProblems scope h.constraints = p :: ps →
        ∀ ctx, matchHeader ctx h scope = .error p) ∧
      (constraintProblems scope h.constraints = [] → ∀ ctx,
        ((∃ p, matchHeader ctx h scope = .error p) ↔
            h.declarations ≠ [] ∧ ∃ type name, .decl (.var type) name ∈ ctx.facts.statements) ∧
          ∀ p, matchHeader ctx h scope = .error p →
            ∃ type name, ctx.facts.FirstTypeVariable type name ∧ p = .typeVariable name type) ∧
      ∀ ctx p, matchHeader ctx h scope = .error p →
        (∀ v c, p ≠ .unsubstitutedVariable v c) ∧
          ∀ v c, p = .undeclaredVariable v c ∨ p = .unresolvedApplication v c →
            ∃ ps, constraintProblems scope h.constraints = p :: ps := by
  simp only [matchHeader_eq_error_iff]
  refine ⟨fun p ps hcs ctx => Header.problem?_of_cons hcs, fun hcs ctx => ⟨?_, ?_⟩, ?_⟩
  · simp only [Header.problem?_eq_some_iff hcs, exists_and_left]
    refine and_congr_right fun _ => ?_
    rw [← Option.isSome_iff_exists, ← Option.ne_none_iff_isSome, ne_eq,
      FactProgram.typeVariable?_eq_none_iff]
    simp only [not_forall, not_not]
  · intro p hp
    exact FactProgram.firstTypeVariable_of_eq_some ((Header.problem?_eq_some_iff hcs).1 hp).2
  · intro ctx p hp
    cases hcs : constraintProblems scope h.constraints with
    | cons p' ps =>
      obtain rfl : p' = p := Option.some.inj ((Header.problem?_of_cons hcs).symm.trans hp)
      have hmem : p' ∈ constraintProblems scope h.constraints := hcs ▸ List.mem_cons_self
      refine ⟨fun v c heq => ?_, fun v c _ => ⟨ps, rfl⟩⟩
      exact unsubstitutedVariable_notMem_constraintProblems (heq ▸ hmem)
    | nil =>
      obtain ⟨type, name, -, rfl⟩ :=
        FactProgram.firstTypeVariable_of_eq_some ((Header.problem?_eq_some_iff hcs).1 hp).2
      exact ⟨fun v c heq => (nomatch heq), fun v c heq => heq.elim (nomatch ·) (nomatch ·)⟩

end Selectors
