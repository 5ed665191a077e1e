import Selectors.Proofs.Omission

/-!
# Constraints as a conjunction

A selector with the constraints of two lists lists what it lists with the first, as far as it lists
it with the second as well; and constraints may be put in another order, or repeated. Both are read
off the test that a joined substitution has to pass (`Selector.keeps_constrainedBy_append`). The
condition is that the constraints are in order, since what is wrong with one of them stops the
matching, and the first of several problems is the one that is told.
-/

namespace Selectors

/-- The selector with other constraints. -/
def Selector.constrainedBy (sel : Selector) (cs : List Constraint) : Selector :=
  { sel with constraints := cs }

variable {ctx : Context} {scope : Scope} {sel : Selector} {cs cs' : List Constraint}

/-! ## Problems -/

theorem constraintProblems_eq_nil_of_subset (h : cs' ⊆ cs)
    (hcs : constraintProblems scope cs = []) : constraintProblems scope cs' = [] := by
  rw [constraintProblems_eq_nil_iff] at hcs ⊢
  exact fun c hc => hcs c (h hc)

/-! ## Tests -/

theorem Substitution.satisfies_append {admission : Admission} {statements : List Statement}
    (s : Substitution) (cs cs' : List Constraint) :
    s.satisfies admission statements (cs ++ cs') =
      (s.satisfies admission statements cs && s.satisfies admission statements cs') := by
  rw [Bool.eq_iff_iff, Bool.and_eq_true]
  simp only [satisfies_iff, List.forall_mem_append]

theorem Selector.keeps_constrainedBy_append (s : Substitution) :
    (sel.constrainedBy (cs ++ cs')).keeps ctx scope s =
      ((sel.constrainedBy cs).keeps ctx scope s && (sel.constrainedBy cs').keeps ctx scope s) := by
  simp only [keeps, constrainedBy, Substitution.satisfies_append]
  cases scope.isCompletedBy s <;> cases s.hasDistinctFacts <;> simp

theorem Selector.keeps_constrainedBy_congr (h : ∀ c, c ∈ cs ↔ c ∈ cs') :
    (sel.constrainedBy cs).keeps ctx scope = (sel.constrainedBy cs').keeps ctx scope := by
  funext s
  have hsatisfies : s.satisfies ctx.settings.admission ctx.facts.statements cs =
      s.satisfies ctx.settings.admission ctx.facts.statements cs' := by
    rw [Bool.eq_iff_iff]
    simp only [Substitution.satisfies_iff, h]
  simp only [keeps, constrainedBy, hsatisfies]

/-! ## What is listed -/

/-- With constraints in order, a selector lists those joined substitutions that pass its test,
unless a declaration with a type variable stops it, which no constraint can change. -/
theorem matchHeader_constrainedBy (hcs : constraintProblems scope cs = []) :
    matchHeader ctx (.selector (sel.constrainedBy cs)) scope =
      okUnless (if sel.declarations.isEmpty then none else ctx.facts.typeVariable?)
        ((sel.joined ctx).filter ((sel.constrainedBy cs).keeps ctx scope)) := by
  have hproblem : (Header.selector (sel.constrainedBy cs)).problem? ctx.facts scope =
      if sel.declarations.isEmpty then none else ctx.facts.typeVariable? := by
    rw [Header.problem?, Header.constraints, Selector.constrainedBy, hcs]
    rfl
  rw [matchHeader, matchSelector_eq, hproblem]
  rfl

theorem filter_and_eq_filter_mem {α : Type} [DecidableEq α] (p q : α → Bool) (l : List α) :
    l.filter (fun a => p a && q a) = (l.filter p).filter (· ∈ l.filter q) := by
  rw [List.filter_filter]
  refine List.filter_congr fun a ha => ?_
  simp [ha, Bool.and_comm]

/-- The constraints of a selector are a conjunction, under any scope and so under the selector's
own, which does not depend on them. With two lists of constraints that are in order, the selector
lists what it lists with the first, in that order, as far as it is listed with the second; if one of
the three is stopped by a problem, all are, by the same one. Neither the order of the constraints
nor their repetitions count. -/
theorem matchHeader_conjunction (ctx : Context) (sel : Selector) (scope : Scope) :
    (∀ cs cs', constraintProblems scope (cs ++ cs') = [] →
        (∃ p, matchHeader ctx (.selector (sel.constrainedBy cs)) scope = .error p ∧
            matchHeader ctx (.selector (sel.constrainedBy cs')) scope = .error p ∧
            matchHeader ctx (.selector (sel.constrainedBy (cs ++ cs'))) scope = .error p) ∨
          ∃ found found', matchHeader ctx (.selector (sel.constrainedBy cs)) scope = .ok found ∧
            matchHeader ctx (.selector (sel.constrainedBy cs')) scope = .ok found' ∧
            matchHeader ctx (.selector (sel.constrainedBy (cs ++ cs'))) scope =
              .ok (found.filter (· ∈ found'))) ∧
      ∀ cs cs', constraintProblems scope cs = [] → (∀ c, c ∈ cs ↔ c ∈ cs') →
        matchHeader ctx (.selector (sel.constrainedBy cs)) scope =
          matchHeader ctx (.selector (sel.constrainedBy cs')) scope := by
  refine ⟨fun cs cs' hcs => ?_, fun cs cs' hcs hmem => ?_⟩
  · have hleft : constraintProblems scope cs = [] :=
      constraintProblems_eq_nil_of_subset (List.subset_append_left cs cs') hcs
    have hright : constraintProblems scope cs' = [] :=
      constraintProblems_eq_nil_of_subset (List.subset_append_right cs cs') hcs
    rw [matchHeader_constrainedBy hleft, matchHeader_constrainedBy hright,
      matchHeader_constrainedBy hcs]
    cases (if sel.declarations.isEmpty then none else ctx.facts.typeVariable?) with
    | some p => exact .inl ⟨p, rfl, rfl, rfl⟩
    | none =>
      refine .inr ⟨_, _, rfl, rfl, congrArg Except.ok ?_⟩
      rw [← filter_and_eq_filter_mem]
      exact List.filter_congr fun s _ => Selector.keeps_constrainedBy_append s
  · have hcs' : constraintProblems scope cs' = [] :=
      constraintProblems_eq_nil_of_subset (fun c hc => (hmem c).2 hc) hcs
    rw [matchHeader_constrainedBy hcs, matchHeader_constrainedBy hcs',
      Selector.keeps_constrainedBy_congr hmem]

def unitContext : Context where
  facts := ⟨.pred (.ofFacts "Unit" ["x1"]) :: twoVectors.statements⟩
  settings := {}
  accepts type declared := type == declared

def isUnit : Constraint := .pred "Unit" [.ref (.variable "v")]

theorem matchHeader_conjunction_isUnit :
    constraintProblems (.ofHeader (.selector inSpace)) (inSpace.constraints ++ [isUnit]) = [] ∧
      matchHeader unitContext (.selector (inSpace.constrainedBy (inSpace.constraints ++ [isUnit])))
          (.ofHeader (.selector inSpace)) =
        .ok ([.ofList [("U", "X"), ("v", "x1")], .ofList [("U", "X"), ("v", "x2")]].filter
          (· ∈ [.ofList [("U", "X"), ("v", "x1")]])) ∧
      (∀ c, c ∈ inSpace.constraints ++ [isUnit] ↔
        c ∈ isUnit :: inSpace.constraints ++ [isUnit]) ∧
      matchHeader unitContext (.selector (inSpace.constrainedBy (inSpace.constraints ++ [isUnit])))
          (.ofHeader (.selector inSpace)) =
        matchHeader unitContext
          (.selector (inSpace.constrainedBy (isUnit :: inSpace.constraints ++ [isUnit])))
          (.ofHeader (.selector inSpace)) := by
  have hcs : constraintProblems (.ofHeader (.selector inSpace)) (inSpace.constraints ++ [isUnit]) =
      [] := rfl
  have hmem : ∀ c, c ∈ inSpace.constraints ++ [isUnit] ↔
      c ∈ isUnit :: inSpace.constraints ++ [isUnit] := by
    simp [or_comm]
  obtain ⟨happend, hcongr⟩ :=
    matchHeader_conjunction unitContext inSpace (.ofHeader (.selector inSpace))
  refine ⟨hcs, ?_, hmem, hcongr _ _ hcs hmem⟩
  obtain ⟨p, hp, -⟩ | ⟨found, found', hfound, hfound', hboth⟩ := happend _ _ hcs
  · cases hp
  · cases hfound
    cases hfound'
    exact hboth

end Selectors
