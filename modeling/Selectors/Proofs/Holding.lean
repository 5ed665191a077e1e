import Selectors.Matching
import Selectors.Proofs.Denotation

/-!
# Constraints that hold, as membership

An assertion holds when its own statement stands among the facts and the name that it turns on is
admitted (`Assertion.holds_iff`); so a constraint holds under a substitution when it denotes such an
assertion (`Constraint.HoldsUnder`). Statements that the prefilter drops make no assertion that a
constraint denotes (`couldMeet_of_denotes`), which is why it may drop them. Main statements:
`holds_iff_stated`, `keepSatisfying_eq`, `keepSatisfying_eq_filter`.
-/

namespace Selectors

/-! ## Terms and assertions -/

mutual
theorem Term.agrees_iff : ∀ {stated wanted : Term}, stated.agrees wanted = true ↔ stated = wanted
  | .var a, .var b => by simp [Term.agrees]
  | .app .function f ss, .app .function g ts => by simp [Term.agrees]
  | .app .constructor f ss, .app .constructor g ts => by
    simp [Term.agrees, Term.agreeAll_iff]
  | .var _, .app .. => by simp [Term.agrees]
  | .app .function .., .var _ => by simp [Term.agrees]
  | .app .constructor .., .var _ => by simp [Term.agrees]
  | .app .function .., .app .constructor .. => by simp [Term.agrees]
  | .app .constructor .., .app .function .. => by simp [Term.agrees]

theorem Term.agreeAll_iff : ∀ {stated wanted : List Term},
    Term.agreeAll stated wanted = true ↔ stated = wanted
  | [], [] => by simp [Term.agreeAll]
  | s :: ss, t :: ts => by simp [Term.agreeAll, Term.agrees_iff, Term.agreeAll_iff]
  | [], _ :: _ => by simp [Term.agreeAll]
  | _ :: _, [] => by simp [Term.agreeAll]
end

def Assertion.isAdmitted (admission : Admission) : Assertion → Bool
  | .bind _ term => admission.admitsTerm term
  | .pred predicate => admission.predicates.admits predicate.name

variable {admission : Admission}

theorem Assertion.isMadeBy_iff {a : Assertion} {statement : Statement} :
    a.isMadeBy admission statement = true ↔
      a.isAdmitted admission = true ∧ statement = a.toStatement := by
  cases a with
  | bind wantedName wanted =>
    cases statement with
    | bind name term =>
      simp only [isMadeBy, isAdmitted, toStatement, Bool.and_eq_true, beq_iff_eq,
        Term.agrees_iff, Statement.bind.injEq]
      refine ⟨fun h => ?_, fun h => ?_⟩
      · obtain ⟨⟨ha, hname⟩, hterm⟩ := h
        exact ⟨hterm ▸ ha, hname, hterm⟩
      · obtain ⟨ha, hname, hterm⟩ := h
        exact ⟨⟨hterm ▸ ha, hname⟩, hterm⟩
    | decl | pred => simp [isMadeBy, toStatement]
  | pred wanted =>
    cases statement with
    | pred predicate =>
      simp only [isMadeBy, isAdmitted, toStatement, Bool.and_eq_true, beq_iff_eq,
        Statement.pred.injEq]
      exact and_congr_left fun h => h ▸ Iff.rfl
    | decl | bind => simp [isMadeBy, toStatement]

theorem Assertion.holds_iff {a : Assertion} {statements : List Statement} :
    a.holds admission statements = true ↔
      a.isAdmitted admission = true ∧ a.toStatement ∈ statements := by
  simp only [holds, List.any_eq_true, isMadeBy_iff]
  refine ⟨fun h => ?_, fun h => ⟨_, h.2, h.1, rfl⟩⟩
  obtain ⟨statement, hmem, ha, heq⟩ := h
  exact ⟨ha, heq ▸ hmem⟩

/-- Terms agree just when they are equal, so it does not matter which one is stated. An assertion
holds just when the statements have its own statement and the name it turns on is admitted: that of
the predicate, or of the outermost function or constructor of the bound term, if there is one. -/
theorem holds_iff_stated :
    (∀ s t : Term, s.agrees t = true ↔ s = t) ∧
      (Equivalence fun s t : Term => s.agrees t = true) ∧
      ∀ (admission : Admission) (statements : List Statement) (name : String),
        (∀ fact, (Assertion.bind name (.var fact)).holds admission statements = true ↔
          .bind name (.var fact) ∈ statements) ∧
        (∀ f args, (Assertion.bind name (.app .function f args)).holds admission statements = true ↔
          .bind name (.app .function f args) ∈ statements ∧ admission.functions.admits f = true) ∧
        (∀ f args,
          (Assertion.bind name (.app .constructor f args)).holds admission statements = true ↔
            .bind name (.app .constructor f args) ∈ statements ∧
              admission.constructors.admits f = true) ∧
        ∀ args, (Assertion.pred ⟨name, args⟩).holds admission statements = true ↔
          .pred ⟨name, args⟩ ∈ statements ∧ admission.predicates.admits name = true := by
  have hagrees : ∀ s t : Term, s.agrees t = true ↔ s = t := fun _ _ => Term.agrees_iff
  refine ⟨hagrees, ?_, fun admission statements name => ?_⟩
  · simp only [hagrees]
    exact eq_equivalence
  · simp only [Assertion.holds_iff, Assertion.isAdmitted, Admission.admitsTerm,
      Assertion.toStatement, true_and, and_comm, implies_true, and_self]

/-! ## Constraints -/

/-- A constraint holds under a substitution: it denotes an admitted assertion that one of the
statements makes. -/
def Constraint.HoldsUnder (admission : Admission) (statements : List Statement) (s : Substitution)
    (c : Constraint) : Prop :=
  ∃ a, c.Denotes s a ∧ a.isAdmitted admission = true ∧ a.toStatement ∈ statements

variable {statements : List Statement} {s : Substitution} {cs : List Constraint}

theorem allHold_eq_ok_true_iff :
    allHold admission statements s cs = .ok true ↔
      ∀ c ∈ cs, c.HoldsUnder admission statements s := by
  induction cs with
  | nil => simp [allHold]
  | cons c cs ih =>
    simp only [allHold, bind_eq_ok_iff, Constraint.toAssertion_apply_eq_ok_iff,
      List.forall_mem_cons, ← ih]
    refine ⟨fun h => ?_, fun h => ?_⟩
    · obtain ⟨a, ha, h⟩ := h
      split at h
      case isTrue hholds =>
        exact ⟨⟨a, ha, Assertion.holds_iff.1 hholds⟩, h⟩
      case isFalse => simp at h
    · obtain ⟨⟨a, ha, hholds⟩, h⟩ := h
      exact ⟨a, ha, by rw [if_pos (Assertion.holds_iff.2 hholds), h]⟩

/-- Whether all constraints hold under a substitution; those that denote nothing do not. -/
def Substitution.satisfies (admission : Admission) (statements : List Statement)
    (cs : List Constraint) (s : Substitution) : Bool :=
  match allHold admission statements s cs with
  | .ok holds => holds
  | .error _ => false

theorem Substitution.satisfies_iff :
    s.satisfies admission statements cs = true ↔
      ∀ c ∈ cs, c.HoldsUnder admission statements s := by
  rw [← allHold_eq_ok_true_iff, satisfies]
  split <;> simp [*]

theorem allHold_eq_ok (h : ∀ c ∈ cs, ∃ a, c.Denotes s a) :
    allHold admission statements s cs = .ok (s.satisfies admission statements cs) := by
  have hok : ∃ holds, allHold admission statements s cs = .ok holds := by
    induction cs with
    | nil => exact ⟨true, rfl⟩
    | cons c cs ih =>
      obtain ⟨a, ha⟩ := h c List.mem_cons_self
      obtain ⟨holds, hs⟩ := ih fun c hc => h c (List.mem_cons_of_mem _ hc)
      rw [allHold, Constraint.toAssertion_apply_eq_ok_iff.2 ha]
      cases hholds : a.holds admission statements
      · exact ⟨false, by simp [bind, Except.bind, hholds]⟩
      · exact ⟨holds, by simp [bind, Except.bind, hholds, hs]⟩
  obtain ⟨holds, hok⟩ := hok
  rw [Substitution.satisfies, hok]

/-! ## The prefilter -/

theorem couldMeet_of_denotes {c : Constraint} {a : Assertion} (hc : c ∈ cs) (ha : c.Denotes s a) :
    couldMeet cs a.toStatement = true := by
  cases ha with
  | bind => exact List.any_eq_true.2 ⟨_, hc, rfl⟩
  | pred => exact List.any_eq_true.2 ⟨_, hc, beq_self_eq_true _⟩

/-- Whether constraints hold hangs on nothing but whether the assertions hold that they denote. -/
theorem allHold_congr {admission' : Admission} {statements' : List Statement}
    (h : ∀ c ∈ cs, ∀ a, c.Denotes s a →
      a.holds admission statements = a.holds admission' statements') :
    allHold admission statements s cs = allHold admission' statements' s cs := by
  induction cs with
  | nil => rfl
  | cons c cs ih =>
    rw [allHold, allHold, ih fun c hc => h c (List.mem_cons_of_mem _ hc)]
    cases hc : (c.apply s).toAssertion with
    | error p => rfl
    | ok a =>
      have hholds := h c List.mem_cons_self a (Constraint.toAssertion_apply_eq_ok_iff.1 hc)
      simp only [bind, Except.bind, hholds]

/-- Leaving out statements decides no constraint otherwise, as long as all those stay that some
assertion denoted by one of the constraints makes. -/
theorem allHold_filter {keep : Statement → Bool}
    (h : ∀ c ∈ cs, ∀ a, c.Denotes s a → keep a.toStatement = true) :
    allHold admission (statements.filter keep) s cs = allHold admission statements s cs := by
  refine allHold_congr fun c hc a ha => ?_
  rw [Bool.eq_iff_iff, Assertion.holds_iff, Assertion.holds_iff, List.mem_filter]
  simp [h c hc a ha]

/-- Neither the prefilter nor the short cut for no constraints shows in what is kept or in the
problem that is met. -/
theorem keepSatisfying_eq (prefilter : Bool) (facts : FactProgram) (substs : List Substitution) :
    keepSatisfying admission prefilter facts cs substs =
      (substs.mapM (keepIfSatisfying admission facts.statements cs)).map (List.filterMap id) := by
  unfold keepSatisfying
  split
  case isTrue hempty =>
    obtain rfl := List.isEmpty_iff.1 hempty
    have hkeep : ∀ s ∈ substs,
        keepIfSatisfying admission facts.statements [] s = okUnless none (some s) :=
      fun s _ => rfl
    rw [mapM_eq_okUnless hkeep, map_okUnless, List.filterMap_map]
    exact (okUnless_eq_ok_iff.2 ⟨List.findSome?_eq_none_iff.2 fun _ _ => rfl, by simp⟩).symm
  case isFalse =>
    have hkeep : keepIfSatisfying admission
        (facts.statements.filter fun statement => !prefilter || couldMeet cs statement) cs =
          keepIfSatisfying admission facts.statements cs := by
      funext s
      rw [keepIfSatisfying, keepIfSatisfying, allHold_filter]
      intro c hc a ha
      rw [couldMeet_of_denotes hc ha, Bool.or_true]
    dsimp only
    rw [hkeep]

/-- The substitutions that are kept are those under which all constraints hold, provided that the
constraints denote something under each. -/
theorem keepSatisfying_eq_filter {prefilter : Bool} {facts : FactProgram}
    {substs : List Substitution} (h : ∀ s ∈ substs, ∀ c ∈ cs, ∃ a, c.Denotes s a) :
    keepSatisfying admission prefilter facts cs substs =
      .ok (substs.filter (·.satisfies admission facts.statements cs)) := by
  have hkeep : ∀ s ∈ substs, keepIfSatisfying admission facts.statements cs s =
      okUnless none (if s.satisfies admission facts.statements cs then some s else none) := by
    intro s hs
    rw [keepIfSatisfying, allHold_eq_ok (h s hs)]
    rfl
  rw [keepSatisfying_eq, mapM_eq_okUnless hkeep, map_okUnless, okUnless_eq_ok_iff,
    List.filterMap_map]
  exact ⟨List.findSome?_eq_none_iff.2 fun _ _ => rfl, congrFun List.filterMap_eq_filter _⟩

end Selectors
