import Mathlib.Data.List.Flatten
import Selectors.Proofs.Compilation

/-!
# Leaving statements out

Three ways in which statements do not count, and what comes of each:

* the prefilter drops those that can meet no constraint, which changes nothing
  (`prefilter_immaterial`);
* names that are not admitted take no part in matching, as if the statements that turn on them were
  deleted (`matchHeader_admitted`);
* of fewer facts a selector lists fewer substitutions, in the order in which it listed them before
  (`found_sublist_of_sublist`).
-/

namespace Selectors

/-! ## The prefilter -/

theorem matchHeader_prefilter (facts : FactProgram) (settings : Settings) (accepts : TypeAcceptance)
    (h : Header) (scope : Scope) (prefilter : Bool) :
    matchHeader ⟨facts, { settings with prefilter := prefilter }, accepts⟩ h scope =
      matchHeader ⟨facts, settings, accepts⟩ h scope := by
  cases h with
  | space name => rfl
  | selector sel => simp only [matchHeader, matchSelector, keepSatisfying_eq]

theorem compileHeader_prefilter (v : Vocabulary) (facts : FactProgram) (settings : Settings)
    (i : Nat) (h : Header) (prefilter : Bool) :
    compileHeader v (.ofVocabulary v facts { settings with prefilter := prefilter }) i h =
      compileHeader v (.ofVocabulary v facts settings) i h := by
  have haccepts : acceptanceOf v { settings with prefilter := prefilter } =
      acceptanceOf v settings := rfl
  have hproblems : h.problems v { settings with prefilter := prefilter } =
      h.problems v settings := by
    cases h <;> rfl
  simp only [Context.ofVocabulary_eq, compileHeader, outcomeOf, haccepts, hproblems,
    matchHeader_prefilter]

theorem compile_prefilter (v : Vocabulary) (facts : FactProgram) (style : StyleProgram)
    (settings : Settings) (prefilter : Bool) :
    compile v facts style { settings with prefilter := prefilter } =
      compile v facts style settings := by
  simp only [compile, compileHeader_prefilter]

/-- With and without the prefilter the same substitutions are kept, in the same order, or the same
problem is met, whatever the substitutions bind and whether or not the constraints denote
something; so the outcomes of a style program are the same. -/
theorem prefilter_immaterial :
    (∀ (admission : Admission) (facts : FactProgram) (cs : List Constraint)
        (substs : List Substitution),
      keepSatisfying admission true facts cs substs =
        keepSatisfying admission false facts cs substs) ∧
      ∀ (v : Vocabulary) (facts : FactProgram) (style : StyleProgram) (settings : Settings),
        compile v facts style { settings with prefilter := true } =
          compile v facts style { settings with prefilter := false } := by
  refine ⟨fun admission facts cs substs => ?_, fun v facts style settings => ?_⟩
  · rw [keepSatisfying_eq, keepSatisfying_eq]
  · exact (compile_prefilter ..).trans (compile_prefilter ..).symm

/-! ## Admission -/

variable {admission : Admission}

/-! Everything that reads a statement reads it as admitted or not at all. -/

theorem Statement.typeVariable?_eq_ite (admission : Admission) (statement : Statement) :
    statement.typeVariable? =
      if statement.isAdmitted admission then statement.typeVariable? else none := by
  rcases statement with ⟨_ | _, _⟩ | _ | _
  case decl.var => rfl
  all_goals exact (ite_self _).symm

theorem Declaration.binding?_eq_ite (accepts : TypeAcceptance) (d : Declaration)
    (statement : Statement) :
    d.binding? accepts admission.types statement =
      if statement.isAdmitted admission then d.binding? accepts .all statement else none := by
  rcases statement with ⟨⟨type, _⟩ | _, _⟩ | _ | _
  case decl.constructor =>
    cases h : admission.types.admits type <;> simp [binding?, Statement.isAdmitted, h]
  all_goals exact (ite_self _).symm

theorem Assertion.isMadeBy_eq_and (a : Assertion) (statement : Statement) :
    a.isMadeBy admission statement =
      (statement.isAdmitted admission && a.isMadeBy {} statement) := by
  cases a with
  | bind wantedName wanted =>
    rcases statement with _ | ⟨name, _ | ⟨_ | _, _, _⟩⟩ | _ <;>
      simp [isMadeBy, Admission.admitsTerm, Statement.isAdmitted, Bool.and_assoc]
  | pred wanted => cases statement <;> simp [isMadeBy, Statement.isAdmitted]

/-! So it makes no difference whether what is not admitted is passed over or deleted. -/

theorem FactProgram.typeVariable?_admitted (admission : Admission) (facts : FactProgram) :
    (facts.admitted admission).typeVariable? = facts.typeVariable? := by
  rw [typeVariable?, typeVariable?, ← List.head?_filterMap, ← List.head?_filterMap, admitted,
    List.filterMap_filter]
  simp only [← Statement.typeVariable?_eq_ite]

theorem Declaration.bindings_admitted (accepts : TypeAcceptance) (facts : FactProgram)
    (d : Declaration) :
    d.bindings accepts .all (facts.admitted admission) =
      d.bindings accepts admission.types facts := by
  simp only [bindings, FactProgram.admitted, List.filterMap_filter, ← binding?_eq_ite]

theorem joined_admitted (accepts : TypeAcceptance) (facts : FactProgram)
    (ds : List Declaration) :
    joined accepts .all (facts.admitted admission) ds =
      joined accepts admission.types facts ds := by
  simp only [joined, joinedFrom, Declaration.bindings_admitted]

theorem Assertion.holds_admitted (facts : FactProgram) (a : Assertion) :
    a.holds {} (facts.admitted admission).statements = a.holds admission facts.statements := by
  simp only [holds, FactProgram.admitted, List.any_filter, ← isMadeBy_eq_and]

theorem Substitution.satisfies_admitted (facts : FactProgram) (cs : List Constraint)
    (s : Substitution) :
    s.satisfies {} (facts.admitted admission).statements cs =
      s.satisfies admission facts.statements cs := by
  have hholds : allHold {} (facts.admitted admission).statements s cs =
      allHold admission facts.statements s cs :=
    allHold_congr fun c hc a ha => a.holds_admitted facts
  rw [satisfies, satisfies, hholds]

/-- The context in which all names are admitted and the facts lack the statements that were not. -/
def Context.admitted (ctx : Context) : Context where
  facts := ctx.facts.admitted ctx.settings.admission
  settings := { ctx.settings with admission := {} }
  accepts := ctx.accepts

theorem Selector.joined_admitted (ctx : Context) (sel : Selector) :
    sel.joined ctx.admitted = sel.joined ctx :=
  Selectors.joined_admitted ctx.accepts ctx.facts sel.declarations

theorem Selector.keeps_admitted (ctx : Context) (scope : Scope) (sel : Selector) :
    sel.keeps ctx.admitted scope = sel.keeps ctx scope := by
  funext s
  rw [keeps, keeps, Context.admitted, Substitution.satisfies_admitted]

/-- A header lists the same substitutions, in the same order, or meets the same problem, when all
names are admitted and the statements that turn on a name which was left out are deleted from the
facts. -/
theorem matchHeader_admitted (ctx : Context) (h : Header) (scope : Scope) :
    matchHeader ctx.admitted h scope = matchHeader ctx h scope ∧
      ctx.admitted.facts.statements = ctx.facts.statements.filter fun statement =>
        ¬ statement.IsLeftOut ctx.settings.admission := by
  refine ⟨?_, FactProgram.statements_admitted ..⟩
  cases h with
  | space name => rfl
  | selector sel =>
    have hproblem : (Header.selector sel).problem? ctx.admitted.facts scope =
        (Header.selector sel).problem? ctx.facts scope := by
      rw [Header.problem?, Header.problem?, Context.admitted, FactProgram.typeVariable?_admitted]
    rw [matchHeader, matchHeader, matchSelector_eq, matchSelector_eq, hproblem,
      Selector.joined_admitted, Selector.keeps_admitted]

/-! ## Fewer facts -/

variable {accepts : TypeAcceptance} {filter : NameFilter} {facts facts' : FactProgram}

theorem FactProgram.typeVariable?_eq_none_of_sublist
    (h : facts'.statements.Sublist facts.statements) (hfacts : facts.typeVariable? = none) :
    facts'.typeVariable? = none := by
  rw [typeVariable?_eq_none_iff] at hfacts ⊢
  exact fun type name hmem => hfacts type name (h.subset hmem)

theorem Header.problem?_eq_none_of_sublist (h : facts'.statements.Sublist facts.statements)
    {header : Header} {scope : Scope} (hheader : header.problem? facts scope = none) :
    header.problem? facts' scope = none := by
  rw [problem?, Option.or_eq_none_iff] at hheader ⊢
  obtain ⟨hconstraints, hfacts⟩ := hheader
  refine ⟨hconstraints, ?_⟩
  split
  case isTrue => rfl
  case isFalse hne =>
    rw [if_neg hne] at hfacts
    exact FactProgram.typeVariable?_eq_none_of_sublist h hfacts

theorem Substitution.product_sublist {ss ss' ts ts' : List Substitution}
    (hs : ss'.Sublist ss) (ht : ts'.Sublist ts) : (product ss' ts').Sublist (product ss ts) := by
  have hright : (product ss' ts').Sublist (product ss' ts) :=
    List.Sublist.flatMap_right ss' fun s _ => ht.map s.combine
  exact hright.trans (hs.flatMap _)

/-- Where every pattern loses candidates only, the join loses substitutions only. -/
theorem joinedFrom_sublist {accepts' : TypeAcceptance}
    (h : ∀ d : Declaration,
      (d.bindings accepts' filter facts').Sublist (d.bindings accepts filter facts))
    {running running' : List Substitution} (hrunning : running'.Sublist running)
    (ds : List Declaration) :
    (joinedFrom accepts' filter facts' running' ds).Sublist
      (joinedFrom accepts filter facts running ds) := by
  induction ds generalizing running running' with
  | nil => exact hrunning
  | cons d ds ih => exact ih (Substitution.product_sublist hrunning (h d))

theorem Constraint.HoldsUnder.of_subset {statements statements' : List Statement}
    {s : Substitution} {c : Constraint} (hc : c.HoldsUnder admission statements' s)
    (h : statements' ⊆ statements) : c.HoldsUnder admission statements s := by
  obtain ⟨a, hdenotes, hadmitted, hmem⟩ := hc
  exact ⟨a, hdenotes, hadmitted, h hmem⟩

theorem Selector.keeps_of_subset {settings : Settings} {sel : Selector} {scope : Scope}
    {s : Substitution} (h : facts'.statements ⊆ facts.statements)
    (hs : sel.keeps ⟨facts', settings, accepts⟩ scope s = true) :
    sel.keeps ⟨facts, settings, accepts⟩ scope s = true := by
  simp only [keeps, Bool.and_eq_true, Substitution.satisfies_iff] at hs ⊢
  obtain ⟨⟨hcomplete, hconstraints⟩, hdistinct⟩ := hs
  exact ⟨⟨hcomplete, fun c hc => (hconstraints c hc).of_subset h⟩, hdistinct⟩

theorem matchHeader_sublist (h : facts'.statements.Sublist facts.statements) {settings : Settings}
    {header : Header} {scope : Scope} {found : List Substitution}
    (hfound : matchHeader ⟨facts, settings, accepts⟩ header scope = .ok found) :
    ∃ found', matchHeader ⟨facts', settings, accepts⟩ header scope = .ok found' ∧
      found'.Sublist found := by
  cases header with
  | space name => exact ⟨found, hfound, .refl found⟩
  | selector sel =>
    rw [matchHeader, matchSelector_eq, okUnless_eq_ok_iff] at hfound
    obtain ⟨hproblem, rfl⟩ := hfound
    rw [matchHeader, matchSelector_eq, Header.problem?_eq_none_of_sublist h hproblem]
    have hjoined : (sel.joined ⟨facts', settings, accepts⟩).Sublist
        (sel.joined ⟨facts, settings, accepts⟩) :=
      joinedFrom_sublist (fun d => h.filterMap _) (.refl _) _
    -- The join loses whole choices of candidates, and no test lets through what it kept out before.
    refine ⟨_, rfl, (hjoined.filter _).trans (List.monotone_filter_right _ fun s hs => ?_)⟩
    exact Selector.keeps_of_subset h.subset hs

/-- Of fewer facts a selector lists no substitution that it did not list before, none more often,
and those that are left in the same order: in a style program, and under any scope. -/
theorem found_sublist_of_sublist {facts facts' : FactProgram}
    (h : facts'.statements.Sublist facts.statements) :
    (∀ (v : Vocabulary) (style : StyleProgram) (settings : Settings) (i : Nat)
        (found : List Substitution),
      (compile v facts style settings).outcomes[i]? = some (.ok found) →
        ∃ found', (compile v facts' style settings).outcomes[i]? = some (.ok found') ∧
          found'.Sublist found) ∧
      ∀ (settings : Settings) (accepts : TypeAcceptance) (header : Header) (scope : Scope)
          (found : List Substitution),
        matchHeader ⟨facts, settings, accepts⟩ header scope = .ok found →
          ∃ found', matchHeader ⟨facts', settings, accepts⟩ header scope = .ok found' ∧
            found'.Sublist found := by
  refine ⟨fun v style settings i found hfound => ?_, fun settings accepts header scope found => ?_⟩
  · rw [outcomes_getElem?, Option.map_eq_some_iff] at hfound
    obtain ⟨header, hheader, hfound⟩ := hfound
    rw [Context.ofVocabulary_eq, compileHeader_eq_ok_iff] at hfound
    obtain ⟨found', hfound', hsublist⟩ := matchHeader_sublist h hfound.2
    refine ⟨found', ?_, hsublist⟩
    rw [outcomes_getElem?, hheader, Option.map_some, Context.ofVocabulary_eq]
    exact congrArg some (compileHeader_eq_ok_iff.2 ⟨hfound.1, hfound'⟩)
  · exact matchHeader_sublist h

def inSpace : Selector where
  head := [⟨"Vector", .variable "v"⟩, ⟨"VectorSpace", .variable "U"⟩]
  withDecls := []
  constraints := [.pred "In" [.ref (.variable "v"), .ref (.variable "U")]]

/-- The facts of `planeContext`, with the second vector in the space as well. -/
def twoVectors : FactProgram :=
  ⟨planeContext.facts.statements ++ [.pred (.ofFacts "In" ["x2", "X"])]⟩

/-- Without the assertion about the second vector, its substitution is gone. -/
theorem found_sublist_oneAssertion :
    planeContext.facts.statements.Sublist twoVectors.statements ∧
      (compile .empty twoVectors ⟨[.selector inSpace]⟩ {}).outcomes[0]? =
        some (.ok [.ofList [("U", "X"), ("v", "x1")], .ofList [("U", "X"), ("v", "x2")]]) ∧
      (compile .empty planeContext.facts ⟨[.selector inSpace]⟩ {}).outcomes[0]? =
        some (.ok [.ofList [("U", "X"), ("v", "x1")]]) ∧
      ([.ofList [("U", "X"), ("v", "x1")]] : List Substitution).Sublist
        [.ofList [("U", "X"), ("v", "x1")], .ofList [("U", "X"), ("v", "x2")]] := by
  have hfacts : planeContext.facts.statements.Sublist twoVectors.statements :=
    List.sublist_append_left ..
  have hfewer : (compile .empty planeContext.facts ⟨[.selector inSpace]⟩ {}).outcomes[0]? =
      some (.ok [.ofList [("U", "X"), ("v", "x1")]]) := rfl
  obtain ⟨found, hfound, hsublist⟩ :=
    (found_sublist_of_sublist hfacts).1 .empty ⟨[.selector inSpace]⟩ {} 0 _ rfl
  cases hfewer.symm.trans hfound
  exact ⟨hfacts, rfl, hfewer, hsublist⟩

end Selectors
