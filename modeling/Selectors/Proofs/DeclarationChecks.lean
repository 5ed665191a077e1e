import Selectors.Proofs.Batches

/-!
# What the check of declarations adds

With declarations checked, a selector whose declarations are in order (`Selector.WellDeclared`) has
the outcome that it has without the check. Any other has an error: first what is wrong with its
declarations, told one after the other (`Declaration.FaultsOf`), then what is wrong with its
constraints, which is told without the check as well (`compile_checking_declarations`).
-/

namespace Selectors

/-! ## Faults of declarations -/

namespace Declaration

/-- What is wrong with a declared pattern, given the patterns declared before it: one of these
declares the same variable, and the vocabulary lacks the type. -/
def faults (v : Vocabulary) (before : List Declaration) (d : Declaration) : List Problem :=
  (if d.ref.isVariable ∧ d.ref ∈ before.map (·.ref) then [.duplicateDeclaration d.ref.name] else [])
    ++ (if d.type ∈ v.types then [] else [.unknownType d.ref.name d.type])

/-- A list of problems tells what is wrong with declared patterns: in the order of declaration, a
variable once less than it is declared, and an unknown type each time that it is used. -/
structure FaultsOf (v : Vocabulary) (ds : List Declaration) (ps : List Problem) : Prop where
  inOrder : ps = (ds.mapIdx fun i d => d.faults v (ds.take i)).flatten
  duplicates : ∀ name, ps.count (.duplicateDeclaration name) = (varsOfAll ds).count name - 1
  unknownTypes : ∀ name type, ps.count (.unknownType name type) =
    if type ∈ v.types then 0 else ds.countP fun d => d.ref.name = name ∧ d.type = type

variable {v : Vocabulary} {seen : List String} {before ds : List Declaration} {d : Declaration}

theorem count_duplicate_faults (name : String) :
    (d.faults v before).count (.duplicateDeclaration name) =
      if d.ref = .variable name ∧ .variable name ∈ before.map (·.ref) then 1 else 0 := by
  have hunknown : (if d.type ∈ v.types then [] else [Problem.unknownType d.ref.name d.type]).count
      (.duplicateDeclaration name) = 0 := by
    split <;> simp
  rw [faults, List.count_append, hunknown, apply_ite (List.count _), List.count_nil]
  cases d.ref with
  | fact target => simp [Reference.isVariable]
  | «variable» w =>
    by_cases hw : w = name
    · simp [hw, Reference.isVariable, Reference.name]
    · simp [hw, Reference.name]

theorem count_unknown_faults (name type : String) :
    (d.faults v before).count (.unknownType name type) =
      if type ∉ v.types ∧ d.ref.name = name ∧ d.type = type then 1 else 0 := by
  have hduplicate : (if d.ref.isVariable ∧ d.ref ∈ before.map (·.ref) then
      [Problem.duplicateDeclaration d.ref.name] else []).count (.unknownType name type) = 0 := by
    split <;> simp
  rw [faults, List.count_append, hduplicate, apply_ite (List.count _), List.count_nil]
  by_cases htype : d.type = type
  · simp [htype, List.count_singleton, ite_and]
  · simp [htype]

/-- The variables that were seen are those of the patterns before. -/
def SeenIn (seen : List String) (before : List Declaration) : Prop :=
  ∀ name, name ∈ seen ↔ .variable name ∈ before.map (·.ref)

theorem SeenIn.cons (h : SeenIn seen before) (d : Declaration) :
    SeenIn (d.ref.vars ++ seen) (before ++ [d]) := by
  intro name
  rw [List.mem_append, h, Reference.mem_vars_iff, List.map_append, List.mem_append, or_comm]
  simp [eq_comm]

theorem declarationProblems_cons (h : SeenIn seen before) :
    declarationProblems v seen (d :: ds) =
      d.faults v before ++ declarationProblems v (d.ref.vars ++ seen) ds := by
  rw [declarationProblems, faults]
  cases d.ref with
  | fact target => simp [Reference.isVariable, Vocabulary.hasType]
  | «variable» name => simp [Reference.isVariable, Reference.name, ← h name, Vocabulary.hasType]

theorem declarationProblems_eq_flatten (h : SeenIn seen before) :
    declarationProblems v seen ds =
      (ds.mapIdx fun i d => d.faults v (before ++ ds.take i)).flatten := by
  induction ds generalizing seen before with
  | nil => rfl
  | cons d ds ih =>
    rw [declarationProblems_cons h, ih (h.cons d), List.mapIdx_cons, List.flatten_cons,
      List.take_zero, List.append_nil]
    simp only [List.take_succ_cons, List.append_assoc, List.singleton_append]

theorem count_duplicateDeclaration (h : SeenIn seen before) (name : String) :
    (declarationProblems v seen ds).count (.duplicateDeclaration name) =
      (varsOfAll ds).count name - if .variable name ∈ before.map (·.ref) then 0 else 1 := by
  induction ds generalizing seen before with
  | nil => simp [declarationProblems, varsOfAll]
  | cons d ds ih =>
    have hvars : d.ref.vars.count name = if d.ref = .variable name then 1 else 0 := by
      cases d.ref with
      | fact target => rfl
      | «variable» w => simp [Reference.vars, List.count_singleton]
    have hlater : .variable name ∈ (before ++ [d]).map (·.ref) ↔
        .variable name ∈ before.map (·.ref) ∨ d.ref = .variable name := by
      rw [List.map_append, List.mem_append, List.map_singleton, List.mem_singleton, eq_comm]
    rw [declarationProblems_cons h, List.count_append, count_duplicate_faults, ih (h.cons d),
      varsOfAll_cons, List.count_append, hvars]
    simp only [hlater]
    by_cases hd : d.ref = .variable name <;>
      by_cases hbefore : .variable name ∈ before.map (·.ref) <;> simp only [hd, hbefore] <;> simp

theorem count_unknownType (h : SeenIn seen before) (name type : String) :
    (declarationProblems v seen ds).count (.unknownType name type) =
      if type ∈ v.types then 0 else ds.countP fun d => d.ref.name = name ∧ d.type = type := by
  induction ds generalizing seen before with
  | nil => simp [declarationProblems]
  | cons d ds ih =>
    rw [declarationProblems_cons h, List.count_append, count_unknown_faults, ih (h.cons d),
      List.countP_cons]
    by_cases htype : type ∈ v.types <;> simp [htype, Nat.add_comm]

theorem faultsOf_declarationProblems (v : Vocabulary) (ds : List Declaration) :
    FaultsOf v ds (declarationProblems v [] ds) := by
  have h : SeenIn [] [] := fun name => by simp
  exact ⟨declarationProblems_eq_flatten h, count_duplicateDeclaration h, count_unknownType h⟩

end Declaration

/-! ## Outcomes with and without the check -/

/-- The declarations of a selector are in order: no variable is declared twice, in the head or in
the `with` clause, and the vocabulary has the types of all patterns. -/
structure Selector.WellDeclared (v : Vocabulary) (sel : Selector) : Prop where
  distinct : (Declaration.varsOfAll sel.declarations).Nodup
  known : ∀ d ∈ sel.declarations, d.type ∈ v.types

variable {v : Vocabulary} {settings : Settings} {sel : Selector}

theorem Selector.wellDeclared_iff :
    sel.WellDeclared v ↔ declarationProblems v [] sel.declarations = [] := by
  rw [declarationProblems_eq_nil_iff]
  simp only [Vocabulary.hasType, List.contains_iff_mem]
  exact ⟨fun h => ⟨h.distinct, fun _ _ => List.not_mem_nil, h.known⟩, fun h => ⟨h.1, h.2.2⟩⟩

instance : Decidable (sel.WellDeclared v) := decidable_of_iff _ Selector.wellDeclared_iff.symm

theorem Selector.problems_checked (v : Vocabulary) (settings : Settings) (sel : Selector) :
    (Header.selector sel).problems v { settings with checkDeclarations := true } =
      declarationProblems v [] sel.declarations
        ++ constraintProblems (.ofHeader (.selector sel)) sel.constraints := rfl

theorem Selector.problems_unchecked (v : Vocabulary) (settings : Settings) (sel : Selector) :
    (Header.selector sel).problems v { settings with checkDeclarations := false } =
      constraintProblems (.ofHeader (.selector sel)) sel.constraints := rfl

theorem Selector.WellDeclared.compileHeader_eq (h : sel.WellDeclared v) (facts : FactProgram)
    (i : Nat) :
    compileHeader v (.ofVocabulary v facts { settings with checkDeclarations := true }) i
        (.selector sel) =
      compileHeader v (.ofVocabulary v facts { settings with checkDeclarations := false }) i
        (.selector sel) := by
  have hproblems : (Header.selector sel).problems v { settings with checkDeclarations := true } =
      (Header.selector sel).problems v { settings with checkDeclarations := false } := by
    rw [problems_checked, problems_unchecked, wellDeclared_iff.1 h, List.nil_append]
  simp only [compileHeader, outcomeOf_checkDeclarations, Context.settings_ofVocabulary, hproblems]

/-- A selector whose declarations are not in order is not matched. -/
theorem Selector.compileHeader_of_not_wellDeclared (h : ¬ sel.WellDeclared v) (facts : FactProgram)
    (i : Nat) :
    compileHeader v (.ofVocabulary v facts { settings with checkDeclarations := true }) i
        (.selector sel) =
      .error ((declarationProblems v [] sel.declarations
        ++ constraintProblems (.ofHeader (.selector sel)) sel.constraints).map
          (·.toDiagnostic (some i))) := by
  rw [compileHeader_of_problems, Header.reports, Context.settings_ofVocabulary, problems_checked]
  rw [Context.settings_ofVocabulary, problems_checked]
  exact fun hnil => h (wellDeclared_iff.2 (List.append_eq_nil_iff.1 hnil).1)

theorem code_ne_of_mem_constraintProblems {scope : Scope} {cs : List Constraint} {p : Problem}
    (hp : p ∈ constraintProblems scope cs) : p.code ≠ "E-TYPE" := by
  obtain ⟨c, -, hc⟩ := List.mem_flatMap.1 hp
  rcases Constraint.mem_problems_iff.1 hc with ⟨_, _, _, rfl⟩ | ⟨_, _, rfl⟩ <;> simp [Problem.code]

/-- Without the check of declarations, all that is told of a selector concerns its constraints,
apart from a fact that is declared with a type variable. -/
theorem Selector.filter_reportsOf_compileHeader (v : Vocabulary) (settings : Settings)
    (facts : FactProgram) (i : Nat) (sel : Selector) :
    (reportsOf (compileHeader v
        (.ofVocabulary v facts { settings with checkDeclarations := false }) i
          (.selector sel))).filter (·.code ≠ "E-TYPE") =
      (constraintProblems (.ofHeader (.selector sel)) sel.constraints).map
        (·.toDiagnostic (some i)) := by
  obtain ⟨-, heq⟩ | ⟨hnil, found, heq⟩ | ⟨hnil, p, hp, heq⟩ := compileHeader_cases v
    (.ofVocabulary v facts { settings with checkDeclarations := false }) i (.selector sel)
  · rw [heq, reportsOf, Header.reports, Context.settings_ofVocabulary, problems_unchecked]
    refine List.filter_eq_self.2 (List.forall_mem_map.2 fun p hp => ?_)
    exact decide_eq_true (code_ne_of_mem_constraintProblems hp)
  · rw [Context.settings_ofVocabulary, problems_unchecked] at hnil
    rw [heq, hnil]
    rfl
  · rw [Context.settings_ofVocabulary, problems_unchecked] at hnil
    obtain ⟨type, name, -, rfl⟩ := FactProgram.firstTypeVariable_of_eq_some hp
    rw [heq, hnil]
    rfl

/-- What the check of declarations changes for a selector of a style program. Where no variable is
declared twice and the vocabulary has all types, nothing. Else the selector has an error, which
tells what is wrong with its declarations and then the reports about its constraints, which are
there without the check as well. -/
theorem compile_checking_declarations (v : Vocabulary) (facts : FactProgram) (style : StyleProgram)
    (settings : Settings) {i : Nat} {sel : Selector}
    (hi : style.headers[i]? = some (.selector sel)) :
    ∃ checked unchecked : Outcome,
      (compile v facts style { settings with checkDeclarations := true }).outcomes[i]? =
          some checked ∧
        (compile v facts style { settings with checkDeclarations := false }).outcomes[i]? =
          some unchecked ∧
        (sel.WellDeclared v → checked = unchecked) ∧
        (¬ sel.WellDeclared v → ∃ faults, Declaration.FaultsOf v sel.declarations faults ∧
          checked = .error (faults.map (·.toDiagnostic (some i))
            ++ (reportsOf unchecked).filter (·.code ≠ "E-TYPE"))) ∧
        (reportsOf unchecked).filter (·.code ≠ "E-TYPE") =
          (constraintProblems (.ofHeader (.selector sel)) sel.constraints).map
            (·.toDiagnostic (some i)) := by
  have hreports := sel.filter_reportsOf_compileHeader v settings facts i
  refine ⟨_, _, by rw [outcomes_getElem?, hi, Option.map_some],
    by rw [outcomes_getElem?, hi, Option.map_some], fun h => h.compileHeader_eq facts i,
    fun h => ?_, hreports⟩
  refine ⟨_, Declaration.faultsOf_declarationProblems v sel.declarations, ?_⟩
  rw [hreports, Selector.compileHeader_of_not_wellDeclared h, List.map_append]

/-- Declares the variable `v` three times, and two patterns of unknown types. -/
def faultySelector : Selector :=
  ⟨[⟨"A", .variable "v"⟩, ⟨"B", .variable "v"⟩], [⟨"C", .fact "f"⟩, ⟨"A", .variable "v"⟩],
    [.pred "P" [.ref (.variable "w")]]⟩

def faultyProblems : List Problem :=
  [.duplicateDeclaration "v", .unknownType "v" "B", .unknownType "f" "C",
    .duplicateDeclaration "v", .undeclaredVariable "w" "P(w)"]

def faultyStyle : StyleProgram := ⟨[.selector faultySelector, .selector declaring]⟩

theorem compile_checking_faultySelector :
    (faultyStyle.headers[0]? = some (.selector faultySelector) ∧
        ¬ faultySelector.WellDeclared ⟨["A"], []⟩ ∧
        (compile ⟨["A"], []⟩ typedFact faultyStyle
            { ({} : Settings) with checkDeclarations := true }).outcomes[0]? =
          some (.error (faultyProblems.map (·.toDiagnostic (some 0))))) ∧
      faultyStyle.headers[1]? = some (.selector declaring) ∧
        declaring.WellDeclared ⟨["A"], []⟩ ∧
        (compile ⟨["A"], []⟩ typedFact faultyStyle
            { ({} : Settings) with checkDeclarations := true }).outcomes[1]? =
          some (.ok [.ofList [("v", "a")]]) := by
  have hfaulty : ¬ faultySelector.WellDeclared ⟨["A"], []⟩ := by decide
  have hdeclaring : declaring.WellDeclared ⟨["A"], []⟩ := by decide
  refine ⟨⟨rfl, hfaulty, ?_⟩, rfl, hdeclaring, ?_⟩
  · obtain ⟨checked, unchecked, hchecked, -, -, hnot, hconstraints⟩ :=
      compile_checking_declarations ⟨["A"], []⟩ typedFact faultyStyle {} (i := 0) rfl
    obtain ⟨faults, hfaults, rfl⟩ := hnot hfaulty
    rw [hchecked, hfaults.inOrder, hconstraints]
    decide
  · obtain ⟨checked, unchecked, hchecked, hunchecked, hsame, -⟩ :=
      compile_checking_declarations ⟨["A"], []⟩ typedFact faultyStyle {} (i := 1) rfl
    rw [hchecked, hsame hdeclaring, ← hunchecked]
    rfl

end Selectors
