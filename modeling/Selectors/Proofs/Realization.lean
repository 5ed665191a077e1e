import Selectors.Proofs.Compilation

/-!
# Selectors that list something

Whether a selector lists a substitution for some facts at all can be read off the selector and the
settings (`Selector.Realizable`). If it can, facts are made up for it: one of an admissible type for
each declared pattern, one under a fresh name for each variable, and what the constraints assert.
The type of the fact that a variable is bound to may be any that is admissible for the variable's
last declaration, and the fact has no other type (`Selector.Realizable.exists_hasOutcome`).
-/

namespace Selectors

/-! ## Admitted constraints -/

/-- Whether the operator of an expression is admitted; an open application is not. -/
def Expr.isAdmitted (admission : Admission) : Expr → Bool
  | .ref _ => true
  | .app (some .function) name _ => admission.functions.admits name
  | .app (some .constructor) name _ => admission.constructors.admits name
  | .app none _ _ => false

def Constraint.isAdmitted (admission : Admission) : Constraint → Bool
  | .bind _ expr => expr.isAdmitted admission
  | .pred name _ => admission.predicates.admits name

variable {s : Substitution} {admission : Admission}

theorem Expr.Denotes.admitsTerm_eq {expr : Expr} {term : Term} (h : expr.Denotes s term) :
    admission.admitsTerm term = expr.isAdmitted admission := by
  cases h with
  | ref => rfl
  | @app operator => cases operator <;> rfl

/-- Whether an assertion is admitted hangs on the constraint alone that denotes it. -/
theorem Constraint.Denotes.isAdmitted_eq {c : Constraint} {a : Assertion} (h : c.Denotes s a) :
    a.isAdmitted admission = c.isAdmitted admission := by
  cases h with
  | bind _ hexpr => exact hexpr.admitsTerm_eq
  | pred => rfl

/-! ## Fresh names -/

/-- Names can be lengthened so that they differ from given ones and from each other. -/
theorem exists_fresh_injective (names : List String) :
    ∃ fresh : String → String, Function.Injective fresh ∧ ∀ x, fresh x ∉ names := by
  let longest := (names.map String.length).max?.getD 0
  let padding := String.ofList (List.replicate (longest + 1) 'x')
  refine ⟨fun x => padding ++ x, fun x y h => (String.append_right_inj _).1 h, fun x hmem => ?_⟩
  have hle : (padding ++ x).length ≤ longest :=
    List.le_max?_getD_of_mem (List.mem_map_of_mem hmem)
  simp only [String.length_append, padding, String.length_ofList, List.length_replicate] at hle
  omega

variable {v : Vocabulary} {settings : Settings} {sel : Selector}

def Admissible (v : Vocabulary) (settings : Settings) (type declared : String) : Prop :=
  settings.admission.types.admits type = true ∧ acceptanceOf v settings type declared = true

namespace Selector

/-! ## Facts made up for a selector -/

/-- A fact for every declared pattern, named as the pattern is, a fact for every variable, under a
fresh name, and what the constraints assert. -/
def madeUpFacts (sel : Selector) (typeOf : Declaration → String) (fresh varType : String → String)
    (asserted : Constraint → Assertion) : FactProgram where
  statements :=
    sel.declarations.map (fun d => .decl (.nullary (typeOf d)) d.ref.name)
      ++ (Declaration.varsOfAll sel.declarations).map
        (fun x => .decl (.nullary (varType x)) (fresh x))
      ++ sel.constraints.map fun c => (asserted c).toStatement

variable {typeOf : Declaration → String} {fresh varType : String → String}
  {asserted : Constraint → Assertion}

theorem decl_mem_madeUpFacts_iff {type : FactType} {name : String} :
    .decl type name ∈ (sel.madeUpFacts typeOf fresh varType asserted).statements ↔
      (∃ d ∈ sel.declarations, .nullary (typeOf d) = type ∧ d.ref.name = name) ∨
        ∃ x, sel.Declares x ∧ .nullary (varType x) = type ∧ fresh x = name := by
  have hassertion : ∀ a : Assertion, a.toStatement ≠ .decl type name := by
    intro a
    cases a <;> simp [Assertion.toStatement]
  simp [madeUpFacts, hassertion, Declaration.mem_varsOfAll_iff, Declares]

theorem typeVariable?_madeUpFacts :
    (sel.madeUpFacts typeOf fresh varType asserted).typeVariable? = none := by
  refine FactProgram.typeVariable?_eq_none_iff.2 fun type name hmem => ?_
  rcases decl_mem_madeUpFacts_iff.1 hmem with ⟨_, _, htype, _⟩ | ⟨_, _, htype, _⟩ <;> cases htype

theorem mem_names_ofFunction_varsOfAll {x : String} :
    x ∈ (Substitution.ofFunction fresh (Declaration.varsOfAll sel.declarations)).names ↔
      sel.Declares x := by
  simp [NameTable.mem_names_iff, Declaration.mem_varsOfAll_iff, Declares]

theorem accepts_madeUpFacts (hsel : sel.Unshadowed) (hfresh : Function.Injective fresh)
    (htype : ∀ d ∈ sel.declarations, Admissible v settings (typeOf d) d.type)
    (hvar : ∀ x d, Declaration.lastVariable? x sel.declarations = some d →
      Admissible v settings (varType x) d.type)
    (hassert : ∀ c ∈ sel.constraints,
      c.Denotes (.ofFunction fresh (Declaration.varsOfAll sel.declarations)) (asserted c))
    (hadmitted : ∀ c ∈ sel.constraints, c.isAdmitted settings.admission = true) :
    sel.Accepts
      ⟨sel.madeUpFacts typeOf fresh varType asserted, settings, acceptanceOf v settings⟩
      (.ofFunction fresh (Declaration.varsOfAll sel.declarations)) := by
  refine ⟨fun d hd => ?_, fun x => mem_names_ofFunction_varsOfAll, hsel, fun x name hname => ?_,
    fun c hc => ?_, ?_⟩
  · refine ⟨d.ref.name, ⟨typeOf d, [], ?_, htype d hd⟩, ?_⟩
    · exact decl_mem_madeUpFacts_iff.2 (.inl ⟨d, hd, rfl, rfl⟩)
    cases d.ref with
    | «variable» => exact .inl rfl
    | fact => exact .inr rfl
  · rw [Substitution.get?_ofFunction, Option.ite_none_right_eq_some] at hname
    obtain ⟨hx, ⟨⟩⟩ := hname
    have hx : sel.Declares x := Declaration.mem_varsOfAll_iff.1 hx
    obtain ⟨d, hlast, href⟩ := hsel x hx
    have hadmissible := hvar x d (Declaration.lastVariable?_of_lastNamed? hlast href)
    refine ⟨d, hlast, ⟨varType x, [], ?_, hadmissible⟩, .inl (by rw [href]; rfl)⟩
    exact decl_mem_madeUpFacts_iff.2 (.inr ⟨x, hx, rfl, rfl⟩)
  · refine ⟨asserted c, hassert c hc, ?_, ?_⟩
    · rw [(hassert c hc).isAdmitted_eq, hadmitted c hc]
    · exact List.mem_append_right _ (List.mem_map.2 ⟨c, hc, rfl⟩)
  · intro x y name hx hy
    rw [Substitution.get?_ofFunction, Option.ite_none_right_eq_some] at hx hy
    exact hfresh (Option.some.inj (hx.2.trans hy.2.symm))

theorem supports_madeUpFacts (hinj : Function.Injective fresh)
    (hfresh : ∀ x, fresh x ∉ sel.declarations.map (·.ref.name)) {x type : String}
    (h : (sel.madeUpFacts typeOf fresh varType asserted).Supports (acceptanceOf v settings)
      settings.admission.types type (fresh x)) :
    Admissible v settings (varType x) type := by
  obtain ⟨declared, args, hmem, hadmissible⟩ := h
  rcases decl_mem_madeUpFacts_iff.1 hmem with ⟨d, hd, -, hname⟩ | ⟨y, -, htype, hname⟩
  · exact absurd (List.mem_map.2 ⟨d, hd, hname⟩) (hfresh x)
  · cases htype
    rwa [hinj hname] at hadmissible

/-! ## Which selectors list something -/

/-- What it takes for a selector to list a substitution for some facts. -/
structure Realizable (v : Vocabulary) (settings : Settings) (sel : Selector) : Prop where
  problems : (Header.selector sel).problems v settings = []
  unshadowed : sel.Unshadowed
  types : ∀ d ∈ sel.declarations, ∃ type, Admissible v settings type d.type
  constraints : ∀ c ∈ sel.constraints, c.isAdmitted settings.admission = true

theorem HasOutcome.realizable {facts : FactProgram} {found : List Substitution}
    (h : sel.HasOutcome v facts settings (.ok found)) (hs : s ∈ found) :
    sel.Realizable v settings := by
  obtain ⟨hproblems, -, rfl⟩ := hasOutcome_ok_iff.1 h
  have haccepts := mem_accepted_iff.1 hs
  refine ⟨hproblems, haccepts.unshadowed, fun d hd => ?_, fun c hc => ?_⟩
  · obtain ⟨_, ⟨type, _, -, hadmissible⟩, -⟩ := haccepts.candidate d hd
    exact ⟨type, hadmissible⟩
  · obtain ⟨a, hdenotes, hadmitted, -⟩ := haccepts.constraints c hc
    exact hdenotes.isAdmitted_eq ▸ hadmitted

/-- The type of one variable can be chosen, the others take any type that suits them. -/
theorem Realizable.exists_varType (h : sel.Realizable v settings) {x type : String}
    {last : Declaration} (hlast : Declaration.lastVariable? x sel.declarations = some last)
    (htype : Admissible v settings type last.type) :
    ∃ varType : String → String, varType x = type ∧
      ∀ y d, Declaration.lastVariable? y sel.declarations = some d →
        Admissible v settings (varType y) d.type := by
  choose! typeOf htypes using h.types
  let varType y := if y = x then type
    else ((Declaration.lastVariable? y sel.declarations).map typeOf).getD type
  refine ⟨varType, if_pos rfl, fun y d hd => ?_⟩
  by_cases hy : y = x
  · have heq : varType y = type := if_pos hy
    rw [hy, hlast] at hd
    cases hd
    rwa [heq]
  · have heq : varType y = typeOf d := by simp [varType, hy, hd]
    rw [heq]
    exact htypes d (Declaration.mem_of_lastVariable? hd).1

/-- A realizable selector lists a substitution for facts whose types can be chosen: any that suits
the last declaration of its variable is the only type of a bound fact. -/
theorem Realizable.exists_hasOutcome (h : sel.Realizable v settings) {varType : String → String}
    (hvar : ∀ x d, Declaration.lastVariable? x sel.declarations = some d →
      Admissible v settings (varType x) d.type) :
    ∃ facts found s, sel.HasOutcome v facts settings (.ok found) ∧ s ∈ found ∧
      ∀ x name type, s.get? x = some name →
        (Context.ofVocabulary v facts settings).Supports type name →
          Admissible v settings (varType x) type := by
  obtain ⟨fresh, hinj, hfresh⟩ := exists_fresh_injective (sel.declarations.map (·.ref.name))
  choose! typeOf htype using h.types
  -- What the constraints assert hangs on the fresh names, so these are fixed first.
  have hdenotes : ∀ c ∈ sel.constraints, ∃ a,
      c.Denotes (.ofFunction fresh (Declaration.varsOfAll sel.declarations)) a := by
    refine exists_denotes_of_isCompletedBy (problems_eq_nil_iff.1 h.problems).2 ?_
    exact (isCompletedBy_iff_unshadowed fun x => mem_names_ofFunction_varsOfAll).2 h.unshadowed
  choose! asserted hassert using hdenotes
  have haccepts := accepts_madeUpFacts h.unshadowed hinj htype hvar hassert h.constraints
  refine ⟨_, _, _, hasOutcome_ok_iff.2 ⟨h.problems, .inr typeVariable?_madeUpFacts, rfl⟩,
    mem_accepted_iff.2 haccepts, fun x name type hname hsupports => ?_⟩
  rw [Substitution.get?_ofFunction, Option.ite_none_right_eq_some] at hname
  obtain ⟨-, ⟨⟩⟩ := hname
  rw [Context.ofVocabulary_eq] at hsupports
  exact supports_madeUpFacts hinj hfresh hsupports

end Selector

end Selectors
