import Selectors.Proofs.Omission
import Selectors.Proofs.Subtyping

/-!
# Wider type matching

When more types are accepted where a type is declared, every pattern keeps its candidates and may
gain others, so the join keeps its substitutions and their order. What can go wrong with a header
does not hang on the accepted types. So a header has the same problem as before, or its list of
substitutions has only been added to (`found_widened`).
-/

namespace Selectors

/-- A result after the type matching was made wider: the same error, or a list in which the
substitutions of the old one are left, in their order. -/
inductive WidenedResult {ε : Type} :
    Except ε (List Substitution) → Except ε (List Substitution) → Prop
  | error {e : ε} : WidenedResult (.error e) (.error e)
  | ok {found found' : List Substitution} :
    found.Sublist found' → WidenedResult (.ok found) (.ok found')

theorem WidenedResult.sublist {ε : Type} {found found' : List Substitution}
    (h : WidenedResult (.ok found : Except ε (List Substitution)) (.ok found')) :
    found.Sublist found' := by
  cases h with
  | ok h => exact h

theorem WidenedResult.mapError {ε ε' : Type} {x y : Except ε (List Substitution)} {f : ε → ε'}
    (h : WidenedResult x y) : WidenedResult (x.mapError f) (y.mapError f) := by
  cases h with
  | error => exact .error
  | ok h => exact .ok h

theorem WidenedResult.okUnless {p? : Option Problem} {found found' : List Substitution}
    (h : found.Sublist found') :
    WidenedResult (okUnless p? found) (Selectors.okUnless p? found') := by
  cases p? with
  | none => exact .ok h
  | some p => exact .error

/-! ## Headers -/

section
variable {accepts accepts' : TypeAcceptance} {filter : NameFilter} {facts : FactProgram}
  (haccepts : ∀ type declared, accepts type declared = true → accepts' type declared = true)
include haccepts

theorem Declaration.binding?_of_wider {d : Declaration} {statement : Statement} {b : Substitution}
    (h : d.binding? accepts filter statement = some b) :
    d.binding? accepts' filter statement = some b := by
  rcases statement with ⟨⟨type, args⟩ | _, name⟩ | _ | _
  · simp only [binding?, Option.ite_none_right_eq_some, Bool.and_eq_true] at h ⊢
    obtain ⟨⟨hadmits, haccepted⟩, hb⟩ := h
    exact ⟨⟨hadmits, haccepts type d.type haccepted⟩, hb⟩
  all_goals cases h

theorem Declaration.bindings_sublist (d : Declaration) :
    (d.bindings accepts filter facts).Sublist (d.bindings accepts' filter facts) := by
  rw [bindings, bindings]
  induction facts.statements with
  | nil => exact .slnil
  | cons statement statements ih =>
    rw [List.filterMap_cons, List.filterMap_cons]
    cases hnarrow : d.binding? accepts filter statement with
    | some b =>
      rw [binding?_of_wider haccepts hnarrow]
      exact ih.cons_cons b
    | none =>
      cases d.binding? accepts' filter statement with
      | some b => exact ih.cons b
      | none => exact ih

theorem matchHeader_widened (settings : Settings) (header : Header) (scope : Scope) :
    WidenedResult (matchHeader ⟨facts, settings, accepts⟩ header scope)
      (matchHeader ⟨facts, settings, accepts'⟩ header scope) := by
  cases header with
  | space name => exact .ok (.refl [])
  | selector sel =>
    rw [matchHeader, matchHeader, matchSelector_eq, matchSelector_eq]
    have hjoined : (sel.joined ⟨facts, settings, accepts⟩).Sublist
        (sel.joined ⟨facts, settings, accepts'⟩) :=
      joinedFrom_sublist (Declaration.bindings_sublist haccepts) (.refl _) _
    -- Neither the problem nor the test looks at the accepted types.
    exact .okUnless (hjoined.filter (sel.keeps ⟨facts, settings, accepts⟩ scope))

end

/-! ## Style programs -/

theorem Header.problems_typePolicy (v : Vocabulary) (settings : Settings) (policy : TypePolicy)
    (h : Header) : h.problems v { settings with typePolicy := policy } = h.problems v settings := by
  cases h <;> rfl

theorem matchHeader_typePolicy (facts : FactProgram) (settings : Settings) (policy : TypePolicy)
    (accepts : TypeAcceptance) (h : Header) (scope : Scope) :
    matchHeader ⟨facts, { settings with typePolicy := policy }, accepts⟩ h scope =
      matchHeader ⟨facts, settings, accepts⟩ h scope := by
  cases h <;> rfl

theorem declarationProblems_congr {v v' : Vocabulary} (h : ∀ type, v'.hasType type = v.hasType type)
    (seen : List String) (ds : List Declaration) :
    declarationProblems v' seen ds = declarationProblems v seen ds := by
  induction ds generalizing seen with
  | nil => rfl
  | cons d ds ih => rw [declarationProblems, declarationProblems, h, ih]

/-- A header has the same problems over vocabularies with the same types, and over any two if its
declarations are not checked. -/
theorem Header.problems_congr {v v' : Vocabulary} {settings : Settings}
    (h : settings.checkDeclarations = true → ∀ type, v'.hasType type = v.hasType type)
    (header : Header) : header.problems v' settings = header.problems v settings := by
  cases header with
  | space name => rfl
  | selector sel =>
    rw [problems, problems]
    split
    case isTrue hcheck => rw [declarationProblems_congr (h hcheck)]
    case isFalse => rfl

theorem compileHeader_widened {v v' : Vocabulary} {facts : FactProgram} {settings : Settings}
    {policy policy' : TypePolicy} {i : Nat} {h : Header}
    (hproblems : h.problems v' settings = h.problems v settings)
    (haccepts : ∀ type declared,
      acceptanceOf v { settings with typePolicy := policy } type declared = true →
        acceptanceOf v' { settings with typePolicy := policy' } type declared = true) :
    WidenedResult
      (compileHeader v (.ofVocabulary v facts { settings with typePolicy := policy }) i h)
      (compileHeader v' (.ofVocabulary v' facts { settings with typePolicy := policy' }) i h) := by
  simp only [Context.ofVocabulary_eq, compileHeader, Header.problems_typePolicy, hproblems]
  cases h.problems v settings with
  | cons p ps => exact .error
  | nil =>
    simp only [outcomeOf, matchHeader_typePolicy]
    exact (matchHeader_widened haccepts settings h _).mapError

theorem compile_widened {v v' : Vocabulary} {facts : FactProgram} {style : StyleProgram}
    {settings : Settings} {policy policy' : TypePolicy}
    (hproblems : ∀ h : Header, h.problems v' settings = h.problems v settings)
    (haccepts : ∀ type declared,
      acceptanceOf v { settings with typePolicy := policy } type declared = true →
        acceptanceOf v' { settings with typePolicy := policy' } type declared = true) :
    List.Forall₂ WidenedResult
      (compile v facts style { settings with typePolicy := policy }).outcomes
      (compile v' facts style { settings with typePolicy := policy' }).outcomes := by
  rw [compile, compile, List.forall₂_map_left_iff, List.forall₂_map_right_iff, List.forall₂_same]
  intro entry _
  exact compileHeader_widened (hproblems entry.1) haccepts

/-- Where a wider acceptance of types takes the place of another, a header meets the same problem
under any scope, or its old list of substitutions is a subsequence of the new one. So it is, header
by header, for a style program when subtypes are accepted in place of equal types only, and when
pairs are added to the vocabulary, whose types do not count unless declarations are checked. -/
theorem found_widened :
    (∀ (facts : FactProgram) (settings : Settings) (accepts accepts' : TypeAcceptance)
        (header : Header) (scope : Scope),
      (∀ type declared, accepts type declared = true → accepts' type declared = true) →
        WidenedResult (matchHeader ⟨facts, settings, accepts⟩ header scope)
          (matchHeader ⟨facts, settings, accepts'⟩ header scope)) ∧
      ∀ (v : Vocabulary) (facts : FactProgram) (style : StyleProgram) (settings : Settings),
        List.Forall₂ WidenedResult
            (compile v facts style { settings with typePolicy := .exact }).outcomes
            (compile v facts style { settings with typePolicy := .subtype }).outcomes ∧
          ∀ v' : Vocabulary, v.subtypes ⊆ v'.subtypes →
            (settings.checkDeclarations = true → ∀ type, v'.hasType type = v.hasType type) →
              List.Forall₂ WidenedResult
                (compile v facts style { settings with typePolicy := .subtype }).outcomes
                (compile v' facts style { settings with typePolicy := .subtype }).outcomes := by
  refine ⟨?_, ?_⟩
  · intro facts settings accepts accepts' header scope haccepts
    exact matchHeader_widened haccepts settings header scope
  · intro v facts style settings
    refine ⟨?_, ?_⟩
    · refine compile_widened (fun _ => rfl) ?_
      intro type declared heq
      exact Subtypes.isSubtype_eq_true_iff.2 (.inl (beq_iff_eq.1 heq))
    · intro v' hpairs htypes
      refine compile_widened (Header.problems_congr htypes) ?_
      intro type declared hsub
      exact Subtypes.isSubtype_mono hpairs hsub

/-! ## Pairs without chains -/

/-- Where no type is both above and below another, the declared pairs are all there is to accept. -/
theorem acceptanceOf_of_no_chains {v : Vocabulary}
    (h : ∀ p ∈ v.subtypes, ∀ q ∈ v.subtypes, p.sup ≠ q.sub) :
    acceptanceOf v { typePolicy := .subtype } =
      fun type declared => type == declared || v.subtypes.contains ⟨type, declared⟩ := by
  funext type declared
  rw [Bool.eq_iff_iff, Bool.or_eq_true, beq_iff_eq, List.contains_iff_mem,
    ← Vocabulary.below_iff_mem h, ← Subtypes.mem_above_iff]
  exact Subtypes.isSubtype_eq_true_iff

def anyRect : Selector := ⟨[⟨"Rect", .variable "v"⟩], [], []⟩

def threeShapes : FactProgram :=
  ⟨[.decl (.nullary "Square") "s", .decl (.nullary "Rect") "r", .decl (.nullary "Grid") "g"]⟩

def onePair : Vocabulary := ⟨[], [⟨"Square", "Rect"⟩]⟩

def twoPairs : Vocabulary := ⟨["Grid"], [⟨"Grid", "Rect"⟩, ⟨"Square", "Rect"⟩]⟩

/-- The selector `anyRect` lists one shape more under the subtype policy, and another one when a pair
is added. -/
theorem found_widened_anyRect :
    (matchHeader ⟨threeShapes, {}, (· == ·)⟩ (.selector anyRect) (.ofHeader (.selector anyRect)) =
        .ok [.singleton "v" "r"] ∧
      matchHeader ⟨threeShapes, {}, fun _ _ => true⟩ (.selector anyRect)
          (.ofHeader (.selector anyRect)) =
        .ok [.singleton "v" "s", .singleton "v" "r", .singleton "v" "g"] ∧
      [Substitution.singleton "v" "r"].Sublist
        [.singleton "v" "s", .singleton "v" "r", .singleton "v" "g"]) ∧
      ((compile onePair threeShapes ⟨[.selector anyRect]⟩ { typePolicy := .exact }).outcomes =
          [.ok [.singleton "v" "r"]] ∧
        (compile onePair threeShapes ⟨[.selector anyRect]⟩ { typePolicy := .subtype }).outcomes =
          [.ok [.singleton "v" "s", .singleton "v" "r"]] ∧
        [Substitution.singleton "v" "r"].Sublist [.singleton "v" "s", .singleton "v" "r"]) ∧
      onePair.subtypes ⊆ twoPairs.subtypes ∧
      (compile twoPairs threeShapes ⟨[.selector anyRect]⟩ { typePolicy := .subtype }).outcomes =
        [.ok [.singleton "v" "s", .singleton "v" "r", .singleton "v" "g"]] ∧
      [Substitution.singleton "v" "s", .singleton "v" "r"].Sublist
        [.singleton "v" "s", .singleton "v" "r", .singleton "v" "g"] := by
  have hexact : (compile onePair threeShapes ⟨[.selector anyRect]⟩
      { typePolicy := .exact }).outcomes = [.ok [.singleton "v" "r"]] := rfl
  have hsubtype : (compile onePair threeShapes ⟨[.selector anyRect]⟩
      { typePolicy := .subtype }).outcomes =
        [.ok [.singleton "v" "s", .singleton "v" "r"]] := by
    rw [compile, Context.ofVocabulary_eq, acceptanceOf_of_no_chains (by decide)]
    rfl
  have hmore : (compile twoPairs threeShapes ⟨[.selector anyRect]⟩
      { typePolicy := .subtype }).outcomes =
        [.ok [.singleton "v" "s", .singleton "v" "r", .singleton "v" "g"]] := by
    rw [compile, Context.ofVocabulary_eq, acceptanceOf_of_no_chains (by decide)]
    rfl
  have hpairs : onePair.subtypes ⊆ twoPairs.subtypes := by simp [onePair, twoPairs]
  obtain ⟨hheader, hstyle⟩ := found_widened
  obtain ⟨hpolicy, hvocabulary⟩ := hstyle onePair threeShapes ⟨[.selector anyRect]⟩ {}
  have hadded := hvocabulary twoPairs hpairs fun hcheck => absurd hcheck Bool.false_ne_true
  have hall := hheader threeShapes {} (· == ·) (fun _ _ => true) (.selector anyRect)
    (.ofHeader (.selector anyRect)) fun _ _ _ => rfl
  rw [hexact, hsubtype, List.forall₂_cons] at hpolicy
  rw [hsubtype, hmore, List.forall₂_cons] at hadded
  exact ⟨⟨rfl, rfl, hall.sublist⟩, ⟨hexact, hsubtype, hpolicy.1.sublist⟩, hpairs, hmore,
    hadded.1.sublist⟩

end Selectors
