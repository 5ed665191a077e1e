import Selectors.Proofs.Acceptance

/-!
# Outcomes of selectors in a style program

What becomes of a selector in a style program hangs neither on the other headers nor on its place
(`Selector.HasOutcome`). If it is a list, the checks found nothing, and the list holds what the
selector accepts (`Selector.hasOutcome_ok_iff`).
-/

namespace Selectors

/-! ## Contexts of a vocabulary -/

def acceptanceOf (v : Vocabulary) (settings : Settings) : TypeAcceptance :=
  match settings.typePolicy with
  | .exact => fun type declared => type == declared
  | .subtype => (Subtypes.ofVocabulary v).isSubtype

theorem Context.ofVocabulary_eq (v : Vocabulary) (facts : FactProgram) (settings : Settings) :
    ofVocabulary v facts settings = ⟨facts, settings, acceptanceOf v settings⟩ := by
  rw [ofVocabulary, acceptanceOf]
  cases settings.typePolicy <;> rfl

@[simp] theorem Context.settings_ofVocabulary (v : Vocabulary) (facts : FactProgram)
    (settings : Settings) : (ofVocabulary v facts settings).settings = settings := by
  rw [ofVocabulary_eq]

/-! ## Problems of headers -/

/-- Nothing is wrong with declared patterns when no variable is declared twice, or was before, and
the vocabulary has all types. -/
theorem declarationProblems_eq_nil_iff {v : Vocabulary} {seen : List String}
    {ds : List Declaration} :
    declarationProblems v seen ds = [] ↔
      (Declaration.varsOfAll ds).Nodup ∧ (∀ x ∈ Declaration.varsOfAll ds, x ∉ seen) ∧
        ∀ d ∈ ds, v.hasType d.type = true := by
  induction ds generalizing seen with
  | nil => simp [declarationProblems, Declaration.varsOfAll]
  | cons d ds ih =>
    simp only [declarationProblems, Declaration.varsOfAll_cons, List.append_eq_nil_iff, ih,
      List.forall_mem_cons]
    cases d.ref with
    | fact target => simp [Reference.isVariable, Reference.vars, and_left_comm]
    | «variable» name =>
      have hseen : (∀ x ∈ Declaration.varsOfAll ds, x ∉ name :: seen) ↔
          name ∉ Declaration.varsOfAll ds ∧ ∀ x ∈ Declaration.varsOfAll ds, x ∉ seen := by
        simp only [List.mem_cons, not_or, forall_and]
        exact and_congr_left fun _ =>
          ⟨fun h hmem => h name hmem rfl, fun h x hx heq => h (heq ▸ hx)⟩
      simp only [Reference.isVariable, Reference.vars, Reference.name, Bool.true_and,
        List.singleton_append, List.nodup_cons, List.forall_mem_cons, hseen]
      simp
      tauto

/-- Whether a problem is one of the declared patterns, and not of the constraints or the facts. -/
def Problem.concernsDeclaration : Problem → Bool
  | .duplicateDeclaration _ | .unknownType .. => true
  | _ => false

theorem concernsDeclaration_of_mem_declarationProblems {v : Vocabulary} {seen : List String}
    {ds : List Declaration} {p : Problem} (hp : p ∈ declarationProblems v seen ds) :
    p.concernsDeclaration = true := by
  induction ds generalizing seen with
  | nil => cases hp
  | cons d ds ih =>
    simp only [declarationProblems, List.mem_append] at hp
    obtain (hp | hp) | hp := hp
    · split at hp
      · obtain rfl := List.mem_singleton.1 hp
        rfl
      · cases hp
    · split at hp
      · cases hp
      · obtain rfl := List.mem_singleton.1 hp
        rfl
    · exact ih hp

variable {v : Vocabulary} {facts : FactProgram} {settings : Settings} {sel : Selector}

theorem Selector.problems_eq_nil_iff :
    (Header.selector sel).problems v settings = [] ↔
      (settings.checkDeclarations = true → (Declaration.varsOfAll sel.declarations).Nodup ∧
          ∀ d ∈ sel.declarations, v.hasType d.type = true) ∧
        constraintProblems (.ofDeclarations sel.declarations) sel.constraints = [] := by
  rw [Header.problems, List.append_eq_nil_iff]
  cases settings.checkDeclarations <;> simp [declarationProblems_eq_nil_iff]

theorem Selector.mem_problems_iff {p : Problem} :
    p ∈ (Header.selector sel).problems v settings ↔
      (settings.checkDeclarations = true ∧ p ∈ declarationProblems v [] sel.declarations) ∨
        p ∈ constraintProblems (.ofDeclarations sel.declarations) sel.constraints := by
  rw [Header.problems, List.mem_append]
  cases settings.checkDeclarations <;> simp

theorem compileHeader_eq_ok_iff {ctx : Context} {i : Nat} {h : Header}
    {found : List Substitution} :
    compileHeader v ctx i h = .ok found ↔
      h.problems v ctx.settings = [] ∧ matchHeader ctx h (.ofHeader h) = .ok found := by
  unfold compileHeader outcomeOf
  cases h.problems v ctx.settings with
  | nil => cases matchHeader ctx h (.ofHeader h) <;> simp [Except.mapError]
  | cons p ps => simp

/-! ## Outcomes -/

theorem outcomes_getElem? (v : Vocabulary) (facts : FactProgram) (settings : Settings)
    (style : StyleProgram) (i : Nat) :
    (compile v facts style settings).outcomes[i]? =
      style.headers[i]?.map (compileHeader v (.ofVocabulary v facts settings) i) := by
  simp only [compile, List.getElem?_map, List.getElem?_zipIdx, Option.map_map, Nat.zero_add]
  rfl

namespace Selector

/-- A selector has an outcome in some style program in which it stands. -/
def HasOutcome (v : Vocabulary) (facts : FactProgram) (settings : Settings) (sel : Selector)
    (outcome : Outcome) : Prop :=
  ∃ (style : StyleProgram) (i : Nat), style.headers[i]? = some (.selector sel) ∧
    (compile v facts style settings).outcomes[i]? = some outcome

theorem hasOutcome_ok_iff {found : List Substitution} :
    sel.HasOutcome v facts settings (.ok found) ↔
      (Header.selector sel).problems v settings = [] ∧
        (sel.declarations = [] ∨ facts.typeVariable? = none) ∧
        sel.accepted ⟨facts, settings, acceptanceOf v settings⟩ = found := by
  have hcompile : ∀ i, compileHeader v (.ofVocabulary v facts settings) i (.selector sel) =
      .ok found ↔ (Header.selector sel).problems v settings = [] ∧
        (sel.declarations = [] ∨ facts.typeVariable? = none) ∧
        sel.accepted ⟨facts, settings, acceptanceOf v settings⟩ = found := by
    intro i
    rw [Context.ofVocabulary_eq, compileHeader_eq_ok_iff, matchHeader, matchSelector_eq,
      okUnless_eq_ok_iff]
    refine and_congr_right fun hproblems => and_congr_left fun _ => ?_
    exact Header.problem?_eq_none_iff (problems_eq_nil_iff.1 hproblems).2
  simp only [HasOutcome, outcomes_getElem?]
  refine ⟨fun h => ?_, fun h => ⟨⟨[.selector sel]⟩, 0, rfl, ?_⟩⟩
  · obtain ⟨style, i, hsel, h⟩ := h
    rw [hsel] at h
    exact (hcompile i).1 (Option.some.inj h)
  · exact congrArg some ((hcompile 0).2 h)

end Selector

end Selectors
