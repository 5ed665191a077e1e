import Selectors.Proofs.Omission
import Selectors.Proofs.Products

/-!
# Facts in another order

Matching goes through the declarations among the facts in their order, and of the other statements
it only asks whether an assertion is one of them. So these may be moved, repeated and mixed with the
declarations (`FactProgram.Equivalent`). If the declarations are moved as well, the same choices of
candidates come up in another order: lists are permuted and errors keep their codes
(`compile_of_rearranged_facts`).
-/

namespace Selectors

variable {accepts : TypeAcceptance} {filter : NameFilter} {facts facts' : FactProgram}
  {settings : Settings}

/-! ## Assertions as a set -/

theorem Selector.keeps_congr {sel : Selector} {scope : Scope}
    (h : ∀ a : Assertion, a.toStatement ∈ facts.statements ↔ a.toStatement ∈ facts'.statements) :
    sel.keeps ⟨facts, settings, accepts⟩ scope = sel.keeps ⟨facts', settings, accepts⟩ scope := by
  funext s
  have hsatisfies : s.satisfies settings.admission facts.statements sel.constraints =
      s.satisfies settings.admission facts'.statements sel.constraints := by
    rw [Bool.eq_iff_iff, Substitution.satisfies_iff, Substitution.satisfies_iff]
    simp only [Constraint.HoldsUnder, h]
  rw [keeps, keeps, hsatisfies]

/-! ## Declarations in the same order -/

def Statement.isDecl : Statement → Bool
  | .decl .. => true
  | .bind .. => false
  | .pred _ => false

theorem Assertion.isDecl_toStatement (a : Assertion) : a.toStatement.isDecl = false := by
  cases a <;> rfl

/-- Two fact programs have the same sequence of declarations, and the same other statements in any
order and number. -/
structure FactProgram.Equivalent (facts facts' : FactProgram) : Prop where
  declarations : facts.statements.filter (·.isDecl) = facts'.statements.filter (·.isDecl)
  others : ∀ statement, statement.isDecl = false →
    (statement ∈ facts.statements ↔ statement ∈ facts'.statements)

/-- What skips all statements but declarations goes through equivalent facts alike. -/
theorem FactProgram.Equivalent.filterMap_eq {β : Type} (h : facts.Equivalent facts')
    {f : Statement → Option β} (hf : ∀ statement, statement.isDecl = false → f statement = none) :
    facts.statements.filterMap f = facts'.statements.filterMap f := by
  have hskip : f = fun statement => if statement.isDecl then f statement else none := by
    funext statement
    cases hdecl : statement.isDecl
    · exact hf statement hdecl
    · rfl
  rw [hskip, ← List.filterMap_filter, ← List.filterMap_filter, h.declarations]

theorem FactProgram.Equivalent.typeVariable?_eq (h : facts.Equivalent facts') :
    facts.typeVariable? = facts'.typeVariable? := by
  have hskip : ∀ statement : Statement, statement.isDecl = false →
      statement.typeVariable? = none := by
    rintro (_ | _ | _) hdecl
    · cases hdecl
    all_goals rfl
  rw [typeVariable?, typeVariable?, ← List.head?_filterMap, ← List.head?_filterMap,
    h.filterMap_eq hskip]

theorem FactProgram.Equivalent.bindings_eq (h : facts.Equivalent facts') (d : Declaration) :
    d.bindings accepts filter facts = d.bindings accepts filter facts' := by
  refine h.filterMap_eq ?_
  rintro (_ | _ | _) hdecl
  · cases hdecl
  all_goals rfl

theorem FactProgram.Equivalent.matchHeader_eq (h : facts.Equivalent facts') (header : Header)
    (scope : Scope) :
    matchHeader ⟨facts, settings, accepts⟩ header scope =
      matchHeader ⟨facts', settings, accepts⟩ header scope := by
  cases header with
  | space name => rfl
  | selector sel =>
    have hjoined : sel.joined ⟨facts, settings, accepts⟩ =
        sel.joined ⟨facts', settings, accepts⟩ := by
      simp only [Selector.joined, joined, joinedFrom, h.bindings_eq]
    have hkeeps : sel.keeps ⟨facts, settings, accepts⟩ scope =
        sel.keeps ⟨facts', settings, accepts⟩ scope :=
      Selector.keeps_congr fun a => h.others _ a.isDecl_toStatement
    simp only [matchHeader, matchSelector_eq, Header.problem?, h.typeVariable?_eq, hjoined, hkeeps]

theorem FactProgram.Equivalent.compile_eq (h : facts.Equivalent facts') (v : Vocabulary)
    (style : StyleProgram) : compile v facts style settings = compile v facts' style settings := by
  simp only [compile, compileHeader, outcomeOf, Context.ofVocabulary_eq, h.matchHeader_eq]

/-! ## Declarations in another order -/

theorem joinedFrom_perm (h : facts.statements.Perm facts'.statements)
    {running running' : List Substitution} (hrunning : running.Perm running')
    (ds : List Declaration) :
    (joinedFrom accepts filter facts running ds).Perm
      (joinedFrom accepts filter facts' running' ds) := by
  induction ds generalizing running running' with
  | nil => exact hrunning
  | cons d ds ih => exact ih (Substitution.product_perm hrunning (h.filterMap _))

/-- Another declaration with a type variable may come first, which has the same code. -/
theorem FactProgram.typeVariable?_rel (h : facts.statements.Perm facts'.statements) :
    Option.Rel (fun p p' => p.code = p'.code) facts.typeVariable? facts'.typeVariable? := by
  have hnone : facts.typeVariable? = none ↔ facts'.typeVariable? = none := by
    simp only [typeVariable?_eq_none_iff, h.mem_iff]
  cases hp : facts.typeVariable? with
  | none =>
    rw [hnone.1 hp]
    exact .none
  | some p =>
    cases hp' : facts'.typeVariable? with
    | none => simp [hnone.2 hp'] at hp
    | some p' =>
      obtain ⟨type, name, -, rfl⟩ := firstTypeVariable_of_eq_some hp
      obtain ⟨type', name', -, rfl⟩ := firstTypeVariable_of_eq_some hp'
      exact .some rfl

/-- Two outcomes are the same up to order: the lists are permutations of each other, or the reports
have the same codes one by one. -/
inductive Outcome.Rearranged : Outcome → Outcome → Prop
  | ok {found found' : List Substitution} : found.Perm found' → Rearranged (.ok found) (.ok found')
  | error {ds ds' : List Diagnostic} :
    ds.map (·.code) = ds'.map (·.code) → Rearranged (.error ds) (.error ds')

theorem outcomeOf_rearranged (h : facts.statements.Perm facts'.statements) (i : Nat)
    (header : Header) (scope : Scope) :
    Outcome.Rearranged (outcomeOf ⟨facts, settings, accepts⟩ i header scope)
      (outcomeOf ⟨facts', settings, accepts⟩ i header scope) := by
  cases header with
  | space name => exact .ok (.refl _)
  | selector sel =>
    have hkeeps : sel.keeps ⟨facts, settings, accepts⟩ scope =
        sel.keeps ⟨facts', settings, accepts⟩ scope := Selector.keeps_congr fun _ => h.mem_iff
    have hjoined : (sel.joined ⟨facts, settings, accepts⟩).Perm
        (sel.joined ⟨facts', settings, accepts⟩) := joinedFrom_perm h (.refl _) _
    have hproblem : Option.Rel (fun p p' => p.code = p'.code)
        ((Header.selector sel).problem? facts scope)
        ((Header.selector sel).problem? facts' scope) :=
      Header.problem?_rel (List.forall₂_same.2 fun _ _ => rfl) rfl (FactProgram.typeVariable?_rel h)
    rw [outcomeOf, outcomeOf, matchHeader, matchHeader, matchSelector_eq, matchSelector_eq, hkeeps]
    generalize (Header.selector sel).problem? facts scope = p?,
      (Header.selector sel).problem? facts' scope = p?' at hproblem ⊢
    cases hproblem with
    | none => exact .ok (hjoined.filter _)
    | some hcode => exact .error (congrArg (· :: []) hcode)

theorem compileHeader_rearranged (h : facts.statements.Perm facts'.statements) (v : Vocabulary)
    (i : Nat) (header : Header) :
    Outcome.Rearranged (compileHeader v (.ofVocabulary v facts settings) i header)
      (compileHeader v (.ofVocabulary v facts' settings) i header) := by
  rw [Context.ofVocabulary_eq, Context.ofVocabulary_eq, compileHeader, compileHeader]
  cases header.problems v settings with
  | nil => exact outcomeOf_rearranged h ..
  | cons p ps => exact .error rfl

/-- Statements that are no declarations count as a set: the outcomes of a style program are the same
whatever their order and number. Of permuted facts each selector lists the same substitutions, as
often as before, or meets an error of the same code. -/
theorem compile_of_rearranged_facts (v : Vocabulary) (style : StyleProgram) (settings : Settings)
    (facts facts' : FactProgram) :
    (facts.Equivalent facts' →
        compile v facts style settings = compile v facts' style settings) ∧
      (facts.statements.Perm facts'.statements →
        List.Forall₂ Outcome.Rearranged (compile v facts style settings).outcomes
          (compile v facts' style settings).outcomes) := by
  refine ⟨fun h => h.compile_eq v style, fun h => ?_⟩
  rw [compile, compile, List.forall₂_map_left_iff, List.forall₂_map_right_iff, List.forall₂_same]
  exact fun entry _ => compileHeader_rearranged h v entry.2 entry.1

/-- The declarations of `twoVectors`, with its assertions in between and one of them twice. -/
def mixedFacts : FactProgram :=
  ⟨[.pred (.ofFacts "In" ["x2", "X"]), .decl (.nullary "Vector") "x1",
    .pred (.ofFacts "In" ["x1", "X"]), .decl (.nullary "Vector") "x2",
    .decl (.nullary "VectorSpace") "X", .pred (.ofFacts "In" ["x2", "X"])]⟩

def reversedFacts : FactProgram := ⟨twoVectors.statements.reverse⟩

theorem compile_of_mixed_facts :
    (twoVectors.Equivalent mixedFacts ∧
      compile .empty twoVectors ⟨[.selector inSpace]⟩ {} =
        compile .empty mixedFacts ⟨[.selector inSpace]⟩ {}) ∧
      twoVectors.statements.Perm reversedFacts.statements ∧
        List.Forall₂ Outcome.Rearranged
          (compile .empty twoVectors ⟨[.selector inSpace]⟩ {}).outcomes
          (compile .empty reversedFacts ⟨[.selector inSpace]⟩ {}).outcomes ∧
        (compile .empty reversedFacts ⟨[.selector inSpace]⟩ {}).outcomes =
          [.ok [.ofList [("U", "X"), ("v", "x2")], .ofList [("U", "X"), ("v", "x1")]]] := by
  have hmixed : twoVectors.Equivalent mixedFacts := by
    refine ⟨rfl, fun statement hdecl => ?_⟩
    cases statement with
    | decl type name => cases hdecl
    | bind name term => simp [twoVectors, planeContext, mixedFacts]
    | pred predicate => grind [twoVectors, planeContext, mixedFacts]
  have hreversed : twoVectors.statements.Perm reversedFacts.statements :=
    (List.reverse_perm _).symm
  exact ⟨⟨hmixed, (compile_of_rearranged_facts ..).1 hmixed⟩, hreversed,
    (compile_of_rearranged_facts ..).2 hreversed, rfl⟩

end Selectors
