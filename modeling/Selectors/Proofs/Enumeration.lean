import Mathlib.Algebra.BigOperators.Group.List.Basic
import Selectors.Proofs.Multiplicity

/-!
# The join as an enumeration

A choice gives each declared pattern the position of a statement that is a candidate. The join lists
what the choices bind, one substitution for each choice, in the lexicographic order of the choices
(`ListsChoices`). That it stops at a pattern without candidates shows neither in the list nor in the
problem. Main statement: `joinDeclarations_enumerates`.
-/

namespace Selectors

variable {accepts : TypeAcceptance} {filter : NameFilter} {facts : FactProgram}
  {d : Declaration} {ds : List Declaration}

/-! ## Choices by position -/

/-- Whether a statement is a candidate of a declared pattern: it declares a fact with an admitted
and accepted type, and this is the fact that the pattern names, if it names one. -/
def Declaration.takes (accepts : TypeAcceptance) (filter : NameFilter) (d : Declaration) :
    Statement → Bool
  | .decl (.constructor type _) name =>
    filter.admits type && accepts type d.type && (d.ref.isVariable || d.ref = .fact name)
  | .decl (.var _) _ => false
  | .bind .. => false
  | .pred _ => false

/-- A choice for declared patterns: for each one the position of a candidate. -/
def IsChoice (accepts : TypeAcceptance) (filter : NameFilter) (facts : FactProgram)
    (ds : List Declaration) (ps : List Nat) : Prop :=
  List.Forall₂ (fun d p => ∃ statement, facts.statements[p]? = some statement ∧
    d.takes accepts filter statement = true) ds ps

/-- The fact that a choice gives to a variable: the one that is chosen for the last pattern that
declares the variable. -/
def chosenFact? (facts : FactProgram) (v : String) : List Declaration → List Nat → Option String
  | d :: ds, p :: ps =>
    (chosenFact? facts v ds ps).or <|
      if d.ref = .variable v then facts.statements[p]?.bind Statement.declaredName? else none
  | _, _ => none

/-- A list of substitutions lists choices: it has one substitution for each choice, in the
lexicographic order of the choices, and this one binds just the variables to which the choice gives
a fact, each to its fact. -/
structure ListsChoices (accepts : TypeAcceptance) (filter : NameFilter) (facts : FactProgram)
    (ds : List Declaration) (choices : List (List Nat)) (joined : List Substitution) : Prop where
  ordered : choices.Pairwise (· < ·)
  mem_iff : ∀ ps, ps ∈ choices ↔ IsChoice accepts filter facts ds ps
  bound : List.Forall₂ (fun ps s => ∀ v, s.get? v = chosenFact? facts v ds ps) choices joined

/-- All choices: those for the later patterns are gone through for each candidate of the first. -/
def allChoices (accepts : TypeAcceptance) (filter : NameFilter) (facts : FactProgram) :
    List Declaration → List (List Nat)
  | [] => [[]]
  | d :: ds => facts.statements.zipIdx.flatMap fun (statement, p) =>
    if d.takes accepts filter statement then
      (allChoices accepts filter facts ds).map (p :: ·)
    else []

theorem mem_allChoices_iff {ps : List Nat} :
    ps ∈ allChoices accepts filter facts ds ↔ IsChoice accepts filter facts ds ps := by
  induction ds generalizing ps with
  | nil => simp [allChoices, IsChoice]
  | cons d ds ih =>
    simp only [allChoices, List.mem_flatMap, Prod.exists, List.mk_mem_zipIdx_iff_getElem?,
      List.mem_ite_nil_right, List.mem_map, ih]
    cases ps with
    | nil => simp [IsChoice]
    | cons p ps =>
      simp only [IsChoice, List.forall₂_cons, List.cons.injEq]
      refine ⟨fun h => ?_, fun h => ?_⟩
      · obtain ⟨statement, _, hp, htakes, _, hps, rfl, rfl⟩ := h
        exact ⟨⟨statement, hp, htakes⟩, hps⟩
      · obtain ⟨⟨statement, hp, htakes⟩, hps⟩ := h
        exact ⟨statement, p, hp, htakes, ps, hps, rfl, rfl⟩

theorem pairwise_snd_zipIdx {α : Type} (l : List α) : l.zipIdx.Pairwise (·.2 < ·.2) := by
  rw [← List.pairwise_map (f := Prod.snd) (R := (· < ·)), List.zipIdx_map_snd]
  exact List.pairwise_lt_range'

theorem allChoices_ordered : (allChoices accepts filter facts ds).Pairwise (· < ·) := by
  induction ds with
  | nil => exact List.pairwise_singleton ..
  | cons d ds ih =>
    rw [allChoices, List.pairwise_flatMap]
    refine ⟨fun ⟨statement, p⟩ _ => ?_,
      (pairwise_snd_zipIdx _).imp fun {a b} hlt ps hps qs hqs => ?_⟩
    · dsimp only
      split
      case isTrue =>
        rw [List.pairwise_map]
        exact ih.imp fun h => List.cons_lt_cons_iff.2 (.inr ⟨rfl, h⟩)
      case isFalse => exact .nil
    · rw [List.mem_ite_nil_right, List.mem_map] at hps hqs
      obtain ⟨-, ps, -, rfl⟩ := hps
      obtain ⟨-, qs, -, rfl⟩ := hqs
      exact List.cons_lt_cons_iff.2 (.inl hlt)

/-! ## What the choices bind -/

theorem Declaration.binding?_eq_map (d : Declaration) (statement : Statement) :
    d.binding? accepts filter statement =
      if d.takes accepts filter statement then statement.declaredName?.map (d.ref.binding ·)
      else none := by
  rcases statement with ⟨⟨type, args⟩ | _, name⟩ | _ | _
  case decl.constructor =>
    obtain ⟨declared, v | target⟩ := d
    · simp [binding?, takes, Statement.declaredName?, Substitution.ofReference?,
        Reference.isVariable, Reference.binding]
    · simp [binding?, takes, Statement.declaredName?, Substitution.ofReference?,
        Reference.isVariable, Reference.binding, ite_and]
  all_goals rfl

theorem Declaration.exists_declaredName?_of_takes {statement : Statement}
    (h : d.takes accepts filter statement = true) :
    ∃ name, statement.declaredName? = some name := by
  rcases statement with ⟨_ | _, name⟩ | _ | _
  case decl.constructor => exact ⟨name, rfl⟩
  all_goals cases h

theorem Declaration.isSome_binding? (d : Declaration) (statement : Statement) :
    (d.binding? accepts filter statement).isSome = d.takes accepts filter statement := by
  rw [binding?_eq_map]
  split
  case isTrue h =>
    obtain ⟨name, hname⟩ := exists_declaredName?_of_takes h
    simp [h, hname]
  case isFalse h => simp [h]

theorem forall₂_flatMap {α β γ : Type} {R : β → γ → Prop} {f : α → List β} {g : α → List γ}
    {l : List α} (h : ∀ a ∈ l, List.Forall₂ R (f a) (g a)) :
    List.Forall₂ R (l.flatMap f) (l.flatMap g) := by
  have hl : List.Forall₂ (fun a b => a = b ∧ a ∈ l) l l :=
    List.forall₂_same.2 fun _ ha => ⟨rfl, ha⟩
  refine List.rel_flatMap hl ?_
  rintro a _ ⟨rfl, ha⟩
  exact h a ha

theorem flatMap_eq_flatMap_zipIdx {α β : Type} (f : α → List β) (l : List α) :
    l.flatMap f = l.zipIdx.flatMap fun (a, _) => f a := by
  rw [← List.flatMap_map Prod.fst f, List.zipIdx_map_fst]

/-- Joining from a substitution lists what the choices bind, over what was bound before. -/
theorem forall₂_joinedFrom (r : Substitution) (ds : List Declaration) :
    List.Forall₂ (fun ps s => ∀ v, s.get? v = (chosenFact? facts v ds ps).or (r.get? v))
      (allChoices accepts filter facts ds) (joinedFrom accepts filter facts [r] ds) := by
  -- Each choice for the first pattern binds something else before the later patterns are joined.
  induction ds generalizing r with
  | nil => exact .cons (fun v => rfl) .nil
  | cons d ds ih =>
    rw [joinedFrom_singleton_cons, flatMap_eq_flatMap_zipIdx, allChoices]
    refine forall₂_flatMap fun ⟨statement, p⟩ hmem => ?_
    rw [List.mk_mem_zipIdx_iff_getElem?] at hmem
    dsimp only
    rw [d.binding?_eq_map]
    split
    case isFalse => exact .nil
    case isTrue htakes =>
      obtain ⟨name, hname⟩ := Declaration.exists_declaredName?_of_takes htakes
      rw [hname, Option.map_some, Option.toList_some, List.flatMap_singleton,
        List.forall₂_map_left_iff]
      refine (ih (r.combine (d.ref.binding name))).imp fun ps s hs v => ?_
      rw [hs, chosenFact?, hmem, Option.bind_some, hname, Substitution.get?_combine,
        Reference.get?_binding, Option.or_assoc]

theorem length_product (ss ts : List Substitution) :
    (Substitution.product ss ts).length = ss.length * ts.length := by
  simp [Substitution.product]

theorem Declaration.length_bindings (d : Declaration) :
    (d.bindings accepts filter facts).length =
      facts.statements.countP (d.takes accepts filter) := by
  simp only [bindings, List.length_filterMap_eq_countP, isSome_binding?]

theorem length_joinedFrom (running : List Substitution) (ds : List Declaration) :
    (joinedFrom accepts filter facts running ds).length =
      running.length * (ds.map fun d => facts.statements.countP (d.takes accepts filter)).prod := by
  induction ds generalizing running with
  | nil => simp [joinedFrom]
  | cons d ds ih =>
    rw [joinedFrom_cons, ih, length_product, d.length_bindings, List.map_cons, List.prod_cons,
      Nat.mul_assoc]

/-! ## Joining without an early end -/

theorem foldlM_joinDeclaration (running : List Substitution) (ds : List Declaration) :
    ds.foldlM (joinDeclaration accepts filter facts) running =
      okUnless (if ds.isEmpty then none else facts.typeVariable?)
        (joinedFrom accepts filter facts running ds) := by
  induction ds generalizing running with
  | nil => rfl
  | cons d ds ih =>
    rw [List.foldlM_cons, joinDeclaration, d.candidates_eq, map_okUnless, joinedFrom_cons]
    cases hp : facts.typeVariable? with
    | some p => rfl
    | none =>
      simp only [hp, ite_self, okUnless_none] at ih ⊢
      exact ih _

theorem joinDeclarations_eq_foldlM (ds : List Declaration) :
    joinDeclarations accepts filter facts ds =
      ds.foldlM (joinDeclaration accepts filter facts) [.empty] := by
  rw [joinDeclarations, joinDeclarationsFrom_eq, foldlM_joinDeclaration]

/-! ## What the join gives -/

/-- What joining declared patterns gives. It meets a problem just when there is a pattern and a fact
is declared with a type variable, and the first such fact is to blame. Else it lists the choices of
candidates: as many as the product of the numbers of candidates, and one, the empty one, for no
pattern. Going on after a pattern without candidates would make no difference. -/
theorem joinDeclarations_enumerates (accepts : TypeAcceptance) (filter : NameFilter)
    (facts : FactProgram) (ds : List Declaration) :
    ((∃ p, joinDeclarations accepts filter facts ds = .error p) ↔
        ds ≠ [] ∧ ∃ type name, .decl (.var type) name ∈ facts.statements) ∧
      (∀ p, joinDeclarations accepts filter facts ds = .error p →
        ∃ type name, facts.FirstTypeVariable type name ∧ p = .typeVariable name type) ∧
      (∀ joined, joinDeclarations accepts filter facts ds = .ok joined →
        (∃ choices, ListsChoices accepts filter facts ds choices joined) ∧
          joined.length =
            (ds.map fun d => facts.statements.countP (d.takes accepts filter)).prod) ∧
      joinDeclarations accepts filter facts ds =
        ds.foldlM (joinDeclaration accepts filter facts) [.empty] := by
  have herror : ∀ p, joinDeclarations accepts filter facts ds = .error p ↔
      ds ≠ [] ∧ facts.typeVariable? = some p := by
    intro p
    rw [joinDeclarations_eq, okUnless_eq_error_iff]
    cases ds <;> simp
  refine ⟨?_, fun p hp => ?_, fun joined hjoined => ?_, joinDeclarations_eq_foldlM ds⟩
  · simp only [herror, exists_and_left, FactProgram.exists_typeVariable?_eq_some_iff]
  · exact FactProgram.firstTypeVariable_of_eq_some ((herror p).1 hp).2
  · rw [joinDeclarations_eq, okUnless_eq_ok_iff] at hjoined
    obtain ⟨-, rfl⟩ := hjoined
    refine ⟨⟨allChoices accepts filter facts ds, allChoices_ordered,
      fun _ => mem_allChoices_iff, ?_⟩, ?_⟩
    · exact (forall₂_joinedFrom .empty ds).imp fun ps s hs v => (hs v).trans (Option.or_none)
    · rw [joined, length_joinedFrom, List.length_singleton, Nat.one_mul]

/-- The facts of `planeContext` and one more, whose type is not known. -/
def partlyTypedFacts : FactProgram := ⟨planeContext.facts.statements ++ [.decl (.var "t") "y"]⟩

/-- One space and two vectors for the two declarations of `v`, one space for `U`, one fact `x2`. -/
theorem joinDeclarations_enumerates_planeSelector :
    (joinDeclarations planeContext.accepts .all planeContext.facts planeSelector.declarations =
        .ok [planeBinding, .ofList [("U", "X"), ("v", "x2")]] ∧
      (∃ choices, ListsChoices planeContext.accepts .all planeContext.facts
        planeSelector.declarations choices [planeBinding, .ofList [("U", "X"), ("v", "x2")]]) ∧
      2 = [1, 2, 1, 1].prod) ∧
      joinDeclarations planeContext.accepts .all partlyTypedFacts planeSelector.declarations =
          .error (.typeVariable "y" "t") ∧
        ∃ type name, partlyTypedFacts.FirstTypeVariable type name ∧
          Problem.typeVariable "y" "t" = .typeVariable name type := by
  have hjoined : joinDeclarations planeContext.accepts .all planeContext.facts
      planeSelector.declarations =
        .ok [planeBinding, .ofList [("U", "X"), ("v", "x2")]] := rfl
  have hproblem : joinDeclarations planeContext.accepts .all partlyTypedFacts
      planeSelector.declarations = .error (.typeVariable "y" "t") := rfl
  obtain ⟨-, -, hlists, -⟩ := joinDeclarations_enumerates planeContext.accepts .all
    planeContext.facts planeSelector.declarations
  obtain ⟨-, hfirst, -⟩ := joinDeclarations_enumerates planeContext.accepts .all
    partlyTypedFacts planeSelector.declarations
  obtain ⟨hchoices, hlength⟩ := hlists _ hjoined
  exact ⟨⟨hjoined, hchoices, hlength⟩, hproblem, hfirst _ hproblem⟩

end Selectors
