import Selectors.Checking
import Selectors.Proofs.Declarations
import Selectors.Proofs.Denotation

/-!
# What a scope knows

A scope holds of every name the last declaration of that name, of either kind
(`Scope.get?_ofDeclarations`). So a pattern variable is in the scope just when no later declaration
names a fact by the same name. A substitution that binds exactly the variables of a scope gives a
meaning to every constraint that was found to be in order under it
(`exists_denotes_of_isCompletedBy`).
-/

namespace Selectors

namespace Scope
variable {scope : Scope} {name : String}

/-! ## Entries -/

def entryOf (d : Declaration) : ScopeEntry :=
  ⟨d.type, if d.ref.isVariable then .pattern else .fact⟩

theorem get?_foldl_declare (ds : List Declaration) (scope : Scope) (name : String) :
    (ds.foldl declare scope).get? name =
      ((Declaration.lastNamed? name ds).map entryOf).or (scope.get? name) := by
  induction ds generalizing scope with
  | nil => rfl
  | cons d ds ih =>
    rw [List.foldl_cons, ih, declare, NameTable.get?_insert, Declaration.lastNamed?_cons]
    by_cases h : d.ref.name = name
    · cases Declaration.lastNamed? name ds <;> simp [h, entryOf]
    · simp [h, Ne.symm h]

theorem get?_ofDeclarations (ds : List Declaration) (name : String) :
    (ofDeclarations ds).get? name = (Declaration.lastNamed? name ds).map entryOf := by
  rw [ofDeclarations, get?_foldl_declare, NameTable.get?_empty, Option.or_none]

/-! ## Variables -/

theorem isVariable_iff :
    scope.isVariable name = true ↔ ∃ type, scope.get? name = some ⟨type, .pattern⟩ := by
  rw [isVariable]
  cases scope.get? name with
  | none => simp
  | some entry =>
    obtain ⟨type, _ | _⟩ := entry <;> simp

theorem isVariable_ofDeclarations_iff {ds : List Declaration} :
    (ofDeclarations ds).isVariable name = true ↔
      ∃ d, Declaration.lastNamed? name ds = some d ∧ d.ref = .variable name := by
  rw [isVariable_iff, get?_ofDeclarations]
  cases hlast : Declaration.lastNamed? name ds with
  | none => simp
  | some d =>
    have hname := (Declaration.mem_of_lastNamed? hlast).2
    cases hd : d.ref with
    | fact target => simp [entryOf, hd, Reference.isVariable]
    | «variable» v =>
      rw [hd] at hname
      simp [entryOf, hd, Reference.isVariable, show v = name from hname]

theorem mem_vars_iff : name ∈ scope.vars ↔ scope.isVariable name = true := by
  simp only [vars, List.mem_map, List.mem_filter, decide_eq_true_eq, isVariable_iff]
  refine ⟨fun h => ?_, fun h => ?_⟩
  · obtain ⟨⟨_, type, origin⟩, ⟨hmem, horigin⟩, hname⟩ := h
    cases hname
    cases horigin
    exact ⟨type, NameTable.mem_entries_iff.1 hmem⟩
  · obtain ⟨type, h⟩ := h
    exact ⟨_, ⟨NameTable.mem_entries_iff.2 h, rfl⟩, rfl⟩

theorem vars_sorted (scope : Scope) : scope.vars.Pairwise (· < ·) :=
  List.pairwise_map.2 (scope.sorted.filter _)

theorem isCompletedBy_iff {s : Substitution} :
    scope.isCompletedBy s = true ↔ ∀ name, scope.isVariable name = true ↔ name ∈ s.names := by
  simp only [isCompletedBy, decide_eq_true_eq, ← mem_vars_iff]
  exact ⟨fun h _ => h ▸ Iff.rfl, scope.vars_sorted.eq_of_mem_iff s.names_sorted⟩

end Scope

/-! ## Constraints in order -/

theorem Constraint.mem_problems_iff {scope : Scope} {c : Constraint} {p : Problem} :
    p ∈ c.problems scope ↔
      (∃ v ∈ c.vars, scope.isVariable v = false ∧ .undeclaredVariable v c.text = p) ∨
        ∃ name ∈ c.unresolved, .unresolvedApplication name c.text = p := by
  simp [problems, and_assoc]

theorem constraintProblems_eq_nil_iff {scope : Scope} {cs : List Constraint} :
    constraintProblems scope cs = [] ↔
      ∀ c ∈ cs, (∀ v ∈ c.vars, scope.isVariable v = true) ∧ c.unresolved = [] := by
  simp only [constraintProblems, List.flatMap_eq_nil_iff]
  refine forall₂_congr fun c _ => ?_
  rw [List.eq_nil_iff_forall_not_mem]
  simp only [Constraint.mem_problems_iff]
  refine ⟨fun h => ⟨fun v hv => ?_, List.eq_nil_iff_forall_not_mem.2 fun name hname => ?_⟩,
    fun h p hp => ?_⟩
  · exact Bool.eq_true_of_not_eq_false fun hfalse => h _ (.inl ⟨v, hv, hfalse, rfl⟩)
  · exact h _ (.inr ⟨name, hname, rfl⟩)
  · obtain ⟨hvars, hopen⟩ := h
    rcases hp with ⟨v, hv, hfalse, -⟩ | ⟨name, hname, -⟩
    · simp [hvars v hv] at hfalse
    · simp [hopen] at hname

/-- Constraints in order denote something under every substitution that completes the scope. -/
theorem exists_denotes_of_isCompletedBy {scope : Scope} {cs : List Constraint} {s : Substitution}
    (hcs : constraintProblems scope cs = []) (hs : scope.isCompletedBy s = true) :
    ∀ c ∈ cs, ∃ a, c.Denotes s a := by
  intro c hc
  obtain ⟨hvars, hopen⟩ := constraintProblems_eq_nil_iff.1 hcs c hc
  have hbound : ∀ v ∈ c.vars, v ∈ s.names := fun v hv =>
    (Scope.isCompletedBy_iff.1 hs v).1 (hvars v hv)
  exact Constraint.exists_denotes_iff.2 ⟨hbound, hopen⟩

end Selectors
