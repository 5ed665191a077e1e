import Selectors.Proofs.GivenScopes
import Selectors.Proofs.Instantiation
import Selectors.Proofs.Products

/-!
# Declarations in another order

The patterns of a selector may be declared in another order, and moved between its head and its
`with` clause, as long as the name of each variable is declared once: then what two patterns bind
can be combined in either order, so that the join is permuted (`joined_perm`), and the scope has the
same variables. The selector lists the same substitutions, as often as before
(`matchHeader_reordered`).
-/

namespace Selectors

variable {accepts : TypeAcceptance} {filter : NameFilter} {facts : FactProgram}

/-! ## The join of permuted patterns -/

theorem Declaration.varsOfAll_perm {ds ds' : List Declaration} (h : ds.Perm ds') :
    (varsOfAll ds).Perm (varsOfAll ds') :=
  h.flatMap_right _

theorem Declaration.combine_bindings_comm {d e : Declaration}
    (hdistinct : ∀ v, d.ref = .variable v → e.ref ≠ .variable v) :
    ∀ s ∈ d.bindings accepts filter facts, ∀ t ∈ e.bindings accepts filter facts,
      s.combine t = t.combine s := by
  intro s hs t ht
  obtain ⟨name, -, rfl⟩ := mem_bindings_iff.1 hs
  obtain ⟨name', -, rfl⟩ := mem_bindings_iff.1 ht
  refine Substitution.combine_comm fun v => ?_
  rw [Reference.get?_binding, Reference.get?_binding]
  by_cases hd : d.ref = .variable v
  · exact .inr (if_neg (hdistinct v hd))
  · exact .inl (if_neg hd)

theorem joined_perm {ds ds' : List Declaration} (h : ds.Perm ds')
    (hnodup : (Declaration.varsOfAll ds).Nodup) :
    (joined accepts filter facts ds).Perm (joined accepts filter facts ds') := by
  induction h with
  | nil => exact .refl _
  | cons d _ ih =>
    rw [Declaration.varsOfAll_cons, List.nodup_append] at hnodup
    rw [joined_cons, joined_cons]
    exact Substitution.product_perm (.refl _) (ih hnodup.2.1)
  | swap d e ds =>
    -- The two patterns in front are joined first, and then with what the others join to.
    have hdistinct : ∀ v, e.ref = .variable v → d.ref ≠ .variable v := by
      intro v he hd
      simp [Declaration.varsOfAll_cons, he, hd, Reference.vars] at hnodup
    simp only [joined_cons, ← Substitution.product_assoc]
    exact Substitution.product_perm
      (Substitution.product_comm_perm (Declaration.combine_bindings_comm hdistinct)) (.refl _)
  | trans h _ ih ih' =>
    exact (ih hnodup).trans (ih' ((Declaration.varsOfAll_perm h).nodup_iff.1 hnodup))

/-! ## Selectors with permuted patterns -/

namespace Selector

/-- Two selectors have the same constraints and declare the same patterns, in any order and divided
in any way between the head and the `with` clause. -/
structure Reordered (sel sel' : Selector) : Prop where
  declarations : sel.declarations.Perm sel'.declarations
  constraints : sel.constraints = sel'.constraints

/-- The name of each declared variable is used by one declaration only; names of facts may be used
again. -/
def NamesVariablesOnce (sel : Selector) : Prop :=
  ∀ v, sel.Declares v → sel.declarations.countP (·.ref.name = v) = 1

variable {ctx : Context} {sel sel' : Selector}

instance : Decidable sel.NamesVariablesOnce :=
  decidable_of_iff (∀ v ∈ Declaration.varsOfAll sel.declarations,
      sel.declarations.countP (·.ref.name = v) = 1)
    (forall_congr' fun _ => imp_congr_left Declaration.mem_varsOfAll_iff)

theorem NamesVariablesOnce.nodup (h : sel.NamesVariablesOnce) :
    (Declaration.varsOfAll sel.declarations).Nodup := by
  refine List.nodup_iff_count_le_one.2 fun v => ?_
  by_cases hv : sel.Declares v
  · calc (Declaration.varsOfAll sel.declarations).count v
        ≤ (sel.declarations.map (·.ref.name)).count v :=
          (Declaration.varsOfAll_sublist_names _).count_le v
      _ = sel.declarations.countP (·.ref.name = v) := by
          rw [List.count, List.countP_map]
          rfl
      _ = 1 := h v hv
      _ ≤ 1 := Nat.le_refl 1
  · have hnot : v ∉ Declaration.varsOfAll sel.declarations := mt Declaration.mem_varsOfAll_iff.1 hv
    rw [List.count_eq_zero_of_not_mem hnot]
    exact Nat.zero_le 1

theorem NamesVariablesOnce.unshadowed (h : sel.NamesVariablesOnce) : sel.Unshadowed := by
  refine unshadowed_of_forall fun d hd hdeclares => ?_
  obtain ⟨d', hd', href⟩ := hdeclares
  have hcount := h d.ref.name ⟨d', hd', href⟩
  rw [List.countP_eq_length_filter, List.length_eq_one_iff] at hcount
  obtain ⟨e, he⟩ := hcount
  have heq : ∀ {c}, c ∈ sel.declarations → c.ref.name = d.ref.name → c = e := by
    intro c hc hname
    have hmem : c ∈ sel.declarations.filter (·.ref.name = d.ref.name) :=
      List.mem_filter.2 ⟨hc, decide_eq_true hname⟩
    exact List.mem_singleton.1 (he ▸ hmem)
  rw [heq hd rfl, ← heq hd' (href ▸ rfl), href]
  rfl

theorem Reordered.declares_iff (h : sel.Reordered sel') {v : String} :
    sel.Declares v ↔ sel'.Declares v := by
  simp only [Declares, h.declarations.mem_iff]

theorem Reordered.namesVariablesOnce (h : sel.Reordered sel') (honce : sel.NamesVariablesOnce) :
    sel'.NamesVariablesOnce := by
  intro v hv
  rw [← h.declarations.countP_eq]
  exact honce v (h.declares_iff.2 hv)

theorem Reordered.mem_vars_iff (h : sel.Reordered sel') (honce : sel.NamesVariablesOnce)
    (v : String) :
    v ∈ (Scope.ofHeader (.selector sel')).vars ↔ v ∈ (Scope.ofHeader (.selector sel)).vars := by
  rw [Scope.mem_vars_iff, Scope.mem_vars_iff]
  exact (h.namesVariablesOnce honce).unshadowed.isVariable_iff.trans
    (h.declares_iff.symm.trans honce.unshadowed.isVariable_iff.symm)

theorem Reordered.problem?_eq (h : sel.Reordered sel') (facts : FactProgram) (scope : Scope) :
    (Header.selector sel).problem? facts scope = (Header.selector sel').problem? facts scope := by
  rw [Header.problem?, Header.problem?, Header.constraints, Header.constraints, h.constraints,
    Header.declarations, Header.declarations, h.declarations.isEmpty_eq]

theorem Reordered.keeps_eq (h : sel.Reordered sel') (scope : Scope) :
    sel.keeps ctx scope = sel'.keeps ctx scope := by
  funext s
  rw [keeps, keeps, h.constraints]

end Selector

/-- The declared patterns of a selector can be put in another order, and moved between its head and
its `with` clause, if the name of each variable is declared once. The selector then meets the same
problem, or lists the same substitutions, each as often as before. -/
theorem matchHeader_reordered (ctx : Context) {sel sel' : Selector} (h : sel.Reordered sel')
    (honce : sel.NamesVariablesOnce) :
    (∃ p, matchHeader ctx (.selector sel) (.ofHeader (.selector sel)) = .error p ∧
        matchHeader ctx (.selector sel') (.ofHeader (.selector sel')) = .error p) ∨
      ∃ found found', matchHeader ctx (.selector sel) (.ofHeader (.selector sel)) = .ok found ∧
        matchHeader ctx (.selector sel') (.ofHeader (.selector sel')) = .ok found' ∧
        found.Perm found' := by
  rw [matchHeader_eq_of_vars (h.mem_vars_iff honce) (.selector sel'), matchHeader, matchHeader,
    matchSelector_eq, matchSelector_eq, ← h.problem?_eq, ← h.keeps_eq]
  cases (Header.selector sel).problem? ctx.facts (.ofHeader (.selector sel)) with
  | some p => exact .inl ⟨p, rfl, rfl⟩
  | none => exact .inr ⟨_, _, rfl, rfl, (joined_perm h.declarations honce.nodup).filter _⟩

def membershipContext : Context where
  facts := ⟨[.decl (.nullary "Vector") "x1", .decl (.nullary "Vector") "x2",
    .decl (.nullary "VectorSpace") "X", .decl (.nullary "VectorSpace") "Y",
    .pred (.ofFacts "In" ["x1", "X"]), .pred (.ofFacts "In" ["x1", "Y"]),
    .pred (.ofFacts "In" ["x2", "X"])]⟩
  settings := {}
  accepts type declared := type == declared

def vectorFirst : Selector where
  head := [⟨"Vector", .variable "v"⟩, ⟨"Vector", .fact "x2"⟩]
  withDecls := [⟨"VectorSpace", .variable "U"⟩, ⟨"Vector", .fact "x2"⟩]
  constraints := [.pred "In" [.ref (.variable "v"), .ref (.variable "U")]]

/-- The selector `vectorFirst` with its space in front and its vector in the `with` clause. -/
def spaceFirst : Selector where
  head := [⟨"VectorSpace", .variable "U"⟩]
  withDecls := [⟨"Vector", .fact "x2"⟩, ⟨"Vector", .fact "x2"⟩, ⟨"Vector", .variable "v"⟩]
  constraints := [.pred "In" [.ref (.variable "v"), .ref (.variable "U")]]

theorem matchHeader_reordered_spaceFirst :
    vectorFirst.Reordered spaceFirst ∧ vectorFirst.NamesVariablesOnce ∧
      ∃ found found', matchHeader membershipContext (.selector vectorFirst)
            (.ofHeader (.selector vectorFirst)) = .ok found ∧
        matchHeader membershipContext (.selector spaceFirst)
            (.ofHeader (.selector spaceFirst)) = .ok found' ∧
        found.Perm found' ∧
        found = [.ofList [("v", "x1"), ("U", "X")], .ofList [("v", "x1"), ("U", "Y")],
          .ofList [("v", "x2"), ("U", "X")]] ∧
        found' = [.ofList [("v", "x1"), ("U", "X")], .ofList [("v", "x2"), ("U", "X")],
          .ofList [("v", "x1"), ("U", "Y")]] := by
  have hreordered : vectorFirst.Reordered spaceFirst := ⟨by decide, rfl⟩
  have honce : vectorFirst.NamesVariablesOnce := by decide
  refine ⟨hreordered, honce, ?_⟩
  obtain ⟨p, hp, -⟩ | ⟨found, found', hfound, hfound', hperm⟩ :=
    matchHeader_reordered membershipContext hreordered honce
  · cases hp
  · exact ⟨found, found', hfound, hfound', hperm, (Except.ok.inj hfound).symm,
      (Except.ok.inj hfound').symm⟩

end Selectors
