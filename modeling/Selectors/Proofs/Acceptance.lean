import Selectors.Proofs.Outcomes

/-!
# The substitutions that a selector accepts

`Selector.Accepts` says which substitutions a selector stands for, in terms of its declared
patterns, its constraints and the facts, and without the join. Under its own scope a selector lists
exactly these (`mem_matchHeader_iff`). A variable that is declared several times is bound to a
candidate of its last declaration only; a variable whose name is declared for a fact afterwards
cannot be bound, so that such a selector accepts nothing.
-/

namespace Selectors

/-- A fact is declared with a type that is admitted and accepted in a context. -/
abbrev Context.Supports (ctx : Context) (type name : String) : Prop :=
  ctx.facts.Supports ctx.accepts ctx.settings.admission.types type name

abbrev Context.HasCandidate (ctx : Context) (d : Declaration) (name : String) : Prop :=
  d.IsCandidate ctx.accepts ctx.settings.admission.types ctx.facts name

/-- A declared pattern is met in a context under a substitution: what it refers to is a fact that
has its type. -/
def Context.Meets (ctx : Context) (s : Substitution) (d : Declaration) : Prop :=
  ∃ name, d.ref.Denotes s name ∧ ctx.Supports d.type name

abbrev Context.Satisfies (ctx : Context) (s : Substitution) (c : Constraint) : Prop :=
  c.HoldsUnder ctx.settings.admission ctx.facts.statements s

namespace Selector

/-- A name is declared as a variable, in the head or in the `with` clause. -/
def Declares (sel : Selector) (v : String) : Prop :=
  ∃ d ∈ sel.declarations, d.ref = .variable v

/-- No declared variable is declared for a fact after its last declaration as a variable. -/
def Unshadowed (sel : Selector) : Prop :=
  ∀ v, sel.Declares v →
    ∃ d, Declaration.lastNamed? v sel.declarations = some d ∧ d.ref = .variable v

/-- What it takes for a substitution to be accepted. -/
structure Accepts (ctx : Context) (sel : Selector) (s : Substitution) : Prop where
  candidate : ∀ d ∈ sel.declarations, ∃ name, ctx.HasCandidate d name
  names : ∀ v, v ∈ s.names ↔ sel.Declares v
  unshadowed : sel.Unshadowed
  bound : ∀ v name, s.get? v = some name →
    ∃ d, Declaration.lastNamed? v sel.declarations = some d ∧ ctx.HasCandidate d name
  constraints : ∀ c ∈ sel.constraints, ctx.Satisfies s c
  distinct : ∀ v w name, s.get? v = some name → s.get? w = some name → v = w

variable {ctx : Context} {sel : Selector} {s : Substitution} {d : Declaration} {v : String}

theorem declares_iff_lastVariable? :
    sel.Declares v ↔ ∃ d, Declaration.lastVariable? v sel.declarations = some d := by
  rw [← Option.isSome_iff_exists, ← Option.ne_none_iff_isSome, ne_eq,
    Declaration.lastVariable?_eq_none_iff]
  simp [Declares]

theorem Unshadowed.lastNamed?_eq (h : sel.Unshadowed)
    (hv : Declaration.lastVariable? v sel.declarations = some d) :
    Declaration.lastNamed? v sel.declarations = some d := by
  obtain ⟨d', hlast, hvar⟩ := h v (declares_iff_lastVariable?.2 ⟨d, hv⟩)
  rw [hlast, ← Declaration.lastVariable?_of_lastNamed? hlast hvar, hv]

/-! ## What is accepted -/

theorem mem_names_of_mem_joined (hs : s ∈ sel.joined ctx) : v ∈ s.names ↔ sel.Declares v := by
  have h := Substitution.mem_joined_iff.1 hs
  rw [declares_iff_lastVariable?, NameTable.mem_names_iff]
  cases hv : Declaration.lastVariable? v sel.declarations with
  | some d =>
    obtain ⟨name, hname, -⟩ := h.bound hv
    simp [hname]
  | none => simp [h.kept hv]

theorem Accepts.candidate_of_lastVariable? (h : sel.Accepts ctx s)
    (hv : Declaration.lastVariable? v sel.declarations = some d) :
    ∃ name, s.get? v = some name ∧ ctx.HasCandidate d name := by
  obtain ⟨name, hname⟩ := NameTable.mem_names_iff.1
    ((h.names v).2 (declares_iff_lastVariable?.2 ⟨d, hv⟩))
  obtain ⟨d', hlast, hcandidate⟩ := h.bound v name hname
  obtain rfl : d = d' := Option.some.inj ((h.unshadowed.lastNamed?_eq hv).symm.trans hlast)
  exact ⟨name, hname, hcandidate⟩

theorem Accepts.meets_lastVariable (h : sel.Accepts ctx s)
    (hv : Declaration.lastVariable? v sel.declarations = some d) : ctx.Meets s d := by
  obtain ⟨name, hname, hsupports, -⟩ := h.candidate_of_lastVariable? hv
  exact ⟨name, (Declaration.mem_of_lastVariable? hv).2 ▸ .bound hname, hsupports⟩

theorem Accepts.meets_fact {target : String} (h : sel.Accepts ctx s) (hd : d ∈ sel.declarations)
    (href : d.ref = .fact target) : ctx.Meets s d := by
  obtain ⟨name, hsupports, hfits⟩ := h.candidate d hd
  rw [href] at hfits
  rcases hfits with hvar | hname
  · cases hvar
  · cases hname
    exact ⟨target, href ▸ .fact, hsupports⟩

/-- A substitution of the declared variables completes the selector's own scope just when none of
them is shadowed. -/
theorem isCompletedBy_iff_unshadowed (hnames : ∀ v, v ∈ s.names ↔ sel.Declares v) :
    (Scope.ofDeclarations sel.declarations).isCompletedBy s = true ↔ sel.Unshadowed := by
  simp only [Scope.isCompletedBy_iff, Scope.isVariable_ofDeclarations_iff, hnames, Unshadowed]
  refine forall_congr' fun v => ⟨Iff.mpr, fun h => ⟨fun h' => ?_, h⟩⟩
  obtain ⟨d, hlast, hvar⟩ := h'
  exact ⟨d, (Declaration.mem_of_lastNamed? hlast).1, hvar⟩

def accepted (ctx : Context) (sel : Selector) : List Substitution :=
  (sel.joined ctx).filter (sel.keeps ctx (.ofDeclarations sel.declarations))

theorem matchHeader_eq_accepted (ctx : Context) (sel : Selector) :
    matchHeader ctx (.selector sel) (.ofHeader (.selector sel)) =
      okUnless ((Header.selector sel).problem? ctx.facts (.ofHeader (.selector sel)))
        (sel.accepted ctx) :=
  matchSelector_eq

theorem mem_accepted_iff : s ∈ sel.accepted ctx ↔ sel.Accepts ctx s := by
  simp only [accepted, List.mem_filter, keeps, Bool.and_eq_true, Substitution.satisfies_iff,
    Substitution.hasDistinctFacts_iff]
  refine ⟨fun h => ?_, fun h => ⟨?_, ⟨?_, ?_⟩, ?_⟩⟩
  · obtain ⟨hs, ⟨hcomplete, hconstraints⟩, hdistinct⟩ := h
    have hnames : ∀ v, v ∈ s.names ↔ sel.Declares v := fun v => mem_names_of_mem_joined hs
    have hsel := (isCompletedBy_iff_unshadowed hnames).1 hcomplete
    have hjoined := Substitution.mem_joined_iff.1 hs
    refine ⟨hjoined.candidate, hnames, hsel, fun v name hname => ?_, hconstraints, hdistinct⟩
    -- The scope keeps the last declaration of the name, and the join binds from that very one.
    obtain ⟨d, hlast, hvar⟩ := hsel v ((hnames v).1 (NameTable.mem_names_iff.2 ⟨name, hname⟩))
    obtain ⟨name', hname', hcandidate⟩ :=
      hjoined.bound (Declaration.lastVariable?_of_lastNamed? hlast hvar)
    obtain rfl : name = name' := Option.some.inj (hname.symm.trans hname')
    exact ⟨d, hlast, hcandidate⟩
  · refine Substitution.mem_joined_iff.2 ⟨h.candidate, h.candidate_of_lastVariable?, ?_⟩
    intro v hv
    rw [NameTable.get?_empty, ← NameTable.not_mem_names_iff, h.names, declares_iff_lastVariable?,
      hv]
    simp
  · exact (isCompletedBy_iff_unshadowed h.names).2 h.unshadowed
  · exact h.constraints
  · exact h.distinct

end Selector

/-- What a selector lists under its own scope are the substitutions that it accepts. -/
theorem mem_matchHeader_iff {ctx : Context} {sel : Selector} {found : List Substitution}
    (h : matchHeader ctx (.selector sel) (.ofHeader (.selector sel)) = .ok found)
    (s : Substitution) : s ∈ found ↔ sel.Accepts ctx s := by
  rw [matchHeader, matchSelector_eq, okUnless_eq_ok_iff] at h
  obtain ⟨-, rfl⟩ := h
  exact Selector.mem_accepted_iff

def planeContext : Context where
  facts := ⟨[.decl (.nullary "Vector") "x1", .decl (.nullary "Vector") "x2",
    .decl (.nullary "VectorSpace") "X", .pred (.ofFacts "In" ["x1", "X"])]⟩
  settings := {}
  accepts type declared := type == declared

def planeSelector : Selector where
  head := [⟨"VectorSpace", .variable "v"⟩, ⟨"Vector", .variable "v"⟩,
    ⟨"VectorSpace", .variable "U"⟩]
  withDecls := [⟨"Vector", .fact "x2"⟩]
  constraints := [.pred "In" [.ref (.variable "v"), .ref (.variable "U")]]

theorem accepts_planeSelector :
    matchHeader planeContext (.selector planeSelector) (.ofHeader (.selector planeSelector)) =
        .ok [.ofList [("U", "X"), ("v", "x1")]] ∧
      planeSelector.Accepts planeContext (.ofList [("U", "X"), ("v", "x1")]) ∧
      ¬ planeSelector.Accepts planeContext (.ofList [("U", "X"), ("v", "x2")]) := by
  have hrun : matchHeader planeContext (.selector planeSelector)
      (.ofHeader (.selector planeSelector)) = .ok [.ofList [("U", "X"), ("v", "x1")]] := rfl
  refine ⟨hrun, (mem_matchHeader_iff hrun _).1 List.mem_cons_self, fun h => ?_⟩
  have hmem := (mem_matchHeader_iff hrun _).2 h
  revert hmem
  decide

end Selectors
