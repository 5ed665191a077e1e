import Selectors.Proofs.Instances
import Selectors.Proofs.Shadowing

/-!
# Selectors with a fact put for a variable

`Selector.apply` puts facts for variables in the declared patterns and in the constraints of a
selector. Where all declared names differ, a selector in which one variable became a fact lists what
the selector listed for this fact, without the variable (`mem_found_iff_instantiated`). Only the
test that variables stand for distinct facts is weaker: it does not look at facts that a selector
names.
-/

namespace Selectors

theorem Reference.apply_singleton (v x : String) (r : Reference) :
    r.apply (.singleton v x) = if r = .variable v then .fact x else r := by
  cases r with
  | fact name => rfl
  | «variable» name => by_cases h : name = v <;> simp [apply, h]

def Declaration.apply (s : Substitution) (d : Declaration) : Declaration :=
  { d with ref := d.ref.apply s }

/-- The selector in which each variable that the substitution binds is replaced by its fact. -/
def Selector.apply (s : Substitution) (sel : Selector) : Selector where
  head := sel.head.map (·.apply s)
  withDecls := sel.withDecls.map (·.apply s)
  constraints := sel.constraints.map (·.apply s)

variable {ctx : Context} {sel : Selector} {s t : Substitution} {v x : String}

theorem Declaration.varsOfAll_map_apply (s : Substitution) (ds : List Declaration) :
    varsOfAll (ds.map (·.apply s)) = (varsOfAll ds).filter fun v => (s.get? v).isNone := by
  induction ds with
  | nil => rfl
  | cons d ds ih =>
    rw [List.map_cons, varsOfAll_cons, varsOfAll_cons, ih, List.filter_append, apply,
      d.ref.vars_apply]

namespace Selector

@[simp] theorem declarations_apply (s : Substitution) (sel : Selector) :
    (sel.apply s).declarations = sel.declarations.map (·.apply s) :=
  List.map_append.symm

theorem declares_apply_iff :
    (sel.apply s).Declares v ↔ sel.Declares v ∧ s.get? v = none := by
  simp only [Declares, ← Declaration.mem_varsOfAll_iff, declarations_apply,
    Declaration.varsOfAll_map_apply, List.mem_filter, Option.isNone_iff_eq_none]

end Selector

/-! ## What an instance asks for -/

theorem Context.meets_apply_iff {d : Declaration} :
    ctx.Meets s (d.apply t) ↔ ctx.Meets (s.combine t) d := by
  simp only [Meets, Declaration.apply, Reference.denotes_apply_iff]

theorem Context.satisfies_apply_iff {c : Constraint} :
    ctx.Satisfies s (c.apply t) ↔ ctx.Satisfies (s.combine t) c := by
  simp only [Satisfies, Constraint.HoldsUnder, Constraint.denotes_apply_iff]

theorem Substitution.combine_erase_singleton (hs : s.get? v = some x) :
    Substitution.combine (s.erase v) (.singleton v x) = s := by
  refine NameTable.ext_get? fun w => ?_
  rw [get?_combine, get?_singleton, NameTable.get?_erase]
  by_cases hw : w = v <;> simp [hw, hs]

theorem Substitution.distinct_iff_erase (hs : s.get? v = some x) :
    (∀ w w' name, s.get? w = some name → s.get? w' = some name → w = w') ↔
      (∀ w w' name, (s.erase v).get? w = some name → (s.erase v).get? w' = some name → w = w') ∧
        x ∉ (s.erase v).values := by
  have herase : ∀ w name, (s.erase v).get? w = some name ↔ w ≠ v ∧ s.get? w = some name := by
    simp
  simp only [herase, NameTable.mem_values_iff, not_exists, not_and]
  refine ⟨fun h => ⟨fun w w' name hw hw' => h w w' name hw.2 hw'.2, fun w hne hw => ?_⟩,
    fun h w w' name hw hw' => ?_⟩
  · exact hne (h w v x hw hs)
  · obtain ⟨hdistinct, hx⟩ := h
    by_cases hwv : w = v <;> by_cases hwv' : w' = v
    · rw [hwv, hwv']
    · rw [hwv, hs] at hw
      exact absurd (hw ▸ hw') (hx w' hwv')
    · rw [hwv', hs] at hw'
      exact absurd (hw' ▸ hw) (hx w hwv)
    · exact hdistinct w w' name ⟨hwv, hw⟩ ⟨hwv', hw'⟩

namespace Selector

/-- A substitution binds the variables of a selector just when, without one variable, it binds those
of the selector in which this variable became its fact, and it gives the fact to no other. -/
theorem binds_iff_binds_apply (hv : sel.Declares v) (hs : s.get? v = some x) :
    sel.Binds ctx s ↔
      (sel.apply (.singleton v x)).Binds ctx (s.erase v) ∧ x ∉ (s.erase v).values := by
  have hcombine := Substitution.combine_erase_singleton hs
  have hnames : (∀ w, w ∈ s.names ↔ sel.Declares w) ↔
      ∀ w, w ∈ (s.erase v).names ↔ (sel.apply (.singleton v x)).Declares w := by
    refine forall_congr' fun w => ?_
    rw [declares_apply_iff, NameTable.mem_names_iff, NameTable.mem_names_iff]
    by_cases hw : w = v <;> simp [hw, hv, hs]
  have hmeets : (∀ d ∈ sel.declarations, ctx.Meets s d) ↔
      ∀ d ∈ (sel.apply (.singleton v x)).declarations, ctx.Meets (s.erase v) d := by
    simp only [declarations_apply, List.forall_mem_map, Context.meets_apply_iff, hcombine]
  have hconstraints : (∀ c ∈ sel.constraints, ctx.Satisfies s c) ↔
      ∀ c ∈ (sel.apply (.singleton v x)).constraints, ctx.Satisfies (s.erase v) c := by
    simp only [apply, List.forall_mem_map, Context.satisfies_apply_iff, hcombine]
  have hdistinct := Substitution.distinct_iff_erase hs
  refine ⟨fun h => ?_, fun h => ?_⟩
  · obtain ⟨hdistinct, hx⟩ := hdistinct.1 h.distinct
    exact ⟨⟨hnames.1 h.names, hmeets.1 h.meets, hconstraints.1 h.constraints, hdistinct⟩, hx⟩
  · obtain ⟨h, hx⟩ := h
    exact ⟨hnames.2 h.names, hmeets.2 h.meets, hconstraints.2 h.constraints,
      hdistinct.2 ⟨h.distinct, hx⟩⟩

/-! ## Selectors without shadowed variables -/

/-- Where no variable shares its name with a fact, no variable is shadowed. -/
theorem unshadowed_of_forall
    (h : ∀ d ∈ sel.declarations, sel.Declares d.ref.name → d.ref.isVariable = true) :
    sel.Unshadowed := by
  intro w hw
  cases hlast : Declaration.lastNamed? w sel.declarations with
  | none =>
    obtain ⟨d, hd, href⟩ := hw
    exact absurd (href ▸ rfl) (Declaration.lastNamed?_eq_none_iff.1 hlast d hd)
  | some d =>
    obtain ⟨hd, hname⟩ := Declaration.mem_of_lastNamed? hlast
    have hvar := h d hd (hname ▸ hw)
    refine ⟨d, rfl, ?_⟩
    cases href : d.ref with
    | fact target => simp [href, Reference.isVariable] at hvar
    | «variable» w' => rw [← hname, href, Reference.name]

theorem mem_accepted_iff_binds (hsel : sel.Unshadowed)
    (hnodup : (Declaration.varsOfAll sel.declarations).Nodup) :
    s ∈ sel.accepted ctx ↔ sel.Binds ctx s :=
  mem_accepted_iff.trans ⟨fun h => h.binds hnodup, fun h => h.accepts hsel⟩

theorem Unshadowed.isVariable_iff (h : sel.Unshadowed) :
    (Scope.ofDeclarations sel.declarations).isVariable v = true ↔ sel.Declares v := by
  rw [Scope.isVariable_ofDeclarations_iff]
  refine ⟨fun hv => ?_, h v⟩
  obtain ⟨d, hlast, href⟩ := hv
  exact ⟨d, (Declaration.mem_of_lastNamed? hlast).1, href⟩

theorem Unshadowed.constraintProblems_eq_nil_iff (h : sel.Unshadowed) :
    constraintProblems (.ofDeclarations sel.declarations) sel.constraints = [] ↔
      ∀ c ∈ sel.constraints, (∀ v ∈ c.vars, sel.Declares v) ∧ c.unresolved = [] := by
  simp only [Selectors.constraintProblems_eq_nil_iff, h.isVariable_iff]

/-- Putting facts for variables brings up no problem. -/
theorem problem?_apply_eq_none (hsel : sel.Unshadowed) (hsel' : (sel.apply t).Unshadowed)
    {facts : FactProgram}
    (h : (Header.selector sel).problem? facts (.ofDeclarations sel.declarations) = none) :
    (Header.selector (sel.apply t)).problem? facts
      (.ofDeclarations (sel.apply t).declarations) = none := by
  have hcs : constraintProblems (.ofDeclarations sel.declarations) sel.constraints = [] := by
    rw [Header.problem?, Option.or_eq_none_iff] at h
    exact List.head?_eq_none_iff.1 h.1
  have hcs' : constraintProblems (.ofDeclarations (sel.apply t).declarations)
      (sel.apply t).constraints = [] := by
    rw [hsel.constraintProblems_eq_nil_iff] at hcs
    refine hsel'.constraintProblems_eq_nil_iff.2 (List.forall_mem_map.2 fun c hc => ?_)
    obtain ⟨hvars, hopen⟩ := hcs c hc
    refine ⟨fun v hv => ?_, (c.unresolved_apply t).trans hopen⟩
    rw [c.vars_apply, List.mem_filter, Option.isNone_iff_eq_none] at hv
    exact declares_apply_iff.2 ⟨hvars v hv.1, hv.2⟩
  rw [Header.problem?_eq_none_iff hcs] at h
  rw [Header.problem?_eq_none_iff hcs']
  simpa only [Header.declarations, declarations_apply, List.map_eq_nil_iff] using h

/-! ## Selectors whose names differ -/

theorem isVariable_of_declares (hnames : (sel.declarations.map (·.ref.name)).Nodup)
    {d : Declaration} (hd : d ∈ sel.declarations) (hdeclares : sel.Declares d.ref.name) :
    d.ref.isVariable = true := by
  obtain ⟨d', hd', href⟩ := hdeclares
  have hname : d'.ref.name = d.ref.name := by rw [href, Reference.name]
  rw [← List.inj_on_of_nodup_map hnames hd' hd hname, href, Reference.isVariable]

theorem nodup_varsOfAll_of_names (hnames : (sel.declarations.map (·.ref.name)).Nodup) :
    (Declaration.varsOfAll sel.declarations).Nodup :=
  hnames.sublist (Declaration.varsOfAll_sublist_names _)

/-- A fact put for a variable shadows no variable unless it has the name of one that is left. -/
theorem unshadowed_apply_singleton (hnames : (sel.declarations.map (·.ref.name)).Nodup)
    (hx : sel.Declares x → x = v) : (sel.apply (.singleton v x)).Unshadowed := by
  refine unshadowed_of_forall fun d' hd' hdeclares => ?_
  rw [declarations_apply] at hd'
  obtain ⟨d, hd, rfl⟩ := List.mem_map.1 hd'
  obtain ⟨hdeclares, hfree⟩ := declares_apply_iff.1 hdeclares
  simp only [Declaration.apply, Reference.apply_singleton] at hdeclares hfree ⊢
  by_cases href : d.ref = .variable v
  · rw [if_pos href, Reference.name] at hdeclares hfree
    simp [hx hdeclares] at hfree
  · rw [if_neg href] at hdeclares ⊢
    exact isVariable_of_declares hnames hd hdeclares

end Selector

/-- Where all declared names differ, a fact can be put for one of the variables, if no other
variable has its name. What the selector lists with this fact for the variable is then listed
without the variable, and all else that is listed gives the fact to another variable. -/
theorem mem_found_iff_instantiated {ctx : Context} {sel : Selector} {found : List Substitution}
    (h : matchHeader ctx (.selector sel) (.ofHeader (.selector sel)) = .ok found)
    (hnames : (sel.declarations.map (·.ref.name)).Nodup) {v x : String} (hv : sel.Declares v)
    (hx : sel.Declares x → x = v) :
    ∃ found', matchHeader ctx (.selector (sel.apply (.singleton v x)))
        (.ofHeader (.selector (sel.apply (.singleton v x)))) = .ok found' ∧
      ∀ s : Substitution, s.get? v = some x →
        (s ∈ found ↔ s.erase v ∈ found' ∧ x ∉ (s.erase v).values) := by
  rw [Selector.matchHeader_eq_accepted, okUnless_eq_ok_iff] at h
  obtain ⟨hproblem, rfl⟩ := h
  have hsel : sel.Unshadowed :=
    Selector.unshadowed_of_forall fun d hd => Selector.isVariable_of_declares hnames hd
  have hsel' := Selector.unshadowed_apply_singleton hnames hx
  have hnodup := Selector.nodup_varsOfAll_of_names hnames
  have hnodup' :
      (Declaration.varsOfAll (sel.apply (.singleton v x)).declarations).Nodup := by
    rw [Selector.declarations_apply, Declaration.varsOfAll_map_apply]
    exact hnodup.filter _
  refine ⟨(sel.apply (.singleton v x)).accepted ctx, ?_, fun s hs => ?_⟩
  · rw [Selector.matchHeader_eq_accepted, okUnless_eq_ok_iff]
    exact ⟨Selector.problem?_apply_eq_none hsel hsel' hproblem, rfl⟩
  · rw [Selector.mem_accepted_iff_binds hsel hnodup, Selector.mem_accepted_iff_binds hsel' hnodup',
      Selector.binds_iff_binds_apply hv hs]

def orthogonalContext : Context where
  facts := ⟨[.decl (.nullary "Vector") "x1", .decl (.nullary "Vector") "x2",
    .pred (.ofFacts "Orthogonal" ["x1", "x2"]), .pred (.ofFacts "Orthogonal" ["x2", "x2"])]⟩
  settings := {}
  accepts type declared := type == declared

def orthogonalPair : Selector where
  head := [⟨"Vector", .variable "u"⟩, ⟨"Vector", .variable "v"⟩]
  withDecls := []
  constraints := [.pred "Orthogonal" [.ref (.variable "u"), .ref (.variable "v")]]

/-- With `x2` for `v`, the variable `u` may be `x2` as well, which the pair itself excludes. -/
theorem mem_found_iff_orthogonalPair :
    matchHeader orthogonalContext (.selector orthogonalPair)
          (.ofHeader (.selector orthogonalPair)) =
        .ok [.ofList [("u", "x1"), ("v", "x2")]] ∧
      (orthogonalPair.declarations.map (·.ref.name)).Nodup ∧ orthogonalPair.Declares "v" ∧
      (orthogonalPair.Declares "x2" → "x2" = "v") ∧
      ∃ found', matchHeader orthogonalContext
          (.selector (orthogonalPair.apply (.singleton "v" "x2")))
          (.ofHeader (.selector (orthogonalPair.apply (.singleton "v" "x2")))) = .ok found' ∧
        found' = [.singleton "u" "x1", .singleton "u" "x2"] ∧
        ∀ s : Substitution, s.get? "v" = some "x2" →
          (s ∈ [.ofList [("u", "x1"), ("v", "x2")]] ↔
            s.erase "v" ∈ found' ∧ "x2" ∉ (s.erase "v").values) := by
  have hfound : matchHeader orthogonalContext (.selector orthogonalPair)
      (.ofHeader (.selector orthogonalPair)) = .ok [.ofList [("u", "x1"), ("v", "x2")]] := rfl
  have hnames : (orthogonalPair.declarations.map (·.ref.name)).Nodup := by decide
  have hv : orthogonalPair.Declares "v" := ⟨⟨"Vector", .variable "v"⟩, by decide, rfl⟩
  have hx : orthogonalPair.Declares "x2" → "x2" = "v" := by
    rintro ⟨d, hd, href⟩
    rcases List.mem_pair.1 hd with rfl | rfl <;> simp at href
  obtain ⟨found', hfound', hiff⟩ := mem_found_iff_instantiated hfound hnames hv hx
  have hlist : [.singleton "u" "x1", .singleton "u" "x2"] = found' := Except.ok.inj hfound'
  exact ⟨hfound, hnames, hv, hx, found', hfound', hlist.symm, hiff⟩

end Selectors
