import Mathlib.Logic.Equiv.Basic
import Selectors.Proofs.Acceptance
import Selectors.Proofs.Renaming

/-!
# Matching with renamed variables and facts

Matching compares names and does nothing else with them: if the variables and the facts of a
selector and of a context are renamed, the selector lists what it listed, in the same order, with
the bindings renamed, or meets the same problem under the new names (`matchHeader_rename`).
Variables and facts are renamed apart from each other. Only a scope sees both, and mixes a variable
up with a fact of the same name, so a renaming has to keep which declared ones share a name
(`Renaming.KeepsClashes`).
-/

namespace Selectors

/-- A declared variable and a declared fact share their new name just when they share their name. -/
def Renaming.KeepsClashes (ρ : Renaming) (ds : List Declaration) : Prop :=
  ∀ d ∈ ds, d.ref.isVariable = true → ∀ d' ∈ ds, d'.ref.isVariable = false →
    (ρ.var d.ref.name = ρ.fact d'.ref.name ↔ d.ref.name = d'.ref.name)

instance (ρ : Renaming) (ds : List Declaration) : Decidable (ρ.KeepsClashes ds) :=
  inferInstanceAs <| Decidable <|
    ∀ d ∈ ds, d.ref.isVariable = true → ∀ d' ∈ ds, d'.ref.isVariable = false →
      (ρ.var d.ref.name = ρ.fact d'.ref.name ↔ d.ref.name = d'.ref.name)

variable {ρ : Renaming} {ds : List Declaration} {v w : String}

/-! ## Renamed scopes -/

theorem Renaming.KeepsClashes.name_eq_iff {d d' : Declaration} (hρ : ρ.KeepsClashes ds)
    (hd : d ∈ ds) (hd' : d' ∈ ds) (href : d.ref = .variable v) :
    (d'.rename ρ).ref.name = ρ.var v ↔ d'.ref.name = v := by
  rw [Declaration.rename]
  cases href' : d'.ref with
  | «variable» w => exact ρ.var_injective.eq_iff
  | fact x =>
    have h := hρ d hd (href ▸ rfl) d' hd' (href' ▸ rfl)
    rw [href, href'] at h
    exact eq_comm.trans (h.trans eq_comm)

theorem Declaration.lastNamed?_rename
    (h : ∀ d ∈ ds, (d.rename ρ).ref.name = ρ.var v ↔ d.ref.name = v) :
    lastNamed? (ρ.var v) (ds.map (·.rename ρ)) = (lastNamed? v ds).map (·.rename ρ) := by
  induction ds with
  | nil => rfl
  | cons d ds ih =>
    obtain ⟨hd, hds⟩ := List.forall_mem_cons.1 h
    rw [List.map_cons, lastNamed?_cons, lastNamed?_cons, ih hds, Option.map_or]
    by_cases hname : d.ref.name = v
    · rw [if_pos (hd.2 hname), if_pos hname, Option.map_some]
    · rw [if_neg (mt hd.1 hname), if_neg hname, Option.map_none]

namespace Scope

theorem isVariable_rename_iff (hρ : ρ.KeepsClashes ds) :
    (ofDeclarations (ds.map (·.rename ρ))).isVariable w = true ↔
      ∃ v, (ofDeclarations ds).isVariable v = true ∧ ρ.var v = w := by
  simp only [isVariable_ofDeclarations_iff]
  refine ⟨fun h => ?_, fun h => ?_⟩
  · obtain ⟨d', hlast', href'⟩ := h
    obtain ⟨d, hd, rfl⟩ := List.mem_map.1 (Declaration.mem_of_lastNamed? hlast').1
    obtain ⟨v, href, rfl⟩ := Reference.rename_eq_variable_iff.1 href'
    rw [Declaration.lastNamed?_rename fun e he => hρ.name_eq_iff hd he href,
      Option.map_eq_some_iff] at hlast'
    obtain ⟨e, hlast, he⟩ := hlast'
    obtain ⟨w, hw, hvw⟩ := Reference.rename_eq_variable_iff.1 (he ▸ href')
    exact ⟨v, ⟨e, hlast, ρ.var_injective hvw ▸ hw⟩, rfl⟩
  · obtain ⟨v, ⟨d, hlast, href⟩, rfl⟩ := h
    obtain ⟨hd, -⟩ := Declaration.mem_of_lastNamed? hlast
    refine ⟨d.rename ρ, ?_, Reference.rename_eq_variable_iff.2 ⟨v, href, rfl⟩⟩
    rw [Declaration.lastNamed?_rename fun e he => hρ.name_eq_iff hd he href, hlast,
      Option.map_some]

theorem isVariable_rename (hρ : ρ.KeepsClashes ds) (v : String) :
    (ofDeclarations (ds.map (·.rename ρ))).isVariable (ρ.var v) =
      (ofDeclarations ds).isVariable v := by
  rw [Bool.eq_iff_iff, isVariable_rename_iff hρ]
  simp only [ρ.var_injective.eq_iff, exists_eq_right]

theorem isCompletedBy_rename (hρ : ρ.KeepsClashes ds) (s : Substitution) :
    (ofDeclarations (ds.map (·.rename ρ))).isCompletedBy (s.rename ρ) =
      (ofDeclarations ds).isCompletedBy s := by
  rw [Bool.eq_iff_iff, isCompletedBy_iff, isCompletedBy_iff]
  simp only [isVariable_rename_iff hρ, Substitution.mem_names_rename_iff]
  refine ⟨fun h v => ?_, fun h w => by simp only [h]⟩
  simpa only [ρ.var_injective.eq_iff, exists_eq_right] using h (ρ.var v)

end Scope

/-! ## Renamed problems -/

/-- A problem is the same as another but for new names, also in the constraint that it was met
in. -/
inductive Problem.Renamed (ρ : Renaming) : Problem → Problem → Prop
  | undeclaredVariable {v : String} {c : Constraint} :
    Renamed ρ (.undeclaredVariable v c.text)
      (.undeclaredVariable (ρ.var v) (c.rename ρ).text)
  | unresolvedApplication {name : String} {c : Constraint} :
    Renamed ρ (.unresolvedApplication name c.text)
      (.unresolvedApplication name (c.rename ρ).text)
  | typeVariable {x type : String} :
    Renamed ρ (.typeVariable x type) (.typeVariable (ρ.fact x) type)

theorem eraseDups_map {f : String → String} (hf : Function.Injective f) (names : List String) :
    (names.map f).eraseDups = names.eraseDups.map f := by
  cases names with
  | nil => rfl
  | cons name names =>
    have hfilter : (names.map f).filter (!· == f name) =
        (names.filter (!· == name)).map f := by
      rw [List.filter_map]
      refine congrArg _ (List.filter_congr fun other _ => ?_)
      simp [hf.eq_iff]
    rw [List.map_cons, List.eraseDups_cons, List.eraseDups_cons, hfilter, eraseDups_map hf,
      List.map_cons]
termination_by names.length
decreasing_by exact Nat.lt_succ_of_le (List.length_filter_le ..)

theorem Constraint.problems_rename (hρ : ρ.KeepsClashes ds) (c : Constraint) :
    List.Forall₂ (Problem.Renamed ρ) (c.problems (.ofDeclarations ds))
      ((c.rename ρ).problems (.ofDeclarations (ds.map (·.rename ρ)))) := by
  have hfilter : ((c.rename ρ).vars.filter fun w =>
      !(Scope.ofDeclarations (ds.map (·.rename ρ))).isVariable w) =
        (c.vars.filter fun v => !(Scope.ofDeclarations ds).isVariable v).map ρ.var := by
    rw [c.vars_rename, List.filter_map]
    refine congrArg _ (List.filter_congr fun v _ => ?_)
    rw [Function.comp_apply, Scope.isVariable_rename hρ]
  rw [problems, problems, hfilter, eraseDups_map ρ.var_injective, c.unresolved_rename,
    List.map_map]
  refine List.rel_append ?_ ?_
  · rw [List.forall₂_map_left_iff, List.forall₂_map_right_iff, List.forall₂_same]
    exact fun v _ => .undeclaredVariable
  · rw [List.forall₂_map_left_iff, List.forall₂_map_right_iff, List.forall₂_same]
    exact fun name _ => .unresolvedApplication

theorem constraintProblems_rename (hρ : ρ.KeepsClashes ds) (cs : List Constraint) :
    List.Forall₂ (Problem.Renamed ρ) (constraintProblems (.ofDeclarations ds) cs)
      (constraintProblems (.ofDeclarations (ds.map (·.rename ρ))) (cs.map (·.rename ρ))) := by
  induction cs with
  | nil => exact .nil
  | cons c cs ih => exact List.rel_append (c.problems_rename hρ) ih

theorem FactProgram.typeVariable?_rename (facts : FactProgram) :
    Option.Rel (Problem.Renamed ρ) facts.typeVariable? (facts.rename ρ).typeVariable? := by
  obtain ⟨statements⟩ := facts
  simp only [typeVariable?, rename]
  induction statements with
  | nil => exact .none
  | cons statement statements ih =>
    rcases statement with ⟨_ | type, name⟩ | _ | _
    case decl.var => exact .some .typeVariable
    all_goals exact ih

theorem Selector.declarations_rename (sel : Selector) :
    (sel.rename ρ).declarations = sel.declarations.map (·.rename ρ) :=
  List.map_append.symm

theorem Header.declarations_rename (h : Header) :
    (h.rename ρ).declarations = h.declarations.map (·.rename ρ) := by
  cases h with
  | selector sel => exact sel.declarations_rename
  | space name => rfl

theorem Header.constraints_rename (h : Header) :
    (h.rename ρ).constraints = h.constraints.map (·.rename ρ) := by
  cases h <;> rfl

theorem Header.problem?_rename {h : Header} (hρ : ρ.KeepsClashes h.declarations)
    (facts : FactProgram) :
    Option.Rel (Problem.Renamed ρ) (h.problem? facts (.ofHeader h))
      ((h.rename ρ).problem? (facts.rename ρ) (.ofHeader (h.rename ρ))) := by
  refine problem?_rel ?_ ?_ facts.typeVariable?_rename
  · rw [Scope.ofHeader, Scope.ofHeader, declarations_rename, constraints_rename]
    exact constraintProblems_rename hρ h.constraints
  · rw [declarations_rename, List.isEmpty_map]

/-! ## Renamed joins -/

variable {accepts : TypeAcceptance} {filter : NameFilter} {facts : FactProgram}

theorem Substitution.ofReference?_rename (x : String) (r : Reference) :
    ofReference? (ρ.fact x) (r.rename ρ) = (ofReference? x r).map (·.rename ρ) := by
  cases r with
  | «variable» v => rfl
  | fact target =>
    by_cases h : target = x <;> simp [ofReference?, Reference.rename, ρ.fact_injective.eq_iff, h]

theorem Declaration.binding?_rename (d : Declaration) (statement : Statement) :
    (d.rename ρ).binding? accepts filter (statement.rename ρ) =
      (d.binding? accepts filter statement).map (·.rename ρ) := by
  rcases statement with ⟨⟨type, args⟩ | _, name⟩ | _ | _
  case decl.constructor =>
    simp only [Statement.rename, binding?, rename, Substitution.ofReference?_rename]
    split <;> rfl
  all_goals rfl

theorem Declaration.bindings_rename (d : Declaration) :
    (d.rename ρ).bindings accepts filter (facts.rename ρ) =
      (d.bindings accepts filter facts).map (·.rename ρ) := by
  simp only [bindings, FactProgram.rename, List.filterMap_map, List.map_filterMap]
  exact List.filterMap_congr fun statement _ => d.binding?_rename statement

theorem Substitution.product_rename (ss ts : List Substitution) :
    product (ss.map (·.rename ρ)) (ts.map (·.rename ρ)) = (product ss ts).map (·.rename ρ) := by
  simp only [product, List.flatMap_map, List.map_flatMap, List.map_map]
  refine List.flatMap_congr fun s _ => List.map_congr_left fun t _ => ?_
  exact (rename_combine s t).symm

theorem joinedFrom_rename (running : List Substitution) (ds : List Declaration) :
    joinedFrom accepts filter (facts.rename ρ) (running.map (·.rename ρ)) (ds.map (·.rename ρ)) =
      (joinedFrom accepts filter facts running ds).map (·.rename ρ) := by
  induction ds generalizing running with
  | nil => rfl
  | cons d ds ih =>
    simp only [joinedFrom, List.map_cons, List.foldl_cons, d.bindings_rename,
      Substitution.product_rename]
    exact ih _

/-! ## Renamed selectors -/

def Context.rename (ρ : Renaming) (ctx : Context) : Context :=
  { ctx with facts := ctx.facts.rename ρ }

namespace Selector
variable {ctx : Context} {sel : Selector}

theorem keeps_rename (hρ : ρ.KeepsClashes sel.declarations) (s : Substitution) :
    (sel.rename ρ).keeps (ctx.rename ρ) (.ofDeclarations (sel.rename ρ).declarations)
        (s.rename ρ) =
      sel.keeps ctx (.ofDeclarations sel.declarations) s := by
  rw [keeps, keeps, declarations_rename, Scope.isCompletedBy_rename hρ,
    Substitution.hasDistinctFacts_rename, rename, Context.rename, Substitution.satisfies_rename]

theorem accepted_rename (hρ : ρ.KeepsClashes sel.declarations) :
    (sel.rename ρ).accepted (ctx.rename ρ) = (sel.accepted ctx).map (·.rename ρ) := by
  have hjoined : (sel.rename ρ).joined (ctx.rename ρ) = (sel.joined ctx).map (·.rename ρ) := by
    rw [joined, declarations_rename]
    exact joinedFrom_rename [.empty] sel.declarations
  rw [accepted, accepted, hjoined, List.filter_map]
  exact congrArg _ (List.filter_congr fun s _ => keeps_rename hρ s)

end Selector

/-- Two results of matching are the same but for new names. -/
inductive RenamedResult (ρ : Renaming) :
    Except Problem (List Substitution) → Except Problem (List Substitution) → Prop
  | ok {found : List Substitution} :
    RenamedResult ρ (.ok found) (.ok (found.map (·.rename ρ)))
  | error {p p' : Problem} : p.Renamed ρ p' → RenamedResult ρ (.error p) (.error p')

theorem RenamedResult.okUnless {p? p?' : Option Problem}
    (h : Option.Rel (Problem.Renamed ρ) p? p?') (found : List Substitution) :
    RenamedResult ρ (okUnless p? found) (okUnless p?' (found.map (·.rename ρ))) := by
  cases h with
  | none => exact .ok
  | some h => exact .error h

/-- With new names for the variables and facts of a header, and for the facts of a context, the
header lists the same substitutions in the same order, under the new names, or meets the same
problem. -/
theorem matchHeader_rename {h : Header} (hρ : ρ.KeepsClashes h.declarations) (ctx : Context) :
    RenamedResult ρ (matchHeader ctx h (.ofHeader h))
      (matchHeader (ctx.rename ρ) (h.rename ρ) (.ofHeader (h.rename ρ))) := by
  cases h with
  | space name => exact .ok
  | selector sel =>
    rw [Header.rename, Selector.matchHeader_eq_accepted, Selector.matchHeader_eq_accepted,
      Selector.accepted_rename hρ]
    exact .okUnless (Header.problem?_rename hρ ctx.facts) (sel.accepted ctx)

/-- The variables `U` and `v` change places, and so does their order; facts get a mark in front. -/
def swapping : Renaming where
  var := Equiv.swap "U" "v"
  fact name := "#" ++ name
  var_injective := (Equiv.swap "U" "v").injective
  fact_injective _ _ := (String.append_right_inj _).1

theorem matchHeader_rename_planeSelector :
    swapping.KeepsClashes (Header.selector planeSelector).declarations ∧
      RenamedResult swapping
        (matchHeader planeContext (.selector planeSelector) (.ofHeader (.selector planeSelector)))
        (matchHeader (planeContext.rename swapping) (.selector (planeSelector.rename swapping))
          (.ofHeader (.selector (planeSelector.rename swapping)))) ∧
      matchHeader planeContext (.selector planeSelector) (.ofHeader (.selector planeSelector)) =
        .ok [.ofList [("U", "X"), ("v", "x1")]] ∧
      matchHeader (planeContext.rename swapping) (.selector (planeSelector.rename swapping))
          (.ofHeader (.selector (planeSelector.rename swapping))) =
        .ok [.ofList [("U", "#x1"), ("v", "#X")]] := by
  have hclashes : swapping.KeepsClashes (Header.selector planeSelector).declarations := by
    decide
  exact ⟨hclashes, matchHeader_rename hclashes planeContext, rfl, rfl⟩

end Selectors
