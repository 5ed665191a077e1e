import Mathlib.Data.List.Nodup
import Selectors.Proofs.Acceptance

/-!
# How often a substitution is listed

The join has one element for every choice of candidates, and different choices may bind alike: a
fact may be declared several times, a pattern that names a fact binds nothing, and a variable that
is declared again forgets its first fact. `Selector.choices` counts the choices that lead to a
substitution, pattern by pattern. An accepted substitution is listed just so often
(`count_found_eq_choices`).
-/

namespace Selectors

variable {accepts : TypeAcceptance} {filter : NameFilter} {facts : FactProgram}

/-! ## Choices of candidates -/

/-- Whether a statement can be chosen for a declared pattern so that a substitution comes out: it
declares a fact with a type that suits, and this is the fact that the pattern names, or the one that
the substitution gives to the pattern's variable. If a `later` pattern declares the variable again,
any fact will do. -/
def Declaration.leadsTo (accepts : TypeAcceptance) (filter : NameFilter) (s : Substitution)
    (later : List Declaration) (d : Declaration) : Statement → Bool
  | .decl (.constructor type _) name =>
    filter.admits type && accepts type d.type &&
      match d.ref with
      | .fact target => target = name
      | .variable v => later.any (·.ref = .variable v) || s.get? v = some name
  | .decl (.var _) _ => false
  | .bind .. => false
  | .pred _ => false

/-- The number of ways to choose one statement for each pattern so that a substitution comes out. -/
def choices (accepts : TypeAcceptance) (filter : NameFilter) (facts : FactProgram)
    (s : Substitution) : List Declaration → Nat
  | [] => 1
  | d :: ds =>
    facts.statements.countP (d.leadsTo accepts filter s ds) * choices accepts filter facts s ds

/-- Two substitutions agree on all variables that are not declared. -/
def Substitution.AgreesOutside (ds : List Declaration) (s r : Substitution) : Prop :=
  ∀ v, Declaration.lastVariable? v ds = none → s.get? v = r.get? v

variable {d : Declaration} {ds : List Declaration} {s r : Substitution}

/-- One pattern in front, a candidate of it chosen: outside the later patterns, the substitutions
still agree if the chosen fact is the one that its variable keeps. -/
theorem Substitution.AgreesOutside.combine_iff (h : s.AgreesOutside (d :: ds) r) {name : String} :
    s.AgreesOutside ds (r.combine (d.ref.binding name)) ↔
      ∀ v, d.ref = .variable v → Declaration.lastVariable? v ds = none → s.get? v = some name := by
  simp only [AgreesOutside, get?_combine, Reference.get?_binding]
  refine ⟨fun h' v hd hv => ?_, fun hlast v hv => ?_⟩
  · rw [h' v hv, if_pos hd, Option.some_or]
  · by_cases hd : d.ref = .variable v
    · rw [hlast v hd hv, if_pos hd, Option.some_or]
    · have hnone : Declaration.lastVariable? v (d :: ds) = none := by
        rw [Declaration.lastVariable?_cons, hv, if_neg hd, Option.none_or]
      rw [h v hnone, if_neg hd, Option.none_or]

/-- A statement leads to a substitution if it binds something after which the later patterns may
still give that substitution. -/
theorem Declaration.leadsTo_iff (h : s.AgreesOutside (d :: ds) r) {statement : Statement} :
    d.leadsTo accepts filter s ds statement = true ↔
      ∃ b, d.binding? accepts filter statement = some b ∧ s.AgreesOutside ds (r.combine b) := by
  rcases statement with ⟨⟨type, args⟩ | _, name⟩ | _ | _
  case decl.constructor =>
    simp only [leadsTo, binding?, Option.ite_none_right_eq_some, Bool.and_eq_true, and_assoc,
      exists_and_left, Substitution.ofReference?_eq_some_iff, exists_eq_left', h.combine_iff]
    refine and_congr_right fun _ => and_congr_right fun _ => ?_
    cases d.ref with
    | fact target => simp [Reference.isVariable]
    | «variable» v =>
      have hlater : ds.any (·.ref = .variable v) = true ↔ lastVariable? v ds ≠ none := by
        simp [lastVariable?_eq_none_iff]
      simp [Reference.isVariable, hlater, or_iff_not_imp_left]
  all_goals simp [leadsTo, binding?]

/-! ## Counting the join -/

theorem joinedFrom_eq_flatMap (running : List Substitution) (ds : List Declaration) :
    joinedFrom accepts filter facts running ds =
      running.flatMap fun r => joinedFrom accepts filter facts [r] ds := by
  induction ds generalizing running with
  | nil => exact (List.flatMap_singleton' running).symm
  | cons d ds ih =>
    rw [joinedFrom_cons, ih, Substitution.product, List.flatMap_assoc]
    refine List.flatMap_congr fun r _ => ?_
    rw [joinedFrom_cons, ih (Substitution.product [r] _), Substitution.product,
      List.flatMap_singleton]

/-- Joining goes through the statements for the first pattern, and from each on with the others. -/
theorem joinedFrom_singleton_cons (r : Substitution) (d : Declaration) (ds : List Declaration) :
    joinedFrom accepts filter facts [r] (d :: ds) =
      facts.statements.flatMap fun statement =>
        (d.binding? accepts filter statement).toList.flatMap fun b =>
          joinedFrom accepts filter facts [r.combine b] ds := by
  rw [joinedFrom_cons, joinedFrom_eq_flatMap, Substitution.product, List.flatMap_singleton,
    List.flatMap_map, Declaration.bindings, List.filterMap_eq_flatMap_toList, List.flatMap_assoc]

theorem count_joinedFrom_eq_zero (h : ¬ s.AgreesOutside ds r) :
    (joinedFrom accepts filter facts [r] ds).count s = 0 := by
  refine List.count_eq_zero_of_not_mem fun hmem => h fun v hv => ?_
  obtain ⟨r', hr', hs⟩ := Substitution.mem_joinedFrom_iff.1 hmem
  rw [List.mem_singleton.1 hr'] at hs
  exact hs.kept hv

theorem count_flatMap_eq_countP_mul {α : Type} {f : α → List Substitution} {p : α → Bool} {n : Nat}
    (h : ∀ a, (f a).count s = if p a then n else 0) (l : List α) :
    (l.flatMap f).count s = l.countP p * n := by
  induction l with
  | nil => simp
  | cons a l ih =>
    rw [List.flatMap_cons, List.count_append, ih, h, List.countP_cons]
    split
    · rw [Nat.add_mul, Nat.one_mul, Nat.add_comm]
    · rw [Nat.add_zero, Nat.zero_add]

/-- The join gives a substitution once for each choice of candidates that leads to it. -/
theorem count_joinedFrom (h : s.AgreesOutside ds r) :
    (joinedFrom accepts filter facts [r] ds).count s = choices accepts filter facts s ds := by
  induction ds generalizing r with
  | nil =>
    have hrs : s = r := NameTable.ext_get? fun v => h v rfl
    rw [hrs]
    exact List.count_singleton_self
  | cons d ds ih =>
    have hstatement : ∀ statement,
        ((d.binding? accepts filter statement).toList.flatMap fun b =>
            joinedFrom accepts filter facts [r.combine b] ds).count s =
          if d.leadsTo accepts filter s ds statement then choices accepts filter facts s ds
          else 0 := by
      intro statement
      cases hb : d.binding? accepts filter statement with
      | none =>
        have hleads : ¬ d.leadsTo accepts filter s ds statement = true := by
          simp [Declaration.leadsTo_iff h, hb]
        rw [if_neg hleads, Option.toList_none, List.flatMap_nil, List.count_nil]
      | some b =>
        have hleads : d.leadsTo accepts filter s ds statement = true ↔
            s.AgreesOutside ds (r.combine b) := by
          simp [Declaration.leadsTo_iff h, hb]
        rw [Option.toList_some, List.flatMap_singleton]
        by_cases hagrees : s.AgreesOutside ds (r.combine b)
        · rw [if_pos (hleads.2 hagrees), ih hagrees]
        · rw [if_neg (mt hleads.1 hagrees), count_joinedFrom_eq_zero hagrees]
    rw [joinedFrom_singleton_cons, count_flatMap_eq_countP_mul hstatement, choices]

/-! ## Facts declared once -/

def Statement.declaredName? : Statement → Option String
  | .decl _ name => some name
  | .bind .. => none
  | .pred _ => none

/-- The names of the declared facts, each as often as it is declared. -/
def FactProgram.declaredNames (facts : FactProgram) : List String :=
  facts.statements.filterMap Statement.declaredName?

/-- For a pattern whose variable is not declared again, only declarations of one fact lead to a
substitution. -/
theorem Declaration.exists_declaredName_of_leadsTo (accepts : TypeAcceptance) (filter : NameFilter)
    (s : Substitution) (hd : ∀ v, d.ref = .variable v → v ∉ varsOfAll ds) :
    ∃ name, ∀ statement, d.leadsTo accepts filter s ds statement = true →
      statement.declaredName? = some name := by
  cases href : d.ref with
  | fact target =>
    refine ⟨target, ?_⟩
    rintro (⟨⟨type, args⟩ | _, name⟩ | _ | _) h
    case decl.constructor =>
      simp only [leadsTo, href, Bool.and_eq_true, decide_eq_true_eq] at h
      rw [Statement.declaredName?, h.2]
    all_goals simp [leadsTo] at h
  | «variable» v =>
    refine ⟨(s.get? v).getD "", ?_⟩
    have hlater : ds.any (·.ref = .variable v) = false := by
      simpa [mem_varsOfAll_iff] using hd v href
    rintro (⟨⟨type, args⟩ | _, name⟩ | _ | _) h
    case decl.constructor =>
      simp only [leadsTo, href, hlater, Bool.false_or, Bool.and_eq_true, decide_eq_true_eq] at h
      rw [Statement.declaredName?, h.2, Option.getD_some]
    all_goals simp [leadsTo] at h

theorem Declaration.countP_leadsTo_le_one (hfacts : facts.declaredNames.Nodup)
    (hd : ∀ v, d.ref = .variable v → v ∉ varsOfAll ds) :
    facts.statements.countP (d.leadsTo accepts filter s ds) ≤ 1 := by
  obtain ⟨name, hname⟩ := exists_declaredName_of_leadsTo accepts filter s hd
  calc facts.statements.countP (d.leadsTo accepts filter s ds)
      ≤ facts.statements.countP (fun statement => statement.declaredName? == some name) :=
        List.countP_mono_left fun statement _ h => beq_iff_eq.2 (hname statement h)
    _ = facts.declaredNames.count name := List.count_filterMap.symm
    _ ≤ 1 := List.nodup_iff_count_le_one.1 hfacts name

theorem choices_le_one (hfacts : facts.declaredNames.Nodup)
    (hds : (Declaration.varsOfAll ds).Nodup) : choices accepts filter facts s ds ≤ 1 := by
  induction ds with
  | nil => exact Nat.le_refl 1
  | cons d ds ih =>
    rw [Declaration.varsOfAll_cons, List.nodup_append] at hds
    obtain ⟨-, htail, hdisjoint⟩ := hds
    have hd : ∀ v, d.ref = .variable v → v ∉ Declaration.varsOfAll ds := by
      intro v href hmem
      exact hdisjoint v (by simp [href, Reference.vars]) v hmem rfl
    exact Nat.mul_le_mul (Declaration.countP_leadsTo_le_one hfacts hd) (ih htail)

/-! ## Counting what is listed -/

def Selector.choices (ctx : Context) (sel : Selector) (s : Substitution) : Nat :=
  Selectors.choices ctx.accepts ctx.settings.admission.types ctx.facts s sel.declarations

theorem Selector.count_accepted {ctx : Context} (sel : Selector) (hs : s ∈ sel.accepted ctx) :
    (sel.accepted ctx).count s = sel.choices ctx s := by
  obtain ⟨hjoined, hkeeps⟩ := List.mem_filter.1 hs
  have hagrees : s.AgreesOutside sel.declarations .empty := fun v hv =>
    (Substitution.mem_joined_iff.1 hjoined).kept hv
  rw [accepted, List.count_filter hkeeps]
  exact count_joinedFrom hagrees

/-- Under its own scope a selector lists each substitution as often as there are choices of
candidates that lead to it. So it lists none twice if no fact is declared twice among the facts and
the selector declares no variable twice. -/
theorem count_found_eq_choices {ctx : Context} {sel : Selector} {found : List Substitution}
    (h : matchHeader ctx (.selector sel) (.ofHeader (.selector sel)) = .ok found) :
    (∀ s ∈ found, found.count s = sel.choices ctx s) ∧
      (ctx.facts.declaredNames.Nodup → (Declaration.varsOfAll sel.declarations).Nodup →
        found.Nodup) := by
  rw [Selector.matchHeader_eq_accepted, okUnless_eq_ok_iff] at h
  obtain ⟨-, rfl⟩ := h
  have hcount : ∀ s ∈ sel.accepted ctx, (sel.accepted ctx).count s = sel.choices ctx s :=
    fun s hs => sel.count_accepted hs
  refine ⟨hcount, fun hfacts hvars => List.nodup_iff_count_le_one.2 fun s => ?_⟩
  by_cases hs : s ∈ sel.accepted ctx
  · rw [hcount s hs]
    exact choices_le_one hfacts hvars
  · rw [List.count_eq_zero_of_not_mem hs]
    exact Nat.zero_le 1

/-- The facts of `planeContext`, with `x1` declared twice and one more space. -/
def doubledContext : Context where
  facts := ⟨[.decl (.nullary "Vector") "x1", .decl (.nullary "Vector") "x1",
    .decl (.nullary "Vector") "x2", .decl (.nullary "VectorSpace") "X",
    .decl (.nullary "VectorSpace") "Y", .pred (.ofFacts "In" ["x1", "X"])]⟩
  settings := {}
  accepts type declared := type == declared

def memberSelector : Selector where
  head := [⟨"Vector", .variable "v"⟩, ⟨"VectorSpace", .variable "U"⟩]
  withDecls := [⟨"Vector", .fact "x2"⟩]
  constraints := [.pred "In" [.ref (.variable "v"), .ref (.variable "U")]]

def planeBinding : Substitution := .ofList [("U", "X"), ("v", "x1")]

/-- Two declarations of `x1` and two spaces for the first declaration of `v` make four choices. -/
theorem count_found_planeSelector :
    (matchHeader doubledContext (.selector planeSelector) (.ofHeader (.selector planeSelector)) =
        .ok (List.replicate 4 planeBinding) ∧
      (List.replicate 4 planeBinding).count planeBinding =
        planeSelector.choices doubledContext planeBinding) ∧
      matchHeader planeContext (.selector memberSelector) (.ofHeader (.selector memberSelector)) =
          .ok [planeBinding] ∧
        planeContext.facts.declaredNames.Nodup ∧
        (Declaration.varsOfAll memberSelector.declarations).Nodup ∧ [planeBinding].Nodup := by
  have hdoubled : matchHeader doubledContext (.selector planeSelector)
      (.ofHeader (.selector planeSelector)) = .ok (List.replicate 4 planeBinding) := rfl
  have honce : matchHeader planeContext (.selector memberSelector)
      (.ofHeader (.selector memberSelector)) = .ok [planeBinding] := rfl
  have hfacts : planeContext.facts.declaredNames.Nodup := by decide
  have hvars : (Declaration.varsOfAll memberSelector.declarations).Nodup := by decide
  exact ⟨⟨hdoubled, (count_found_eq_choices hdoubled).1 _ List.mem_cons_self⟩, honce, hfacts,
    hvars, (count_found_eq_choices honce).2 hfacts hvars⟩

end Selectors
