import Selectors.Proofs.Compilation

/-!
# Bindings that shadowing loses

`Selector.Binds` says what a substitution has to do for a selector, with no regard to the order in
which the selector declares names. Once the declarations are checked, a selector lists all of these
or none: none if it declares a variable and, after that, a fact of the same name
(`mem_found_iff_binds`). The check for variables declared twice does not see this.
-/

namespace Selectors

namespace Selector

/-- A substitution binds the variables of a selector as its patterns and constraints ask for. -/
structure Binds (ctx : Context) (sel : Selector) (s : Substitution) : Prop where
  names : ∀ v, v ∈ s.names ↔ sel.Declares v
  meets : ∀ d ∈ sel.declarations, ctx.Meets s d
  constraints : ∀ c ∈ sel.constraints, ctx.Satisfies s c
  distinct : ∀ v w name, s.get? v = some name → s.get? w = some name → v = w

variable {ctx : Context} {sel : Selector} {s : Substitution}

theorem Binds.accepts (h : sel.Binds ctx s) (hsel : sel.Unshadowed) : sel.Accepts ctx s := by
  refine ⟨fun d hd => ?_, h.names, hsel, fun v name hname => ?_, h.constraints, h.distinct⟩
  · obtain ⟨name, hdenotes, hsupports⟩ := h.meets d hd
    refine ⟨name, hsupports, ?_⟩
    cases hd : d.ref with
    | «variable» v => exact .inl rfl
    | fact target =>
      rw [hd] at hdenotes
      cases hdenotes
      exact .inr rfl
  · obtain ⟨d, hlast, hvar⟩ := hsel v ((h.names v).1 (NameTable.mem_names_iff.2 ⟨name, hname⟩))
    obtain ⟨name', hdenotes, hsupports⟩ := h.meets d (Declaration.mem_of_lastNamed? hlast).1
    rw [hvar] at hdenotes
    cases hdenotes with
    | bound hname' =>
      obtain rfl : name = name' := Option.some.inj (hname.symm.trans hname')
      exact ⟨d, hlast, hsupports, .inl (by rw [hvar]; rfl)⟩

theorem Accepts.binds (h : sel.Accepts ctx s)
    (hnodup : (Declaration.varsOfAll sel.declarations).Nodup) : sel.Binds ctx s := by
  refine ⟨h.names, fun d hd => ?_, h.constraints, h.distinct⟩
  cases href : d.ref with
  | fact target => exact h.meets_fact hd href
  | «variable» v => exact h.meets_lastVariable (Declaration.lastVariable?_of_nodup hnodup hd href)

end Selector

/-- With checked declarations, a selector without shadowed variables lists all substitutions that
bind its variables, and any other selector lists none. -/
theorem mem_found_iff_binds {v : Vocabulary} {facts : FactProgram} {settings : Settings}
    {sel : Selector} {found : List Substitution} (hchecks : settings.checkDeclarations = true)
    (h : sel.HasOutcome v facts settings (.ok found)) (s : Substitution) :
    s ∈ found ↔ sel.Unshadowed ∧ sel.Binds (.ofVocabulary v facts settings) s := by
  obtain ⟨hproblems, -, rfl⟩ := Selector.hasOutcome_ok_iff.1 h
  obtain ⟨hnodup, -⟩ := (Selector.problems_eq_nil_iff.1 hproblems).1 hchecks
  rw [Selector.mem_accepted_iff, Context.ofVocabulary_eq]
  exact ⟨fun hs => ⟨hs.unshadowed, hs.binds hnodup⟩, fun h => h.2.accepts h.1⟩

/-! ## A variable and a fact of the same name -/

def oneType : Vocabulary := ⟨["A"], []⟩

def oneFact : FactProgram := ⟨[.decl (.nullary "A") "v"]⟩

def factFirst : Selector := ⟨[⟨"A", .fact "v"⟩, ⟨"A", .variable "v"⟩], [], []⟩

def factLast : Selector := ⟨[⟨"A", .variable "v"⟩, ⟨"A", .fact "v"⟩], [], []⟩

theorem binds_factFirst :
    factFirst.HasOutcome oneType oneFact checkedSettings (.ok [.singleton "v" "v"]) ∧
      factFirst.Unshadowed ∧
      factFirst.Binds (.ofVocabulary oneType oneFact checkedSettings) (.singleton "v" "v") := by
  have h : factFirst.HasOutcome oneType oneFact checkedSettings (.ok [.singleton "v" "v"]) :=
    ⟨⟨[.selector factFirst]⟩, 0, rfl, rfl⟩
  exact ⟨h, (mem_found_iff_binds rfl h _).1 List.mem_cons_self⟩

/-- Nothing is wrong with the selector, and it lists nothing, although its variable can be bound. -/
theorem factLast_loses_binding :
    (Header.selector factLast).problems oneType checkedSettings = [] ∧
      factLast.HasOutcome oneType oneFact checkedSettings (.ok []) ∧
      factLast.Binds (.ofVocabulary oneType oneFact checkedSettings) (.singleton "v" "v") := by
  have hsupports : (Context.ofVocabulary oneType oneFact checkedSettings).Supports "A" "v" :=
    ⟨"A", [], List.mem_cons_self, rfl, rfl⟩
  refine ⟨rfl, ⟨⟨[.selector factLast]⟩, 0, rfl, rfl⟩, fun x => ?_, fun d hd => ?_, nofun, ?_⟩
  · simp [NameTable.mem_names_iff, Selector.Declares, factLast, Selector.declarations, eq_comm]
  · rcases List.mem_pair.1 hd with rfl | rfl
    · exact ⟨"v", .bound rfl, hsupports⟩
    · exact ⟨"v", .fact, hsupports⟩
  · intro x y name hx hy
    simp only [Substitution.get?_singleton, Option.ite_none_right_eq_some] at hx hy
    rw [hx.1, hy.1]

end Selectors
