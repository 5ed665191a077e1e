import Selectors.Proofs.Realization

/-!
# Variables that are declared again

A later declaration of a variable overrides the earlier ones: what a selector lists meets the last
declaration of every variable (`Selector.HasOutcome.meets_last`), but not always those before it. It
meets them all if declarations are checked, since then no variable is declared twice; and, whatever
the facts are, just when nothing is listed at all or when a later declaration of a variable never
lets in a type that an earlier one keeps out (`meets_declarations_iff`).
-/

namespace Selectors

namespace Selector

/-- What is admissible for the last declaration of a variable is so for all of its declarations. -/
def Narrows (v : Vocabulary) (settings : Settings) (sel : Selector) : Prop :=
  ∀ d ∈ sel.declarations, ∀ x last, d.ref = .variable x →
    Declaration.lastVariable? x sel.declarations = some last →
      ∀ type, Admissible v settings type last.type → Admissible v settings type d.type

variable {v : Vocabulary} {facts : FactProgram} {settings : Settings} {sel : Selector}
  {found : List Substitution} {s : Substitution} {d : Declaration}

theorem HasOutcome.meets_last (h : sel.HasOutcome v facts settings (.ok found)) (hs : s ∈ found)
    {x : String} {last : Declaration}
    (hlast : Declaration.lastVariable? x sel.declarations = some last) :
    (Context.ofVocabulary v facts settings).Meets s last := by
  obtain ⟨-, -, rfl⟩ := hasOutcome_ok_iff.1 h
  rw [Context.ofVocabulary_eq]
  exact (mem_accepted_iff.1 hs).meets_lastVariable hlast

/-- The check for variables declared twice is enough. -/
theorem narrows_of_checkDeclarations (hchecks : settings.checkDeclarations = true)
    (hproblems : (Header.selector sel).problems v settings = []) : sel.Narrows v settings := by
  obtain ⟨hnodup, -⟩ := (problems_eq_nil_iff.1 hproblems).1 hchecks
  intro d hd x last href hlast type htype
  rw [Declaration.lastVariable?_of_nodup hnodup hd href] at hlast
  cases hlast
  exact htype

theorem Narrows.meets (hsel : sel.Narrows v settings)
    (h : sel.HasOutcome v facts settings (.ok found)) (hs : s ∈ found)
    (hd : d ∈ sel.declarations) : (Context.ofVocabulary v facts settings).Meets s d := by
  obtain ⟨-, -, rfl⟩ := hasOutcome_ok_iff.1 h
  have haccepts := mem_accepted_iff.1 hs
  rw [Context.ofVocabulary_eq]
  cases href : d.ref with
  | fact target => exact haccepts.meets_fact hd href
  | «variable» x =>
    obtain ⟨last, hlast⟩ := declares_iff_lastVariable?.1 ⟨d, hd, href⟩
    obtain ⟨name, hname, ⟨type, args, hmem, htype⟩, -⟩ :=
      haccepts.candidate_of_lastVariable? hlast
    exact ⟨name, href ▸ .bound hname, type, args, hmem, hsel d hd x last href hlast type htype⟩

/-- With checked declarations no pattern is overridden. -/
theorem HasOutcome.meets_of_checkDeclarations (h : sel.HasOutcome v facts settings (.ok found))
    (hs : s ∈ found) (hchecks : settings.checkDeclarations = true) (hd : d ∈ sel.declarations) :
    (Context.ofVocabulary v facts settings).Meets s d := by
  obtain ⟨hproblems, -, -⟩ := hasOutcome_ok_iff.1 h
  exact (narrows_of_checkDeclarations hchecks hproblems).meets h hs hd

/-- If a type suits the last declaration of a variable only, then there are facts for which the
selector binds the variable to a fact of just that type. -/
theorem Realizable.narrows (h : sel.Realizable v settings)
    (hmeets : ∀ facts found, sel.HasOutcome v facts settings (.ok found) →
      ∀ s ∈ found, ∀ d ∈ sel.declarations, (Context.ofVocabulary v facts settings).Meets s d) :
    sel.Narrows v settings := by
  intro d hd x last href hlast type htype
  -- With only this type, the fact that `x` is bound to meets `d` just when the type suits `d`.
  obtain ⟨varType, hx, hvar⟩ := h.exists_varType hlast htype
  obtain ⟨facts, found, s, houtcome, hs, honly⟩ := h.exists_hasOutcome hvar
  obtain ⟨name, hdenotes, hsupports⟩ := hmeets facts found houtcome s hs d hd
  rw [href] at hdenotes
  cases hdenotes with
  | bound hname => exact hx ▸ honly x name d.type hname hsupports

end Selector

/-- A substitution that a selector lists meets the last declaration of each variable, and with checked
declarations it meets all the patterns. Selectors list only substitutions that meet all their
patterns, whatever the facts are, just when they list none or no declaration is narrower than the one
that overrides it. -/
theorem meets_declarations_iff (v : Vocabulary) (settings : Settings) (sel : Selector) :
    (∀ facts found, sel.HasOutcome v facts settings (.ok found) → ∀ s ∈ found,
        (∀ x last, Declaration.lastVariable? x sel.declarations = some last →
          (Context.ofVocabulary v facts settings).Meets s last) ∧
        (settings.checkDeclarations = true → ∀ d ∈ sel.declarations,
          (Context.ofVocabulary v facts settings).Meets s d)) ∧
      ((∀ facts found, sel.HasOutcome v facts settings (.ok found) →
          ∀ s ∈ found, ∀ d ∈ sel.declarations,
            (Context.ofVocabulary v facts settings).Meets s d) ↔
        (sel.Realizable v settings → sel.Narrows v settings)) := by
  refine ⟨fun facts found h s hs => ⟨?_, ?_⟩, fun hmeets h => h.narrows hmeets, ?_⟩
  · exact fun x last hlast => h.meets_last hs hlast
  · exact fun hchecks d hd => h.meets_of_checkDeclarations hs hchecks hd
  · exact fun hsel facts found h s hs d hd => (hsel (h.realizable hs)).meets h hs hd

def twoTypes : Vocabulary := ⟨["A", "B"], []⟩

def twoFacts : FactProgram := ⟨[.decl (.nullary "A") "a", .decl (.nullary "B") "b"]⟩

def redeclaring : Selector := ⟨[⟨"A", .variable "v"⟩, ⟨"B", .variable "v"⟩], [], []⟩

theorem meets_last_redeclaring :
    redeclaring.HasOutcome twoTypes twoFacts {} (.ok [.singleton "v" "b"]) ∧
      Declaration.lastVariable? "v" redeclaring.declarations = some ⟨"B", .variable "v"⟩ ∧
      (Context.ofVocabulary twoTypes twoFacts {}).Meets (.singleton "v" "b")
        ⟨"B", .variable "v"⟩ := by
  have houtcome : redeclaring.HasOutcome twoTypes twoFacts {} (.ok [.singleton "v" "b"]) :=
    ⟨⟨[.selector redeclaring]⟩, 0, rfl, rfl⟩
  obtain ⟨hlast, -⟩ :=
    (meets_declarations_iff twoTypes {} redeclaring).1 twoFacts _ houtcome _ List.mem_cons_self
  exact ⟨houtcome, rfl, hlast "v" _ rfl⟩

theorem redeclaring_not_meets :
    redeclaring.HasOutcome twoTypes twoFacts {} (.ok [.singleton "v" "b"]) ∧
      ⟨"A", .variable "v"⟩ ∈ redeclaring.declarations ∧
      ¬ (Context.ofVocabulary twoTypes twoFacts {}).Meets (.singleton "v" "b")
        ⟨"A", .variable "v"⟩ := by
  refine ⟨⟨⟨[.selector redeclaring]⟩, 0, rfl, rfl⟩, List.mem_cons_self, ?_⟩
  intro h
  obtain ⟨name, hdenotes, type, args, hmem, -, haccepts⟩ := h
  cases hdenotes with
  | bound hname =>
    cases hname
    rcases List.mem_pair.1 hmem with heq | heq
    · simp at heq
    · cases heq
      cases haccepts

end Selectors
