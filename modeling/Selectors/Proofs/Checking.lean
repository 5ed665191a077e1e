import Selectors.CommandLine
import Selectors.Proofs.Alignment

/-!
# What a check tells about a run

A check walks the headers of a style program without facts, a run walks them with facts. A header
that the check finds fault with has the same reports in the run, and any other header is matched or
stopped by a declaration with a type variable among the facts (`compileHeader_cases`). So the check
foretells what the run reports (`check_predicts_compile`).
-/

namespace Selectors

variable {v : Vocabulary} {settings : Settings} {style : StyleProgram} {facts : FactProgram}

/-! ## Reports of a check -/

/-- What a check reports about a header. -/
def Header.reports (v : Vocabulary) (settings : Settings) (index : Nat) (h : Header) :
    List Diagnostic :=
  (h.problems v settings).map (·.toDiagnostic (some index))

theorem Header.reports_eq_nil_iff {index : Nat} {h : Header} :
    h.reports v settings index = [] ↔ h.problems v settings = [] :=
  List.map_eq_nil_iff

theorem Header.selector_of_mem_reports {index : Nat} {h : Header} {d : Diagnostic}
    (hd : d ∈ h.reports v settings index) : d.selector = some index := by
  obtain ⟨p, -, rfl⟩ := List.mem_map.1 hd
  rfl

namespace StyleProgram

def reports (v : Vocabulary) (settings : Settings) (style : StyleProgram) : List Diagnostic :=
  style.headers.zipIdx.flatMap fun (h, index) => h.reports v settings index

theorem check_eq (v : Vocabulary) (style : StyleProgram) (settings : Settings) :
    style.check v settings =
      if (style.reports v settings).isEmpty then
        .ok ⟨style.headers.length - style.headers.countP (·.isNamespace),
          style.headers.countP (·.isNamespace)⟩
      else .error (style.reports v settings) := rfl

theorem exists_check_eq_ok_iff :
    (∃ summary, style.check v settings = .ok summary) ↔ style.reports v settings = [] := by
  rw [check_eq, ← List.isEmpty_iff]
  split <;> simp [*]

theorem check_eq_error_iff {ds : List Diagnostic} :
    style.check v settings = .error ds ↔ ds ≠ [] ∧ style.reports v settings = ds := by
  rw [check_eq]
  split
  case isTrue hempty =>
    simp only [reduceCtorEq, false_iff, not_and, List.isEmpty_iff.1 hempty]
    exact fun hne heq => hne heq.symm
  case isFalse hne =>
    simp only [Except.error.injEq, iff_and_self]
    rintro rfl heq
    exact hne (List.isEmpty_iff.2 heq)

/-- Every header is counted once, as a selector or as a namespace. -/
theorem length_eq_of_check_eq_ok {summary : CheckSummary}
    (h : style.check v settings = .ok summary) :
    summary.selectors + summary.namespaces = style.headers.length := by
  rw [check_eq] at h
  split at h
  case isTrue =>
    cases h
    exact Nat.sub_add_cancel List.countP_le_length
  case isFalse => cases h

theorem reports_eq_nil_iff :
    style.reports v settings = [] ↔ ∀ h ∈ style.headers, h.problems v settings = [] := by
  simp only [reports, List.flatMap_eq_nil_iff, Header.reports_eq_nil_iff, Prod.forall]
  refine ⟨fun hstyle h hh => ?_, fun hstyle h i hi => hstyle h (List.fst_mem_of_mem_zipIdx hi)⟩
  obtain ⟨i, hi⟩ := List.mem_iff_getElem?.1 hh
  exact hstyle h i (List.mk_mem_zipIdx_iff_getElem?.2 hi)

/-- Among all reports, those that name a header are the reports about it. -/
theorem filter_reports {i : Nat} {h : Header} (hi : style.headers[i]? = some h) :
    (style.reports v settings).filter (·.selector = some i) = h.reports v settings i := by
  exact filter_selector_zipIdx (fun _ _ _ hd => Header.selector_of_mem_reports hd) hi

end StyleProgram

/-! ## Reports of a run -/

theorem diagnostics_compile (v : Vocabulary) (facts : FactProgram) (style : StyleProgram)
    (settings : Settings) :
    (compile v facts style settings).diagnostics = style.headers.zipIdx.flatMap fun (h, i) =>
      reportsOf (compileHeader v (.ofVocabulary v facts settings) i h) := by
  rw [Results.diagnostics_eq, compile, List.flatMap_map]

theorem Header.constraintProblems_eq_nil {h : Header} (hproblems : h.problems v settings = []) :
    constraintProblems (.ofHeader h) h.constraints = [] := by
  cases h with
  | space name => rfl
  | selector sel => exact (Selector.problems_eq_nil_iff.1 hproblems).2

/-- A header that a check finds fault with is not matched and keeps its reports. -/
theorem compileHeader_of_problems {ctx : Context} {i : Nat} {h : Header}
    (hproblems : h.problems v ctx.settings ≠ []) :
    compileHeader v ctx i h = .error (h.reports v ctx.settings i) := by
  unfold compileHeader Header.reports
  cases hps : h.problems v ctx.settings with
  | nil => exact absurd hps hproblems
  | cons p ps => rfl

/-- What becomes of a header: the check finds fault with it, and these are its reports; or it is
matched; or the first declaration with a type variable among the facts stops it. -/
theorem compileHeader_cases (v : Vocabulary) (ctx : Context) (i : Nat) (h : Header) :
    (h.problems v ctx.settings ≠ [] ∧
        compileHeader v ctx i h = .error (h.reports v ctx.settings i)) ∨
      (h.problems v ctx.settings = [] ∧ ∃ found, compileHeader v ctx i h = .ok found) ∨
        (h.problems v ctx.settings = [] ∧ ∃ p, ctx.facts.typeVariable? = some p ∧
          compileHeader v ctx i h = .error [p.toDiagnostic (some i)]) := by
  by_cases hproblems : h.problems v ctx.settings = []
  · refine .inr ?_
    unfold compileHeader outcomeOf
    rw [hproblems]
    cases hmatch : matchHeader ctx h (.ofHeader h) with
    | ok found => exact .inl ⟨rfl, found, rfl⟩
    | error p =>
      have hp := matchHeader_eq_error_iff.1 hmatch
      rw [Header.problem?_eq_some_iff (Header.constraintProblems_eq_nil hproblems)] at hp
      exact .inr ⟨rfl, p, hp.2, rfl⟩
  · exact .inl ⟨hproblems, compileHeader_of_problems hproblems⟩

theorem reportsOf_compileHeader {ctx : Context} (hfacts : ctx.facts.typeVariable? = none) (i : Nat)
    (h : Header) : reportsOf (compileHeader v ctx i h) = h.reports v ctx.settings i := by
  obtain ⟨-, heq⟩ | ⟨hproblems, found, heq⟩ | ⟨-, p, hp, -⟩ := compileHeader_cases v ctx i h
  · rw [heq, reportsOf]
  · rw [heq, reportsOf, Header.reports, hproblems, List.map_nil]
  · rw [hfacts] at hp
    cases hp

theorem hasErrors_compile_eq_false_iff :
    (compile v facts style settings).hasErrors = false ↔
      (compile v facts style settings).diagnostics = [] := by
  rw [(compile_aligned v facts style settings).diagnostics_eq_nil_iff]
  exact Results.hasErrors_eq_false_iff

theorem diagnostics_compile_eq_reports (hfacts : facts.typeVariable? = none) :
    (compile v facts style settings).diagnostics = style.reports v settings := by
  rw [diagnostics_compile, StyleProgram.reports, Context.ofVocabulary_eq]
  refine List.flatMap_congr fun entry _ => ?_
  exact reportsOf_compileHeader hfacts entry.2 entry.1

theorem reports_eq_nil_of_diagnostics_eq_nil
    (hnil : (compile v facts style settings).diagnostics = []) :
    style.reports v settings = [] := by
  rw [diagnostics_compile, List.flatMap_eq_nil_iff, Context.ofVocabulary_eq] at hnil
  rw [StyleProgram.reports, List.flatMap_eq_nil_iff]
  rintro ⟨h, i⟩ hmem
  obtain ⟨found, hok⟩ := (reportsAt_compileHeader v _ i h).reportsOf_eq_nil_iff.1 (hnil _ hmem)
  exact Header.reports_eq_nil_iff.2 (compileHeader_eq_ok_iff.1 hok).1

/-- Where the check finds no fault, nothing but type variables among the facts is reported. -/
theorem code_of_mem_diagnostics (hstyle : style.reports v settings = []) {d : Diagnostic}
    (hd : d ∈ (compile v facts style settings).diagnostics) : d.code = "E-TYPE" := by
  rw [diagnostics_compile, Context.ofVocabulary_eq, List.mem_flatMap] at hd
  obtain ⟨⟨h, i⟩, hmem, hd⟩ := hd
  have hproblems : h.problems v settings = [] :=
    StyleProgram.reports_eq_nil_iff.1 hstyle h (List.fst_mem_of_mem_zipIdx hmem)
  obtain ⟨hne, -⟩ | ⟨-, found, heq⟩ | ⟨-, p, hp, heq⟩ :=
    compileHeader_cases v ⟨facts, settings, acceptanceOf v settings⟩ i h
  · exact absurd hproblems hne
  · simp [heq, reportsOf] at hd
  · obtain ⟨type, name, -, rfl⟩ := FactProgram.firstTypeVariable_of_eq_some hp
    simp only [heq, reportsOf, List.mem_singleton] at hd
    rw [hd]
    rfl

/-! ## The two commands -/

theorem RunResult.exitCode_ofReports_eq_zero_iff {lines : List String} {ds : List Diagnostic} :
    (RunResult.ofReports lines ds).exitCode = 0 ↔ ds = [] := by
  cases ds <;> simp [RunResult.ofReports]

namespace Invocation
variable {files : Files} {vocabularyPath factsPath stylePath : String}
  {settingsPath : Option String} {format : OutputFormat}

/-- Matching succeeds when all documents can be loaded and there is nothing to report. -/
theorem exitCode_matching_eq_zero_iff :
    ((matching vocabularyPath factsPath stylePath settingsPath format).run files).exitCode = 0 ↔
      ∃ settings v facts style, files.loadSettings settingsPath = .ok settings ∧
        files.load Vocabulary.load vocabularyPath = .ok v ∧
        files.load FactProgram.load factsPath = .ok facts ∧
        files.load StyleProgram.load stylePath = .ok style ∧
        (compile v facts style settings).diagnostics = [] := by
  -- A document that cannot be loaded is reported, which leaves the case in which all are.
  cases hsettings : files.loadSettings settingsPath <;>
    cases hv : files.load Vocabulary.load vocabularyPath <;>
    cases hfacts : files.load FactProgram.load factsPath <;>
    cases hstyle : files.load StyleProgram.load stylePath <;>
    simp [run, hsettings, hv, hfacts, hstyle, bind, Except.bind, pure, Except.pure,
      RunResult.exitCode_ofReports_eq_zero_iff]

/-- Checking succeeds when all documents can be loaded and no fault is found. -/
theorem exitCode_checking_eq_zero_iff :
    ((checking vocabularyPath stylePath settingsPath).run files).exitCode = 0 ↔
      ∃ settings v style, files.loadSettings settingsPath = .ok settings ∧
        files.load Vocabulary.load vocabularyPath = .ok v ∧
        files.load StyleProgram.load stylePath = .ok style ∧ style.reports v settings = [] := by
  cases hsettings : files.loadSettings settingsPath <;>
    cases hv : files.load Vocabulary.load vocabularyPath <;>
    cases hstyle : files.load StyleProgram.load stylePath <;>
    simp [run, hsettings, hv, hstyle, bind, Except.bind, pure, Except.pure,
      RunResult.exitCode_ofReports_eq_zero_iff]
  case ok.ok.ok settings v style =>
    rw [StyleProgram.check_eq]
    cases style.reports v settings <;> simp [RunResult.exitCode_ofReports_eq_zero_iff]

end Invocation

/-! ## What the check foretells -/

/-- Where no fact is declared with a type variable, a check succeeds just when a run meets no error,
and else reports the same, in the same order. Whatever the facts are, a header that the check finds
fault with keeps its reports in the run, and if there is none, only type variables are reported. So
files that can be matched without errors can be checked without errors. -/
theorem check_predicts_compile :
    (∀ (v : Vocabulary) (style : StyleProgram) (settings : Settings),
      (∀ facts : FactProgram, (∀ type name, .decl (.var type) name ∉ facts.statements) →
          ((∃ summary, style.check v settings = .ok summary) ↔
              (compile v facts style settings).hasErrors = false) ∧
            ∀ ds, style.check v settings = .error ds →
              (compile v facts style settings).diagnostics = ds) ∧
        (∀ summary, style.check v settings = .ok summary →
          summary.selectors + summary.namespaces = style.headers.length ∧
            ∀ facts, ∀ d ∈ (compile v facts style settings).diagnostics, d.code = "E-TYPE") ∧
        ∀ i h, style.headers[i]? = some h → h.problems v settings ≠ [] →
          ∃ ds, style.check v settings = .error ds ∧
            ds.filter (·.selector = some i) =
              (h.problems v settings).map (·.toDiagnostic (some i)) ∧
            ∀ facts, (compile v facts style settings).outcomes[i]? =
              some (.error (ds.filter (·.selector = some i)))) ∧
      ∀ (files : Files) (vocabularyPath factsPath stylePath : String)
          (settingsPath : Option String) (format : OutputFormat),
        ((Invocation.matching vocabularyPath factsPath stylePath settingsPath format).run
            files).exitCode = 0 →
          ((Invocation.checking vocabularyPath stylePath settingsPath).run files).exitCode = 0 := by
  refine ⟨fun v style settings => ⟨fun facts hfacts => ⟨?_, fun ds hds => ?_⟩,
    fun summary hsummary => ⟨?_, fun facts d hd => ?_⟩, fun i h hi hproblems => ?_⟩, ?_⟩
  · rw [StyleProgram.exists_check_eq_ok_iff, hasErrors_compile_eq_false_iff,
      diagnostics_compile_eq_reports (FactProgram.typeVariable?_eq_none_iff.2 hfacts)]
  · rw [diagnostics_compile_eq_reports (FactProgram.typeVariable?_eq_none_iff.2 hfacts)]
    exact (StyleProgram.check_eq_error_iff.1 hds).2
  · exact StyleProgram.length_eq_of_check_eq_ok hsummary
  · exact code_of_mem_diagnostics (StyleProgram.exists_check_eq_ok_iff.1 ⟨summary, hsummary⟩) hd
  · have hreports : style.reports v settings ≠ [] := fun hnil =>
      hproblems (StyleProgram.reports_eq_nil_iff.1 hnil h (List.mem_of_getElem? hi))
    refine ⟨_, StyleProgram.check_eq_error_iff.2 ⟨hreports, rfl⟩,
      StyleProgram.filter_reports hi, fun facts => ?_⟩
    rw [StyleProgram.filter_reports hi, outcomes_getElem?, hi, Option.map_some,
      Context.ofVocabulary_eq]
    exact congrArg some (compileHeader_of_problems hproblems)
  · intro files vocabularyPath factsPath stylePath settingsPath format hmatching
    obtain ⟨settings, v, facts, style, hsettings, hv, -, hstyle, hnil⟩ :=
      Invocation.exitCode_matching_eq_zero_iff.1 hmatching
    exact Invocation.exitCode_checking_eq_zero_iff.2
      ⟨settings, v, style, hsettings, hv, hstyle, reports_eq_nil_of_diagnostics_eq_nil hnil⟩

def undeclaring : Selector := ⟨[⟨"A", .variable "v"⟩], [], [.pred "P" [.ref (.variable "w")]]⟩

def declaring : Selector := ⟨[⟨"A", .variable "v"⟩], [], []⟩

def undeclaredReport : Diagnostic :=
  (Problem.undeclaredVariable "w" "P(w)").toDiagnostic (some 1)

def typedFact : FactProgram := ⟨[.decl (.nullary "A") "a"]⟩

def untypedFact : FactProgram := ⟨[.decl (.var "t") "a"]⟩

/-- A namespace and the selector `declaring`, which has a fact to list. -/
def declaringFiles : Files := fun path =>
  [("vocabulary", "[]"), ("facts", "[[[\"decl\",[\"constructor\",\"A\"],\"a\"]]]"),
    ("style", "[[[\"namespace\",\"N\"],[\"selector\",[[\"A\",[\"pattern\",\"v\"]]]]]]")].lookup path

theorem check_predicts_undeclaring :
    (StyleProgram.check .empty ⟨[.space "N", .selector undeclaring]⟩ {} =
        .error [undeclaredReport] ∧
      (compile .empty typedFact ⟨[.space "N", .selector undeclaring]⟩ {}).diagnostics =
        [undeclaredReport] ∧
      (compile .empty untypedFact ⟨[.space "N", .selector undeclaring]⟩ {}).outcomes[1]? =
        some (.error [undeclaredReport])) ∧
      (StyleProgram.check .empty ⟨[.space "N", .selector declaring]⟩ {} = .ok ⟨1, 1⟩ ∧
        (compile .empty typedFact ⟨[.space "N", .selector declaring]⟩ {}).hasErrors = false ∧
        ∀ d ∈ (compile .empty untypedFact ⟨[.space "N", .selector declaring]⟩ {}).diagnostics,
          d.code = "E-TYPE") ∧
      ((Invocation.matching "vocabulary" "facts" "style" none .text).run
          declaringFiles).exitCode = 0 ∧
        ((Invocation.checking "vocabulary" "style" none).run declaringFiles).exitCode = 0 := by
  have htyped : ∀ type name, .decl (.var type) name ∉ typedFact.statements := by
    simp [typedFact, FactType.nullary]
  have hundeclaring : StyleProgram.check .empty ⟨[.space "N", .selector undeclaring]⟩ {} =
      .error [undeclaredReport] := rfl
  have hdeclaring : StyleProgram.check .empty ⟨[.space "N", .selector declaring]⟩ {} =
      .ok ⟨1, 1⟩ := rfl
  have hmatching : ((Invocation.matching "vocabulary" "facts" "style" none .text).run
      declaringFiles).exitCode = 0 := by decide +kernel
  obtain ⟨hstyles, hcommands⟩ := check_predicts_compile
  obtain ⟨hagree, -, hkept⟩ := hstyles .empty ⟨[.space "N", .selector undeclaring]⟩ {}
  obtain ⟨hagree', hok, -⟩ := hstyles .empty ⟨[.space "N", .selector declaring]⟩ {}
  refine ⟨⟨hundeclaring, (hagree typedFact htyped).2 _ hundeclaring, ?_⟩,
    ⟨hdeclaring, (hagree' typedFact htyped).1.1 ⟨_, hdeclaring⟩, (hok _ hdeclaring).2 untypedFact⟩,
    hmatching, hcommands _ _ _ _ _ _ hmatching⟩
  obtain ⟨ds, hds, -, houtcome⟩ := hkept 1 (.selector undeclaring) rfl (List.cons_ne_nil _ _)
  obtain rfl : [undeclaredReport] = ds := Except.error.inj (hundeclaring.symm.trans hds)
  exact houtcome untypedFact

end Selectors
