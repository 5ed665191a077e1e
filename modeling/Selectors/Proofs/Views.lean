import Selectors.Proofs.Batches

/-!
# The views of results

Results are read in many ways: as a flag, as a sequence of reports, as one result for the whole, as
a record for each header, and as an exit code. Some of these look at the outcomes and some at the
reports alone, so an outcome in error with nothing to report would set them apart. Of aligned
results all views agree (`Results.Aligned.viewsAgree`), and all results are (`views_agree`).
-/

namespace Selectors

/-! ## The views -/

/-- The views of results agree with the outcomes, header by header: the flag; the reports, which
come in the order of the headers; the one result for the whole; the record for each header. -/
structure Results.ViewsAgree (headers : List Header) (r : Results) : Prop where
  length_eq : r.outcomes.length = headers.length
  error_nil_notMem : Except.error [] ∉ r.outcomes
  selector_eq : ∀ (i : Nat) (ds : List Diagnostic), r.outcomes[i]? = some (.error ds) →
    ∀ d ∈ ds, d.selector = some i
  hasErrors_iff : r.hasErrors = true ↔ r.diagnostics ≠ []
  diagnostics_eq : r.diagnostics = r.outcomes.flatMap reportsOf
  ordered : r.diagnostics.Pairwise fun d d' =>
    ∀ i j, d.selector = some i → d'.selector = some j → i ≤ j
  filter_diagnostics : ∀ (i : Nat) (outcome : Outcome), r.outcomes[i]? = some outcome →
    r.diagnostics.filter (·.selector = some i) = reportsOf outcome
  toExcept_eq_error_iff : ∀ ds, r.toExcept = .error ds ↔ r.hasErrors = true ∧ r.diagnostics = ds
  toExcept_eq_ok_iff : ∀ lists, r.toExcept = .ok lists ↔ r.outcomes = lists.map .ok
  report_length : (r.toReport ⟨headers⟩).selectors.length = headers.length
  report_of_ok : ∀ (i : Nat) (h : Header) (found : List Substitution), headers[i]? = some h →
    r.outcomes[i]? = some (.ok found) →
      (r.toReport ⟨headers⟩).selectors[i]? = some ⟨i, h.text, found, []⟩
  report_of_error : ∀ (i : Nat) (h : Header) (ds : List Diagnostic), headers[i]? = some h →
    r.outcomes[i]? = some (.error ds) →
      (r.toReport ⟨headers⟩).selectors[i]? = some ⟨i, h.text, [], ds⟩
  report_errors_iff : ∀ (i : Nat) (entry : HeaderReport),
    (r.toReport ⟨headers⟩).selectors[i]? = some entry →
      (entry.errors ≠ [] ↔ ∃ ds, r.outcomes[i]? = some (.error ds))

namespace Results
variable {headers : List Header} {r : Results} {i : Nat} {h : Header} {outcome : Outcome}

/-! The sequence of reports -/

theorem diagnostics_eq_zipIdx (r : Results) :
    r.diagnostics = r.outcomes.zipIdx.flatMap fun entry => reportsOf entry.1 := by
  rw [diagnostics_eq, ← List.flatMap_map Prod.fst reportsOf, List.zipIdx_map_fst]

theorem Aligned.selector_of_mem (hr : r.Aligned headers) :
    ∀ entry ∈ r.outcomes.zipIdx, ∀ d ∈ reportsOf entry.1, d.selector = some entry.2 :=
  fun _ hentry => (hr.reportsAt (List.mk_mem_zipIdx_iff_getElem?.1 hentry)).selector_eq

theorem Aligned.filter_diagnostics (hr : r.Aligned headers) (hi : r.outcomes[i]? = some outcome) :
    r.diagnostics.filter (·.selector = some i) = reportsOf outcome := by
  rw [diagnostics_eq_zipIdx]
  exact filter_selector_zipIdx hr.selector_of_mem hi

theorem Aligned.diagnostics_ordered (hr : r.Aligned headers) :
    r.diagnostics.Pairwise fun d d' =>
      ∀ i j, d.selector = some i → d'.selector = some j → i ≤ j := by
  have hindices : (r.outcomes.zipIdx.map (·.2)).Pairwise (· < ·) := by
    rw [List.zipIdx_map_snd]
    exact List.pairwise_lt_range'
  rw [diagnostics_eq_zipIdx, List.pairwise_flatMap]
  refine ⟨fun entry hentry => ?_, (List.pairwise_map.1 hindices).imp_of_mem ?_⟩
  · refine List.pairwise_of_forall_mem_list fun d hd d' hd' i j hi hj => ?_
    rw [hr.selector_of_mem entry hentry d hd] at hi
    rw [hr.selector_of_mem entry hentry d' hd'] at hj
    cases hi
    cases hj
    exact le_rfl
  · intro entry entry' hentry hentry' hlt d hd d' hd' i j hi hj
    rw [hr.selector_of_mem entry hentry d hd] at hi
    rw [hr.selector_of_mem entry' hentry' d' hd'] at hj
    cases hi
    cases hj
    exact hlt.le

/-! One result for the whole -/

/-- The lists come behind the lists there were, and the reports behind the reports. -/
theorem foldl_collect (outcomes : List Outcome) (lists : List (List Substitution))
    (reports : List Diagnostic) :
    outcomes.foldl collect (lists, reports) =
      (lists ++ outcomes.filterMap Except.toOption, reports ++ outcomes.flatMap reportsOf) := by
  induction outcomes generalizing lists reports with
  | nil => simp
  | cons outcome outcomes ih =>
    rw [List.foldl_cons]
    cases outcome with
    | ok found =>
      rw [collect, ih, List.append_assoc]
      rfl
    | error ds =>
      rw [collect, ih, List.append_assoc]
      rfl

theorem toExcept_eq (r : Results) :
    r.toExcept =
      if r.diagnostics.isEmpty then .ok (r.outcomes.filterMap Except.toOption)
      else .error r.diagnostics := by
  rw [toExcept, foldl_collect, diagnostics_eq]
  rfl

theorem Aligned.toExcept_eq_error_iff (hr : r.Aligned headers) {ds : List Diagnostic} :
    r.toExcept = .error ds ↔ r.hasErrors = true ∧ r.diagnostics = ds := by
  rw [toExcept_eq, hr.hasErrors_iff, ne_eq, ← List.isEmpty_iff]
  split <;> simp [*]

theorem map_ok_filterMap_toOption {outcomes : List Outcome}
    (h : ∀ outcome ∈ outcomes, ∃ found, outcome = .ok found) :
    (outcomes.filterMap Except.toOption).map .ok = outcomes := by
  induction outcomes with
  | nil => rfl
  | cons outcome outcomes ih =>
    obtain ⟨⟨found, rfl⟩, hrest⟩ := List.forall_mem_cons.1 h
    exact congrArg (.ok found :: ·) (ih hrest)

theorem Aligned.toExcept_eq_ok_iff (hr : r.Aligned headers) {lists : List (List Substitution)} :
    r.toExcept = .ok lists ↔ r.outcomes = lists.map .ok := by
  refine ⟨fun hok => ?_, fun houtcomes => ?_⟩
  · rw [toExcept_eq] at hok
    split at hok
    case isTrue hempty =>
      cases hok
      have hfound := hr.diagnostics_eq_nil_iff.1 (List.isEmpty_iff.1 hempty)
      exact (map_ok_filterMap_toOption hfound).symm
    case isFalse => cases hok
  · have hnil : r.diagnostics = [] := by
      rw [diagnostics_eq, houtcomes, List.flatMap_map, List.flatMap_eq_nil_iff]
      exact fun _ _ => rfl
    rw [toExcept_eq, hnil, houtcomes, List.filterMap_map]
    exact congrArg Except.ok (List.filterMap_some)

/-! The record for each header -/

theorem selectors_toReport_eq_some_iff {entry : HeaderReport} :
    (r.toReport ⟨headers⟩).selectors[i]? = some entry ↔
      ∃ outcome h, r.outcomes[i]? = some outcome ∧ headers[i]? = some h ∧
        .ofOutcome i h outcome = entry := by
  simp [toReport, List.getElem?_zip_eq_some, and_assoc]

theorem Aligned.viewsAgree (hr : r.Aligned headers) : r.ViewsAgree headers where
  length_eq := hr.length_eq
  error_nil_notMem hmem := by
    obtain ⟨i, hi⟩ := List.mem_iff_getElem?.1 hmem
    exact (hr.reportsAt hi).ne_nil rfl
  selector_eq i ds hi := (hr.reportsAt hi).selector_eq
  hasErrors_iff := hr.hasErrors_iff
  diagnostics_eq := r.diagnostics_eq
  ordered := hr.diagnostics_ordered
  filter_diagnostics i outcome hi := hr.filter_diagnostics hi
  toExcept_eq_error_iff ds := hr.toExcept_eq_error_iff
  toExcept_eq_ok_iff lists := hr.toExcept_eq_ok_iff
  report_length := by simp [toReport, hr.length_eq]
  report_of_ok i h found hh hi := selectors_toReport_eq_some_iff.2 ⟨_, h, hi, hh, rfl⟩
  report_of_error i h ds hh hi := selectors_toReport_eq_some_iff.2 ⟨_, h, hi, hh, rfl⟩
  report_errors_iff i entry hentry := by
    obtain ⟨outcome, h, hi, -, rfl⟩ := selectors_toReport_eq_some_iff.1 hentry
    rw [hi]
    cases outcome with
    | ok found => simp [HeaderReport.ofOutcome]
    | error ds =>
      have hne : ds ≠ [] := fun hnil => (hr.reportsAt hi).ne_nil (congrArg Except.error hnil)
      simp [HeaderReport.ofOutcome, hne]

end Results

/-! ## Outcomes in place -/

/-- An outcome with its reports put under another index. -/
def reindexed (i : Nat) (outcome : Outcome) : Outcome :=
  outcome.mapError (List.map fun d => { d with selector := some i })

theorem reindexed_outcomeOf (ctx : Context) (i j : Nat) (h : Header) (scope : Scope) :
    reindexed i (outcomeOf ctx j h scope) = outcomeOf ctx i h scope := by
  rw [outcomeOf, outcomeOf]
  cases matchHeader ctx h scope <;> rfl

theorem reindexed_compileHeader (v : Vocabulary) (ctx : Context) (i j : Nat) (h : Header) :
    reindexed i (compileHeader v ctx j h) = compileHeader v ctx i h := by
  unfold compileHeader
  split
  case h_1 => exact reindexed_outcomeOf ..
  case h_2 ps _ =>
    rw [reindexed, Except.mapError, List.map_map]
    rfl

/-- The views of results agree, whether a style program was compiled or headers were matched under
scopes of their own. Each outcome stands in the place of its header: it is what the header comes to
alone, reported under its index. The command exits with 0 just when the results of the loaded
documents have no errors, whatever it writes. -/
theorem views_agree :
    (∀ (v : Vocabulary) (facts : FactProgram) (style : StyleProgram) (settings : Settings),
      (compile v facts style settings).ViewsAgree style.headers ∧
        ∀ (i : Nat) (h : Header), style.headers[i]? = some h →
          ∃ alone, (compile v facts ⟨[h]⟩ settings).outcomes = [alone] ∧
            (compile v facts style settings).outcomes[i]? = some (reindexed i alone)) ∧
      (∀ (ctx : Context) (headers : List Header) (scopes : List Scope) (r : Results),
        matchHeaders ctx headers scopes = .ok r →
          r.ViewsAgree headers ∧
            ∀ (i : Nat) (h : Header) (scope : Scope), headers[i]? = some h →
              scopes[i]? = some scope →
                ∃ alone, matchHeaders ctx [h] [scope] = .ok ⟨[alone]⟩ ∧
                  r.outcomes[i]? = some (reindexed i alone)) ∧
      ∀ (files : Files) (vocabularyPath factsPath stylePath : String)
          (settingsPath : Option String) (v : Vocabulary) (facts : FactProgram)
          (style : StyleProgram) (settings : Settings),
        files.loadSettings settingsPath = .ok settings →
          files.load Vocabulary.load vocabularyPath = .ok v →
            files.load FactProgram.load factsPath = .ok facts →
              files.load StyleProgram.load stylePath = .ok style →
                ∀ format : OutputFormat,
                  ((Invocation.matching vocabularyPath factsPath stylePath settingsPath format).run
                      files).exitCode = 0 ↔
                    (compile v facts style settings).hasErrors = false := by
  refine ⟨?_, ?_, ?_⟩
  · intro v facts style settings
    refine ⟨(compile_aligned v facts style settings).viewsAgree, ?_⟩
    intro i h hi
    refine ⟨_, rfl, ?_⟩
    rw [reindexed_compileHeader, outcomes_getElem?, hi, Option.map_some]
  · intro ctx headers scopes r hr
    refine ⟨(matchHeaders_aligned hr).viewsAgree, ?_⟩
    intro i h scope hh hscope
    have hzip : (headers.zip scopes)[i]? = some (h, scope) :=
      List.getElem?_zip_eq_some.2 ⟨hh, hscope⟩
    refine ⟨_, rfl, ?_⟩
    rw [(matchHeaders_eq_ok_iff.1 hr).2, List.getElem?_mapIdx, hzip, Option.map_some]
    exact congrArg some (reindexed_outcomeOf ..).symm
  · intro files vocabularyPath factsPath stylePath settingsPath v facts style settings hsettings hv
      hfacts hstyle format
    rw [Invocation.exitCode_matching_eq_zero_iff, hasErrors_compile_eq_false_iff]
    refine ⟨fun h => ?_, fun h => ⟨settings, v, facts, style, hsettings, hv, hfacts, hstyle, h⟩⟩
    obtain ⟨settings', v', facts', style', hsettings', hv', hfacts', hstyle', h⟩ := h
    cases hsettings.symm.trans hsettings'
    cases hv.symm.trans hv'
    cases hfacts.symm.trans hfacts'
    cases hstyle.symm.trans hstyle'
    exact h

theorem views_agree_undeclaring :
    (∃ r, matchHeaders (.ofVocabulary .empty typedFact {})
          [.selector declaring, .selector undeclaring]
          [.ofHeader (.selector declaring), .ofHeader (.selector undeclaring)] = .ok r ∧
        r.outcomes = [.ok [.ofList [("v", "a")]], .error [undeclaredReport]] ∧
        r.toExcept = .error r.diagnostics ∧
        (r.toReport ⟨[.selector declaring, .selector undeclaring]⟩).selectors[1]? =
          some ⟨1, (Header.selector undeclaring).text, [], [undeclaredReport]⟩) ∧
      ∃ v facts style, declaringFiles.load Vocabulary.load "vocabulary" = .ok v ∧
        declaringFiles.load FactProgram.load "facts" = .ok facts ∧
        declaringFiles.load StyleProgram.load "style" = .ok style ∧
        (compile v facts style {}).hasErrors = false ∧
        ((Invocation.matching "vocabulary" "facts" "style" none .json).run
          declaringFiles).exitCode = 0 := by
  obtain ⟨-, hbatches, hcommand⟩ := views_agree
  obtain ⟨hviews, -⟩ := hbatches (.ofVocabulary .empty typedFact {})
    [.selector declaring, .selector undeclaring]
    [.ofHeader (.selector declaring), .ofHeader (.selector undeclaring)] _ rfl
  refine ⟨⟨_, rfl, rfl, (hviews.toExcept_eq_error_iff _).2 ⟨rfl, rfl⟩,
    hviews.report_of_error 1 _ _ rfl rfl⟩, ?_⟩
  -- The exit code of the one format tells that there are no errors, and so that of the other.
  have htext : ((Invocation.matching "vocabulary" "facts" "style" none .text).run
      declaringFiles).exitCode = 0 := by decide +kernel
  obtain ⟨settings, v, facts, style, hsettings, hv, hfacts, hstyle, -⟩ :=
    Invocation.exitCode_matching_eq_zero_iff.1 htext
  cases hsettings
  have hformats := hcommand declaringFiles "vocabulary" "facts" "style" none v facts style {} rfl
    hv hfacts hstyle
  have hok := (hformats .text).1 htext
  exact ⟨v, facts, style, hv, hfacts, hstyle, hok, (hformats .json).2 hok⟩

end Selectors
