import Selectors.Proofs.Checking

/-!
# Headers matched in a batch

Headers can be matched in a batch under their own scopes, where a header stops at its first problem,
and they can be compiled, where each is checked first and all its problems are told. The batch does
not look at declarations, so both agree on every header whose declarations are not found fault with
(`matchHeaders_agrees_with_compile`).
-/

namespace Selectors

variable {v : Vocabulary} {settings : Settings} {h : Header} {i : Nat}

/-! ## Problems of constraints -/

/-- Where no declaration is found fault with, the problems of a header are those of its constraints.
-/
theorem Header.problems_eq_constraintProblems
    (hdeclarations : ∀ p ∈ h.problems v settings, p.concernsDeclaration = false) :
    h.problems v settings = constraintProblems (.ofHeader h) h.constraints := by
  cases h with
  | space name => rfl
  | selector sel =>
    rw [problems] at hdeclarations ⊢
    have hnil : (if settings.checkDeclarations then declarationProblems v [] sel.declarations
        else []) = [] := by
      refine List.eq_nil_iff_forall_not_mem.2 fun p hp => ?_
      have hfalse := hdeclarations p (List.mem_append_left _ hp)
      split at hp
      · rw [concernsDeclaration_of_mem_declarationProblems hp] at hfalse
        cases hfalse
      · cases hp
    rw [hnil, List.nil_append]
    rfl

/-! ## Batches under the headers' own scopes -/

theorem matchHeaders_ofHeader (ctx : Context) (headers : List Header) :
    matchHeaders ctx headers (headers.map Scope.ofHeader) =
      .ok ⟨headers.zipIdx.map fun (h, i) => outcomeOf ctx i h (.ofHeader h)⟩ := by
  have hzip : headers.zip (headers.map Scope.ofHeader) =
      headers.map fun h => (h, Scope.ofHeader h) := List.map_prod_left_eq_zip.symm
  rw [matchHeaders, if_neg (by simp), hzip, List.zipIdx_map, List.map_map]
  rfl

theorem outcomeOf_checkDeclarations (facts : FactProgram) (check : Bool) (scope : Scope) :
    outcomeOf (.ofVocabulary v facts { settings with checkDeclarations := check }) i h scope =
      outcomeOf (.ofVocabulary v facts settings) i h scope := by
  rw [Context.ofVocabulary_eq, Context.ofVocabulary_eq]
  cases h <;> rfl

/-- What a header becomes in a batch, and what it becomes when it is compiled: the same list of
substitutions, or the first of the reports that it has when it is compiled. -/
theorem outcomeOf_agrees (ctx : Context) (i : Nat)
    (hdeclarations : ∀ p ∈ h.problems v ctx.settings, p.concernsDeclaration = false) :
    (∃ found, outcomeOf ctx i h (.ofHeader h) = .ok found ∧
        compileHeader v ctx i h = .ok found) ∨
      ∃ d ds, outcomeOf ctx i h (.ofHeader h) = .error [d] ∧
        compileHeader v ctx i h = .error (d :: ds) := by
  have hproblems := Header.problems_eq_constraintProblems hdeclarations
  unfold compileHeader
  cases hcs : constraintProblems (.ofHeader h) h.constraints with
  | cons p ps =>
    have hmatch : matchHeader ctx h (.ofHeader h) = .error p :=
      matchHeader_eq_error_iff.2 (Header.problem?_of_cons hcs)
    rw [hproblems, hcs, outcomeOf, hmatch]
    exact .inr ⟨_, _, rfl, rfl⟩
  | nil =>
    -- Nothing is told before the facts are looked at, and then both do the same.
    rw [hproblems, hcs, outcomeOf]
    cases matchHeader ctx h (.ofHeader h) with
    | ok found => exact .inl ⟨found, rfl, rfl⟩
    | error p => exact .inr ⟨_, [], rfl, rfl⟩

/-- A batch of headers under their own scopes is always matched, whether or not declarations are to
be checked. A header whose declarations are not found fault with has the same list of substitutions
as when it is compiled, or its one report is the first of those; any other has all its reports when
it is compiled. -/
theorem matchHeaders_agrees_with_compile (v : Vocabulary) (facts : FactProgram)
    (style : StyleProgram) (settings : Settings) :
    ∃ results,
      matchHeaders (.ofVocabulary v facts settings) style.headers
          (style.headers.map Scope.ofHeader) = .ok results ∧
        matchHeaders (.ofVocabulary v facts { settings with checkDeclarations := false })
          style.headers (style.headers.map Scope.ofHeader) = .ok results ∧
        ∀ (i : Nat) (h : Header), style.headers[i]? = some h →
          ∃ outcome compiled : Outcome, results.outcomes[i]? = some outcome ∧
            (compile v facts style settings).outcomes[i]? = some compiled ∧
            ((∀ p ∈ h.problems v settings, p.concernsDeclaration = false) →
              (∀ found, outcome = .ok found ↔ compiled = .ok found) ∧
                ∀ ds ds', outcome = .error ds → compiled = .error ds' →
                  ∃ d rest, ds = [d] ∧ ds' = d :: rest) ∧
            ((∃ p ∈ h.problems v settings, p.concernsDeclaration = true) →
              compiled = .error ((h.problems v settings).map (·.toDiagnostic (some i)))) := by
  refine ⟨_, matchHeaders_ofHeader .., ?_, fun i h hi => ?_⟩
  · simp only [matchHeaders_ofHeader, outcomeOf_checkDeclarations]
  · refine ⟨outcomeOf (.ofVocabulary v facts settings) i h (.ofHeader h),
      compileHeader v (.ofVocabulary v facts settings) i h, ?_, ?_,
      fun hdeclarations => ?_, fun hdeclarations => ?_⟩
    · rw [List.getElem?_map, List.getElem?_zipIdx, hi, Option.map_some, Option.map_some,
        Nat.zero_add]
    · rw [outcomes_getElem?, hi, Option.map_some]
    · rw [Context.ofVocabulary_eq]
      obtain ⟨found, houtcome, hcompiled⟩ | ⟨d, ds, houtcome, hcompiled⟩ :=
        outcomeOf_agrees ⟨facts, settings, acceptanceOf v settings⟩ i hdeclarations
      · rw [houtcome, hcompiled]
        exact ⟨fun _ => Iff.rfl, fun ds ds' h => (nomatch h)⟩
      · rw [houtcome, hcompiled]
        refine ⟨fun found => ⟨(nomatch ·), (nomatch ·)⟩, fun es es' hes hes' => ?_⟩
        cases hes
        cases hes'
        exact ⟨d, ds, rfl, rfl⟩
    · obtain ⟨p, hp, -⟩ := hdeclarations
      rw [Context.ofVocabulary_eq]
      exact compileHeader_of_problems (List.ne_nil_of_mem hp)

def undeclaringTwo : Header :=
  .selector ⟨[⟨"A", .variable "v"⟩], [],
    [.pred "P" [.ref (.variable "w"), .ref (.variable "u")]]⟩

def declaringTwice : Header := .selector ⟨[⟨"A", .variable "v"⟩], [⟨"A", .variable "v"⟩], []⟩

theorem matchHeaders_agrees_with_compile_declaringTwice :
    (∀ p ∈ undeclaringTwo.problems ⟨["A"], []⟩ checkedSettings, p.concernsDeclaration = false) ∧
      (∃ p ∈ declaringTwice.problems ⟨["A"], []⟩ checkedSettings,
        p.concernsDeclaration = true) ∧
      ∃ results d rest,
        matchHeaders (.ofVocabulary ⟨["A"], []⟩ typedFact checkedSettings)
            [undeclaringTwo, declaringTwice]
            ([undeclaringTwo, declaringTwice].map Scope.ofHeader) = .ok results ∧
          results.outcomes = [.error [d], .ok [.ofList [("v", "a")]]] ∧
          (compile ⟨["A"], []⟩ typedFact ⟨[undeclaringTwo, declaringTwice]⟩
            checkedSettings).outcomes[0]? = some (.error (d :: rest)) ∧
          (compile ⟨["A"], []⟩ typedFact ⟨[undeclaringTwo, declaringTwice]⟩
            checkedSettings).outcomes[1]? =
              some (.error [(Problem.duplicateDeclaration "v").toDiagnostic (some 1)]) := by
  have hfirst : ∀ p ∈ undeclaringTwo.problems ⟨["A"], []⟩ checkedSettings,
      p.concernsDeclaration = false := by decide
  have hsecond : ∃ p ∈ declaringTwice.problems ⟨["A"], []⟩ checkedSettings,
      p.concernsDeclaration = true := by decide
  obtain ⟨results, hresults, -, hagree⟩ := matchHeaders_agrees_with_compile ⟨["A"], []⟩ typedFact
    ⟨[undeclaringTwo, declaringTwice]⟩ checkedSettings
  obtain ⟨outcome, compiled, houtcome, hcompiled, hsame, -⟩ := hagree 0 undeclaringTwo rfl
  obtain ⟨outcome', compiled', -, hcompiled', -, hall⟩ := hagree 1 declaringTwice rfl
  have hbatch := hresults
  cases hbatch
  cases houtcome
  cases hcompiled
  obtain ⟨d, rest, hd, hrest⟩ := (hsame hfirst).2 _ _ rfl rfl
  refine ⟨hfirst, hsecond, _, d, rest, hresults, ?_, ?_, ?_⟩
  · rw [← hd]
    rfl
  · rw [← hrest]
    rfl
  · rw [hcompiled', hall hsecond]
    rfl

end Selectors
