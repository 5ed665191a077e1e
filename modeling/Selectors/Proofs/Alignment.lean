import Selectors.Proofs.Compilation
import Selectors.Report

/-!
# Results aligned with their headers

There is one outcome for each header. An outcome in error has something to report, and all that it
reports names the place in which it stands. Results come out so, whether headers are compiled
(`compile_aligned`) or matched in a batch (`matchHeaders_aligned`), so that errors can be told from
the reports (`Results.Aligned.hasErrors_iff`).
-/

namespace Selectors

/-! ## Reports -/

def reportsOf : Outcome → List Diagnostic
  | .ok _ => []
  | .error ds => ds

theorem Results.diagnostics_eq (r : Results) : r.diagnostics = r.outcomes.flatMap reportsOf := rfl

theorem Results.hasErrors_eq_false_iff {r : Results} :
    r.hasErrors = false ↔ ∀ outcome ∈ r.outcomes, ∃ found, outcome = .ok found := by
  rw [hasErrors, List.any_eq_false]
  refine forall₂_congr fun outcome _ => ?_
  cases outcome <;> simp

/-- If every element has reports under an index of its own, then the reports under that index are
those of the element. -/
theorem filter_selector_flatMap {α : Type} {f : α → List Diagnostic} {index : α → Nat} {l : List α}
    (hindices : (l.map index).Nodup) (hown : ∀ a ∈ l, ∀ d ∈ f a, d.selector = some (index a))
    {a : α} (ha : a ∈ l) : (l.flatMap f).filter (·.selector = some (index a)) = f a := by
  induction l with
  | nil => cases ha
  | cons b l ih =>
    rw [List.map_cons, List.nodup_cons] at hindices
    obtain ⟨hfresh, hindices⟩ := hindices
    obtain ⟨hb, hl⟩ := List.forall_mem_cons.1 hown
    rw [List.flatMap_cons, List.filter_append]
    rcases List.mem_cons.1 ha with rfl | ha
    · have hself : (f a).filter (·.selector = some (index a)) = f a :=
        List.filter_eq_self.2 fun d hd => decide_eq_true (hb d hd)
      have hrest : (l.flatMap f).filter (·.selector = some (index a)) = [] := by
        refine List.filter_eq_nil_iff.2 fun d hd => ?_
        obtain ⟨c, hc, hd⟩ := List.mem_flatMap.1 hd
        have hne : index c ≠ index a := fun heq => hfresh (heq ▸ List.mem_map_of_mem hc)
        simpa [hl c hc d hd] using hne
      rw [hself, hrest, List.append_nil]
    · have hne : index b ≠ index a := fun heq => hfresh (heq ▸ List.mem_map_of_mem ha)
      have hnil : (f b).filter (·.selector = some (index a)) = [] :=
        List.filter_eq_nil_iff.2 fun d hd => by simpa [hb d hd] using hne
      rw [hnil, List.nil_append, ih hindices hl ha]

theorem filter_selector_zipIdx {α : Type} {f : α × Nat → List Diagnostic} {l : List α}
    (hown : ∀ entry ∈ l.zipIdx, ∀ d ∈ f entry, d.selector = some entry.2) {i : Nat} {a : α}
    (ha : l[i]? = some a) : (l.zipIdx.flatMap f).filter (·.selector = some i) = f (a, i) := by
  have hindices : (l.zipIdx.map (·.2)).Nodup := by
    rw [List.zipIdx_map_snd]
    exact List.nodup_range'
  exact filter_selector_flatMap hindices hown (List.mk_mem_zipIdx_iff_getElem?.2 ha)

/-! ## Aligned results -/

/-- An outcome that stands in place `i` has something to report if it is in error, and all of it
concerns selector `i`. -/
structure ReportsAt (i : Nat) (outcome : Outcome) : Prop where
  ne_nil : outcome ≠ .error []
  selector_eq : ∀ d ∈ reportsOf outcome, d.selector = some i

/-- There is one outcome for each header, and each reports in its place. -/
structure Results.Aligned (headers : List Header) (r : Results) : Prop where
  length_eq : r.outcomes.length = headers.length
  reportsAt : ∀ {i outcome}, r.outcomes[i]? = some outcome → ReportsAt i outcome

theorem ReportsAt.reportsOf_eq_nil_iff {i : Nat} {outcome : Outcome} (h : ReportsAt i outcome) :
    reportsOf outcome = [] ↔ ∃ found, outcome = .ok found := by
  cases outcome with
  | ok found => exact ⟨fun _ => ⟨found, rfl⟩, fun _ => rfl⟩
  | error ds =>
    refine ⟨fun hnil => ?_, fun hok => ?_⟩
    · cases (hnil : ds = [])
      exact absurd rfl h.ne_nil
    · obtain ⟨found, hok⟩ := hok
      cases hok

theorem reportsAt_error {i : Nat} {ps : List Problem} (h : ps ≠ []) :
    ReportsAt i (.error (ps.map (·.toDiagnostic (some i)))) := by
  refine ⟨fun hnil => h ?_, fun d hd => ?_⟩
  · exact List.map_eq_nil_iff.1 (Except.error.inj hnil)
  · obtain ⟨p, -, rfl⟩ := List.mem_map.1 hd
    rfl

theorem reportsAt_outcomeOf (ctx : Context) (i : Nat) (h : Header) (scope : Scope) :
    ReportsAt i (outcomeOf ctx i h scope) := by
  rw [outcomeOf]
  cases matchHeader ctx h scope with
  | ok found => exact ⟨nofun, nofun⟩
  | error p => exact reportsAt_error (List.cons_ne_nil p [])

theorem reportsAt_compileHeader (v : Vocabulary) (ctx : Context) (i : Nat) (h : Header) :
    ReportsAt i (compileHeader v ctx i h) := by
  unfold compileHeader
  split
  case h_1 => exact reportsAt_outcomeOf ctx i h _
  case h_2 ps hps => exact reportsAt_error hps

theorem compile_aligned (v : Vocabulary) (facts : FactProgram) (style : StyleProgram)
    (settings : Settings) : (compile v facts style settings).Aligned style.headers := by
  refine ⟨by simp [compile], fun {i outcome} houtcome => ?_⟩
  rw [outcomes_getElem?, Option.map_eq_some_iff] at houtcome
  obtain ⟨h, -, rfl⟩ := houtcome
  exact reportsAt_compileHeader ..

theorem matchHeaders_eq_ok_iff {ctx : Context} {headers : List Header} {scopes : List Scope}
    {r : Results} :
    matchHeaders ctx headers scopes = .ok r ↔ headers.length = scopes.length ∧
      r.outcomes = (headers.zip scopes).mapIdx fun i (h, scope) => outcomeOf ctx i h scope := by
  obtain ⟨outcomes⟩ := r
  rw [matchHeaders, List.mapIdx_eq_zipIdx_map]
  split
  case isTrue hne => simp [hne]
  case isFalse heq => simp [not_not.1 heq, eq_comm]

theorem matchHeaders_aligned {ctx : Context} {headers : List Header} {scopes : List Scope}
    {r : Results} (hr : matchHeaders ctx headers scopes = .ok r) : r.Aligned headers := by
  obtain ⟨hlength, houtcomes⟩ := matchHeaders_eq_ok_iff.1 hr
  refine ⟨by simp [houtcomes, hlength], fun {i outcome} houtcome => ?_⟩
  rw [houtcomes, List.getElem?_mapIdx, Option.map_eq_some_iff] at houtcome
  obtain ⟨⟨h, scope⟩, -, rfl⟩ := houtcome
  exact reportsAt_outcomeOf ctx i h scope

/-! ## Errors -/

namespace Results
variable {headers : List Header} {r : Results}

theorem Aligned.diagnostics_eq_nil_iff (hr : r.Aligned headers) :
    r.diagnostics = [] ↔ ∀ outcome ∈ r.outcomes, ∃ found, outcome = .ok found := by
  rw [diagnostics_eq, List.flatMap_eq_nil_iff]
  refine forall₂_congr fun outcome houtcome => ?_
  obtain ⟨i, hi⟩ := List.mem_iff_getElem?.1 houtcome
  exact (hr.reportsAt hi).reportsOf_eq_nil_iff

theorem Aligned.hasErrors_iff (hr : r.Aligned headers) :
    r.hasErrors = true ↔ r.diagnostics ≠ [] := by
  rw [ne_eq, hr.diagnostics_eq_nil_iff, ← hasErrors_eq_false_iff, Bool.not_eq_false]

end Results

end Selectors
