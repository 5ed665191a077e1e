import Selectors.Pattern

/-!
# The last declaration of a name

A name may be declared several times, as a variable and as a fact. `Declaration.lastNamed?` is its
last declaration of either kind, which a scope keeps; `Declaration.lastVariable?` is its last
declaration as a variable, from whose candidates the variable takes its fact. Where the former is a
variable, both are the same (`Declaration.lastVariable?_of_lastNamed?`).
-/

namespace Selectors

theorem Reference.mem_vars_iff {v : String} {r : Reference} : v ∈ r.vars ↔ r = .variable v := by
  cases r <;> simp [vars, eq_comm]

namespace Declaration
variable {name : String} {d : Declaration} {ds : List Declaration}

theorem findRev?_cons (p : Declaration → Bool) (d : Declaration) (ds : List Declaration) :
    (d :: ds).findRev? p = (ds.findRev? p).or (if p d then some d else none) := by
  cases h : p d <;> simp [h]

/-- The last pattern that declares a name, as a variable or as a fact. -/
def lastNamed? (name : String) (ds : List Declaration) : Option Declaration :=
  ds.findRev? (·.ref.name = name)

theorem lastNamed?_cons (name : String) (d : Declaration) (ds : List Declaration) :
    lastNamed? name (d :: ds) =
      (lastNamed? name ds).or (if d.ref.name = name then some d else none) := by
  simp only [lastNamed?, findRev?_cons, decide_eq_true_eq]

theorem mem_of_lastNamed? (h : lastNamed? name ds = some d) : d ∈ ds ∧ d.ref.name = name := by
  rw [lastNamed?, List.findRev?_eq_find?_reverse] at h
  exact ⟨List.mem_reverse.1 (List.mem_of_find?_eq_some h), by simpa using List.find?_some h⟩

theorem lastNamed?_eq_none_iff : lastNamed? name ds = none ↔ ∀ d ∈ ds, d.ref.name ≠ name := by
  simp [lastNamed?]

def lastVariable? (name : String) (ds : List Declaration) : Option Declaration :=
  ds.findRev? (·.ref = .variable name)

theorem lastVariable?_cons (name : String) (d : Declaration) (ds : List Declaration) :
    lastVariable? name (d :: ds) =
      (lastVariable? name ds).or (if d.ref = .variable name then some d else none) := by
  simp only [lastVariable?, findRev?_cons, decide_eq_true_eq]

theorem mem_of_lastVariable? (h : lastVariable? name ds = some d) :
    d ∈ ds ∧ d.ref = .variable name := by
  rw [lastVariable?, List.findRev?_eq_find?_reverse] at h
  exact ⟨List.mem_reverse.1 (List.mem_of_find?_eq_some h), by simpa using List.find?_some h⟩

theorem lastVariable?_eq_none_iff :
    lastVariable? name ds = none ↔ ∀ d ∈ ds, d.ref ≠ .variable name := by
  simp [lastVariable?]

theorem lastVariable?_of_lastNamed? (h : lastNamed? name ds = some d)
    (hd : d.ref = .variable name) : lastVariable? name ds = some d := by
  induction ds with
  | nil => cases h
  | cons d' ds ih =>
    rw [lastNamed?_cons] at h
    rw [lastVariable?_cons]
    cases hlast : lastNamed? name ds with
    | some d'' =>
      rw [hlast, Option.some_or] at h
      rw [ih (hlast.trans h), Option.some_or]
    | none =>
      rw [hlast, Option.none_or, Option.ite_none_right_eq_some] at h
      obtain ⟨-, ⟨⟩⟩ := h
      have hnone : lastVariable? name ds = none := by
        refine lastVariable?_eq_none_iff.2 fun e he heq => ?_
        exact lastNamed?_eq_none_iff.1 hlast e he (heq ▸ rfl)
      rw [hnone, Option.none_or, if_pos hd]

/-! ## Declared variables -/

def varsOfAll (ds : List Declaration) : List String := ds.flatMap (·.ref.vars)

theorem varsOfAll_cons (d : Declaration) (ds : List Declaration) :
    varsOfAll (d :: ds) = d.ref.vars ++ varsOfAll ds := rfl

theorem mem_varsOfAll_iff : name ∈ varsOfAll ds ↔ ∃ d ∈ ds, d.ref = .variable name := by
  simp only [varsOfAll, List.mem_flatMap, Reference.mem_vars_iff]

theorem varsOfAll_sublist_names (ds : List Declaration) :
    (varsOfAll ds).Sublist (ds.map (·.ref.name)) := by
  induction ds with
  | nil => exact .slnil
  | cons d ds ih =>
    rw [varsOfAll_cons, List.map_cons]
    cases d.ref with
    | fact target => exact .cons _ ih
    | «variable» v => exact .cons_cons _ ih

theorem eq_of_nodup_varsOfAll {d' : Declaration} (h : (varsOfAll ds).Nodup) (hd : d ∈ ds)
    (hd' : d' ∈ ds) (href : d.ref = .variable name) (href' : d'.ref = .variable name) :
    d = d' := by
  induction ds with
  | nil => cases hd
  | cons e ds ih =>
    rw [varsOfAll_cons, List.nodup_append] at h
    obtain ⟨-, htail, hdisjoint⟩ := h
    have hhead : ∀ {e'}, e' ∈ ds → e'.ref = .variable name → e.ref ≠ .variable name := by
      intro e' he' href' href
      have hmem : name ∈ e.ref.vars := by simp [href, Reference.vars]
      exact hdisjoint name hmem name (mem_varsOfAll_iff.2 ⟨e', he', href'⟩) rfl
    rcases List.mem_cons.1 hd, List.mem_cons.1 hd' with ⟨heq | hmem, heq' | hmem'⟩
    · rw [heq, heq']
    · exact absurd (heq ▸ href) (hhead hmem' href')
    · exact absurd (heq' ▸ href') (hhead hmem href)
    · exact ih htail hmem hmem'

/-- Where no variable is declared twice, a pattern is the last one that declares its variable. -/
theorem lastVariable?_of_nodup (h : (varsOfAll ds).Nodup) (hd : d ∈ ds)
    (href : d.ref = .variable name) : lastVariable? name ds = some d := by
  cases hlast : lastVariable? name ds with
  | none => exact absurd href (lastVariable?_eq_none_iff.1 hlast d hd)
  | some d' =>
    obtain ⟨hd', href'⟩ := mem_of_lastVariable? hlast
    rw [eq_of_nodup_varsOfAll h hd hd' href href']

end Declaration

end Selectors
