import Mathlib.Data.List.Nodup
import Mathlib.Data.List.Sort
import Selectors.Substitution

/-!
# Substitutions as maps

A substitution is read through `NameTable.get?`. The lemmas here say what the operations on
substitutions do to that view, and what the tests on the lists of names and values mean for it
(`Substitution.hasDistinctFacts_iff`).
-/

namespace Selectors

namespace NameTable
variable {α : Type}

theorem names_sorted (t : NameTable α) : t.names.Pairwise (· < ·) :=
  List.pairwise_map.2 t.sorted

theorem entries_nodup (t : NameTable α) : t.entries.Nodup :=
  t.sorted.imp fun {a b} (h : a.1 < b.1) (heq : a = b) => String.lt_irrefl b.1 (heq ▸ h)

theorem not_mem_names_iff {t : NameTable α} {name : String} :
    name ∉ t.names ↔ t.get? name = none := by
  rw [mem_names_iff, Option.eq_none_iff_forall_ne_some, not_exists]

theorem get?_foldl_insert_map (f : String → α) (names : List String) (t : NameTable α)
    (name : String) :
    ((names.map fun x => (x, f x)).foldl (fun t entry => t.insert entry.1 entry.2) t).get? name =
      if name ∈ names then some (f name) else t.get? name := by
  induction names generalizing t with
  | nil => simp
  | cons x names ih =>
    rw [List.map_cons, List.foldl_cons, ih, get?_insert]
    by_cases h : name = x <;> simp [h]

theorem mem_values_iff {t : NameTable α} {value : α} :
    value ∈ t.values ↔ ∃ name, t.get? name = some value := by
  simp only [values, List.mem_map, Prod.exists, mem_entries_iff]
  exact ⟨fun ⟨name, _, h, heq⟩ => ⟨name, heq ▸ h⟩, fun ⟨name, h⟩ => ⟨name, _, h, rfl⟩⟩

/-- The table without the entry of a name. -/
def erase (t : NameTable α) (name : String) : NameTable α :=
  ⟨t.entries.filter (·.1 ≠ name), t.sorted.filter _⟩

@[simp] theorem get?_erase (t : NameTable α) (name other : String) :
    (t.erase name).get? other = if other = name then none else t.get? other := by
  refine Option.ext fun value => ?_
  rw [← mem_entries_iff, erase, List.mem_filter, mem_entries_iff]
  by_cases h : other = name <;> simp [h]

end NameTable

namespace Substitution

def ofFunction (f : String → String) (vars : List String) : Substitution :=
  .ofList (vars.map fun v => (v, f v))

@[simp] theorem get?_ofFunction (f : String → String) (vars : List String) (name : String) :
    (ofFunction f vars).get? name = if name ∈ vars then some (f name) else none :=
  NameTable.get?_foldl_insert_map ..

@[simp] theorem get?_singleton (var fact name : String) :
    (singleton var fact).get? name = if name = var then some fact else none :=
  NameTable.get?_insert ..

@[simp] theorem get?_combine (s t : Substitution) (name : String) :
    (s.combine t).get? name = (t.get? name).or (s.get? name) :=
  NameTable.get?_union ..

@[simp] theorem mem_product {s : Substitution} {ss ts : List Substitution} :
    s ∈ product ss ts ↔ ∃ a ∈ ss, ∃ b ∈ ts, a.combine b = s := by
  simp [product]

theorem hasDistinctFacts_iff {s : Substitution} :
    s.hasDistinctFacts = true ↔
      ∀ v w x, s.get? v = some x → s.get? w = some x → v = w := by
  rw [hasDistinctFacts, decide_eq_true_eq, NameTable.values,
    List.nodup_map_iff_inj_on s.entries_nodup]
  simp only [Prod.forall, NameTable.mem_entries_iff]
  refine ⟨fun h v w x hv hw => congrArg Prod.fst (h v x hv w x hw rfl), ?_⟩
  intro h v x hv w y hw (hxy : x = y)
  cases hxy
  rw [h v w x hv hw]

end Substitution

end Selectors
