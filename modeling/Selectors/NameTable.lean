/-!
# Tables keyed by names

A `NameTable` maps names to values. Its entries are sorted by name, in code-point order, and no name
occurs twice, so a table is determined by what it maps each name to. Main definitions:
`NameTable.insert`, `NameTable.get?`, `NameTable.union`. Main lemmas: `NameTable.get?_insert`,
`NameTable.get?_union`, `NameTable.ext_get?`.
-/

namespace Selectors

/-- A finite map from names, listed in the order of the names. -/
structure NameTable (α : Type) where
  entries : List (String × α)
  sorted : entries.Pairwise fun a b => a.1 < b.1
  deriving DecidableEq

namespace NameTable
variable {α : Type}

theorem ext {s t : NameTable α} (h : s.entries = t.entries) : s = t := by
  cases s; cases t; cases h; rfl

def empty : NameTable α := ⟨[], .nil⟩

instance : Inhabited (NameTable α) := ⟨empty⟩

def names (t : NameTable α) : List String := t.entries.map (·.1)

def values (t : NameTable α) : List α := t.entries.map (·.2)

def size (t : NameTable α) : Nat := t.entries.length

def get? (t : NameTable α) (name : String) : Option α := t.entries.lookup name

/-! ## Insertion -/

/-- Puts an entry at its place in a sorted list, over an entry of the same name. -/
def insertEntry (name : String) (value : α) : List (String × α) → List (String × α)
  | [] => [(name, value)]
  | entry :: rest =>
    if name < entry.1 then (name, value) :: entry :: rest
    else if entry.1 < name then entry :: insertEntry name value rest
    else (name, value) :: rest

theorem eq_of_not_lt {a b : String} (h : ¬ a < b) (h' : ¬ b < a) : a = b :=
  String.le_antisymm (String.not_lt.1 h') (String.not_lt.1 h)

theorem mem_insertEntry {name : String} {value : α} {entry : String × α} :
    ∀ {entries : List (String × α)}, entry ∈ insertEntry name value entries →
      entry = (name, value) ∨ entry ∈ entries
  | [], h => .inl (by simpa [insertEntry] using h)
  | first :: rest, h => by
    unfold insertEntry at h
    split at h
    · simpa using h
    · split at h
      · rcases List.mem_cons.1 h with h | h
        · exact .inr (h ▸ List.mem_cons_self)
        · exact (mem_insertEntry h).imp_right (List.mem_cons_of_mem _)
      · rcases List.mem_cons.1 h with h | h
        · exact .inl h
        · exact .inr (List.mem_cons_of_mem _ h)

theorem sorted_insertEntry {name : String} {value : α} :
    ∀ {entries : List (String × α)}, entries.Pairwise (fun a b => a.1 < b.1) →
      (insertEntry name value entries).Pairwise fun a b => a.1 < b.1
  | [], _ => by simp [insertEntry]
  | first :: rest, h => by
    obtain ⟨hfirst, hrest⟩ := List.pairwise_cons.1 h
    unfold insertEntry
    split
    case isTrue hlt =>
      refine List.pairwise_cons.2 ⟨fun e he => ?_, h⟩
      rcases List.mem_cons.1 he with rfl | he
      · exact hlt
      · exact String.lt_trans hlt (hfirst e he)
    case isFalse hnlt =>
      split
      case isTrue hgt =>
        refine List.pairwise_cons.2 ⟨fun e he => ?_, sorted_insertEntry hrest⟩
        rcases mem_insertEntry he with rfl | he
        · exact hgt
        · exact hfirst e he
      case isFalse hngt =>
        have heq : name = first.1 := eq_of_not_lt hnlt hngt
        exact List.pairwise_cons.2 ⟨fun e he => heq ▸ hfirst e he, hrest⟩

def insert (t : NameTable α) (name : String) (value : α) : NameTable α :=
  ⟨insertEntry name value t.entries, sorted_insertEntry t.sorted⟩

/-- The table of a list of entries, in which the last entry of a name counts. -/
def ofList (entries : List (String × α)) : NameTable α :=
  entries.foldl (fun t entry => t.insert entry.1 entry.2) empty

/-- The entries of both tables; where both have a name, the second one counts. -/
def union (s t : NameTable α) : NameTable α :=
  t.entries.foldl (fun u entry => u.insert entry.1 entry.2) s

/-! ## Looking names up -/

@[simp] theorem get?_empty (name : String) : (empty : NameTable α).get? name = none := rfl

theorem lookup_cons_eq_ite (name : String) (entry : String × α) (rest : List (String × α)) :
    (entry :: rest).lookup name = if name = entry.1 then some entry.2 else rest.lookup name := by
  obtain ⟨first, value⟩ := entry
  rw [List.lookup_cons]
  by_cases h : name = first
  · simp [h]
  · simp [h, beq_eq_false_iff_ne.2 h]

theorem lookup_insertEntry {name other : String} {value : α} :
    ∀ {entries : List (String × α)}, (insertEntry name value entries).lookup other =
      if other = name then some value else entries.lookup other
  | [] => lookup_cons_eq_ite ..
  | first :: rest => by
    unfold insertEntry
    split
    · exact lookup_cons_eq_ite ..
    · split
      case isTrue hgt =>
        have hne : first.1 ≠ name := fun heq => String.lt_irrefl _ (heq ▸ hgt)
        rw [lookup_cons_eq_ite, lookup_cons_eq_ite, lookup_insertEntry]
        by_cases h : other = first.1
        · simp [h, hne]
        · simp [h]
      case isFalse hnlt hngt =>
        have heq : name = first.1 := eq_of_not_lt hnlt hngt
        rw [lookup_cons_eq_ite, lookup_cons_eq_ite, ← heq]
        by_cases h : other = name <;> simp [h]

theorem get?_insert (t : NameTable α) (name other : String) (value : α) :
    (t.insert name value).get? other = if other = name then some value else t.get? other :=
  lookup_insertEntry

theorem lookup_eq_none_of_lt {name : String} :
    ∀ {entries : List (String × α)}, (∀ e ∈ entries, name < e.1) → entries.lookup name = none
  | [], _ => rfl
  | first :: rest, h => by
    have hne : name ≠ first.1 := fun heq =>
      String.lt_irrefl first.1 (heq ▸ h first List.mem_cons_self)
    rw [lookup_cons_eq_ite, if_neg hne]
    exact lookup_eq_none_of_lt fun e he => h e (List.mem_cons_of_mem _ he)

theorem get?_foldl_insert (name : String) :
    ∀ {entries : List (String × α)}, entries.Pairwise (fun a b => a.1 < b.1) → ∀ s : NameTable α,
      (entries.foldl (fun u entry => u.insert entry.1 entry.2) s).get? name =
        (entries.lookup name).or (s.get? name)
  | [], _, s => by simp
  | first :: rest, h, s => by
    obtain ⟨hfirst, hrest⟩ := List.pairwise_cons.1 h
    rw [List.foldl_cons, get?_foldl_insert name hrest, get?_insert, lookup_cons_eq_ite]
    by_cases hn : name = first.1
    · simp [hn, lookup_eq_none_of_lt hfirst]
    · simp [hn]

theorem get?_union (s t : NameTable α) (name : String) :
    (s.union t).get? name = (t.get? name).or (s.get? name) :=
  get?_foldl_insert name t.sorted s

/-! ## Tables as maps -/

theorem mem_entries_of_lookup {name : String} {value : α} :
    ∀ {entries : List (String × α)}, entries.lookup name = some value → (name, value) ∈ entries
  | first :: rest, h => by
    rw [lookup_cons_eq_ite] at h
    split at h
    case isTrue hn =>
      cases h
      exact hn ▸ List.mem_cons_self
    case isFalse => exact List.mem_cons_of_mem _ (mem_entries_of_lookup h)

theorem lookup_of_mem_entries {name : String} {value : α} :
    ∀ {entries : List (String × α)}, entries.Pairwise (fun a b => a.1 < b.1) →
      (name, value) ∈ entries → entries.lookup name = some value
  | first :: rest, h, hmem => by
    obtain ⟨hfirst, hrest⟩ := List.pairwise_cons.1 h
    rw [lookup_cons_eq_ite]
    rcases List.mem_cons.1 hmem with rfl | hmem
    · simp
    · have hne : name ≠ first.1 := fun heq => String.lt_irrefl first.1 (heq ▸ hfirst _ hmem)
      rw [if_neg hne]
      exact lookup_of_mem_entries hrest hmem

theorem mem_entries_iff {t : NameTable α} {name : String} {value : α} :
    (name, value) ∈ t.entries ↔ t.get? name = some value :=
  ⟨lookup_of_mem_entries t.sorted, mem_entries_of_lookup⟩

theorem mem_names_iff {t : NameTable α} {name : String} :
    name ∈ t.names ↔ ∃ value, t.get? name = some value := by
  simp only [names, List.mem_map, Prod.exists, ← mem_entries_iff]
  exact ⟨fun ⟨n, v, h, he⟩ => ⟨v, he ▸ h⟩, fun ⟨v, h⟩ => ⟨name, v, h, rfl⟩⟩

theorem entries_eq_of_lookup_eq :
    ∀ {as bs : List (String × α)}, as.Pairwise (fun a b => a.1 < b.1) →
      bs.Pairwise (fun a b => a.1 < b.1) → (∀ name, as.lookup name = bs.lookup name) → as = bs
  | [], [], _, _, _ => rfl
  | [], b :: bs, _, _, h => by simpa [lookup_cons_eq_ite] using h b.1
  | a :: as, [], _, _, h => by simpa [lookup_cons_eq_ite] using h a.1
  | a :: as, b :: bs, ha, hb, h => by
    obtain ⟨haf, har⟩ := List.pairwise_cons.1 ha
    obtain ⟨hbf, hbr⟩ := List.pairwise_cons.1 hb
    have key : ∀ {x y : String × α} {xs ys : List (String × α)}, (∀ e ∈ ys, y.1 < e.1) →
        (x :: xs).lookup x.1 = (y :: ys).lookup x.1 → ¬ x.1 < y.1 := by
      intro x y xs ys hy he hlt
      have hnone : (y :: ys).lookup x.1 = none := lookup_eq_none_of_lt fun e hmem => by
        rcases List.mem_cons.1 hmem with rfl | hmem
        · exact hlt
        · exact String.lt_trans hlt (hy e hmem)
      rw [hnone, lookup_cons_eq_ite] at he
      simp at he
    have hname : a.1 = b.1 :=
      eq_of_not_lt (key hbf (h a.1)) (key haf (h b.1).symm)
    have hvalue : a.2 = b.2 := by simpa [lookup_cons_eq_ite, hname] using h a.1
    have hentry : a = b := Prod.ext hname hvalue
    subst hentry
    refine congrArg (a :: ·) (entries_eq_of_lookup_eq har hbr fun name => ?_)
    by_cases hn : name = a.1
    · rw [hn, lookup_eq_none_of_lt haf, lookup_eq_none_of_lt hbf]
    · simpa [lookup_cons_eq_ite, hn] using h name

/-- Two tables that map every name alike are equal. -/
theorem ext_get? {s t : NameTable α} (h : ∀ name, s.get? name = t.get? name) : s = t :=
  ext (entries_eq_of_lookup_eq s.sorted t.sorted h)

end NameTable

end Selectors
