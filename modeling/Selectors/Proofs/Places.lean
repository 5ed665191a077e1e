import Selectors.Proofs.Enumeration

/-!
# Places in trees of arguments

A place is the way from a tree to one of its parts, and names stand at some of the places.
`ListedInOrder` says of a list that it has just these names, in the order of their places. What a
walk over a tree collects is such a list (`ListedInOrder.tree`, `ListedInOrder.row`); without the
names that were met before, it has each name where it stands first (`ListedInOrder.eraseDups`).
-/

namespace Selectors

/-! ## Places and what stands there -/

/-- The number of an argument, of an argument of that one, and so on. Places are ordered as lists of
numbers: a part stands before its arguments, and these stand from left to right. -/
abbrev Place := List Nat

section
variable {α : Type}

/-- The name at a place of a tree. The arguments of a part are `args`, and `own` is the name that
stands at the part itself, if one does. -/
def nameAt? (args : α → List α) (own : α → Option String) (x : α) : Place → Option String
  | [] => own x
  | i :: place => (args x)[i]?.bind (nameAt? args own · place)

/-- The name at a place of a row, of which the first number tells the item; `at?` has the names at
the places of the items. -/
def nameInRow? (at? : α → Place → Option String) (xs : List α) : Place → Option String
  | [] => none
  | i :: place => xs[i]?.bind (at? · place)

end

/-- A list has the names that stand at places, in the order of the places; a name that stands at
several of them is repeated. -/
def ListedInOrder (At : Place → String → Prop) (names : List String) : Prop :=
  ∃ entries : List (Place × String), entries.Pairwise (·.1 < ·.1) ∧
    (∀ place name, (place, name) ∈ entries ↔ At place name) ∧ entries.map (·.2) = names

namespace ListedInOrder
variable {At : Place → String → Prop} {names names' : List String}

/-- The list is determined by what stands where. -/
theorem unique (h : ListedInOrder At names) (h' : ListedInOrder At names') : names = names' := by
  obtain ⟨entries, hordered, hmem, rfl⟩ := h
  obtain ⟨entries', hordered', hmem', rfl⟩ := h'
  have : Std.Irrefl fun a b : Place × String => a.1 < b.1 := ⟨fun a => List.lt_irrefl a.1⟩
  have : Std.Antisymm fun a b : Place × String => a.1 < b.1 :=
    ⟨fun _ _ hab hba => absurd hba (List.lt_asymm hab)⟩
  rw [hordered.eq_of_mem_iff hordered' fun ⟨place, name⟩ => by rw [hmem, hmem']]

theorem congr {At' : Place → String → Prop} (h : ListedInOrder At names)
    (hAt : ∀ place name, At place name ↔ At' place name) : ListedInOrder At' names := by
  obtain ⟨entries, hordered, hmem, hnames⟩ := h
  exact ⟨entries, hordered, fun place name => (hmem place name).trans (hAt place name), hnames⟩

/-! ## Leaving names out -/

theorem filter (h : ListedInOrder At names) (p : String → Bool) :
    ListedInOrder (fun place name => At place name ∧ p name = true) (names.filter p) := by
  obtain ⟨entries, hordered, hmem, rfl⟩ := h
  refine ⟨entries.filter (p ·.2), hordered.filter _, fun place name => ?_, List.filter_map.symm⟩
  rw [List.mem_filter, hmem]

/-- Of the entries with its name, the first entry is the one before which no other stands. -/
theorem mem_and_forall_not_lt_iff {place first : Place} {name : String}
    {entries : List (Place × String)}
    (h : ((first, name) :: entries).Pairwise (·.1 < ·.1)) :
    ((place, name) ∈ (first, name) :: entries ∧
        ∀ earlier, (earlier, name) ∈ (first, name) :: entries → ¬ earlier < place) ↔
      place = first := by
  have hlt := (List.pairwise_cons.1 h).1
  refine ⟨fun ⟨hplace, hfirst⟩ => ?_, ?_⟩
  · rcases List.mem_cons.1 hplace with heq | hplace
    · exact congrArg Prod.fst heq
    · exact absurd (hlt _ hplace) (hfirst first List.mem_cons_self)
  · rintro rfl
    refine ⟨List.mem_cons_self, fun earlier hearlier => ?_⟩
    rcases List.mem_cons.1 hearlier with heq | hearlier
    · rw [show earlier = place from congrArg Prod.fst heq]
      exact List.lt_irrefl place
    · exact List.lt_asymm (hlt _ hearlier)

/-- The names of entries in order, without those met before, are listed by the entries before which
no other of the same name stands. -/
theorem firsts : ∀ {entries : List (Place × String)}, entries.Pairwise (·.1 < ·.1) →
    ListedInOrder (fun place name => (place, name) ∈ entries ∧
        ∀ earlier, (earlier, name) ∈ entries → ¬ earlier < place)
      (entries.map (·.2)).eraseDups
  | [], _ => ⟨[], .nil, by simp, rfl⟩
  | (first, head) :: entries, h => by
    -- The later entries of the name at the head are dropped before the others are gone through.
    obtain ⟨hfirst, hentries⟩ := List.pairwise_cons.1 h
    obtain ⟨kept, hordered, hmem, hnames⟩ :=
      firsts (hentries.filter fun entry => !entry.2 == head)
    have hkept : ∀ entry ∈ kept, entry ∈ entries := fun entry hentry =>
      (List.mem_filter.1 ((hmem entry.1 entry.2).1 hentry).1).1
    refine ⟨(first, head) :: kept, List.pairwise_cons.2
      ⟨fun entry hentry => hfirst entry (hkept entry hentry), hordered⟩, fun place name => ?_, ?_⟩
    · by_cases hname : name = head
      · subst hname
        refine Iff.trans ?_ (mem_and_forall_not_lt_iff h).symm
        simp [hmem]
      · simp [hmem, hname]
    · rw [List.map_cons, hnames, List.map_cons, List.eraseDups_cons, List.filter_map]
      rfl
termination_by entries => entries.length
decreasing_by exact Nat.lt_succ_of_le (List.length_filter_le ..)

/-- Without the names met before, each name is listed where it stands first. -/
theorem eraseDups (h : ListedInOrder At names) :
    ListedInOrder (fun place name => At place name ∧
      ∀ earlier, At earlier name → ¬ earlier < place) names.eraseDups := by
  obtain ⟨entries, hordered, hmem, rfl⟩ := h
  simpa only [hmem] using firsts hordered

/-! ## Walking over a tree -/

section Tree
variable {α : Type}

/-- The entries of a row, from those of its items. -/
def rowEntries (entries : α → List (Place × String)) (xs : List α) : List (Place × String) :=
  xs.zipIdx.flatMap fun (x, i) => (entries x).map fun entry => (i :: entry.1, entry.2)

theorem rowEntries_ordered {entries : α → List (Place × String)} {xs : List α}
    (h : ∀ x ∈ xs, (entries x).Pairwise (·.1 < ·.1)) :
    (rowEntries entries xs).Pairwise (·.1 < ·.1) := by
  refine List.pairwise_flatMap.2 ⟨fun ⟨x, i⟩ hx => ?_,
    (pairwise_snd_zipIdx xs).imp fun {a b} hlt first hfirst second hsecond => ?_⟩
  · rw [List.pairwise_map]
    exact (h x (List.fst_mem_of_mem_zipIdx hx)).imp fun hlt =>
      List.cons_lt_cons_iff.2 (.inr ⟨rfl, hlt⟩)
  · obtain ⟨_, -, rfl⟩ := List.mem_map.1 hfirst
    obtain ⟨_, -, rfl⟩ := List.mem_map.1 hsecond
    exact List.cons_lt_cons_iff.2 (.inl hlt)

theorem mem_rowEntries_iff {entries : α → List (Place × String)} {xs : List α} {place : Place}
    {name : String} :
    (place, name) ∈ rowEntries entries xs ↔
      ∃ i below x, place = i :: below ∧ xs[i]? = some x ∧ (below, name) ∈ entries x := by
  simp only [rowEntries, List.mem_flatMap, Prod.exists, List.mk_mem_zipIdx_iff_getElem?,
    List.mem_map, Prod.mk.injEq]
  refine ⟨fun h => ?_, fun h => ?_⟩
  · obtain ⟨x, i, hx, below, _, hentry, rfl, rfl⟩ := h
    exact ⟨i, below, x, rfl, hx, hentry⟩
  · obtain ⟨i, below, x, rfl, hx, hentry⟩ := h
    exact ⟨x, i, hx, below, name, hentry, rfl, rfl⟩

/-- Lists for the items of a row, one after the other, are a list for the row. -/
theorem row {at? : α → Place → Option String} {names : α → List String} {xs : List α}
    (h : ∀ x ∈ xs, ListedInOrder (at? x · = some ·) (names x)) :
    ListedInOrder (nameInRow? at? xs · = some ·) (xs.flatMap names) := by
  choose! entries hordered hmem hnames using h
  refine ⟨rowEntries entries xs, rowEntries_ordered hordered, fun place name => ?_, ?_⟩
  · rw [mem_rowEntries_iff]
    refine ⟨fun h => ?_, fun h => ?_⟩
    · obtain ⟨i, below, x, rfl, hx, hentry⟩ := h
      rw [nameInRow?, hx, Option.bind_some]
      exact (hmem x (List.mem_of_getElem? hx) below name).1 hentry
    · cases place with
      | nil => cases h
      | cons i below =>
        obtain ⟨x, hx, hname⟩ := Option.bind_eq_some_iff.1 h
        exact ⟨i, below, x, rfl, hx, (hmem x (List.mem_of_getElem? hx) below name).2 hname⟩
  · rw [rowEntries, flatMap_eq_flatMap_zipIdx names, List.map_flatMap]
    refine List.flatMap_congr fun ⟨x, i⟩ hx => ?_
    rw [List.map_map]
    exact hnames x (List.fst_mem_of_mem_zipIdx hx)

/-- A walk that takes each part before its arguments, and these from left to right, lists the names
of a tree. -/
theorem tree [SizeOf α] {args : α → List α} {own : α → Option String} {names : α → List String}
    (hargs : ∀ x, ∀ arg ∈ args x, sizeOf arg < sizeOf x)
    (hnames : ∀ x, names x = (own x).toList ++ (args x).flatMap names) (x : α) :
    ListedInOrder (nameAt? args own x · = some ·) (names x) := by
  obtain ⟨entries, hordered, hmem, hbelow⟩ :=
    row fun arg (harg : arg ∈ args x) => tree hargs hnames arg
  have hplace : ∀ entry ∈ entries, [] < entry.1 := by
    rintro ⟨_ | ⟨i, place⟩, name⟩ hentry
    · cases (hmem _ _).1 hentry
    · exact List.nil_lt_cons i place
  refine ⟨(own x).toList.map ([], ·) ++ entries, List.pairwise_append.2 ⟨?_, hordered, ?_⟩,
    fun place name => ?_, ?_⟩
  · cases own x with
    | none => exact .nil
    | some name => exact List.pairwise_singleton ..
  · intro root hroot entry hentry
    obtain ⟨name, -, rfl⟩ := List.mem_map.1 hroot
    exact hplace entry hentry
  · rw [List.mem_append, hmem]
    cases place with
    | nil => simp [nameInRow?, nameAt?]
    | cons i place => simp [nameInRow?, nameAt?]
  · rw [List.map_append, hbelow, hnames, List.map_map]
    exact congrArg (· ++ _) (List.map_id _)
termination_by sizeOf x
decreasing_by exact hargs x arg harg

end Tree

end ListedInOrder

end Selectors
