import Std.Data.TreeMap
import Std.Data.TreeSet

/-!
# Vocabularies

A vocabulary lists the types that facts and selectors may use, and pairs of types one of which is
declared to be below the other. `Vocabulary.Below` is the order that the pairs generate, without its
reflexive part.

`Subtypes` holds, for every type on the lower side of a declared pair, all types that a chain of
pairs reaches from it. `Subtypes.isSubtype` is the reflexive and transitive closure of the declared
pairs. A type need not be declared to take part, and pairs may form cycles. The types above a type
are found by a `SupertypeSearch`, which ends because every type is reached at most once.
-/

namespace Selectors

structure SubtypePair where
  sub : String
  sup : String
  deriving DecidableEq, Inhabited, Repr

/-- Known types and declared subtype pairs, in the order of declaration. -/
structure Vocabulary where
  types : List String
  subtypes : List SubtypePair
  deriving DecidableEq, Inhabited, Repr

namespace Vocabulary

def empty : Vocabulary := ⟨[], []⟩

/-- Whether a type is declared; standing in a subtype pair does not declare it. -/
def hasType (v : Vocabulary) (name : String) : Bool := v.types.contains name

def addType (v : Vocabulary) (name : String) : Vocabulary := { v with types := v.types ++ [name] }

def addSubtype (v : Vocabulary) (sub sup : String) : Vocabulary :=
  { v with subtypes := v.subtypes ++ [⟨sub, sup⟩] }

/-- A non-empty chain of declared pairs leads from the first type up to the second. -/
inductive Below (v : Vocabulary) : String → String → Prop where
  | pair {sub sup : String} : ⟨sub, sup⟩ ∈ v.subtypes → Below v sub sup
  | step {sub mid sup : String} : ⟨sub, mid⟩ ∈ v.subtypes → Below v mid sup → Below v sub sup

end Vocabulary

/-! ## The subtype closure -/

abbrev TypeSet := Std.TreeSet String

abbrev DirectSupertypes := Std.TreeMap String (List String)

/-- For every type on the lower side of a pair, the types on the upper side. -/
def directSupertypes (pairs : List SubtypePair) : DirectSupertypes :=
  pairs.foldl (fun direct p => direct.insert p.sub (direct.getD p.sub [] ++ [p.sup])) ∅

/-- Adds the names that a set lacks. Gives the set with them, and those that were added. -/
def addMissing (reached : TypeSet) : List String → TypeSet × List String
  | [] => (reached, [])
  | name :: names =>
    if reached.contains name then addMissing reached names
    else
      let (reached, added) := addMissing (reached.insert name) names
      (reached, name :: added)

theorem mem_addMissing_iff {reached : TypeSet} {names : List String} {type : String} :
    type ∈ (addMissing reached names).1 ↔ type ∈ reached ∨ type ∈ names := by
  induction names generalizing reached with
  | nil => simp [addMissing]
  | cons name names ih =>
    rw [addMissing]
    split
    case isTrue h =>
      rw [ih, List.mem_cons]
      refine ⟨Or.imp_right .inr, fun h' => ?_⟩
      rcases h' with h' | rfl | h'
      · exact .inl h'
      · exact .inl h
      · exact .inr h'
    case isFalse h =>
      rw [ih, Std.TreeSet.mem_insert, Std.compare_eq_iff_eq, List.mem_cons, or_assoc, or_left_comm,
        eq_comm]

theorem mem_added_iff {reached : TypeSet} {names : List String} {type : String} :
    type ∈ (addMissing reached names).2 ↔ type ∈ names ∧ type ∉ reached := by
  induction names generalizing reached with
  | nil => simp [addMissing]
  | cons name names ih =>
    rw [addMissing]
    split
    case isTrue h =>
      rw [ih, List.mem_cons]
      refine and_congr_left fun hnew => ⟨.inr, fun h' => ?_⟩
      rcases h' with rfl | h'
      · exact absurd h hnew
      · exact h'
    case isFalse h =>
      simp only [List.mem_cons, ih, Std.TreeSet.mem_insert, Std.compare_eq_iff_eq]
      by_cases heq : type = name
      · subst heq
        simpa using h
      · simp [heq, Ne.symm heq]

/-- A search for the types above a type: those reached so far, and those that wait for their direct
supertypes to be looked up. -/
structure SupertypeSearch where
  reached : TypeSet
  waiting : List String

namespace SupertypeSearch

/-- Where a search starts. The type itself counts as reached only when a chain leads back to it. -/
def start (type : String) : SupertypeSearch := ⟨∅, [type]⟩

/-- Looks up the type that has waited longest. Those of its direct supertypes that are new are
reached, and wait from now on. -/
def next? (direct : DirectSupertypes) (s : SupertypeSearch) : Option SupertypeSearch :=
  match s.waiting with
  | [] => none
  | type :: rest =>
    let (reached, added) := addMissing s.reached (direct.getD type [])
    some ⟨reached, rest ++ added⟩

variable {direct : DirectSupertypes} {s next : SupertypeSearch}

theorem exists_of_next?_eq_some (h : s.next? direct = some next) :
    ∃ type rest added, s.waiting = type :: rest ∧ next.waiting = rest ++ added ∧
      (∀ t, t ∈ added ↔ t ∈ direct.getD type [] ∧ t ∉ s.reached) ∧
      ∀ t, t ∈ next.reached ↔ t ∈ s.reached ∨ t ∈ direct.getD type [] := by
  obtain ⟨reached, _ | ⟨type, rest⟩⟩ := s
  · cases h
  · cases h
    exact ⟨type, rest, _, rfl, rfl, fun t => mem_added_iff, fun t => mem_addMissing_iff⟩

/-- The upper sides that have not been reached. -/
def missing (direct : DirectSupertypes) (s : SupertypeSearch) : List String :=
  (direct.toList.flatMap (·.2)).filter (· ∉ s.reached)

theorem mem_missing_of_mem_getD {type sup : String} (hsup : sup ∈ direct.getD type [])
    (hnew : sup ∉ s.reached) : sup ∈ s.missing direct := by
  rw [Std.TreeMap.getD_eq_getD_getElem?] at hsup
  cases hget : direct[type]? with
  | none => simp [hget] at hsup
  | some sups =>
    rw [hget, Option.getD_some] at hsup
    have hupper : sup ∈ direct.toList.flatMap (·.2) :=
      List.mem_flatMap.2 ⟨(type, sups), Std.TreeMap.mem_toList_iff_getElem?_eq_some.2 hget, hsup⟩
    exact List.mem_filter.2 ⟨hupper, decide_eq_true hnew⟩

theorem missing_eq_filter (h : ∀ t, t ∈ s.reached → t ∈ next.reached) :
    next.missing direct = (s.missing direct).filter (· ∉ next.reached) := by
  rw [missing, missing, List.filter_filter]
  refine List.filter_congr fun t _ => ?_
  rw [← Bool.decide_and, decide_eq_decide]
  exact ⟨fun hnext => ⟨hnext, fun hs => hnext (h t hs)⟩, And.left⟩

/-- What is left of a search: how many upper sides have not been reached, and how many types
wait. -/
def remaining (direct : DirectSupertypes) (s : SupertypeSearch) : Nat × Nat :=
  ((s.missing direct).length, s.waiting.length)

/-- A type that is reached is never missing again; without one, fewer types wait. -/
theorem remaining_lt_of_next?_eq_some (h : s.next? direct = some next) :
    Prod.Lex (· < ·) (· < ·) (next.remaining direct) (s.remaining direct) := by
  obtain ⟨type, rest, added, hwaiting, hwaiting', hadded, hreached⟩ := exists_of_next?_eq_some h
  rw [remaining, remaining, missing_eq_filter fun t ht => (hreached t).2 (.inl ht), hwaiting,
    hwaiting']
  cases added with
  | nil =>
    rw [List.append_nil]
    exact Prod.Lex.right' _ (List.length_filter_le ..) (Nat.lt_succ_self _)
  | cons sup sups =>
    obtain ⟨hsup, hnew⟩ := (hadded sup).1 List.mem_cons_self
    refine Prod.Lex.left _ _ (List.length_filter_lt_length_iff_exists.2 ⟨sup, ?_, ?_⟩)
    · exact mem_missing_of_mem_getD hsup hnew
    · simpa using (hreached sup).2 (.inr hsup)

/-- The types that a search reaches until none waits. -/
def run (direct : DirectSupertypes) (s : SupertypeSearch) : TypeSet :=
  match _h : s.next? direct with
  | none => s.reached
  | some next => next.run direct
termination_by s.remaining direct
decreasing_by exact remaining_lt_of_next?_eq_some _h

end SupertypeSearch

/-- For every type with a declared supertype, all types above it. -/
structure Subtypes where
  above : Std.TreeMap String TypeSet

namespace Subtypes

def ofVocabulary (v : Vocabulary) : Subtypes :=
  let direct := directSupertypes v.subtypes
  ⟨direct.map fun name _ => (SupertypeSearch.start name).run direct⟩

/-- Whether the first type is the second or below it. -/
def isSubtype (s : Subtypes) (sub sup : String) : Bool :=
  sub == sup || (s.above.getD sub ∅).contains sup

end Subtypes

end Selectors
