import Mathlib.Logic.Relation
import Selectors.Vocabulary

/-!
# The subtype order

The searches that make up the subtype closure end, whatever pairs are declared, and reach just the
types to which a chain of pairs leads (`isSubtype_iff_below`). What carries the proof is
`SupertypeSearch.Covers`, which holds at the start and after every step: only types above the first
one are reached, and of the first type and those reached, the ones that no longer wait have their
direct supertypes reached. When none waits, the types reached are closed under declared pairs.
-/

namespace Selectors

/-! ## Declared pairs -/

theorem mem_foldl_supertypes_iff {pairs : List SubtypePair} {direct : DirectSupertypes}
    {sub sup : String} :
    sup ∈ (pairs.foldl (fun direct p => direct.insert p.sub (direct.getD p.sub [] ++ [p.sup]))
        direct).getD sub [] ↔ sup ∈ direct.getD sub [] ∨ ⟨sub, sup⟩ ∈ pairs := by
  induction pairs generalizing direct with
  | nil => simp
  | cons p pairs ih =>
    obtain ⟨lower, upper⟩ := p
    rw [List.foldl_cons, ih, Std.TreeMap.getD_insert]
    simp only [Std.compare_eq_iff_eq, List.mem_cons, SubtypePair.mk.injEq]
    by_cases h : lower = sub
    · subst h
      simp only [if_true, List.mem_append, List.mem_singleton, true_and, or_assoc]
    · simp [h, Ne.symm h]

theorem mem_directSupertypes_iff {pairs : List SubtypePair} {sub sup : String} :
    sup ∈ (directSupertypes pairs).getD sub [] ↔ ⟨sub, sup⟩ ∈ pairs := by
  simp [directSupertypes, mem_foldl_supertypes_iff]

namespace Vocabulary.Below
variable {v v' : Vocabulary} {sub mid sup : String}

theorem tail (h : v.Below sub mid) (hpair : ⟨mid, sup⟩ ∈ v.subtypes) : v.Below sub sup := by
  induction h with
  | pair hfirst => exact .step hfirst (.pair hpair)
  | step hfirst _ ih => exact .step hfirst (ih hpair)

theorem mono (hpairs : v.subtypes ⊆ v'.subtypes) (h : v.Below sub sup) : v'.Below sub sup := by
  induction h with
  | pair hpair => exact .pair (hpairs hpair)
  | step hpair _ ih => exact .step (hpairs hpair) ih

end Vocabulary.Below

/-- Where no type is both above and below another, there are no chains but the pairs. -/
theorem Vocabulary.below_iff_mem {v : Vocabulary}
    (h : ∀ p ∈ v.subtypes, ∀ q ∈ v.subtypes, p.sup ≠ q.sub) {sub sup : String} :
    v.Below sub sup ↔ ⟨sub, sup⟩ ∈ v.subtypes := by
  refine ⟨fun hbelow => ?_, .pair⟩
  cases hbelow with
  | pair hpair => exact hpair
  | step hpair hrest =>
    cases hrest with
    | pair hnext => exact absurd rfl (h _ hpair _ hnext)
    | step hnext _ => exact absurd rfl (h _ hpair _ hnext)

namespace SupertypeSearch
variable {v : Vocabulary} {direct : DirectSupertypes} {first type : String}
  {s s' : SupertypeSearch}

/-! ## Steps of a search -/

/-- One step of a search leads to another state of it. -/
def Step (direct : DirectSupertypes) (s s' : SupertypeSearch) : Prop := s.next? direct = some s'

theorem next?_eq_none_iff : s.next? direct = none ↔ s.waiting = [] := by
  obtain ⟨reached, _ | ⟨type, rest⟩⟩ := s <;> simp [next?]

/-- No search goes on for ever, wherever it is. -/
theorem step_wellFounded (direct : DirectSupertypes) :
    WellFounded fun s' s => Step direct s s' := by
  refine Subrelation.wf (fun h => ?_)
    (InvImage.wf (remaining direct) (Prod.lex Nat.lt_wfRel Nat.lt_wfRel).wf)
  exact remaining_lt_of_next?_eq_some h

theorem run_of_waiting_eq_nil (h : s.waiting = []) : s.run direct = s.reached := by
  rw [run, next?_eq_none_iff.2 h]

theorem run_of_step (h : Step direct s s') : s.run direct = s'.run direct := by
  rw [run, show s.next? direct = some s' from h]

/-- What runs is a sequence of steps, up to a state in which no type waits. -/
theorem exists_steps_run (direct : DirectSupertypes) (s : SupertypeSearch) :
    ∃ last, Relation.ReflTransGen (Step direct) s last ∧ last.waiting = [] ∧
      s.run direct = last.reached := by
  induction s using run.induct direct with
  | case1 s hnone =>
    have hwaiting := next?_eq_none_iff.1 hnone
    exact ⟨s, .refl, hwaiting, run_of_waiting_eq_nil hwaiting⟩
  | case2 s s' hstep ih =>
    obtain ⟨last, hsteps, hwaiting, hrun⟩ := ih
    exact ⟨last, .head hstep hsteps, hwaiting, (run_of_step hstep).trans hrun⟩

/-! ## What a search has found -/

/-- A search for the types above `first` has found only such types, and all that there are above the
types that do not wait. -/
structure Covers (v : Vocabulary) (first : String) (s : SupertypeSearch) : Prop where
  above : ∀ type ∈ s.reached, v.Below first type
  waiting : ∀ type ∈ s.waiting, type = first ∨ type ∈ s.reached
  closed : ∀ type, type = first ∨ type ∈ s.reached → type ∉ s.waiting →
    ∀ sup, ⟨type, sup⟩ ∈ v.subtypes → sup ∈ s.reached

theorem covers_start (v : Vocabulary) (first : String) : Covers v first (start first) where
  above type h := absurd h Std.TreeSet.not_mem_emptyc
  waiting type h := .inl (List.mem_singleton.1 h)
  closed := by
    intro type h hwaiting
    rcases h with rfl | h
    · exact absurd List.mem_cons_self hwaiting
    · exact absurd h Std.TreeSet.not_mem_emptyc

theorem Covers.step (hs : s.Covers v first) (h : Step (directSupertypes v.subtypes) s s') :
    s'.Covers v first := by
  obtain ⟨type, rest, added, hwaiting, hwaiting', hadded, hreached⟩ := exists_of_next?_eq_some h
  simp only [mem_directSupertypes_iff] at hadded hreached
  have hkept : ∀ t, t ∈ s.reached → t ∈ s'.reached := fun t ht => (hreached t).2 (.inl ht)
  have htype : type = first ∨ type ∈ s.reached := hs.waiting type (hwaiting ▸ List.mem_cons_self)
  constructor
  case above =>
    intro t ht
    rcases (hreached t).1 ht with ht | hpair
    · exact hs.above t ht
    · rcases htype with rfl | htype
      · exact .pair hpair
      · exact (hs.above type htype).tail hpair
  case waiting =>
    intro t ht
    rw [hwaiting', List.mem_append] at ht
    rcases ht with ht | ht
    · exact (hs.waiting t (hwaiting ▸ List.mem_cons_of_mem _ ht)).imp_right (hkept t)
    · exact .inr ((hreached t).2 (.inr ((hadded t).1 ht).1))
  case closed =>
    intro t ht hdone sup hpair
    rw [hwaiting', List.mem_append, not_or] at hdone
    obtain ⟨hnotRest, hnotAdded⟩ := hdone
    by_cases heq : t = type
    · exact (hreached sup).2 (.inr (heq ▸ hpair))
    · -- A type that is reached in this step waits after it, so this one is not new.
      have hold : t = first ∨ t ∈ s.reached := by
        refine ht.imp_right fun ht => ?_
        by_cases hold : t ∈ s.reached
        · exact hold
        · have hup := ((hreached t).1 ht).resolve_left hold
          exact absurd ((hadded t).2 ⟨hup, hold⟩) hnotAdded
      have hnotWaiting : t ∉ s.waiting := by
        rw [hwaiting, List.mem_cons, not_or]
        exact ⟨heq, hnotRest⟩
      exact hkept sup (hs.closed t hold hnotWaiting sup hpair)

theorem Covers.steps (hs : s.Covers v first)
    (h : Relation.ReflTransGen (Step (directSupertypes v.subtypes)) s s') : s'.Covers v first := by
  induction h with
  | refl => exact hs
  | tail _ hstep ih => exact ih.step hstep

/-- Once no type waits, all types above the first one are reached. -/
theorem Covers.mem_reached_iff (hs : s.Covers v first) (hwaiting : s.waiting = []) :
    type ∈ s.reached ↔ v.Below first type := by
  have hclosed : ∀ {sub sup}, v.Below sub sup → sub = first ∨ sub ∈ s.reached →
      sup ∈ s.reached := by
    intro sub sup h
    induction h with
    | pair hpair =>
      intro hsub
      exact hs.closed _ hsub (hwaiting ▸ List.not_mem_nil) _ hpair
    | step hpair _ ih =>
      intro hsub
      exact ih (.inr (hs.closed _ hsub (hwaiting ▸ List.not_mem_nil) _ hpair))
  exact ⟨hs.above type, fun h => hclosed h (.inl rfl)⟩

theorem mem_run_start_iff :
    type ∈ (start first).run (directSupertypes v.subtypes) ↔ v.Below first type := by
  obtain ⟨last, hsteps, hwaiting, hrun⟩ :=
    exists_steps_run (directSupertypes v.subtypes) (start first)
  rw [hrun]
  exact ((covers_start v first).steps hsteps).mem_reached_iff hwaiting

end SupertypeSearch

/-! ## The closure -/

namespace Subtypes
variable {v v' : Vocabulary} {sub sup : String}

/-- The closure holds what a search from the type reaches, also where there is nothing to reach and
no search was made. -/
theorem getD_above_eq_run (v : Vocabulary) (sub : String) :
    (ofVocabulary v).above.getD sub ∅ =
      (SupertypeSearch.start sub).run (directSupertypes v.subtypes) := by
  rw [ofVocabulary, Std.TreeMap.getD_map]
  cases hdirect : (directSupertypes v.subtypes)[sub]? with
  | some sups => rfl
  | none =>
    have hstep : SupertypeSearch.Step (directSupertypes v.subtypes) (.start sub) ⟨∅, []⟩ := by
      simp [SupertypeSearch.Step, SupertypeSearch.next?, SupertypeSearch.start, addMissing,
        Std.TreeMap.getD_eq_getD_getElem?, hdirect]
    rw [SupertypeSearch.run_of_step hstep, SupertypeSearch.run_of_waiting_eq_nil rfl]
    rfl

theorem mem_above_iff : sup ∈ (ofVocabulary v).above.getD sub ∅ ↔ v.Below sub sup := by
  rw [getD_above_eq_run]
  exact SupertypeSearch.mem_run_start_iff

theorem isSubtype_eq_true_iff {s : Subtypes} :
    s.isSubtype sub sup = true ↔ sub = sup ∨ sup ∈ s.above.getD sub ∅ := by
  rw [isSubtype, Bool.or_eq_true, beq_iff_eq]
  rfl

/-- More pairs, in whatever order, leave every subtype a subtype. -/
theorem isSubtype_mono (hpairs : v.subtypes ⊆ v'.subtypes)
    (h : (ofVocabulary v).isSubtype sub sup = true) :
    (ofVocabulary v').isSubtype sub sup = true := by
  rw [isSubtype_eq_true_iff, mem_above_iff] at h ⊢
  exact h.imp_right (.mono hpairs)

end Subtypes

/-- Over any declared pairs, in any order, repeated, reflexive or cyclic, every search for
supertypes ends: no sequence of steps is infinite, and the closure is read off states in which no
type waits. A type is then a subtype of another just when they are the same or a chain of declared
pairs leads from it to the other. -/
theorem isSubtype_iff_below (v : Vocabulary) :
    (WellFounded fun s' s => SupertypeSearch.Step (directSupertypes v.subtypes) s s') ∧
      (∀ sub, ∃ last,
        Relation.ReflTransGen (SupertypeSearch.Step (directSupertypes v.subtypes))
            (.start sub) last ∧
          last.waiting = [] ∧ (Subtypes.ofVocabulary v).above.getD sub ∅ = last.reached) ∧
        ∀ sub sup, (Subtypes.ofVocabulary v).isSubtype sub sup = true ↔
          sub = sup ∨ v.Below sub sup := by
  refine ⟨SupertypeSearch.step_wellFounded _, fun sub => ?_, fun sub sup => ?_⟩
  · rw [Subtypes.getD_above_eq_run]
    exact SupertypeSearch.exists_steps_run _ _
  · rw [Subtypes.isSubtype_eq_true_iff, Subtypes.mem_above_iff]

end Selectors
