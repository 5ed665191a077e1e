import Selectors.Matching
import Selectors.Proofs.Declarations
import Selectors.Proofs.Substitutions

/-!
# The join of declared patterns

Joining fails on the first declaration with a type variable among the facts, if there is a pattern
at all, and otherwise gives the whole product of the candidates: that it stops at a pattern without
candidates shows neither in the value nor in the problem (`joinDeclarations_eq`). A substitution of
the product binds each variable to a candidate of the last pattern that declares it
(`mem_joined_iff`).
-/

namespace Selectors

/-! ## Declarations with a type variable -/

def Statement.typeVariable? : Statement → Option Problem
  | .decl (.var type) name => some (.typeVariable name type)
  | .decl (.constructor ..) _ => none
  | .bind .. => none
  | .pred _ => none

def FactProgram.typeVariable? (facts : FactProgram) : Option Problem :=
  facts.statements.findSome? Statement.typeVariable?

theorem Statement.typeVariable?_eq_some_iff {statement : Statement} {p : Problem} :
    statement.typeVariable? = some p ↔
      ∃ type name, statement = .decl (.var type) name ∧ .typeVariable name type = p := by
  rcases statement with ⟨_ | type, name⟩ | _ | _ <;> simp [Statement.typeVariable?]

/-- A fact is the first that is declared with a type variable. -/
def FactProgram.FirstTypeVariable (facts : FactProgram) (type name : String) : Prop :=
  ∃ before after, facts.statements = before ++ .decl (.var type) name :: after ∧
    ∀ type' name', .decl (.var type') name' ∉ before

variable {accepts : TypeAcceptance} {filter : NameFilter} {facts : FactProgram}

theorem FactProgram.typeVariable?_eq_none_iff :
    facts.typeVariable? = none ↔ ∀ type name, .decl (.var type) name ∉ facts.statements := by
  rw [typeVariable?, List.findSome?_eq_none_iff]
  refine ⟨fun h type name hmem => (nomatch h _ hmem), fun h statement hmem => ?_⟩
  rw [Option.eq_none_iff_forall_ne_some]
  intro p hp
  obtain ⟨type, name, rfl, -⟩ := Statement.typeVariable?_eq_some_iff.1 hp
  exact h type name hmem

theorem FactProgram.exists_typeVariable?_eq_some_iff :
    (∃ p, facts.typeVariable? = some p) ↔
      ∃ type name, .decl (.var type) name ∈ facts.statements := by
  rw [← Option.isSome_iff_exists, ← Option.ne_none_iff_isSome, ne_eq, typeVariable?_eq_none_iff]
  simp only [not_forall, not_not]

theorem FactProgram.firstTypeVariable_of_eq_some {p : Problem} (h : facts.typeVariable? = some p) :
    ∃ type name, facts.FirstTypeVariable type name ∧ p = .typeVariable name type := by
  obtain ⟨before, statement, after, hfacts, hp, hbefore⟩ := List.findSome?_eq_some_iff.1 h
  obtain ⟨type, name, rfl, rfl⟩ := Statement.typeVariable?_eq_some_iff.1 hp
  exact ⟨type, name, ⟨before, after, hfacts, fun _ _ hmem => (nomatch hbefore _ hmem)⟩, rfl⟩

namespace Declaration

def binding? (accepts : TypeAcceptance) (filter : NameFilter) (d : Declaration) :
    Statement → Option Substitution
  | .decl (.constructor type _) name =>
    if filter.admits type && accepts type d.type then Substitution.ofReference? name d.ref else none
  | .decl (.var _) _ => none
  | .bind .. => none
  | .pred _ => none

def bindings (accepts : TypeAcceptance) (filter : NameFilter) (facts : FactProgram)
    (d : Declaration) : List Substitution :=
  facts.statements.filterMap (d.binding? accepts filter)

theorem match?_eq (d : Declaration) (statement : Statement) :
    d.match? accepts filter statement =
      okUnless statement.typeVariable? (d.binding? accepts filter statement) := by
  rcases statement with ⟨_ | _, _⟩ | _ | _ <;> rfl

theorem candidates_eq (d : Declaration) :
    d.candidates accepts filter facts =
      okUnless facts.typeVariable? (d.bindings accepts filter facts) := by
  rw [candidates, mapM_eq_okUnless fun statement _ => match?_eq d statement, map_okUnless,
    List.filterMap_map]
  rfl

end Declaration

/-! ## The product -/

def joinedFrom (accepts : TypeAcceptance) (filter : NameFilter) (facts : FactProgram)
    (running : List Substitution) (ds : List Declaration) : List Substitution :=
  ds.foldl (fun running d => Substitution.product running (d.bindings accepts filter facts)) running

def joined (accepts : TypeAcceptance) (filter : NameFilter) (facts : FactProgram)
    (ds : List Declaration) : List Substitution :=
  joinedFrom accepts filter facts [.empty] ds

theorem joinedFrom_cons (running : List Substitution) (d : Declaration) (ds : List Declaration) :
    joinedFrom accepts filter facts running (d :: ds) =
      joinedFrom accepts filter facts
        (Substitution.product running (d.bindings accepts filter facts)) ds := rfl

theorem joinedFrom_nil (ds : List Declaration) : joinedFrom accepts filter facts [] ds = [] := by
  induction ds with
  | nil => rfl
  | cons d ds ih => exact ih

theorem joinDeclarationsFrom_eq (running : List Substitution) (ds : List Declaration) :
    joinDeclarationsFrom accepts filter facts running ds =
      okUnless (if ds.isEmpty then none else facts.typeVariable?)
        (joinedFrom accepts filter facts running ds) := by
  induction ds generalizing running with
  | nil => rfl
  | cons d ds ih =>
    rw [joinDeclarationsFrom, joinDeclaration, Declaration.candidates_eq, map_okUnless]
    cases hp : facts.typeVariable? with
    | some p => rfl
    | none =>
      simp only [hp, ite_self, okUnless_none] at ih ⊢
      simp only [bind, Except.bind, ih]
      split
      case isTrue hempty =>
        rw [joinedFrom, List.foldl_cons, List.isEmpty_iff.1 hempty]
        exact congrArg Except.ok (joinedFrom_nil ds).symm
      case isFalse => rfl

theorem joinDeclarations_eq (ds : List Declaration) :
    joinDeclarations accepts filter facts ds =
      okUnless (if ds.isEmpty then none else facts.typeVariable?)
        (joined accepts filter facts ds) :=
  joinDeclarationsFrom_eq ..

/-! ## Candidates -/

/-- A fact is declared, with an admitted type that is accepted where `type` is asked for. -/
def FactProgram.Supports (accepts : TypeAcceptance) (filter : NameFilter) (facts : FactProgram)
    (type name : String) : Prop :=
  ∃ declared args, .decl (.constructor declared args) name ∈ facts.statements ∧
    filter.admits declared = true ∧ accepts declared type = true

def Reference.binding (name : String) : Reference → Substitution
  | .variable v => .singleton v name
  | .fact _ => .empty

theorem Reference.get?_binding (name v : String) (r : Reference) :
    (r.binding name).get? v = if r = .variable v then some name else none := by
  cases r with
  | fact target => simp [binding]
  | «variable» w => simp [binding, eq_comm]

theorem Substitution.ofReference?_eq_some_iff {name : String} {r : Reference} {b : Substitution} :
    ofReference? name r = some b ↔
      (r.isVariable = true ∨ r = .fact name) ∧ r.binding name = b := by
  cases r with
  | fact target => simp [ofReference?, Reference.isVariable, Reference.binding]
  | «variable» v => simp [ofReference?, Reference.isVariable, Reference.binding]

namespace Declaration

/-- A fact is a candidate of a declared pattern: it has the type, and it is the fact that the
pattern names, if it names one. -/
structure IsCandidate (accepts : TypeAcceptance) (filter : NameFilter) (facts : FactProgram)
    (d : Declaration) (name : String) : Prop where
  supported : facts.Supports accepts filter d.type name
  fits : d.ref.isVariable = true ∨ d.ref = .fact name

theorem mem_bindings_iff {d : Declaration} {b : Substitution} :
    b ∈ d.bindings accepts filter facts ↔
      ∃ name, d.IsCandidate accepts filter facts name ∧ d.ref.binding name = b := by
  simp only [bindings, List.mem_filterMap]
  refine ⟨fun h => ?_, fun h => ?_⟩
  · obtain ⟨statement, hmem, h⟩ := h
    rcases statement with ⟨⟨type, args⟩ | _, name⟩ | _ | _
    · simp only [binding?, Option.ite_none_right_eq_some, Bool.and_eq_true] at h
      obtain ⟨htype, h⟩ := h
      obtain ⟨hfits, hb⟩ := Substitution.ofReference?_eq_some_iff.1 h
      exact ⟨name, ⟨⟨type, args, hmem, htype⟩, hfits⟩, hb⟩
    all_goals simp [binding?] at h
  · obtain ⟨name, ⟨⟨type, args, hmem, hadmits, haccepts⟩, hfits⟩, hb⟩ := h
    refine ⟨_, hmem, ?_⟩
    rw [binding?, hadmits, haccepts]
    exact Substitution.ofReference?_eq_some_iff.2 ⟨hfits, hb⟩

end Declaration

/-! ## What the product binds -/

namespace Substitution

/-- A substitution extends another by candidates of declared patterns: it gives every declared
variable a candidate of the last pattern that declares it, and differs in no other variable. No
pattern is without candidates. -/
structure Extends (accepts : TypeAcceptance) (filter : NameFilter) (facts : FactProgram)
    (ds : List Declaration) (r s : Substitution) : Prop where
  candidate : ∀ d ∈ ds, ∃ name, d.IsCandidate accepts filter facts name
  bound : ∀ {v d}, Declaration.lastVariable? v ds = some d →
    ∃ name, s.get? v = some name ∧ d.IsCandidate accepts filter facts name
  kept : ∀ {v}, Declaration.lastVariable? v ds = none → s.get? v = r.get? v

open Declaration

variable {ds : List Declaration} {r s : Substitution}

theorem extends_nil_iff : Extends accepts filter facts [] r s ↔ r = s := by
  refine ⟨fun h => NameTable.ext_get? fun v => (h.kept rfl).symm, fun h => ?_⟩
  exact ⟨fun _ hd => (List.not_mem_nil hd).elim, fun hd => (nomatch hd), fun _ => h ▸ rfl⟩

/-- A front pattern has a candidate, which is the fact of its variable if no later pattern declares
the same one. -/
theorem Extends.exists_head {d : Declaration} (h : Extends accepts filter facts (d :: ds) r s) :
    ∃ name, d.IsCandidate accepts filter facts name ∧
      ∀ v, d.ref = .variable v → lastVariable? v ds = none → s.get? v = some name := by
  obtain ⟨name, hname⟩ := h.candidate d List.mem_cons_self
  cases hd : d.ref with
  | fact target => exact ⟨name, hname, fun v hv => nomatch hv⟩
  | «variable» w =>
    cases hw : lastVariable? w ds with
    | some d' =>
      refine ⟨name, hname, fun v hv hnone => ?_⟩
      cases hv
      simp [hw] at hnone
    | none =>
      have hlast : lastVariable? w (d :: ds) = some d := by
        rw [lastVariable?_cons, hw, if_pos hd, Option.none_or]
      obtain ⟨name, hs, hname⟩ := h.bound hlast
      refine ⟨name, hname, fun v hv _ => ?_⟩
      cases hv
      exact hs

theorem Extends.tail {d : Declaration} {name : String}
    (h : Extends accepts filter facts (d :: ds) r s)
    (hlast : ∀ v, d.ref = .variable v → lastVariable? v ds = none → s.get? v = some name) :
    Extends accepts filter facts ds (r.combine (d.ref.binding name)) s := by
  refine ⟨fun d' hd' => h.candidate d' (List.mem_cons_of_mem _ hd'), ?_, ?_⟩
  · intro v d' hv
    exact h.bound (by rw [lastVariable?_cons, hv, Option.some_or])
  · intro v hv
    rw [get?_combine, Reference.get?_binding]
    by_cases hd : d.ref = .variable v
    · rw [if_pos hd, hlast v hd hv, Option.some_or]
    · have hnone : lastVariable? v (d :: ds) = none := by
        rw [lastVariable?_cons, hv, if_neg hd, Option.none_or]
      rw [if_neg hd, h.kept hnone, Option.none_or]

theorem Extends.cons {d : Declaration} {name : String}
    (hname : d.IsCandidate accepts filter facts name)
    (h : Extends accepts filter facts ds (r.combine (d.ref.binding name)) s) :
    Extends accepts filter facts (d :: ds) r s := by
  refine ⟨List.forall_mem_cons.2 ⟨⟨name, hname⟩, h.candidate⟩, ?_, ?_⟩
  · intro v d' hv
    rw [lastVariable?_cons] at hv
    cases hlast : lastVariable? v ds with
    | some d'' =>
      rw [hlast, Option.some_or] at hv
      cases hv
      exact h.bound hlast
    | none =>
      rw [hlast, Option.none_or, Option.ite_none_right_eq_some] at hv
      obtain ⟨hd, ⟨⟩⟩ := hv
      have hs : s.get? v = some name := by
        rw [h.kept hlast, get?_combine, Reference.get?_binding, if_pos hd, Option.some_or]
      exact ⟨name, hs, hname⟩
  · intro v hv
    rw [lastVariable?_cons, Option.or_eq_none_iff] at hv
    obtain ⟨hlast, hd⟩ := hv
    have hd : d.ref ≠ .variable v := fun heq => by simp [heq] at hd
    rw [h.kept hlast, get?_combine, Reference.get?_binding, if_neg hd, Option.none_or]

/-- One more pattern in front extends by one of its candidates first. -/
theorem extends_cons_iff {d : Declaration} :
    Extends accepts filter facts (d :: ds) r s ↔
      ∃ name, d.IsCandidate accepts filter facts name ∧
        Extends accepts filter facts ds (r.combine (d.ref.binding name)) s := by
  refine ⟨fun h => ?_, fun h => ?_⟩
  · obtain ⟨name, hname, hlast⟩ := h.exists_head
    exact ⟨name, hname, h.tail hlast⟩
  · obtain ⟨name, hname, h⟩ := h
    exact h.cons hname

theorem mem_joinedFrom_iff {running : List Substitution} :
    s ∈ joinedFrom accepts filter facts running ds ↔
      ∃ r ∈ running, Extends accepts filter facts ds r s := by
  induction ds generalizing running with
  | nil => simp [joinedFrom, extends_nil_iff]
  | cons d ds ih =>
    rw [joinedFrom, List.foldl_cons, ← joinedFrom, ih]
    simp only [mem_product, mem_bindings_iff, extends_cons_iff]
    refine ⟨fun h => ?_, fun h => ?_⟩
    · obtain ⟨_, ⟨r, hr, _, ⟨name, hname, rfl⟩, rfl⟩, h⟩ := h
      exact ⟨r, hr, name, hname, h⟩
    · obtain ⟨r, hr, name, hname, h⟩ := h
      exact ⟨_, ⟨r, hr, _, ⟨name, hname, rfl⟩, rfl⟩, h⟩

theorem mem_joined_iff :
    s ∈ joined accepts filter facts ds ↔ Extends accepts filter facts ds .empty s := by
  simp [joined, mem_joinedFrom_iff]

end Substitution

end Selectors
