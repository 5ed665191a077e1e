import Mathlib.Logic.Function.Basic
import Selectors.Pattern
import Selectors.Proofs.Holding

/-!
# Renaming variables and facts

A `Renaming` gives new names to the pattern variables and to the facts, each kind by a map of its
own; the names of types, predicates, functions and constructors stay. What a constraint denotes is
renamed with it (`Constraint.denotes_rename_iff`), so that it holds among the renamed statements
under the renamed substitution just when it held before (`Constraint.holdsUnder_rename_iff`). The
new names need not come in the order of the old ones: a renamed substitution is sorted again, and is
known by what it gives to the renamed variables (`Substitution.get?_rename`).
-/

namespace Selectors

/-- New names for variables and for facts; different names stay different. -/
structure Renaming where
  var : String → String
  fact : String → String
  var_injective : Function.Injective var
  fact_injective : Function.Injective fact

/-! ## Renaming selectors -/

def Reference.rename (ρ : Renaming) : Reference → Reference
  | .variable name => .variable (ρ.var name)
  | .fact name => .fact (ρ.fact name)

mutual
def Expr.rename (ρ : Renaming) : Expr → Expr
  | .ref r => .ref (r.rename ρ)
  | .app operator name args => .app operator name (Expr.renameAll ρ args)

def Expr.renameAll (ρ : Renaming) : List Expr → List Expr
  | [] => []
  | expr :: exprs => expr.rename ρ :: Expr.renameAll ρ exprs
end

mutual
def PatternArg.rename (ρ : Renaming) : PatternArg → PatternArg
  | .ref r => .ref (r.rename ρ)
  | .pred name args => .pred name (PatternArg.renameAll ρ args)

def PatternArg.renameAll (ρ : Renaming) : List PatternArg → List PatternArg
  | [] => []
  | arg :: args => arg.rename ρ :: PatternArg.renameAll ρ args
end

def Constraint.rename (ρ : Renaming) : Constraint → Constraint
  | .bind r expr => .bind (r.rename ρ) (expr.rename ρ)
  | .pred name args => .pred name (PatternArg.renameAll ρ args)

def Declaration.rename (ρ : Renaming) (d : Declaration) : Declaration :=
  { d with ref := d.ref.rename ρ }

def Selector.rename (ρ : Renaming) (sel : Selector) : Selector where
  head := sel.head.map (·.rename ρ)
  withDecls := sel.withDecls.map (·.rename ρ)
  constraints := sel.constraints.map (·.rename ρ)

def Header.rename (ρ : Renaming) : Header → Header
  | .selector sel => .selector (sel.rename ρ)
  | .space name => .space name

/-! ## Renaming facts -/

mutual
def Term.rename (ρ : Renaming) : Term → Term
  | .var name => .var (ρ.fact name)
  | .app operator name args => .app operator name (Term.renameAll ρ args)

def Term.renameAll (ρ : Renaming) : List Term → List Term
  | [] => []
  | term :: terms => term.rename ρ :: Term.renameAll ρ terms
end

mutual
def Argument.rename (ρ : Renaming) : Argument → Argument
  | .term t => .term (t.rename ρ)
  | .pred name args => .pred name (Argument.renameAll ρ args)

def Argument.renameAll (ρ : Renaming) : List Argument → List Argument
  | [] => []
  | arg :: args => arg.rename ρ :: Argument.renameAll ρ args
end

def Predicate.rename (ρ : Renaming) (p : Predicate) : Predicate :=
  ⟨p.name, Argument.renameAll ρ p.args⟩

def Statement.rename (ρ : Renaming) : Statement → Statement
  | .decl type name => .decl type (ρ.fact name)
  | .bind name term => .bind (ρ.fact name) (term.rename ρ)
  | .pred predicate => .pred (predicate.rename ρ)

def FactProgram.rename (ρ : Renaming) (facts : FactProgram) : FactProgram :=
  ⟨facts.statements.map (·.rename ρ)⟩

def Assertion.rename (ρ : Renaming) : Assertion → Assertion
  | .bind name term => .bind (ρ.fact name) (term.rename ρ)
  | .pred predicate => .pred (predicate.rename ρ)

/-- The bindings with their variables and facts renamed. -/
def Substitution.rename (ρ : Renaming) (s : Substitution) : Substitution :=
  .ofList (s.entries.map fun entry => (ρ.var entry.1, ρ.fact entry.2))

variable {ρ : Renaming}

/-! ## Different facts stay different -/

mutual
theorem Term.rename_inj : ∀ {s t : Term}, s.rename ρ = t.rename ρ ↔ s = t
  | .var a, .var b => by simp [Term.rename, ρ.fact_injective.eq_iff]
  | .app o f ss, .app p g ts => by simp [Term.rename, Term.renameAll_inj]
  | .var _, .app .. => by simp [Term.rename]
  | .app .., .var _ => by simp [Term.rename]

theorem Term.renameAll_inj : ∀ {ss ts : List Term},
    Term.renameAll ρ ss = Term.renameAll ρ ts ↔ ss = ts
  | [], [] => by simp
  | s :: ss, t :: ts => by simp [Term.renameAll, Term.rename_inj, Term.renameAll_inj]
  | [], _ :: _ => by simp [Term.renameAll]
  | _ :: _, [] => by simp [Term.renameAll]
end

mutual
theorem Argument.rename_inj : ∀ {a b : Argument}, a.rename ρ = b.rename ρ ↔ a = b
  | .term s, .term t => by simp [Argument.rename, Term.rename_inj]
  | .pred p as, .pred q bs => by simp [Argument.rename, Argument.renameAll_inj]
  | .term _, .pred .. => by simp [Argument.rename]
  | .pred .., .term _ => by simp [Argument.rename]

theorem Argument.renameAll_inj : ∀ {as bs : List Argument},
    Argument.renameAll ρ as = Argument.renameAll ρ bs ↔ as = bs
  | [], [] => by simp
  | a :: as, b :: bs => by simp [Argument.renameAll, Argument.rename_inj, Argument.renameAll_inj]
  | [], _ :: _ => by simp [Argument.renameAll]
  | _ :: _, [] => by simp [Argument.renameAll]
end

theorem Predicate.rename_inj {p q : Predicate} : p.rename ρ = q.rename ρ ↔ p = q := by
  obtain ⟨name, args⟩ := p
  obtain ⟨name', args'⟩ := q
  simp [rename, Argument.renameAll_inj]

theorem Statement.rename_inj : ∀ {a b : Statement}, a.rename ρ = b.rename ρ ↔ a = b
  | .decl .., .decl .. => by simp [rename, ρ.fact_injective.eq_iff]
  | .bind .., .bind .. => by simp [rename, ρ.fact_injective.eq_iff, Term.rename_inj]
  | .pred _, .pred _ => by simp [rename, Predicate.rename_inj]
  | .decl .., .bind .. | .decl .., .pred _ | .bind .., .decl .. => by simp [rename]
  | .bind .., .pred _ | .pred _, .decl .. | .pred _, .bind .. => by simp [rename]

/-! ## What stays as it is -/

theorem Reference.rename_eq_variable_iff {r : Reference} {w : String} :
    r.rename ρ = .variable w ↔ ∃ v, r = .variable v ∧ ρ.var v = w := by
  cases r <;> simp [rename]

theorem Reference.vars_rename (r : Reference) : (r.rename ρ).vars = r.vars.map ρ.var := by
  cases r <;> rfl

mutual
theorem Expr.vars_rename : ∀ expr : Expr, (expr.rename ρ).vars = expr.vars.map ρ.var
  | .ref r => r.vars_rename
  | .app operator name args => by simp only [Expr.rename, Expr.vars, Expr.varsOfAll_renameAll args]

theorem Expr.varsOfAll_renameAll : ∀ exprs : List Expr,
    Expr.varsOfAll (Expr.renameAll ρ exprs) = (Expr.varsOfAll exprs).map ρ.var
  | [] => rfl
  | expr :: exprs => by
    simp only [Expr.renameAll, Expr.varsOfAll, List.map_append, Expr.vars_rename expr,
      Expr.varsOfAll_renameAll exprs]
end

mutual
theorem PatternArg.vars_rename : ∀ arg : PatternArg, (arg.rename ρ).vars = arg.vars.map ρ.var
  | .ref r => r.vars_rename
  | .pred name args => by
    simp only [PatternArg.rename, PatternArg.vars, PatternArg.varsOfAll_renameAll args]

theorem PatternArg.varsOfAll_renameAll : ∀ args : List PatternArg,
    PatternArg.varsOfAll (PatternArg.renameAll ρ args) = (PatternArg.varsOfAll args).map ρ.var
  | [] => rfl
  | arg :: args => by
    simp only [PatternArg.renameAll, PatternArg.varsOfAll, List.map_append,
      PatternArg.vars_rename arg, PatternArg.varsOfAll_renameAll args]
end

theorem Constraint.vars_rename (c : Constraint) : (c.rename ρ).vars = c.vars.map ρ.var := by
  cases c with
  | bind r expr => simp only [rename, vars, List.map_append, r.vars_rename, expr.vars_rename]
  | pred name args => exact PatternArg.varsOfAll_renameAll args

mutual
theorem Expr.unresolved_rename : ∀ expr : Expr, (expr.rename ρ).unresolved = expr.unresolved
  | .ref _ => rfl
  | .app none name args => by
    simp only [Expr.rename, Expr.unresolved, Expr.unresolvedOfAll_renameAll args]
  | .app (some _) name args => by
    simp only [Expr.rename, Expr.unresolved, Expr.unresolvedOfAll_renameAll args]

theorem Expr.unresolvedOfAll_renameAll : ∀ exprs : List Expr,
    Expr.unresolvedOfAll (Expr.renameAll ρ exprs) = Expr.unresolvedOfAll exprs
  | [] => rfl
  | expr :: exprs => by
    simp only [Expr.renameAll, Expr.unresolvedOfAll, Expr.unresolved_rename expr,
      Expr.unresolvedOfAll_renameAll exprs]
end

theorem Constraint.unresolved_rename (c : Constraint) :
    (c.rename ρ).unresolved = c.unresolved := by
  cases c with
  | bind r expr => exact expr.unresolved_rename
  | pred name args => rfl

/-! ## Renamed substitutions -/

namespace Substitution
variable {s t : Substitution} {v w x : String}

theorem get?_foldl_rename (v : String) :
    ∀ {entries : List (String × String)}, entries.Pairwise (fun a b => a.1 < b.1) →
      ∀ t : Substitution,
        ((entries.map fun entry => (ρ.var entry.1, ρ.fact entry.2)).foldl
          (fun t entry => t.insert entry.1 entry.2) t).get? (ρ.var v) =
            ((entries.lookup v).map ρ.fact).or (t.get? (ρ.var v))
  | [], _, t => by simp
  | first :: rest, h, t => by
    obtain ⟨hfirst, hrest⟩ := List.pairwise_cons.1 h
    rw [List.map_cons, List.foldl_cons, get?_foldl_rename v hrest, NameTable.get?_insert,
      NameTable.lookup_cons_eq_ite]
    by_cases hv : v = first.1
    · simp [hv, NameTable.lookup_eq_none_of_lt hfirst]
    · simp [hv, ρ.var_injective.ne hv]

@[simp] theorem get?_rename (s : Substitution) (v : String) :
    (s.rename ρ).get? (ρ.var v) = (s.get? v).map ρ.fact := by
  rw [rename, NameTable.ofList, get?_foldl_rename v s.sorted, NameTable.get?_empty, Option.or_none,
    NameTable.get?]

theorem get?_rename_eq_none (hw : ∀ v, ρ.var v ≠ w) : (s.rename ρ).get? w = none := by
  have hfold : ∀ (entries : List (String × String)) (t : Substitution),
      ((entries.map fun entry => (ρ.var entry.1, ρ.fact entry.2)).foldl
        (fun t entry => t.insert entry.1 entry.2) t).get? w = t.get? w := by
    intro entries
    induction entries with
    | nil => exact fun t => rfl
    | cons first rest ih =>
      intro t
      rw [List.map_cons, List.foldl_cons, ih, NameTable.get?_insert, if_neg (hw first.1).symm]
  exact hfold s.entries .empty

theorem get?_rename_eq_some_iff :
    (s.rename ρ).get? w = some x ↔ ∃ v y, s.get? v = some y ∧ ρ.var v = w ∧ ρ.fact y = x := by
  refine ⟨fun h => ?_, fun ⟨v, y, h, hv, hy⟩ => ?_⟩
  · by_cases hw : ∃ v, ρ.var v = w
    · obtain ⟨v, rfl⟩ := hw
      rw [get?_rename, Option.map_eq_some_iff] at h
      obtain ⟨y, hy, hx⟩ := h
      exact ⟨v, y, hy, rfl, hx⟩
    · rw [get?_rename_eq_none (not_exists.1 hw)] at h
      cases h
  · rw [← hv, get?_rename, h, Option.map_some, hy]

theorem mem_names_rename_iff : w ∈ (s.rename ρ).names ↔ ∃ v ∈ s.names, ρ.var v = w := by
  simp only [NameTable.mem_names_iff, get?_rename_eq_some_iff]
  exact ⟨fun ⟨_, v, y, h, hv, _⟩ => ⟨v, ⟨y, h⟩, hv⟩, fun ⟨v, ⟨y, h⟩, hv⟩ => ⟨_, v, y, h, hv, rfl⟩⟩

@[simp] theorem rename_empty : rename ρ .empty = .empty := rfl

theorem rename_combine (s t : Substitution) :
    (s.combine t).rename ρ = (s.rename ρ).combine (t.rename ρ) := by
  refine NameTable.ext_get? fun w => ?_
  by_cases hw : ∃ v, ρ.var v = w
  · obtain ⟨v, rfl⟩ := hw
    simp only [get?_rename, get?_combine, Option.map_or]
  · simp only [get?_combine, get?_rename_eq_none (not_exists.1 hw), Option.or_none]

theorem hasDistinctFacts_rename (s : Substitution) :
    (s.rename ρ).hasDistinctFacts = s.hasDistinctFacts := by
  rw [Bool.eq_iff_iff, hasDistinctFacts_iff, hasDistinctFacts_iff]
  simp only [get?_rename_eq_some_iff]
  refine ⟨fun h v w x hv hw => ?_, fun h v' w' x' hv' hw' => ?_⟩
  · exact ρ.var_injective (h _ _ _ ⟨v, x, hv, rfl, rfl⟩ ⟨w, x, hw, rfl, rfl⟩)
  · obtain ⟨v, x, hv, rfl, rfl⟩ := hv'
    obtain ⟨w, y, hw, rfl, hxy⟩ := hw'
    rw [h v w x hv (ρ.fact_injective hxy ▸ hw)]

end Substitution

/-! ## What renamed constraints denote -/

variable {s : Substitution}

theorem Reference.denotes_rename_iff {r : Reference} {name' : String} :
    (r.rename ρ).Denotes (s.rename ρ) name' ↔ ∃ name, r.Denotes s name ∧ ρ.fact name = name' := by
  cases r with
  | fact target =>
    exact ⟨fun | .fact => ⟨target, .fact, rfl⟩, fun ⟨_, .fact, h⟩ => h ▸ .fact⟩
  | «variable» v =>
    refine ⟨fun h => ?_, fun h => ?_⟩
    · cases h with
      | bound h =>
        rw [Substitution.get?_rename, Option.map_eq_some_iff] at h
        obtain ⟨name, h, hname⟩ := h
        exact ⟨name, .bound h, hname⟩
    · obtain ⟨name, ⟨h⟩, rfl⟩ := h
      exact .bound (by rw [Substitution.get?_rename, h, Option.map_some])

mutual
theorem Expr.denotes_rename_iff : ∀ {expr : Expr} {term' : Term},
    (expr.rename ρ).Denotes (s.rename ρ) term' ↔
      ∃ term, expr.Denotes s term ∧ term.rename ρ = term'
  | .ref r, term' => by
    refine ⟨fun h => ?_, fun h => ?_⟩
    · cases h with
      | ref h' =>
        obtain ⟨name, h, rfl⟩ := Reference.denotes_rename_iff.1 h'
        exact ⟨_, .ref h, rfl⟩
    · obtain ⟨_, ⟨h⟩ | _, rfl⟩ := h
      exact .ref (Reference.denotes_rename_iff.2 ⟨_, h, rfl⟩)
  | .app (some operator) name args, term' => by
    refine ⟨fun h => ?_, fun h => ?_⟩
    · cases h with
      | app h' =>
        obtain ⟨terms, h, rfl⟩ := Expr.allDenote_rename_iff.1 h'
        exact ⟨_, .app h, rfl⟩
    · obtain ⟨_, _ | ⟨h⟩, rfl⟩ := h
      exact .app (Expr.allDenote_rename_iff.2 ⟨_, h, rfl⟩)
  | .app none name args, term' => ⟨nofun, nofun⟩

theorem Expr.allDenote_rename_iff : ∀ {exprs : List Expr} {terms' : List Term},
    Expr.AllDenote (s.rename ρ) (Expr.renameAll ρ exprs) terms' ↔
      ∃ terms, Expr.AllDenote s exprs terms ∧ Term.renameAll ρ terms = terms'
  | [], terms' => ⟨fun | .nil => ⟨[], .nil, rfl⟩, fun ⟨_, .nil, h⟩ => h ▸ .nil⟩
  | expr :: exprs, terms' => by
    refine ⟨fun h => ?_, fun h => ?_⟩
    · cases h with
      | cons h' hs' =>
        obtain ⟨term, h, rfl⟩ := Expr.denotes_rename_iff.1 h'
        obtain ⟨terms, hs, rfl⟩ := Expr.allDenote_rename_iff.1 hs'
        exact ⟨_, .cons h hs, rfl⟩
    · obtain ⟨_, _ | ⟨h, hs⟩, rfl⟩ := h
      exact .cons (Expr.denotes_rename_iff.2 ⟨_, h, rfl⟩)
        (Expr.allDenote_rename_iff.2 ⟨_, hs, rfl⟩)
end

mutual
theorem PatternArg.denotes_rename_iff : ∀ {arg : PatternArg} {arg' : Argument},
    (arg.rename ρ).Denotes (s.rename ρ) arg' ↔ ∃ a, arg.Denotes s a ∧ a.rename ρ = arg'
  | .ref r, arg' => by
    refine ⟨fun h => ?_, fun h => ?_⟩
    · cases h with
      | ref h' =>
        obtain ⟨name, h, rfl⟩ := Reference.denotes_rename_iff.1 h'
        exact ⟨_, .ref h, rfl⟩
    · obtain ⟨_, ⟨h⟩ | _, rfl⟩ := h
      exact .ref (Reference.denotes_rename_iff.2 ⟨_, h, rfl⟩)
  | .pred name args, arg' => by
    refine ⟨fun h => ?_, fun h => ?_⟩
    · cases h with
      | pred h' =>
        obtain ⟨as, h, rfl⟩ := PatternArg.allDenote_rename_iff.1 h'
        exact ⟨_, .pred h, rfl⟩
    · obtain ⟨_, _ | ⟨h⟩, rfl⟩ := h
      exact .pred (PatternArg.allDenote_rename_iff.2 ⟨_, h, rfl⟩)

theorem PatternArg.allDenote_rename_iff : ∀ {args : List PatternArg} {args' : List Argument},
    PatternArg.AllDenote (s.rename ρ) (PatternArg.renameAll ρ args) args' ↔
      ∃ as, PatternArg.AllDenote s args as ∧ Argument.renameAll ρ as = args'
  | [], args' => ⟨fun | .nil => ⟨[], .nil, rfl⟩, fun ⟨_, .nil, h⟩ => h ▸ .nil⟩
  | arg :: args, args' => by
    refine ⟨fun h => ?_, fun h => ?_⟩
    · cases h with
      | cons h' hs' =>
        obtain ⟨a, h, rfl⟩ := PatternArg.denotes_rename_iff.1 h'
        obtain ⟨as, hs, rfl⟩ := PatternArg.allDenote_rename_iff.1 hs'
        exact ⟨_, .cons h hs, rfl⟩
    · obtain ⟨_, _ | ⟨h, hs⟩, rfl⟩ := h
      exact .cons (PatternArg.denotes_rename_iff.2 ⟨_, h, rfl⟩)
        (PatternArg.allDenote_rename_iff.2 ⟨_, hs, rfl⟩)
end

/-- A renamed constraint denotes, under a renamed substitution, what it denoted before, renamed. -/
theorem Constraint.denotes_rename_iff {c : Constraint} {a' : Assertion} :
    (c.rename ρ).Denotes (s.rename ρ) a' ↔ ∃ a, c.Denotes s a ∧ a.rename ρ = a' := by
  cases c with
  | bind r expr =>
    refine ⟨fun h => ?_, fun h => ?_⟩
    · cases h with
      | bind hr' he' =>
        obtain ⟨name, hr, rfl⟩ := Reference.denotes_rename_iff.1 hr'
        obtain ⟨term, he, rfl⟩ := Expr.denotes_rename_iff.1 he'
        exact ⟨_, .bind hr he, rfl⟩
    · obtain ⟨_, ⟨hr, he⟩ | _, rfl⟩ := h
      exact .bind (Reference.denotes_rename_iff.2 ⟨_, hr, rfl⟩)
        (Expr.denotes_rename_iff.2 ⟨_, he, rfl⟩)
  | pred name args =>
    refine ⟨fun h => ?_, fun h => ?_⟩
    · cases h with
      | pred h' =>
        obtain ⟨as, h, rfl⟩ := PatternArg.allDenote_rename_iff.1 h'
        exact ⟨_, .pred h, rfl⟩
    · obtain ⟨_, _ | ⟨h⟩, rfl⟩ := h
      exact .pred (PatternArg.allDenote_rename_iff.2 ⟨_, h, rfl⟩)

/-! ## Renamed constraints that hold -/

variable {admission : Admission} {facts : FactProgram}

theorem Assertion.toStatement_rename (a : Assertion) :
    (a.rename ρ).toStatement = a.toStatement.rename ρ := by
  cases a <;> rfl

/-- Which names are admitted is asked of predicates, functions and constructors only. -/
theorem Assertion.isAdmitted_rename (a : Assertion) :
    (a.rename ρ).isAdmitted admission = a.isAdmitted admission := by
  cases a with
  | bind name term => rcases term with _ | ⟨_ | _, _, _⟩ <;> rfl
  | pred predicate => rfl

theorem Assertion.toStatement_rename_mem_iff {a : Assertion} :
    (a.rename ρ).toStatement ∈ (facts.rename ρ).statements ↔ a.toStatement ∈ facts.statements := by
  rw [toStatement_rename, FactProgram.rename,
    List.mem_map_of_injective fun _ _ => Statement.rename_inj.1]

theorem Constraint.holdsUnder_rename_iff {c : Constraint} :
    (c.rename ρ).HoldsUnder admission (facts.rename ρ).statements (s.rename ρ) ↔
      c.HoldsUnder admission facts.statements s := by
  refine ⟨fun h => ?_, fun h => ?_⟩
  · obtain ⟨_, hc, hadmitted, hmem⟩ := h
    obtain ⟨a, ha, rfl⟩ := denotes_rename_iff.1 hc
    rw [Assertion.isAdmitted_rename] at hadmitted
    exact ⟨a, ha, hadmitted, Assertion.toStatement_rename_mem_iff.1 hmem⟩
  · obtain ⟨a, ha, hadmitted, hmem⟩ := h
    rw [← Assertion.isAdmitted_rename] at hadmitted
    exact ⟨_, denotes_rename_iff.2 ⟨a, ha, rfl⟩, hadmitted,
      Assertion.toStatement_rename_mem_iff.2 hmem⟩

theorem Substitution.satisfies_rename (cs : List Constraint) (s : Substitution) :
    (s.rename ρ).satisfies admission (facts.rename ρ).statements (cs.map (·.rename ρ)) =
      s.satisfies admission facts.statements cs := by
  rw [Bool.eq_iff_iff, satisfies_iff, satisfies_iff, List.forall_mem_map]
  simp only [Constraint.holdsUnder_rename_iff]

end Selectors
