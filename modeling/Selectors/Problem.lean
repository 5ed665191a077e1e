/-!
# Problems

A `Problem` is what can be wrong with a selector or with the facts it is matched against. A
`Diagnostic` reports it: a code, a message, and where it was found. Each code has a hint for the
reader.

`okUnless p b` is the value `b`, or the problem `p` if there is one. A computation that is shown to
be of this form has its problem and its value told apart: when it fails does not hang on the value,
and what it gives does not hang on the problem.
-/

namespace Selectors

inductive Problem where
  | undeclaredVariable (name constraint : String)
  | unsubstitutedVariable (name constraint : String)
  | unresolvedApplication (name constraint : String)
  | typeVariable (fact type : String)
  | duplicateDeclaration (name : String)
  | unknownType (name type : String)
  | scopeCount (expected actual : Nat)
  deriving DecidableEq, Inhabited, Repr

namespace Problem

def code : Problem → String
  | .undeclaredVariable .. | .duplicateDeclaration _ | .unknownType .. => "E-SELECTOR"
  | .typeVariable .. => "E-TYPE"
  | .unsubstitutedVariable .. | .unresolvedApplication .. | .scopeCount .. => "E-MATCH"

def message : Problem → String
  | .undeclaredVariable name constraint =>
    s!"pattern variable `{name}` used in `{constraint}` is never declared"
  | .unsubstitutedVariable name constraint =>
    s!"pattern variable `{name}` left unsubstituted in `{constraint}`"
  | .unresolvedApplication name constraint =>
    s!"application `{name}` in `{constraint}` was not resolved to a function or constructor"
  | .typeVariable fact type =>
    s!"declaration of `{fact}` has type variable `{type}`, expected a nullary type constructor"
  | .duplicateDeclaration name => s!"pattern variable `{name}` is declared more than once"
  | .unknownType name type => s!"type `{type}` of `{name}` is not declared in the vocabulary"
  | .scopeCount expected actual => s!"expected {expected} selector environments, got {actual}"

end Problem

/-- A report of a problem: its code and message, the index of the selector it concerns, and the file
it was found in. -/
structure Diagnostic where
  code : String
  message : String
  selector : Option Nat := none
  source : Option String := none
  deriving DecidableEq, Inhabited, Repr

def Problem.toDiagnostic (p : Problem) (selector : Option Nat) : Diagnostic :=
  ⟨p.code, p.message, selector, none⟩

namespace Diagnostic

/-- What a reader can do about reports of a code. -/
def hintFor : String → Option String
  | "E-IO" => some "check the input path and read permissions"
  | "E-INPUT" => some "inputs must be JSON documents of already-parsed programs"
  | "E-CONFIG" => some "check the TOML keys and the `*` / name-list match settings"
  | "E-SELECTOR" => some "declare every pattern variable once, in the head or a `with` clause"
  | "E-TYPE" => some "fact declarations must use nullary type constructors"
  | "E-MATCH" => some "an earlier compiler phase produced a malformed selector"
  | _ => none

def hint (d : Diagnostic) : Option String := hintFor d.code

/-- The written form: the file, the code and message, the selector, the hint; what is not known is
left out. -/
def text (d : Diagnostic) : String :=
  (match d.source with
    | some source => source ++ ": "
    | none => "")
  ++ d.code ++ ": " ++ d.message
  ++ (match d.selector with
    | some index => " in selector #" ++ toString index
    | none => "")
  ++ (match d.hint with
    | some hint => " (hint: " ++ hint ++ ")"
    | none => "")

end Diagnostic

/-! ## Computations that may meet a problem -/

/-- The value, or the problem if there is one. -/
def okUnless {α : Type} (problem? : Option Problem) (value : α) : Except Problem α :=
  match problem? with
  | some p => .error p
  | none => .ok value

variable {α β : Type} {p? : Option Problem} {p : Problem} {a a' : α}

@[simp] theorem okUnless_none : okUnless none a = .ok a := rfl

@[simp] theorem okUnless_some : okUnless (some p) a = .error p := rfl

theorem okUnless_eq_ok_iff : okUnless p? a = .ok a' ↔ p? = none ∧ a = a' := by
  cases p? <;> simp

theorem okUnless_eq_error_iff : okUnless p? a = .error p ↔ p? = some p := by
  cases p? <;> simp

@[simp] theorem map_okUnless (f : α → β) : (okUnless p? a).map f = okUnless p? (f a) := by
  cases p? <;> rfl

theorem bind_eq_ok_iff {x : Except Problem α} {f : α → Except Problem β} {b : β} :
    x >>= f = .ok b ↔ ∃ a, x = .ok a ∧ f a = .ok b := by
  cases x <;> simp [bind, Except.bind]

/-- Going through a list meets the problem of the first element that has one. -/
theorem mapM_eq_okUnless {f : α → Except Problem β} {problem? : α → Option Problem} {g : α → β}
    {l : List α} (h : ∀ a ∈ l, f a = okUnless (problem? a) (g a)) :
    l.mapM f = okUnless (l.findSome? problem?) (l.map g) := by
  induction l with
  | nil => rfl
  | cons a l ih =>
    rw [List.mapM_cons, h a List.mem_cons_self, ih fun b hb => h b (List.mem_cons_of_mem _ hb),
      List.findSome?_cons]
    cases problem? a with
    | some p => rfl
    | none => cases l.findSome? problem? <;> rfl

end Selectors
