import Selectors.Document.Load
import Selectors.Proofs.JsonTexts

/-!
# Arguments that carry a tag

An argument of a predicate is a tagged record or, if it does not read as one, a predicate without a
tag, and a predicate may have members that no field answers to. So an object whose tag is unknown,
or that is malformed otherwise, can be taken for a predicate. `loadByTag_eq` compares the readers
with strict ones, for which an object that carries the tag is the tagged record or nothing
(`ArgumentForm.readByTag?_of_hasMember`): these refuse the documents with an argument that is taken
for a predicate although it carries the tag (`misreads`), and read every other text as the readers
do.
-/

namespace Selectors

/-! ## Parts of records -/

namespace Json

/-- Whether a value is an object with a member of the name. -/
def hasMember (name : String) : Json → Bool
  | .obj members => members.any (·.1 == name)
  | _ => false

/-- The items of a field that holds a list, none if the field is absent. -/
def itemsOrNil? : Option Json → Option (List Json)
  | none => some []
  | some j => j.items?

/-- The name of a predicate without a tag, and what stands for its arguments. -/
def predicateParts? (j : Json) : Option (String × List Json) := do
  match ← j.fields? ["name", "args"] with
  | [some name, args] => return (← name.text?, ← itemsOrNil? args)
  | _ => none

/-- Whether a field holds a list with a bad item. -/
def anyItem (bad : Json → Bool) : Option Json → Bool
  | some (.arr items) => items.any bad
  | _ => false

theorem listOrNil?_eq {α : Type} (item? : Json → Option α) (j : Option Json) :
    listOrNil? item? j = (itemsOrNil? j).bind (·.mapM item?) := by
  cases j <;> rfl

/-- A predicate without a tag is read from its parts. -/
theorem fields?_predicate {α : Type} (item? : Json → Option α) (pred : String → List α → α)
    (j : Json) :
    (do
      match ← j.fields? ["name", "args"] with
      | [some name, args] => return pred (← name.text?) (← listOrNil? item? args)
      | _ => none) =
    (do
      let (name, items) ← j.predicateParts?
      return pred name (← items.mapM item?)) := by
  unfold predicateParts?
  obtain _ | values := j.fields? ["name", "args"]
  · rfl
  · simp only [Option.bind_eq_bind, Option.bind_some]
    split
    case h_1 name args =>
      rw [listOrNil?_eq]
      cases name.text? <;> cases itemsOrNil? args <;> rfl
    case h_2 => rfl

/-- Reads a record that can be a predicate with a tag: `predicate?` gives its name and arguments. -/
def readPredicateOr {α β : Type} (predicate? : Json → Option (Json × Option Json))
    (pred : String → List α → β) (other? : Json → Option β) (arg? : Json → Option α) (j : Json) :
    Option β :=
  match predicate? j with
  | some (name, args) => return pred (← name.text?) (← listOrNil? arg? args)
  | none => other? j

/-- Whether an argument of the predicate that a record can be is bad. -/
def anyArgument (predicate? : Json → Option (Json × Option Json)) (bad : Json → Bool) (j : Json) :
    Bool :=
  match predicate? j with
  | some (_, args) => anyItem bad args
  | none => false

/-- Reads a record whose only field holds a list. -/
def readListed {α β : Type} (field : String) (record : List α → β) (item? : Json → Option α)
    (j : Json) : Option β := do
  match ← j.fields? [field] with
  | [some items] => return record (← items.list? item?)
  | _ => none

/-- Whether an item of the list that a record holds is bad. -/
def anyListed (field : String) (bad : Json → Bool) (j : Json) : Bool :=
  match j.fields? [field] with
  | some [some items] => anyItem bad (some items)
  | _ => false

end Json

/-! ## Strict and lenient readers -/

/-- One reader refuses what is bad and reads everything else as the other reader does. -/
def Refuses {α : Type} (bad : Json → Bool) (strict? lenient? : Json → Option α) : Prop :=
  ∀ j, strict? j = if bad j then none else lenient? j

namespace Refuses

variable {α β : Type} {bad : Json → Bool} {strict? lenient? : Json → Option α}

theorem mapM (h : Refuses bad strict? lenient?) (items : List Json) :
    items.mapM strict? = if items.any bad then none else items.mapM lenient? := by
  induction items with
  | nil => rfl
  | cons item items ih =>
    rw [List.mapM_cons, List.mapM_cons, h item, ih, List.any_cons]
    cases bad item
    · cases items.any bad
      · rfl
      · cases lenient? item <;> rfl
    · rfl

theorem readTagged {strict? lenient? : Nat → Json → Option α}
    (h : Refuses bad (strict? maxNesting) (lenient? maxNesting)) (key : String) (outer : Nat) :
    Refuses bad (Json.readTagged key strict? outer) (Json.readTagged key lenient? outer) := by
  intro j
  unfold Json.readTagged Json.readWhole
  split
  · split
    · exact h j
    · simp
  · simp

theorem list? (h : Refuses bad strict? lenient?) (j : Json) :
    j.list? strict? = if Json.anyItem bad (some j) then none else j.list? lenient? := by
  cases j with
  | arr items => exact h.mapM items
  | _ => rfl

theorem listOrNil? (h : Refuses bad strict? lenient?) (j : Option Json) :
    Json.listOrNil? strict? j =
      if Json.anyItem bad j then none else Json.listOrNil? lenient? j := by
  cases j with
  | none => rfl
  | some j => exact h.list? j

theorem readPredicateOr (h : Refuses bad strict? lenient?)
    (predicate? : Json → Option (Json × Option Json)) (pred : String → List α → β)
    (other? : Json → Option β) :
    Refuses (Json.anyArgument predicate? bad) (Json.readPredicateOr predicate? pred other? strict?)
      (Json.readPredicateOr predicate? pred other? lenient?) := by
  intro j
  unfold Json.readPredicateOr Json.anyArgument
  obtain _ | ⟨name, args⟩ := predicate? j
  · rfl
  · simp only [h.listOrNil? args]
    cases name.text? <;> cases Json.anyItem bad args <;> simp

theorem readListed (h : Refuses bad strict? lenient?) (field : String) (record : List α → β) :
    Refuses (Json.anyListed field bad) (Json.readListed field record strict?)
      (Json.readListed field record lenient?) := by
  intro j
  unfold Json.readListed Json.anyListed
  obtain _ | values := j.fields? [field]
  · rfl
  · simp only [Option.bind_eq_bind, Option.bind_some, h.list?]
    split
    case h_1 items => by_cases hbad : Json.anyItem bad (some items) <;> simp [hbad]
    case h_2 => simp

end Refuses

/-! ## Arguments -/

/-- How arguments of one kind of predicate are read: the key of the tagged records among them, the
reader of those records, and the predicate of a name and arguments. -/
structure ArgumentForm (α : Type) where
  key : String
  tagged? : Nat → Json → Option α
  pred : String → List α → α

namespace ArgumentForm

variable {α : Type} (form : ArgumentForm α)

/-- Reads an argument as a tagged record, and as a predicate if it does not read as one. -/
def read? : Nat → Json → Option α
  | 0, _ => none
  | levels + 1, j =>
    match form.tagged? (levels + 1) j with
    | some a => some a
    | none => do
      let (name, items) ← j.predicateParts?
      return form.pred name (← items.mapM (read? levels))

/-- Reads an argument as a tagged record if it carries the tag, and as a predicate only if not. -/
def readByTag? : Nat → Json → Option α
  | 0, _ => none
  | levels + 1, j =>
    match form.tagged? (levels + 1) j with
    | some a => some a
    | none =>
      if j.hasMember form.key then none
      else do
        let (name, items) ← j.predicateParts?
        return form.pred name (← items.mapM (readByTag? levels))

/-- Whether an object that carries the tag is taken for a predicate, here or among the arguments. -/
def misreads : Nat → Json → Bool
  | 0, _ => false
  | levels + 1, j =>
    match form.tagged? (levels + 1) j, j.predicateParts? with
    | none, some (_, items) => j.hasMember form.key || items.any (misreads levels)
    | _, _ => false

/-- An object that carries the tag is read as the tagged record or not at all. -/
theorem readByTag?_of_hasMember {j : Json} (h : j.hasMember form.key) (levels : Nat) :
    form.readByTag? (levels + 1) j = form.tagged? (levels + 1) j := by
  rw [readByTag?]
  split <;> simp [*]

theorem refuses_misreads (levels : Nat) :
    Refuses (form.misreads levels) (form.readByTag? levels) (form.read? levels) := by
  induction levels with
  | zero => exact fun _ => rfl
  | succ levels ih =>
    intro j
    rw [readByTag?, read?, misreads]
    cases form.tagged? (levels + 1) j with
    | some a => rfl
    | none =>
      cases j.predicateParts? with
      | none => simp
      | some parts =>
        obtain ⟨name, items⟩ := parts
        cases hkey : j.hasMember form.key with
        | true => simp
        | false =>
          have hitems := ih.mapM items
          cases hany : items.any (form.misreads levels) <;> simp [hitems, hany]

end ArgumentForm

/-! ## Facts -/

def Argument.form : ArgumentForm Argument where
  key := "kind"
  tagged? levels j := (Term.decode? levels j).map .term
  pred := .pred

theorem Argument.form_read? : Argument.form.read? = Argument.decode? := by
  funext levels
  induction levels with
  | zero => rfl
  | succ levels ih =>
    funext j
    have htagged : form.tagged? (levels + 1) j = (Term.decode? (levels + 1) j).map .term := rfl
    rw [ArgumentForm.read?, Argument.decode?, ih, htagged]
    cases Term.decode? (levels + 1) j with
    | some t => rfl
    | none => exact (Json.fields?_predicate (decode? levels) .pred j).symm

namespace Statement

/-- The name and the arguments of a statement that applies a predicate. -/
def predicate? (j : Json) : Option (Json × Option Json) :=
  match j.variant? "kind" [("decl", ["ty", "name"]), ("bind", ["name", "expr"]),
    ("apply_predicate", ["name", "args"])] with
  | some ("apply_predicate", [some name, args]) => some (name, args)
  | _ => none

/-- Reads a statement whose arguments are read as `arg?` does. -/
def decodeWith? (arg? : Nat → Json → Option Argument) (levels : Nat) : Json → Option Statement :=
  Json.readPredicateOr predicate? (fun name args => .pred ⟨name, args⟩) (decode? levels)
    (arg? levels)

theorem decodeWith?_decode? : decodeWith? Argument.decode? = decode? := by
  funext levels j
  unfold decodeWith? Json.readPredicateOr predicate?
  split
  case h_1 h =>
    split at h
    case h_1 hvariant =>
      cases h
      rw [decode?, hvariant]
      rfl
    case h_2 => cases h
  case h_2 => rfl

end Statement

namespace FactProgram

/-- Reads a fact program whose arguments are read as `arg?` does. -/
def ofJsonWith? (arg? : Nat → Json → Option Argument) : Json → Option FactProgram :=
  Json.readListed "statements" .mk (Json.readTagged "kind" (Statement.decodeWith? arg?) 2)

theorem ofJsonWith?_decode? : ofJsonWith? Argument.decode? = ofJson? := by
  rw [ofJsonWith?, Statement.decodeWith?_decode?]
  rfl

/-- Whether an argument that carries the tag is taken for a predicate. -/
def misreads : Json → Bool :=
  Json.anyListed "statements" <|
    Json.anyArgument Statement.predicate? (Argument.form.misreads maxNesting)

theorem refuses_misreads :
    Refuses misreads (ofJsonWith? Argument.form.readByTag?) ofJson? := by
  rw [← ofJsonWith?_decode?, ← Argument.form_read?]
  have harg := Argument.form.refuses_misreads maxNesting
  have hstatement : Refuses _ (Statement.decodeWith? Argument.form.readByTag? maxNesting)
      (Statement.decodeWith? Argument.form.read? maxNesting) := harg.readPredicateOr _ _ _
  exact (hstatement.readTagged "kind" 2).readListed _ _

/-- Loads a fact program and refuses arguments that carry the tag but are malformed. -/
def loadByTag : String → Except Diagnostic FactProgram :=
  loadJson "fact program" fun j =>
    ReadError.orMalformed (ofJsonWith? Argument.form.readByTag? j)

end FactProgram

/-! ## Selectors -/

def PatternArg.form : ArgumentForm PatternArg where
  key := "origin"
  tagged? _ j := (Reference.decode? j).map .ref
  pred := .pred

theorem PatternArg.form_read? : PatternArg.form.read? = PatternArg.decode? := by
  funext levels
  induction levels with
  | zero => rfl
  | succ levels ih =>
    funext j
    have htagged : form.tagged? (levels + 1) j = (Reference.decode? j).map .ref := rfl
    rw [ArgumentForm.read?, PatternArg.decode?, ih, htagged]
    cases Reference.decode? j with
    | some r => rfl
    | none => exact (Json.fields?_predicate (decode? levels) .pred j).symm

namespace Constraint

/-- The name and the arguments of a constraint that wants a predicate. -/
def predicate? (j : Json) : Option (Json × Option Json) :=
  match j.variant? "kind" [("bind", ["id", "expr"]), ("pred", ["name", "args"])] with
  | some ("pred", [some name, args]) => some (name, args)
  | _ => none

/-- Reads a constraint whose arguments are read as `arg?` does. -/
def decodeWith? (arg? : Nat → Json → Option PatternArg) (levels : Nat) :
    Json → Option Constraint :=
  Json.readPredicateOr predicate? .pred (decode? levels) (arg? levels)

theorem decodeWith?_decode? : decodeWith? PatternArg.decode? = decode? := by
  funext levels j
  unfold decodeWith? Json.readPredicateOr predicate?
  split
  case h_1 h =>
    split at h
    case h_1 hvariant =>
      cases h
      rw [decode?, hvariant]
      rfl
    case h_2 => cases h
  case h_2 => rfl

end Constraint

namespace Header

/-- Reads a header whose constraints are read as `constraint?` does. -/
def decodeWith? (constraint? : Nat → Json → Option Constraint) (levels : Nat) (j : Json) :
    Option Header := do
  match ← j.variant? "kind" [("selector", ["head", "with", "where"]), ("namespace", ["name"])] with
  | ("selector", [some head, withDecls, constraints]) =>
    return .selector ⟨← head.list? Declaration.decode?,
      ← Json.listOrNil? Declaration.decode? withDecls,
      ← Json.listOrNil? (constraint? levels) constraints⟩
  | ("namespace", [some name]) => return .space (← name.text?)
  | _ => none

/-- Whether a constraint of a header is bad. -/
def anyConstraint (bad : Json → Bool) (j : Json) : Bool :=
  match j.variant? "kind" [("selector", ["head", "with", "where"]), ("namespace", ["name"])] with
  | some ("selector", [some _, _, constraints]) => Json.anyItem bad constraints
  | _ => false

theorem refuses_decodeWith? {bad : Json → Bool} {strict? lenient? : Nat → Json → Option Constraint}
    {levels : Nat} (h : Refuses bad (strict? levels) (lenient? levels)) :
    Refuses (anyConstraint bad) (decodeWith? strict? levels) (decodeWith? lenient? levels) := by
  intro j
  unfold decodeWith? anyConstraint
  obtain _ | ⟨name, values⟩ := j.variant? "kind" [("selector", ["head", "with", "where"]),
    ("namespace", ["name"])]
  · rfl
  · simp only [Option.bind_eq_bind, Option.bind_some, h.listOrNil?]
    split
    case h_1 head withDecls constraints heq =>
      cases heq
      cases head.list? Declaration.decode? <;>
        cases Json.listOrNil? Declaration.decode? withDecls <;>
        cases hbad : Json.anyItem bad constraints <;> simp [hbad]
    case h_2 heq =>
      cases heq
      simp
    case h_3 => simp

end Header

namespace StyleProgram

/-- Reads a style program whose arguments are read as `arg?` does. -/
def ofJsonWith? (arg? : Nat → Json → Option PatternArg) : Json → Option StyleProgram :=
  Json.readListed "headers" .mk <|
    Json.readTagged "kind" (Header.decodeWith? (Constraint.decodeWith? arg?)) 2

theorem ofJsonWith?_decode? : ofJsonWith? PatternArg.decode? = ofJson? := by
  rw [ofJsonWith?, Constraint.decodeWith?_decode?]
  rfl

/-- Whether an argument that carries the tag is taken for a predicate. -/
def misreads : Json → Bool :=
  Json.anyListed "headers" <| Header.anyConstraint <|
    Json.anyArgument Constraint.predicate? (PatternArg.form.misreads maxNesting)

theorem refuses_misreads :
    Refuses misreads (ofJsonWith? PatternArg.form.readByTag?) ofJson? := by
  rw [← ofJsonWith?_decode?, ← PatternArg.form_read?]
  have harg := PatternArg.form.refuses_misreads maxNesting
  have hconstraint : Refuses _ (Constraint.decodeWith? PatternArg.form.readByTag? maxNesting)
      (Constraint.decodeWith? PatternArg.form.read? maxNesting) := harg.readPredicateOr _ _ _
  have hheader := Header.refuses_decodeWith? hconstraint
  exact (hheader.readTagged "kind" 2).readListed _ _

/-- Loads a style program and refuses arguments that carry the tag but are malformed. -/
def loadByTag : String → Except Diagnostic StyleProgram :=
  loadJson "style program" fun j =>
    ReadError.orMalformed (ofJsonWith? PatternArg.form.readByTag? j)

end StyleProgram

/-! ## Texts -/

theorem Refuses.loadJson {α : Type} {bad : Json → Bool} {strict? lenient? : Json → Option α}
    (h : Refuses bad strict? lenient?) (what text : String) :
    loadJson what (fun j => ReadError.orMalformed (strict? j)) text =
      if bad (JsonText.read text).root then .error (ReadError.malformed.toDiagnostic what)
      else Selectors.loadJson what (fun j => ReadError.orMalformed (lenient? j)) text := by
  have hroot := h (JsonText.read text).root
  unfold Selectors.loadJson readJsonText
  simp only [hroot]
  split <;> rfl

/-- Loading by the tags refuses the texts with an argument that carries the tag and is taken for a
predicate, and loads every other text as it is loaded. -/
theorem loadByTag_eq (text : String) :
    FactProgram.loadByTag text =
        (if FactProgram.misreads (JsonText.read text).root then
          .error (ReadError.malformed.toDiagnostic "fact program")
        else FactProgram.load text) ∧
      StyleProgram.loadByTag text =
        if StyleProgram.misreads (JsonText.read text).root then
          .error (ReadError.malformed.toDiagnostic "style program")
        else StyleProgram.load text :=
  ⟨FactProgram.refuses_misreads.loadJson _ _, StyleProgram.refuses_misreads.loadJson _ _⟩

/-- A selector whose second argument has a misspelt tag. -/
def misspeltOrigin : Json :=
  .obj [("headers", .arr [.obj [("kind", .str "selector"),
    ("head", .arr [(Declaration.mk "A" (.variable "v")).toJson]),
    ("where", .arr [.obj [("kind", .str "pred"), ("name", .str "P"),
      ("args", .arr [(Reference.variable "v").toJson,
        .obj [("origin", .str "patern"), ("name", .str "w")]])]])]])]

theorem misspeltOrigin_loads :
    StyleProgram.load misspeltOrigin.compact = .ok ⟨[.selector ⟨[⟨"A", .variable "v"⟩], [],
        [.pred "P" [.ref (.variable "v"), .pred "w" []]]⟩]⟩ ∧
      StyleProgram.loadByTag misspeltOrigin.compact =
        .error (ReadError.malformed.toDiagnostic "style program") := by
  have hread : JsonText.read misspeltOrigin.compact = ⟨misspeltOrigin, false⟩ :=
    JsonText.read_compact rfl
  constructor
  · rw [StyleProgram.load, loadJson, readJsonText, hread]
    rfl
  · rw [StyleProgram.loadByTag, loadJson, readJsonText, hread]
    rfl

end Selectors
