import Selectors.Document.Record
import Selectors.Substitution
import Selectors.Vocabulary

/-!
# Vocabularies, fact programs and substitutions in JSON

A vocabulary is a record of records. Types, terms, arguments of predicates and statements are
records with variants, tagged by `kind`. An argument is a term if it reads as one; otherwise it is a
predicate, a record without a tag. A substitution is an object from variables to facts, in which the
last value of a variable counts.
-/

namespace Selectors

/-! ## Vocabularies and substitutions -/

def SubtypePair.toJson (p : SubtypePair) : Json := .obj [("sub", .str p.sub), ("sup", .str p.sup)]

def SubtypePair.ofJson? (j : Json) : Option SubtypePair := do
  match ← j.fields? ["sub", "sup"] with
  | [some sub, some sup] => return ⟨← sub.text?, ← sup.text?⟩
  | _ => none

namespace Vocabulary

def typeToJson (name : String) : Json := .obj [("name", .str name)]

def typeOfJson? (j : Json) : Option String := do
  match ← j.fields? ["name"] with
  | [some name] => name.text?
  | _ => none

def toJson (v : Vocabulary) : Json :=
  .obj [("types", .arr (v.types.map typeToJson)),
    ("subtypes", .arr (v.subtypes.map SubtypePair.toJson))]

def ofJson? (j : Json) : Option Vocabulary := do
  match ← j.fields? ["types", "subtypes"] with
  | [types, subtypes] =>
    return ⟨← Json.listOrNil? typeOfJson? types, ← Json.listOrNil? SubtypePair.ofJson? subtypes⟩
  | _ => none

end Vocabulary

namespace Substitution

def toJson (s : Substitution) : Json := .obj (s.entries.map fun (var, fact) => (var, .str fact))

def ofJson? : Json → Option Substitution
  | .obj members => do
    let bindings ← members.mapM fun (var, fact) => return (var, ← fact.text?)
    return .ofList bindings
  | _ => none

end Substitution

/-! ## Types -/

mutual
def FactType.toJson : FactType → Json
  | .constructor name args =>
    .obj [("kind", .str "constructor"), ("name", .str name), ("args", .arr (FactType.toJsons args))]
  | .var name => .obj [("kind", .str "var"), ("name", .str name)]

def FactType.toJsons : List FactType → List Json
  | [] => []
  | type :: types => type.toJson :: FactType.toJsons types
end

/-- Reads a type of at most so many levels. -/
def FactType.decode? : Nat → Json → Option FactType
  | 0, _ => none
  | levels + 1, j => do
    match ← j.variant? "kind" [("constructor", ["name", "args"]), ("var", ["name"])] with
    | ("constructor", [some name, args]) =>
      return .constructor (← name.text?) (← Json.listOrNil? (FactType.decode? levels) args)
    | ("var", [some name]) => return .var (← name.text?)
    | _ => none

def FactType.ofJson? (j : Json) : Option FactType := j.readTagged "kind" FactType.decode? 0

/-! ## Terms -/

def Operator.tag : Operator → String
  | .function => "apply_func"
  | .constructor => "apply_cons"

mutual
def Term.toJson : Term → Json
  | .var name => .obj [("kind", .str "var"), ("name", .str name)]
  | .app operator name args =>
    .obj [("kind", .str operator.tag), ("name", .str name), ("args", .arr (Term.toJsons args))]

def Term.toJsons : List Term → List Json
  | [] => []
  | term :: terms => term.toJson :: Term.toJsons terms
end

def Term.decode? : Nat → Json → Option Term
  | 0, _ => none
  | levels + 1, j => do
    match ← j.variant? "kind" [("var", ["name"]), ("apply_func", ["name", "args"]),
        ("apply_cons", ["name", "args"])] with
    | ("var", [some name]) => return .var (← name.text?)
    | ("apply_func", [some name, args]) =>
      return .app .function (← name.text?) (← Json.listOrNil? (Term.decode? levels) args)
    | ("apply_cons", [some name, args]) =>
      return .app .constructor (← name.text?) (← Json.listOrNil? (Term.decode? levels) args)
    | _ => none

def Term.ofJson? (j : Json) : Option Term := j.readTagged "kind" Term.decode? 0

/-! ## Predicates and their arguments -/

mutual
def Argument.toJson : Argument → Json
  | .term t => t.toJson
  | .pred name args => .obj [("name", .str name), ("args", .arr (Argument.toJsons args))]

def Argument.toJsons : List Argument → List Json
  | [] => []
  | arg :: args => arg.toJson :: Argument.toJsons args
end

def Argument.decode? : Nat → Json → Option Argument
  | 0, _ => none
  | levels + 1, j =>
    match Term.decode? (levels + 1) j with
    | some t => some (.term t)
    | none => do
      match ← j.fields? ["name", "args"] with
      | [some name, args] =>
        return .pred (← name.text?) (← Json.listOrNil? (Argument.decode? levels) args)
      | _ => none

def Argument.ofJson? (j : Json) : Option Argument := j.readWhole Argument.decode? 0

def Predicate.toJson (p : Predicate) : Json :=
  .obj [("name", .str p.name), ("args", .arr (p.args.map Argument.toJson))]

/-! ## Statements -/

def Statement.toJson : Statement → Json
  | .decl type name => .obj [("kind", .str "decl"), ("ty", type.toJson), ("name", .str name)]
  | .bind name term => .obj [("kind", .str "bind"), ("name", .str name), ("expr", term.toJson)]
  | .pred p =>
    .obj [("kind", .str "apply_predicate"), ("name", .str p.name),
      ("args", .arr (p.args.map Argument.toJson))]

def Statement.decode? (levels : Nat) (j : Json) : Option Statement := do
  match ← j.variant? "kind" [("decl", ["ty", "name"]), ("bind", ["name", "expr"]),
      ("apply_predicate", ["name", "args"])] with
  | ("decl", [some type, some name]) => return .decl (← FactType.decode? levels type) (← name.text?)
  | ("bind", [some name, some term]) => return .bind (← name.text?) (← Term.decode? levels term)
  | ("apply_predicate", [some name, args]) =>
    return .pred ⟨← name.text?, ← Json.listOrNil? (Argument.decode? levels) args⟩
  | _ => none

/-- Reads the document of a statement that stands inside `outer` arrays and objects. -/
def Statement.ofJson? (j : Json) (outer : Nat := 0) : Option Statement :=
  j.readTagged "kind" Statement.decode? outer

def FactProgram.toJson (p : FactProgram) : Json :=
  .obj [("statements", .arr (p.statements.map Statement.toJson))]

def FactProgram.ofJson? (j : Json) : Option FactProgram := do
  match ← j.fields? ["statements"] with
  | [some statements] => return ⟨← statements.list? (Statement.ofJson? · 2)⟩
  | _ => none

end Selectors
