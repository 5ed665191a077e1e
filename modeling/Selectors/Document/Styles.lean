import Selectors.Pattern
import Selectors.Document.Record

/-!
# Style programs in JSON

References are records tagged by `origin`; expressions, constraints and headers are tagged by
`kind`. An argument of a wanted predicate is a reference if it reads as one; otherwise it is a
predicate, a record without a tag.
-/

namespace Selectors

/-! ## References and declared patterns -/

def Reference.toJson : Reference → Json
  | .variable name => .obj [("origin", .str "pattern"), ("name", .str name)]
  | .fact name => .obj [("origin", .str "fact"), ("name", .str name)]

def Reference.decode? (j : Json) : Option Reference := do
  match ← j.variant? "origin" [("pattern", ["name"]), ("fact", ["name"])] with
  | ("pattern", [some name]) => return .variable (← name.text?)
  | ("fact", [some name]) => return .fact (← name.text?)
  | _ => none

def Reference.ofJson? (j : Json) (outer : Nat := 0) : Option Reference :=
  j.readTagged "origin" (fun _ => Reference.decode?) outer

def Declaration.toJson (d : Declaration) : Json := .obj [("ty", .str d.type), ("id", d.ref.toJson)]

/-- Reads a declared pattern whose reference is read as `ref?` does. -/
def Declaration.decodeWith? (ref? : Json → Option Reference) (j : Json) : Option Declaration := do
  match ← j.fields? ["ty", "id"] with
  | [some type, some ref] => return ⟨← type.text?, ← ref? ref⟩
  | _ => none

def Declaration.decode? (j : Json) : Option Declaration :=
  Declaration.decodeWith? Reference.decode? j

def Declaration.ofJson? (j : Json) : Option Declaration :=
  Declaration.decodeWith? (Reference.ofJson? · 1) j

/-! ## Expressions -/

/-- The tag of an application in an expression, whose operator may not be known. -/
def Expr.operatorTag : Option Operator → String
  | some .function => "func"
  | some .constructor => "val_cons"
  | none => "func_or_val_cons"

mutual
def Expr.toJson : Expr → Json
  | .ref r => .obj [("kind", .str "bind"), ("var", r.toJson)]
  | .app operator name args =>
    .obj [("kind", .str (Expr.operatorTag operator)), ("name", .str name),
      ("args", .arr (Expr.toJsons args))]

def Expr.toJsons : List Expr → List Json
  | [] => []
  | expr :: exprs => expr.toJson :: Expr.toJsons exprs
end

def Expr.decode? : Nat → Json → Option Expr
  | 0, _ => none
  | levels + 1, j => do
    match ← j.variant? "kind" [("bind", ["var"]), ("func", ["name", "args"]),
        ("val_cons", ["name", "args"]), ("func_or_val_cons", ["name", "args"])] with
    | ("bind", [some target]) => return .ref (← Reference.decode? target)
    | ("func", [some name, args]) =>
      return .app (some .function) (← name.text?) (← Json.listOrNil? (Expr.decode? levels) args)
    | ("val_cons", [some name, args]) =>
      return .app (some .constructor) (← name.text?) (← Json.listOrNil? (Expr.decode? levels) args)
    | ("func_or_val_cons", [some name, args]) =>
      return .app none (← name.text?) (← Json.listOrNil? (Expr.decode? levels) args)
    | _ => none

def Expr.ofJson? (j : Json) : Option Expr := j.readTagged "kind" Expr.decode? 0

/-! ## Constraints -/

mutual
def PatternArg.toJson : PatternArg → Json
  | .ref r => r.toJson
  | .pred name args => .obj [("name", .str name), ("args", .arr (PatternArg.toJsons args))]

def PatternArg.toJsons : List PatternArg → List Json
  | [] => []
  | arg :: args => arg.toJson :: PatternArg.toJsons args
end

def PatternArg.decode? : Nat → Json → Option PatternArg
  | 0, _ => none
  | levels + 1, j =>
    match Reference.decode? j with
    | some r => some (.ref r)
    | none => do
      match ← j.fields? ["name", "args"] with
      | [some name, args] =>
        return .pred (← name.text?) (← Json.listOrNil? (PatternArg.decode? levels) args)
      | _ => none

def PatternArg.ofJson? (j : Json) : Option PatternArg := j.readWhole PatternArg.decode? 0

def Constraint.toJson : Constraint → Json
  | .bind ref expr => .obj [("kind", .str "bind"), ("id", ref.toJson), ("expr", expr.toJson)]
  | .pred name args =>
    .obj [("kind", .str "pred"), ("name", .str name), ("args", .arr (args.map PatternArg.toJson))]

def Constraint.decode? (levels : Nat) (j : Json) : Option Constraint := do
  match ← j.variant? "kind" [("bind", ["id", "expr"]), ("pred", ["name", "args"])] with
  | ("bind", [some ref, some expr]) =>
    return .bind (← Reference.decode? ref) (← Expr.decode? levels expr)
  | ("pred", [some name, args]) =>
    return .pred (← name.text?) (← Json.listOrNil? (PatternArg.decode? levels) args)
  | _ => none

def Constraint.ofJson? (j : Json) : Option Constraint := j.readTagged "kind" Constraint.decode? 0

/-! ## Headers -/

def Header.toJson : Header → Json
  | .selector s =>
    .obj [("kind", .str "selector"), ("head", .arr (s.head.map Declaration.toJson)),
      ("with", .arr (s.withDecls.map Declaration.toJson)),
      ("where", .arr (s.constraints.map Constraint.toJson))]
  | .space name => .obj [("kind", .str "namespace"), ("name", .str name)]

def Header.decode? (levels : Nat) (j : Json) : Option Header := do
  match ← j.variant? "kind" [("selector", ["head", "with", "where"]), ("namespace", ["name"])] with
  | ("selector", [some head, withDecls, constraints]) =>
    return .selector ⟨← head.list? Declaration.decode?,
      ← Json.listOrNil? Declaration.decode? withDecls,
      ← Json.listOrNil? (Constraint.decode? levels) constraints⟩
  | ("namespace", [some name]) => return .space (← name.text?)
  | _ => none

def Header.ofJson? (j : Json) (outer : Nat := 0) : Option Header :=
  j.readTagged "kind" Header.decode? outer

def StyleProgram.toJson (p : StyleProgram) : Json :=
  .obj [("headers", .arr (p.headers.map Header.toJson))]

def StyleProgram.ofJson? (j : Json) : Option StyleProgram := do
  match ← j.fields? ["headers"] with
  | [some headers] => return ⟨← headers.list? (Header.ofJson? · 2)⟩
  | _ => none

end Selectors
