import Selectors.Json.Token

/-!
# Reading JSON texts

`JsonText.read` builds the tree of a text from its tokens, one by one. A text that is not JSON still
has a tree: what was read before the first fault, with the fault in its place.
-/

namespace Selectors

/-- An array or object that is being read, its parts last first. An object has the name of the
member that is being read; it is `none` if the name stands for nothing. -/
inductive OpenContainer where
  | array (items : List Json)
  | object (members : List (String × Json)) (name : Option String)
  deriving Inhabited, Repr

/-- What may come next in the innermost open container, or at the beginning of the text. -/
inductive Expected where
  | value
  | valueOrEnd
  | name
  | nameOrEnd
  | colon
  | commaOrEnd
  deriving DecidableEq, Inhabited, Repr

/-- How far a text has been read: containers that are open, innermost first, or the whole tree and
whether more followed. -/
inductive TreeBuilder where
  | reading (stack : List OpenContainer) (expected : Expected)
  | done (root : Json) (hasMore : Bool)
  | failed (root : Json)
  deriving Inhabited, Repr

namespace TreeBuilder

/-- A member of an object; a name that stands for nothing leaves a fault. -/
def member (name : Option String) (value : Json) : String × Json :=
  match name with
  | some name => (name, value)
  | none => ("", .fault (if value.isGrammatical then .name else .grammar))

def complete (value : Json) : List OpenContainer → TreeBuilder
  | [] => .done value false
  | .array items :: stack => .reading (.array (value :: items) :: stack) .commaOrEnd
  | .object members name :: stack =>
    .reading (.object (member name value :: members) name :: stack) .commaOrEnd

/-- The tree of what was read, with a last part in the innermost open container. -/
def closeAll (last : Json) : List OpenContainer → Json
  | [] => last
  | .array items :: stack => closeAll (.arr (last :: items).reverse) stack
  | .object members name :: stack => closeAll (.obj (member name last :: members).reverse) stack

def giveUp (stack : List OpenContainer) (expected : Expected) : TreeBuilder :=
  match stack, expected with
  | .object members _ :: outer, .name | .object members _ :: outer, .nameOrEnd
  | .object members _ :: outer, .colon | .object members _ :: outer, .commaOrEnd =>
    .failed (closeAll (.obj (("", .fault .grammar) :: members).reverse) outer)
  | _, _ => .failed (closeAll (.fault .grammar) stack)

def startValue (stack : List OpenContainer) (expected : Expected) : Token → TreeBuilder
  | .beginArray => .reading (.array [] :: stack) .valueOrEnd
  | .beginObject => .reading (.object [] none :: stack) .nameOrEnd
  | .string (some value) => complete (.str value) stack
  | .string none => complete (.fault .value) stack
  | .scalar value => complete value stack
  | _ => giveUp stack expected

def step : TreeBuilder → Token → TreeBuilder
  | .done root _, _ => .done root true
  | .failed root, _ => .failed root
  | .reading stack expected, token =>
    match expected, stack, token with
    | .valueOrEnd, .array _ :: outer, .endArray => complete (.arr []) outer
    | .value, _, _ | .valueOrEnd, _, _ => startValue stack expected token
    | .nameOrEnd, .object _ _ :: outer, .endObject => complete (.obj []) outer
    | .name, .object members _ :: outer, .string name
    | .nameOrEnd, .object members _ :: outer, .string name =>
      .reading (.object members name :: outer) .colon
    | .colon, _, .colon => .reading stack .value
    | .commaOrEnd, .array _ :: _, .comma => .reading stack .value
    | .commaOrEnd, .object _ _ :: _, .comma => .reading stack .name
    | .commaOrEnd, .array items :: outer, .endArray => complete (.arr items.reverse) outer
    | .commaOrEnd, .object members _ :: outer, .endObject => complete (.obj members.reverse) outer
    | _, _, _ => giveUp stack expected

end TreeBuilder

structure JsonText where
  root : Json
  hasMore : Bool
  deriving Inhabited, Repr

namespace JsonText

def ofBuilder : TreeBuilder → JsonText
  | .done root hasMore => ⟨root, hasMore⟩
  | .failed root => ⟨root, false⟩
  | .reading stack expected =>
    match TreeBuilder.giveUp stack expected with
    | .failed root => ⟨root, false⟩
    | _ => ⟨.fault .grammar, false⟩

def read (text : String) : JsonText :=
  ofBuilder ((Token.ofText text).foldl TreeBuilder.step (.reading [] .value))

end JsonText

end Selectors
