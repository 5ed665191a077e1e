import Selectors.Json.Basic

/-!
# Records in JSON

A record is written as an object, or as an array of its first fields in their order. A record that
comes in variants has one more field, its tag, which stands first in the array form. `Json.fields?`
and `Json.variant?` give the values of the fields, `none` for one that is absent.

An object may have further members, which are passed over; a value that is passed over has to be
JSON, no more. A record with variants is read whole: everything in it has to have a value and to
stand within the allowed nesting, and the tags of records inside it may be given by their position
among the variants.

A document is malformed, or it has a name filter that is a text other than the star. Records that
take no further fields are read member by member, so that the first of several errors is the one
that counts.
-/

namespace Selectors

/-- How many arrays and objects may stand within one another. -/
def maxNesting : Nat := 127

namespace Json

/-- Whether the value of a member that no field answers to can be passed over: the member's name has
to be a string, its value JSON. -/
def isPassedOver : Json → Bool
  | .fault f => f = .value
  | j => j.isGrammatical

/-- The values of the fields of a record, in the order of their names. A field given twice, or an
item past the last field, makes the record unreadable. -/
def fields? (names : List String) : Json → Option (List (Option Json))
  | .obj members =>
    if names.all (fun name => members.countP (·.1 == name) ≤ 1)
        && members.all (fun member => names.contains member.1 || member.2.isPassedOver) then
      some (names.map fun name => members.lookup name)
    else none
  | .arr items =>
    if items.length ≤ names.length then some ((List.range names.length).map (items[·]?)) else none
  | _ => none

/-- The tag of a record with variants, and the record without it. The tag has to be given once. -/
def untag? (key : String) : Json → Option (Json × Json)
  | .obj members =>
    match members.filter (·.1 == key) with
    | [(_, tag)] => some (tag, .obj (members.filter (·.1 != key)))
    | _ => none
  | .arr (tag :: items) => some (tag, .arr items)
  | _ => none

def pick? (variants : List (String × List String)) : Json → Option (String × List String)
  | .str name => variants.find? (·.1 == name)
  | .num literal => (variants.zipIdx.find? fun (_, index) => toString index == literal).map (·.1)
  | _ => none

def variant? (key : String) (variants : List (String × List String)) (j : Json) :
    Option (String × List (Option Json)) := do
  let (tag, record) ← j.untag? key
  let (name, names) ← pick? variants tag
  return (name, ← record.fields? names)

/-- Whether a record is tagged by a name and not by a position. -/
def isTaggedByName (key : String) (j : Json) : Bool :=
  match j.untag? key with
  | some (.str _, _) => true
  | _ => false

/-- Reads a document that is read whole, inside as many arrays and objects as `outer` says. -/
def readWhole {α : Type} (decode? : Nat → Json → Option α) (outer : Nat) (j : Json) : Option α :=
  if j.isLegible && j.depth + outer ≤ maxNesting then decode? maxNesting j else none

/-- Reads a record with variants that stands for itself, so that its tag has to be a name. -/
def readTagged {α : Type} (key : String) (decode? : Nat → Json → Option α) (outer : Nat)
    (j : Json) : Option α :=
  if j.isTaggedByName key then j.readWhole decode? outer else none

/-! ## Values of fields -/

def text? : Json → Option String
  | .str value => some value
  | _ => none

def bool? : Json → Option Bool
  | .bool value => some value
  | _ => none

def items? : Json → Option (List Json)
  | .arr items => some items
  | _ => none

def list? {α : Type} (item? : Json → Option α) (j : Json) : Option (List α) := do
  (← j.items?).mapM item?

def listOrNil? {α : Type} (item? : Json → Option α) : Option Json → Option (List α)
  | none => some []
  | some j => j.list? item?

end Json

/-! ## Records without further fields -/

inductive ReadError where
  /-- The text is not what the document's form asks for. -/
  | malformed
  /-- A name filter is a text that is not the star. -/
  | unknownFilter (text : String)
  deriving DecidableEq, Inhabited, Repr

namespace ReadError

/-- The wording of an error. What makes a document malformed is not told. -/
def detail : ReadError → String
  | .malformed => "<detail>"
  | .unknownFilter text => "match setting must be \"*\" or a list of names, got \"" ++ text ++ "\""

/-- A value that can only be missing because its document is malformed. -/
def orMalformed {α : Type} : Option α → Except ReadError α
  | some value => .ok value
  | none => .error .malformed

end ReadError

/-- Reads the members of a record that admits only the named fields, in the order in which they are
given, and each at most once. -/
def readMembers {σ ν : Type} (names : List String) (set : σ → String → ν → Except ReadError σ) :
    (seen : List String) → σ → List (String × ν) → Except ReadError σ
  | _, record, [] => .ok record
  | seen, record, (name, value) :: rest =>
    if names.contains name && !seen.contains name then do
      readMembers names set (name :: seen) (← set record name value) rest
    else .error .malformed

/-- The members of a record that is written as an array. An item past the last field has no name. -/
def Json.positional (names : List String) (items : List Json) : List (String × Json) :=
  names.zip items ++ (items.drop names.length).map (("", ·))

def Json.readClosed {σ : Type} (names : List String)
    (set : σ → String → Json → Except ReadError σ) (start : σ) : Json → Except ReadError σ
  | .obj members => readMembers names set [] start members
  | .arr items => readMembers names set [] start (positional names items)
  | _ => .error .malformed

end Selectors
