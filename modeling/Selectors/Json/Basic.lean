/-!
# JSON trees

A tree keeps the order of an object's members and names that occur twice. A text that is read only
in part still has a tree, with a `Fault` where something is missing, so that a reader of the tree
meets what the text has, and the fault, in order.
-/

namespace Selectors

/-- Why a place of a document has no value. -/
inductive Fault where
  /-- A string with half of a surrogate pair, or a number beyond the double range: well formed, but
  it stands for nothing. -/
  | value
  /-- A member whose name is such a string. -/
  | name
  /-- The text stops being JSON here. -/
  | grammar
  deriving DecidableEq, Inhabited, Repr

/-- A JSON document. Numbers are kept as they are written. -/
inductive Json where
  | null
  | bool (value : Bool)
  | num (literal : String)
  | str (value : String)
  | arr (items : List Json)
  | obj (members : List (String × Json))
  | fault (fault : Fault)
  deriving Inhabited, Repr

namespace Json

def nat (n : Nat) : Json := .num (toString n)

mutual
/-- How many arrays and objects stand within one another. -/
def depth : Json → Nat
  | .arr items => depthOfItems items + 1
  | .obj members => depthOfMembers members + 1
  | _ => 0

def depthOfItems : List Json → Nat
  | [] => 0
  | item :: items => max item.depth (depthOfItems items)

def depthOfMembers : List (String × Json) → Nat
  | [] => 0
  | (_, value) :: members => max value.depth (depthOfMembers members)
end

mutual
def hasFault (kinds : List Fault) : Json → Bool
  | .fault f => kinds.contains f
  | .arr items => anyItemHasFault kinds items
  | .obj members => anyMemberHasFault kinds members
  | _ => false

def anyItemHasFault (kinds : List Fault) : List Json → Bool
  | [] => false
  | item :: items => item.hasFault kinds || anyItemHasFault kinds items

def anyMemberHasFault (kinds : List Fault) : List (String × Json) → Bool
  | [] => false
  | (_, value) :: members => value.hasFault kinds || anyMemberHasFault kinds members
end

/-- Whether every place of the tree has a value. -/
def isLegible (j : Json) : Bool := !j.hasFault [.value, .name, .grammar]

/-- Whether the text of the tree is JSON to its end. -/
def isGrammatical (j : Json) : Bool := !j.hasFault [.grammar]

end Json

end Selectors
