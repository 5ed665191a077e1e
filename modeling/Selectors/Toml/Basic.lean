/-!
# TOML tables

A TOML document is a table. While it is read, a table remembers how it came about, because that
decides which later lines may add to it: `Toml.assign?` puts a value at a dotted key,
`Toml.openTable?` and `Toml.openElement?` read the headers `[a.b]` and `[[a.b]]`, and `Toml.within?`
changes the table that a header has opened. All of them fail where TOML forbids it.
-/

namespace Selectors

inductive TableForm where
  /-- Between braces; nothing can be added. -/
  | inline
  /-- By its own header. -/
  | header
  /-- By the header of a table inside it; its own header may follow. -/
  | implied
  /-- By a dotted key; other dotted keys may add to it. -/
  | dotted
  deriving DecidableEq, Inhabited, Repr

/-- A TOML value. Numbers, dates and times are kept as they are written. An array grows if it is an
array of tables, to which headers add elements. -/
inductive Toml where
  | text (value : String)
  | bool (value : Bool)
  | literal (text : String)
  | array (grows : Bool) (items : List Toml)
  | table (form : TableForm) (entries : List (String × Toml))
  deriving Inhabited, Repr

abbrev TomlEntries := List (String × Toml)

namespace Toml

def update? (name : String) (change : Option Toml → Option Toml) : TomlEntries → Option TomlEntries
  | [] => do return [(name, ← change none)]
  | (other, value) :: rest => do
    if other = name then return (other, ← change (some value)) :: rest
    else return (other, value) :: (← update? name change rest)

def updateLast? (change : TomlEntries → Option TomlEntries) (items : List Toml) :
    Option (List Toml) := do
  match items.getLast? with
  | some (.table form inner) => return items.dropLast ++ [.table form (← change inner)]
  | _ => none

/-- Gives a value to a dotted key, which must not have one yet. The path of the key leads through
tables that came about without headers of their own and through the last tables of arrays; the table
at its end, which takes the value, must have come about by dotted keys. -/
def assign? (value : Toml) : List String → TomlEntries → Option TomlEntries
  | [], _ => none
  | [name], entries => update? name (fun old => if old.isNone then some value else none) entries
  | name :: path, entries =>
    let isLast := path.length == 1
    update? name (fun
      | none => do return .table .dotted (← assign? value path [])
      | some (.table .dotted inner) => do return .table .dotted (← assign? value path inner)
      | some (.table .implied inner) => do
        if isLast then none else return .table .implied (← assign? value path inner)
      | some (.array true items) => do
        if isLast then none else return .array true (← updateLast? (assign? value path) items)
      | some _ => none) entries

/-- Changes the value of the last name of a header's path. The tables on the way need no headers of
their own. -/
def atHeader? (change : Option Toml → Option Toml) : List String → TomlEntries → Option TomlEntries
  | [], _ => none
  | [name], entries => update? name change entries
  | name :: path, entries =>
    update? name (fun
      | none => do return .table .implied (← atHeader? change path [])
      | some (.table .inline _) => none
      | some (.table form inner) => do return .table form (← atHeader? change path inner)
      | some (.array true items) => do
        return .array true (← updateLast? (atHeader? change path) items)
      | some _ => none) entries

/-- Reads the header of a table, which may have come about only by headers of tables inside it. -/
def openTable? : List String → TomlEntries → Option TomlEntries :=
  atHeader? fun
    | none => some (.table .header [])
    | some (.table .implied inner) => some (.table .header inner)
    | some _ => none

def openElement? : List String → TomlEntries → Option TomlEntries :=
  atHeader? fun
    | none => some (.array true [.table .header []])
    | some (.array true items) => some (.array true (items ++ [.table .header []]))
    | some _ => none

/-- Changes the entries of the table that the header of a path has opened. -/
def within? (change : TomlEntries → Option TomlEntries) :
    List String → TomlEntries → Option TomlEntries
  | [], entries => change entries
  | name :: path, entries =>
    update? name (fun
      | some (.table form inner) => do return .table form (← within? change path inner)
      | some (.array true items) => do
        return .array true (← updateLast? (within? change path) items)
      | _ => none) entries

end Toml

end Selectors
