import Selectors.Document.Record
import Selectors.NameTable
import Selectors.Settings
import Selectors.Toml.Reader

/-!
# Settings in JSON and TOML

Settings and admissions are records that take no further fields; all fields have defaults. A name
filter is the text `*` or a list of names. In TOML the entries of a table are read in the order of
their names, once the whole text has been found to be TOML.
-/

namespace Selectors

/-! ## Name filters -/

namespace NameFilter

/-- The filter that a text stands for: only the star stands for one. -/
def ofText (text : String) : Except ReadError NameFilter :=
  if text = "*" then .ok .all else .error (.unknownFilter text)

def toJson : NameFilter → Json
  | .all => .str "*"
  | .only names => .arr (names.map .str)

def decode : Json → Except ReadError NameFilter
  | .str text => ofText text
  | .arr items => (ReadError.orMalformed (items.mapM Json.text?)).map .only
  | _ => .error .malformed

/-- Reads the document of a filter that stands inside `outer` arrays and objects. -/
def ofJson (j : Json) (outer : Nat := 0) : Except ReadError NameFilter := do
  decode (← ReadError.orMalformed (j.readWhole (fun _ => some) outer))

end NameFilter

/-! ## Admissions -/

namespace Admission

def fieldNames : List String := ["types", "predicates", "functions", "constructors"]

def set {ν : Type} (read : ν → Except ReadError NameFilter) (a : Admission) (name : String)
    (value : ν) : Except ReadError Admission := do
  match name with
  | "types" => return { a with types := ← read value }
  | "predicates" => return { a with predicates := ← read value }
  | "functions" => return { a with functions := ← read value }
  | "constructors" => return { a with constructors := ← read value }
  | _ => .error .malformed

def toJson (a : Admission) : Json :=
  .obj [("types", a.types.toJson), ("predicates", a.predicates.toJson),
    ("functions", a.functions.toJson), ("constructors", a.constructors.toJson)]

def ofJson (j : Json) (outer : Nat := 0) : Except ReadError Admission :=
  j.readClosed fieldNames (set (NameFilter.ofJson · (outer + 1))) {}

end Admission

/-! ## Settings -/

namespace TypePolicy

def name : TypePolicy → String
  | .exact => "exact"
  | .subtype => "subtype"

def ofName? : String → Option TypePolicy
  | "exact" => some .exact
  | "subtype" => some .subtype
  | _ => none

/-- Reads a policy: its name, or an object whose only member is the name without a value. -/
def ofJson? : Json → Option TypePolicy
  | .str name => ofName? name
  | .obj [(name, .null)] => ofName? name
  | _ => none

end TypePolicy

namespace Settings

def fieldNames : List String := ["type_policy", "prefilter", "check_declarations", "admit"]

/-- How the values of the fields are read from one kind of document. -/
structure FieldReaders (ν : Type) where
  policy : ν → Except ReadError TypePolicy
  flag : ν → Except ReadError Bool
  admission : ν → Except ReadError Admission

def set {ν : Type} (read : FieldReaders ν) (s : Settings) (name : String) (value : ν) :
    Except ReadError Settings := do
  match name with
  | "type_policy" => return { s with typePolicy := ← read.policy value }
  | "prefilter" => return { s with prefilter := ← read.flag value }
  | "check_declarations" => return { s with checkDeclarations := ← read.flag value }
  | "admit" => return { s with admission := ← read.admission value }
  | _ => .error .malformed

def toJson (s : Settings) : Json :=
  .obj [("type_policy", .str s.typePolicy.name), ("prefilter", .bool s.prefilter),
    ("check_declarations", .bool s.checkDeclarations), ("admit", s.admission.toJson)]

def jsonReaders : FieldReaders Json where
  policy j := ReadError.orMalformed (TypePolicy.ofJson? j)
  flag j := ReadError.orMalformed j.bool?
  admission j := Admission.ofJson j 1

def ofJson (j : Json) : Except ReadError Settings := j.readClosed fieldNames (set jsonReaders) {}

end Settings

/-! ## Settings in TOML -/

namespace Toml

def text? : Toml → Option String
  | .text value => some value
  | _ => none

/-- Whether a value is an array or table without parts. -/
def isBare : Toml → Bool
  | .array _ items => items.isEmpty
  | .table _ entries => entries.isEmpty
  | _ => false

def flag : Toml → Except ReadError Bool
  | .bool value => .ok value
  | _ => .error .malformed

def nameFilter : Toml → Except ReadError NameFilter
  | .text value => NameFilter.ofText value
  | .array _ items => (ReadError.orMalformed (items.mapM text?)).map .only
  | _ => .error .malformed

/-- A policy: its name, or a table whose only entry has the name and a value without parts. -/
def typePolicy : Toml → Except ReadError TypePolicy
  | .text name => ReadError.orMalformed (TypePolicy.ofName? name)
  | .table _ [(name, value)] =>
    ReadError.orMalformed (if value.isBare then TypePolicy.ofName? name else none)
  | _ => .error .malformed

def sortEntries (entries : TomlEntries) : TomlEntries := (NameTable.ofList entries).entries

/-- An admission: a table, or an array of its first fields, whose items past the last field are left
out. -/
def admission : Toml → Except ReadError Admission
  | .table _ entries =>
    readMembers Admission.fieldNames (Admission.set nameFilter) [] {} (sortEntries entries)
  | .array _ items =>
    readMembers Admission.fieldNames (Admission.set nameFilter) [] {}
      (Admission.fieldNames.zip items)
  | _ => .error .malformed

end Toml

namespace Settings

def tomlReaders : FieldReaders Toml where
  policy := Toml.typePolicy
  flag := Toml.flag
  admission := Toml.admission

def ofToml (text : String) : Except ReadError Settings := do
  let entries ← ReadError.orMalformed (TomlText.read? text)
  readMembers fieldNames (set tomlReaders) [] {} (Toml.sortEntries entries)

end Settings

end Selectors
