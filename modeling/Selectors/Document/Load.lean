import Selectors.Document.Facts
import Selectors.Document.Settings
import Selectors.Document.Styles
import Selectors.Json.Reader
import Selectors.Report

/-!
# Loading documents and writing reports

A document comes as a text or as a file. What goes wrong is reported by a diagnostic: that a file
cannot be read, or that its text is malformed; the latter names the file. In the document of a
report, what is not known of a diagnostic is left out, and so is an empty list of errors.
-/

namespace Selectors

/-! ## Documents that are read -/

def readJsonText {α : Type} (ofJson : Json → Except ReadError α) (text : String) :
    Except ReadError α := do
  let source := JsonText.read text
  let document ← ofJson source.root
  if source.hasMore then .error .malformed else .ok document

/-- The report of a document that cannot be read; `what` says what it should be. -/
def ReadError.toDiagnostic (what : String) (e : ReadError) : Diagnostic :=
  ⟨"E-INPUT", s!"malformed {what}: {e.detail}", none, none⟩

def loadJson {α : Type} (what : String) (ofJson : Json → Except ReadError α) (text : String) :
    Except Diagnostic α :=
  (readJsonText ofJson text).mapError (·.toDiagnostic what)

namespace Vocabulary

def load : String → Except Diagnostic Vocabulary :=
  loadJson "vocabulary" fun j => ReadError.orMalformed (ofJson? j)

end Vocabulary

namespace FactProgram

def load : String → Except Diagnostic FactProgram :=
  loadJson "fact program" fun j => ReadError.orMalformed (ofJson? j)

end FactProgram

namespace StyleProgram

def load : String → Except Diagnostic StyleProgram :=
  loadJson "style program" fun j => ReadError.orMalformed (ofJson? j)

end StyleProgram

namespace Settings

def load (text : String) : Except Diagnostic Settings :=
  (ofToml text).mapError fun e =>
    ⟨"E-CONFIG", s!"invalid matcher configuration: {e.detail}", none, none⟩

end Settings

/-- The texts of files; a name without a text cannot be read. -/
abbrev Files := String → Option String

def Files.load {α : Type} (files : Files) (read : String → Except Diagnostic α) (path : String) :
    Except Diagnostic α :=
  match files path with
  | none => .error ⟨"E-IO", s!"failed to read {path}: <detail>", none, none⟩
  | some text => (read text).mapError fun d => { d with source := some path }

/-! ## Reports -/

/-- A member, unless its value is not known. -/
def Json.optional {α : Type} (name : String) (toJson : α → Json) : Option α → List (String × Json)
  | some value => [(name, toJson value)]
  | none => []

def Diagnostic.toJson (d : Diagnostic) : Json :=
  .obj ([("code", .str d.code), ("message", .str d.message)]
    ++ Json.optional "selector" .nat d.selector ++ Json.optional "source" .str d.source)

def HeaderReport.toJson (r : HeaderReport) : Json :=
  .obj ([("index", .nat r.index), ("header", .str r.header),
      ("substitutions", .arr (r.substitutions.map Substitution.toJson))]
    ++ if r.errors.isEmpty then [] else [("errors", .arr (r.errors.map Diagnostic.toJson))])

def Report.toJson (r : Report) : Json :=
  .obj [("schema_version", .str r.schemaVersion),
    ("selectors", .arr (r.selectors.map HeaderReport.toJson))]

end Selectors
