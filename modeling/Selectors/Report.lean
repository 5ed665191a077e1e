import Selectors.Matching

/-!
# Results and reports

Views of the outcomes of a run: all reports in order, one result for the whole, and a record for
each header. A workspace holds all that a run needs and can be changed step by step: types,
statements and headers are added at the end, and statements and headers can be taken out again.
-/

namespace Selectors

namespace Results

def diagnostics (r : Results) : List Diagnostic :=
  r.outcomes.flatMap fun
    | .ok _ => []
    | .error ds => ds

def hasErrors (r : Results) : Bool :=
  r.outcomes.any fun
    | .ok _ => false
    | .error _ => true

/-- Takes in one more outcome: what it lists behind the lists so far, what it reports behind the
reports so far. -/
def collect : List (List Substitution) × List Diagnostic → Outcome →
    List (List Substitution) × List Diagnostic
  | (lists, reports), .ok substs => (lists ++ [substs], reports)
  | (lists, reports), .error ds => (lists, reports ++ ds)

/-- The substitutions of all headers, or all reports if there are any. -/
def toExcept (r : Results) : Except (List Diagnostic) (List (List Substitution)) :=
  let (lists, reports) := r.outcomes.foldl collect ([], [])
  if reports.isEmpty then .ok lists else .error reports

end Results

structure HeaderReport where
  index : Nat
  header : String
  substitutions : List Substitution
  errors : List Diagnostic
  deriving DecidableEq

def HeaderReport.ofOutcome (index : Nat) (h : Header) : Outcome → HeaderReport
  | .ok substs => ⟨index, h.text, substs, []⟩
  | .error ds => ⟨index, h.text, [], ds⟩

structure Report where
  schemaVersion : String
  selectors : List HeaderReport
  deriving DecidableEq

def Report.currentVersion : String := "1.0.0"

def Results.toReport (r : Results) (style : StyleProgram) : Report :=
  ⟨Report.currentVersion,
    (r.outcomes.zip style.headers).zipIdx.map fun ((outcome, header), index) =>
      HeaderReport.ofOutcome index header outcome⟩

/-! ## Workspaces -/

structure Workspace where
  vocabulary : Vocabulary := .empty
  facts : FactProgram := ⟨[]⟩
  style : StyleProgram := ⟨[]⟩
  settings : Settings := {}
  deriving Inhabited

namespace Workspace

def addType (w : Workspace) (name : String) : Workspace :=
  { w with vocabulary := w.vocabulary.addType name }

def addSubtype (w : Workspace) (sub sup : String) : Workspace :=
  { w with vocabulary := w.vocabulary.addSubtype sub sup }

def addStatement (w : Workspace) (s : Statement) : Workspace :=
  { w with facts := ⟨w.facts.statements ++ [s]⟩ }

/-- Takes a statement out, if there is one at the index. -/
def removeStatement? (w : Workspace) (index : Nat) : Option Workspace :=
  if index < w.facts.statements.length then
    some { w with facts := ⟨w.facts.statements.eraseIdx index⟩ }
  else none

def addHeader (w : Workspace) (h : Header) : Workspace :=
  { w with style := ⟨w.style.headers ++ [h]⟩ }

def removeHeader? (w : Workspace) (index : Nat) : Option Workspace :=
  if index < w.style.headers.length then some { w with style := ⟨w.style.headers.eraseIdx index⟩ }
  else none

def context (w : Workspace) : Context := .ofVocabulary w.vocabulary w.facts w.settings

def query (w : Workspace) (h : Header) : Except Problem (List Substitution) :=
  matchHeader w.context h (.ofHeader h)

def report (w : Workspace) : Report :=
  (compile w.vocabulary w.facts w.style w.settings).toReport w.style

def check (w : Workspace) : Except (List Diagnostic) CheckSummary :=
  w.style.check w.vocabulary w.settings

end Workspace

end Selectors
