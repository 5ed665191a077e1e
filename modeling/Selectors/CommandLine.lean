import Selectors.Document.Load
import Selectors.Json.Printer

/-!
# The command line

The program has two commands: `match` lists what the selectors of a style program accept, and
`check` checks them without facts. Every option of a command takes a value, in the next argument or
after an equals sign, and is given at most once. The flag for verbose output may stand before the
command and after it. What is not understood is a usage error.

`Invocation.run` gives what a command writes and its exit code, as a function of the files. The
first document that cannot be loaded ends the run. Otherwise the exit code tells whether there was
something to report.
-/

namespace Selectors

/-! ## Arguments -/

inductive OutputFormat where
  | text
  | json
  deriving DecidableEq, Inhabited, Repr

inductive Invocation where
  | matching (vocabulary facts style : String) (settings : Option String) (format : OutputFormat)
  | checking (vocabulary style : String) (settings : Option String)
  deriving DecidableEq, Inhabited, Repr

namespace CommandLine

/-- The options that have been read: those with values, and whether the flag for verbose output was
given. -/
structure Options where
  values : List (String × String) := []
  verbose : Bool := false
  deriving Inhabited, Repr

def isVerboseFlag (arg : String) : Bool := arg == "-v" || arg == "--verbose"

/-- Whether an argument can be the value of the option before it: it must not look like an option.
-/
def isValue (arg : String) : Bool := !arg.isEmpty && (!arg.startsWith "-" || arg == "-")

def splitAtEquals (arg : String) : String × Option String :=
  let name := arg.toList.takeWhile (· != '=')
  (String.ofList name, ((arg.toList.drop name.length).tail?).map String.ofList)

def Options.add? (o : Options) (names : List String) (name value : String) : Option Options :=
  if names.contains name && (o.values.lookup name).isNone && !value.isEmpty then
    some { o with values := o.values ++ [(name, value)] }
  else none

/-- Reads the arguments of a command with the named options; nothing may follow the mark that ends
options. -/
def readOptions? (names : List String) : Options → List String → Option Options
  | o, [] => some o
  | o, [arg] =>
    if arg == "--" then some o
    else if isVerboseFlag arg then (if o.verbose then none else some { o with verbose := true })
    else match splitAtEquals arg with
      | (name, some value) => o.add? names name value
      | (_, none) => none
  | o, arg :: next :: rest =>
    if arg == "--" then none
    else if isVerboseFlag arg then
      if o.verbose then none else readOptions? names { o with verbose := true } (next :: rest)
    else match splitAtEquals arg with
      | (name, some value) => do readOptions? names (← o.add? names name value) (next :: rest)
      | (name, none) => do
        if isValue next then readOptions? names (← o.add? names name next) rest else none

def format? : Option String → Option OutputFormat
  | none => some .text
  | some "text" => some .text
  | some "json" => some .json
  | some _ => none

def readCommand? : String → List String → Option Invocation
  | "match", args => do
    let o ← readOptions? ["--vocab", "--facts", "--style", "--config", "--format"] {} args
    return .matching (← o.values.lookup "--vocab") (← o.values.lookup "--facts")
      (← o.values.lookup "--style") (o.values.lookup "--config")
      (← format? (o.values.lookup "--format"))
  | "check", args => do
    let o ← readOptions? ["--vocab", "--style", "--config"] {} args
    return .checking (← o.values.lookup "--vocab") (← o.values.lookup "--style")
      (o.values.lookup "--config")
  | _, _ => none

def read? : List String → Option Invocation
  | [] => none
  | arg :: args =>
    if isVerboseFlag arg then
      match args with
      | command :: args => readCommand? command args
      | [] => none
    else readCommand? arg args

end CommandLine

def Invocation.paths : Invocation → List String
  | .matching vocabulary facts style settings _ => settings.toList ++ [vocabulary, facts, style]
  | .checking vocabulary style settings => settings.toList ++ [vocabulary, style]

/-! ## Runs -/

structure RunResult where
  exitCode : Nat
  output : String
  errors : String
  deriving DecidableEq, Inhabited, Repr

namespace RunResult

def ofLines (lines : List String) : String := String.join (lines.map (· ++ "\n"))

def ofReports (lines : List String) (reports : List Diagnostic) : RunResult :=
  ⟨if reports.isEmpty then 0 else 1, ofLines lines, ofLines (reports.map Diagnostic.text)⟩

end RunResult

def outcomeLines (index : Nat) (h : Header) : Outcome → List String
  | .ok substs =>
    s!"#{index} {h.text}: {substs.length} substitution(s)" :: substs.map fun s => "  " ++ s.text
  | .error _ => [s!"#{index} {h.text}: error"]

def Results.lines (r : Results) (style : StyleProgram) : List String :=
  (style.headers.zip r.outcomes).zipIdx.flatMap fun ((header, outcome), index) =>
    outcomeLines index header outcome

/-- Loads settings, which have defaults if there is no file. -/
def Files.loadSettings (files : Files) : Option String → Except Diagnostic Settings
  | none => .ok {}
  | some path => files.load Settings.load path

def Invocation.run (files : Files) : Invocation → RunResult
  | .matching vocabulary facts style settings format =>
    let loaded : Except Diagnostic (Settings × Vocabulary × FactProgram × StyleProgram) := do
      return (← files.loadSettings settings, ← files.load Vocabulary.load vocabulary,
        ← files.load FactProgram.load facts, ← files.load StyleProgram.load style)
    match loaded with
    | .error d => .ofReports [] [d]
    | .ok (settings, vocabulary, facts, style) =>
      let results := compile vocabulary facts style settings
      let lines := match format with
        | .text => results.lines style
        | .json => [(results.toReport style).toJson.pretty]
      .ofReports lines results.diagnostics
  | .checking vocabulary style settings =>
    let loaded : Except Diagnostic (Settings × Vocabulary × StyleProgram) := do
      return (← files.loadSettings settings, ← files.load Vocabulary.load vocabulary,
        ← files.load StyleProgram.load style)
    match loaded with
    | .error d => .ofReports [] [d]
    | .ok (settings, vocabulary, style) =>
      match style.check vocabulary settings with
      | .ok summary =>
        .ofReports [s!"ok ({summary.selectors} selectors, {summary.namespaces} namespaces)"] []
      | .error reports => .ofReports [] reports

/-- Runs the program on its arguments; `none` is a usage error. -/
def runProgram (files : Files) (args : List String) : Option RunResult :=
  (CommandLine.read? args).map (·.run files)

end Selectors
