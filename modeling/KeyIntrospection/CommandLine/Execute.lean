import KeyIntrospection.CommandLine.Arguments
import KeyIntrospection.CommandLine.Files
import KeyIntrospection.Run.Report
import KeyIntrospection.Script.Outline
import KeyIntrospection.Script.Parse
import KeyIntrospection.Script.SExpr
import KeyIntrospection.Session.Console
import KeyIntrospection.Text.Lines

/-!
What the commands write, and their exit codes. Each script is read and run on
its own; one that fails makes the command fail but keeps no other from its turn.
-/

namespace KeyIntrospection.CommandLine

structure Output where
  exitCode : Nat
  stdout : String
  stderr : String := ""
deriving DecidableEq, Repr

def versionText : String := "interop 0.1.0"

def helpText : String :=
  "Runs .interop fixture scripts that build Hash, attributed and meta objects " ++
  "and check what key_info reports for their keys.

Usage: interop [OPTIONS] [COMMAND]

Commands:
  parse  Parse fixture scripts and display their statements
  run    Run fixture scripts and check their expectations
  repl   Start an interactive session
  help   Print this message or the help of the given subcommand(s)

Options:
      --log-level <LOG_LEVEL>
          Log filter directives, e.g. `debug` or `interop_core=trace`
          \n          [env: INTEROP_LOG=]
          [default: warn]

  -h, --help
          Print help (see a summary with '-h')

  -V, --version
          Print version"

def unlines (lines : List String) : String := String.join (lines.map (· ++ "\n"))

/-- Why a file gave no script. -/
inductive LoadError where
  | source (e : SourceError)
  | parse (e : Script.ParseError)
deriving DecidableEq, Repr

def LoadError.message : LoadError → String
  | source e => e.message
  | parse e => e.diagnostic.message

def load (file : String) (source : Except SourceError String) : Except LoadError Script :=
  match source with
  | .error e => .error (.source e)
  | .ok text => (Script.parse text (some (displayName file))).mapError .parse

/-- What one file adds to the result of a command. -/
structure FileResult where
  lines : List String := []
  passed : Nat := 0
  failed : Nat := 0
  success : Bool := true
  /-- What went wrong, for the standard error. -/
  errors : List String := []
deriving DecidableEq, Repr

def failure (e : LoadError) : FileResult := { success := false, errors := [e.message] }

def parseFile (spans several : Bool) (file : String) (source : Except SourceError String) :
    FileResult :=
  match load file source with
  | .error e => failure e
  | .ok script =>
    let text := if spans then script.outline.render 0 else script.toSExpr.render 0
    { lines := text :: if several then ["✅ " ++ displayName file] else [] }

def runFile (quiet : Bool) (file : String) (source : Except SourceError String) : FileResult :=
  match load file source with
  | .error e => failure e
  | .ok script =>
    let (report, _) := Environment.run {} script.statements
    { lines := if quiet then [] else report.outputs.map (·.value)
      passed := report.passed
      failed := report.failed
      success := report.isSuccess
      errors := report.errors.map RunError.message }

def total (count : FileResult → Nat) (results : List FileResult) : Nat :=
  results.foldr (fun r n => count r + n) 0

def summary (results : List FileResult) : List String :=
  ["", s!"📊 {total (·.passed) results} passed, {total (·.failed) results} failed"]

def exitCode (results : List FileResult) : Nat := if results.all (·.success) then 0 else 1

/-- How a session ends: it fails at a line that is not text. -/
def endOfSession (broken : Bool) : Output :=
  if broken then
    { exitCode := 1, stdout := "", stderr := unlines [Console.failure SourceError.notText.message] }
  else { exitCode := 0, stdout := unlines [Console.goodbye] }

/-- A session over the standard input, up to a line that ends it. -/
def holdSession (stdin : StandardInput) : Output :=
  let (lines, ended) := Console.takeLines {} (Text.lines stdin.text)
  let last := endOfSession (stdin.broken && !ended)
  { last with stdout := unlines (Console.welcome ++ lines) ++ last.stdout }

/-- The results of a command for its files. -/
def Invocation.results (content? : String → Option String) (stdin : StandardInput) :
    Invocation → List FileResult
  | parse files spans =>
    (readSources content? stdin files).map fun (file, source) =>
      parseFile spans (1 < files.length) file source
  | run files quiet =>
    (readSources content? stdin files).map fun (file, source) => runFile quiet file source
  | help | version | repl => []

/-- What a command writes and how it exits, given the contents of files and the standard input. -/
def Invocation.execute (content? : String → Option String) (stdin : StandardInput) (i : Invocation) :
    Output :=
  let results := i.results content? stdin
  let lines := results.flatMap (·.lines)
  let errors := unlines (results.flatMap (·.errors))
  match i with
  | help => { exitCode := 0, stdout := unlines [helpText] }
  | version => { exitCode := 0, stdout := unlines [versionText] }
  | parse _ _ => ⟨exitCode results, unlines lines, errors⟩
  | run _ _ => ⟨exitCode results, unlines (lines ++ summary results), errors⟩
  | repl => holdSession stdin

/-- What the program writes and how it exits; a mistake in the arguments has an exit code of its own. -/
def execute (arguments : List String) (content? : String → Option String) (stdin : StandardInput) : Output :=
  match Invocation.ofArguments arguments with
  | .error e => { exitCode := 2, stdout := "", stderr := unlines ["error: " ++ e.message] }
  | .ok i => i.execute content? stdin

end KeyIntrospection.CommandLine
