import KeyIntrospection.Run.Report
import KeyIntrospection.Script.Parse
import KeyIntrospection.Text.Blank

/-!
Interactive sessions: statements and commands, one after another, over bindings that persist. An input
that fails leaves the bindings as they were; commands start with a slash.
-/

namespace KeyIntrospection

namespace Session

inductive Command where
  | help
  | bindings
  | classes
  | clear
  | stats
  | quit
deriving DecidableEq, Repr

def Command.ofWord? : String → Option Command
  | "/help" | "/h" => some .help
  | "/vars" | "/variables" => some .bindings
  | "/classes" => some .classes
  | "/clear" => some .clear
  | "/stats" => some .stats
  | "/quit" | "/q" | "/exit" => some .quit
  | _ => none

inductive Error where
  | parse (e : Script.ParseError)
  | run (e : RunError)
  | unknownCommand (word : String)
deriving DecidableEq, Repr

def Error.message : Error → String
  | parse e => "Parse error: " ++ e.diagnostic.message
  | run e => "Runtime error: " ++ e.message
  | unknownCommand word =>
    "REPL command error: Unknown command: " ++ word ++ ". Type /help for available commands."

/-- What came of an input. -/
inductive Reply where
  /-- The input was blank or a comment. -/
  | empty
  | exit
  | message (text : String)
  | outcome (o : Outcome)
  | error (e : Error)

/-- How often things happened in a session. -/
structure Stats where
  statements : Nat := 0
  expectations : Nat := 0
  errors : Nat := 0
  commands : Nat := 0
deriving DecidableEq, Repr

def helpText : String := "Interop REPL Commands:
  /help, /h           Show this help message
  /vars, /variables   List all variables with their values
  /classes            List defined classes
  /clear              Clear all variables and classes
  /stats              Show session statistics
  /quit, /q, /exit    Exit the REPL

Examples:
  hash = \x7b\"a\" => 1\x7d                 # Bind a Hash
  set hash @exists = 14             # Set an instance variable
  key_info(hash, \"a\")               # Classify a key
  keys(hash, internal)              # List keys, instance variables included
  class Point \x7b attr_reader :x \x7d    # Define a class
  point = new Point \x7b @x = 1 \x7d      # Instantiate it
  expect key_info(point, :x) includes :readable

Multi-line input:
  class Point \x7b                     # Type \x7b and press Enter
    attr_accessor :x, :y            # Continuation prompt (...)
  \x7d                                 # Completes when braces close

Use Ctrl+C to interrupt, Ctrl+D to exit."

def variablesText (env : Environment) : String :=
  match env.bindings.entries with
  | [] => "No variables defined"
  | entries =>
    "Variables:\n" ++ "\n".intercalate (entries.map fun (name, v) => s!"  {name} = {v.display}")

def classesText (env : Environment) : String :=
  match env.classes.names with
  | [] => "No classes defined"
  | names => "Classes: " ++ ", ".intercalate names

def Stats.text (s : Stats) : String :=
  "\n".intercalate
    ["Session Statistics:", s!"  Statements executed: {s.statements}",
      s!"  Expectations passed: {s.expectations}", s!"  Errors encountered: {s.errors}",
      s!"  Commands executed: {s.commands}"]

end Session

structure Session where
  environment : Environment := {}
  stats : Session.Stats := {}

namespace Session

def runCommand (s : Session) : Command → Reply × Session
  | .help => (.message helpText, s)
  | .bindings => (.message (variablesText s.environment), s)
  | .classes => (.message (classesText s.environment), s)
  | .clear => (.message "Variables and classes cleared", { s with environment := {} })
  | .stats => (.message s.stats.text, s)
  | .quit => (.exit, s)

/-- The statistics after a statement was executed. -/
def Stats.count (s : Stats) : Outcome → Stats
  | .passed => { s with statements := s.statements + 1, expectations := s.expectations + 1 }
  | _ => { s with statements := s.statements + 1 }

def runStatement (s : Session) (text : String) : Reply × Session :=
  match Script.Statement.parse text with
  | .error e => (.error (.parse e), s)
  | .ok statement =>
    match s.environment.execute statement with
    | .error e => (.error (.run e), s)
    | .ok (outcome, env) => (.outcome outcome, ⟨env, s.stats.count outcome⟩)

/-- Takes one input, which may have several lines. -/
def step (s : Session) (input : String) : Reply × Session :=
  let text := Text.trim input
  match text.toList with
  | [] => (.empty, s)
  | '#' :: _ => (.empty, s)
  | '/' :: _ =>
    let s := { s with stats := { s.stats with commands := s.stats.commands + 1 } }
    let word := (Text.words text).headD ""
    match Command.ofWord? word with
    | some command => s.runCommand command
    | none => (.error (.unknownCommand word), s)
  | _ => s.runStatement text

end Session

end KeyIntrospection
