/-!
The arguments of the command line. Options may stand before and after file names, up to a lone `--`;
a lone `-` is a file name. Each option is given at most once, except that the log level may be set both
before and after the command. A mistake ends the reading at once, and so do the options that only ask
for information.
-/

namespace KeyIntrospection.CommandLine

/-- What the command line asks for. -/
inductive Invocation where
  | help
  | version
  | parse (files : List String) (spans : Bool)
  | run (files : List String) (quiet : Bool)
  | repl
deriving DecidableEq, Repr

inductive UsageError where
  | unexpectedArgument (argument : String)
  | repeatedOption (option : String)
  | missingValue (option : String)
  | emptyFileName
  | missingFile
deriving DecidableEq, Repr

def UsageError.message : UsageError → String
  | unexpectedArgument argument => s!"unexpected argument '{argument}'"
  | repeatedOption option => s!"the option '{option}' cannot be used more than once"
  | missingValue option => s!"a value is required for '{option}'"
  | emptyFileName => "a file name must not be empty"
  | missingFile => "at least one file is required"

/-- A switch of a command. -/
structure Switch where
  name : String
  letter : Option Char
deriving DecidableEq, Repr

/-- What is known of a command after some of its arguments. -/
structure Arguments where
  /-- The file names, last first. -/
  files : List String := []
  switched : Bool := false
  logLevel : Bool := false
deriving DecidableEq, Repr

def logLevelOption : String := "--log-level"

/-- Whether an argument can be the value of an option. -/
def isOptionValue (argument : String) : Bool := argument = "-" || !argument.startsWith "-"

namespace Arguments

def switch (a : Arguments) (s : Switch) : Except UsageError Arguments :=
  if a.switched then .error (.repeatedOption s.name) else .ok { a with switched := true }

def setLogLevel (a : Arguments) : Except UsageError Arguments :=
  if a.logLevel then .error (.repeatedOption logLevelOption) else .ok { a with logLevel := true }

/-- Letters after a single dash. The result is `none` if they ask for help. -/
def letters (s : Switch) (whole : String) : Arguments → List Char → Except UsageError (Option Arguments)
  | a, [] => .ok (some a)
  | a, c :: rest =>
    if c = 'h' then .ok none
    else if s.letter = some c then
      match a.switch s with
      | .ok a => letters s whole a rest
      | .error e => .error e
    else .error (.unexpectedArgument whole)

/-- The arguments of a command with one switch, with file names if it takes any. The result is `none` if
they ask for help. -/
def read (s : Switch) (takesFiles : Bool) (a : Arguments) :
    List String → Except UsageError (Option Arguments)
  | [] => .ok (some a)
  | "--" :: rest =>
    if takesFiles then
      if rest.any (·.isEmpty) then .error .emptyFileName
      else .ok (some { a with files := rest.reverse ++ a.files })
    else
      match rest with
      | [] => .ok (some a)
      | extra :: _ => .error (.unexpectedArgument extra)
  | argument :: rest =>
    if argument = logLevelOption then
      match rest with
      | value :: rest =>
        if isOptionValue value then a.setLogLevel.bind fun a => read s takesFiles a rest
        else .error (.missingValue logLevelOption)
      | [] => .error (.missingValue logLevelOption)
    else if argument.startsWith (logLevelOption ++ "=") then
      a.setLogLevel.bind fun a => read s takesFiles a rest
    else if argument = "--help" then .ok none
    else if argument = s.name then (a.switch s).bind fun a => read s takesFiles a rest
    else if argument = "-" ∨ !argument.startsWith "-" then
      if !takesFiles then .error (.unexpectedArgument argument)
      else if argument.isEmpty then .error .emptyFileName
      else read s takesFiles { a with files := argument :: a.files } rest
    else if argument.startsWith "--" then .error (.unexpectedArgument argument)
    else
      (letters s argument a (argument.toList.drop 1)).bind fun
        | some a => read s takesFiles a rest
        | none => .ok none

end Arguments

/-- The command that reads files and has one switch. -/
def fileCommand (s : Switch) (command : List String → Bool → Invocation) (arguments : List String) :
    Except UsageError Invocation :=
  (Arguments.read s true {} arguments).bind fun
    | none => .ok .help
    | some a => if a.files = [] then .error .missingFile else .ok (command a.files.reverse a.switched)

/-- The command with the given name and arguments. -/
def command (name : String) (arguments : List String) : Except UsageError Invocation :=
  match name with
  | "parse" => fileCommand ⟨"--spans", some 's'⟩ .parse arguments
  | "run" => fileCommand ⟨"--quiet", some 'q'⟩ .run arguments
  | "repl" =>
    (Arguments.read ⟨"--no-history", none⟩ false {} arguments).map fun
      | none => .help
      | some _ => .repl
  | "help" =>
    match arguments with
    | [] => .ok .help
    | [topic] =>
      if topic ∈ ["parse", "run", "repl", "help"] then .ok .help
      else .error (.unexpectedArgument topic)
    | _ :: extra :: _ => .error (.unexpectedArgument extra)
  | _ => .error (.unexpectedArgument name)

namespace Invocation

/-- Reads the command line, where `logLevel` says whether the log level was set already. -/
def readFrom (logLevel : Bool) : List String → Except UsageError Invocation
  | [] => .ok .help
  | "--" :: rest =>
    match rest with
    | [] => .ok .help
    | extra :: _ => .error (.unexpectedArgument extra)
  | argument :: rest =>
    if argument = logLevelOption then
      match rest with
      | value :: rest =>
        if !isOptionValue value then .error (.missingValue logLevelOption)
        else if logLevel then .error (.repeatedOption logLevelOption)
        else readFrom true rest
      | [] => .error (.missingValue logLevelOption)
    else if argument.startsWith (logLevelOption ++ "=") then
      if logLevel then .error (.repeatedOption logLevelOption) else readFrom true rest
    else if argument = "--help" ∨ argument.startsWith "-h" then .ok .help
    else if argument = "--version" ∨ argument.startsWith "-V" then .ok .version
    else command argument rest

def ofArguments (arguments : List String) : Except UsageError Invocation := readFrom false arguments

/-- The names of the files that are read. -/
def files : Invocation → List String
  | parse files _ | run files _ => files
  | help | version | repl => []

end Invocation

end KeyIntrospection.CommandLine
