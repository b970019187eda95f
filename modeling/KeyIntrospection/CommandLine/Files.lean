/-!
The sources that file names on the command line stand for: a lone `-` is the standard input, which must
be text and is empty when it is read again, and any other name must be the name of a script.
-/

namespace KeyIntrospection.CommandLine

/-- Why a source could not be read. -/
inductive SourceError where
  | notFound (file : String)
  | notAScript (file : String)
  | notText
deriving DecidableEq, Repr

def SourceError.message : SourceError → String
  | notFound file => s!"File not found: {file}"
  | notAScript file => s!"Expected .interop file, got: {file}"
  | notText => "stream did not contain valid UTF-8"

/-- What comes over the standard input. -/
structure StandardInput where
  /-- The text, up to the first line that is not text. -/
  text : String := ""
  /-- Whether there is such a line. -/
  broken : Bool := false
deriving DecidableEq, Repr

instance : Coe String StandardInput := ⟨fun text => { text }⟩

/-- The standard input that has these lines, each with the line feed at its end. -/
def StandardInput.ofLines : List ByteArray → StandardInput
  | [] => {}
  | line :: rest =>
    match String.fromUTF8? line with
    | none => { broken := true }
    | some text => let others := ofLines rest; { others with text := text ++ others.text }

/-- The whole of the standard input, if it is text. -/
def StandardInput.whole? (stdin : StandardInput) : Option String :=
  if stdin.broken then none else some stdin.text

/-- Files by name, all in one directory. -/
abbrev Folder := List (String × String)

namespace Folder

/-- The parts of a path that name something. -/
def parts (path : String) : List String :=
  ((path.toList.splitOn '/').map String.ofList).filter fun part => part ≠ "" ∧ part ≠ "."

/-- The content of the file that a path leads to. A path that starts or ends with a slash leads to no
file of the folder. -/
def content? (folder : Folder) (path : String) : Option String :=
  if path.startsWith "/" ∨ path.endsWith "/" ∨ path.endsWith "/." then none
  else (folder.find? fun (name, _) => parts name = parts path).map (·.2)

end Folder

def extension : String := ".interop"

/-- Whether a file has a name before the extension of scripts. -/
def isScriptName (file : String) : Bool :=
  let name := (Folder.parts file).getLastD ""
  name.endsWith extension && name ≠ extension

/-- The name under which a source is reported. -/
def displayName (file : String) : String := if file = "-" then "<stdin>" else file

/-- The source that a file name stands for, and what is left of the standard input. -/
def readSource (content? : String → Option String) (stdin : StandardInput) (file : String) :
    Except SourceError String × StandardInput :=
  if file = "-" then
    match stdin.whole? with
    | none => (.error .notText, {})
    | some text => (.ok text, {})
  else
    match content? file with
    | none => (.error (.notFound file), stdin)
    | some text => (if isScriptName file then .ok text else .error (.notAScript file), stdin)

/-- The sources of all the files, each with the file name. -/
def readSources (content? : String → Option String) (stdin : StandardInput) :
    List String → List (String × Except SourceError String)
  | [] => []
  | file :: rest =>
    let (source, stdin) := readSource content? stdin file
    (file, source) :: readSources content? stdin rest

end KeyIntrospection.CommandLine
