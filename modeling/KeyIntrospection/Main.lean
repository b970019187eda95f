import KeyIntrospection.CommandLine.Execute

/-!
The program: it reads the files that the command line names, and writes what the command makes of
them. A session is held line by line, so that each reply is seen before the next line is typed.
-/

namespace KeyIntrospection.CommandLine

/-- The bytes of a line with the line feed at its end, after those that were read of it so far. -/
partial def remainingLine (stream : IO.FS.Stream) (bytes : ByteArray) : IO ByteArray := do
  let byte ← stream.read 1
  if byte.isEmpty then return bytes
  else if byte[0]? = some 0xA then return bytes ++ byte
  else remainingLine stream (bytes ++ byte)

/-- The lines of a stream up to its end, after those that were read of it so far, which are given last first. -/
partial def remainingLines (stream : IO.FS.Stream) (lines : List ByteArray) : IO (List ByteArray) := do
  let line ← remainingLine stream .empty
  if line.isEmpty then return lines.reverse else remainingLines stream (line :: lines)

/-- Holds a session over the lines of a stream, up to one that ends it. -/
partial def converse (stream : IO.FS.Stream) (console : Console) : IO Output := do
  match String.fromUTF8? (← remainingLine stream .empty) with
  | none => return endOfSession true
  | some text =>
    match Text.lines text with
    | [] => return endOfSession false
    | line :: _ =>
      match console.takeLine line with
      | (some .exit, _) => return endOfSession false
      | (some (.error e), console) =>
        IO.eprintln e.message
        converse stream console
      | (some reply, console) =>
        IO.print (unlines (Console.shown console.session.environment reply))
        (← IO.getStdout).flush
        converse stream console
      | (none, console) => converse stream console

/-- The files that can be read, with their contents. -/
def readFiles (files : List String) : IO Folder :=
  files.filterMapM fun (file : String) => do
    try return some (file, ← IO.FS.readFile file)
    catch _ => return none

/-- Carries out a command. -/
def perform (arguments : List String) : IO Output := do
  match Invocation.ofArguments arguments with
  | .ok .repl =>
    IO.print (unlines Console.welcome)
    (← IO.getStdout).flush
    converse (← IO.getStdin) {}
  | .ok i =>
    let contents ← readFiles (i.files.filter (· ≠ "-"))
    let lines ← if "-" ∈ i.files then remainingLines (← IO.getStdin) [] else pure []
    return i.execute (contents.lookup ·) (.ofLines lines)
  | .error _ => return execute arguments (fun _ => none) ""

end KeyIntrospection.CommandLine

def main (arguments : List String) : IO UInt32 := do
  let output ← KeyIntrospection.CommandLine.perform arguments
  IO.print output.stdout
  IO.eprint output.stderr
  return output.exitCode.toUInt32
