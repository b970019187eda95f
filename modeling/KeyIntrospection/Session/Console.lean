import KeyIntrospection.Session.Basic
import KeyIntrospection.Session.Input

/-!
A session at a console that takes lines and shows what came of them. What it shows for errors is not
part of its output, but it counts them. At the end of the lines a statement that is not complete is
dropped.
-/

namespace KeyIntrospection

structure Console where
  session : Session := {}
  pending : Option String := none

namespace Console

def welcome : List String :=
  ["🔑 Interop REPL v0.1.0 🔑", "Type /help for commands, /quit to exit", ""]

def goodbye : String := "Goodbye! 👋"

/-- What is reported when a line cannot be read. -/
def failure (cause : String) : String := "Error: Readline error: " ++ cause

/-- The lines that are shown for a reply, where `env` has the bindings after it. -/
def shown (env : Environment) : Session.Reply → List String
  | .outcome (.bound name v) => [s!"{name} = {v.display}"]
  | .outcome (.classDefined name) => [s!"class {name}"]
  | .outcome (.updated name) =>
    ((env.bindings.get? name).map fun v => s!"{name} = {v.display}").toList
  | .outcome (.query a) => [a.display]
  | .outcome .passed => ["✅ passed"]
  | .message text => [text]
  | .empty | .exit | .error _ => []

/-- The statistics after a reply was shown. -/
def countErrors (stats : Session.Stats) : Session.Reply → Session.Stats
  | .error _ => { stats with errors := stats.errors + 1 }
  | _ => stats

/-- Takes a line: what the session replies to the input that the line completes, if it does. -/
def takeLine (c : Console) (line : String) : Option Session.Reply × Console :=
  match Session.addLine c.pending line with
  | (pending, none) => (none, { c with pending })
  | (pending, some input) =>
    let (reply, session) := c.session.step input
    (some reply, ⟨{ session with stats := countErrors session.stats reply }, pending⟩)

/-- What is shown for lines, up to the first that ends the session, and whether one of them does. -/
def takeLines (c : Console) : List String → List String × Bool
  | [] => ([], false)
  | line :: rest =>
    match c.takeLine line with
    | (some .exit, _) => ([], true)
    | (some reply, c) => (c.takeLines rest).map (shown c.session.environment reply ++ ·) id
    | (none, c) => c.takeLines rest

end Console

end KeyIntrospection
