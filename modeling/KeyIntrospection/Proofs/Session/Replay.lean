import KeyIntrospection.Proofs.Run.Execution
import KeyIntrospection.Proofs.Run.Places
import KeyIntrospection.Proofs.Script.Concatenation
import KeyIntrospection.Proofs.Session.Assembly
import Mathlib.Data.List.Forall2

/-!
A script that is entered line by line into a session. The session reads the statements of the script and
no others, and executes them as the script is run, up to the place where the run of the script stops.
-/

namespace KeyIntrospection

open Script (Statement LiteralFault)
open Script.Rule (eq_map_ok_of_foldr_prepend)

namespace Session

def Reply.isEmpty : Reply → Bool
  | .empty => true
  | _ => false

/-- What is replied to inputs, one after the other, and the session after each. -/
def replies (s : Session) : List String → List (Reply × Session)
  | [] => []
  | input :: rest => s.step input :: (s.step input).2.replies rest

/-- Whether a session answers the input with something. -/
def isAnswered (s : Session) (input : String) : Bool := !(s.step input).1.isEmpty

/-- The input is this statement, up to places. -/
def IsStatement (input : String) (s : Located Statement) : Prop :=
  ∃ s', Statement.parse (Text.trim input) = .ok s' ∧ Alike s' s

/-- The reply says what came of the execution of a statement, up to places, and the session goes on with
its environment. -/
def Repeats (e : Execution) (r : Reply × Session) : Prop :=
  r.2.environment = e.environment ∧
    match e.result with
    | .ok outcome => r.1 = .outcome outcome
    | .error error => ∃ error', r.1 = .error (.run error') ∧ Alike error' error

theorem isAnswered_of_silent {i : String} (silent : Silent i) (session : Session) :
    session.isAnswered i = false := by
  simp [isAnswered, silent session, Reply.isEmpty]

theorem Reads.isAnswered {i : String} {v : Except LiteralFault (Located Statement)} (reads : Reads i v)
    (session : Session) : session.isAnswered i := by
  have answer := runStatement_ne_empty session (Text.trim i)
  rw [← reads.step] at answer
  unfold Session.isAnswered
  cases reply : (session.step i).1 <;> simp_all [Reply.isEmpty]

theorem Reads.isStatement {i : String} {s : Located Statement} (reads : Reads i (.ok s)) : IsStatement i s := by
  obtain ⟨w, alike, parsed⟩ := reads.parse
  cases w with
  | error e => cases alike
  | ok s' => exact ⟨s', parsed, Except.ok.inj alike⟩

theorem runStatement_of_parse {session : Session} {text : String} {s : Located Statement}
    (parsed : Statement.parse text = .ok s) :
    session.runStatement text =
      match session.environment.execute s with
      | .error e => (.error (.run e), session)
      | .ok (outcome, env) => (.outcome outcome, ⟨env, session.stats.count outcome⟩) := by
  unfold runStatement
  rewrite [parsed]
  rfl

/-- An input that is a statement does what the statement does. -/
theorem Reads.step_of_ok {i : String} {s : Located Statement} (reads : Reads i (.ok s)) {session : Session}
    {outcome : Outcome} {env : Environment} (done : session.environment.execute s = .ok (outcome, env)) :
    Repeats ⟨s, .ok outcome, env⟩ (session.step i) := by
  obtain ⟨s', parsed, alike⟩ := reads.isStatement
  rcases session.environment.execute_of_alike alike with ⟨r, first, second⟩ | ⟨e, e', first, _, _⟩
  · rw [done] at first
    cases first
    rw [reads.step, runStatement_of_parse parsed, second]
    exact ⟨rfl, rfl⟩
  · rw [done] at first
    cases first

theorem Reads.step_of_error {i : String} {s : Located Statement} (reads : Reads i (.ok s)) {session : Session}
    {e : RunError} (failed : session.environment.execute s = .error e) :
    Repeats ⟨s, .error e, session.environment⟩ (session.step i) := by
  obtain ⟨s', parsed, alike⟩ := reads.isStatement
  rcases session.environment.execute_of_alike alike with ⟨r, first, _⟩ | ⟨e, e', first, second, alike'⟩
  · rw [failed] at first
    cases first
  · rw [failed] at first
    cases first
    rw [reads.step, runStatement_of_parse parsed, second]
    exact ⟨rfl, e', rfl, alike'⟩

theorem Answers.forall₂_isStatement {inputs : List String} {vs : List (Except LiteralFault (Located Statement))}
    (answers : Answers inputs vs) {statements : List (Located Statement)} (fine : vs = statements.map .ok)
    (session : Session) : List.Forall₂ IsStatement (inputs.filter session.isAnswered) statements := by
  induction answers generalizing statements with
  | nil =>
    cases statements with
    | nil => exact .nil
    | cons s rest => cases fine
  | silent silent _ ih =>
    rw [List.filter_cons, isAnswered_of_silent silent, if_neg (by decide)]
    exact ih fine
  | reads reads _ ih =>
    cases statements with
    | nil => cases fine
    | cons s rest =>
      cases fine
      rw [List.filter_cons, reads.isAnswered, if_pos rfl]
      exact .cons reads.isStatement (ih rfl)

theorem Answers.exists_repeats {inputs : List String} {vs : List (Except LiteralFault (Located Statement))}
    (answers : Answers inputs vs) {statements : List (Located Statement)} (fine : vs = statements.map .ok)
    (session : Session) :
    ∃ first more, (session.replies inputs).filter (!·.1.isEmpty) = first ++ more ∧
      List.Forall₂ Repeats (session.environment.executions statements) first := by
  induction answers generalizing statements session with
  | nil =>
    cases statements with
    | nil => exact ⟨[], [], rfl, .nil⟩
    | cons s rest => cases fine
  | silent silent _ ih =>
    obtain ⟨first, more, split, same⟩ := ih fine session
    refine ⟨first, more, ?_, same⟩
    rw [replies, silent, List.filter_cons]
    exact split
  | @reads i v inputs vs reads _ ih =>
    cases statements with
    | nil => cases fine
    | cons s rest =>
      cases fine
      have answered : !(session.step i).1.isEmpty := reads.isAnswered session
      rw [replies, List.filter_cons, if_pos answered, Environment.executions]
      obtain ⟨first, more, split, same⟩ := ih rfl (session.step i).2
      rw [split]
      cases done : session.environment.execute s with
      | ok r =>
        obtain ⟨outcome, env⟩ := r
        have repeats := reads.step_of_ok done
        rw [repeats.1] at same
        exact ⟨_ :: first, more, rfl, .cons repeats same⟩
      | error e =>
        have repeats := reads.step_of_error done
        rw [repeats.1] at same
        dsimp only
        split
        · exact ⟨_ :: first, more, rfl, .cons repeats same⟩
        · exact ⟨[_], first ++ more, rfl, .cons repeats .nil⟩

/-- A script whose lines are entered one by one leaves no line behind. The inputs that are answered are
its statements, in order, and a session replies to them as the script is run, up to where the run stops. -/
theorem replays_script {a : String} {file : Option String} {s : Script} (plain : '\r' ∉ a.toList)
    (parsed : Script.parse a file = .ok s) :
    ∃ inputs, assemble none (linesOf a.toList) = (inputs, none) ∧ ∀ session : Session,
      List.Forall₂ IsStatement (inputs.filter session.isAnswered) s.statements ∧
        ∃ first more, (session.replies inputs).filter (!·.1.isEmpty) = first ++ more ∧
          List.Forall₂ Repeats (session.environment.executions s.statements) first := by
  unfold Script.parse at parsed
  cases whole : Script.Rule.script.parse a with
  | error e =>
    rw [whole] at parsed
    cases parsed
  | ok x =>
    rw [whole] at parsed
    cases parsed
    obtain ⟨vs, listing, fine⟩ := Script.Rule.exists_listing_of_parse whole
    obtain ⟨inputs, assembled, answers⟩ := exists_answers listing plain
    have statements := eq_map_ok_of_foldr_prepend fine
    exact ⟨inputs, assembled, fun session =>
      ⟨answers.forall₂_isStatement statements session, answers.exists_repeats statements session⟩⟩

theorem replays_script_hash :
    '\r' ∉ "h = \x7b\n\x7d # done\n\nfreeze h".toList ∧
      Script.parse "h = \x7b\n\x7d # done\n\nfreeze h" none =
        .ok ⟨[⟨.assign ⟨"h", 0, 1⟩ ⟨.hash ⟨[], 4, 7⟩, 4, 7⟩, 0, 7⟩, ⟨.freeze ⟨"h", 23, 24⟩, 16, 24⟩], none, 0, 24⟩ ∧
      ∃ inputs, assemble none (linesOf "h = \x7b\n\x7d # done\n\nfreeze h".toList) = (inputs, none) ∧
        ∀ session : Session,
          List.Forall₂ IsStatement (inputs.filter session.isAnswered)
            [⟨.assign ⟨"h", 0, 1⟩ ⟨.hash ⟨[], 4, 7⟩, 4, 7⟩, 0, 7⟩, ⟨.freeze ⟨"h", 23, 24⟩, 16, 24⟩] ∧
          ∃ first more, (session.replies inputs).filter (!·.1.isEmpty) = first ++ more ∧
            List.Forall₂ Repeats (session.environment.executions
              [⟨.assign ⟨"h", 0, 1⟩ ⟨.hash ⟨[], 4, 7⟩, 4, 7⟩, 0, 7⟩, ⟨.freeze ⟨"h", 23, 24⟩, 16, 24⟩]) first := by
  have plain : '\r' ∉ "h = \x7b\n\x7d # done\n\nfreeze h".toList := by decide
  have parsed : Script.parse "h = \x7b\n\x7d # done\n\nfreeze h" none =
      .ok ⟨[⟨.assign ⟨"h", 0, 1⟩ ⟨.hash ⟨[], 4, 7⟩, 4, 7⟩, 0, 7⟩, ⟨.freeze ⟨"h", 23, 24⟩, 16, 24⟩], none, 0, 24⟩ := by
    rfl
  exact ⟨plain, parsed, replays_script plain parsed⟩

end Session

end KeyIntrospection
