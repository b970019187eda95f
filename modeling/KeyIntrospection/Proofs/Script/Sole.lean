import KeyIntrospection.Proofs.Script.Concatenation
import KeyIntrospection.Proofs.Script.Single

/-!
Scripts of one statement. A text is a statement exactly if it is a script of that statement and of no
other, whatever blank lines and comments stand around it, so an input is read as a source file is.
-/

namespace KeyIntrospection.Script

namespace Rule

open Grammar

/-- Where nothing but blank lines and comments is left, a line has ended. -/
theorem atLineEnd_of_finished {c : Cursor} (finished : c.skipLines.rest = []) : AtLineEnd c.skipBlanks.rest := by
  rcases rest : c.skipBlanks.rest with _ | ⟨x, s⟩
  · exact atLineEnd_nil
  · intro y head
    cases head
    cases other : isLineBreak x with
    | true => rfl
    | false =>
      -- no line break stands there, so the text would not be passed over
      have stays : afterLines false c.skipBlanks.rest = c.skipBlanks.rest := by
        refine afterLines_of_settled c.settled_skipBlanks fun z head => ?_
        rw [rest] at head
        cases head
        exact other
      have passed : afterLines false c.skipBlanks.rest = [] := (afterLines_afterBlanks c.rest).trans finished
      rw [passed, rest] at stays
      cases stays

/-- A text that is a statement is listed with that statement alone. -/
theorem listing_of_parse {source : String} {s : Located Statement} (parsed : Statement.parse source = .ok s) :
    Listing (Cursor.ofText source) [.ok s] := by
  obtain ⟨m, found, value, finished⟩ := exists_statement_of_parse parsed
  rw [← value]
  refine .next found (atLineEnd_of_finished finished) (.done ?_)
  rw [Cursor.skipLines_skipBlanks]
  exact finished

theorem parse_of_sole_listing {source : String} {s : Located Statement}
    (listing : Listing (Cursor.ofText source) [.ok s]) : Statement.parse source = .ok s := by
  generalize one : [Except.ok s] = vs at listing
  cases listing with
  | done => cases one
  | next found ending rest =>
    rw [List.cons_eq_cons] at one
    obtain ⟨value, rfl⟩ := one
    cases rest with
    | done finished =>
      rw [Cursor.skipLines_skipBlanks] at finished
      rw [parse_singleStatement rfl found finished, ← value]
      rfl

end Rule

/-- A text is a statement if and only if it is a script of that statement alone, with the same places, and
so texts that are no script or scripts of no statement or of several are never read as one. -/
theorem parse_iff_sole_statement (source : String) (file : Option String) :
    (∀ s, Statement.parse source = .ok s ↔ ∃ t, Script.parse source file = .ok t ∧ t.statements = [s]) ∧
      ((Statement.parse source).isOk ↔ ∃ t, Script.parse source file = .ok t ∧ t.statements.length = 1) := by
  have same (s : Located Statement) :
      Statement.parse source = .ok s ↔ ∃ t, Script.parse source file = .ok t ∧ t.statements = [s] := by
    constructor
    · intro parsed
      refine ⟨⟨[s], file, 0, (Cursor.ofText source).stop⟩, ?_, rfl⟩
      rw [Script.parse, Rule.parse_of_listing (Rule.listing_of_parse parsed)]
      rfl
    · rintro ⟨t, parsed, sole⟩
      obtain ⟨l, whole, rfl⟩ := Rule.exists_parse_of_script parsed
      obtain ⟨vs, listing, fine⟩ := Rule.exists_listing_of_parse whole
      have listed := Rule.eq_map_ok_of_foldr_prepend fine
      rw [show l.value = [s] from sole] at listed
      rw [listed] at listing
      exact Rule.parse_of_sole_listing listing
  refine ⟨same, ?_⟩
  constructor
  · intro accepted
    cases parsed : Statement.parse source with
    | error e =>
      rw [parsed] at accepted
      cases accepted
    | ok s =>
      obtain ⟨t, whole, sole⟩ := (same s).mp parsed
      exact ⟨t, whole, by rw [sole]; rfl⟩
  · rintro ⟨t, whole, one⟩
    obtain ⟨s, sole⟩ := List.length_eq_one_iff.mp one
    rw [(same s).mpr ⟨t, whole, sole⟩]
    rfl

end KeyIntrospection.Script
