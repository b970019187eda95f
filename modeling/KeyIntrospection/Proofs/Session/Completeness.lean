import KeyIntrospection.Proofs.Session.Depth
import KeyIntrospection.Proofs.Script.Single

/-!
When an input that is a statement is seen to be complete. Comments, to the grammar, end at every line
break, but while lines are put together only a line feed ends them: a carriage return alone leaves open
what is closed after it on its line.
-/

namespace KeyIntrospection.Session

open Script

namespace Nesting

theorem afterLines_of_atLineEnd {s : List Char} (ending : AtLineEnd s) :
    afterLines true s = afterLines false s := by
  rcases s with _ | ⟨c, s⟩
  · rfl
  · have lineBreak := ending c rfl
    simp [afterLines, lineBreak]

/-- Outside of strings, a character either is passed over and opens nothing but a comment, or stays. -/
theorem Fed.afterLines_cons {n : Nesting} {c : Char} {s : List Char} (fed : n.Fed (c :: s))
    (inString : n.inString = false) (escaped : n.escaped = false) :
    (n.inComment = false ∧ afterLines n.inComment (c :: s) = c :: s) ∨
      (afterLines n.inComment (c :: s) = afterLines (n.next c).inComment s ∧
        (n.next c).depth = n.depth ∧ (n.next c).inString = false ∧ (n.next c).escaped = false) := by
  obtain ⟨depth, _, _, inComment⟩ := n
  cases inString
  cases escaped
  cases inComment with
  | true =>
    refine Or.inr ⟨?_, rfl, rfl, rfl⟩
    by_cases carriage : c = '\r'
    · subst carriage
      have ending : AtLineEnd s := fun d head => by rw [fed.1 rfl rfl d head]; decide
      exact (afterLines_of_atLineEnd ending).symm
    · by_cases feed : c = '\n'
      · subst feed
        rfl
      · have solid : isLineBreak c = false := by simp [isLineBreak, feed, carriage]
        simp [afterLines, next, solid, bne_iff_ne.mpr feed]
  | false =>
    by_cases lineBreak : isLineBreak c = true
    · rcases isLineBreak_iff.mp lineBreak with rfl | rfl <;> exact Or.inr ⟨rfl, rfl, rfl, rfl⟩
    · by_cases hash : c = '#'
      · subst hash
        exact Or.inr ⟨rfl, rfl, rfl, rfl⟩
      · by_cases space : isSpace c = true
        · rcases isSpace_iff.mp space with rfl | rfl <;> exact Or.inr ⟨rfl, rfl, rfl, rfl⟩
        · exact Or.inl ⟨rfl, by simp [afterLines, lineBreak, hash, space]⟩

/-- Outside of strings, blank lines and comments leave what is open as it is. -/
theorem Fed.exists_afterLines {n : Nesting} {s : List Char} (fed : n.Fed s) (inString : n.inString = false)
    (escaped : n.escaped = false) :
    ∃ taken, s = taken ++ afterLines n.inComment s ∧
      Between (n.scan taken) n.depth (afterLines n.inComment s) := by
  induction s generalizing n with
  | nil => exact ⟨[], rfl, rfl, inString, escaped, fun _ => atLineEnd_nil⟩
  | cons c s ih =>
    rcases fed.afterLines_cons inString escaped with ⟨inComment, stays⟩ | ⟨passed, depth, inString', escaped'⟩
    · rw [stays]
      refine ⟨[], rfl, rfl, inString, escaped, fun commented => ?_⟩
      rw [scan_nil, inComment] at commented
      cases commented
    · obtain ⟨taken, split, between⟩ := ih fed.2 inString' escaped'
      rw [depth] at between
      rw [passed]
      exact ⟨c :: taken, by rw [List.cons_append, ← split], between⟩

theorem Between.exists_afterLines {n : Nesting} {depth : Int32} {s : List Char} (between : Between n depth s)
    (fed : n.Fed s) :
    ∃ taken, s = taken ++ afterLines false s ∧ Between (n.scan taken) depth (afterLines false s) := by
  obtain ⟨taken, split, between'⟩ := fed.exists_afterLines between.inString between.escaped
  have same : afterLines n.inComment s = afterLines false s := by
    cases inComment : n.inComment with
    | true => exact afterLines_of_atLineEnd (between.inComment inComment)
    | false => rfl
  rw [between.depth_eq, same] at between'
  rw [same] at split
  exact ⟨taken, split, between'⟩

end Nesting

open Nesting

/-- A text that is a statement is complete, if each of its comments ends at a line feed. -/
theorem isComplete_of_parse {source : String} {s : Located Statement} (parsed : Statement.parse source = .ok s)
    (fed : ({} : Nesting).Fed source.toList) : isComplete source = true := by
  obtain ⟨m, found, _, finished⟩ := Rule.exists_statement_of_parse parsed
  obtain ⟨before, split, leading⟩ := (between_initial source.toList).exists_afterLines fed
  rw [split] at fed
  obtain ⟨taken, split', _, between⟩ := Scans.statement found fed.after leading
  have fed' := fed.after
  rw [show afterLines false source.toList = taken ++ m.next.rest from split'] at fed'
  obtain ⟨after, split'', trailing⟩ := between.exists_afterLines fed'.after
  rw [show afterLines false m.next.rest = [] from finished] at split'' trailing
  have whole : source.toList = before ++ (taken ++ after) := by
    rw [split, show afterLines false source.toList = taken ++ m.next.rest from split', split'',
      List.append_nil]
  have closed := trailing.isClosed
  rw [← scan_append, ← scan_append, ← whole] at closed
  exact closed

theorem isComplete_of_parse_hash :
    Statement.parse "h = \x7b # c\r\n\x7d" = .ok ⟨.assign ⟨"h", 0, 1⟩ ⟨.hash ⟨[], 4, 12⟩, 4, 12⟩, 0, 12⟩ ∧
      ({} : Nesting).Fed "h = \x7b # c\r\n\x7d".toList ∧ isComplete "h = \x7b # c\r\n\x7d" = true := by
  have parsed : Statement.parse "h = \x7b # c\r\n\x7d" =
      .ok ⟨.assign ⟨"h", 0, 1⟩ ⟨.hash ⟨[], 4, 12⟩, 4, 12⟩, 0, 12⟩ := by rfl
  have fed : ({} : Nesting).Fed "h = \x7b # c\r\n\x7d".toList := by decide
  exact ⟨parsed, fed, isComplete_of_parse parsed fed⟩

/-- A carriage return alone ends a comment for the grammar, and the bracket after it is not seen to be
closed. -/
theorem not_isComplete_of_carriage_return :
    ¬∀ source s, Statement.parse source = .ok s → isComplete source = true := by
  intro complete
  have parsed : Statement.parse "h = \x7b# c\r\x7d" =
      .ok ⟨.assign ⟨"h", 0, 1⟩ ⟨.hash ⟨[], 4, 10⟩, 4, 10⟩, 0, 10⟩ := by rfl
  exact absurd (complete _ _ parsed) (by decide)

end KeyIntrospection.Session
