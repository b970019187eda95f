import KeyIntrospection.Proofs.Session.Depth
import KeyIntrospection.Proofs.Script.Single
import KeyIntrospection.Session.Basic

/-!
Scripts that are entered line by line. Blank lines and comments are inputs that are answered with
nothing; the lines of a statement are held back up to its last one and make one input, which is read as
the statement of the script.
-/

namespace KeyIntrospection

namespace Text

theorem isBlank_of_isSpace {c : Char} (space : isSpace c) : isBlank c := by
  rcases isSpace_iff.mp space with rfl | rfl <;> decide

theorem trim_of_blank {s : List Char} (blank : ∀ c ∈ s, isBlank c) : trim (.ofList s) = "" := by
  have before : (s ++ []).dropWhile isBlank = [].dropWhile isBlank := List.dropWhile_append_of_pos blank
  rw [List.append_nil] at before
  simp [trim, before]

/-- Of a text that begins with white space, the rest up to the white space at its end. -/
theorem exists_trim {indent s : List Char} {c : Char} (blank : ∀ d ∈ indent, isBlank d)
    (solid : isBlank c = false) :
    ∃ t v, trim (.ofList (indent ++ c :: s)) = .ofList (c :: t) ∧ s = t ++ v ∧ ∀ d ∈ v, isBlank d := by
  refine ⟨(s.reverse.dropWhile isBlank).reverse, (s.reverse.takeWhile isBlank).reverse, ?_, ?_, ?_⟩
  · have front : (indent ++ c :: s).dropWhile isBlank = c :: s := by
      rw [List.dropWhile_append_of_pos blank, List.dropWhile_cons, solid, if_neg (by decide)]
    have back : (s.reverse ++ [c]).dropWhile isBlank = s.reverse.dropWhile isBlank ++ [c] := by
      rw [dropWhile_append_of_head (by simp [solid])]
    rw [trim, String.toList_ofList, front, List.reverse_cons, back]
    simp
  · rw [← List.reverse_append, List.takeWhile_append_dropWhile, List.reverse_reverse]
  · intro d mem
    exact List.all_eq_true.mp List.all_takeWhile d (List.mem_reverse.mp mem)

end Text

namespace Session

open Nesting

/-- The lines of a text. -/
def linesOf (s : List Char) : List String := (s.splitOn '\n').map .ofList

theorem linesOf_append (s t : List Char) : linesOf (s ++ '\n' :: t) = linesOf s ++ linesOf t := by
  simp [linesOf, List.splitOn_append_cons_self]

theorem linesOf_line {s : List Char} (line : '\n' ∉ s) : linesOf s = [.ofList s] := by
  simp [linesOf, List.splitOn_eq_singleton line]

/-- A text is a line, or has a first line and others. -/
theorem exists_line (s : List Char) : '\n' ∉ s ∨ ∃ l t, '\n' ∉ l ∧ s = l ++ '\n' :: t := by
  by_cases line : '\n' ∈ s
  · right
    obtain ⟨l, t, split, first⟩ := List.eq_append_cons_of_mem line
    exact ⟨l, t, first, split⟩
  · exact .inl line

theorem assemble_append (pending : Option String) (l m : List String) :
    assemble pending (l ++ m) =
      ((assemble pending l).1 ++ (assemble (assemble pending l).2 m).1, (assemble (assemble pending l).2 m).2) := by
  induction l generalizing pending with
  | nil => rfl
  | cons line l ih => simp [assemble, ih]

theorem isComplete_ofList (s : List Char) : isComplete (.ofList s) = (({} : Nesting).scan s).isClosed := by
  simp [isComplete, scan]

theorem addLine_some (w line : List Char) :
    addLine (some (.ofList w)) (.ofList line) =
      if (({} : Nesting).scan (w ++ '\n' :: line)).isClosed then (none, some (.ofList (w ++ '\n' :: line)))
      else (some (.ofList (w ++ '\n' :: line)), none) := by
  have whole : String.ofList w ++ "\n" ++ String.ofList line = .ofList (w ++ '\n' :: line) := by
    have feed : "\n" = String.ofList ['\n'] := rfl
    rw [feed, ← String.ofList_append, ← String.ofList_append]
    simp
  simp only [addLine, whole, isComplete_ofList, Option.isNone_some, Bool.false_eq_true, false_and, if_false]

theorem addLine_none {line : List Char} (solid : Text.trim (.ofList line) ≠ "") :
    addLine none (.ofList line) =
      if (({} : Nesting).scan line).isClosed then (none, some (.ofList line))
      else (some (.ofList line), none) := by
  simp only [addLine, isComplete_ofList, solid, and_false, if_false]

/-- Lines that are held back make one input with the line that closes what is open. -/
theorem assemble_of_held {l : Nat} {w s : List Char} (short : s.length < l)
    (held : (({} : Nesting).scan (w ++ ['\n'])).Held s)
    (closed : (({} : Nesting).scan (w ++ '\n' :: s)).isClosed) :
    assemble (some (.ofList w)) (linesOf s) = ([.ofList (w ++ '\n' :: s)], none) := by
  induction l generalizing w s with
  | zero => omega
  | succ l ih =>
    rcases exists_line s with line | ⟨first, rest, line, rfl⟩
    · rw [linesOf_line line, assemble, addLine_some, if_pos closed]
      rfl
    · have split : w ++ ['\n'] ++ (first ++ ['\n']) = w ++ '\n' :: first ++ ['\n'] := by simp
      have again : first ++ '\n' :: rest = (first ++ ['\n']) ++ rest := by simp
      have opened : (({} : Nesting).scan (w ++ '\n' :: first)).isClosed = false := by
        obtain ⟨_, feed, _⟩ := held_append.mp held
        rw [← scan_append] at feed
        simpa using feed
      rw [again, held_append, ← scan_append, split] at held
      have shorter : rest.length < l := by
        simp only [List.length_append, List.length_cons] at short
        omega
      have last := ih shorter held.2 (by simpa using closed)
      rw [linesOf_append, linesOf_line line, List.singleton_append, assemble, addLine_some, opened,
        if_neg (by decide)]
      dsimp only
      rw [last]
      simp

/-- A text that is closed at its end and not at a line feed before makes one input. -/
theorem assemble_of_closed {indent s : List Char} {c : Char} (spaces : ∀ d ∈ indent, isSpace d)
    (solid : Text.isBlank c = false) (held : ({} : Nesting).Held (indent ++ c :: s))
    (closed : (({} : Nesting).scan (indent ++ c :: s)).isClosed) :
    assemble none (linesOf (indent ++ c :: s)) = ([.ofList (indent ++ c :: s)], none) := by
  have blank : ∀ d ∈ indent, Text.isBlank d := fun d mem => Text.isBlank_of_isSpace (spaces d mem)
  have visible (line : List Char) : Text.trim (.ofList (indent ++ c :: line)) ≠ "" := by
    obtain ⟨t, _, trimmed, _⟩ := Text.exists_trim (s := line) blank solid
    rw [trimmed]
    intro empty
    exact absurd (String.ofList_eq_empty_iff.mp empty) (List.cons_ne_nil c t)
  have start : '\n' ∉ indent ++ [c] := by
    intro feed
    rcases List.mem_append.mp feed with before | here
    · exact absurd (spaces '\n' before) (by decide)
    · rw [← List.mem_singleton.mp here] at solid
      exact absurd solid (by decide)
  rcases exists_line s with line | ⟨first, rest, line, rfl⟩
  · have whole : '\n' ∉ indent ++ c :: s := by
      rw [List.append_cons]
      exact fun feed => (List.mem_append.mp feed).elim start line
    rw [linesOf_line whole, assemble, addLine_none (visible s), if_pos closed]
    rfl
  · have split : indent ++ c :: (first ++ '\n' :: rest) = indent ++ c :: first ++ '\n' :: rest := by simp
    have whole : '\n' ∉ indent ++ c :: first := by
      rw [List.append_cons]
      exact fun feed => (List.mem_append.mp feed).elim start line
    rw [split] at held closed ⊢
    have opened : (({} : Nesting).scan (indent ++ c :: first)).isClosed = false :=
      (held_append.mp held).2.1 rfl
    rw [List.append_cons _ '\n', held_append] at held
    rw [linesOf_append, linesOf_line whole, List.singleton_append, assemble, addLine_none (visible first),
      opened, if_neg (by decide)]
    dsimp only
    rw [assemble_of_held (Nat.lt_succ_self _) held.2 closed]
    rfl

/-- An input that is answered with nothing and changes nothing. -/
def Silent (input : String) : Prop := ∀ session : Session, session.step input = (.empty, session)

theorem silent_of_trim_nil {input : String} (blank : Text.trim input = "") : Silent input := by
  intro session
  simp [step, blank]

theorem silent_of_trim_hash {input : String} {t : List Char} (comment : Text.trim input = .ofList ('#' :: t)) :
    Silent input := by
  intro session
  simp [step, comment]

theorem isLineBreak_of_mem_line {line : List Char} (feed : '\n' ∉ line) (plain : '\r' ∉ line) {c : Char}
    (mem : c ∈ line) : isLineBreak c = false := by
  have other : c ≠ '\n' := fun same => feed (by rwa [← same])
  have other' : c ≠ '\r' := fun same => plain (by rwa [← same])
  simp [isLineBreak, other, other']

theorem afterBlanks_line {line : List Char} (feed : '\n' ∉ line) (plain : '\r' ∉ line) :
    afterBlanks line = afterLines false line := by
  rw [← afterLines_afterBlanks]
  refine (afterLines_of_settled (settled_afterBlanks line) fun c head => ?_).symm
  exact isLineBreak_of_mem_line feed plain ((afterBlanks_suffix line).subset (List.mem_of_mem_head? head))

/-- A line of blanks, perhaps with a comment after them, is a silent input. -/
theorem addLine_blank {line : List Char} (feed : '\n' ∉ line) (plain : '\r' ∉ line)
    (finished : afterLines false line = []) : ∃ i, addLine none (.ofList line) = (none, some i) ∧ Silent i := by
  have empty := afterBlanks_line feed plain
  rw [finished] at empty
  have closed : (({} : Nesting).scan line).isClosed := by
    have whole := blanks_append_afterBlanks line
    rw [empty, List.append_nil] at whole
    have between := (between_initial line).skip.2
    rw [whole] at between
    exact between.isClosed
  have split := List.takeWhile_append_dropWhile (p := isSpace) (l := line)
  have spaces : ∀ d ∈ line.takeWhile isSpace, isSpace d := List.all_eq_true.mp List.all_takeWhile
  have blank : ∀ d ∈ line.takeWhile isSpace, Text.isBlank d := fun d mem => Text.isBlank_of_isSpace (spaces d mem)
  rcases rest : line.dropWhile isSpace with _ | ⟨c, s⟩
  · rw [rest, List.append_nil] at split
    rw [split] at blank
    have trimmed := Text.trim_of_blank blank
    exact ⟨"", by simp [addLine, trimmed], silent_of_trim_nil (by decide)⟩
  · have hash : c = '#' := by
      rcases Decidable.em (c = '#') with hash | other
      · exact hash
      · simp [afterBlanks, rest, other] at empty
    subst hash
    rw [rest] at split
    obtain ⟨t, v, trimmed, _, _⟩ := Text.exists_trim (c := '#') (s := s) blank (by decide)
    rw [split] at trimmed
    have visible : Text.trim (.ofList line) ≠ "" := by
      rw [trimmed]
      intro empty
      exact absurd (String.ofList_eq_empty_iff.mp empty) (List.cons_ne_nil '#' t)
    exact ⟨.ofList line, by rw [addLine_none visible, if_pos closed], silent_of_trim_hash trimmed⟩

/-- Blank lines and comments are silent inputs. -/
theorem assemble_of_finished {l : Nat} {s : List Char} (short : s.length < l) (plain : '\r' ∉ s)
    (finished : afterLines false s = []) :
    ∃ inputs, assemble none (linesOf s) = (inputs, none) ∧ ∀ i ∈ inputs, Silent i := by
  induction l generalizing s with
  | zero => omega
  | succ l ih =>
    rcases exists_line s with line | ⟨first, rest, line, rfl⟩
    · obtain ⟨i, added, silent⟩ := addLine_blank line plain finished
      refine ⟨[i], ?_, by simpa using silent⟩
      rw [linesOf_line line, assemble, added]
      rfl
    · rw [afterLines_append] at finished
      split at finished
      · next blank =>
        have plain' : '\r' ∉ first ∧ '\r' ∉ rest := by simpa using plain
        obtain ⟨i, added, silent⟩ := addLine_blank line plain'.1 blank
        have shorter : rest.length < l := by
          simp only [List.length_append, List.length_cons] at short
          omega
        obtain ⟨inputs, assembled, silent'⟩ := ih shorter plain'.2 finished
        refine ⟨i :: inputs, ?_, by simpa using ⟨silent, silent'⟩⟩
        rw [linesOf_append, linesOf_line line, List.singleton_append, assemble, added]
        dsimp only
        rw [assembled]
        rfl
      · exact absurd finished (by simp)

/-- On its line, what is no comment stands after spaces. -/
theorem exists_indent {line : List Char} (feed : '\n' ∉ line) (plain : '\r' ∉ line)
    (more : afterLines false line ≠ []) :
    ∃ indent, (∀ d ∈ indent, isSpace d) ∧ line = indent ++ afterLines false line := by
  refine ⟨line.takeWhile isSpace, List.all_eq_true.mp List.all_takeWhile, ?_⟩
  rw [← afterBlanks_line feed plain] at more ⊢
  unfold afterBlanks at more ⊢
  dsimp only at more ⊢
  split
  · next hash =>
    rw [if_pos hash] at more
    have passed : ∀ c ∈ line.dropWhile isSpace, !isLineBreak c := by
      intro c mem
      have solid := isLineBreak_of_mem_line feed plain ((List.dropWhile_suffix isSpace).subset mem)
      simp [solid]
    have empty : (line.dropWhile isSpace ++ []).dropWhile (!isLineBreak ·) = [] :=
      List.dropWhile_append_of_pos passed
    rw [List.append_nil] at empty
    exact absurd empty more
  · exact List.takeWhile_append_dropWhile.symm

/-- Blank lines and comments before a statement are silent inputs, and the statement stands on its line
after spaces. -/
theorem assemble_leading {l : Nat} {s : List Char} (short : s.length < l) (plain : '\r' ∉ s)
    (more : afterLines false s ≠ []) :
    ∃ inputs indent, (∀ i ∈ inputs, Silent i) ∧ (∀ d ∈ indent, isSpace d) ∧
      assemble none (linesOf s) = (inputs ++ (assemble none (linesOf (indent ++ afterLines false s))).1,
        (assemble none (linesOf (indent ++ afterLines false s))).2) := by
  induction l generalizing s with
  | zero => omega
  | succ l ih =>
    rcases exists_line s with line | ⟨first, rest, line, rfl⟩
    · obtain ⟨indent, spaces, whole⟩ := exists_indent line plain more
      exact ⟨[], indent, by simp, spaces, by rw [← whole]; rfl⟩
    · have plain' : '\r' ∉ first ∧ '\r' ∉ rest := by simpa using plain
      rw [afterLines_append] at more ⊢
      split
      · next blank =>
        rw [if_pos blank] at more
        obtain ⟨i, added, silent⟩ := addLine_blank line plain'.1 blank
        have shorter : rest.length < l := by
          simp only [List.length_append, List.length_cons] at short
          omega
        obtain ⟨inputs, indent, silent', spaces, assembled⟩ := ih shorter plain'.2 more
        refine ⟨i :: inputs, indent, by simpa using ⟨silent, silent'⟩, spaces, ?_⟩
        rw [linesOf_append, linesOf_line line, List.singleton_append, assemble, added]
        dsimp only
        rw [assembled]
        rfl
      · next visible =>
        obtain ⟨indent, spaces, whole⟩ := exists_indent line plain'.1 visible
        refine ⟨[], indent, by simp, spaces, ?_⟩
        rw [← List.append_assoc, ← whole]
        rfl

/-- White space opens and closes nothing. -/
theorem isClosed_scan_of_blank {n : Nesting} {v : List Char} (blank : ∀ c ∈ v, Text.isBlank c) :
    (n.scan v).isClosed = n.isClosed := by
  induction v generalizing n with
  | nil => rfl
  | cons c v ih =>
    have first := blank c List.mem_cons_self
    have other (d : Char) (solid : Text.isBlank d = false) : c ≠ d := by
      rintro rfl
      rw [solid] at first
      cases first
    have openers : ¬(c = '\x7b' ∨ c = '[' ∨ c = '(') := by
      rintro (same | same | same) <;> exact absurd same (other _ (by decide))
    have closers : ¬(c = '\x7d' ∨ c = ']' ∨ c = ')') := by
      rintro (same | same | same) <;> exact absurd same (other _ (by decide))
    have stays : (n.next c).isClosed = n.isClosed := by
      unfold Nesting.next
      rw [if_neg (other '"' (by decide)), if_neg (other '#' (by decide)), if_neg openers, if_neg closers]
      split
      · rfl
      · split
        · rfl
        · split <;> rfl
    rw [scan_cons, ih fun d mem => blank d (List.mem_cons_of_mem c mem), stays]

/-- White space at the end of a closed text is on its last line. -/
theorem feed_not_mem_of_closed {s v : List Char} (blank : ∀ c ∈ v, Text.isBlank c)
    (held : ({} : Nesting).Held (s ++ v)) (closed : (({} : Nesting).scan (s ++ v)).isClosed) : '\n' ∉ v := by
  intro feed
  obtain ⟨x, y, rfl⟩ := List.append_of_mem feed
  have opened := (held_append.mp (held_append.mp held).2).2.1 rfl
  rw [← scan_append] at opened
  have same := isClosed_scan_of_blank (n := ({} : Nesting).scan (s ++ x)) (v := '\n' :: y) fun c mem =>
    blank c (List.mem_append_right x mem)
  rw [← scan_append, List.append_assoc] at same
  rw [same, opened] at closed
  cases closed

/-- An input that is executed as a statement, which is read from it like one of a script. -/
structure Reads (input : String) (v : Except Script.LiteralFault (Located Script.Statement)) : Prop where
  step (session : Session) : session.step input = session.runStatement (Text.trim input)
  parse : ∃ w, Alike w v ∧ Script.Statement.parse (Text.trim input) = w.mapError .literal

/-- Inputs of which those that are not silent read the statements, one after the other. -/
inductive Answers : List String → List (Except Script.LiteralFault (Located Script.Statement)) → Prop
  | nil : Answers [] []
  | silent {i inputs vs} : Silent i → Answers inputs vs → Answers (i :: inputs) vs
  | reads {i v inputs vs} : Reads i v → Answers inputs vs → Answers (i :: inputs) (v :: vs)

theorem Answers.append_silent {inputs more : List String}
    {vs : List (Except Script.LiteralFault (Located Script.Statement))} (silent : ∀ i ∈ inputs, Silent i)
    (answers : Answers more vs) : Answers (inputs ++ more) vs := by
  induction inputs with
  | nil => exact answers
  | cons i inputs ih =>
    exact .silent (silent i List.mem_cons_self) (ih fun j mem => silent j (List.mem_cons_of_mem i mem))

theorem runStatement_ne_empty (session : Session) (text : String) : (session.runStatement text).1 ≠ .empty := by
  unfold runStatement
  split
  · exact Reply.noConfusion
  · split <;> exact Reply.noConfusion

theorem Answers.of_silent_cons {i : String} {inputs : List String}
    {vs : List (Except Script.LiteralFault (Located Script.Statement))} (answers : Answers (i :: inputs) vs)
    (silent : Silent i) : Answers inputs vs := by
  cases answers with
  | silent _ rest => exact rest
  | reads reads _ =>
    have step := reads.step {}
    rw [silent] at step
    exact absurd (congrArg Prod.fst step).symm (runStatement_ne_empty _ _)

open Script Script.Rule

theorem step_of_isPart {input : String} {c : Char} {t : List Char} (part : Word.isPart c)
    (trimmed : Text.trim input = .ofList (c :: t)) (session : Session) :
    session.step input = session.runStatement (Text.trim input) := by
  have hash : c ≠ '#' := by
    rintro rfl
    exact absurd part (by decide)
  have slash : c ≠ '/' := by
    rintro rfl
    exact absurd part (by decide)
  unfold Session.step
  dsimp only
  rw [trimmed, String.toList_ofList]
  split
  · next nil => cases nil
  · next head =>
    cases head
    exact absurd rfl hash
  · next head =>
    cases head
    exact absurd rfl slash
  · rfl

/-- The line or lines of a statement make one input. -/
theorem assemble_statement {c : Cursor} {m : Match LiteralFault (Located Statement)} {indent : List Char}
    (plain : '\r' ∉ c.rest) (settled : Settled c.rest) (spaces : ∀ d ∈ indent, isSpace d)
    (found : statement.accept? c = some m) (ending : AtLineEnd m.next.skipBlanks.rest) :
    ∃ line, c.rest = line ++ m.next.skipBlanks.rest ∧
      assemble none (linesOf (indent ++ line)) = ([.ofList (indent ++ line)], none) ∧
      Reads (.ofList (indent ++ line)) m.value := by
  -- nothing is open after the line, and only there
  obtain ⟨taken, split, held, between⟩ :=
    Scans.statement found (fed_of_not_mem plain) (between_initial c.rest)
  have whole : c.rest = taken ++ blanks m.next.rest ++ m.next.skipBlanks.rest := by
    rw [List.append_assoc]
    exact split.trans (congrArg (taken ++ ·) (blanks_append_afterBlanks m.next.rest).symm)
  obtain ⟨heldBlanks, betweenBlanks⟩ := between.skip
  have quiet := scan_of_isNeutral (n := {}) (fun d mem => isNeutral_of_isSpace (spaces d mem)) rfl rfl rfl
  have heldLine : ({} : Nesting).Held (indent ++ (taken ++ blanks m.next.rest)) := by
    rw [held_append, quiet.1, held_append]
    exact ⟨quiet.2, held, heldBlanks⟩
  have closed : (({} : Nesting).scan (indent ++ (taken ++ blanks m.next.rest))).isClosed := by
    rw [scan_append, quiet.1, scan_append]
    exact betweenBlanks.isClosed
  -- the statement begins with a word
  have consumed : taken ≠ [] := by
    rintro rfl
    have shorter := (Grammar.accept?_reaches found).length_lt (statement_consumes found)
    rw [split] at shorter
    simp at shorter
  obtain ⟨h, s, line⟩ := List.exists_cons_of_ne_nil (List.append_ne_nil_of_left_ne_nil consumed (blanks m.next.rest))
  have part : Word.isPart h := by
    have lead := statement_begins.of_accept? settled found
    rw [whole, line, List.cons_append] at lead
    exact isPart_of_isStatement lead
  rw [line] at heldLine closed whole
  have inside := Word.isBoundary_eq_false_of_isPart part
  have solid : Text.isBlank h = false := (by simpa [isBoundary] using inside : Text.isBlank h = false ∧ h ≠ '#').1
  refine ⟨h :: s, whole, assemble_of_closed spaces solid heldLine closed, ?_⟩
  -- white space is taken off its end, and none of it is a line break
  obtain ⟨t, v, trimmed, rfl, blank⟩ :=
    Text.exists_trim (s := s) (fun d mem => Text.isBlank_of_isSpace (spaces d mem)) solid
  have regroup : indent ++ h :: (t ++ v) = (indent ++ h :: t) ++ v := by simp
  have white : Blank v := by
    rw [regroup] at heldLine closed
    have feed := feed_not_mem_of_closed blank heldLine closed
    have carriage : '\r' ∉ v := fun mem => plain (by rw [whole]; simp [mem])
    exact fun d mem => ⟨blank d mem, isLineBreak_of_mem_line feed carriage mem⟩
  refine ⟨step_of_isPart part trimmed, ?_⟩
  -- the statement is read on its line as it is read before the next one
  obtain ⟨d, g, same, found', last⟩ := exists_statement_alone settled found ending
  have rest : d.rest = (String.ofList (h :: t)).toList ++ v := by
    rw [whole] at same
    rw [← List.append_cancel_right same]
    simp
  have settledText : Settled (String.ofList (h :: t)).toList := by
    rw [String.toList_ofList]
    exact settled_cons inside t
  rw [trimmed]
  refine parse_of_blank (m := ⟨m.value, g⟩) white rest settledText ?_ found' last
  rw [String.toList_ofList]
  intro x here
  cases here
  exact isLineBreak_eq_false inside

/-- The statements of a script make one input each; the other inputs are silent. -/
theorem exists_answers {c : Cursor} {vs : List (Except LiteralFault (Located Statement))}
    (listing : Listing c vs) (plain : '\r' ∉ c.rest) :
    ∃ inputs, assemble none (linesOf c.rest) = (inputs, none) ∧ Answers inputs vs := by
  induction listing with
  | @done c finished =>
    obtain ⟨inputs, assembled, silent⟩ := assemble_of_finished (Nat.lt_succ_self _) plain finished
    have answers := Answers.append_silent silent .nil
    rw [List.append_nil] at answers
    exact ⟨inputs, assembled, answers⟩
  | @next c m vs found ending rest ih =>
    have plain' : '\r' ∉ c.skipLines.rest := fun mem => plain ((afterLines_suffix _ _).subset mem)
    have more : afterLines false c.rest ≠ [] := by
      intro finished
      rw [accept?_statement_nil finished] at found
      cases found
    obtain ⟨silents, indent, silent, spaces, leading⟩ := assemble_leading (Nat.lt_succ_self _) plain more
    obtain ⟨line, split, assembled, reads⟩ :=
      assemble_statement plain' c.settled_skipLines spaces found ending
    generalize m.next.skipBlanks = e at ending ih split
    have plain'' : '\r' ∉ e.rest := fun mem => plain' (by rw [split]; exact List.mem_append_right line mem)
    obtain ⟨inputs, assembledRest, answers⟩ := ih plain''
    have start : afterLines false c.rest = line ++ e.rest := split
    rw [start, ← List.append_assoc] at leading
    have first : linesOf [] = [""] := rfl
    have empty : assemble none [""] = ([""], none) := rfl
    rcases rest' : e.rest with _ | ⟨x, s⟩
    · rw [rest', first, empty] at assembledRest
      cases assembledRest
      have finished := answers.of_silent_cons (silent_of_trim_nil (by decide))
      refine ⟨silents ++ [.ofList (indent ++ line)], ?_, .append_silent silent (.reads reads finished)⟩
      rw [leading, rest', List.append_nil, assembled]
    · have feed : x = '\n' := by
        have lineBreak := ending x (by rw [rest']; rfl)
        rcases isLineBreak_iff.mp lineBreak with feed | carriage
        · exact feed
        · exact absurd (by rw [rest', carriage]; exact List.mem_cons_self) plain''
      subst feed
      have more := linesOf_append [] s
      rw [List.nil_append, first] at more
      rw [rest', more, assemble_append, empty] at assembledRest
      rcases tail : assemble none (linesOf s) with ⟨inputs', last⟩
      rw [tail] at assembledRest
      cases assembledRest
      have answers' := answers.of_silent_cons (silent_of_trim_nil (by decide))
      refine ⟨silents ++ .ofList (indent ++ line) :: inputs', ?_, .append_silent silent (.reads reads answers')⟩
      rw [leading, rest', linesOf_append, assemble_append, assembled, tail]
      rfl

end Session

end KeyIntrospection
