import KeyIntrospection.Proofs.Grammar.Delay
import KeyIntrospection.Proofs.Script.Locality
import KeyIntrospection.Script.Parse

/-!
A script, seen one statement at a time. Blank lines and comments stand between statements, and a
statement is followed by the end of its line.
-/

namespace KeyIntrospection

/-- What follows the blanks, comments and line breaks at the head of a text, or of the rest of a
comment. -/
def afterLines (inComment : Bool) : List Char → List Char
  | [] => []
  | c :: s =>
    if isLineBreak c then afterLines false s
    else if inComment ∨ c = '#' then afterLines true s
    else if isSpace c then afterLines false s
    else c :: s

theorem afterLines_suffix (inComment : Bool) (s : List Char) : afterLines inComment s <:+ s := by
  induction s generalizing inComment with
  | nil => exact List.suffix_rfl
  | cons c s ih =>
    rw [afterLines]
    split
    · exact (ih _).trans (List.suffix_cons c s)
    · split
      · exact (ih _).trans (List.suffix_cons c s)
      · split
        · exact (ih _).trans (List.suffix_cons c s)
        · exact List.suffix_rfl

/-- A line that is blank up to its end is passed over, and what follows it is not looked at otherwise. -/
theorem afterLines_append (inComment : Bool) (s b : List Char) :
    afterLines inComment (s ++ '\n' :: b) =
      if afterLines inComment s = [] then afterLines false b else afterLines inComment s ++ '\n' :: b := by
  induction s generalizing inComment with
  | nil => simp [afterLines, isLineBreak]
  | cons c s ih =>
    simp only [List.cons_append, afterLines]
    split
    · exact ih _
    · split
      · exact ih _
      · split
        · exact ih _
        · simp

theorem afterLines_dropWhile_isSpace (s : List Char) :
    afterLines false (s.dropWhile isSpace) = afterLines false s := by
  induction s with
  | nil => rfl
  | cons c s ih =>
    rw [List.dropWhile_cons]
    split
    · next space =>
      have solid : isLineBreak c = false ∧ c ≠ '#' := by
        rcases isSpace_iff.mp space with rfl | rfl <;> decide
      simp [ih, afterLines, solid, space]
    · rfl

theorem afterLines_dropWhile_comment (s : List Char) :
    afterLines false (s.dropWhile (!isLineBreak ·)) = afterLines true s := by
  induction s with
  | nil => rfl
  | cons c s ih =>
    rw [List.dropWhile_cons]
    cases lineBreak : isLineBreak c with
    | true => simp [afterLines, lineBreak]
    | false => simp [ih, afterLines, lineBreak]

theorem afterLines_afterBlanks (s : List Char) : afterLines false (afterBlanks s) = afterLines false s := by
  rw [← afterLines_dropWhile_isSpace s]
  unfold afterBlanks
  dsimp only
  split
  · next hash =>
    obtain ⟨t, rest⟩ := List.head?_eq_some_iff.mp hash
    rw [rest, afterLines_dropWhile_comment]
    simp [afterLines, isLineBreak]
  · rfl

/-- Where neither blanks nor a line break stand, nothing is passed over. -/
theorem afterLines_of_settled {s : List Char} (settled : Settled s)
    (solid : ∀ c ∈ s.head?, isLineBreak c = false) : afterLines false s = s := by
  rcases s with _ | ⟨c, s⟩
  · rfl
  · obtain ⟨space, hash⟩ := settled_iff.mp settled c rfl
    simp [afterLines, solid c rfl, space, hash]

theorem settled_afterLines (inComment : Bool) (s : List Char) : Settled (afterLines inComment s) := by
  induction s generalizing inComment with
  | nil => exact settled_iff.mpr (by simp [afterLines])
  | cons c s ih =>
    rw [afterLines]
    split
    · exact ih _
    · split
      · exact ih _
      · split
        · exact ih _
        · next other space =>
          refine settled_iff.mpr fun d head => ?_
          cases head
          exact ⟨by simpa using space, fun hash => other (.inr hash)⟩

theorem isLineBreak_head_afterLines (inComment : Bool) (s : List Char) :
    ∀ c ∈ (afterLines inComment s).head?, isLineBreak c = false := by
  induction s generalizing inComment with
  | nil => simp [afterLines]
  | cons c s ih =>
    rw [afterLines]
    split
    · exact ih _
    · next solid =>
      split
      · exact ih _
      · split
        · exact ih _
        · exact fun d head => by
            cases head
            exact Bool.eq_false_iff.mpr solid

namespace Cursor

/-- Reading on leads to one cursor with a given rest. -/
theorem Reaches.eq_of_rest_eq {c d e : Cursor} (first : c.Reaches d) (second : c.Reaches e)
    (same : d.rest = e.rest) : d = e := by
  have stop₁ := first.stop_eq
  have stop₂ := second.stop_eq
  obtain ⟨s, o⟩ := d
  obtain ⟨t, p⟩ := e
  simp only [stop] at same stop₁ stop₂
  subst same
  simp only [Cursor.mk.injEq, true_and]
  omega

/-- The cursor after blanks, comments and line breaks. -/
def skipLines (c : Cursor) : Cursor :=
  ⟨afterLines false c.rest, c.stop - byteLength (afterLines false c.rest)⟩

theorem reaches_of_suffix {c : Cursor} {t : List Char} (suffix : t <:+ c.rest) :
    c.Reaches ⟨t, c.stop - byteLength t⟩ := by
  obtain ⟨taken, split⟩ := suffix
  refine ⟨taken, split.symm, ?_⟩
  simp only [advance, stop, ← split, byteLength_append, Cursor.mk.injEq, true_and]
  omega

theorem reaches_skipLines (c : Cursor) : c.Reaches c.skipLines := reaches_of_suffix (afterLines_suffix _ _)

theorem settled_skipLines (c : Cursor) : Settled c.skipLines.rest := settled_afterLines _ _

/-- A cursor that reading on leads to, with the rest after the lines. -/
theorem Reaches.eq_skipLines {c d : Cursor} (reach : c.Reaches d) (rest : d.rest = afterLines false c.rest) :
    d = c.skipLines :=
  reach.eq_of_rest_eq c.reaches_skipLines rest

theorem skipLines_skipBlanks (c : Cursor) : c.skipBlanks.skipLines = c.skipLines :=
  (c.reaches_skipBlanks.trans c.skipBlanks.reaches_skipLines).eq_skipLines (afterLines_afterBlanks c.rest)

theorem Reaches.later {c d : Cursor} (reach : c.Reaches d) (k : Nat) : (c.later k).Reaches (d.later k) := by
  obtain ⟨taken, split, next⟩ := reach
  refine ⟨taken, split, ?_⟩
  have offset : d.offset = c.offset + byteLength taken := congrArg Cursor.offset next
  simp only [Cursor.later, advance, offset, Cursor.mk.injEq, true_and]
  omega

theorem skipLines_later (c : Cursor) (k : Nat) : (c.later k).skipLines = c.skipLines.later k :=
  ((c.reaches_skipLines.later k).eq_skipLines rfl).symm

/-- The lines of a text that stands before a line break and another text. -/
theorem skipLines_followedBy (c : Cursor) (b : List Char) :
    (c.followedBy ('\n' :: b)).skipLines =
      if c.skipLines.rest = [] then (⟨b, c.stop + 1⟩ : Cursor).skipLines
      else c.skipLines.followedBy ('\n' :: b) := by
  split
  · next blank =>
    have ahead : (c.followedBy ('\n' :: b)).Reaches ⟨b, c.stop + 1⟩ := by
      refine ⟨c.rest ++ ['\n'], by simp [followedBy], ?_⟩
      have feed : '\n'.utf8Size = 1 := by decide
      simp [advance, followedBy, stop, byteLength, feed, Nat.add_assoc]
    refine ((ahead.trans (reaches_skipLines _)).eq_skipLines ?_).symm
    have blank' : afterLines false c.rest = [] := blank
    simp only [followedBy, afterLines_append, blank', if_true]
    rfl
  · next other =>
    refine ((reaches_followedBy.mpr c.reaches_skipLines).eq_skipLines ?_).symm
    have other' : afterLines false c.rest ≠ [] := other
    simp only [followedBy, afterLines_append, other', if_false]
    rfl

end Cursor

namespace Grammar

variable {ν ε α : Type}

theorem attemptItems_skipBlanks {p : Grammar ν ε α} (consumes : p.Consumes) (c : Cursor) (a : Attempts ν) :
    (attemptItems p.attempt c.skipBlanks a).2 = (attemptItems p.attempt c a).2 ∧
      (attemptItems p.attempt c.skipBlanks a).1.value = (attemptItems p.attempt c a).1.value ∧
      (attemptItems p.attempt c.skipBlanks a).1.next.skipBlanks =
        (attemptItems p.attempt c a).1.next.skipBlanks := by
  rcases found : p.attempt c.skipBlanks a with ⟨m, b⟩
  cases m with
  | none =>
    rw [attemptItems_of_none found, attemptItems_of_none (by rw [Cursor.skipBlanks_skipBlanks, found])]
    exact ⟨rfl, rfl, c.skipBlanks_skipBlanks⟩
  | some m =>
    rw [attemptItems_of_some consumes found,
      attemptItems_of_some consumes (by rw [Cursor.skipBlanks_skipBlanks, found])]
    exact ⟨rfl, rfl, rfl⟩

end Grammar

namespace Script.Rule

open Grammar

/-- A statement of a script and the end of its line. -/
def entry : Rule (Located Statement) := .map Prod.fst (seq statement statementEnd)

/-- The statements of a script up to its end. -/
def entries : Rule (List (Located Statement) × Unit) := seq (.many entry) endOfInput

theorem script_eq : script = phrase .script (seq (.plain .nothing) <| seq lineBreaks entries)
    fun (_, _, statements, _) => statements := rfl

theorem entry_consumes : entry.Consumes := .map (.seq statement_consumes)

theorem take?_lineBreak_rest {s x r : List Char} (takes : Token.lineBreak.take? s = some (x, r)) :
    afterLines false r = afterLines false s := by
  unfold Token.lineBreak at takes
  dsimp only at takes
  split at takes
  · cases takes
    simp [afterLines, isLineBreak]
  · cases takes
    simp [afterLines, isLineBreak]
  · cases takes
    simp [afterLines, isLineBreak]
  · cases takes

theorem skipLines_of_lineBreak {c : Cursor} {m : Match LiteralFault Unit}
    (accepted : (Grammar.plain .lineBreak : Rule Unit).accept? c = some m) :
    m.next.skipLines = c.skipLines := by
  have reach := accept?_reaches accepted
  obtain ⟨⟨x, next⟩, takes, rfl⟩ := Option.map_eq_some_iff.mp accepted
  obtain ⟨⟨taken, rest⟩, found, same⟩ := Option.map_eq_some_iff.mp takes
  cases same
  exact (reach.trans (Cursor.reaches_skipLines _)).eq_skipLines (take?_lineBreak_rest found)

/-- As many line breaks as there are lead to the end of the blank lines. -/
theorem items_lineBreak {l : Nat} {c : Cursor} (short : c.rest.length < l) :
    ∃ v, (items (Grammar.plain .lineBreak : Rule Unit).accept? c).value = .ok v ∧
      (items (Grammar.plain .lineBreak : Rule Unit).accept? c).next.skipBlanks = c.skipLines := by
  induction l generalizing c with
  | zero => omega
  | succ l ih =>
    cases found : (Grammar.plain .lineBreak : Rule Unit).accept? c.skipBlanks with
    | none =>
      rw [items_of_none found]
      refine ⟨[], rfl, c.reaches_skipBlanks.eq_skipLines ?_⟩
      have absent : Token.lineBreak.take? c.skipBlanks.rest = none := by
        simpa [accept?, Token.read?] using found
      rw [← afterLines_afterBlanks]
      exact (afterLines_of_settled (settled_afterBlanks _)
        (Token.take?_lineBreak_eq_none_iff.mp absent)).symm
    | some m =>
      have later := Nat.lt_of_le_of_lt c.offset_le_skipBlanks (lineBreak_consumes found)
      have shorter := (c.reaches_skipBlanks.trans (accept?_reaches found)).length_lt later
      obtain ⟨v, value, next⟩ := ih (c := m.next) (by omega)
      rw [items_of_some lineBreak_consumes found]
      refine ⟨() :: v, ?_, ?_⟩
      · obtain ⟨⟨x, next⟩, _, rfl⟩ := Option.map_eq_some_iff.mp found
        simp only [Match.cons, value]
        rfl
      · rw [← c.skipLines_skipBlanks, ← skipLines_of_lineBreak found]
        exact next

theorem attempt_lineBreaks {c : Cursor} (settled : Settled c.rest) (a : Attempts Phrase) :
    ∃ m v, lineBreaks.attempt c a = (some m, a) ∧ m.value = .ok v ∧ m.next.skipBlanks = c.skipLines := by
  obtain ⟨v, value, next⟩ := items_lineBreak (Nat.lt_succ_self c.rest.length)
  refine ⟨_, v, ?_, value, next⟩
  rw [lineBreaks, attempt_many_plain, accept?_many_of_settled lineBreak_consumes settled]

theorem accept?_lineBreaks (c : Cursor) : ∃ m v, lineBreaks.accept? c.skipBlanks = some m ∧
    m.value = .ok v ∧ m.next.skipBlanks = c.skipLines := by
  obtain ⟨m, v, again, value, next⟩ := attempt_lineBreaks c.settled_skipBlanks {}
  refine ⟨m, v, ?_, value, by rw [next, c.skipLines_skipBlanks]⟩
  rw [← attempt_fst lineBreaks c.skipBlanks {}, again]

/-- What is read after line breaks is read where the blank lines end. -/
theorem accept?_map_seq_lineBreaks {α β : Type} {q : Rule α} {c : Cursor} (settled : Settled c.rest) (f : α → β) :
    (Grammar.map (fun x => f x.2) (seq lineBreaks q) : Rule β).accept? c = (Grammar.map f q).accept? c.skipLines := by
  obtain ⟨m, v, found, value, next⟩ := accept?_lineBreaks c
  rw [Cursor.skipBlanks_of_settled settled] at found
  simp only [seq, accept?, found, Option.bind_some, Gap.skip, next]
  rcases q.accept? c.skipLines with _ | ⟨w, last⟩
  · rfl
  · simp only [Option.map_some, Match.map, Match.pair, value]
    cases w <;> rfl

theorem attempt_statementEnd {c : Cursor} (ending : AtLineEnd c.rest) (a : Attempts Phrase) :
    ∃ m, statementEnd.attempt c a = (some m, a) ∧ m.value = .ok () ∧ m.next.skipBlanks = c.skipLines := by
  cases found : Token.lineBreak.take? c.rest with
  | none =>
    have finished : c.rest = [] := by
      have other := Token.take?_lineBreak_eq_none_iff.mp found
      rcases rest : c.rest with _ | ⟨x, s⟩
      · rfl
      · have lineBreak := ending x (by rw [rest]; rfl)
        rw [other x (by rw [rest]; rfl)] at lineBreak
        cases lineBreak
    refine ⟨⟨.ok (), c⟩, ?_, rfl, c.reaches_skipBlanks.eq_skipLines ?_⟩
    · rw [finished] at found
      obtain ⟨rest, offset⟩ := c
      cases finished
      simp [statementEnd, seq, endOfInput, attempt, Token.read?, found, Token.endOfText]
    · have blank : afterBlanks c.rest = [] := by rw [finished]; rfl
      rw [Cursor.skipBlanks, Cursor.advance, blank, finished]
      rfl
  | some taken =>
    obtain ⟨x, r⟩ := taken
    have accepted : (Grammar.plain .lineBreak : Rule Unit).accept? c = some ⟨.ok (), c.advance x r⟩ := by
      simp [accept?, Token.read?, found]
    obtain ⟨m, v, again, value, next⟩ :=
      attempt_lineBreaks (c.advance x r).settled_skipBlanks a
    have both : ((⟨.ok (), c.advance x r⟩ : Match LiteralFault Unit).pair m).map (fun _ => ()) =
        ⟨.ok (), m.next⟩ := by
      simp only [Match.map, Match.pair, value]
      rfl
    refine ⟨⟨.ok (), m.next⟩, ?_, rfl, ?_⟩
    · rw [← both]
      simp only [statementEnd, seq, attempt, Token.read?, found, Option.map_some, Gap.skip, again]
    · rw [next, Cursor.skipLines_skipBlanks]
      exact skipLines_of_lineBreak accepted

theorem accept?_statementEnd_eq_none {c : Cursor} (inside : ¬AtLineEnd c.rest) :
    statementEnd.accept? c = none := by
  rcases rest : c.rest with _ | ⟨x, s⟩
  · rw [rest] at inside
    exact absurd atLineEnd_nil inside
  · have other : isLineBreak x = false := by simpa [AtLineEnd, rest] using inside
    have absent : Token.lineBreak.take? c.rest = none := by
      refine Token.take?_lineBreak_eq_none_iff.mpr fun d head => ?_
      rw [rest] at head
      cases head
      exact other
    rw [rest] at absent
    simp [statementEnd, seq, endOfInput, accept?, Token.read?, absent, Token.endOfText, rest]

/-- The statements of a script with one more before them. -/
def prepend (v : Except LiteralFault (Located Statement))
    (m : Match LiteralFault (List (Located Statement) × Unit)) :
    Match LiteralFault (List (Located Statement) × Unit) :=
  ⟨do return ((← v) :: (← m.value).1, ()), m.next⟩

/-- Statements and the end of the script after them. -/
def finish (r : Match LiteralFault (List (Located Statement)) × Attempts Phrase) :
    Option (Match LiteralFault (List (Located Statement) × Unit)) × Attempts Phrase :=
  let (k, b) := endOfInput.attempt r.1.next.skipBlanks r.2
  (k.map r.1.pair, b)

theorem attempt_entries {c : Cursor} (settled : Settled c.rest) (a : Attempts Phrase) :
    entries.attempt c a = finish (attemptItems entry.attempt c a) := by
  rw [entries, seq, attempt, attempt_many_of_settled entry_consumes settled]
  rfl

theorem finish_congr {r r' : Match LiteralFault (List (Located Statement)) × Attempts Phrase}
    (attempts : r.2 = r'.2) (value : r.1.value = r'.1.value)
    (next : r.1.next.skipBlanks = r'.1.next.skipBlanks) : finish r = finish r' := by
  have pairs : r.1.pair (β := Unit) = r'.1.pair := by
    funext k
    simp only [Match.pair, value]
  simp only [finish, attempts, next, pairs]

theorem finish_cons {m n : Match LiteralFault (Located Statement)} (same : n.value = m.value)
    (r : Match LiteralFault (List (Located Statement)) × Attempts Phrase) :
    finish (n.cons r.1, r.2) = ((finish r).1.map (prepend m.value), (finish r).2) := by
  obtain ⟨⟨l, next⟩, b⟩ := r
  simp only [finish, Match.cons, Option.map_map, Prod.mk.injEq, and_true]
  refine Option.map_congr fun k _ => ?_
  simp only [Function.comp_apply, Match.pair, prepend, same]
  cases m.value <;> cases l <;> cases k.value <;> rfl

/-- A statement at the end of its line, and the statements after it. -/
theorem attempt_entries_of_statement {c : Cursor} {a b : Attempts Phrase}
    {m : Match LiteralFault (Located Statement)} (settled : Settled c.rest)
    (found : statement.attempt c a = (some m, b)) (ending : AtLineEnd m.next.skipBlanks.rest) :
    entries.attempt c a = ((entries.attempt m.next.skipLines b).1.map (prepend m.value),
      (entries.attempt m.next.skipLines b).2) := by
  obtain ⟨n, again, value, next⟩ := attempt_statementEnd ending b
  have one : entry.attempt c a = (some ((m.pair n).map Prod.fst), b) := by
    simp only [entry, seq, attempt, found, Gap.skip, again]
    rfl
  have same : ((m.pair n).map Prod.fst).value = m.value := by
    simp only [Match.map, Match.pair, value]
    cases m.value <;> rfl
  have after : n.next.skipBlanks = m.next.skipLines := by rw [next, Cursor.skipLines_skipBlanks]
  rw [attempt_entries settled, attempt_entries m.next.settled_skipLines,
    attemptItems_of_some entry_consumes (by rw [Cursor.skipBlanks_of_settled settled, one])]
  rw [finish_cons (m := m) same]
  have shifted := attemptItems_skipBlanks entry_consumes n.next b
  rw [after] at shifted
  rw [finish_congr shifted.1 shifted.2.1 shifted.2.2]
  rfl

theorem accept?_entries_of_statement {c : Cursor} {m : Match LiteralFault (Located Statement)}
    (settled : Settled c.rest) (found : statement.accept? c = some m)
    (ending : AtLineEnd m.next.skipBlanks.rest) :
    entries.accept? c = (entries.accept? m.next.skipLines).map (prepend m.value) := by
  have same := attempt_fst statement c {}
  rw [found] at same
  have attempted : statement.attempt c {} = (some m, (statement.attempt c {}).2) := Prod.ext same rfl
  have step := congrArg Prod.fst (attempt_entries_of_statement settled attempted ending)
  rwa [attempt_fst, attempt_fst] at step

theorem accept?_endOfInput (c : Cursor) :
    endOfInput.accept? c = if c.rest = [] then some ⟨.ok (), c⟩ else none := by
  obtain ⟨s, o⟩ := c
  rcases s with _ | ⟨x, s⟩
  · rfl
  · simp [endOfInput, accept?, Token.read?, Token.endOfText]

theorem accept?_entries_of_refused {c : Cursor} (settled : Settled c.rest) (refused : entry.accept? c = none) :
    entries.accept? c = if c.rest = [] then some ⟨.ok ([], ()), c⟩ else none := by
  rw [entries, seq, accept?, accept?, refused, Option.bind_some, Gap.skip,
    Cursor.skipBlanks_of_settled settled, accept?_endOfInput]
  split <;> rfl

theorem accept?_statement_nil {c : Cursor} (finished : c.rest = []) : statement.accept? c = none := by
  refine statement_begins.accept?_eq_none (settled_iff.mpr (by simp [finished])) ?_
  rw [finished]
  decide

theorem accept?_entry_of_none {c : Cursor} (refused : statement.accept? c = none) : entry.accept? c = none := by
  simp [entry, seq, accept?, refused]

/-- A statement that ends its line is read on that line, up to its end, whatever stands after it. -/
theorem exists_line_of_statement {c : Cursor} {m : Match LiteralFault (Located Statement)}
    (settled : Settled c.rest) (found : statement.accept? c = some m)
    (ending : AtLineEnd m.next.skipBlanks.rest) :
    ∃ d g : Cursor, c = d.followedBy m.next.skipBlanks.rest ∧ d.stop = m.next.skipBlanks.offset ∧
      g.skipBlanks = ⟨[], m.next.skipBlanks.offset⟩ ∧
      ∀ e, AtLineEnd e → statement.SteadyAt d m.value g e := by
  generalize atEnd : m.next.skipBlanks = e at ending
  have reach := m.next.reaches_skipBlanks
  rw [atEnd] at reach
  obtain ⟨d, line, reachEnd⟩ : ∃ d : Cursor, c = d.followedBy e.rest ∧ d.Reaches ⟨[], e.offset⟩ :=
    Cursor.Reaches.exists_followedBy (g := ⟨[], e.offset⟩) ((accept?_reaches found).trans reach)
  obtain ⟨g, inside, _⟩ : ∃ g : Cursor, m.next = g.followedBy e.rest ∧ g.Reaches ⟨[], e.offset⟩ :=
    Cursor.Reaches.exists_followedBy (g := ⟨[], e.offset⟩) reach
  have follows : lineEnd.accept? m.next.skipBlanks = some ⟨.ok (), e⟩ := by
    rw [atEnd]
    exact accept?_lineEnd ending
  rw [line] at settled found
  refine ⟨d, g, line, ?_, ?_, fun e' ending' => ?_⟩
  · rw [reachEnd.stop_eq]
    simp [Cursor.stop, byteLength]
  · rw [inside, Cursor.skipBlanks_followedBy ending] at atEnd
    have restEnd : g.skipBlanks.rest = [] := by
      have same : g.skipBlanks.rest ++ e.rest = e.rest := congrArg Cursor.rest atEnd
      exact List.append_left_eq_self.mp same
    have offsetEnd : g.skipBlanks.offset = e.offset := by
      rw [← atEnd]
      rfl
    rw [← restEnd, ← offsetEnd]
  · obtain ⟨g', inside', _, steady⟩ := statement_before_lineEnd (g := ⟨[], e.offset⟩) ending ending'
      (Cursor.settled_of_followedBy ending settled) found follows rfl
    have same : g' = g := by
      rw [inside', Cursor.followedBy, Cursor.followedBy, Cursor.mk.injEq, List.append_cancel_right_eq] at inside
      obtain ⟨rest, offset⟩ := inside
      obtain ⟨s, o⟩ := g
      obtain ⟨s', o'⟩ := g'
      cases rest
      cases offset
      rfl
    rwa [same] at steady

/-- Such a statement can be read where its line stands alone. -/
theorem exists_statement_alone {c : Cursor} {m : Match LiteralFault (Located Statement)}
    (settled : Settled c.rest) (found : statement.accept? c = some m)
    (ending : AtLineEnd m.next.skipBlanks.rest) :
    ∃ d g : Cursor, c.rest = d.rest ++ m.next.skipBlanks.rest ∧ statement.accept? d = some ⟨m.value, g⟩ ∧
      g.skipBlanks.rest = [] := by
  obtain ⟨d, g, line, _, last, steady⟩ := exists_line_of_statement settled found ending
  obtain ⟨_, again, _⟩ := steady [] atLineEnd_nil {}
  have alone (x : Cursor) : x.followedBy [] = x := by simp [Cursor.followedBy]
  rw [alone, alone] at again
  refine ⟨d, g, congrArg Cursor.rest line, ?_, by rw [last]⟩
  rw [← attempt_fst statement d {}, again]

/-- The statements of a text, one on each line that is not blank. -/
inductive Listing : Cursor → List (Except LiteralFault (Located Statement)) → Prop
  | done {c} : c.skipLines.rest = [] → Listing c []
  | next {c m vs} : statement.accept? c.skipLines = some m → AtLineEnd m.next.skipBlanks.rest →
      Listing m.next.skipBlanks vs → Listing c (m.value :: vs)

/-- The end of a script, with its statements read. -/
def Cursor.finished (c : Cursor) : Match LiteralFault (List (Located Statement) × Unit) :=
  ⟨.ok ([], ()), ⟨[], c.stop⟩⟩

theorem skipLines_eq_of_finished {c : Cursor} (finished : c.skipLines.rest = []) : c.skipLines = ⟨[], c.stop⟩ := by
  have stop := c.reaches_skipLines.stop_eq
  rcases same : c.skipLines with ⟨s, o⟩
  rw [same] at finished stop
  cases finished
  simp only [Cursor.mk.injEq, true_and]
  simpa [Cursor.stop, byteLength] using stop.symm

/-- The entries of a script are its listing. -/
theorem Listing.accept?_entries {c : Cursor} {vs : List (Except LiteralFault (Located Statement))}
    (listing : Listing c vs) : entries.accept? c.skipLines = some (vs.foldr prepend (Cursor.finished c)) := by
  induction listing with
  | @done c finished =>
    rw [accept?_entries_of_refused c.settled_skipLines
      (accept?_entry_of_none (accept?_statement_nil finished)), if_pos finished, skipLines_eq_of_finished finished]
    rfl
  | @next c m vs found ending rest ih =>
    have reach := (c.reaches_skipLines.trans (accept?_reaches found)).trans m.next.reaches_skipBlanks
    rw [accept?_entries_of_statement c.settled_skipLines found ending, ← Cursor.skipLines_skipBlanks, ih,
      List.foldr_cons, Cursor.finished, Cursor.finished, reach.stop_eq]
    rfl

theorem exists_listing {l : Nat} {c : Cursor} {k : Match LiteralFault (List (Located Statement) × Unit)}
    (short : c.rest.length < l) (accepted : entries.accept? c.skipLines = some k) : ∃ vs, Listing c vs := by
  induction l generalizing c k with
  | zero => omega
  | succ l ih =>
    by_cases finished : c.skipLines.rest = []
    · exact ⟨[], .done finished⟩
    · -- the text is not finished, so a statement was read, and its line ended there
      have progress : entry.accept? c.skipLines ≠ none := by
        intro refused
        rw [accept?_entries_of_refused c.settled_skipLines refused, if_neg finished] at accepted
        cases accepted
      cases found : statement.accept? c.skipLines with
      | none => exact absurd (accept?_entry_of_none found) progress
      | some m =>
        by_cases ending : AtLineEnd m.next.skipBlanks.rest
        · rw [accept?_entries_of_statement c.settled_skipLines found ending,
            ← Cursor.skipLines_skipBlanks] at accepted
          obtain ⟨n, acceptedRest, _⟩ := Option.map_eq_some_iff.mp accepted
          have later := Nat.lt_of_le_of_lt c.reaches_skipLines.offset_le (statement_consumes found)
          have shorter := (c.reaches_skipLines.trans (accept?_reaches found)).length_lt later
          have suffix := m.next.reaches_skipBlanks.suffix.length_le
          obtain ⟨vs, rest⟩ := ih (by omega) acceptedRest
          exact ⟨m.value :: vs, .next found ending rest⟩
        · have refused := accept?_statementEnd_eq_none ending
          exact absurd (by simp [entry, seq, accept?, found, Gap.skip, refused]) progress

theorem attempt_script (c : Cursor) (a : Attempts Phrase) :
    script.attempt c a =
      match entries.attempt c.skipLines a with
      | (none, b) => (none, a.record b .script c.offset)
      | (some n, b) => (some ⟨n.value.map fun p => ⟨p.1, c.offset, n.next.offset⟩, n.next⟩, b) := by
  obtain ⟨m, v, again, value, next⟩ := attempt_lineBreaks c.settled_skipBlanks a
  rw [Cursor.skipLines_skipBlanks] at next
  have start : (Grammar.plain .nothing : Rule Unit).attempt c a = (some ⟨.ok (), c⟩, a) := by
    simp [attempt, Token.read?, Token.nothing, Cursor.advance, byteLength]
  rw [script_eq, phrase, attempt, attempt, seq, attempt, start]
  dsimp only
  rw [Gap.skip, seq, attempt, again]
  dsimp only
  rw [Gap.skip, next]
  rcases entries.attempt c.skipLines a with ⟨n, b⟩
  cases n with
  | none => rfl
  | some n =>
    simp only [Option.map_some, Match.map, Match.pair, value]
    cases n.value <;> rfl

theorem parse_script (source : String) :
    script.parse source =
      match entries.attempt (Cursor.ofText source).skipLines {} with
      | (some n, _) => (n.value.map fun p => ⟨p.1, 0, n.next.offset⟩).mapError .literal
      | (none, b) =>
        let attempts := ({} : Attempts Phrase).record b .script 0
        .error (.unexpected attempts.offset attempts.tried) := by
  have whole := attempt_script (Cursor.ofText source) {}
  have accepted := attempt_fst script (Cursor.ofText source) {}
  rw [Rule.parse, blame, ← accepted, whole]
  rcases entries.attempt (Cursor.ofText source).skipLines {} with ⟨n, b⟩
  cases n <;> rfl

theorem next_foldr_prepend (vs : List (Except LiteralFault (Located Statement)))
    (m : Match LiteralFault (List (Located Statement) × Unit)) : (vs.foldr prepend m).next = m.next := by
  induction vs with
  | nil => rfl
  | cons v vs ih => exact ih

/-- A text with a listing is the script of what is listed, over the whole text. -/
theorem parse_of_listing {source : String} {vs : List (Except LiteralFault (Located Statement))}
    (listing : Listing (Cursor.ofText source) vs) :
    script.parse source = ((vs.foldr prepend (Cursor.finished (Cursor.ofText source))).value.map
      fun p => ⟨p.1, 0, (Cursor.ofText source).stop⟩).mapError .literal := by
  have accepted := attempt_fst entries (Cursor.ofText source).skipLines {}
  rw [listing.accept?_entries] at accepted
  rw [parse_script]
  rcases found : entries.attempt (Cursor.ofText source).skipLines {} with ⟨n, b⟩
  rw [found] at accepted
  cases accepted
  dsimp only
  rw [next_foldr_prepend, Cursor.finished]

/-- What is read from a text was accepted. -/
theorem exists_accept_of_parse {α : Type} {rule : Rule α} {source : String} {x : α} (parsed : rule.parse source = .ok x) :
    ∃ m, rule.accept? (Cursor.ofText source) = some m ∧ m.value = .ok x := by
  unfold Rule.parse at parsed
  dsimp only at parsed
  split at parsed
  · next m found =>
    cases value : m.value with
    | error e =>
      rw [value] at parsed
      cases parsed
    | ok y =>
      rw [value] at parsed
      cases parsed
      exact ⟨m, found, value⟩
  · cases parsed

theorem exists_parse_of_script {source : String} {file : Option String} {s : Script}
    (parsed : Script.parse source file = .ok s) :
    ∃ l, script.parse source = .ok l ∧ s = ⟨l.value, file, l.span⟩ := by
  rw [Script.parse] at parsed
  cases whole : script.parse source with
  | error e =>
    rw [whole] at parsed
    cases parsed
  | ok l =>
    rw [whole] at parsed
    cases parsed
    exact ⟨l, rfl, rfl⟩

end Script.Rule

end KeyIntrospection
