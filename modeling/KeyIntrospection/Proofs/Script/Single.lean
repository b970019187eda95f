import KeyIntrospection.Proofs.Script.Alignment
import KeyIntrospection.Proofs.Script.Lines

/-!
A text that is one statement. Blank lines and comments may stand before it and after it, and white
space that is taken off its end is not missed.
-/

namespace KeyIntrospection

namespace Script.Rule

open Grammar

/-- A statement with nothing but blank lines and comments around it. -/
theorem accept?_singleStatement (c : Cursor) :
    singleStatement.accept? c =
      (statement.accept? c.skipLines).bind fun m =>
        if m.next.skipLines.rest = [] then some ⟨m.value, m.next.skipLines⟩ else none := by
  have start : Token.nothing.read? c = some (⟨[], c.offset, c.offset⟩, c) := by
    simp [Token.read?, Token.nothing, Cursor.advance, byteLength]
  obtain ⟨k, v, before, value, next⟩ := accept?_lineBreaks c
  simp only [singleStatement, either, seq, accept?, start, Option.map_some, Option.bind_some, Gap.skip,
    before, next]
  cases found : statement.accept? c.skipLines with
  | none => rfl
  | some m =>
    obtain ⟨n, w, after, value', next'⟩ := accept?_lineBreaks m.next
    simp only [Option.bind_some, after, next', accept?_endOfInput]
    by_cases finished : m.next.skipLines.rest = []
    · simp only [finished, if_true, Option.map_some, Option.some.injEq]
      simp only [Match.map, Match.pair, value, value']
      cases m.value <;> rfl
    · simp only [finished, if_false, Option.map_none]

theorem parse_singleStatement {c : Cursor} {source : String} {m : Match LiteralFault (Located Statement)}
    (start : (Cursor.ofText source).skipLines = c) (found : statement.accept? c = some m)
    (finished : m.next.skipLines.rest = []) : Statement.parse source = m.value.mapError .literal := by
  rw [Statement.parse, Rule.parse, accept?_singleStatement, start, found, Option.bind_some, if_pos finished]

/-- A text that is a statement has one where its lines begin, and nothing after it. -/
theorem exists_statement_of_parse {source : String} {s : Located Statement}
    (parsed : Statement.parse source = .ok s) :
    ∃ m, statement.accept? (Cursor.ofText source).skipLines = some m ∧ m.value = .ok s ∧
      m.next.skipLines.rest = [] := by
  rw [Statement.parse, Rule.parse, accept?_singleStatement] at parsed
  cases found : statement.accept? (Cursor.ofText source).skipLines with
  | none =>
    rw [found] at parsed
    cases parsed
  | some m =>
    rw [found, Option.bind_some] at parsed
    split at parsed
    · next k accepted =>
      rw [Option.ite_none_right_eq_some, Option.some.injEq] at accepted
      obtain ⟨finished, rfl⟩ := accepted
      refine ⟨m, rfl, ?_, finished⟩
      cases value : m.value with
      | error e =>
        rw [value] at parsed
        cases parsed
      | ok t =>
        rw [value] at parsed
        cases parsed
        rfl
    · cases parsed

end Script.Rule

/-- White space without line breaks. -/
def Blank (s : List Char) : Prop := ∀ c ∈ s, Text.isBlank c ∧ isLineBreak c = false

theorem Blank.atBoundary {v : List Char} (blank : Blank v) : AtBoundary v := by
  intro c head
  simp [isBoundary, (blank c (List.mem_of_mem_head? head)).1]

theorem Blank.of_suffix {v v' : List Char} (blank : Blank v) (suffix : v' <:+ v) : Blank v' :=
  fun c mem => blank c (suffix.subset mem)

theorem afterBlanks_suffix (s : List Char) : afterBlanks s <:+ s := ⟨blanks s, blanks_append_afterBlanks s⟩

theorem exists_dropWhile_append (p : Char → Bool) (s v : List Char) :
    ∃ v', v' <:+ v ∧ (s ++ v).dropWhile p = s.dropWhile p ++ v' := by
  rw [List.dropWhile_append]
  by_cases empty : s.dropWhile p = []
  · refine ⟨v.dropWhile p, List.dropWhile_suffix p, ?_⟩
    rw [empty]
    rfl
  · exact ⟨v, List.suffix_rfl, by simp [empty]⟩

/-- Of white space that stands after a text, some may be taken with the blanks and comments of the text. -/
theorem exists_afterBlanks_append {v : List Char} (blank : Blank v) (s : List Char) :
    ∃ v', Blank v' ∧ afterBlanks (s ++ v) = afterBlanks s ++ v' := by
  obtain ⟨v', suffix, whole⟩ := exists_dropWhile_append isSpace s v
  have white := blank.of_suffix suffix
  unfold afterBlanks
  dsimp only
  rw [whole]
  rcases s.dropWhile isSpace with _ | ⟨c, t⟩
  · have other : ([] ++ v').head? ≠ some '#' := by
      intro head
      exact absurd (white '#' (List.mem_of_mem_head? head)).1 (by decide)
    rw [if_neg other]
    exact ⟨v', white, rfl⟩
  · rw [List.cons_append, List.head?_cons, List.head?_cons]
    split
    · obtain ⟨v'', suffix', rest⟩ := exists_dropWhile_append (!isLineBreak ·) (c :: t) v'
      exact ⟨v'', white.of_suffix suffix', rest⟩
    · exact ⟨v', white, rfl⟩

namespace Alignment

/-- A text and the text without white space at its end. -/
def trimmed : Alignment where
  near c d := ∃ v, Blank v ∧ c.rest = d.rest ++ v
  left _ := 0
  right _ := 0
  inside _ _ := rfl
  skip {c d} near := by
    obtain ⟨v, blank, rest⟩ := near
    obtain ⟨v', white, same⟩ := exists_afterBlanks_append blank d.rest
    refine ⟨v', white, ?_⟩
    rw [← rest] at same
    exact same

theorem respects_trimmed_of_solid {t : Token} (solid : t.Solid) : trimmed.Respects t := by
  rintro c d ⟨v, blank, rest⟩
  have same := solid (s := d.rest) blank.atBoundary
  rw [← rest] at same
  rcases found : t.take? d.rest with _ | ⟨x, r⟩
  · left
    exact ⟨by rw [same, found]; rfl, rfl⟩
  · right
    exact ⟨x, r ++ v, r, by rw [same, found]; rfl, rfl, v, blank, rfl⟩

theorem respects_trimmed_string : trimmed.Respects Script.Word.string := by
  rintro c d ⟨v, blank, rest⟩
  rcases found : Script.Word.string.take? d.rest with _ | ⟨x, r⟩
  · left
    refine ⟨?_, rfl⟩
    rcases longer : Script.Word.string.take? c.rest with _ | ⟨x, r⟩
    · rfl
    · obtain ⟨body, quotable, rfl, split⟩ := Script.Word.take?_string_eq_some_iff.mp longer
      -- the closing quote is no white space
      obtain ⟨r', rfl⟩ : ∃ r', r = r' ++ v := by
        have both : d.rest ++ v = ('"' :: (body ++ ['"'])) ++ r := by
          rw [← rest, split]
          simp
        rcases List.append_eq_append_iff.mp both with ⟨w, start, white⟩ | ⟨w, _, last⟩
        · rcases List.eq_nil_or_concat w with rfl | ⟨w, c, rfl⟩
          · exact ⟨[], white.symm⟩
          · have same : c = '"' := by
              have ends := congrArg List.getLast? start
              rw [← List.cons_append, List.getLast?_concat, List.concat_eq_append, ← List.append_assoc,
                List.getLast?_concat] at ends
              exact (Option.some.inj ends).symm
            have inside := (blank c (by rw [white]; simp)).1
            rw [same] at inside
            exact absurd inside (by decide)
        · exact ⟨w, last⟩
      have short : d.rest = '"' :: (body ++ '"' :: r') := by
        have both : d.rest ++ v = '"' :: (body ++ '"' :: r') ++ v := by
          rw [← rest, split]
          simp
        exact List.append_cancel_right both
      rw [Script.Word.take?_string_eq_some_iff.mpr ⟨body, quotable, rfl, short⟩] at found
      cases found
  · right
    obtain ⟨body, quotable, rfl, split⟩ := Script.Word.take?_string_eq_some_iff.mp found
    refine ⟨_, r ++ v, r, Script.Word.take?_string_eq_some_iff.mpr ⟨body, quotable, rfl, ?_⟩, rfl, v, blank, rfl⟩
    rw [rest, split]
    simp

theorem respects_trimmed_lineBreak : trimmed.Respects .lineBreak := by
  rintro c d ⟨v, blank, rest⟩
  rcases found : Token.lineBreak.take? d.rest with _ | ⟨x, r⟩
  · left
    refine ⟨Token.take?_lineBreak_eq_none_iff.mpr ?_, rfl⟩
    have other := Token.take?_lineBreak_eq_none_iff.mp found
    rw [rest]
    rcases rest' : d.rest with _ | ⟨e, s⟩
    · exact fun e head => (blank e (List.mem_of_mem_head? head)).2
    · rw [rest'] at other
      exact other
  · right
    have longer : Token.lineBreak.take? (d.rest ++ v) = some (x, r ++ v) := by
      unfold Token.lineBreak at found
      dsimp only at found
      split at found
      · next feed =>
        cases found
        rw [feed]
        rfl
      · next both =>
        cases found
        rw [both]
        rfl
      · next alone carriage =>
        cases found
        rw [carriage]
        rcases r with _ | ⟨e, r⟩
        · have other : v.head? ≠ some '\n' := fun head =>
            absurd (blank '\n' (List.mem_of_mem_head? head)).2 (by decide)
          rcases v with _ | ⟨e, v⟩
          · rfl
          · have feed : e ≠ '\n' := fun same => other (by rw [same]; rfl)
            simp [Token.lineBreak, feed]
        · have feed : e ≠ '\n' := fun same => alone r (by rw [same])
          simp [Token.lineBreak, feed]
      · cases found
    exact ⟨x, r ++ v, r, by rw [rest, longer], rfl, v, blank, rfl⟩

theorem ofScripts_trimmed : trimmed.OfScripts where
  solid solid := respects_trimmed_of_solid solid
  string := respects_trimmed_string
  lineBreak := respects_trimmed_lineBreak

end Alignment

namespace Script.Rule

/-- A statement and white space after it make a text that is the same statement without the white
space. -/
theorem parse_of_blank {source : String} {c : Cursor} {v : List Char} {m : Match LiteralFault (Located Statement)}
    (blank : Blank v) (rest : c.rest = source.toList ++ v) (settled : Settled source.toList)
    (solid : ∀ d ∈ source.toList.head?, isLineBreak d = false) (found : statement.accept? c = some m)
    (finished : m.next.skipBlanks.rest = []) :
    ∃ w, Alike w m.value ∧ Statement.parse source = w.mapError .literal := by
  have near : Alignment.trimmed.near c (Cursor.ofText source) := ⟨v, blank, rest⟩
  rcases Alignment.ofScripts_trimmed.ofLines.statement near with ⟨refused, _⟩ | ⟨k, n, accepted, accepted', near', agree⟩
  · rw [found] at refused
    cases refused
  · rw [found, Option.some.injEq] at accepted
    subst accepted
    obtain ⟨v', _, both⟩ := Alignment.trimmed.skip near'
    rw [finished] at both
    have blanks : n.next.skipBlanks.rest = [] := (List.append_eq_nil_iff.mp both.symm).1
    have lines : n.next.skipLines.rest = [] := by
      rw [← Cursor.skipLines_skipBlanks, Cursor.skipLines, blanks]
      rfl
    have start : (Cursor.ofText source).skipLines = Cursor.ofText source :=
      ((Cursor.Reaches.refl _).eq_skipLines (afterLines_of_settled settled solid).symm).symm
    exact ⟨n.value, agree.symm, parse_singleStatement start accepted' lines⟩

end Script.Rule

end KeyIntrospection
