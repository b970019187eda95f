import KeyIntrospection.Proofs.Script.Alignment
import KeyIntrospection.Proofs.Script.Lines

/-!
Scripts one after the other. What follows a script on further lines is read as if it stood alone: its
statements and its errors are the same, at places that are later by the length of the script before.
-/

namespace KeyIntrospection.Script

/-- The text that an error is about, if it is about one. -/
def ParseError.found? : ParseError → Option String
  | unexpected .. => none
  | literal fault => some fault.found

/-- The same kind of error about the same text, `k` bytes later. -/
structure ParseError.Later (k : Nat) (e e' : ParseError) : Prop where
  code : e'.diagnostic.code = e.diagnostic.code
  found? : e'.found? = e.found?
  labels : e'.diagnostic.labels = e.diagnostic.labels.map fun l => { l with offset := l.offset + k }

theorem LiteralFault.later_move (fault : LiteralFault) (k : Nat) :
    ParseError.Later k (.literal fault) (.literal (move (· + k) fault)) := by
  cases fault with
  | integerOutOfRange text =>
    obtain ⟨s, start, stop⟩ := text
    refine ⟨rfl, ?_, ?_⟩
    · exact congrArg (some ∘ String.ofList) (move_text s)
    · have same : stop + k - (start + k) = stop - start := by omega
      simp [ParseError.diagnostic, diagnostic, move, Placed.move, Span.length, same]
  | unknownEscape offset c => exact ⟨rfl, rfl, rfl⟩

namespace Rule

open Grammar

/-- After the statements of a script, another text is read as it is where it stands, and no name is kept
for a place before it. -/
theorem Listing.attempt_followedBy {c : Cursor} {vs : List (Except LiteralFault (Located Statement))}
    (listing : Listing c vs) (b : List Char) (a : Attempts Phrase) :
    ∃ a', a'.offset ≤ max a.offset c.stop ∧
      entries.attempt (c.followedBy ('\n' :: b)).skipLines a =
        ((entries.attempt (⟨b, c.stop + 1⟩ : Cursor).skipLines a').1.map fun m => vs.foldr prepend m,
          (entries.attempt (⟨b, c.stop + 1⟩ : Cursor).skipLines a').2) := by
  induction listing generalizing a with
  | @done c finished =>
    refine ⟨a, Nat.le_max_left _ _, ?_⟩
    rw [Cursor.skipLines_followedBy, if_pos finished]
    simp
  | @next c m vs found ending rest ih =>
    have nonempty : c.skipLines.rest ≠ [] := by
      intro finished
      rw [accept?_statement_nil finished] at found
      cases found
    obtain ⟨d, g, line, stopLine, blank, steady⟩ := exists_line_of_statement c.settled_skipLines found ending
    have reach := (accept?_reaches found).trans m.next.reaches_skipBlanks
    have stop := (c.reaches_skipLines.trans reach).stop_eq
    generalize m.next.skipBlanks = e at ending ih line stopLine blank stop
    -- what is left of the text from the end of the statement's line on follows the line
    have ending' : AtLineEnd (e.rest ++ '\n' :: b) := by
      rcases rest' : e.rest with _ | ⟨x, s⟩
      · simp [AtLineEnd, isLineBreak]
      · rw [rest'] at ending
        exact fun y head => ending y head
    obtain ⟨a₁, again, limit⟩ := steady _ ending' a
    have next : (g.followedBy (e.rest ++ '\n' :: b)).skipBlanks = e.followedBy ('\n' :: b) := by
      rw [Cursor.skipBlanks_followedBy ending', blank]
      rfl
    have whole : (c.followedBy ('\n' :: b)).skipLines = d.followedBy (e.rest ++ '\n' :: b) := by
      rw [Cursor.skipLines_followedBy, if_neg nonempty, line]
      simp only [Cursor.followedBy, List.append_assoc]
    obtain ⟨a₂, limit₂, again₂⟩ := ih a₁
    refine ⟨a₂, ?_, ?_⟩
    · have early := e.offset_le_stop
      omega
    · rw [whole, attempt_entries_of_statement ?_ again ?_]
      · rw [← Cursor.skipLines_skipBlanks, next, again₂, stop]
        simp only [Option.map_map, List.foldr_cons]
        rfl
      · rw [← whole]
        exact Cursor.settled_skipLines _
      · rw [next]
        exact ending'

theorem ofScripts_delay (k : Nat) : (Alignment.delay k).OfScripts where
  solid {t} _ := Alignment.respects_delay k t
  string := Alignment.respects_delay k _
  lineBreak := Alignment.respects_delay k _

theorem carries_entries (k : Nat) : (Alignment.delay k).Carries entries := by
  have words := ofScripts_delay k
  have ending : (Alignment.delay k).Carries endOfInput :=
    .token (Alignment.respects_delay k _) fun _ _ => rfl
  have lineBreak : (Alignment.delay k).Carries (Grammar.plain .lineBreak : Rule Unit) :=
    .plain words.lineBreak
  have statementEnd : (Alignment.delay k).Carries statementEnd :=
    .choice (.map (fun _ _ => rfl) (.seq lineBreak words.lineBreaks)) (.ahead ending)
  have entry : (Alignment.delay k).Carries entry := .map (fun _ _ => rfl) (.seq words.ofLines.statement statementEnd)
  exact .seq (.many entry entry_consumes) ending

/-- The entries of a text that stands `k` bytes later, after names from the text before it. -/
theorem attempt_entries_later {k : Nat} (c : Cursor) {a : Attempts Phrase} (early : a.offset < k) :
    (∃ b b', entries.attempt c {} = (none, b) ∧ entries.attempt (c.later k) a = (none, b') ∧ b.Later k b') ∨
      ∃ m m' b b', entries.attempt c {} = (some m, b) ∧ entries.attempt (c.later k) a = (some m', b') ∧
        m'.value = move (· + k) m.value := by
  have delayed : ({} : Attempts Phrase).Delayed k a := .inr ⟨rfl, rfl, early⟩
  have near : (Alignment.delay k).near c (c.later k) := rfl
  rcases carries_entries k near with ⟨refused, refused'⟩ | ⟨m, m', accepted, accepted', _, agree⟩
  · left
    refine ⟨_, _, Prod.ext ?_ rfl, Prod.ext ?_ rfl, attempt_many_seq_token_later entry delayed refused⟩
    · rw [attempt_fst, refused]
    · rw [attempt_fst, refused']
  · right
    refine ⟨m, m', _, _, Prod.ext ?_ rfl, Prod.ext ?_ rfl, ?_⟩
    · rw [attempt_fst, accepted]
    · rw [attempt_fst, accepted']
    · have same : move (fun i => i + k) m.value = move id m'.value := agree
      rw [same, move_id]

/-- Statements without faults stand before whatever follows them. -/
theorem foldr_prepend {vs : List (Except LiteralFault (Located Statement))} {c : Cursor}
    {p : List (Located Statement) × Unit} (fine : (vs.foldr prepend (Cursor.finished c)).value = .ok p)
    (m : Match LiteralFault (List (Located Statement) × Unit)) :
    (vs.foldr prepend m).value = m.value.map fun q => (p.1 ++ q.1, ()) := by
  induction vs generalizing p with
  | nil =>
    cases fine
    cases value : m.value <;> simp [value, Except.map]
  | cons v vs ih =>
    rw [List.foldr_cons] at fine ⊢
    cases v with
    | error e => cases fine
    | ok s =>
      cases rest : (vs.foldr prepend (Cursor.finished c)).value with
      | error e =>
        simp only [prepend, rest] at fine
        cases fine
      | ok q =>
        simp only [prepend, rest] at fine
        cases fine
        simp only [prepend, ih rest]
        cases m.value <;> rfl

/-- The listing of a script without faults has the statements of the script. -/
theorem eq_map_ok_of_foldr_prepend {vs : List (Except LiteralFault (Located Statement))} {c : Cursor}
    {p : List (Located Statement) × Unit} (fine : (vs.foldr prepend (Cursor.finished c)).value = .ok p) :
    vs = p.1.map .ok := by
  induction vs generalizing p with
  | nil =>
    cases fine
    rfl
  | cons v vs ih =>
    rw [List.foldr_cons] at fine
    cases v with
    | error e => cases fine
    | ok s =>
      cases rest : (vs.foldr prepend (Cursor.finished c)).value with
      | error e =>
        simp only [prepend, rest] at fine
        cases fine
      | ok q =>
        simp only [prepend, rest] at fine
        cases fine
        rw [ih rest]
        rfl

/-- The listing of a script that is accepted. -/
theorem exists_listing_of_parse {a : String} {x : Located (List (Located Statement))}
    (parsed : script.parse a = .ok x) :
    ∃ vs, Listing (Cursor.ofText a) vs ∧
      (vs.foldr prepend (Cursor.finished (Cursor.ofText a))).value = .ok (x.value, ()) := by
  rw [parse_script] at parsed
  rcases found : entries.attempt (Cursor.ofText a).skipLines {} with ⟨m, b⟩
  rw [found] at parsed
  cases m with
  | none => cases parsed
  | some m =>
    have accepted : entries.accept? (Cursor.ofText a).skipLines = some m := by
      rw [← attempt_fst entries _ {}, found]
    obtain ⟨vs, listing⟩ := exists_listing (Nat.lt_succ_self _) accepted
    refine ⟨vs, listing, ?_⟩
    rw [listing.accept?_entries, Option.some.injEq] at accepted
    rw [accepted]
    dsimp only at parsed
    cases value : m.value with
    | error e =>
      rw [value] at parsed
      cases parsed
    | ok p =>
      rw [value] at parsed
      cases parsed
      rfl

/-- The two ways in which a script and a text on further lines can be read, by how the text is read. -/
theorem parse_script_append {a : String} {x : Located (List (Located Statement))}
    (parsed : script.parse a = .ok x) (b : String) :
    (∃ p m : Attempts Phrase, script.parse b = .error (.unexpected p.offset p.tried) ∧
        script.parse (a ++ "\n" ++ b) = .error (.unexpected m.offset m.tried) ∧
        m.offset = p.offset + (byteLength a.toList + 1)) ∨
      ∃ v : Except LiteralFault (List (Located Statement)), ∃ o o',
        script.parse b = (v.map fun l => ⟨l, 0, o⟩).mapError .literal ∧
        script.parse (a ++ "\n" ++ b) =
          ((move (· + (byteLength a.toList + 1)) v).map fun l => ⟨x.value ++ l, 0, o'⟩).mapError .literal := by
  obtain ⟨vs, listing, fine⟩ := exists_listing_of_parse parsed
  obtain ⟨names, limit, whole⟩ := listing.attempt_followedBy b.toList {}
  have text : Cursor.ofText (a ++ "\n" ++ b) = (Cursor.ofText a).followedBy ('\n' :: b.toList) := by
    simp [Cursor.ofText, Cursor.followedBy]
  have stop : (Cursor.ofText a).stop + 1 = 0 + (byteLength a.toList + 1) := by
    simp only [Cursor.ofText, Cursor.stop]
    omega
  have second : (⟨b.toList, (Cursor.ofText a).stop + 1⟩ : Cursor) =
      (Cursor.ofText b).later (byteLength a.toList + 1) := by
    rw [stop]
    rfl
  have early : names.offset < byteLength a.toList + 1 := by
    have start : ({} : Attempts Phrase).offset = 0 := rfl
    omega
  rw [second, Cursor.skipLines_later] at whole
  rw [parse_script b, parse_script (a ++ "\n" ++ b), text, whole]
  rcases attempt_entries_later (Cursor.ofText b).skipLines early with
    ⟨n, n', found, found', later⟩ | ⟨m, m', n, n', found, found', agree⟩
  · left
    rw [found, found']
    refine ⟨({} : Attempts Phrase).record n .script 0, ({} : Attempts Phrase).record n' .script 0, rfl, rfl, ?_⟩
    rw [Attempts.offset_record_zero, Attempts.offset_record_zero]
    exact later.1
  · right
    rw [found, found']
    obtain ⟨value, next⟩ := m
    refine ⟨value.map Prod.fst, next.offset, (vs.foldr prepend m').next.offset, ?_, ?_⟩
    · cases value <;> rfl
    · simp only [Option.map_some, foldr_prepend fine m', agree]
      cases value <;> rfl

end Rule

/-- A script that is accepted, and after it another text. -/
theorem parse_append_line {a : String} {file : Option String} {s : Script}
    (parsed : Script.parse a file = .ok s) (b : String) :
    ((Script.parse (a ++ "\n" ++ b) file).isOk = (Script.parse b file).isOk) ∧
      (∀ t, Script.parse b file = .ok t → ∃ u, Script.parse (a ++ "\n" ++ b) file = .ok u ∧
        u.statements = s.statements ++ t.statements.map (move (· + (byteLength a.toList + 1)))) ∧
      (∀ e, Script.parse b file = .error e → ∃ e', Script.parse (a ++ "\n" ++ b) file = .error e' ∧
        e.Later (byteLength a.toList + 1) e') := by
  unfold Script.parse at *
  cases first : Rule.script.parse a with
  | error e =>
    rw [first] at parsed
    cases parsed
  | ok x =>
    rw [first] at parsed
    cases parsed
    rcases Rule.parse_script_append first b with ⟨p, m, alone, after, offset⟩ | ⟨v, o, o', alone, after⟩
    · rw [alone, after]
      refine ⟨rfl, fun t ok => (by cases ok), fun e error => ?_⟩
      cases error
      refine ⟨_, rfl, rfl, rfl, ?_⟩
      simp [ParseError.diagnostic, offset]
    · rw [alone, after]
      cases v with
      | ok l =>
        refine ⟨rfl, fun t ok => ?_, fun e error => (by cases error)⟩
        cases ok
        exact ⟨_, rfl, rfl⟩
      | error fault =>
        refine ⟨rfl, fun t ok => (by cases ok), fun e error => ?_⟩
        cases error
        exact ⟨_, rfl, fault.later_move _⟩

theorem parse_append_line_assignment :
    Script.parse "x = 1" none =
        .ok ⟨[⟨.assign ⟨"x", 0, 1⟩ ⟨.literal ⟨.int 1, 4, 5⟩, 4, 5⟩, 0, 5⟩], none, 0, 5⟩ ∧
      Script.parse "freeze x" none = .ok ⟨[⟨.freeze ⟨"x", 7, 8⟩, 0, 8⟩], none, 0, 8⟩ ∧
      ∃ u, Script.parse ("x = 1" ++ "\n" ++ "freeze x") none = .ok u ∧ u.statements =
        [⟨.assign ⟨"x", 0, 1⟩ ⟨.literal ⟨.int 1, 4, 5⟩, 4, 5⟩, 0, 5⟩] ++
          [(⟨.freeze ⟨"x", 7, 8⟩, 0, 8⟩ : Located Statement)].map (move (· + (byteLength "x = 1".toList + 1))) := by
  have first : Script.parse "x = 1" none =
      .ok ⟨[⟨.assign ⟨"x", 0, 1⟩ ⟨.literal ⟨.int 1, 4, 5⟩, 4, 5⟩, 0, 5⟩], none, 0, 5⟩ := by rfl
  have second : Script.parse "freeze x" none = .ok ⟨[⟨.freeze ⟨"x", 7, 8⟩, 0, 8⟩], none, 0, 8⟩ := by rfl
  exact ⟨first, second, (parse_append_line first "freeze x").2.1 _ second⟩

end KeyIntrospection.Script
