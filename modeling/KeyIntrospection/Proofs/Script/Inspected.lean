import KeyIntrospection.Proofs.Script.Escapes
import KeyIntrospection.Proofs.Script.Printed
import KeyIntrospection.Proofs.Script.Regions
import KeyIntrospection.Proofs.Script.Single

/-!
Displayed strings in assignments. What people are shown for a string is a string literal, and it stands for the string
unless a character is written as its code point, for which there is no escape in scripts.
-/

namespace KeyIntrospection

namespace Text

/-- The character is displayed as its code point. -/
def IsCoded (c : Char) : Prop := inspectChar c = '\\' :: 'u' :: '{' :: (hexadecimal c.toNat ++ ['}'])

instance : DecidablePred IsCoded := fun _ => inferInstanceAs (Decidable (_ = _))

theorem isCoded_iff_isPrefix {c : Char} : IsCoded c ↔ ['\\', 'u'] <+: inspectChar c := by
  constructor
  · intro coded
    rw [IsCoded.eq_1] at coded
    exact ⟨_, coded.symm⟩
  · unfold IsCoded
    unfold inspectChar
    split
    iterate 6 exact fun coded => absurd coded (by decide)
    · split
      · exact fun _ => rfl
      · exact fun coded => absurd coded.length_le (by simp)

theorem exists_digitChar_of_mem {n : Nat} {c : Char} (mem : c ∈ hexadecimal n) : ∃ k, c = Nat.digitChar k := by
  induction n using Nat.strongRecOn with
  | ind n ih =>
    have last {k : Nat} (small : k < 16) (mem : c ∈ Nat.toDigits 16 k) : ∃ k, c = Nat.digitChar k := by
      rw [Nat.toDigits_of_lt_base small] at mem
      exact ⟨k, List.mem_singleton.mp mem⟩
    by_cases small : n < 16
    · exact last small mem
    · -- the digits before the last one are those of a smaller number
      have split := Nat.toDigits_append_toDigits (b := 16) (n := n / 16) (d := n % 16) (by decide) (by omega)
        (Nat.mod_lt _ (by decide))
      rw [Nat.div_add_mod] at split
      rw [hexadecimal, ← split] at mem
      rcases List.mem_append.mp mem with before | here
      · exact ih (n / 16) (by omega) before
      · exact last (Nat.mod_lt _ (by decide)) here

end Text

namespace Script

open Text (inspectChar IsCoded)

/-- Any other character is written as itself or as an escape that scripts have. -/
theorem writes_of_not_isCoded {c : Char} (shown : ¬IsCoded c) : Word.Writes (inspectChar c) c :=
  writes_inspectChar fun coded => shown (Text.isCoded_iff_isPrefix.mpr coded)

namespace Word

theorem Quotable.append {s t : List Char} (first : Quotable s) (second : Quotable t) : Quotable (s ++ t) := by
  induction first with
  | nil => exact second
  | plain quote backslash _ ih => exact .plain quote backslash ih
  | escaped _ ih => exact .escaped ih

theorem quotable_of_plain {s : List Char} (plain : ∀ c ∈ s, c ≠ '"' ∧ c ≠ '\\') : Quotable s := by
  induction s with
  | nil => exact .nil
  | cons c s ih =>
    obtain ⟨⟨quote, backslash⟩, others⟩ := List.forall_mem_cons.mp plain
    exact .plain quote backslash (ih others)

/-- What is displayed for a character can stand between quotes. -/
theorem quotable_inspectChar (c : Char) : Quotable (inspectChar c) := by
  by_cases coded : IsCoded c
  · rw [coded]
    refine .escaped (.plain (by decide) (by decide) (quotable_of_plain fun d mem => ?_))
    rcases List.mem_append.mp mem with digit | brace
    · obtain ⟨k, rfl⟩ := Text.exists_digitChar_of_mem digit
      exact ⟨Nat.digitChar_ne _ (by decide), Nat.digitChar_ne _ (by decide)⟩
    · rw [List.mem_singleton.mp brace]
      decide
  · rcases writes_of_not_isCoded coded with ⟨d, code, _⟩ | ⟨plain, quote, backslash⟩
    · rw [code]
      exact .escaped .nil
    · rw [plain]
      exact .plain quote backslash .nil

theorem quotable_inspect (s : List Char) : Quotable (s.flatMap inspectChar) := by
  induction s with
  | nil => exact .nil
  | cons c s ih =>
    rw [List.flatMap_cons]
    exact (quotable_inspectChar c).append ih

end Word

namespace Rule

/-- The text of a string, read at a cursor. -/
def quotedAt (c : Cursor) (body : List Char) : Located (List Char) :=
  ⟨'"' :: (body ++ ['"']), c.offset, (c.advance ('"' :: (body ++ ['"'])) []).offset⟩

section Quoted

variable {c : Cursor} {body e : List Char} (quotable : Word.Quotable body) (rest : c.rest = '"' :: (body ++ ['"']) ++ e)

include quotable rest

theorem accept?_string : string.accept? c = some ⟨(readString (quotedAt c body)).map (⟨·, (quotedAt c body).span⟩),
    c.advance ('"' :: (body ++ ['"'])) e⟩ := by
  simp only [string, Grammar.accept?, Token.read?, rest, Word.take?_string quotable, Option.map_some]
  rfl

theorem accept?_literal : literal.accept? c = some ⟨(readString (quotedAt c body)).map
    (⟨.string ·, (quotedAt c body).span⟩), c.advance ('"' :: (body ++ ['"'])) e⟩ := by
  have float : Word.float.take? c.rest = none := by
    rw [rest]
    rfl
  have integer : Word.integer.take? c.rest = none := by
    rw [rest]
    rfl
  simp only [literal, either, Grammar.accept?, Token.read?, float, integer, Option.map_none,
    accept?_string quotable rest, Option.map_some]
  cases readString (quotedAt c body) <;> rfl

theorem accept?_expression : expression.accept? c = some ⟨(readString (quotedAt c body)).map
    fun s => ⟨.literal ⟨.string s, (quotedAt c body).span⟩, (quotedAt c body).span⟩,
      c.advance ('"' :: (body ++ ['"'])) e⟩ := by
  have settled : Settled c.rest := by
    rw [rest]
    exact settled_cons (by decide) _
  have head : lead c.rest = .sign '"' := by
    rw [rest]
    rfl
  have hash : (Grammar.map Expression.hash hash).accept? c = none :=
    hash_begins.map.accept?_eq_none settled (by rw [head]; decide)
  have descriptor : (Grammar.map Expression.descriptor descriptor).accept? c = none :=
    descriptor_begins.map.accept?_eq_none settled (by rw [head]; decide)
  have new : newObject.accept? c = none := newObject_begins.accept?_eq_none settled (by rw [head]; decide)
  rw [expression, Grammar.accept?, Grammar.accept?, hash, Grammar.accept?, descriptor, Grammar.accept?, new,
    Grammar.accept?, accept?_literal quotable rest]
  cases readString (quotedAt c body) <;> rfl

end Quoted

/-- The string of an assignment to the variable `x`. -/
def assigned (body : List Char) : Located (List Char) := quotedAt ⟨'"' :: (body ++ ['"']), 4⟩ body

theorem accept?_assignment {body : List Char} (quotable : Word.Quotable body) :
    assignment.accept? ⟨'x' :: ' ' :: '=' :: ' ' :: '"' :: (body ++ ['"']), 0⟩ =
      some ⟨(readString (assigned body)).map fun s =>
        ⟨.assign ⟨"x", 0, 1⟩ ⟨.literal ⟨.string s, (assigned body).span⟩, (assigned body).span⟩,
          0, (assigned body).span.stop⟩, ⟨[], (assigned body).span.stop⟩⟩ := by
  have name : variableName.accept? ⟨'x' :: ' ' :: '=' :: ' ' :: '"' :: (body ++ ['"']), 0⟩ =
      some ⟨.ok ⟨"x", 0, 1⟩, ⟨' ' :: '=' :: ' ' :: '"' :: (body ++ ['"']), 1⟩⟩ := rfl
  have sign : (mark "=").accept? ⟨'=' :: ' ' :: '"' :: (body ++ ['"']), 2⟩ =
      some ⟨.ok (), ⟨' ' :: '"' :: (body ++ ['"']), 3⟩⟩ := rfl
  have value := accept?_expression (c := ⟨'"' :: (body ++ ['"']), 4⟩) (e := []) quotable (by simp)
  have skip : Gap.blanks.skip ⟨' ' :: '=' :: ' ' :: '"' :: (body ++ ['"']), 1⟩ =
      ⟨'=' :: ' ' :: '"' :: (body ++ ['"']), 2⟩ := rfl
  have skip' : Gap.blanks.skip ⟨' ' :: '"' :: (body ++ ['"']), 3⟩ = ⟨'"' :: (body ++ ['"']), 4⟩ := rfl
  simp only [assignment, phrase, seq, Grammar.accept?, name, Option.bind_some, skip, sign, skip', value,
    Option.map_some]
  rw [assigned]
  cases readString (quotedAt ⟨'"' :: (body ++ ['"']), 4⟩ body) <;> rfl

/-- What is read as an assignment is read as a statement. -/
theorem accept?_statement_of_assignment {c : Cursor} {m : Match LiteralFault (Located Statement)}
    (settled : Settled c.rest) (found : assignment.accept? c = some m) : statement.accept? c = some m := by
  have definition := apart_of_kind classDefinition_begins assignment_begins (by decide) settled found
  have set := apart_of_kind setAttribute_begins assignment_begins (by decide) settled found
  have freeze := apart_of_kind freeze_begins assignment_begins (by decide) settled found
  have expect := apart_of_kind expectation_begins assignment_begins (by decide) settled found
  have query := query_apart_assignment (f := fun q => (⟨.query q, q.span⟩ : Located Statement)) settled found
  simp only [statement, Grammar.accept?, definition.accept?_eq_none, set.accept?_eq_none, freeze.accept?_eq_none,
    expect.accept?_eq_none, found]
  rw [show Option.map _ (Rule.query.accept? c) = none from query.accept?_eq_none]

end Rule

/-- What is read of an assignment of a string depends on the string alone. -/
theorem parse_assignment {source : String} {body : List Char} (quotable : Word.Quotable body)
    (text : source.toList = 'x' :: ' ' :: '=' :: ' ' :: '"' :: (body ++ ['"'])) :
    Statement.parse source = ((readString (Rule.assigned body)).map fun s =>
      ⟨.assign ⟨"x", 0, 1⟩ ⟨.literal ⟨.string s, (Rule.assigned body).span⟩, (Rule.assigned body).span⟩,
        0, (Rule.assigned body).span.stop⟩).mapError .literal := by
  have settled : Settled ('x' :: ' ' :: '=' :: ' ' :: '"' :: (body ++ ['"'])) := settled_cons (by decide) _
  have solid : ∀ c ∈ ('x' :: ' ' :: '=' :: ' ' :: '"' :: (body ++ ['"'])).head?, isLineBreak c = false := by
    rintro c ⟨⟩
    decide
  have start : (Cursor.ofText source).skipLines = ⟨'x' :: ' ' :: '=' :: ' ' :: '"' :: (body ++ ['"']), 0⟩ := by
    rw [Cursor.ofText, text]
    exact ((Cursor.Reaches.refl _).eq_skipLines (afterLines_of_settled settled solid).symm).symm
  exact Rule.parse_singleStatement start
    (Rule.accept?_statement_of_assignment settled (Rule.accept?_assignment quotable)) rfl

theorem readString_assigned (body : List Char) : readString (Rule.assigned body) = (unescape 5 body).map .ofList := by
  have inside : ((Rule.assigned body).value.drop 1).dropLast = body := by simp [Rule.assigned, Rule.quotedAt]
  rw [readString, inside]
  rfl

/-- The text that assigns what is displayed for a string. -/
def displayAssignment (s : String) : String := "x = " ++ (Value.string s).display

theorem toList_displayAssignment (s : String) :
    (displayAssignment s).toList = 'x' :: ' ' :: '=' :: ' ' :: '"' :: (s.toList.flatMap inspectChar ++ ['"']) := by
  rw [displayAssignment, Value.display, Text.inspect, String.toList_append, String.toList_ofList, String.toList_ofList]
  rfl

/-- The statement assigns the string to `x`. -/
def Statement.Assigns (statement : Statement) (s : String) : Prop :=
  ∃ name literal span, statement = .assign ⟨"x", name⟩ ⟨.literal ⟨.string s, literal⟩, span⟩

theorem parse_displayAssignment {s : String} (shown : ∀ c ∈ s.toList, ¬IsCoded c) :
    ∃ statement, Statement.parse (displayAssignment s) = .ok statement ∧ statement.value.Assigns s := by
  have writes : ∀ c ∈ s.toList, Word.Writes (inspectChar c) c := fun c mem => writes_of_not_isCoded (shown c mem)
  have parse := parse_assignment (Word.quotable_inspect s.toList) (toList_displayAssignment s)
  rw [readString_assigned, (Decodes.of_writes writes).unescape_eq] at parse
  simp only [Except.map, String.ofList_toList] at parse
  exact ⟨_, parse, _, _, _, rfl⟩

/-- The first character that is displayed as its code point is where the text goes wrong. -/
theorem parse_displayAssignment_eq_error {s : String} {before after : List Char} {c : Char}
    (split : s.toList = before ++ c :: after) (shown : ∀ d ∈ before, ¬IsCoded d) (coded : IsCoded c) :
    Statement.parse (displayAssignment s) =
      .error (.literal (.unknownEscape (5 + byteLength (before.flatMap inspectChar)) 'u')) := by
  have writes : ∀ d ∈ before, Word.Writes (inspectChar d) d := fun d mem => writes_of_not_isCoded (shown d mem)
  have unlisted : ∀ d, ('u', d) ∉ escapes := fun d listed => absurd (escape?_eq_some_iff.mpr listed) (by simp [escape?])
  have body : s.toList.flatMap inspectChar = before.flatMap inspectChar ++
      '\\' :: 'u' :: ('{' :: (Text.hexadecimal c.toNat ++ ['}']) ++ after.flatMap inspectChar) := by
    rw [split, List.flatMap_append, List.flatMap_cons, show inspectChar c = _ from coded]
    rfl
  rw [parse_assignment (Word.quotable_inspect s.toList) (toList_displayAssignment s), readString_assigned, body,
    (Decodes.of_writes writes).unescape_eq_error unlisted]
  rfl

/-- A piece of what is displayed, in the text that assigns it. -/
theorem covers_displayAssignment {s : String} {before piece after : List Char}
    (split : s.toList.flatMap inspectChar = before ++ (piece ++ after)) :
    Span.Covers ⟨5 + byteLength before, 5 + byteLength before + byteLength piece⟩ (displayAssignment s)
      (.ofList piece) := by
  have whole : 'x' :: ' ' :: '=' :: ' ' :: '"' :: before ++ (piece ++ (after ++ ['"'])) =
      (Cursor.ofText (displayAssignment s)).rest := by
    rw [Cursor.ofText, toList_displayAssignment, split]
    simp
  have covers := (Cursor.reaches_advance whole).covers rfl
  have head : byteLength ('x' :: ' ' :: '=' :: ' ' :: '"' :: before) = 5 + byteLength before := by
    have opening : byteLength ['x', ' ', '=', ' ', '"'] = 5 := by decide
    exact (byteLength_append _ before).trans (congrArg (· + byteLength before) opening)
  simpa only [Cursor.advance, Cursor.ofText, head, Nat.zero_add] using covers

/-- What is displayed for a string can be assigned, and the string is assigned then, if no character of it is displayed
as its code point; otherwise the first such character is found to begin no escape. -/
theorem assignment_of_display (s : String) :
    ((∃ statement, Statement.parse (displayAssignment s) = .ok statement ∧ statement.value.Assigns s) ↔
      ∀ c ∈ s.toList, ¬IsCoded c) ∧
    ((∃ c ∈ s.toList, IsCoded c) → ∃ before c after fault label, s.toList = before ++ c :: after ∧
      (∀ d ∈ before, ¬IsCoded d) ∧ IsCoded c ∧ label = 5 + byteLength (before.flatMap inspectChar) ∧
      Span.Covers ⟨label, label + byteLength (inspectChar c)⟩ (displayAssignment s) (.ofList (inspectChar c)) ∧
      fault = .unknownEscape label 'u' ∧ Statement.parse (displayAssignment s) = .error (.literal fault) ∧
      fault.found = "\\u" ∧ fault.diagnostic.labels.map (fun l => (l.offset, l.length)) = [(label, 2)] ∧
      Span.Covers ⟨label, label + 2⟩ (displayAssignment s) fault.found) := by
  have refused (wrong : ∃ c ∈ s.toList, IsCoded c) : ∃ before c after, s.toList = before ++ c :: after ∧
      (∀ d ∈ before, ¬IsCoded d) ∧ IsCoded c := by
    have some : (s.toList.find? (decide <| IsCoded ·)).isSome := List.find?_isSome.mpr (by simpa using wrong)
    obtain ⟨c, first⟩ := Option.isSome_iff_exists.mp some
    obtain ⟨coded, before, after, split, shown⟩ := List.find?_eq_some_iff_append.mp first
    exact ⟨before, c, after, split, by simpa using shown, by simpa using coded⟩
  refine ⟨⟨fun ⟨statement, parsed, _⟩ => ?_, parse_displayAssignment⟩, fun wrong => ?_⟩
  · by_contra wrong
    obtain ⟨before, c, after, split, shown, coded⟩ := refused (by simpa using wrong)
    cases parsed.symm.trans (parse_displayAssignment_eq_error split shown coded)
  · obtain ⟨before, c, after, split, shown, coded⟩ := refused wrong
    have displayed : s.toList.flatMap inspectChar =
        before.flatMap inspectChar ++ (inspectChar c ++ after.flatMap inspectChar) := by
      rw [split, List.flatMap_append, List.flatMap_cons]
    have begins : s.toList.flatMap inspectChar = before.flatMap inspectChar ++ (['\\', 'u'] ++
        ('{' :: (Text.hexadecimal c.toNat ++ ['}']) ++ after.flatMap inspectChar)) := by
      rw [displayed, coded]
      rfl
    exact ⟨before, c, after, _, _, split, shown, coded, rfl, covers_displayAssignment displayed, rfl,
      parse_displayAssignment_eq_error split shown coded, rfl, rfl, covers_displayAssignment begins⟩

example : Statement.parse (displayAssignment "é\n\x7f") = .error (.literal (.unknownEscape 9 'u')) := by rfl

end Script

end KeyIntrospection
