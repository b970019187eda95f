import KeyIntrospection.Proofs.Grammar.Tokens
import KeyIntrospection.Proofs.Script.Escapes
import KeyIntrospection.Proofs.Script.Spans

/-!
The integers and strings of a source, and what comes of them. A source that the grammar accepts is a script if all of
them have values, and the script has these values; otherwise the first of them that has none is reported.
-/

namespace KeyIntrospection.Script

/-- What such a token looks like. -/
def IsLexeme : Phrase → List Char → Prop
  | .integer, x => IsNumeralOf (.ofList x) (integerValue x)
  | .string, x => ∃ body, Word.Quotable body ∧ x = '"' :: (body ++ ['"'])
  | _, _ => True

/-- The fault of a token. Only integers and strings may have one. -/
def literalFault? : Grammar.Named Phrase → Option LiteralFault
  | (.integer, x) => faultOf (readInteger x)
  | (.string, x) => faultOf (readString x)
  | _ => none

/-- The value of an integer or a string. -/
def literal? : Grammar.Named Phrase → Option (Located Literal)
  | (.integer, x) => (readInteger x).toOption.map (⟨.int ·, x.span⟩)
  | (.string, x) => (readString x).toOption.map (⟨.string ·, x.span⟩)
  | _ => none

/-- The token has the faults and the look that its name says. -/
def NamedRightly (name : Phrase) (t : Token) (fault : Located (List Char) → Option LiteralFault) : Prop :=
  (∀ x, fault x = literalFault? (name, x)) ∧ ∀ {s x r : List Char}, t.take? s = some (x, r) → IsLexeme name x

/-- All tokens of scripts are named rightly. -/
def wording : Traversal where
  Finds p _ := p.Every NamedRightly
  congr inner _ := inner
  seq first second := ⟨first, second⟩
  choice first second := ⟨first, second⟩
  map inner := inner
  inside inner := inner
  optional inner := inner
  many inner := inner
  ahead := trivial
  plain _ := trivial
  endOfInput := ⟨fun _ => rfl, fun _ => trivial⟩
  keyword _ := ⟨fun _ => rfl, fun _ => trivial⟩
  variableName := ⟨fun _ => rfl, fun _ => trivial⟩
  className := ⟨fun _ => rfl, fun _ => trivial⟩
  attributeName := ⟨fun _ => rfl, fun _ => trivial⟩
  accessorName := ⟨fun _ => rfl, fun _ => trivial⟩
  symbol := ⟨trivial, fun _ => rfl, fun _ => trivial⟩
  string := by
    refine ⟨fun x => faultOf_map _ _, fun takes => ?_⟩
    obtain ⟨body, quotable, rfl, _⟩ := Word.take?_string_eq_some_iff.mp takes
    exact ⟨body, quotable, rfl⟩
  integer := ⟨fun _ => faultOf_map _ _, fun takes => Word.isNumeralOf_of_take? takes⟩
  float := ⟨fun _ => rfl, fun _ => trivial⟩
  phrase _ inner := inner
  around inner := inner

/-- The integer or string that a text stands for. -/
def Label.literal? : Label → Option Literal
  | integer n => some (.int n)
  | string s => some (.string s)
  | name _ | symbol _ | other => none

mutual

/-- The integers and strings in a region, in the order of the source. -/
def Region.literals : Region → List (Located Literal)
  | .node span label inside => (label.literal?.map (⟨·, span⟩)).toList ++ Region.literalsIn inside

def Region.literalsIn : List Region → List (Located Literal)
  | [] => []
  | r :: l => r.literals ++ Region.literalsIn l

end

theorem Region.literalsIn_append (l l' : List Region) :
    Region.literalsIn (l ++ l') = Region.literalsIn l ++ Region.literalsIn l' := by
  induction l with
  | nil => rfl
  | cons r l ih => rw [List.cons_append, Region.literalsIn, Region.literalsIn, ih, List.append_assoc]

theorem Region.literalsIn_flatMap {α : Type} (f : α → List Region) (l : List α) :
    Region.literalsIn (l.flatMap f) = l.flatMap fun x => Region.literalsIn (f x) := by
  induction l with
  | nil => rfl
  | cons x l ih => rw [List.flatMap_cons, Region.literalsIn_append, ih, List.flatMap_cons]

/-- A phrase is no literal, and has those of the regions in it. -/
theorem Region.literalsIn_phrase (span : Span) (l : List Region) :
    Region.literalsIn [.node span .other l] = Region.literalsIn l := by
  simp [Region.literalsIn, Region.literals, Label.literal?]

theorem gathers_silent {α : Type} {name : Phrase} {t : Token} {read : Located (List Char) → Except LiteralFault α}
    {f : α → List Region} (silent : ∀ x, literal? (name, x) = none) (bare : ∀ v, Region.literalsIn (f v) = []) :
    Grammar.Gathers literal? (.token name t read) fun v => Region.literalsIn (f v) :=
  .token fun x v _ => by rw [silent x, bare v, Option.toList_none]

/-- The values of the tokens are the integers and strings in what a rule gives. -/
def gathering : Traversal where
  Finds p f := Grammar.Gathers literal? p fun x => Region.literalsIn (f x)
  congr inner same _ _ x accepted value := (inner accepted value).trans (congrArg Region.literalsIn (same x))
  seq first second _ _ _ accepted value :=
    (first.seq second accepted value).trans (Region.literalsIn_append _ _).symm
  choice first second := first.choice second
  map {_ _ _ _ g} inner := .map (g := fun x => Region.literalsIn (g x)) inner
  inside inner := inner.phrase
  optional inner _ _ _ accepted value := (inner.optional accepted value).trans (Region.literalsIn_flatMap _ _).symm
  many inner _ _ _ accepted value := (inner.many accepted value).trans (Region.literalsIn_flatMap _ _).symm
  ahead _ _ := rfl
  plain _ := .plain
  endOfInput := gathers_silent (fun _ => rfl) fun _ => rfl
  keyword _ := gathers_silent (fun _ => rfl) fun _ => rfl
  variableName := gathers_silent (fun _ => rfl) fun _ => rfl
  className := gathers_silent (fun _ => rfl) fun _ => rfl
  attributeName := gathers_silent (fun _ => rfl) fun _ => rfl
  accessorName := gathers_silent (fun _ => rfl) fun _ => rfl
  symbol := by
    have word : Grammar.Gathers literal? (Rule.name .symbolName Word.symbolName) fun _ => [] :=
      gathers_silent (f := fun _ => []) (fun _ => rfl) fun _ => rfl
    exact .map (Grammar.Gathers.phrase (Grammar.Gathers.plain.seq word))
  string := .token fun x v value => by
    cases read : readString x <;> rw [read] at value <;> cases value
    rw [literal?, read]
    rfl
  integer := .token fun x v value => by
    cases read : readInteger x <;> rw [read] at value <;> cases value
    rw [literal?, read]
    rfl
  float := .token fun x v value => by
    cases value
    rfl
  phrase _ inner _ _ _ accepted value := (inner.phrase accepted value).trans (Region.literalsIn_phrase _ _).symm
  around inner _ _ _ accepted value := (inner accepted value).trans (Region.literalsIn_phrase _ _).symm

theorem IsNumeralOf.integerValue_eq {x : List Char} {n : Int} (numeral : IsNumeralOf (.ofList x) n) :
    integerValue x = n := by
  obtain ⟨digits, _, inside, ⟨text, rfl⟩ | ⟨text, rfl⟩⟩ := numeral
  · have same : x = digits.toList := by rw [← text, String.toList_ofList]
    rw [integerValue, same, splitSign_of_isDigit inside]
    rfl
  · have same : x = '-' :: digits.toList := by
      rw [← String.toList_ofList (l := x), text, String.toList_append]
      rfl
    rw [same]
    rfl

/-- The integer or string that a token stands for. -/
inductive Denotes : Grammar.Named Phrase → Literal → Prop
  | integer {x : Located (List Char)} {n : Int} : IsNumeralOf (.ofList x.value) n →
      -9223372036854775808 ≤ n → n ≤ 9223372036854775807 → Denotes (.integer, x) (.int n)
  | string {x : Located (List Char)} {content : List Char} {s : String} : x.value = '"' :: (content ++ ['"']) →
      Decodes content s.toList → Denotes (.string, x) (.string s)

/-- Why a token stands for nothing, with the text that is to blame and its place: a whole integer, or the first
backslash of a string that begins no escape, with the character after it. -/
inductive Blames : Grammar.Named Phrase → LiteralFault → String → Span → Prop
  | integer {x : Located (List Char)} {n : Int} : IsNumeralOf (.ofList x.value) n →
      n < -9223372036854775808 ∨ 9223372036854775807 < n →
      Blames (.integer, x) (.integerOutOfRange x) (.ofList x.value) x.span
  | string {x : Located (List Char)} {before after t : List Char} {c : Char} {offset : Nat} :
      x.value = '"' :: (before ++ '\\' :: c :: after ++ ['"']) → Decodes before t → (∀ d, (c, d) ∉ escapes) →
      offset = x.span.start + 1 + byteLength before →
      Blames (.string, x) (.unknownEscape offset c) (.ofList ['\\', c]) ⟨offset, offset + (1 + c.utf8Size)⟩

/-- Integers have 64 bits. -/
theorem readInteger_eq (x : Located (List Char)) :
    readInteger x = if -9223372036854775808 ≤ integerValue x.value ∧ integerValue x.value ≤ 9223372036854775807 then
      .ok (integerValue x.value) else .error (.integerOutOfRange x) := rfl

theorem readString_eq {x : Located (List Char)} {content : List Char} (text : x.value = '"' :: (content ++ ['"'])) :
    readString x = (unescape (x.span.start + 1) content).map .ofList := by
  simp [readString, text]

/-- What a token stands for is its value. -/
theorem Denotes.literal?_eq {t : Grammar.Named Phrase} {l : Literal} (denotes : Denotes t l) :
    literal? t = some ⟨l, t.2.span⟩ ∧ literalFault? t = none := by
  cases denotes with
  | @integer x n numeral lower upper =>
    have read : readInteger x = .ok n := by
      rw [readInteger_eq, numeral.integerValue_eq]
      exact if_pos ⟨lower, upper⟩
    rw [literal?, literalFault?, read]
    exact ⟨rfl, rfl⟩
  | @string x content s text decodes =>
    have read : readString x = .ok s := by
      rw [readString_eq text, decodes.unescape_eq]
      simp [Except.map]
    rw [literal?, literalFault?, read]
    exact ⟨rfl, rfl⟩

theorem Blames.literalFault?_eq {t : Grammar.Named Phrase} {fault : LiteralFault} {found : String} {label : Span}
    (blames : Blames t fault found label) : literalFault? t = some fault := by
  cases blames with
  | @integer x n numeral outside =>
    have read : readInteger x = .error (.integerOutOfRange x) := by
      rw [readInteger_eq, numeral.integerValue_eq]
      exact if_neg (by omega)
    rw [literalFault?, read]
    rfl
  | @string x before after t c offset text decodes unlisted place =>
    have read : readString x = .error (.unknownEscape offset c) := by
      rw [readString_eq text, decodes.unescape_eq_error unlisted, place]
      rfl
    rw [literalFault?, read]
    rfl

/-- An integer or a string stands for something, or something in it is to blame. -/
theorem denotes_or_blames {name : Phrase} {x : Located (List Char)} (kind : name = .integer ∨ name = .string)
    (lexeme : IsLexeme name x.value) :
    (∃ l, Denotes (name, x) l) ∨ ∃ fault found label, Blames (name, x) fault found label := by
  rcases kind with rfl | rfl
  · by_cases fits : -9223372036854775808 ≤ integerValue x.value ∧ integerValue x.value ≤ 9223372036854775807
    · exact .inl ⟨_, .integer lexeme fits.1 fits.2⟩
    · exact .inr ⟨_, _, _, .integer lexeme (by omega)⟩
  · obtain ⟨body, quotable, text⟩ := lexeme
    rcases quotable.decodes_or with ⟨t, decodes⟩ | ⟨before, c, after, t, rfl, decodes, unlisted⟩
    · exact .inl ⟨.string (.ofList t), .string text (by rwa [String.toList_ofList])⟩
    · exact .inr ⟨_, _, _, .string text decodes unlisted rfl⟩

/-- What is to blame is what is reported, and it is found under the label. -/
theorem Blames.reports {source : String} {d : Cursor} {rest : List Char} {name : Phrase} {x : Located (List Char)}
    {fault : LiteralFault} {found : String} {label : Span} (blames : Blames (name, x) fault found label)
    (reach : (Cursor.ofText source).Reaches d) (split : x.value ++ rest = d.rest)
    (span : x.span = ⟨d.offset, (d.advance x.value rest).offset⟩) :
    fault.found = found ∧ fault.diagnostic.labels.map (fun l => (l.offset, l.length)) = [(label.start, label.length)] ∧
      label.Covers source found := by
  cases blames with
  | integer =>
    refine ⟨rfl, rfl, ?_⟩
    rw [span]
    exact reach.covers split.symm
  | @string _ before after _ c offset text _ _ place =>
    have length : (⟨offset, offset + (1 + c.utf8Size)⟩ : Span).length = 1 + c.utf8Size := Nat.add_sub_cancel_left _ _
    refine ⟨rfl, by rw [length]; rfl, ?_⟩
    -- the cursor before the backslash
    have opening : '"' :: before ++ (['\\', c] ++ (after ++ '"' :: rest)) = d.rest := by simp [← split, text]
    have covers := (reach.trans (Cursor.reaches_advance opening)).covers rfl
    have quote : '"'.utf8Size = 1 := by decide
    have backslash : '\\'.utf8Size = 1 := by decide
    have start : d.offset + (1 + byteLength before) = offset := by rw [place, span, Nat.add_assoc]
    simpa only [Cursor.advance, byteLength, quote, backslash, start, Nat.add_zero] using covers

/-- The integers and strings of a source that the grammar accepts, in its order. -/
def literalTokens (source : String) : List (Grammar.Named Phrase) :=
  (Rule.script.tokens (Cursor.ofText source)).filter fun t => t.1 = .integer ∨ t.1 = .string

/-- Other tokens give nothing. -/
theorem filterMap_literalTokens {β : Type} {give : Grammar.Named Phrase → Option β}
    (others : ∀ t, t.1 ≠ .integer → t.1 ≠ .string → give t = none) (source : String) :
    (literalTokens source).filterMap give = (Rule.script.tokens (Cursor.ofText source)).filterMap give := by
  rw [literalTokens, List.filterMap_filter]
  congr
  funext t
  split
  · rfl
  · next other =>
    simp only [decide_eq_true_eq, not_or] at other
    exact (others t other.1 other.2).symm

theorem literal?_of_other {t : Grammar.Named Phrase} (integer : t.1 ≠ .integer) (string : t.1 ≠ .string) :
    literal? t = none ∧ literalFault? t = none := by
  obtain ⟨name, x⟩ := t
  cases name <;> first | exact ⟨rfl, rfl⟩ | exact absurd rfl integer | exact absurd rfl string

/-- Tokens that all stand for something give just that. -/
theorem forall₂_filterMap {l : List (Grammar.Named Phrase)} (all : ∀ t ∈ l, ∃ x, Denotes t x) :
    List.Forall₂ (fun t x => x.span = t.2.span ∧ Denotes t x.value) l (l.filterMap literal?) := by
  induction l with
  | nil => exact .nil
  | cons t l ih =>
    obtain ⟨⟨x, denotes⟩, others⟩ := List.forall_mem_cons.mp all
    rw [List.filterMap_cons_some denotes.literal?_eq.1]
    exact .cons ⟨rfl, denotes⟩ (ih others)

end KeyIntrospection.Script

namespace KeyIntrospection

open Script

/-- The integers and strings of a script, in the order of its source. -/
def Script.literals (s : Script) : List (Located Literal) :=
  Region.literalsIn (s.statements.map (phraseAt Statement.regions))

namespace Script

/-- What comes of the integers and strings of a source. -/
structure LiteralsRead (source : String) (file : Option String) : Prop where
  covers : ∀ t ∈ literalTokens source, t.2.span.Covers source (.ofList t.2.value)
  order : (literalTokens source).Pairwise fun t u => t.2.span.stop ≤ u.2.span.start
  isScript_iff : (∃ s, Script.parse source file = .ok s) ↔ ∀ t ∈ literalTokens source, ∃ l, Denotes t l
  values : ∀ s, Script.parse source file = .ok s →
    List.Forall₂ (fun t l => l.span = t.2.span ∧ Denotes t l.value) (literalTokens source) s.literals
  /-- The first that stands for nothing is reported. -/
  refused : ∀ e, Script.parse source file = .error e → ∃ before t after fault found label,
    literalTokens source = before ++ t :: after ∧ (∀ u ∈ before, ∃ l, Denotes u l) ∧ Blames t fault found label ∧
      e = .literal fault ∧ fault.found = found ∧
      fault.diagnostic.labels.map (fun l => (l.offset, l.length)) = [(label.start, label.length)] ∧
      label.Covers source found

section Accepted

variable {source : String} {m : Match LiteralFault (Located (List (Located Statement)))}
  (accepted : Rule.script.accept? (Cursor.ofText source) = some m)

include accepted

theorem parse_of_accept (file : Option String) :
    Script.parse source file = (m.value.mapError .literal).map fun s => ⟨s.value, file, s.span⟩ := by
  rw [Script.parse, Rule.parse]
  simp only [accepted]

theorem laid_tokens : Grammar.Laid IsLexeme (Cursor.ofText source) (Rule.script.tokens (Cursor.ofText source)) m.next :=
  Grammar.laid_accept? (fun word => word.2) wording.script accepted

/-- Where a literal stands, and that it stands for something or has something to blame. -/
theorem literal_cases {t : Grammar.Named Phrase} (mem : t ∈ literalTokens source) :
    ∃ d rest, (Cursor.ofText source).Reaches d ∧ t.2.value ++ rest = d.rest ∧
      t.2.span = ⟨d.offset, (d.advance t.2.value rest).offset⟩ ∧
      ((∃ l, Denotes t l) ∨ ∃ fault found label, Blames t fault found label) := by
  obtain ⟨name, x⟩ := t
  obtain ⟨inside, kind⟩ := List.mem_filter.mp mem
  obtain ⟨d, rest, reach, split, span, lexeme⟩ := (laid_tokens accepted).exists_of_mem inside
  exact ⟨d, rest, reach, split, span, denotes_or_blames (by simpa using kind) lexeme⟩

/-- A script has the fault of the first literal that has one. -/
theorem faultOf_script : faultOf m.value = (literalTokens source).findSome? literalFault? := by
  rw [Grammar.faultOf_accept? (fun word => word.1) wording.script accepted, ← List.head?_filterMap,
    ← List.head?_filterMap, filterMap_literalTokens fun t integer string => (literal?_of_other integer string).2]

/-- Literals without a fault stand for something. -/
theorem denotes_of_literalFault? {t : Grammar.Named Phrase} (mem : t ∈ literalTokens source)
    (sound : literalFault? t = none) : ∃ l, Denotes t l := by
  obtain ⟨_, _, _, _, _, denotes | ⟨fault, _, _, blames⟩⟩ := literal_cases accepted mem
  · exact denotes
  · rw [blames.literalFault?_eq] at sound
    cases sound

theorem denotes_of_value {l : Located (List (Located Statement))} (value : m.value = .ok l) :
    ∀ t ∈ literalTokens source, ∃ x, Denotes t x := by
  have sound := faultOf_script accepted
  rw [value] at sound
  exact fun t mem => denotes_of_literalFault? accepted mem (List.findSome?_eq_none_iff.mp sound.symm t mem)

theorem literals_of_value {l : Located (List (Located Statement))} (value : m.value = .ok l) :
    Region.literalsIn (l.value.map (phraseAt Statement.regions)) = (literalTokens source).filterMap literal? := by
  rw [filterMap_literalTokens fun t integer string => (literal?_of_other integer string).1]
  exact (gathering.script accepted value).symm

/-- The fault of a script is in a literal with none before it. -/
theorem exists_blames_of_value {fault : LiteralFault} (value : m.value = .error fault) :
    ∃ before t after found label, literalTokens source = before ++ t :: after ∧ (∀ u ∈ before, ∃ l, Denotes u l) ∧
      Blames t fault found label ∧ fault.found = found ∧
      fault.diagnostic.labels.map (fun l => (l.offset, l.length)) = [(label.start, label.length)] ∧
      label.Covers source found := by
  have first := faultOf_script accepted
  rw [value] at first
  obtain ⟨before, ⟨name, x⟩, after, whole, wrong, sound⟩ := List.findSome?_eq_some_iff.mp first.symm
  have inside : (name, x) ∈ literalTokens source := by simp [whole]
  obtain ⟨d, rest, reach, split, span, ⟨l, denotes⟩ | ⟨e, found, label, blames⟩⟩ := literal_cases accepted inside
  · rw [denotes.literal?_eq.2] at wrong
    cases wrong
  · have same : e = fault := Option.some.inj (blames.literalFault?_eq.symm.trans wrong)
    rw [same] at blames
    refine ⟨before, _, after, found, label, whole, fun u mem => ?_, blames, blames.reports reach split span⟩
    exact denotes_of_literalFault? accepted (by rw [whole]; exact List.mem_append_left _ mem) (sound u mem)

end Accepted

/-- A source that the grammar accepts is a script if its integers are in range and its strings have no wrong escapes,
and the script has their values; otherwise the first of them that is wrong is reported, at its place. -/
theorem literals_of_accept {source : String} (accepted : (Rule.script.accept? (Cursor.ofText source)).isSome)
    (file : Option String) : LiteralsRead source file := by
  obtain ⟨m, accepted⟩ := Option.isSome_iff_exists.mp accepted
  have covers : ∀ t ∈ literalTokens source, t.2.span.Covers source (.ofList t.2.value) := by
    intro t mem
    obtain ⟨d, rest, reach, split, span, _⟩ := literal_cases accepted mem
    rw [span]
    exact reach.covers split.symm
  have order : (literalTokens source).Pairwise fun t u => t.2.span.stop ≤ u.2.span.start :=
    (laid_tokens accepted).pairwise.filter _
  have parse := parse_of_accept accepted file
  cases value : m.value with
  | ok l =>
    rw [value] at parse
    have all := denotes_of_value accepted value
    refine ⟨covers, order, ⟨fun _ => all, fun _ => ⟨_, parse⟩⟩, fun s parsed => ?_, fun e refused => ?_⟩
    · cases parse.symm.trans parsed
      rw [Script.literals, literals_of_value accepted value]
      exact forall₂_filterMap all
    · cases parse.symm.trans refused
  | error fault =>
    rw [value] at parse
    obtain ⟨before, t, after, found, label, whole, sound, blames, reports⟩ := exists_blames_of_value accepted value
    refine ⟨covers, order, ⟨fun ⟨s, parsed⟩ => ?_, fun all => ?_⟩, fun s parsed => ?_, fun e refused => ?_⟩
    · cases parse.symm.trans parsed
    · obtain ⟨l, denotes⟩ := all t (by simp [whole])
      cases denotes.literal?_eq.2.symm.trans blames.literalFault?_eq
    · cases parse.symm.trans parsed
    · cases parse.symm.trans refused
      exact ⟨before, t, after, fault, found, label, whole, sound, blames, rfl, reports⟩

/-- An escape after a character of two bytes is wrong, and so is an integer after it, which is not reported. -/
theorem literals_of_accept_escape :
    (Rule.script.accept? (Cursor.ofText "n = -007\nk = \"é\\n\\q\"\nn = 9223372036854775808")).isSome ∧
      LiteralsRead "n = -007\nk = \"é\\n\\q\"\nn = 9223372036854775808" none ∧
      Script.parse "n = -007\nk = \"é\\n\\q\"\nn = 9223372036854775808" none = .error (.literal (.unknownEscape 18 'q')) :=
  ⟨by rfl, literals_of_accept (by rfl) none, by rfl⟩

end Script

end KeyIntrospection
