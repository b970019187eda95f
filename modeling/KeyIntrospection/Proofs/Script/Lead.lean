import KeyIntrospection.Proofs.Script.Word

/-!
How the rules of scripts are told apart. What stands at the head of a text is a word or a sign, and
this alone decides which of several rules can be read there. Only a float and an integer begin alike.
-/

namespace KeyIntrospection.Script

/-- What a text begins with: a word of letters, digits and underscores, or another character. -/
inductive Lead where
  | word (w : List Char)
  | sign (c : Char)
  | none
deriving DecidableEq

def lead : List Char → Lead
  | [] => .none
  | c :: s => if Word.isPart c then .word (c :: s.takeWhile Word.isPart) else .sign c

namespace Lead

def keyword (k : Keyword) : Lead := .word k.text.toList

def isLineBreak (l : Lead) : Bool := l == .sign '\n' || l == .sign '\r'

/-- The end of the text or of a line. -/
def isLineEnd (l : Lead) : Bool := l == .none || l.isLineBreak

def isNumber : Lead → Bool
  | word w => w.head?.any Char.isDigit
  | sign c => c == '-'
  | none => false

def isVariableName : Lead → Bool
  | word w => w.head?.any Word.isLowerStart && !Word.isKeyword w
  | _ => false

def isLiteral (l : Lead) : Bool :=
  l.isNumber || l == .sign '"' || l == .sign ':' || l == keyword .trueWord || l == keyword .falseWord ||
    l == keyword .nilWord

def isKey (l : Lead) : Bool := l == .sign '"' || l == .sign ':'

def isAccessorKind (l : Lead) : Bool :=
  l == keyword .attrReader || l == keyword .attrWriter || l == keyword .attrAccessor

def isQuery (l : Lead) : Bool :=
  l == keyword .keyInfo || l == keyword .keys || l == keyword .read

def isStatement (l : Lead) : Bool :=
  l == keyword .classWord || l == keyword .set || l == keyword .freeze || l == keyword .expect ||
    l.isQuery || l.isVariableName

theorem isNumber_keyword (k : Keyword) : (keyword k).isNumber = false := by cases k <;> decide

theorem isVariableName_keyword (k : Keyword) : (keyword k).isVariableName = false := by
  cases k <;> decide

theorem isVariableName_eq_false_of_isQuery {l : Lead} (query : l.isQuery) : l.isVariableName = false := by
  simp only [isQuery, Bool.or_eq_true, beq_iff_eq] at query
  rcases query with (rfl | rfl) | rfl <;> exact isVariableName_keyword _

theorem isLineBreak_eq_false_of_isAccessorKind {l : Lead} (kind : l.isAccessorKind) : l.isLineBreak = false := by
  simp only [isAccessorKind, Bool.or_eq_true, beq_iff_eq] at kind
  rcases kind with (rfl | rfl) | rfl <;> decide

end Lead

theorem lead_cons_of_isPart {c : Char} {s : List Char} (part : Word.isPart c) :
    lead (c :: s) = .word (c :: s.takeWhile Word.isPart) := by
  simp [lead, part]

theorem lead_cons_of_not_isPart {c : Char} {s : List Char} (other : Word.isPart c = false) :
    lead (c :: s) = .sign c := by
  simp [lead, other]

/-- Statements begin with a word. -/
theorem isPart_of_isStatement {c : Char} {s : List Char} (begins : (lead (c :: s)).isStatement) : Word.isPart c := by
  by_cases part : Word.isPart c
  · exact part
  · rw [lead_cons_of_not_isPart (by simpa using part)] at begins
    simp [Lead.isStatement, Lead.keyword, Lead.isQuery, Lead.isVariableName] at begins

namespace Word

variable {s : List Char}

theorem take?_keyword_eq_some_iff {k : Keyword} {x r : List Char} :
    (keyword k).take? s = some (x, r) ↔ lead s = .keyword k ∧ x = k.text.toList ∧
      r = s.dropWhile isPart := by
  cases s with
  | nil => simp [keyword, Token.filter, Token.run, lead, Lead.keyword]
  | cons c s =>
    by_cases part : isPart c
    · simp only [keyword, Token.filter, Token.run, part, if_true, Option.filter_some, lead, Lead.keyword,
        Lead.word.injEq, List.dropWhile_cons]
      constructor
      · intro found
        split at found
        · next same =>
          cases found
          simpa using same
        · cases found
      · rintro ⟨same, rfl, rfl⟩
        simp [same]
    · simp [keyword, Token.filter, Token.run, part, lead, Lead.keyword]

theorem take?_variableName_eq_some_iff {x r : List Char} :
    variableName.take? s = some (x, r) ↔ (lead s).isVariableName ∧ x = s.takeWhile isPart ∧
      r = s.dropWhile isPart := by
  cases s with
  | nil => simp [variableName, Token.filter, Token.run, lead, Lead.isVariableName]
  | cons c s =>
    by_cases start : isLowerStart c
    · have part := isPart_of_isLowerStart start
      simp only [variableName, Token.filter, Token.run, start, if_true, Option.filter_some, lead, part,
        Lead.isVariableName, List.head?_cons, Option.any_some, Bool.true_and, List.takeWhile_cons,
        List.dropWhile_cons]
      constructor
      · intro found
        split at found
        · cases found
          exact ⟨‹_›, rfl, rfl⟩
        · cases found
      · rintro ⟨free, rfl, rfl⟩
        rw [if_pos free]
    · have absent : variableName.take? (c :: s) = none := by
        simp [variableName, Token.filter, Token.run, start]
      have other : (lead (c :: s)).isVariableName = false := by
        by_cases part : isPart c
        · simp [lead_cons_of_isPart part, Lead.isVariableName, start]
        · simp [lead_cons_of_not_isPart (by simpa using part), Lead.isVariableName]
      simp [absent, other]

theorem isNumber_lead_of_take? (found : (integer.take? s).isSome) : (lead s).isNumber := by
  obtain ⟨⟨x, r⟩, found⟩ := Option.isSome_iff_exists.mp found
  simp only [integer, Token.append, Option.bind_eq_some_iff, Option.map_eq_some_iff, Prod.exists] at found
  obtain ⟨y, t, sign, z, u, rest, _⟩ := found
  obtain ⟨digit, _⟩ := take?_run_eq_some_iff.mp rest
  cases s with
  | nil =>
    simp only [Token.optional, Option.some.injEq, Prod.mk.injEq] at sign
    simp [← sign.2] at digit
  | cons c s =>
    by_cases minus : c = '-'
    · subst minus
      rw [lead_cons_of_not_isPart (by decide)]
      rfl
    · simp only [Token.optional, minus, if_false, Option.some.injEq, Prod.mk.injEq] at sign
      have digit : c.isDigit := by simpa [← sign.2] using digit
      rw [lead_cons_of_isPart (isPart_of_isDigit digit)]
      simpa [Lead.isNumber] using digit

theorem isNumber_lead_of_take?_float (found : (float.take? s).isSome) : (lead s).isNumber := by
  refine isNumber_lead_of_take? ?_
  obtain ⟨⟨x, r⟩, found⟩ := Option.isSome_iff_exists.mp found
  simp only [float, Token.append, Option.bind_eq_some_iff, Option.map_eq_some_iff, Prod.exists] at found
  obtain ⟨y, t, ⟨z, u, whole, _⟩, _⟩ := found
  rw [whole]
  rfl

end Word

/-- A token that begins with a fixed sign. -/
theorem lead_of_take?_append {m : String} {t : Token} {s : List Char} {c : Char}
    (sign : m.toList.head? = some c) (other : Word.isPart c = false)
    (found : (((Token.text m).append t).take? s).isSome) : lead s = .sign c := by
  obtain ⟨⟨x, r⟩, found⟩ := Option.isSome_iff_exists.mp found
  simp only [Token.append, Token.text, Token.exactly, Option.bind_eq_some_iff, Prod.exists,
    Option.ite_none_right_eq_some, List.isPrefixOf_iff_prefix] at found
  obtain ⟨_, _, ⟨⟨u, rfl⟩, _⟩, _⟩ := found
  obtain ⟨rest, same⟩ := List.head?_eq_some_iff.mp sign
  rw [same, List.cons_append, lead_cons_of_not_isPart other]

namespace Rule

open Grammar

theorem mark_begins {m : String} {c : Char} (sign : m.toList.head? = some c)
    (other : Word.isPart c = false) : (mark m).Begins fun s => lead s = .sign c := by
  refine Begins.plain.mono fun s found => lead_of_take?_append (t := .nothing) sign other ?_
  obtain ⟨⟨x, r⟩, found⟩ := Option.isSome_iff_exists.mp found
  simp [Token.append, found, Token.nothing]

theorem lineBreak_begins : (Grammar.plain .lineBreak : Rule Unit).Begins fun s => (lead s).isLineBreak := by
  refine Begins.plain.mono fun s found => ?_
  unfold Token.lineBreak at found
  dsimp only at found
  split at found
  · rw [lead_cons_of_not_isPart (by decide)]; rfl
  · rw [lead_cons_of_not_isPart (by decide)]; rfl
  · rw [lead_cons_of_not_isPart (by decide)]; rfl
  · cases found

theorem keyword_begins (k : Keyword) : (keyword k).Begins fun s => lead s = .keyword k := by
  refine Begins.token.mono fun s found => ?_
  obtain ⟨⟨x, r⟩, found⟩ := Option.isSome_iff_exists.mp found
  exact (Word.take?_keyword_eq_some_iff.mp found).1

theorem variableName_begins : variableName.Begins fun s => (lead s).isVariableName := by
  refine Begins.token.mono fun s found => ?_
  obtain ⟨⟨x, r⟩, found⟩ := Option.isSome_iff_exists.mp found
  exact (Word.take?_variableName_eq_some_iff.mp found).1

theorem attributeName_begins : attributeName.Begins fun s => lead s = .sign '@' :=
  Begins.token.mono fun _ found => lead_of_take?_append (by decide) (by decide) found

theorem symbol_begins : symbol.Begins fun s => lead s = .sign ':' :=
  (mark_begins (by decide) (by decide)).seq.phrase.map

theorem string_begins : string.Begins fun s => lead s = .sign '"' := by
  refine Begins.token.mono fun s found => ?_
  refine lead_of_take?_append (m := "\"") (t := Word.quoted) (by decide) (by decide) ?_
  obtain ⟨⟨x, r⟩, found⟩ := Option.isSome_iff_exists.mp found
  simp only [Word.string] at found
  rw [Token.append] at found
  obtain ⟨⟨y, u⟩, inner, _⟩ := Option.bind_eq_some_iff.mp found
  rw [inner]
  rfl

theorem boolean_begins : (phrase .boolean (.choice (.map (fun _ => true) (keyword .trueWord))
    (.map (fun _ => false) (keyword .falseWord))) Literal.bool).Begins
      fun s => lead s = .keyword .trueWord ∨ lead s = .keyword .falseWord :=
  ((keyword_begins _).map.choice (keyword_begins _).map).phrase.map

theorem nil_begins : (phrase .nil (keyword .nilWord) fun _ => Literal.nil).Begins fun s =>
    lead s = .keyword .nilWord := (keyword_begins _).phrase.map

theorem literal_begins : literal.Begins fun s => (lead s).isLiteral := by
  refine Begins.map (Begins.phrase (Begins.mono (.choice .token (.choice .token
    (.choice string_begins.map (.choice symbol_begins.map (.choice boolean_begins nil_begins))))) fun s found => ?_))
  rcases found with float | integer | quote | colon | (yes | no) | nil
  · simp [Lead.isLiteral, Word.isNumber_lead_of_take?_float float]
  · simp [Lead.isLiteral, Word.isNumber_lead_of_take? integer]
  all_goals simp [Lead.isLiteral, *]

theorem symbolList_begins : symbolList.Begins fun s => lead s = .sign '[' :=
  (mark_begins (by decide) (by decide)).seq.map.phrase.map

theorem hashEntry_begins : hashEntry.Begins fun s => (lead s).isKey := by
  refine Begins.map (Begins.phrase (Begins.map (Begins.seq (Begins.mono
    (.choice string_begins.map symbol_begins.map) fun s found => ?_))))
  rcases found with quote | colon <;> simp [Lead.isKey, *]

theorem block_begins {α : Type} (item : Rule α) : (block item).Begins fun s => lead s = .sign '\x7b' :=
  (mark_begins (by decide) (by decide)).seq.map

theorem hash_begins : hash.Begins fun s => lead s = .sign '\x7b' := (block_begins hashEntry).phrase

theorem descriptor_begins : descriptor.Begins fun s => lead s = .keyword .metaWord :=
  (keyword_begins _).seq.map.phrase.map

theorem attributeInit_begins : attributeInit.Begins fun s => lead s = .sign '@' :=
  attributeName_begins.seq.map.phrase.map

theorem newObject_begins : newObject.Begins fun s => lead s = .keyword .new :=
  (keyword_begins _).seq.map.phrase.map

theorem assignment_begins : assignment.Begins fun s => (lead s).isVariableName :=
  variableName_begins.seq.phrase.map

theorem accessorKind_begins : accessorKind.Begins fun s => (lead s).isAccessorKind := by
  refine Begins.map (Begins.phrase (Begins.mono (.choice (keyword_begins _).map
    (.choice (keyword_begins _).map (keyword_begins _).map)) fun s found => ?_))
  rcases found with word | word | word <;> simp [Lead.isAccessorKind, *]

theorem accessorDeclaration_begins : accessorDeclaration.Begins fun s => (lead s).isAccessorKind :=
  accessorKind_begins.seq.phrase.map

theorem classDefinition_begins : classDefinition.Begins fun s => lead s = .keyword .classWord :=
  (keyword_begins _).seq.phrase.map

theorem setAttribute_begins : setAttribute.Begins fun s => lead s = .keyword .set :=
  (keyword_begins _).seq.phrase.map

theorem freeze_begins : freeze.Begins fun s => lead s = .keyword .freeze :=
  (keyword_begins _).seq.phrase.map

theorem keyQuery_begins (p : Phrase) (k : Keyword) (f : Name → Located Literal → Query) :
    (keyQuery p k f).Begins fun s => lead s = .keyword k :=
  (keyword_begins k).seq.map.phrase.map

theorem keysQuery_begins : keysQuery.Begins fun s => lead s = .keyword .keys :=
  (keyword_begins _).seq.map.phrase.map

theorem query_begins : query.Begins fun s => (lead s).isQuery := by
  refine Begins.phrase (Begins.mono (.choice (keyQuery_begins _ _ _) (.choice keysQuery_begins
    (keyQuery_begins _ _ _))) fun s found => ?_)
  rcases found with word | word | word <;> simp [Lead.isQuery, *]

theorem expectation_begins : expectation.Begins fun s => lead s = .keyword .expect :=
  (keyword_begins _).seq.phrase.map

theorem statement_begins : statement.Begins fun s => (lead s).isStatement := by
  refine Begins.mono (.choice classDefinition_begins (.choice setAttribute_begins
    (.choice freeze_begins (.choice expectation_begins
      (.choice query_begins.map assignment_begins))))) fun s found => ?_
  rcases found with word | word | word | word | query | name <;> simp [Lead.isStatement, *]

/-- Rules that begin with different words. -/
theorem apart_of_ne {α β : Type} {p : Rule α} {q : Rule β} {k l : Lead} (begins : p.Begins fun s => lead s = k)
    (begins' : q.Begins fun s => lead s = l) (different : k ≠ l) : p.Apart q := by
  refine begins.apart begins' fun s here other => different ?_
  rw [← here, ← other]

/-- A rule for one word, and a rule that begins with words of another kind. -/
theorem apart_of_kind {α β : Type} {p : Rule α} {q : Rule β} {k : Lead} {kind : Lead → Bool}
    (begins : p.Begins fun s => lead s = k) (begins' : q.Begins fun s => kind (lead s)) (other : kind k = false) :
    p.Apart q := by
  refine begins.apart begins' fun s here found => ?_
  rw [here, other] at found
  cases found

theorem boolean_apart_nil : (phrase .boolean (.choice (.map (fun _ => true) (keyword .trueWord))
    (.map (fun _ => false) (keyword .falseWord))) Literal.bool).Apart
      (phrase .nil (keyword .nilWord) fun _ => Literal.nil) := by
  refine boolean_begins.apart nil_begins fun s here other => ?_
  rw [other] at here
  exact absurd here (by decide)

theorem lineBreak_apart_accessorDeclaration {α β : Type} {f : Unit → α} {g : Located AccessorDeclaration → β} :
    (Grammar.map f (.plain .lineBreak) : Rule α).Apart (Grammar.map g accessorDeclaration) := by
  refine lineBreak_begins.map.apart accessorDeclaration_begins.map fun s lineBreak kind => ?_
  rw [Lead.isLineBreak_eq_false_of_isAccessorKind kind] at lineBreak
  cases lineBreak

theorem query_apart_assignment {α : Type} {f : Located Query → α} :
    (Grammar.map f query).Apart assignment := by
  refine query_begins.map.apart assignment_begins fun s query name => ?_
  rw [Lead.isVariableName_eq_false_of_isQuery query] at name
  cases name

end Rule

end KeyIntrospection.Script
