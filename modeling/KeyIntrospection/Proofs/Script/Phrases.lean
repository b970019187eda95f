import KeyIntrospection.Proofs.Script.Spelling

/-!
The parts of statements are read back from their words: names and symbols, literals, lists and blocks, and
expressions.
-/

namespace KeyIntrospection.Script

open KeyIntrospection.Alignment (Natural)

theorem visible_of_isPart {w : String} {c : Char} {s : List Char} (split : w.toList = c :: s) (part : Word.isPart c) :
    Visible w := ⟨c, s, split, Word.isBoundary_eq_false_of_isPart part⟩

theorem visible_of_isWord {w : String} {first : Char → Bool} (start : ∀ c, first c → Word.isPart c)
    (word : Word.isWord first w.toList) : Visible w := by
  rcases split : w.toList with _ | ⟨c, s⟩
  · rw [split] at word
    cases word
  · rw [split] at word
    have both : first c ∧ s.all Word.isPart := by simpa [Word.isWord] using word
    exact visible_of_isPart split (start c both.1)

theorem visible_of_isVariableName {w : String} (name : isVariableName w) : Visible w := by
  have both : Word.isWord Word.isLowerStart w.toList ∧ Word.isKeyword w.toList = false := by
    simpa [isVariableName] using name
  exact visible_of_isWord (fun _ => Word.isPart_of_isLowerStart) both.1

theorem visible_of_isClassName {w : String} (name : isClassName w) : Visible w :=
  visible_of_isWord (fun _ => Word.isPart_of_isUpper) name

theorem visible_of_isAttributeName {w : String} (name : isAttributeName w) : Visible w := by
  unfold isAttributeName at name
  split at name
  · next rest split => exact ⟨'@', rest, split, by decide⟩
  · cases name

theorem toList_symbol (name : String) : (":" ++ name).toList = ':' :: name.toList := by
  have sign : ":".toList = [':'] := by decide
  rw [String.toList_append, sign]
  rfl

theorem visible_symbol (name : String) : Visible (":" ++ name) := ⟨':', name.toList, toList_symbol name, by decide⟩

theorem visible_keyword (k : Keyword) : Visible k.text := by
  cases k <;> exact ⟨_, _, rfl, by decide⟩

theorem visible_repr (n : Int) : Visible n.repr := by
  have split := Word.toList_repr n
  by_cases positive : 0 ≤ n
  · obtain ⟨c, s, digits, digit⟩ := Word.head_toDigits n.toNat
    rw [if_pos positive, digits] at split
    exact visible_of_isPart split (Word.isPart_of_isDigit digit)
  · rw [if_neg positive] at split
    exact ⟨'-', _, split, by decide⟩

/-- The words of a list have a first one, which is no line break. -/
def noLineBreak (h : Option Char) : Prop := ∀ c ∈ h, isLineBreak c = false

theorem noLineBreak_ahead {ws : List String} (visible : ∀ w ∈ ws, Visible w) (nonempty : ws ≠ [])
    (h : Option Char) : noLineBreak (ahead ws h) := by
  obtain ⟨w, us, rfl⟩ := List.exists_cons_of_ne_nil nonempty
  obtain ⟨c, s, split, solid⟩ := visible w List.mem_cons_self
  intro d head
  rw [ahead, split] at head
  cases head
  exact isLineBreak_eq_false solid

theorem lead_of_head? {s : List Char} {c : Char} (other : Word.isPart c = false) (head : s.head? = some c) :
    lead s = .sign c := by
  obtain ⟨t, rfl⟩ := List.head?_eq_some_iff.mp head
  exact lead_cons_of_not_isPart other

/-- What stands between items, written before each item but the first. -/
theorem intercalate_cons {α : Type} (between x : List α) (l : List (List α)) :
    between.intercalate (x :: l) = x ++ l.flatMap (between ++ ·) := by
  induction l generalizing x with
  | nil => simp
  | cons y l ih =>
    rw [List.intercalate_cons_cons, ih]
    simp

theorem separated_cons {α : Type} (words : α → List String) (x : α) (l : List α) :
    separated ((x :: l).map words) = words x ++ l.flatMap fun y => "," :: words y := by
  rw [separated, List.map_cons, intercalate_cons, List.flatMap_map]
  rfl

namespace Reads

open Rule

theorem keyword (k : Keyword) : Reads (Rule.keyword k) [k.text] () anything :=
  token (visible_keyword k) (fun _ boundary => (Word.solid_keyword k).take?_append (Word.take?_keyword k) boundary)
    fun _ => ⟨(), rfl, rfl⟩

theorem mark {m : String} (nonempty : m.toList ≠ []) (inside : m.toList.all (!isBoundary ·)) :
    Reads (Rule.mark m) [m] () anything := by
  have solid : ∀ c ∈ m.toList, isBoundary c = false := by simpa using inside
  obtain ⟨c, s, split⟩ := List.exists_cons_of_ne_nil nonempty
  have visible : Visible m := ⟨c, s, split, solid c (by simp [split])⟩
  exact plain visible fun _ boundary =>
    (Token.Solid.exactly inside).take?_append (Word.take?_exactly m.toList) boundary

theorem comma : Reads (Rule.mark ",") [","] () anything := mark (by decide) (by decide)

theorem equals : Reads (Rule.mark "=") ["="] () anything := mark (by decide) (by decide)

theorem openBrace : Reads (Rule.mark "\x7b") ["\x7b"] () anything := mark (by decide) (by decide)

theorem closeBrace : Reads (Rule.mark "\x7d") ["\x7d"] () anything := mark (by decide) (by decide)

theorem openParen : Reads (Rule.mark "(") ["("] () anything := mark (by decide) (by decide)

theorem closeParen : Reads (Rule.mark ")") [")"] () anything := mark (by decide) (by decide)

theorem name {p : Phrase} {t : Token} {n : Name} (solid : t.Solid) (visible : Visible n.value)
    (whole : t.take? n.value.toList = some (n.value.toList, [])) : Reads (Rule.name p t) [n.value] n anything :=
  token visible (fun _ boundary => solid.take?_append whole boundary) fun span =>
    ⟨⟨n.value, span⟩, by rw [Located.map, String.ofList_toList], alike_located rfl _ _⟩

theorem variableName {n : Name} (isName : isVariableName n.value) : Reads Rule.variableName [n.value] n anything :=
  name Word.solid_variableName (visible_of_isVariableName isName) (Word.take?_variableName isName)

theorem className {n : Name} (isName : isClassName n.value) : Reads Rule.className [n.value] n anything :=
  name Word.solid_className (visible_of_isClassName isName) (Word.take?_run_of_isWord isName)

theorem attributeName {n : Name} (isName : isAttributeName n.value) :
    Reads Rule.attributeName [n.value] n anything :=
  name Word.solid_attributeName (visible_of_isAttributeName isName) (Word.take?_attributeName isName)

/-- A name directly after a colon. -/
theorem accept?_seq_name {p : Phrase} {t : Token} {n : String} {e : List Char} {c : Cursor}
    (taken : t.take? (n.toList ++ e) = some (n.toList, e)) (rest : c.rest = ':' :: (n.toList ++ e)) :
    ∃ span next, (Grammar.seq .nothing (Rule.mark ":") (Rule.name p t)).accept? c =
      some ⟨.ok ((), ⟨n, span⟩), next⟩ ∧ next.rest = e := by
  have sign : ":".toList = [':'] := by decide
  have colon : (Token.text ":").take? c.rest = some ([':'], n.toList ++ e) := by
    rw [rest]
    simp [Token.text, Token.exactly, sign]
  let after : Cursor := c.advance [':'] (n.toList ++ e)
  let last : Cursor := after.advance n.toList e
  have first : (Rule.mark ":").accept? c = some ⟨.ok (), after⟩ := by
    simp only [Rule.mark, Grammar.accept?, Token.read?, colon, Option.map_some, after]
  have second : (Rule.name p t).accept? after = some ⟨.ok ⟨n, after.offset, last.offset⟩, last⟩ := by
    have taken' : t.take? after.rest = some (n.toList, e) := taken
    simp only [Rule.name, Grammar.accept?, Token.read?, taken', Option.map_some, Located.map,
      String.ofList_toList, last]
  refine ⟨⟨after.offset, last.offset⟩, last, ?_, rfl⟩
  simp only [Grammar.accept?, first, Option.bind_some, Gap.skip, second, Option.map_some]
  rfl

/-- A name directly after a colon is one word with it. -/
theorem seq_name {p : Phrase} {t : Token} {n : Name} (solid : t.Solid)
    (whole : t.take? n.value.toList = some (n.value.toList, [])) :
    Reads (Grammar.seq .nothing (Rule.mark ":") (Rule.name p t)) [":" ++ n.value] ((), n) anything := by
  refine ⟨fun w mem => ?_, fun c e boundary rest _ => ?_⟩
  · rw [List.mem_singleton.mp mem]
    exact visible_symbol n.value
  · rw [afterBlanks_lay (visible_symbol n.value), toList_symbol] at rest
    obtain ⟨span, next, accepted, rest'⟩ := accept?_seq_name (solid.take?_append whole boundary) rest
    exact ⟨((), ⟨n.value, span⟩), next, accepted, alike_pair rfl (alike_located rfl _ _), by rw [rest']⟩

theorem symbol {n : Name} (isName : isSymbolName n.value) : Reads Rule.symbol [":" ++ n.value] n anything :=
  phrase (seq_name Word.solid_symbolName (Word.take?_symbolName isName)) (fun _ _ => rfl) n.span

theorem accessorSymbol {n : Name} (isName : isAccessorName n.value) :
    Reads Rule.accessorSymbol [":" ++ n.value] n anything :=
  map ((seq_name Word.solid_accessorName (Word.take?_run_of_isWord isName)).located ⟨0, 0⟩) fun _ _ => rfl

/-- A string that is written character by character. -/
theorem string_of_writes {write : Char → List Char} {s : Located String}
    (writes : ∀ c ∈ s.value.toList, Word.Writes (write c) c) :
    Reads Rule.string [.ofList ('"' :: (s.value.toList.flatMap write ++ ['"']))] s anything := by
  refine token ⟨'"', s.value.toList.flatMap write ++ ['"'], by simp, by decide⟩ (fun e _ => ?_) fun span => ?_
  · rw [String.toList_ofList]
    exact Word.take?_string (Word.quotable_flatMap writes) e
  · rw [String.toList_ofList, readString_flatMap writes]
    exact ⟨⟨s.value, span⟩, rfl, alike_located rfl _ _⟩

theorem string {s : Located String} : Reads Rule.string [quote s.value] s anything :=
  string_of_writes fun c _ => Word.writes_escaped c

theorem lineBreaks : Reads Rule.lineBreaks [] [] noLineBreak := by
  have refused ⦃c : Cursor⦄ (_ : Settled c.rest) (other : noLineBreak c.rest.head?) :
      (Grammar.plain .lineBreak : Rule Unit).accept? c = none := by
    simp [Grammar.accept?, Token.read?, Token.take?_lineBreak_eq_none_iff.mpr other]
  have none : Reads Rule.lineBreaks (([] : List Unit).flatMap fun _ => []) [] noLineBreak :=
    many lineBreak_consumes (List.forall_mem_nil _) (List.forall_mem_nil _) (fun _ => id) refused
  exact none

section Lists

variable {α : Type} [Placed α] {first next item : Rule α} {words : α → List String} {l : List α}
  {f : Option Char → Prop}

/-- A list that ends where neither a comma nor an item stands. -/
theorem listed (one : ∀ x ∈ l, Reads first (words x) x anything) (more : ∀ x ∈ l, Reads next (words x) x anything)
    (refused : ∀ ⦃c : Cursor⦄, Settled c.rest → f c.rest.head? → first.accept? c = none)
    (noComma : ∀ h, f h → h ≠ some ',') : Reads (Rule.listed first next) (separated (l.map words)) l f := by
  have ends ⦃c : Cursor⦄ (settled : Settled c.rest) (follow : f c.rest.head?) :
      (Rule.mark ",").accept? c = none :=
    comma_begins.accept?_eq_none settled fun sign => noComma _ follow (head?_of_lead sign)
  cases l with
  | nil =>
    have absent : Reads (.optional (Rule.seq first <| Rule.seq (.many (.map Prod.snd (Rule.seq (Rule.mark ",") next)))
        (.optional (Rule.mark ",")))) [] none f :=
      optional_none fun c settled follow => by simp [Rule.seq, Grammar.accept?, refused settled follow]
    exact map absent fun _ x => by rcases x with _ | ⟨_, _, _⟩ <;> rfl
  | cons x l =>
    have others : Reads (.many (.map Prod.snd (Rule.seq (Rule.mark ",") next)))
        (l.flatMap fun y => "," :: words y) l f := by
      refine many (Grammar.Consumes.map (Grammar.Consumes.seq (mark_consumes (by decide)))) (f := anything) ?_ ?_
        (fun _ _ => trivial) fun c settled follow => by simp [Grammar.accept?, ends settled follow]
      · intro y mem
        exact map (comma.before (more y (List.mem_cons_of_mem x mem))) fun _ _ => rfl
      · exact fun y _ => ⟨",", words y, rfl, trivial⟩
    have rest := (one x List.mem_cons_self).before (others.seq (optional_none ends) fun _ => id)
    rw [separated_cons, ← List.append_nil (l.flatMap _)]
    exact map rest.optional_some fun _ x => by rcases x with _ | ⟨_, _, _⟩ <;> rfl

theorem block (inner : ∀ x ∈ l, Reads item (words x) x anything) (nonempty : ∀ x ∈ l, words x ≠ [])
    (refused : ∀ ⦃c : Cursor⦄, Settled c.rest → c.rest.head? = some '\x7d' → item.accept? c = none) :
    Reads (Rule.block item) (braced (l.map words)) l anything := by
  have more (x : α) (mem : x ∈ l) : Reads (.map Prod.snd (Rule.seq Rule.lineBreaks item)) (words x) x anything :=
    map (lineBreaks.seq (inner x mem) fun h _ => noLineBreak_ahead (inner x mem).visible (nonempty x mem) h)
      fun _ _ => rfl
  have items : Reads (Rule.listed item (.map Prod.snd (Rule.seq Rule.lineBreaks item))) (separated (l.map words)) l
      (· = some '\x7d') := listed inner more refused fun h same comma => by
    rw [same] at comma
    exact absurd comma (by decide)
  have close := lineBreaks.seq closeBrace fun h _ => noLineBreak_ahead closeBrace.visible (List.cons_ne_nil _ _) h
  have body := items.seq close fun _ _ => rfl
  have start := lineBreaks.seq body fun h _ => noLineBreak_ahead body.visible (by simp) h
  exact map (openBrace.before start) fun _ _ => rfl

end Lists

/-- A word that is no number is read as another literal. -/
theorem choice_numbers {α β : Type} [Placed α] [Placed β] {name name' : Phrase}
    {read read' : Located (List Char) → Except LiteralFault α} {p : Rule α} {q : Rule β} {ws : List String} {x : α} {y : β}
    {head : List Char → Prop} (whole : Reads p ws x anything) (inner : Reads q ws y anything) (begins : q.Begins head)
    (other : ∀ s, head s → (lead s).isNumber = false) :
    Reads (.choice (.token name Word.float read) (.choice (.token name' Word.integer read') p)) ws x anything := by
  have apart {t : Token} {n : Phrase} {r : Located (List Char) → Except LiteralFault α}
      (number : ∀ s, (t.take? s).isSome → (lead s).isNumber) : (Grammar.token n t r : Rule α).Apart q := by
    refine Grammar.Begins.token.apart begins fun s found here => ?_
    have isNumber := number s found
    rw [other s here] at isNumber
    cases isNumber
  refine choice_right (choice_right whole (inner.refused (apart ?_))) (inner.refused (apart ?_))
  · exact fun _ => Word.isNumber_lead_of_take?
  · exact fun _ => Word.isNumber_lead_of_take?_float

/-- A keyword is neither a string nor a symbol. -/
theorem choice_signs {α : Type} [Placed α] {k : Keyword} {f : Located String → α} {f' : Name → α} {p : Rule α} {x : α}
    (inner : Reads p [k.text] x anything) :
    Reads (.choice (.map f Rule.string) (.choice (.map f' Rule.symbol) p)) [k.text] x anything := by
  have word := keyword k
  have apart {α : Type} {q : Rule α} {c : Char} (begins : q.Begins fun s => lead s = .sign c) :
      Refused q [k.text] anything := word.refused (apart_of_ne begins (keyword_begins k) Lead.noConfusion)
  exact choice_right (choice_right inner (apart symbol_begins.map)) (apart string_begins.map)

theorem boolean (b : Bool) (span : Span) : Reads (Rule.phrase .boolean (.choice (.map (fun _ => true) (Rule.keyword .trueWord))
    (.map (fun _ => false) (Rule.keyword .falseWord))) Literal.bool)
      [(if b then Keyword.trueWord else Keyword.falseWord).text] ⟨.bool b, span⟩ anything := by
  have yes : Reads (.map (fun _ => true) (Rule.keyword .trueWord)) [Keyword.trueWord.text] true anything :=
    map (keyword .trueWord) fun _ _ => rfl
  have no : Reads (.map (fun _ => false) (Rule.keyword .falseWord)) [Keyword.falseWord.text] false anything :=
    map (keyword .falseWord) fun _ _ => rfl
  refine phrase ?_ (fun _ _ => rfl) span
  cases b with
  | true => exact choice_left yes
  | false =>
    refine choice_right no (no.refused ?_)
    exact apart_of_ne (keyword_begins .trueWord).map (keyword_begins .falseWord).map (by decide)

theorem literal_of_string {w : String} {s : Located String} (read : Reads Rule.string [w] s anything) :
    Reads Rule.literal [w] (s.map .string) anything := by
  have literal : Reads (.map (Located.map Literal.string) Rule.string) [w] (s.map .string) anything :=
    map read fun _ _ => rfl
  refine either (choice_numbers (choice_left literal) literal string_begins.map fun s sign => ?_)
  rw [sign]
  rfl

theorem literal {l : Located Literal} (wellFormed : l.value.WellFormed) (free : l.value.isFloat = false) :
    Reads Rule.literal [l.value.word] l anything := by
  obtain ⟨l, span⟩ := l
  cases l with
  | float x => cases free
  | int n =>
    have whole := Word.take?_integer n
    show Reads _ [n.repr] _ _
    refine either ?_
    refine choice_right (choice_left (token (visible_repr n) (fun _ => Word.solid_integer.take?_append whole)
      fun s => ⟨⟨.int n, s⟩, by rw [readInteger_repr wellFormed]; rfl, alike_located rfl _ _⟩)) ?_
    intro c e boundary rest _
    have here : c.rest = n.repr.toList ++ e := rest.trans (afterBlanks_lay (visible_repr n) [] e)
    have absent : Word.float.take? c.rest = none := by
      rw [here, Word.solid_float boundary, Word.take?_float_of_integer whole]
      rfl
    simp [Grammar.accept?, Token.read?, absent]
  | string s =>
    have quoted : Reads Rule.string [quote s] ⟨s, span⟩ anything := string (s := ⟨s, span⟩)
    exact literal_of_string quoted
  | symbol name =>
    have read : Reads (.map (Located.map Literal.symbol) Rule.symbol) [":" ++ name] ⟨.symbol name, span⟩ anything :=
      map (symbol (n := ⟨name, span⟩) wellFormed) fun _ _ => rfl
    refine either ?_
    refine choice_numbers (choice_right (choice_left read) (read.refused ?_)) read symbol_begins.map fun s sign => ?_
    · exact apart_of_ne string_begins.map symbol_begins.map (by decide)
    · rw [sign]
      rfl
  | bool b =>
    have word : (Literal.bool b).word = (if b then Keyword.trueWord else Keyword.falseWord).text := by
      cases b <;> rfl
    show Reads _ [(Literal.bool b).word] _ _
    rw [word]
    refine either ?_
    refine choice_numbers (choice_signs (choice_left (boolean b span))) (keyword _) (keyword_begins _) fun s here => ?_
    rw [here, Lead.isNumber_keyword]
  | nil =>
    have read : Reads (Rule.phrase .nil (Rule.keyword .nilWord) fun _ => Literal.nil) [Keyword.nilWord.text]
        ⟨.nil, span⟩ anything := phrase (h := fun _ => Literal.nil) (keyword .nilWord) (fun _ _ => rfl) span
    show Reads _ [Keyword.nilWord.text] _ _
    refine either ?_
    refine choice_numbers (choice_signs (choice_right read (read.refused boolean_apart_nil))) read nil_begins
      fun s here => ?_
    rw [here, Lead.isNumber_keyword]

/-- At a sign, what begins otherwise is refused. -/
theorem refused_at_sign {α : Type} {p : Rule α} {head : List Char → Prop} (begins : p.Begins head) {k : Char}
    (sign : Word.isPart k = false) (other : ∀ s, lead s = .sign k → ¬head s) ⦃c : Cursor⦄ (settled : Settled c.rest)
    (here : c.rest.head? = some k) : p.accept? c = none :=
  begins.accept?_eq_none settled (other _ (lead_of_head? sign here))

theorem symbolList {l : List Name} (names : ∀ n ∈ l, isSymbolName n.value) :
    Reads Rule.symbolList ("[" :: (separated (l.map fun n => [":" ++ n.value]) ++ ["]"])) l anything := by
  have opens : Reads (Rule.mark "[") ["["] () anything := mark (by decide) (by decide)
  have closes : Reads (Rule.mark "]") ["]"] () anything := mark (by decide) (by decide)
  have inner (n : Name) (mem : n ∈ l) : Reads Rule.symbol [":" ++ n.value] n anything := symbol (names n mem)
  have items : Reads (Rule.listed Rule.symbol Rule.symbol) (separated (l.map fun n => [":" ++ n.value])) l
      (· = some ']') := by
    refine listed inner inner (refused_at_sign symbol_begins (by decide) fun s same found => ?_) fun h same comma => ?_
    · rw [same] at found
      exact absurd found (by decide)
    · rw [same] at comma
      exact absurd comma (by decide)
  have body := items.seq closes fun _ _ => rfl
  exact either (map (opens.before body) fun _ _ => rfl)

theorem key {k : Located KeyLiteral} (wellFormed : k.value.WellFormed) :
    Reads (Grammar.choice (.map (Located.map KeyLiteral.string) Rule.string)
      (.map (Located.map KeyLiteral.symbol) Rule.symbol)) [k.value.toLiteral.word] k anything := by
  obtain ⟨k, span⟩ := k
  cases k with
  | string s =>
    have read : Reads (.map (Located.map KeyLiteral.string) Rule.string) [quote s] ⟨.string s, span⟩ anything :=
      map (string (s := ⟨s, span⟩)) fun _ _ => rfl
    exact choice_left read
  | symbol name =>
    have read : Reads (.map (Located.map KeyLiteral.symbol) Rule.symbol) [":" ++ name] ⟨.symbol name, span⟩ anything :=
      map (symbol (n := ⟨name, span⟩) wellFormed) fun _ _ => rfl
    exact choice_right read (read.refused (apart_of_ne string_begins.map symbol_begins.map (by decide)))

theorem hashEntry {e : HashEntry} (wellFormed : e.WellFormed) (free : e.value.value.isFloat = false) :
    Reads Rule.hashEntry e.words e anything := by
  have arrow : Reads (Rule.mark "=>") ["=>"] () anything := mark (by decide) (by decide)
  have value := arrow.before (literal wellFormed.2 free)
  exact either (map ((key wellFormed.1).before value) fun _ _ => rfl)

theorem hash {entries : Located (List HashEntry)} (wellFormed : ∀ e ∈ entries.value, e.WellFormed)
    (free : ∀ e ∈ entries.value, e.value.value.isFloat = false) :
    Reads Rule.hash (braced (entries.value.map HashEntry.words)) entries anything := by
  refine located (block (fun e mem => hashEntry (wellFormed e mem) (free e mem)) (fun e _ => List.cons_ne_nil _ _)
    (refused_at_sign hashEntry_begins (by decide) fun s same found => ?_)) entries.span
  rw [same] at found
  exact absurd found (by decide)

theorem descriptor {properties : Located (List HashEntry)} (wellFormed : ∀ e ∈ properties.value, e.WellFormed)
    (free : ∀ e ∈ properties.value, e.value.value.isFloat = false) :
    Reads Rule.descriptor ("meta" :: braced (properties.value.map HashEntry.words)) properties anything :=
  either (map ((keyword .metaWord).before (hash wellFormed free)) fun _ _ => rfl)

theorem attributeInit {a : AttributeInit} (wellFormed : a.WellFormed) (free : a.value.value.isFloat = false) :
    Reads Rule.attributeInit a.words a anything := by
  have value := equals.before (literal wellFormed.2 free)
  exact either (map ((attributeName wellFormed.1).before value) fun _ _ => rfl)

theorem newObject {className : Name} {attributes : List AttributeInit} (isName : isClassName className.value)
    (wellFormed : ∀ a ∈ attributes, a.WellFormed) (free : ∀ a ∈ attributes, a.value.value.isFloat = false) :
    Reads Rule.newObject (Expression.new className attributes).words (.new className attributes) (except '\x7b') := by
  have natural : Natural (fun (x : Unit × Name × Option (List AttributeInit)) =>
      Expression.new x.2.1 (x.2.2.getD [])) := by
    intro f x
    obtain ⟨_, _, attributes⟩ := x
    cases attributes <;> rfl
  cases attributes with
  | nil =>
    have absent : Reads (.optional (Rule.either .attributeBlock (Rule.block Rule.attributeInit))) [] none (except '\x7b') := by
      refine optional_none fun c settled other => ?_
      exact (block_begins _).phrase.map.accept?_eq_none settled fun sign => other (head?_of_lead sign)
    have named := (Reads.className isName).before absent
    exact either (map ((keyword .new).before named) natural)
  | cons a attributes =>
    have inside : Reads (Rule.either .attributeBlock (Rule.block Rule.attributeInit))
        (braced ((a :: attributes).map AttributeInit.words)) (a :: attributes) anything := by
      refine either <| block (fun b mem => attributeInit (wellFormed b mem) (free b mem)) (fun b _ => List.cons_ne_nil _ _)
        (refused_at_sign attributeInit_begins (by decide) fun s same found => ?_)
      rw [same] at found
      exact absurd found (by decide)
    have named := (Reads.className isName).before inside.optional_some
    exact either (map ((keyword .new).before named) natural) |>.mono fun _ _ => trivial

theorem expression {e : Located Expression} (wellFormed : e.value.WellFormed)
    (free : ∀ l ∈ e.value.literals, l.isFloat = false) : Reads Rule.expression e.value.words e (except '\x7b') := by
  obtain ⟨e, span⟩ := e
  refine located ?_ span
  cases e with
  | hash entries =>
    have values : ∀ e ∈ entries.value, e.value.value.isFloat = false := by
      simpa [Expression.literals] using free
    exact choice_left (map (hash wellFormed values) fun _ _ => rfl) |>.mono fun _ _ => trivial
  | descriptor properties =>
    have values : ∀ e ∈ properties.value, e.value.value.isFloat = false := by
      simpa [Expression.literals] using free
    have read := descriptor wellFormed values
    refine (choice_right (choice_left (map read fun _ _ => rfl)) (read.refused ?_)).mono fun _ _ => trivial
    exact apart_of_ne hash_begins.map descriptor_begins (by decide)
  | new className attributes =>
    have values : ∀ a ∈ attributes, a.value.value.isFloat = false := by
      simpa [Expression.literals] using free
    have read := newObject wellFormed.1 wellFormed.2 values
    refine choice_right (choice_right (choice_left read) (read.refused ?_)) (read.refused ?_)
    · exact apart_of_ne descriptor_begins.map newObject_begins (by decide)
    · exact apart_of_ne hash_begins.map newObject_begins (by decide)
  | literal l =>
    have value : l.value.isFloat = false := by simpa [Expression.literals] using free
    have read : Reads Rule.literal [l.value.word] l (except '\x7b') := (literal wellFormed value).mono fun _ _ => trivial
    refine choice_right (choice_right (choice_right (map read fun _ _ => rfl) (read.refused ?_)) (read.refused ?_))
      (read.refused ?_)
    · exact apart_of_kind newObject_begins literal_begins (by decide)
    · exact apart_of_kind descriptor_begins.map literal_begins (by decide)
    · exact apart_of_kind hash_begins.map literal_begins (by decide)

end Reads

end KeyIntrospection.Script
