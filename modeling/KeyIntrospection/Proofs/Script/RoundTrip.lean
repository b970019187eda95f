import KeyIntrospection.Proofs.Script.Phrases

/-!
Canonical texts are read back. Each rule reads the words of a well-formed tree as that tree, so that the
canonical text of a statement is the statement.
-/

namespace KeyIntrospection.Script

open KeyIntrospection.Alignment (Natural)

namespace Reads

open Rule

theorem assignment {n : Name} {e : Located Expression} (isName : isVariableName n.value)
    (wellFormed : e.value.WellFormed) (free : ∀ l ∈ e.value.literals, l.isFloat = false) (span : Span) :
    Reads Rule.assignment (Statement.assign n e).words ⟨.assign n e, span⟩ (except '\x7b') := by
  have value := equals.before (expression wellFormed free)
  exact phrase ((variableName isName).before value) (fun _ _ => rfl) span

theorem accessorKind (k : AccessorKind) : Reads Rule.accessorKind [k.keyword.text] k anything := by
  refine either ?_
  cases k with
  | reader => exact choice_left (map (keyword .attrReader) fun _ _ => rfl)
  | writer =>
    have word := keyword .attrWriter
    refine choice_right (choice_left (map word fun _ _ => rfl)) (word.refused ?_)
    exact apart_of_ne (keyword_begins _).map (keyword_begins _) (by decide)
  | accessor =>
    have word := keyword .attrAccessor
    refine choice_right (choice_right (map word fun _ _ => rfl) (word.refused ?_)) (word.refused ?_)
    · exact apart_of_ne (keyword_begins _).map (keyword_begins _) (by decide)
    · exact apart_of_ne (keyword_begins _).map (keyword_begins _) (by decide)

theorem accessorDeclaration {d : Located AccessorDeclaration} (wellFormed : d.value.WellFormed) :
    Reads Rule.accessorDeclaration d.value.words d (except ',') := by
  obtain ⟨⟨kind, names⟩, span⟩ := d
  obtain ⟨nonempty, areNames⟩ := wellFormed
  obtain ⟨n, more, rfl⟩ := List.exists_cons_of_ne_nil nonempty
  have others : Reads (.many (.map Prod.snd (Rule.seq (Rule.mark ",") Rule.accessorSymbol)))
      (more.flatMap fun m => [",", ":" ++ m.value]) more (except ',') := by
    refine many (Grammar.Consumes.map (Grammar.Consumes.seq (mark_consumes (by decide)))) (f := anything) ?_ ?_
      (fun _ _ => trivial) fun c settled follow => ?_
    · intro m mem
      have symbol := accessorSymbol (areNames m (List.mem_cons_of_mem n mem))
      exact map (comma.before symbol) fun _ _ => rfl
    · exact fun m _ => ⟨",", [":" ++ m.value], rfl, trivial⟩
    · exact comma_begins.seq.map.accept?_eq_none settled fun sign => follow (head?_of_lead sign)
  have symbols := (accessorSymbol (areNames n List.mem_cons_self)).before others
  have words : AccessorDeclaration.words ⟨kind, n :: more⟩ =
      [kind.keyword.text] ++ ([":" ++ n.value] ++ more.flatMap fun m => [",", ":" ++ m.value]) := by
    rw [AccessorDeclaration.words, separated_cons]
    rfl
  show Reads _ (AccessorDeclaration.words ⟨kind, n :: more⟩) _ _
  rw [words]
  exact phrase ((accessorKind kind).before symbols) (fun _ _ => rfl) span

theorem classItems {l : List (Located AccessorDeclaration)} (wellFormed : ∀ d ∈ l, d.value.WellFormed) :
    Reads (.many classItem) (l.flatMap (·.value.words)) (l.map some) (· = some '\x7d') := by
  have inner (x : Option (Located AccessorDeclaration)) (mem : x ∈ l.map some) :
      Reads classItem (x.elim [] (·.value.words)) x (except ',') := by
    obtain ⟨d, inside, rfl⟩ := List.mem_map.mp mem
    have read := accessorDeclaration (wellFormed d inside)
    have item : Reads (.map some Rule.accessorDeclaration) d.value.words (some d) (except ',') := map read fun _ _ => rfl
    exact choice_right item (item.refused lineBreak_apart_accessorDeclaration)
  have starts (x : Option (Located AccessorDeclaration)) (mem : x ∈ l.map some) :
      ∃ w us, x.elim [] (·.value.words) = w :: us ∧ except ',' w.toList.head? := by
    obtain ⟨d, _, rfl⟩ := List.mem_map.mp mem
    have other : d.value.kind.keyword.text.toList.head? ≠ some ',' := by cases d.value.kind <;> decide
    exact ⟨_, _, rfl, other⟩
  have items : Reads (.many classItem) ((l.map some).flatMap fun x => x.elim [] (·.value.words)) (l.map some)
      (· = some '\x7d') := by
    refine many (.choice lineBreak_consumes.map accessorDeclaration_consumes.map) inner starts ?_ ?_
    · intro h same comma
      rw [same] at comma
      exact absurd comma (by decide)
    · refine refused_at_sign classItem_begins (by decide) fun s same found => ?_
      rw [same] at found
      exact absurd found (by decide)
  rw [List.flatMap_map] at items
  exact items

theorem classDefinition {n : Name} {l : List (Located AccessorDeclaration)} (isName : isClassName n.value)
    (wellFormed : ∀ d ∈ l, d.value.WellFormed) (span : Span) :
    Reads Rule.classDefinition (Statement.defineClass n l).words ⟨.defineClass n l, span⟩ anything := by
  have body := (classItems wellFormed).seq closeBrace fun _ _ => rfl
  have parts := (keyword .classWord).before ((className isName).before (openBrace.before body))
  have natural : Natural fun (x : Unit × Name × Unit × List (Option (Located AccessorDeclaration)) × Unit) =>
      Statement.defineClass x.2.1 (x.2.2.2.1.filterMap id) := by
    intro g x
    obtain ⟨_, n, _, declarations, _⟩ := x
    exact congrArg (Statement.defineClass (move g n)) (Alignment.move_filterMap g declarations)
  have read : Reads Rule.classDefinition (Statement.defineClass n l).words
      ⟨.defineClass n ((l.map some).filterMap id), span⟩ anything := phrase parts natural span
  have all : (l.map some).filterMap id = l := by simp
  rwa [all] at read

theorem setAttribute {object n : Name} {value : Located Literal} (isObject : isVariableName object.value)
    (isName : isAttributeName n.value) (wellFormed : value.value.WellFormed) (free : value.value.isFloat = false)
    (span : Span) :
    Reads Rule.setAttribute (Statement.setAttribute object n value).words ⟨.setAttribute object n value, span⟩
      anything := by
  have last := equals.before (literal wellFormed free)
  have named := (variableName isObject).before ((attributeName isName).before last)
  exact phrase ((keyword .set).before named) (fun _ _ => rfl) span

theorem freeze {object : Name} (isObject : isVariableName object.value) (span : Span) :
    Reads Rule.freeze (Statement.freeze object).words ⟨.freeze object, span⟩ anything :=
  phrase ((keyword .freeze).before (variableName isObject)) (fun _ _ => rfl) span

theorem keyQuery {p : Phrase} {k : Keyword} {f : Name → Located Literal → Query} {object : Name} {key : Located Literal}
    (natural : ∀ g object key, move g (f object key) = f (move g object) (move g key))
    (isObject : isVariableName object.value) (wellFormed : key.value.WellFormed) (free : key.value.isFloat = false) :
    Reads (Rule.keyQuery p k f) [k.text, "(", object.value, ",", key.value.word, ")"] (f object key) anything := by
  have last := comma.before ((literal wellFormed free).before closeParen)
  have inside := openParen.before ((variableName isObject).before last)
  exact either (map ((keyword k).before inside) fun g x => natural g x.2.2.1 x.2.2.2.2.1)

theorem keysQuery {object : Name} (isObject : isVariableName object.value) (withInternal : Bool) :
    Reads Rule.keysQuery (Query.keys object withInternal).words (.keys object withInternal) anything := by
  have natural : Natural fun (x : Unit × Unit × Name × Option (Unit × Unit) × Unit) =>
      Query.keys x.2.2.1 x.2.2.2.1.isSome := by
    intro g x
    obtain ⟨_, _, _, internal, _⟩ := x
    cases internal <;> rfl
  have around {ws : List String} {internal : Option (Unit × Unit)}
      (read : Reads (.optional (Rule.seq (Rule.mark ",") (Rule.keyword .internal))) ws internal (· = some ')')) :
      Reads Rule.keysQuery ("keys" :: "(" :: object.value :: (ws ++ [")"])) (.keys object internal.isSome) anything := by
    have last := read.seq closeParen fun _ _ => rfl
    have inside := openParen.before ((variableName isObject).before last)
    exact either (map ((keyword .keys).before inside) natural)
  cases withInternal with
  | true =>
    have internal := comma.before (keyword .internal)
    exact around (internal.optional_some.mono fun _ _ => trivial)
  | false =>
    refine around (optional_none fun c settled close => comma_begins.seq.accept?_eq_none settled fun sign => ?_)
    rw [head?_of_lead sign] at close
    exact absurd close (by decide)

theorem query {q : Located Query} (wellFormed : q.value.WellFormed) (free : ∀ l ∈ q.value.literals, l.isFloat = false) :
    Reads Rule.query q.value.words q anything := by
  obtain ⟨q, span⟩ := q
  refine located ?_ span
  cases q with
  | keyInfo object key =>
    have value : key.value.isFloat = false := by simpa [Query.literals] using free
    exact choice_left (keyQuery (fun _ _ _ => rfl) wellFormed.1 wellFormed.2 value)
  | keys object withInternal =>
    have read := keysQuery wellFormed withInternal
    refine choice_right (choice_left read) (read.refused ?_)
    exact apart_of_ne (keyQuery_begins _ _ _) keysQuery_begins (by decide)
  | read object key =>
    have value : key.value.isFloat = false := by simpa [Query.literals] using free
    have read : Reads (Rule.keyQuery .readQuery .read .read) (Query.read object key).words (.read object key) anything :=
      keyQuery (fun _ _ _ => rfl) wellFormed.1 wellFormed.2 value
    refine choice_right (choice_right read (read.refused ?_)) (read.refused ?_)
    · exact apart_of_ne keysQuery_begins (keyQuery_begins _ _ _) (by decide)
    · exact apart_of_ne (keyQuery_begins _ _ _) (keyQuery_begins _ _ _) (by decide)

/-- The matchers that are words begin otherwise than the one that is a sign. -/
theorem matcher_of_keyword {p : Rule Matcher} {k : Keyword} {ws : List String} {m : Matcher}
    {parts : Rule Matcher} (read : Reads p ws m anything) (begins : p.Begins fun s => lead s = .keyword k)
    (inner : Reads parts ws m anything) :
    Reads (Rule.either .matcher (.choice (Rule.either .equals (.map Prod.snd (Rule.seq (Rule.mark "==")
      (.choice (.map .equalsSymbols Rule.symbolList) (.map .equals Rule.literal))))) parts)) ws m anything := by
  have sign : (Rule.mark "==").Begins fun s => lead s = .sign '=' := mark_begins (by decide) (by decide)
  exact either (choice_right inner (read.refused (apart_of_ne sign.seq.map.phrase.map begins Lead.noConfusion)))

/-- What an answer is to be equal to. -/
theorem matcher_of_sides {ws : List String} {m : Matcher}
    (sides : Reads (.choice (.map .equalsSymbols Rule.symbolList) (.map .equals Rule.literal)) ws m anything) :
    Reads Rule.matcher ("==" :: ws) m anything := by
  have sign : Reads (Rule.mark "==") ["=="] () anything := mark (by decide) (by decide)
  exact either (choice_left (either (map (sign.before sides) fun _ _ => rfl)))

theorem matcher_equalsSymbols {ws : List String} {symbols : List Name}
    (list : Reads Rule.symbolList ws symbols anything) :
    Reads Rule.matcher ("==" :: ws) (.equalsSymbols symbols) anything :=
  matcher_of_sides (choice_left (map list fun _ _ => rfl))

theorem matcher_equals {ws : List String} {l : Located Literal} (read : Reads Rule.literal ws l anything) :
    Reads Rule.matcher ("==" :: ws) (.equals l) anything := by
  refine matcher_of_sides (choice_right (map read fun _ _ => rfl) (read.refused ?_))
  exact apart_of_kind symbolList_begins.map literal_begins (by decide)

theorem matcher {m : Matcher} (wellFormed : m.WellFormed) (free : ∀ l ∈ m.literals, l.isFloat = false) :
    Reads Rule.matcher m.words m anything := by
  cases m with
  | equalsSymbols symbols => exact matcher_equalsSymbols (symbolList wellFormed)
  | equals l =>
    have value : l.value.isFloat = false := by simpa [Matcher.literals] using free
    exact matcher_equals (literal wellFormed value)
  | includes name =>
    have word := (keyword .includes).before (symbol wellFormed)
    have read : Reads (Rule.either .includes (.map (fun x => Matcher.includes x.2)
        (Rule.seq (Rule.keyword .includes) Rule.symbol))) (Matcher.includes name).words (.includes name) anything :=
      either (map word fun _ _ => rfl)
    exact matcher_of_keyword read (keyword_begins .includes).seq.map.phrase.map (choice_left read)
  | excludes name =>
    have word := (keyword .excludes).before (symbol wellFormed)
    have read : Reads (Rule.either .excludes (.map (fun x => Matcher.excludes x.2)
        (Rule.seq (Rule.keyword .excludes) Rule.symbol))) (Matcher.excludes name).words (.excludes name) anything :=
      either (map word fun _ _ => rfl)
    refine matcher_of_keyword read (keyword_begins .excludes).seq.map.phrase.map
      (choice_right (choice_left read) (read.refused ?_))
    exact apart_of_ne (keyword_begins _).seq.map.phrase.map (keyword_begins _).seq.map.phrase.map (by decide)
  | isEmpty =>
    have read : Reads (Rule.either .isEmpty (.map (fun _ => Matcher.isEmpty) (Rule.keyword .isEmpty)))
        Matcher.isEmpty.words .isEmpty anything := either (map (keyword .isEmpty) fun _ _ => rfl)
    refine matcher_of_keyword read (keyword_begins .isEmpty).map.phrase.map
      (choice_right (choice_right read (read.refused ?_)) (read.refused ?_))
    · exact apart_of_ne (keyword_begins _).seq.map.phrase.map (keyword_begins _).map.phrase.map (by decide)
    · exact apart_of_ne (keyword_begins _).seq.map.phrase.map (keyword_begins _).map.phrase.map (by decide)

theorem expectation {q : Located Query} {m : Matcher} (wellFormed : (Statement.expect q m).WellFormed)
    (free : (Statement.expect q m).FloatFree) (span : Span) :
    Reads Rule.expectation (Statement.expect q m).words ⟨.expect q m, span⟩ anything := by
  have query := query wellFormed.1 fun l mem => free l (List.mem_append_left _ mem)
  have matcher := matcher wellFormed.2 fun l mem => free l (List.mem_append_right _ mem)
  exact phrase ((keyword .expect).before (query.before matcher)) (fun _ _ => rfl) span

theorem statement_of_expectation {ws : List String} {s : Located Statement}
    (read : Reads Rule.expectation ws s anything) : Reads Rule.statement ws s anything := by
  refine choice_right (choice_right (choice_right (choice_left read) (read.refused ?_)) (read.refused ?_))
    (read.refused ?_)
  · exact apart_of_ne freeze_begins expectation_begins (by decide)
  · exact apart_of_ne setAttribute_begins expectation_begins (by decide)
  · exact apart_of_ne classDefinition_begins expectation_begins (by decide)

/-- Every well-formed statement is read from its words. What begins with a keyword of its own is no earlier
alternative, and the name that an assignment begins with is no keyword. -/
theorem statement {s : Located Statement} (wellFormed : s.value.WellFormed) (free : s.value.FloatFree) :
    Reads Rule.statement s.value.words s (except '\x7b') := by
  obtain ⟨s, span⟩ := s
  cases s with
  | defineClass n accessors =>
    have read := classDefinition wellFormed.1 wellFormed.2 span
    exact (choice_left read).mono fun _ _ => trivial
  | setAttribute object n value =>
    have notFloat : value.value.isFloat = false := free value.value List.mem_cons_self
    have read := setAttribute wellFormed.1 wellFormed.2.1 wellFormed.2.2 notFloat span
    refine (choice_right (choice_left read) (read.refused ?_)).mono fun _ _ => trivial
    exact apart_of_ne classDefinition_begins setAttribute_begins (by decide)
  | freeze object =>
    have read := freeze wellFormed span
    refine (choice_right (choice_right (choice_left read) (read.refused ?_)) (read.refused ?_)).mono fun _ _ => trivial
    · exact apart_of_ne setAttribute_begins freeze_begins (by decide)
    · exact apart_of_ne classDefinition_begins freeze_begins (by decide)
  | expect q m =>
    exact (statement_of_expectation (expectation wellFormed free span)).mono fun _ _ => trivial
  | query q =>
    have queried : Reads (.map (fun q => (⟨.query q, q.span⟩ : Located Statement)) Rule.query) q.value.words
        ⟨.query q, q.span⟩ anything := map (query wellFormed free) fun _ _ => rfl
    have read := queried.of_alike (alike_located rfl q.span span)
    refine (choice_right (choice_right (choice_right (choice_right (choice_left read) (read.refused ?_))
      (read.refused ?_)) (read.refused ?_)) (read.refused ?_)).mono fun _ _ => trivial
    · exact apart_of_kind expectation_begins query_begins.map (by decide)
    · exact apart_of_kind freeze_begins query_begins.map (by decide)
    · exact apart_of_kind setAttribute_begins query_begins.map (by decide)
    · exact apart_of_kind classDefinition_begins query_begins.map (by decide)
  | assign n e =>
    have read := assignment wellFormed.1 wellFormed.2 free span
    have earlier {p : Rule (Located Statement)} {k : Keyword} (begins : p.Begins fun s => lead s = .keyword k) :
        Refused p (Statement.assign n e).words (except '\x7b') :=
      read.refused (apart_of_kind begins assignment_begins (Lead.isVariableName_keyword k))
    exact choice_right (choice_right (choice_right (choice_right
      (choice_right read (read.refused query_apart_assignment)) (earlier expectation_begins))
      (earlier freeze_begins)) (earlier setAttribute_begins)) (earlier classDefinition_begins)

end Reads

theorem Statement.words_ne_nil (s : Statement) : s.words ≠ [] := by
  cases s with
  | query q =>
    obtain ⟨q, _⟩ := q
    cases q <;> exact List.cons_ne_nil _ _
  | _ => exact List.cons_ne_nil _ _

/-- Words with single spaces between them, the first one without a space before it. -/
theorem toList_intercalate {w : String} {ws : List String} :
    (" ".intercalate (w :: ws)).toList = w.toList ++ lay ws [] := by
  have space : " ".toList = [' '] := by decide
  rw [String.toList_intercalate, space]
  induction ws generalizing w with
  | nil => simp [lay]
  | cons u ws ih =>
    rw [List.map_cons, List.map_cons, List.intercalate_cons_cons, ← List.map_cons, ih]
    simp [lay]

/-- The words of a statement, with single spaces between them, are read as the statement. -/
theorem parse_words {ws : List String} {s : Located Statement} {f : Option Char → Prop} (nonempty : ws ≠ [])
    (read : Reads Rule.statement ws s f) (ends : f none) :
    ∃ t, Statement.parse (" ".intercalate ws) = .ok t ∧ Alike t s := by
  have rest : (Cursor.ofText (" ".intercalate ws)).rest = afterBlanks (lay ws []) := by
    show (" ".intercalate ws).toList = _
    obtain ⟨w, us, rfl⟩ := List.exists_cons_of_ne_nil nonempty
    have visible : Visible w := read.visible w List.mem_cons_self
    rw [toList_intercalate, afterBlanks_lay visible]
  have settled : Settled (Cursor.ofText (" ".intercalate ws)).rest := by
    rw [rest]
    exact settled_afterBlanks _
  have solid : ∀ c ∈ (Cursor.ofText (" ".intercalate ws)).rest.head?, isLineBreak c = false := by
    rw [rest, head?_afterBlanks_lay read.visible]
    exact noLineBreak_ahead read.visible nonempty _
  have start : (Cursor.ofText (" ".intercalate ws)).skipLines = Cursor.ofText (" ".intercalate ws) :=
    ((Cursor.Reaches.refl _).eq_skipLines (afterLines_of_settled settled solid).symm).symm
  have boundary : AtBoundary [] := fun c head => nomatch head
  obtain ⟨t, n, accepted, alike, after⟩ := read.accept boundary rest ends
  have finished : n.skipLines.rest = [] := by
    have ending : n.skipBlanks.rest = [] := after
    rw [← Cursor.skipLines_skipBlanks]
    show afterLines false n.skipBlanks.rest = []
    rw [ending]
    rfl
  exact ⟨t, Rule.parse_singleStatement start accepted finished, alike⟩

/-- The canonical text of a well-formed statement is read as the statement. -/
theorem parse_text {s : Located Statement} (wellFormed : s.value.WellFormed) (free : s.value.FloatFree) :
    ∃ t, Statement.parse s.value.text = .ok t ∧ Alike t s :=
  parse_words s.value.words_ne_nil (Reads.statement wellFormed free) fun same => nomatch same

/-- The statements that are read are the well-formed ones: whatever is read is well-formed, and a well-formed
statement, unless it has a float in it, is read from its canonical text. -/
theorem parse_exactly_wellFormed :
    (∀ source s, Statement.parse source = .ok s → s.value.WellFormed) ∧
      ∀ s : Located Statement, s.value.WellFormed → s.value.FloatFree →
        ∃ t, Statement.parse s.value.text = .ok t ∧ Alike t s :=
  ⟨fun _ _ parsed => wellFormed_of_parse parsed, fun _ wellFormed free => parse_text wellFormed free⟩

/-- A name that begins like a keyword, and a string with a quote, a comment sign and a line break in it. -/
def settings : Located Statement :=
  ⟨.assign ⟨"settings", 0, 0⟩
    ⟨.hash ⟨[⟨⟨.string "a\"#\n", 0, 0⟩, ⟨.int (-7), 0, 0⟩⟩], 0, 0⟩, 0, 0⟩, 0, 0⟩

theorem parse_exactly_wellFormed_settings :
    settings.value.text = "settings = \x7b \"a\\\"#\n\" => -7 \x7d" ∧ settings.value.WellFormed ∧
      ∃ t, Statement.parse settings.value.text = .ok t ∧ Alike t settings ∧ t.value.WellFormed := by
  have wellFormed : settings.value.WellFormed := by
    refine ⟨by decide, fun e mem => ?_⟩
    rw [List.mem_singleton.mp mem]
    exact ⟨trivial, by decide, by decide⟩
  have free : settings.value.FloatFree := fun l mem => by rw [List.mem_singleton.mp mem]; rfl
  obtain ⟨t, parsed, alike⟩ := parse_exactly_wellFormed.2 settings wellFormed free
  exact ⟨by decide, wellFormed, t, parsed, alike, parse_exactly_wellFormed.1 _ t parsed⟩

end KeyIntrospection.Script
