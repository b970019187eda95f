import KeyIntrospection.Proofs.Grammar.Alignment
import KeyIntrospection.Proofs.Script.Lines

/-!
Scripts in two texts that are read side by side. Statements that agree have the same names, literals and
structure, and differ in their spans alone.
-/

namespace KeyIntrospection.Script

instance : Placed Literal := ⟨fun _ l => l, fun _ => rfl⟩
instance : Placed KeyLiteral := ⟨fun _ l => l, fun _ => rfl⟩
instance : Placed AccessorKind := ⟨fun _ k => k, fun _ => rfl⟩

instance : Placed LiteralFault where
  move f
    | .integerOutOfRange text => .integerOutOfRange (move f text)
    | .unknownEscape offset c => .unknownEscape (f offset) c
  move_id e := by cases e <;> simp

instance : Placed HashEntry where
  move f e := ⟨move f e.key, move f e.value⟩
  move_id e := by simp

instance : Placed AttributeInit where
  move f a := ⟨move f a.name, move f a.value⟩
  move_id a := by simp

instance : Placed Expression where
  move f
    | .hash entries => .hash (move f entries)
    | .descriptor properties => .descriptor (move f properties)
    | .new className attributes => .new (move f className) (move f attributes)
    | .literal l => .literal (move f l)
  move_id e := by cases e <;> simp

instance : Placed AccessorDeclaration where
  move f d := ⟨d.kind, move f d.names⟩
  move_id d := by simp

instance : Placed Query where
  move f
    | .keyInfo object key => .keyInfo (move f object) (move f key)
    | .keys object withInternal => .keys (move f object) withInternal
    | .read object key => .read (move f object) (move f key)
  move_id q := by cases q <;> simp

instance : Placed Matcher where
  move f
    | .equalsSymbols symbols => .equalsSymbols (move f symbols)
    | .equals l => .equals (move f l)
    | .includes symbol => .includes (move f symbol)
    | .excludes symbol => .excludes (move f symbol)
    | .isEmpty => .isEmpty
  move_id m := by cases m <;> simp

instance : Placed Statement where
  move f
    | .assign name e => .assign (move f name) (move f e)
    | .defineClass name accessors => .defineClass (move f name) (move f accessors)
    | .setAttribute object name value => .setAttribute (move f object) (move f name) (move f value)
    | .freeze object => .freeze (move f object)
    | .query q => .query (move f q)
    | .expect q m => .expect (move f q) (move f m)
  move_id s := by cases s <;> simp

namespace Rule

open Grammar

/-- The accessors that are declared in a class, and the end of the class. -/
def classBody : Rule (List (Located AccessorDeclaration)) :=
  .map (fun x => x.1.filterMap id) (seq (.many classItem) (mark "\x7d"))

theorem classItem_consumes : classItem.Consumes := .choice lineBreak_consumes.map accessorDeclaration_consumes.map

/-- After blank lines an item of a class is a declaration. -/
theorem accept?_classItem_skipLines (c : Cursor) :
    classItem.accept? c.skipLines = (Grammar.map some accessorDeclaration : Rule _).accept? c.skipLines := by
  have absent : (Grammar.plain .lineBreak : Rule Unit).accept? c.skipLines = none := by
    have refused := Token.take?_lineBreak_eq_none_iff.mpr (isLineBreak_head_afterLines false c.rest)
    rw [accept?, Token.read?, show Token.lineBreak.take? c.skipLines.rest = none from refused]
    rfl
  rw [classItem, accept?, accept?, absent]
  rfl

/-- The items of a class and the end of the class after them. -/
def closeClass (items : Match LiteralFault (List (Option (Located AccessorDeclaration)))) :
    Option (Match LiteralFault (List (Located AccessorDeclaration))) :=
  ((mark "\x7d").accept? items.next.skipBlanks).map fun k => (items.pair k).map fun x => x.1.filterMap id

theorem accept?_classBody {c : Cursor} (settled : Settled c.rest) :
    classBody.accept? c = closeClass (items classItem.accept? c) := by
  rw [classBody, seq, accept?, accept?, accept?_many_of_settled classItem_consumes settled, Option.bind_some,
    Option.map_map]
  rfl

theorem accept?_classBody_of_none {c : Cursor} (settled : Settled c.rest) (refused : classItem.accept? c = none) :
    classBody.accept? c =
      (Grammar.map (fun _ => []) (mark "\x7d") : Rule (List (Located AccessorDeclaration))).accept? c := by
  have here := Cursor.skipBlanks_of_settled settled
  rw [accept?_classBody settled, items_of_none (by rw [here, refused]), closeClass, here, accept?]
  refine Option.map_congr fun k _ => ?_
  obtain ⟨v, next⟩ := k
  cases v <;> rfl

theorem closeClass_skipBlanks (c : Cursor) :
    closeClass (items classItem.accept? c.skipBlanks) = closeClass (items classItem.accept? c) := by
  have value : (items classItem.accept? c.skipBlanks).value = (items classItem.accept? c).value := by
    cases found : classItem.accept? c.skipBlanks with
    | none => rw [items_of_none found, items_of_none (by rw [Cursor.skipBlanks_skipBlanks, found])]
    | some m =>
      rw [items_of_some classItem_consumes found,
        items_of_some classItem_consumes (by rw [Cursor.skipBlanks_skipBlanks, found])]
  simp only [closeClass, skipBlanks_items_next classItem_consumes c, Match.pair, Match.map, value]

/-- An item of a class stands before the further ones. -/
theorem accept?_classBody_of_item {c : Cursor} {m : Match LiteralFault (Option (Located AccessorDeclaration))}
    (settled : Settled c.rest) (found : classItem.accept? c = some m) :
    classBody.accept? c =
      (classBody.accept? m.next.skipBlanks).map fun n => (m.pair n).map fun x => x.1.toList ++ x.2 := by
  have here : classItem.accept? c.skipBlanks = some m := by rw [Cursor.skipBlanks_of_settled settled, found]
  rw [accept?_classBody settled, accept?_classBody m.next.settled_skipBlanks, closeClass_skipBlanks,
    items_of_some classItem_consumes here, closeClass, closeClass, Option.map_map]
  refine Option.map_congr fun k _ => ?_
  obtain ⟨v, next⟩ := m
  simp only [Match.cons, Match.pair, Match.map, Function.comp_apply]
  cases v with
  | error e => rfl
  | ok x =>
    cases (items classItem.accept? next).value with
    | error e => rfl
    | ok l => cases k.value <;> cases x <;> rfl

/-- Line breaks in a class declare nothing. -/
theorem accept?_classBody_skipLines {l : Nat} {c : Cursor} (short : c.rest.length < l) (settled : Settled c.rest) :
    classBody.accept? c = classBody.accept? c.skipLines := by
  induction l generalizing c with
  | zero => omega
  | succ l ih =>
    cases found : (Grammar.plain .lineBreak : Rule Unit).accept? c with
    | none =>
      have absent : Token.lineBreak.take? c.rest = none := by
        simpa [accept?, Token.read?] using found
      rw [← (Cursor.Reaches.refl c).eq_skipLines
        (afterLines_of_settled settled (Token.take?_lineBreak_eq_none_iff.mp absent)).symm]
    | some m =>
      have item : classItem.accept? c = some (m.map fun _ => none) := by
        rw [classItem, accept?, accept?, found]
        rfl
      have shorter := (accept?_reaches found).length_lt (lineBreak_consumes found)
      have suffix := m.next.reaches_skipBlanks.suffix.length_le
      have value : m.value = .ok () := by
        obtain ⟨_, _, rfl⟩ := Option.map_eq_some_iff.mp found
        rfl
      rw [accept?_classBody_of_item settled item, ← skipLines_of_lineBreak found, ← m.next.skipLines_skipBlanks,
        ← ih (c := m.next.skipBlanks) (by omega) m.next.settled_skipBlanks]
      refine (congrArg (Option.map · _) (funext fun n => ?_)).trans (congrFun Option.map_id _)
      obtain ⟨v, next⟩ := n
      simp only [Match.map, Match.pair, value]
      cases v <;> rfl

end Rule

end KeyIntrospection.Script

namespace KeyIntrospection.Alignment

open Script Script.Rule

/-- Every token of scripts is found in both texts or in neither. -/
structure OfScripts (S : Alignment) : Prop where
  solid : ∀ {t : Token}, t.Solid → S.Respects t
  string : S.Respects Word.string
  lineBreak : S.Respects .lineBreak

/-- Every word and every string is found in both texts or in neither, and blank lines in one of them are blank
lines in the other, not as many perhaps. -/
structure OfLines (S : Alignment) : Prop where
  word : ∀ {t : Token}, t.Bare → S.Respects t
  string : S.Respects Word.string
  lines : ∀ {c d : Cursor}, S.near c d → S.near c.skipLines d.skipLines

variable {α β : Type} [Placed α] [Placed β] {S : Alignment}

theorem Natural.located {f : α → β} (natural : Natural f) : Natural (Located.map f) :=
  fun g x => congrArg (Located.mk · (move g x.span)) (natural g x.value)

theorem carries_phrase {p : Phrase} {parts : Rule α} {f : α → β} (inner : S.Carries parts)
    (natural : Natural f) : S.Carries (Rule.phrase p parts f) :=
  .map natural.located (.phrase inner)

theorem carries_either {p : Phrase} {parts : Rule α} (inner : S.Carries parts) :
    S.Carries (Rule.either p parts) :=
  .map (fun _ _ => rfl) (.phrase inner)

/-- The escapes of a string have the same faults, each at its own place. -/
theorem agree_unescape {o o' : Nat} (same : ∀ i, S.left (o + i) = S.right (o' + i)) (s : List Char) :
    S.Agree (unescape o s) (unescape o' s) := by
  fun_induction unescape o s generalizing o' with
  | case1 o => rfl
  | case2 o c rest d found ih =>
    simp only [unescape, found]
    refine agree_except_map (ih fun i => ?_) fun x y agree => by simpa [Agree] using agree
    have shifted := same (1 + c.utf8Size + i)
    simpa [Nat.add_assoc] using shifted
  | case3 o c rest unknown =>
    have start := same 0
    simp only [Nat.add_zero] at start
    simp only [unescape, unknown, Agree, move_error]
    exact congrArg (fun i => Except.error (LiteralFault.unknownEscape i c)) start
  | case4 o c rest other ih =>
    rw [unescape.eq_3 o' c rest other]
    refine agree_except_map (ih fun i => ?_) fun x y agree => by simpa [Agree] using agree
    have shifted := same (c.utf8Size + i)
    simpa [Nat.add_assoc] using shifted

/-- What is made of a token that has places only in its own span. -/
theorem agree_located {o o' : Nat} (same : ∀ i, S.left (o + i) = S.right (o' + i)) (n : Nat) {x y : α}
    (agree : S.Agree x y) : S.Agree (⟨x, o, o + n⟩ : Located α) ⟨y, o', o' + n⟩ := by
  have start := same 0
  have stop := same n
  simp only [Nat.add_zero] at start
  simp only [Agree, move_located, move_span, start, stop]
  rw [agree]

theorem move_filterMap (g : Nat → Nat) (l : List (Option α)) :
    move g (l.filterMap id) = (move g l).filterMap id := by
  induction l with
  | nil => rfl
  | cons x l ih =>
    cases x with
    | none => exact ih
    | some y => exact congrArg (move g y :: ·) ih

theorem OfScripts.lineBreaks (words : S.OfScripts) : S.Carries Rule.lineBreaks :=
  .many (.plain words.lineBreak) lineBreak_consumes

theorem OfScripts.ofLines (words : S.OfScripts) : S.OfLines where
  word bare := words.solid bare.solid
  string := words.string
  lines {c d} near := by
    obtain ⟨m, v, found, _, next⟩ := accept?_lineBreaks c
    obtain ⟨n, w, found', _, next'⟩ := accept?_lineBreaks d
    rw [← next, ← next']
    rcases words.lineBreaks (S.skip near) with ⟨refused, _⟩ | ⟨m', n', accepted, accepted', near', _⟩
    · rw [found] at refused
      cases refused
    · cases found.symm.trans accepted
      cases found'.symm.trans accepted'
      exact S.skip near'

namespace OfLines

variable (words : S.OfLines)

include words

theorem mark {m : String} (plain : m.toList.all fun c => !isBoundary c && c != '"') : S.Carries (Rule.mark m) :=
  .plain (words.word (.text plain))

theorem keyword (k : Keyword) : S.Carries (Rule.keyword k) :=
  .token (words.word (Word.bare_keyword k)) fun _ _ => rfl

theorem name {p : Phrase} {t : Token} (bare : t.Bare) : S.Carries (Rule.name p t) := by
  refine .token (words.word bare) fun {o o'} x same => ?_
  have located : S.Agree (⟨String.ofList x, o, o + byteLength x⟩ : Located String)
      ⟨String.ofList x, o', o' + byteLength x⟩ := agree_located same _ rfl
  exact congrArg Except.ok located

omit [Placed α] in
/-- What follows blank lines is carried where no blanks stand before them. -/
theorem map_seq_lineBreaks {q : Rule α} {f : α → β} (inner : S.Carries (.map f q)) :
    S.CarriesSettled (.map (fun x => f x.2) (Rule.seq lineBreaks q)) := by
  intro c d near settled settled'
  rw [Alignment.Matched, accept?_map_seq_lineBreaks settled, accept?_map_seq_lineBreaks settled']
  exact inner (words.lines near)

theorem listed {first next : Rule α} (inner : S.Carries first) (innerNext : S.CarriesSettled next) :
    S.Carries (Rule.listed first next) := by
  have comma : S.Carries (Rule.mark ",") := words.mark (by decide)
  have more : S.Carries (.many (.map Prod.snd (Rule.seq (Rule.mark ",") next))) :=
    .many (.map (fun _ _ => rfl) (comma.seq_settled innerNext)) (.map (.seq (mark_consumes (by decide))))
  refine .map (fun g x => ?_) (.optional (.seq inner (.seq more (.optional comma))))
  cases x <;> rfl

theorem block {item : Rule α} (inner : S.Carries item) : S.Carries (Rule.block item) := by
  have next : S.CarriesSettled (.map Prod.snd (Rule.seq lineBreaks item)) :=
    words.map_seq_lineBreaks (f := id) (.map (fun _ _ => rfl) inner)
  have close : S.CarriesSettled (.map (fun _ => ()) (Rule.seq lineBreaks (Rule.mark "\x7d"))) :=
    words.map_seq_lineBreaks (f := fun _ => ()) (.map (fun _ _ => rfl) (words.mark (by decide)))
  have items : S.Carries (.map Prod.fst
      (Rule.seq (Rule.listed item (.map Prod.snd (Rule.seq lineBreaks item))) (Rule.seq lineBreaks (Rule.mark "\x7d")))) :=
    .map_seq (h := Prod.fst) (words.listed inner next) close (fun _ _ => rfl) fun _ _ => rfl
  exact .map_seq (h := Prod.snd) (words.mark (by decide)) (words.map_seq_lineBreaks items) (fun _ _ => rfl)
    fun _ _ => rfl

theorem symbol : S.Carries Rule.symbol :=
  carries_phrase (.seq (words.mark (by decide)) (words.name Word.bare_symbolName)) fun _ _ => rfl

theorem accessorSymbol : S.Carries Rule.accessorSymbol :=
  .map (fun _ _ => rfl) (.phrase (.seq (words.mark (by decide)) (words.name Word.bare_accessorName)))

theorem strings : S.Carries Rule.string := by
  refine .token words.string fun {o o'} x same => ?_
  have content : S.Agree (unescape (o + 1) (x.drop 1).dropLast) (unescape (o' + 1) (x.drop 1).dropLast) :=
    agree_unescape (fun i => by simpa [Nat.add_assoc] using same (1 + i)) _
  refine agree_except_map ?_ fun a b agree => agree_located same _ agree
  refine agree_except_map content fun a b agree => ?_
  have chars : a = b := by simpa [Agree] using agree
  rw [chars]
  rfl

theorem integers : S.Carries (.token .integer Word.integer fun x =>
    (readInteger x).map (⟨Literal.int ·, x.span⟩) : Rule (Located Literal)) := by
  refine .token (words.word Word.bare_integer) fun {o o'} x same => ?_
  have text : S.Agree (⟨x, o, o + byteLength x⟩ : Located (List Char)) ⟨x, o', o' + byteLength x⟩ :=
    agree_located same _ rfl
  unfold readInteger
  dsimp only
  split
  · exact congrArg Except.ok (agree_located (α := Literal) same _ rfl)
  · exact congrArg (Except.error ∘ LiteralFault.integerOutOfRange) text

theorem floats : S.Carries (.token .float Word.float fun x =>
    .ok ⟨.float (readFloat x), x.span⟩ : Rule (Located Literal)) := by
  refine .token (words.word Word.bare_float) fun {o o'} x same => ?_
  exact congrArg Except.ok (agree_located (α := Literal) same _ rfl)

theorem literal : S.Carries Rule.literal := by
  have boolean := carries_phrase (S := S) (p := .boolean) (f := Literal.bool)
    (.choice (.map (f := fun _ => true) (fun _ _ => rfl) (words.keyword .trueWord))
      (.map (f := fun _ => false) (fun _ _ => rfl) (words.keyword .falseWord))) fun _ _ => rfl
  have nil := carries_phrase (S := S) (p := .nil) (words.keyword .nilWord) (f := fun _ => Literal.nil)
    fun _ _ => rfl
  have texts : S.Carries (.map (Located.map Literal.string) Rule.string) :=
    .map (Natural.located fun _ _ => rfl) words.strings
  have symbols : S.Carries (.map (Located.map Literal.symbol) Rule.symbol) :=
    .map (Natural.located fun _ _ => rfl) words.symbol
  exact carries_either (.choice words.floats (.choice words.integers (.choice texts (.choice symbols
    (.choice boolean nil)))))

theorem symbolList : S.Carries Rule.symbolList :=
  carries_either (.map (fun _ _ => rfl) (.seq (words.mark (by decide))
    (.seq (words.listed words.symbol words.symbol.settled) (words.mark (by decide)))))

theorem hashEntry : S.Carries Rule.hashEntry := by
  have texts : S.Carries (.map (Located.map KeyLiteral.string) Rule.string) :=
    .map (Natural.located fun _ _ => rfl) words.strings
  have symbols : S.Carries (.map (Located.map KeyLiteral.symbol) Rule.symbol) :=
    .map (Natural.located fun _ _ => rfl) words.symbol
  exact carries_either (.map (fun _ _ => rfl) (.seq (.choice texts symbols)
    (.seq (words.mark (by decide)) words.literal)))

theorem hash : S.Carries Rule.hash := .phrase (words.block words.hashEntry)

theorem descriptor : S.Carries Rule.descriptor :=
  carries_either (.map (fun _ _ => rfl) (.seq (words.keyword .metaWord) words.hash))

theorem attributeInit : S.Carries Rule.attributeInit :=
  carries_either (.map (fun _ _ => rfl) (.seq (words.name Word.bare_attributeName)
    (.seq (words.mark (by decide)) words.literal)))

theorem newObject : S.Carries Rule.newObject := by
  refine carries_either (.map (fun g x => ?_) (.seq (words.keyword .new) (.seq (words.name Word.bare_className)
    (.optional (carries_either (words.block words.attributeInit))))))
  obtain ⟨_, n, attributes⟩ := x
  cases attributes <;> rfl

theorem expression : S.Carries Rule.expression :=
  .phrase (.choice (.map (fun _ _ => rfl) words.hash) (.choice (.map (fun _ _ => rfl) words.descriptor)
    (.choice words.newObject (.map (fun _ _ => rfl) words.literal))))

theorem assignment : S.Carries Rule.assignment :=
  carries_phrase (.seq (words.name Word.bare_variableName) (.seq (words.mark (by decide)) words.expression))
    fun _ _ => rfl

theorem accessorKind : S.Carries Rule.accessorKind :=
  carries_either (.choice (.map (fun _ _ => rfl) (words.keyword .attrReader))
    (.choice (.map (fun _ _ => rfl) (words.keyword .attrWriter))
      (.map (fun _ _ => rfl) (words.keyword .attrAccessor))))

theorem accessorDeclaration : S.Carries Rule.accessorDeclaration := by
  have more : S.Carries (.many (.map Prod.snd (Rule.seq (Rule.mark ",") Rule.accessorSymbol))) :=
    .many (.map (fun _ _ => rfl) (.seq (words.mark (by decide)) words.accessorSymbol))
      (.map (.seq (mark_consumes (by decide))))
  exact carries_phrase (.seq words.accessorKind (.seq words.accessorSymbol more)) fun _ _ => rfl

/-- Blank lines stand between the declarations of a class, not as many in one text as in the other. -/
theorem classBody : S.CarriesSettled Rule.classBody := by
  intro c d near settled settled'
  -- the induction is on the text that is left, from declaration to declaration
  generalize bound : c.rest.length + 1 = l
  have short : c.rest.length < l := by omega
  clear bound
  induction l generalizing c d with
  | zero => omega
  | succ l ih =>
    have near' := words.lines near
    rw [Matched, accept?_classBody_skipLines (Nat.lt_succ_self _) settled,
      accept?_classBody_skipLines (Nat.lt_succ_self _) settled']
    have item : S.Carries (.map some Rule.accessorDeclaration) := .map (fun _ _ => rfl) words.accessorDeclaration
    rcases item near' with ⟨absent, absent'⟩ | ⟨m, n, found, found', after, agree⟩
    · rw [← accept?_classItem_skipLines] at absent absent'
      rw [accept?_classBody_of_none c.settled_skipLines absent, accept?_classBody_of_none d.settled_skipLines absent']
      exact Carries.map (fun _ _ => rfl) (words.mark (by decide)) near'
    · rw [← accept?_classItem_skipLines] at found found'
      rw [accept?_classBody_of_item c.settled_skipLines found, accept?_classBody_of_item d.settled_skipLines found']
      have shorter := (Grammar.accept?_reaches found).length_lt (classItem_consumes found)
      have lines := c.reaches_skipLines.suffix.length_le
      have blanks := m.next.reaches_skipBlanks.suffix.length_le
      rcases ih (S.skip after) m.next.settled_skipBlanks n.next.settled_skipBlanks (by omega) with
        ⟨refused, refused'⟩ | ⟨k, k', accepted, accepted', last, rest⟩
      · left
        rw [refused, refused']
        exact ⟨rfl, rfl⟩
      · right
        rw [accepted, accepted']
        refine ⟨_, _, rfl, rfl, last, Carries.agree_map (fun g x => ?_) (Carries.agree_pair agree rest)⟩
        obtain ⟨_ | x, l⟩ := x <;> rfl

theorem classDefinition : S.Carries Rule.classDefinition := by
  have opened : S.Carries (.map (fun x => x.2.1.filterMap id)
      (Rule.seq (Rule.mark "\x7b") (Rule.seq (.many Rule.classItem) (Rule.mark "\x7d")))) :=
    .map_seq (h := Prod.snd) (words.mark (by decide)) words.classBody (fun _ _ => rfl) fun _ _ => rfl
  have named : S.Carries (.map (fun x => (x.1, x.2.2.1.filterMap id)) (Rule.seq Rule.className
      (Rule.seq (Rule.mark "\x7b") (Rule.seq (.many Rule.classItem) (Rule.mark "\x7d"))))) :=
    .map_seq (h := id) (words.name Word.bare_className) opened.settled (fun _ _ => rfl) fun _ _ => rfl
  exact .map_phrase (.map_seq (h := fun x => Statement.defineClass x.2.1 x.2.2) (words.keyword .classWord) named.settled
    (fun _ _ => rfl) fun _ _ => rfl)

theorem setAttribute : S.Carries Rule.setAttribute :=
  carries_phrase (.seq (words.keyword .set) (.seq (words.name Word.bare_variableName)
    (.seq (words.name Word.bare_attributeName) (.seq (words.mark (by decide)) words.literal)))) fun _ _ => rfl

theorem freeze : S.Carries Rule.freeze :=
  carries_phrase (.seq (words.keyword .freeze) (words.name Word.bare_variableName)) fun _ _ => rfl

theorem keyQuery (p : Phrase) (k : Keyword) {f : Name → Located Literal → Query}
    (natural : ∀ g object key, move g (f object key) = f (move g object) (move g key)) :
    S.Carries (Rule.keyQuery p k f) :=
  carries_either (.map (fun g x => natural g x.2.2.1 x.2.2.2.2.1) (.seq (words.keyword k)
    (.seq (words.mark (by decide)) (.seq (words.name Word.bare_variableName)
      (.seq (words.mark (by decide)) (.seq words.literal (words.mark (by decide))))))))

theorem keysQuery : S.Carries Rule.keysQuery := by
  refine carries_either (.map (fun g x => ?_) (.seq (words.keyword .keys) (.seq (words.mark (by decide))
    (.seq (words.name Word.bare_variableName) (.seq (.optional (.seq (words.mark (by decide))
      (words.keyword .internal))) (words.mark (by decide)))))))
  obtain ⟨_, _, object, internal, _⟩ := x
  cases internal <;> rfl

theorem query : S.Carries Rule.query :=
  .phrase (.choice (words.keyQuery _ _ fun _ _ _ => rfl) (.choice words.keysQuery
    (words.keyQuery _ _ fun _ _ _ => rfl)))

theorem matcher : S.Carries Rule.matcher :=
  carries_either (.choice
    (carries_either (.map (fun _ _ => rfl) (.seq (words.mark (by decide))
      (.choice (.map (fun _ _ => rfl) words.symbolList) (.map (fun _ _ => rfl) words.literal)))))
    (.choice (carries_either (.map (fun _ _ => rfl) (.seq (words.keyword .includes) words.symbol)))
      (.choice (carries_either (.map (fun _ _ => rfl) (.seq (words.keyword .excludes) words.symbol)))
        (carries_either (.map (fun _ _ => rfl) (words.keyword .isEmpty))))))

theorem expectation : S.Carries Rule.expectation :=
  carries_phrase (.seq (words.keyword .expect) (.seq words.query words.matcher)) fun _ _ => rfl

/-- A statement is read alike in both texts. -/
theorem statement : S.Carries Rule.statement :=
  .choice words.classDefinition (.choice words.setAttribute (.choice words.freeze (.choice words.expectation
    (.choice (.map (fun _ _ => rfl) words.query) words.assignment))))

end OfLines

end KeyIntrospection.Alignment
