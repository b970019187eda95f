import KeyIntrospection.Proofs.Script.Lead

/-!
A statement is read on its own lines: whatever follows the line on which it ends, it is read in the same
way. Only a statement that ends with an optional block or an expression needs to know that its line
ends there; all other rules are local without that.
-/

namespace KeyIntrospection

namespace Token

theorem take?_lineBreak_eq_none_iff {s : List Char} :
    lineBreak.take? s = none ↔ ∀ c ∈ s.head?, isLineBreak c = false := by
  rcases s with _ | ⟨c, s⟩
  · simp [lineBreak]
  · by_cases feed : c = '\n'
    · subst feed
      simp [lineBreak, isLineBreak]
    · by_cases carriage : c = '\r'
      · subst carriage
        rcases s with _ | ⟨d, s⟩
        · simp [lineBreak, isLineBreak]
        · by_cases feed' : d = '\n'
          · subst feed'
            simp [lineBreak, isLineBreak]
          · simp [lineBreak, isLineBreak, feed']
      · simp [lineBreak, isLineBreak, feed, carriage]

theorem take?_lineBreak_append {s e x r : List Char} (takes : lineBreak.take? (s ++ e) = some (x, r))
    (longer : e.length < r.length) :
    ∃ t, r = t ++ e ∧ ∀ e', lineBreak.take? (s ++ e') = some (x, t ++ e') := by
  have whole := congrArg List.length (lineBreak.append_eq takes)
  simp only [List.length_append] at whole
  rcases s with _ | ⟨c, s⟩
  · simp only [List.length_nil] at whole
    omega
  · by_cases feed : c = '\n'
    · subst feed
      simp only [lineBreak, List.cons_append, Option.some.injEq, Prod.mk.injEq] at takes
      obtain ⟨rfl, rfl⟩ := takes
      exact ⟨s, rfl, fun e' => by simp [lineBreak]⟩
    · by_cases carriage : c = '\r'
      · subst carriage
        rcases s with _ | ⟨d, s⟩
        · simp only [List.cons_append, List.nil_append, List.length_cons, List.length_nil] at whole takes
          have solid : x ≠ [] := by
            rintro rfl
            unfold lineBreak at takes
            dsimp only at takes
            split at takes <;> simp_all
          have positive := List.length_pos_iff.mpr solid
          omega
        · by_cases feed' : d = '\n'
          · subst feed'
            simp only [lineBreak, List.cons_append, Option.some.injEq, Prod.mk.injEq] at takes
            obtain ⟨rfl, rfl⟩ := takes
            exact ⟨s, rfl, fun e' => by simp [lineBreak]⟩
          · have alone (e' : List Char) :
                lineBreak.take? ('\r' :: d :: s ++ e') = some (['\r'], d :: s ++ e') := by
              simp [lineBreak, feed']
            rw [alone, Option.some.injEq, Prod.mk.injEq] at takes
            obtain ⟨rfl, rfl⟩ := takes
            exact ⟨d :: s, rfl, alone⟩
      · simp [lineBreak, feed, carriage] at takes

end Token

namespace Script.Rule

open Grammar

variable {α β : Type}

theorem declines_of_solid {name : Phrase} {t : Token} {read : Located (List Char) → Except LiteralFault α}
    (solid : t.Solid) (q : Rule β) : (Grammar.token name t read : Rule α).Declines q := by
  intro c g e e' k v ending ending' _ refused _ _ _
  refine .token ?_ c.offset_le_stop
  have absent : t.take? (c.rest ++ e) = none := by
    simpa [accept?, Token.read?, Cursor.followedBy] using refused
  rw [solid ending.atBoundary, Option.map_eq_none_iff] at absent
  rw [Cursor.followedBy, solid ending'.atBoundary, absent]
  rfl

/-- A line break is on the line of what is read after it. -/
theorem lineBreak_before {q : Rule β} (consumes : q.Consumes) :
    q.LocalBefore (.plain .lineBreak : Rule Unit) := by
  intro c g e e' m k ending ending' settled accepted follows inside
  obtain ⟨⟨x, next⟩, takes, rfl⟩ := Option.map_eq_some_iff.mp accepted
  obtain ⟨⟨taken, rest⟩, found, same⟩ := Option.map_eq_some_iff.mp takes
  simp only [Prod.mk.injEq] at same
  obtain ⟨rfl, rfl⟩ := same
  have longer : e.length < rest.length := by
    have shorter := (accept?_reaches follows).length_lt (consumes follows)
    have suffix := (Cursor.reaches_skipBlanks (c.followedBy e |>.advance taken rest)).suffix.length_le
    rw [inside] at shorter
    simp only [Cursor.followedBy, Cursor.advance, List.length_append] at shorter suffix
    omega
  obtain ⟨t, rfl, again⟩ := Token.take?_lineBreak_append found longer
  have split : taken ++ t = c.rest := by
    have whole := Token.append_eq _ found
    simpa [Cursor.followedBy, ← List.append_assoc] using whole
  refine ⟨c.advance taken t, rfl, Cursor.reaches_advance split, fun a => ⟨a, ?_, Nat.le_max_left _ _⟩⟩
  simp only [attempt, Token.read?, Cursor.followedBy, again, Option.map_some]
  rfl

/-- Where no line break stands before what is read on a line, none stands there on another line. -/
theorem lineBreak_declines {q : Rule β} (consumes : q.Consumes) :
    (Grammar.plain .lineBreak : Rule Unit).Declines q := by
  intro c g e e' k v ending ending' settled refused follows inside _
  have nonempty : c.rest ≠ [] := by
    intro empty
    have shorter := (accept?_reaches follows).length_lt (consumes follows)
    rw [inside] at shorter
    simp only [Cursor.followedBy, empty, List.nil_append, List.length_append] at shorter
    omega
  refine .plain (Token.take?_lineBreak_eq_none_iff.mpr ?_)
  have absent : Token.lineBreak.take? (c.rest ++ e) = none := by
    simpa [accept?, Token.read?, Cursor.followedBy] using refused
  obtain ⟨x, s, rest⟩ := List.exists_cons_of_ne_nil nonempty
  rw [Token.take?_lineBreak_eq_none_iff] at absent
  simpa [Cursor.followedBy, rest] using absent

theorem lineBreak_consumes : (Grammar.plain .lineBreak : Rule Unit).Consumes := by
  refine Consumes.plain fun {s taken rest} found => ?_
  rintro rfl
  unfold Token.lineBreak at found
  dsimp only at found
  split at found <;> simp at found

theorem lineBreaks_before {q : Rule β} (after : q.Local) (consumes : q.Consumes) :
    q.LocalBefore lineBreaks :=
  LocalBefore.many (lineBreak_before (Consumes.seq_right consumes)) after (lineBreak_declines consumes) lineBreak_consumes

theorem local_mark {m : String} (inside : m.toList.all (!isBoundary ·)) : (mark m).Local :=
  Local.plain (Token.Solid.exactly inside).locally

theorem mark_consumes {m : String} (solid : m.toList ≠ []) : (mark m).Consumes := by
  refine Consumes.plain fun {s taken rest} found => ?_
  simp only [Token.text, Token.exactly, Option.ite_none_right_eq_some, Option.some.injEq,
    Prod.mk.injEq] at found
  rw [← found.2.1]
  exact solid

theorem local_keyword (k : Keyword) : (keyword k).Local := Local.token (Word.solid_keyword k).locally

theorem local_name {p : Phrase} {t : Token} (solid : t.Solid) : (name p t).Local := Local.token solid.locally

theorem local_variableName : variableName.Local := local_name Word.solid_variableName

theorem local_className : className.Local := local_name Word.solid_className

theorem local_attributeName : attributeName.Local := local_name Word.solid_attributeName

/-- A name that stands directly after what was read. -/
theorem local_seq_name {p : Rule α} (first : p.Local) {n : Phrase} {t : Token} (solid : t.Solid) :
    (Grammar.seq .nothing p (name n t)).Local := by
  intro c g e e' m k ending ending' settled accepted follows inside
  obtain ⟨m, acceptedFirst, accepted⟩ := Option.bind_eq_some_iff.mp accepted
  obtain ⟨n, acceptedSecond, rfl⟩ := Option.map_eq_some_iff.mp accepted
  obtain ⟨⟨x, next⟩, takes, rfl⟩ := Option.map_eq_some_iff.mp acceptedSecond
  have reach := next.reaches_skipBlanks.trans (accept?_reaches follows)
  rw [inside] at reach
  obtain ⟨d, rfl, _⟩ := reach.exists_followedBy
  obtain ⟨h, insideFirst, _⟩ := (accept?_reaches acceptedSecond).exists_followedBy
  rw [Gap.skip] at insideFirst takes
  rw [insideFirst] at takes
  have steady := first.steadyAt ending ending' settled acceptedFirst insideFirst
  have again := read?_followedBy solid.locally ending ending' takes
  have reachFirst := accept?_reaches acceptedFirst
  rw [insideFirst] at reachFirst
  have reachSecond := Token.read?_reaches takes
  refine ⟨d, rfl, (Cursor.reaches_followedBy.mp reachFirst).trans (Cursor.reaches_followedBy.mp reachSecond),
    fun a => ?_⟩
  obtain ⟨b, againFirst, limit⟩ := steady a
  refine ⟨b, ?_, limit⟩
  rw [attempt, againFirst]
  simp only [Gap.skip, name, attempt, again]
  rfl

theorem listed_before {first next : Rule α} {q : Rule β} (localFirst : first.Local) (localNext : next.Local)
    (after : q.Local) (start : first.Apart q) (more : next.Apart q) (comma : (mark ",").Apart q) :
    q.LocalBefore (listed first next) := by
  have mark : (Rule.mark ",").Local := local_mark (by decide)
  have localEnd : (seq (.optional (Rule.mark ",")) q).Local :=
    Local.seq (LocalBefore.optional (mark.before q) after comma.declines) after
  have item : (Grammar.map Prod.snd (seq (Rule.mark ",") next)).Local :=
    Local.map (Local.seq (mark.before next) localNext)
  have items : (seq (.optional (Rule.mark ",")) q).LocalBefore
      (.many (.map Prod.snd (seq (Rule.mark ",") next))) :=
    LocalBefore.many (item.before _) localEnd (Apart.map (Apart.plain_seq_optional more)).declines
      (Consumes.map (Consumes.seq (mark_consumes (by decide))))
  refine LocalBefore.map (LocalBefore.optional (LocalBefore.seq (localFirst.before _) ?_) after
    (Apart.seq start).declines)
  exact LocalBefore.seq items (LocalBefore.optional (mark.before q) after comma.declines)

theorem lineBreaks_seq_begins {q : Rule β} {head : List Char → Prop} (begins : q.Begins head) :
    (seq lineBreaks q).Begins fun s => (lead s).isLineBreak ∨ head s :=
  lineBreak_begins.many_plain_seq begins

theorem closeBrace_begins : (mark "\x7d").Begins fun s => lead s = .sign '\x7d' :=
  mark_begins (by decide) (by decide)

theorem comma_begins : (mark ",").Begins fun s => lead s = .sign ',' := mark_begins (by decide) (by decide)

theorem local_block {item : Rule α} (inner : item.Local) (consumes : item.Consumes) {head : List Char → Prop}
    (begins : item.Begins head)
    (free : ∀ s, head s → lead s ≠ .sign '\x7d' ∧ (lead s).isLineBreak = false) : (block item).Local := by
  have brace : (mark "\x7d").Local := local_mark (by decide)
  have braceConsumes : (mark "\x7d").Consumes := mark_consumes (by decide)
  have close : (seq lineBreaks (mark "\x7d")).Local :=
    Local.seq (lineBreaks_before brace braceConsumes) brace
  have next : (Grammar.map Prod.snd (seq lineBreaks item)).Local :=
    Local.map (Local.seq (lineBreaks_before inner consumes) inner)
  have apart : item.Apart (mark "\x7d") :=
    begins.apart closeBrace_begins fun s present => (free _ present).1
  have start : item.Apart (seq lineBreaks (mark "\x7d")) := by
    refine begins.apart (lineBreaks_seq_begins closeBrace_begins) ?_
    rintro s present (lineBreak | same)
    · rw [(free _ present).2] at lineBreak
      cases lineBreak
    · exact (free _ present).1 same
  have comma : (mark ",").Apart (seq lineBreaks (mark "\x7d")) := by
    refine comma_begins.apart (lineBreaks_seq_begins closeBrace_begins) fun s same => ?_
    rw [same]
    decide
  have list : (seq lineBreaks (mark "\x7d")).LocalBefore
      (listed item (.map Prod.snd (seq lineBreaks item))) :=
    listed_before inner next close start (Apart.map (Apart.many_plain_seq apart)) comma
  have body : (seq (listed item (.map Prod.snd (seq lineBreaks item))) (seq lineBreaks (mark "\x7d"))).Local :=
    Local.seq list close
  have opening : (mark "\x7b").Local := local_mark (by decide)
  refine Local.map (Local.seq (opening.before _) (Local.seq (lineBreaks_before body ?_) body))
  exact Consumes.seq_right (Consumes.seq_right braceConsumes)

theorem local_symbol : symbol.Local :=
  .map (.phrase (local_seq_name (local_mark (by decide)) Word.solid_symbolName))

theorem local_accessorSymbol : accessorSymbol.Local :=
  .map (.phrase (local_seq_name (local_mark (by decide)) Word.solid_accessorName))

theorem local_string : string.Local := .token Word.local_string

theorem before_choice {p p' : Rule α} {q : Rule β} (first : q.LocalBefore p) (second : q.LocalBefore p')
    (apart : p.Apart p') : q.LocalBefore (.choice p p') := .choice first second apart.declines

theorem local_choice {p p' : Rule α} (first : p.Local) (second : p'.Local) (apart : p.Apart p') :
    (Grammar.choice p p').Local := before_choice first second apart

theorem local_literal : literal.Local := by
  have boolean : (phrase .boolean (.choice (.map (fun _ => true) (keyword .trueWord))
      (.map (fun _ => false) (keyword .falseWord))) Literal.bool).Local := by
    refine .map (.phrase (local_choice (local_keyword _).map (local_keyword _).map ?_))
    exact apart_of_ne (keyword_begins _).map (keyword_begins _).map (by decide)
  have nil : (phrase .nil (keyword .nilWord) fun _ => Literal.nil).Local :=
    .map (.phrase (local_keyword _))
  have signs {α : Type} {p : Rule α} {c : Char} (begins : p.Begins fun s => lead s = .sign c) :
      p.Apart (.choice (phrase .boolean (.choice (.map (fun _ => true) (keyword .trueWord))
        (.map (fun _ => false) (keyword .falseWord))) Literal.bool)
        (phrase .nil (keyword .nilWord) fun _ => Literal.nil)) := by
    refine .choice (begins.apart boolean_begins fun s here other => ?_)
      (apart_of_ne begins nil_begins Lead.noConfusion)
    rw [here] at other
    rcases other with other | other <;> exact Lead.noConfusion other
  refine .map (.phrase (.choice (.token Word.solid_float.locally) ?_ (declines_of_solid Word.solid_float _)))
  refine .choice (.token Word.solid_integer.locally) ?_ (declines_of_solid Word.solid_integer _)
  refine local_choice local_string.map ?_
    (.choice (apart_of_ne string_begins.map symbol_begins.map (by decide)) (signs string_begins.map))
  exact local_choice local_symbol.map (local_choice boolean nil boolean_apart_nil) (signs symbol_begins.map)

theorem local_symbolList : symbolList.Local := by
  have close : (mark "]").Local := local_mark (by decide)
  have closeBegins : (mark "]").Begins fun s => lead s = .sign ']' := mark_begins (by decide) (by decide)
  have apart : symbol.Apart (mark "]") := apart_of_ne symbol_begins closeBegins (by decide)
  have comma : (mark ",").Apart (mark "]") := apart_of_ne comma_begins closeBegins (by decide)
  have opening : (mark "[").Local := local_mark (by decide)
  exact .map (.phrase (.map (.seq (opening.before _)
    (.seq (listed_before local_symbol local_symbol close apart apart comma) close))))

theorem string_consumes : string.Consumes := by
  refine Consumes.token fun {s taken rest} found => ?_
  obtain ⟨body, _, rfl, _⟩ := Word.take?_string_eq_some_iff.mp found
  exact List.cons_ne_nil _ _

theorem symbol_consumes : symbol.Consumes := .map (.phrase (.seq (mark_consumes (by decide))))

theorem local_hashEntry : hashEntry.Local := by
  have key : (Grammar.choice (.map (Located.map KeyLiteral.string) string)
      (.map (Located.map KeyLiteral.symbol) symbol)).Local := by
    refine local_choice local_string.map local_symbol.map ?_
    exact apart_of_ne string_begins.map symbol_begins.map (by decide)
  have arrow : (mark "=>").Local := local_mark (by decide)
  exact .map (.phrase (.map (.seq (key.before _) (.seq (arrow.before _) local_literal))))

theorem hashEntry_consumes : hashEntry.Consumes :=
  .map (.phrase (.map (.seq (.choice string_consumes.map symbol_consumes.map))))

theorem local_hash : hash.Local := by
  refine .phrase (local_block local_hashEntry hashEntry_consumes hashEntry_begins fun s key => ?_)
  have either : lead s = .sign '"' ∨ lead s = .sign ':' := by simpa [Lead.isKey] using key
  rcases either with quote | colon
  · rw [quote]
    decide
  · rw [colon]
    decide

theorem local_descriptor : descriptor.Local :=
  .map (.phrase (.map (.seq ((local_keyword _).before _) local_hash)))

theorem attributeName_consumes : attributeName.Consumes := by
  refine Consumes.token fun {s taken rest} found => ?_
  rintro rfl
  simp only [Word.attributeName, Token.append, Token.text, Token.exactly, Option.bind_eq_some_iff,
    Option.map_eq_some_iff, Prod.exists, Prod.mk.injEq, List.append_eq_nil_iff,
    Option.ite_none_right_eq_some, Option.some.injEq] at found
  obtain ⟨_, _, ⟨_, same, _⟩, _, _, _, ⟨empty, _⟩, _⟩ := found
  rw [← same] at empty
  exact absurd empty (by decide)

theorem local_attributeInit : attributeInit.Local := by
  have equals : (mark "=").Local := local_mark (by decide)
  exact .map (.phrase (.map (.seq (local_attributeName.before _) (.seq (equals.before _) local_literal))))

theorem attributeInit_consumes : attributeInit.Consumes := .map (.phrase (.map (.seq attributeName_consumes)))

theorem atLineEnd_iff {s : List Char} : AtLineEnd s ↔ s.head?.all isLineBreak := by
  cases s <;> simp [AtLineEnd]

/-- The end of a line, which is not taken. -/
def lineEnd : Rule Unit := .plain (.lookahead fun s => s.head?.all isLineBreak)

theorem accept?_lineEnd {c : Cursor} (ending : AtLineEnd c.rest) : lineEnd.accept? c = some ⟨.ok (), c⟩ := by
  have wanted := atLineEnd_iff.mp ending
  simp [lineEnd, accept?, Token.read?, Token.lookahead, wanted, Cursor.advance, byteLength]

theorem local_lineEnd : lineEnd.Local := by
  exact .plain (Token.local_lookahead (fun ending => atLineEnd_iff.mp ending) fun c s t => id)

theorem lineEnd_begins : lineEnd.Begins fun s => (lead s).isLineEnd := by
  refine Begins.plain.mono fun s found => ?_
  simp only [Token.lookahead] at found
  split at found
  · next ending =>
    rcases s with _ | ⟨c, s⟩
    · rfl
    · have lineBreak : isLineBreak c := by simpa using ending
      rcases isLineBreak_iff.mp lineBreak with rfl | rfl
      · rw [lead_cons_of_not_isPart (by decide)]
        decide
      · rw [lead_cons_of_not_isPart (by decide)]
        decide
  · cases found

theorem newObject_before_lineEnd : lineEnd.LocalBefore newObject := by
  have attributes : (either .attributeBlock (block attributeInit)).Local := by
    refine .map (.phrase (local_block local_attributeInit attributeInit_consumes attributeInit_begins
      fun s sign => ?_))
    rw [sign]
    decide
  have apart : (either .attributeBlock (block attributeInit)).Apart lineEnd := by
    exact apart_of_kind (block_begins attributeInit).phrase.map lineEnd_begins (by decide)
  exact .map (.phrase (.map (.seq ((local_keyword _).before _) (.seq (local_className.before _)
    (.optional (attributes.before _) local_lineEnd apart.declines)))))

theorem expression_before_lineEnd : lineEnd.LocalBefore expression := by
  refine .phrase (before_choice (local_hash.map.before _) (before_choice (local_descriptor.map.before _)
    (before_choice newObject_before_lineEnd (local_literal.map.before _) ?_) (.choice ?_ ?_)) (.choice ?_ (.choice ?_ ?_)))
  · exact apart_of_kind newObject_begins literal_begins.map (by decide)
  · exact apart_of_ne descriptor_begins.map newObject_begins (by decide)
  · exact apart_of_kind descriptor_begins.map literal_begins.map (by decide)
  · exact apart_of_ne hash_begins.map descriptor_begins.map (by decide)
  · exact apart_of_ne hash_begins.map newObject_begins (by decide)
  · exact apart_of_kind hash_begins.map literal_begins.map (by decide)

theorem assignment_before_lineEnd : lineEnd.LocalBefore assignment := by
  have equals : (mark "=").Local := local_mark (by decide)
  exact .map (.phrase (.seq (local_variableName.before _) (.seq (equals.before _) expression_before_lineEnd)))

/-- Nothing, where no comma stands. -/
def noComma : Rule Unit := .plain (.lookahead fun s => s.head? != some ',')

theorem local_noComma : noComma.Local := by
  refine .plain (Token.local_lookahead (fun {e} ending => ?_) fun c s t => id)
  rcases e with _ | ⟨c, e⟩
  · rfl
  · have lineBreak := ending c rfl
    simp only [List.head?_cons, bne_iff_ne, ne_eq, Option.some.injEq]
    rintro rfl
    cases lineBreak

theorem noComma_begins : noComma.Begins fun s => s.head? ≠ some ',' := by
  refine Begins.plain.mono fun s found => ?_
  simp only [Token.lookahead] at found
  split at found
  · next other => simpa using other
  · cases found

theorem accept?_noComma {c : Cursor} (free : c.rest.head? ≠ some ',') :
    noComma.accept? c = some ⟨.ok (), c⟩ := by
  simp [noComma, accept?, Token.read?, Token.lookahead, free, Cursor.advance, byteLength]

theorem head?_of_lead {s : List Char} {c : Char} (sign : lead s = .sign c) : s.head? = some c := by
  rcases s with _ | ⟨d, s⟩
  · cases sign
  · by_cases part : Word.isPart d
    · rw [lead_cons_of_isPart part] at sign
      cases sign
    · rw [lead_cons_of_not_isPart (by simpa using part)] at sign
      cases sign
      rfl

theorem local_accessorKind : accessorKind.Local := by
  have apart {j k : Keyword} {f g : Unit → AccessorKind} (different : Lead.keyword j ≠ .keyword k) :
      (Grammar.map f (keyword j)).Apart (Grammar.map g (keyword k)) :=
    apart_of_ne (keyword_begins j).map (keyword_begins k).map different
  exact .map (.phrase (local_choice (local_keyword _).map (local_choice (local_keyword _).map (local_keyword _).map
    (apart (by decide))) (.choice (apart (by decide)) (apart (by decide)))))

theorem keyword_consumes (k : Keyword) : (keyword k).Consumes := by
  refine Consumes.token fun {s taken rest} found => ?_
  rw [(Word.take?_keyword_eq_some_iff.mp found).2.1]
  cases k <;> decide

theorem accessorDeclaration_before_noComma : noComma.LocalBefore accessorDeclaration := by
  have comma : (mark ",").Local := local_mark (by decide)
  have item : (Grammar.map Prod.snd (seq (mark ",") accessorSymbol)).Local :=
    .map (.seq (comma.before _) local_accessorSymbol)
  have apart : (Grammar.map Prod.snd (seq (mark ",") accessorSymbol)).Apart noComma :=
    comma_begins.seq.map.apart noComma_begins fun s present free => free (head?_of_lead present)
  have items : noComma.LocalBefore (.many (.map Prod.snd (seq (mark ",") accessorSymbol))) :=
    .many (item.before _) local_noComma apart.declines
      (.map (.seq (mark_consumes (by decide))))
  exact .map (.phrase (.seq (local_accessorKind.before _) (.seq (local_accessorSymbol.before _) items)))

theorem accessorKind_consumes : accessorKind.Consumes :=
  .map (.phrase (.choice (keyword_consumes _).map (.choice (keyword_consumes _).map (keyword_consumes _).map)))

theorem accessorDeclaration_consumes : accessorDeclaration.Consumes := .map (.phrase accessorKind_consumes.seq)

/-- Of a class body, a line break or a declaration. -/
def classItem : Rule (Option (Located AccessorDeclaration)) :=
  .choice (.map (fun _ => none) (.plain .lineBreak)) (.map some accessorDeclaration)

theorem classItem_begins : classItem.Begins fun s => (lead s).isLineBreak ∨ (lead s).isAccessorKind :=
  lineBreak_begins.map.choice accessorDeclaration_begins.map

theorem local_classItems : (seq (.many classItem) (mark "\x7d")).Local := by
  have close : (mark "\x7d").Local := local_mark (by decide)
  have closeConsumes : (mark "\x7d").Consumes := mark_consumes (by decide)
  have free : (seq (.many classItem) (mark "\x7d")).Extends noComma := by
    intro c k settled accepted
    refine ⟨_, accept?_noComma fun comma => ?_, accept?_reaches accepted⟩
    have sign : lead c.rest = .sign ',' := by
      obtain ⟨s, rest⟩ := List.head?_eq_some_iff.mp comma
      rw [rest]
      exact lead_cons_of_not_isPart (by decide)
    have begins := classItem_begins.of_accept?_many_seq closeBrace_begins settled accepted
    rw [sign] at begins
    exact absurd begins (by decide)
  have declaration : (seq (.many classItem) (mark "\x7d")).LocalBefore accessorDeclaration :=
    accessorDeclaration_before_noComma.of_extends free
  have item : (seq (.many classItem) (mark "\x7d")).LocalBefore classItem := by
    exact before_choice (lineBreak_before (.seq_right closeConsumes)).map declaration.map
      lineBreak_apart_accessorDeclaration
  refine .seq (.many item close (Begins.apart classItem_begins closeBrace_begins fun s found brace => ?_).declines
    (.choice lineBreak_consumes.map accessorDeclaration_consumes.map)) close
  rw [brace] at found
  exact absurd found (by decide)

theorem local_classDefinition : classDefinition.Local := by
  have opening : (mark "\x7b").Local := local_mark (by decide)
  exact .map (.phrase (.seq ((local_keyword _).before _) (.seq (local_className.before _)
    (.seq (opening.before _) local_classItems))))

theorem local_setAttribute : setAttribute.Local := by
  have equals : (mark "=").Local := local_mark (by decide)
  exact .map (.phrase (.seq ((local_keyword _).before _) (.seq (local_variableName.before _)
    (.seq (local_attributeName.before _) (.seq (equals.before _) local_literal)))))

theorem local_freeze : freeze.Local :=
  .map (.phrase (.seq ((local_keyword _).before _) local_variableName))

theorem local_keyQuery (p : Phrase) (k : Keyword) (f : Name → Located Literal → Query) :
    (keyQuery p k f).Local := by
  have opening : (mark "(").Local := local_mark (by decide)
  have comma : (mark ",").Local := local_mark (by decide)
  have close : (mark ")").Local := local_mark (by decide)
  exact .map (.phrase (.map (.seq ((local_keyword _).before _) (.seq (opening.before _)
    (.seq (local_variableName.before _) (.seq (comma.before _) (.seq (local_literal.before _) close)))))))

theorem local_keysQuery : keysQuery.Local := by
  have opening : (mark "(").Local := local_mark (by decide)
  have comma : (mark ",").Local := local_mark (by decide)
  have close : (mark ")").Local := local_mark (by decide)
  have internal : (seq (mark ",") (keyword .internal)).Local := .seq (comma.before _) (local_keyword _)
  have closeBegins : (mark ")").Begins fun s => lead s = .sign ')' := mark_begins (by decide) (by decide)
  have apart : (seq (mark ",") (keyword .internal)).Apart (mark ")") := by
    exact apart_of_ne comma_begins.seq closeBegins (by decide)
  exact .map (.phrase (.map (.seq ((local_keyword _).before _) (.seq (opening.before _)
    (.seq (local_variableName.before _) (.seq (.optional (internal.before _) close apart.declines) close))))))

theorem local_query : query.Local := by
  refine .phrase (local_choice (local_keyQuery _ _ _) (local_choice local_keysQuery (local_keyQuery _ _ _) ?_)
    (.choice ?_ ?_))
  · exact apart_of_ne keysQuery_begins (keyQuery_begins _ _ _) (by decide)
  · exact apart_of_ne (keyQuery_begins _ _ _) keysQuery_begins (by decide)
  · exact apart_of_ne (keyQuery_begins _ _ _) (keyQuery_begins _ _ _) (by decide)

theorem local_equals : (either .equals (.map Prod.snd (seq (mark "==")
    (.choice (.map Matcher.equalsSymbols symbolList) (.map Matcher.equals literal))))).Local := by
  have equals : (mark "==").Local := local_mark (by decide)
  refine .map (.phrase (.map (.seq (equals.before _) (local_choice local_symbolList.map local_literal.map ?_))))
  exact apart_of_kind symbolList_begins.map literal_begins.map (by decide)

theorem local_matcher : matcher.Local := by
  have equalsBegins : (either .equals (.map Prod.snd (seq (mark "==")
      (.choice (.map Matcher.equalsSymbols symbolList) (.map Matcher.equals literal))))).Begins
        fun s => lead s = .sign '=' := (mark_begins (by decide) (by decide)).seq.map.phrase.map
  have named {p : Phrase} {k : Keyword} {f : Unit × Name → Matcher} :
      (either p (.map f (seq (keyword k) symbol))).Local :=
    .map (.phrase (.map (.seq ((local_keyword k).before _) local_symbol)))
  have namedBegins {p : Phrase} {k : Keyword} {f : Unit × Name → Matcher} :
      (either p (.map f (seq (keyword k) symbol))).Begins fun s => lead s = .keyword k :=
    (keyword_begins k).seq.map.phrase.map
  have emptyBegins : (either .isEmpty (.map (fun _ => Matcher.isEmpty) (keyword .isEmpty))).Begins
      fun s => lead s = .keyword .isEmpty := (keyword_begins _).map.phrase.map
  have empty : (either .isEmpty (.map (fun _ => Matcher.isEmpty) (keyword .isEmpty))).Local :=
    .map (.phrase (local_keyword _).map)
  refine .map (.phrase (local_choice local_equals (local_choice named (local_choice named empty ?_) (.choice ?_ ?_))
    (.choice ?_ (.choice ?_ ?_))))
  · exact apart_of_ne namedBegins emptyBegins (by decide)
  · exact apart_of_ne namedBegins namedBegins (by decide)
  · exact apart_of_ne namedBegins emptyBegins (by decide)
  · exact apart_of_ne equalsBegins namedBegins Lead.noConfusion
  · exact apart_of_ne equalsBegins namedBegins Lead.noConfusion
  · exact apart_of_ne equalsBegins emptyBegins Lead.noConfusion

theorem local_expectation : expectation.Local :=
  .map (.phrase (.seq ((local_keyword _).before _) (.seq (local_query.before _) local_matcher)))

/-- A statement that ends its line is read in the same way whatever lines follow. -/
theorem statement_before_lineEnd : lineEnd.LocalBefore statement := by
  have others {p : Rule (Located Statement)} {k : Keyword} (begins : p.Begins fun s => lead s = .keyword k)
      (noQuery : (Lead.keyword k).isQuery = false) :
      p.Apart (.choice (.map (fun q => ⟨.query q, q.span⟩) query) assignment) :=
    .choice (apart_of_kind begins query_begins.map noQuery)
      (apart_of_kind begins assignment_begins (Lead.isVariableName_keyword k))
  refine before_choice (local_classDefinition.before _) (before_choice (local_setAttribute.before _)
    (before_choice (local_freeze.before _) (before_choice (local_expectation.before _)
      (before_choice (local_query.map.before _) assignment_before_lineEnd query_apart_assignment)
      (others expectation_begins (by decide))) ?freezes) ?sets) ?classes
  case freezes =>
    exact .choice (apart_of_ne freeze_begins expectation_begins (by decide)) (others freeze_begins (by decide))
  case sets =>
    exact .choice (apart_of_ne setAttribute_begins freeze_begins (by decide))
      (.choice (apart_of_ne setAttribute_begins expectation_begins (by decide))
        (others setAttribute_begins (by decide)))
  case classes =>
    exact .choice (apart_of_ne classDefinition_begins setAttribute_begins (by decide))
      (.choice (apart_of_ne classDefinition_begins freeze_begins (by decide))
        (.choice (apart_of_ne classDefinition_begins expectation_begins (by decide))
          (others classDefinition_begins (by decide))))

theorem variableName_consumes : variableName.Consumes := by
  refine Consumes.token fun {s taken rest} found => ?_
  obtain ⟨name, rfl, _⟩ := Word.take?_variableName_eq_some_iff.mp found
  rcases s with _ | ⟨c, s⟩
  · cases name
  · by_cases part : Word.isPart c
    · simp [part]
    · rw [lead_cons_of_not_isPart (by simpa using part)] at name
      cases name

theorem statement_consumes : statement.Consumes := by
  have query : query.Consumes :=
    .phrase (.choice (.map (.phrase (.map (keyword_consumes _).seq)))
      (.choice (.map (.phrase (.map (keyword_consumes _).seq))) (.map (.phrase (.map (keyword_consumes _).seq)))))
  exact .choice (.map (.phrase (keyword_consumes _).seq)) (.choice (.map (.phrase (keyword_consumes _).seq))
    (.choice (.map (.phrase (keyword_consumes _).seq)) (.choice (.map (.phrase (keyword_consumes _).seq))
      (.choice query.map (.map (.phrase variableName_consumes.seq))))))

end Script.Rule

end KeyIntrospection
