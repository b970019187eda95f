import KeyIntrospection.Proofs.Script.Concatenation
import KeyIntrospection.Proofs.Script.Spelling
import KeyIntrospection.Proofs.Script.Survey

/-!
The spans of a script. Each rule gives parts that stand where it was read, and so the statements of a script
and everything in them cover the texts that they were read from.
-/

namespace KeyIntrospection.Script

namespace Word

theorem isNumeralOf_of_take? {s x r : List Char} (takes : integer.take? s = some (x, r)) :
    IsNumeralOf (.ofList x) (integerValue x) := by
  obtain ⟨d, nonempty, inside, rfl | rfl⟩ := integer_of_take? takes
  · refine ⟨.ofList x, by simpa using nonempty, by simpa using inside, .inl ⟨rfl, ?_⟩⟩
    rw [integerValue, splitSign_of_isDigit inside, String.toList_ofList]
    rfl
  · refine ⟨.ofList d, by simpa using nonempty, by simpa using inside, .inr ⟨?_, ?_⟩⟩
    · rw [String.ofList_cons]
      rfl
    · rw [String.toList_ofList]
      rfl

end Word

namespace Rule

theorem accept?_mark {s : String} {c next : Cursor} {v : Except LiteralFault Unit}
    (accepted : (mark s).accept? c = some ⟨v, next⟩) :
    c.rest = s.toList ++ next.rest ∧ next = c.advance s.toList next.rest := by
  obtain ⟨⟨x, last⟩, takes, read⟩ := Option.map_eq_some_iff.mp accepted
  obtain ⟨⟨taken, rest⟩, found, same⟩ := Option.map_eq_some_iff.mp takes
  cases same
  cases read
  have whole := (Token.text s).append_eq found
  simp only [Token.text, Token.exactly, Option.ite_none_right_eq_some, Option.some.injEq, Prod.mk.injEq] at found
  obtain ⟨_, rfl, _⟩ := found
  exact ⟨whole.symm, rfl⟩

theorem accept?_name {p : Phrase} {t : Token} {c next : Cursor} {n : Name}
    (accepted : (Rule.name p t).accept? c = some ⟨.ok n, next⟩) :
    c.rest = n.value.toList ++ next.rest ∧ next = c.advance n.value.toList next.rest := by
  obtain ⟨⟨x, last⟩, takes, read⟩ := Option.map_eq_some_iff.mp accepted
  obtain ⟨⟨taken, rest⟩, found, same⟩ := Option.map_eq_some_iff.mp takes
  cases same
  cases read
  simp only [Located.map, String.toList_ofList]
  exact ⟨(t.append_eq found).symm, rfl⟩

end Rule

/-- The regions of what a rule gives stand where it was read. -/
def Stands {α : Type} (p : Rule α) (regions : α → List Region) : Prop :=
  ∀ ⦃source : String⦄ ⦃c : Cursor⦄ ⦃m : Match LiteralFault α⦄ ⦃x : α⦄, (Cursor.ofText source).Reaches c →
    p.accept? c = some m → m.value = .ok x → Row source c.offset m.next.offset (regions x)

/-- What stands between two cursors of a source, one of which is reached from the other. -/
def standing (source : String) : Survey where
  holds c d l := c.Reaches d ∧ ((Cursor.ofText source).Reaches c → Row source c.offset d.offset l)
  nil c := ⟨.refl c, fun _ => .nil (Nat.le_refl _)⟩
  append first second := ⟨first.1.trans second.1, fun start =>
    (first.2 start).append (second.2 (start.trans first.1)) (Nat.le_refl _)⟩
  blanks c := ⟨c.reaches_skipBlanks, fun _ => .nil c.offset_le_skipBlanks⟩

namespace Stands

open Grammar Rule

variable {α : Type} {f : α → List Region} {p : Rule α}

theorem finds (stands : Stands p f) (source : String) : (standing source).Finds p f :=
  fun _ _ _ accepted value => ⟨accept?_reaches accepted, fun start => stands start accepted value⟩

theorem silent : Stands p fun _ => [] := fun _ _ _ _ _ accepted _ => .nil (accept?_reaches accepted).offset_le

/-- A token that spells what it stands for. -/
theorem token {name : Phrase} {t : Token} {read : Located (List Char) → Except LiteralFault (Located α)}
    (label : α → Label)
    (solid : ∀ {s taken rest : List Char}, t.take? s = some (taken, rest) → taken ≠ [])
    (reads : ∀ {s x r : List Char} {span : Span} {v : Located α}, t.take? s = some (x, r) →
      read ⟨x, span⟩ = .ok v → v.span = span ∧ (label v.value).Spells span.start (.ofList x)) :
    Stands (.token name t read) fun v => [.node v.span (label v.value) []] := by
  intro source c m v start accepted value
  have nonempty : c.offset < m.next.offset := Consumes.token solid accepted
  obtain ⟨⟨x, next⟩, takes, rfl⟩ := Option.map_eq_some_iff.mp accepted
  obtain ⟨⟨taken, rest⟩, found, same⟩ := Option.map_eq_some_iff.mp takes
  cases same
  obtain ⟨span, spells⟩ := reads found value
  have row := Row.read start (t.append_eq found).symm rfl nonempty spells (.nil (Nat.le_of_lt nonempty))
  rw [← span] at row
  exact row

theorem name {p : Phrase} {t : Token} (solid : ∀ {s x r : List Char}, t.take? s = some (x, r) → x ≠ []) :
    Stands (Rule.name p t) fun n => [nameAt n] := by
  refine token Label.name solid fun _ value => ?_
  cases value
  exact ⟨rfl, rfl⟩

/-- A symbol is its colon and its name. -/
theorem symbol : Stands Rule.symbol fun n => [symbolAt n] := by
  intro source c k n start accepted value
  have nonempty := symbol_consumes accepted
  obtain ⟨m, located, rfl⟩ := Option.map_eq_some_iff.mp accepted
  obtain ⟨m, both, rfl⟩ := Option.map_eq_some_iff.mp located
  obtain ⟨⟨v, next⟩, colon, after⟩ := Option.bind_eq_some_iff.mp both
  obtain ⟨⟨w, last⟩, named, rfl⟩ := Option.map_eq_some_iff.mp after
  cases v with
  | error e => cases value
  | ok v =>
    cases w with
    | error e => cases value
    | ok w =>
      cases value
      obtain ⟨split, here⟩ := accept?_mark colon
      obtain ⟨split', here'⟩ := accept?_name named
      have whole : c.rest = (":" ++ w.value).toList ++ last.rest := by
        rw [String.toList_append, List.append_assoc, ← split']
        exact split
      have reach : last = c.advance (":" ++ w.value).toList last.rest := by
        rw [here', Gap.skip, here, String.toList_append]
        simp only [Cursor.advance, byteLength_append, Nat.add_assoc]
      exact .read start whole reach nonempty (String.ofList_toList) (.nil (Nat.le_of_lt nonempty))

theorem string : Stands Rule.string fun s => [literalAt (s.map .string)] := by
  refine token Label.string (fun found => ?_) fun {s x r span v} found value => ?_
  · obtain ⟨body, _, rfl, _⟩ := Word.take?_string_eq_some_iff.mp found
    exact List.cons_ne_nil _ _
  · obtain ⟨body, _, rfl, _⟩ := Word.take?_string_eq_some_iff.mp found
    have inside : (('"' :: (body ++ ['"'])).drop 1).dropLast = body := by simp
    simp only [readString, inside] at value
    cases content : unescape (span.start + 1) body with
    | error e =>
      rw [content] at value
      cases value
    | ok text =>
      rw [content] at value
      cases value
      refine ⟨rfl, .ofList body, ?_, ?_⟩
      · rw [String.ofList_cons, String.ofList_append, ← String.append_assoc]
        rfl
      · rw [String.toList_ofList, String.toList_ofList]
        exact content

theorem integer : Stands (.token .integer Word.integer fun x => (readInteger x).map (⟨.int ·, x.span⟩))
    fun l => [literalAt l] := by
  refine token Literal.label Word.integer_ne_nil fun {s x r span v} found value => ?_
  unfold readInteger at value
  dsimp only at value
  split at value
  · cases value
    exact ⟨rfl, Word.isNumeralOf_of_take? found⟩
  · cases value

theorem float : Stands (.token .float Word.float fun x => .ok ⟨.float (readFloat x), x.span⟩)
    fun l => [literalAt l] := by
  refine token Literal.label Word.float_ne_nil fun _ value => ?_
  cases value
  exact ⟨rfl, trivial⟩

end Stands

/-- A phrase is one region. -/
theorem phrase_standing {source : String} {α : Type} {name : Phrase} {p : Rule α} {f : α → List Region}
    (consumes : p.Consumes) (inner : (standing source).Finds p f) :
    (standing source).Finds (Grammar.phrase name p) fun x => [phraseAt f x] := by
  intro c k x accepted value
  have reach := Grammar.accept?_reaches accepted
  obtain ⟨⟨v, next⟩, found, rfl⟩ := Option.map_eq_some_iff.mp accepted
  cases v with
  | error e => cases value
  | ok v =>
    cases value
    obtain ⟨text, split, advanced⟩ := reach
    refine ⟨⟨text, split, advanced⟩, fun start => ?_⟩
    exact .read start split advanced (consumes found) trivial ((inner found rfl).2 start)

theorem ofScripts_standing (source : String) : (standing source).OfScripts where
  plain _ := Stands.silent.finds source
  silent _ := Stands.silent.finds source
  name _ solid := (Stands.name solid).finds source
  symbol := Stands.symbol.finds source
  string := Stands.string.finds source
  integer := Stands.integer.finds source
  float := Stands.float.finds source
  phrase consumes inner := phrase_standing consumes inner
  around {c d r} found := by
    refine ⟨found.1, fun start => ?_⟩
    have row := found.2 start
    obtain ⟨lower, upper⟩ := row.within _ List.mem_cons_self
    exact .singleton lower upper (row.fits _ List.mem_cons_self).around

/-- The statements of a script stand where the script was read. -/
theorem Stands.script : Stands Rule.script fun l => l.value.map (phraseAt Statement.regions) :=
  fun source _ _ _ start accepted value => ((ofScripts_standing source).script accepted value).2 start

/-- A script covers its source; its statements are not empty and stand in its order, each over the text that it
was read from, and so does everything in them. -/
theorem spans_of_parse {source : String} {file : Option String} {s : Script}
    (parsed : Script.parse source file = .ok s) :
    s.span = ⟨0, source.utf8ByteSize⟩ ∧
      (∀ a ∈ s.statements, a.span.start < a.span.stop ∧ a.span.stop ≤ source.utf8ByteSize ∧
        ∃ text, a.span.Covers source text) ∧
      s.statements.Pairwise (fun a b => a.span.stop ≤ b.span.start) ∧
      ∀ a ∈ s.statements, (phraseAt Statement.regions a).Fits source := by
  obtain ⟨l, whole, rfl⟩ := Rule.exists_parse_of_script parsed
  obtain ⟨m, found, value⟩ := Rule.exists_accept_of_parse whole
  have row := Stands.script (.refl _) found value
  have fits : ∀ a ∈ l.value, (phraseAt Statement.regions a).Fits source := List.forall_mem_map.mp row.fits
  have order : l.value.Pairwise fun a b => a.span.stop ≤ b.span.start := List.pairwise_map.mp row.order
  refine ⟨?_, fun a mem => ?_, order, fits⟩
  · -- where the last line ends is known from the listing, not from the rule
    obtain ⟨vs, listing, fine⟩ := Rule.exists_listing_of_parse whole
    rw [Rule.parse_of_listing listing, fine] at whole
    have span : ⟨0, (Cursor.ofText source).stop⟩ = l.span := congrArg Located.span (Except.ok.inj whole)
    show l.span = _
    rw [← span, Cursor.stop, Cursor.ofText, byteLength_eq_utf8ByteSize, String.ofList_toList, Nat.zero_add]
  · obtain ⟨text, covers⟩ := (fits a mem).exists_covers
    exact ⟨(fits a mem).start_lt_stop, covers.stop_le, text, covers⟩

/-- A character of two bytes, escapes, and a comment that belongs to the expression before it. -/
theorem spans_of_parse_comment :
    ∃ s, Script.parse "k = \"é\\n\"\nc = new C   # ü\nexpect keys(k) == [:@a, :b]" none = .ok s ∧ s.span = ⟨0, 55⟩ ∧
      s.statements.map Located.span = [⟨0, 10⟩, ⟨11, 27⟩, ⟨28, 55⟩] ∧
      ∀ a ∈ s.statements, (phraseAt Statement.regions a).Fits "k = \"é\\n\"\nc = new C   # ü\nexpect keys(k) == [:@a, :b]" := by
  let s : Script :=
    ⟨[⟨.assign ⟨"k", 0, 1⟩ ⟨.literal ⟨.string "é\n", 4, 10⟩, 4, 10⟩, 0, 10⟩,
      ⟨.assign ⟨"c", 11, 12⟩ ⟨.new ⟨"C", 19, 20⟩ [], 15, 27⟩, 11, 27⟩,
      ⟨.expect ⟨.keys ⟨"k", 40, 41⟩ false, 35, 42⟩ (.equalsSymbols [⟨"@a", 47, 50⟩, ⟨"b", 52, 54⟩]), 28, 55⟩], none, 0, 55⟩
  have parsed : Script.parse "k = \"é\\n\"\nc = new C   # ü\nexpect keys(k) == [:@a, :b]" none = .ok s := by rfl
  exact ⟨s, parsed, rfl, rfl, (spans_of_parse parsed).2.2.2⟩

end KeyIntrospection.Script
