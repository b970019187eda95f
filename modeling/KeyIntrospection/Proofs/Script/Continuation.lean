import KeyIntrospection.Proofs.Script.Reading
import KeyIntrospection.Proofs.Script.WellFormed

/-!
Queries with more text after them. A query ends at its own parenthesis, so a text that is a query is
read as that query wherever it stands, whatever follows it after a blank.
-/

namespace KeyIntrospection

/-- Where something else than blanks stands, what follows it is not skipped. -/
theorem afterBlanks_append_of_ne_nil {s : List Char} (more : afterBlanks s ≠ []) (e : List Char) :
    afterBlanks (s ++ e) = afterBlanks s ++ e := by
  have visible : s.dropWhile isSpace ≠ [] := by
    intro empty
    exact more (by simp [afterBlanks, empty])
  obtain ⟨c, t, rest⟩ := List.exists_cons_of_ne_nil visible
  have longer : (s ++ e).dropWhile isSpace = c :: (t ++ e) := by
    rw [List.dropWhile_append, rest]
    rfl
  simp only [afterBlanks, rest, longer, List.head?_cons] at more ⊢
  split
  · next hash =>
    rw [if_pos hash] at more
    rw [← List.cons_append, List.dropWhile_append, if_neg (by simpa using more)]
  · rfl

theorem append_inj_of_byteLength {a b s t : List Char} (same : a ++ s = b ++ t)
    (size : byteLength a = byteLength b) : a = b ∧ s = t := by
  induction a generalizing b with
  | nil =>
    cases b with
    | nil => exact ⟨rfl, same⟩
    | cons d b =>
      have positive := d.utf8Size_pos
      simp only [byteLength] at size
      omega
  | cons c a ih =>
    cases b with
    | nil =>
      have positive := c.utf8Size_pos
      simp only [byteLength] at size
      omega
    | cons d b =>
      obtain ⟨rfl, others⟩ := List.cons.inj same
      obtain ⟨rfl, rest⟩ := ih others (Nat.add_left_cancel size)
      exact ⟨rfl, rest⟩

namespace Cursor

theorem skipBlanks_followedBy_of_ne_nil {c : Cursor} (more : afterBlanks c.rest ≠ []) (e : List Char) :
    (c.followedBy e).skipBlanks = c.skipBlanks.followedBy e := by
  have later := afterBlanks_append_of_ne_nil more e
  have same : blanks (c.rest ++ e) = blanks c.rest := by
    have whole := blanks_append_afterBlanks (c.rest ++ e)
    rw [later, ← List.append_assoc] at whole
    have shorter := List.append_cancel_right whole
    exact List.append_cancel_right (shorter.trans (blanks_append_afterBlanks c.rest).symm)
  simp only [skipBlanks, followedBy, advance, later, same]

theorem settled_followedBy_of_ne_nil {c : Cursor} (settled : Settled c.rest) (more : c.rest ≠ [])
    (e : List Char) : Settled (c.followedBy e).rest := by
  have visible : afterBlanks c.rest ≠ [] := by rwa [show afterBlanks c.rest = c.rest from settled]
  rw [Settled, followedBy, afterBlanks_append_of_ne_nil visible, settled]

end Cursor

namespace Grammar

variable {ν ε α β : Type} {p : Grammar ν ε α} {q : Grammar ν ε β}

theorem Consumes.rest_ne_nil (consumes : p.Consumes) {c : Cursor} {m : Match ε α}
    (accepted : p.accept? c = some m) : c.rest ≠ [] := by
  have shorter := (accept?_reaches accepted).length_lt (consumes accepted)
  intro empty
  rw [empty] at shorter
  exact Nat.not_lt_zero _ shorter

/-- More text after a blank makes no difference to whether the grammar is accepted and to its value. -/
def Steady (p : Grammar ν ε α) : Prop :=
  ∀ ⦃c : Cursor⦄ ⦃e : List Char⦄, AtBoundary e →
    p.accept? (c.followedBy e) = (p.accept? c).map fun m => ⟨m.value, m.next.followedBy e⟩

/-- Where the grammar is accepted, more text after a blank makes no difference to it. -/
def Persists (p : Grammar ν ε α) : Prop :=
  ∀ ⦃c : Cursor⦄ ⦃m : Match ε α⦄ ⦃e : List Char⦄, Settled c.rest → p.accept? c = some m → AtBoundary e →
    p.accept? (c.followedBy e) = some ⟨m.value, m.next.followedBy e⟩

namespace Steady

theorem read?_followedBy {t : Token} (solid : t.Solid) {c : Cursor} {e : List Char} (boundary : AtBoundary e) :
    t.read? (c.followedBy e) = (t.read? c).map fun (x, next) => (x, next.followedBy e) := by
  simp only [Token.read?, Cursor.followedBy, solid boundary]
  cases t.take? c.rest <;> rfl

theorem plain {t : Token} (solid : t.Solid) : (Grammar.plain t : Grammar ν ε Unit).Steady := by
  intro c e boundary
  simp only [accept?, read?_followedBy solid boundary]
  cases t.read? c <;> rfl

theorem token {name : ν} {t : Token} {read : Located (List Char) → Except ε α} (solid : t.Solid) :
    (Grammar.token name t read).Steady := by
  intro c e boundary
  simp only [accept?, read?_followedBy solid boundary]
  cases t.read? c <;> rfl

/-- Parts with nothing between them. -/
theorem seq (first : p.Steady) (second : q.Steady) : (Grammar.seq .nothing p q).Steady := by
  intro c e boundary
  simp only [accept?, first boundary, Gap.skip]
  cases p.accept? c with
  | none => rfl
  | some m =>
    simp only [Option.map_some, Option.bind_some, second boundary]
    cases q.accept? m.next <;> rfl

theorem choice {p' : Grammar ν ε α} (first : p.Steady) (second : p'.Steady) : (Grammar.choice p p').Steady := by
  intro c e boundary
  simp only [accept?, first boundary, second boundary]
  cases p.accept? c <;> rfl

theorem map {f : α → β} (inner : p.Steady) : (Grammar.map f p).Steady := by
  intro c e boundary
  simp only [accept?, inner boundary]
  cases p.accept? c <;> rfl

theorem phrase {name : ν} (inner : p.Steady) : (Grammar.phrase name p).Steady := by
  intro c e boundary
  simp only [accept?, inner boundary]
  cases p.accept? c <;> rfl

theorem persists (steady : p.Steady) : p.Persists := by
  intro c m e _ accepted boundary
  rw [steady boundary, accepted, Option.map_some]

end Steady

namespace Persists

theorem map {f : α → β} (inner : p.Persists) : (Grammar.map f p).Persists := by
  intro c k e settled accepted boundary
  obtain ⟨m, found, rfl⟩ := Option.map_eq_some_iff.mp accepted
  rw [accept?, inner settled found boundary]
  rfl

theorem phrase {name : ν} (inner : p.Persists) : (Grammar.phrase name p).Persists := by
  intro c k e settled accepted boundary
  obtain ⟨m, found, rfl⟩ := Option.map_eq_some_iff.mp accepted
  rw [accept?, inner settled found boundary]
  rfl

/-- The part that follows is there, and so the blanks before it end in the text. -/
theorem seq (first : p.Persists) (second : q.Persists) (consumes : q.Consumes) :
    (Grammar.seq .blanks p q).Persists := by
  intro c k e settled accepted boundary
  obtain ⟨m, acceptedFirst, accepted⟩ := Option.bind_eq_some_iff.mp accepted
  obtain ⟨n, acceptedSecond, rfl⟩ := Option.map_eq_some_iff.mp accepted
  have skip := Cursor.skipBlanks_followedBy_of_ne_nil (consumes.rest_ne_nil acceptedSecond) e
  have again := second m.next.settled_skipBlanks acceptedSecond boundary
  rw [accept?, first settled acceptedFirst boundary, Option.bind_some, Gap.skip, skip, again]
  rfl

theorem choice_of_steady {p' : Grammar ν ε α} (first : p.Steady) (second : p'.Persists) :
    (Grammar.choice p p').Persists := by
  intro c k e settled accepted boundary
  rw [accept?, first boundary]
  rw [accept?] at accepted
  split at accepted
  · next found =>
    cases accepted
    rw [found]
    rfl
  · next refused =>
    rw [refused]
    exact second settled accepted boundary

/-- Alternatives that begin otherwise. -/
theorem choice {p' : Grammar ν ε α} (first : p.Persists) (second : p'.Persists) (apart : p.Apart p')
    (consumes : p'.Consumes) : (Grammar.choice p p').Persists := by
  intro c k e settled accepted boundary
  rw [accept?] at accepted ⊢
  split at accepted
  · next found =>
    cases accepted
    rw [first settled found boundary]
  · have again := second settled accepted boundary
    have settled' := Cursor.settled_followedBy_of_ne_nil settled (consumes.rest_ne_nil accepted) e
    rw [(apart settled' again).accept?_eq_none, again]

/-- A part that may be missing, before one that begins otherwise. -/
theorem optional_seq (first : p.Persists) (second : q.Persists) (apart : p.Apart q) (consumes : q.Consumes) :
    (Grammar.seq .blanks (.optional p) q).Persists := by
  intro c k e settled accepted boundary
  obtain ⟨m, acceptedFirst, accepted⟩ := Option.bind_eq_some_iff.mp accepted
  obtain ⟨n, acceptedSecond, rfl⟩ := Option.map_eq_some_iff.mp accepted
  have skip := Cursor.skipBlanks_followedBy_of_ne_nil (consumes.rest_ne_nil acceptedSecond) e
  have again := second m.next.settled_skipBlanks acceptedSecond boundary
  have present : (Grammar.optional p).accept? (c.followedBy e) = some ⟨m.value, m.next.followedBy e⟩ := by
    rw [accept?] at acceptedFirst ⊢
    split at acceptedFirst
    · next m' found =>
      cases acceptedFirst
      rw [first settled found boundary]
      rfl
    · cases acceptedFirst
      rw [Gap.skip, Cursor.skipBlanks_of_settled settled] at acceptedSecond
      have settled' := Cursor.settled_followedBy_of_ne_nil settled (consumes.rest_ne_nil acceptedSecond) e
      have here := second settled acceptedSecond boundary
      rw [(apart settled' here).accept?_eq_none]
  rw [accept?, present, Option.bind_some, Gap.skip, skip, again]
  rfl

end Persists

end Grammar

namespace Script.Rule

open Grammar

theorem steady_mark {m : String} (solid : m.toList.all (!isBoundary ·)) : (mark m).Steady :=
  .plain (.exactly solid)

theorem steady_keyword (k : Keyword) : (keyword k).Steady := .token (Word.solid_keyword k)

theorem persists_variableName : variableName.Persists := Steady.persists (.token Word.solid_variableName)

theorem steady_symbol : symbol.Steady :=
  .map (.phrase ((steady_mark (by decide)).seq (.token Word.solid_symbolName)))

theorem persists_string : string.Persists := by
  intro c k e _ accepted _
  obtain ⟨⟨x, next⟩, takes, rfl⟩ := Option.map_eq_some_iff.mp accepted
  obtain ⟨⟨taken, rest⟩, found, same⟩ := Option.map_eq_some_iff.mp takes
  cases same
  obtain ⟨body, quotable, rfl, split⟩ := Word.take?_string_eq_some_iff.mp found
  have again : Word.string.take? (c.rest ++ e) = some ('"' :: (body ++ ['"']), rest ++ e) :=
    Word.take?_string_eq_some_iff.mpr ⟨body, quotable, rfl, by rw [split]; simp⟩
  simp only [string, accept?, Token.read?, Cursor.followedBy, again]
  rfl

/-- Of the literals only a string may be cut short; it has a sign of its own. -/
theorem persists_literal : literal.Persists := by
  refine .map (.phrase (.choice_of_steady (.token Word.solid_float) (.choice_of_steady
    (.token Word.solid_integer) (.choice persists_string.map (Steady.persists ?_) ?_ ?_))))
  · exact .choice steady_symbol.map (.choice
      (.map (.phrase (.choice (steady_keyword _).map (steady_keyword _).map))) (.map (.phrase (steady_keyword _))))
  · refine .choice (apart_of_ne string_begins.map symbol_begins.map (by decide)) (.choice ?_ ?_)
    · refine string_begins.map.apart boolean_begins fun s sign word => ?_
      rw [sign] at word
      rcases word with word | word <;> cases word
    · exact apart_of_ne string_begins.map nil_begins Lead.noConfusion
  · exact .choice symbol_consumes.map (.choice
      (.map (.phrase (.choice (keyword_consumes _).map (keyword_consumes _).map)))
      (.map (.phrase (keyword_consumes _))))

theorem persists_keyQuery (p : Phrase) (k : Keyword) (f : Name → Located Literal → Query) :
    (keyQuery p k f).Persists := by
  have opens : (mark "(").Persists := (steady_mark (by decide)).persists
  have comma : (mark ",").Persists := (steady_mark (by decide)).persists
  have closes : (mark ")").Persists := (steady_mark (by decide)).persists
  have close : (mark ")").Consumes := mark_consumes (by decide)
  have key := persists_literal.seq closes close
  have object := persists_variableName.seq (comma.seq key close.seq_right) close.seq_right.seq_right
  exact .map (.phrase (.map ((steady_keyword k).persists.seq (opens.seq object close.seq_right.seq_right.seq_right)
    close.seq_right.seq_right.seq_right.seq_right)))

theorem persists_keysQuery : keysQuery.Persists := by
  have opens : (mark "(").Persists := (steady_mark (by decide)).persists
  have comma : (mark ",").Persists := (steady_mark (by decide)).persists
  have closes : (mark ")").Persists := (steady_mark (by decide)).persists
  have close : (mark ")").Consumes := mark_consumes (by decide)
  have begins : (mark ")").Begins fun s => lead s = .sign ')' := mark_begins (by decide) (by decide)
  have other : (seq (mark ",") (keyword .internal)).Apart (mark ")") :=
    apart_of_ne comma_begins.seq begins (by decide)
  have internal := Persists.optional_seq
    (comma.seq (steady_keyword .internal).persists (keyword_consumes _)) closes other close
  have object := persists_variableName.seq internal close.seq_right
  exact .map (.phrase (.map ((steady_keyword .keys).persists.seq (opens.seq object close.seq_right.seq_right)
    close.seq_right.seq_right.seq_right)))

theorem keyQuery_consumes (p : Phrase) (k : Keyword) (f : Name → Located Literal → Query) :
    (keyQuery p k f).Consumes := .map (.phrase (.map (keyword_consumes k).seq))

theorem query_consumes : query.Consumes :=
  .phrase (.choice (keyQuery_consumes _ _ _) (.choice (.map (.phrase (.map (keyword_consumes _).seq)))
    (keyQuery_consumes _ _ _)))

/-- What is read as a query is read as it also when more text follows. -/
theorem persists_query : query.Persists := by
  refine .phrase (.choice (persists_keyQuery _ _ _) (.choice persists_keysQuery (persists_keyQuery _ _ _) ?_ ?_) ?_ ?_)
  · exact apart_of_ne keysQuery_begins (keyQuery_begins _ _ _) (by decide)
  · exact keyQuery_consumes _ _ _
  · exact .choice (apart_of_ne (keyQuery_begins _ _ _) keysQuery_begins (by decide))
      (apart_of_ne (keyQuery_begins _ _ _) (keyQuery_begins _ _ _) (by decide))
  · exact .choice (.map (.phrase (.map (keyword_consumes _).seq))) (keyQuery_consumes _ _ _)

end Script.Rule

namespace Alignment

/-- A text, wherever it stands in another one. -/
def anywhere : Alignment where
  near c d := c.rest = d.rest
  left _ := 0
  right _ := 0
  inside _ _ := rfl
  skip {c d} same := by simp only [Cursor.skipBlanks, Cursor.advance, same]

theorem respects_anywhere (t : Token) : anywhere.Respects t := by
  intro c d same
  rcases found : t.take? d.rest with _ | ⟨x, r⟩
  · exact Or.inl ⟨by rw [show c.rest = d.rest from same, found], rfl⟩
  · exact Or.inr ⟨x, r, r, by rw [show c.rest = d.rest from same, found], rfl, rfl⟩

theorem ofScripts_anywhere : anywhere.OfScripts := ⟨fun _ => respects_anywhere _, respects_anywhere _, respects_anywhere _⟩

end Alignment

namespace Script.Reads

open Rule

/-- A text that is a query, blanks after it left aside, is a word that is read as the query. -/
theorem query_of_accept? {c : Cursor} {q : Located Query} {next : Cursor} (settled : Settled c.rest)
    (accepted : Rule.query.accept? c = some ⟨.ok q, next⟩) (spaces : ∀ d ∈ next.rest, isSpace d) :
    Reads Rule.query [.ofList c.rest] q anything := by
  have visible : Visible (.ofList c.rest) := by
    obtain ⟨d, s, split⟩ := List.exists_cons_of_ne_nil (Grammar.Consumes.rest_ne_nil query_consumes accepted)
    have start := query_begins.of_accept? settled accepted
    rw [split] at start
    refine ⟨d, s, by simp [split], Word.isBoundary_eq_false_of_isPart (isPart_of_isStatement (s := s) ?_)⟩
    simp [Lead.isStatement, start]
  refine ⟨fun w mem => by rwa [List.mem_singleton.mp mem], fun d e boundary rest _ => ?_⟩
  rw [afterBlanks_lay visible, String.toList_ofList] at rest
  have longer := persists_query settled accepted boundary
  have near : Alignment.anywhere.near d (c.followedBy e) := rest
  rcases Alignment.ofScripts_anywhere.ofLines.query near with ⟨_, refused⟩ | ⟨m, n, found, found', near', agree⟩
  · rw [longer] at refused
    cases refused
  · rw [longer] at found'
    cases found'
    obtain ⟨v, last⟩ := m
    cases v with
    | error e => cases agree
    | ok v =>
      refine ⟨v, last, found, Except.ok.inj agree, ?_⟩
      rw [show last.rest = next.rest ++ e from near', afterBlanks_append_of_isSpace spaces]

end Script.Reads

namespace Script

def Statement.isQuery : Statement → Bool
  | query _ => true
  | _ => false

/-- The text is read as the query, and the query is all of it but for spaces and tabs around it. A comment or a
line break is no part of a query. -/
structure IsQueryText (text : String) (q : Located Query) : Prop where
  parse_eq : Statement.parse text = .ok ⟨.query q, q.span⟩
  alone : ∃ before inner after : List Char, text.toList = before ++ inner ++ after ∧
    q.span = ⟨byteLength before, byteLength (before ++ inner)⟩ ∧ ∀ c ∈ before ++ after, isSpace c

namespace Rule

theorem yields_other {α : Type} {name : Phrase} {parts : Rule α} {f : α → Statement}
    (others : ∀ x, (f x).isQuery = false) : Yields (phrase name parts f) fun s => s.value.isQuery = false :=
  Yields.phrase (Q := fun (s : Statement) => s.isQuery = false) Yields.any fun x _ => others x

/-- A rule for other statements does not read a query. -/
theorem accept?_of_yields_other {p p' : Rule (Located Statement)} (others : Yields p fun s => s.value.isQuery = false)
    {c : Cursor} {m : Match LiteralFault (Located Statement)} {s : Located Statement}
    (accepted : (Grammar.choice p p').accept? c = some m) (value : m.value = .ok s) (isQuery : s.value.isQuery) :
    p'.accept? c = some m := by
  rw [Grammar.accept?] at accepted
  split at accepted
  · next found =>
    cases accepted
    rw [others found value] at isQuery
    cases isQuery
  · exact accepted

/-- A statement that is a query is read by the rule for queries. -/
theorem accept?_query {c : Cursor} {m : Match LiteralFault (Located Statement)} {q : Located Query} {span : Span}
    (accepted : statement.accept? c = some m) (value : m.value = .ok ⟨.query q, span⟩) :
    query.accept? c = some ⟨.ok q, m.next⟩ ∧ q.span = ⟨c.offset, m.next.offset⟩ := by
  have noClass := accept?_of_yields_other (yields_other fun _ => rfl) accepted value rfl
  have noAttribute := accept?_of_yields_other (yields_other fun _ => rfl) noClass value rfl
  have noFreeze := accept?_of_yields_other (yields_other fun _ => rfl) noAttribute value rfl
  have noExpectation := accept?_of_yields_other (yields_other fun _ => rfl) noFreeze value rfl
  rw [Grammar.accept?] at noExpectation
  split at noExpectation
  · next found =>
    cases noExpectation
    obtain ⟨⟨v, next⟩, read, rfl⟩ := Option.map_eq_some_iff.mp found
    obtain ⟨⟨w, last⟩, parts, same⟩ := Option.map_eq_some_iff.mp read
    cases same
    cases w with
    | error e => cases value
    | ok w =>
      cases value
      exact ⟨read, rfl⟩
  · have assigned : Yields assignment fun s => s.value.isQuery = false := yields_other fun _ => rfl
    cases assigned noExpectation value

end Rule

namespace IsQueryText

/-- The text is a word that is read as the query after some blanks. -/
theorem reads {text : String} {q : Located Query} (isText : IsQueryText text q) :
    ∃ (before : List Char) (w : String), text.toList = before ++ w.toList ∧ (∀ c ∈ before, isSpace c) ∧
      Reads Rule.query [w] q anything := by
  obtain ⟨parsed, before, inner, after, split, span, spaces⟩ := isText
  obtain ⟨m, accepted, value, _⟩ := Rule.exists_statement_of_parse parsed
  obtain ⟨read, around⟩ := Rule.accept?_query accepted value
  obtain ⟨taken, rest, next⟩ := (Cursor.ofText text).reaches_skipLines
  obtain ⟨body, rest', next'⟩ := Grammar.accept?_reaches read
  have start : (Cursor.ofText text).skipLines.offset = byteLength taken := by
    rw [next]
    exact Nat.zero_add _
  have stop : m.next.offset = byteLength taken + byteLength body := by rw [next', Cursor.advance, start]
  rw [span, start, stop, byteLength_append] at around
  obtain ⟨size, total⟩ := Span.mk.inj around
  have whole : before ++ (inner ++ after) = taken ++ (Cursor.ofText text).skipLines.rest := by
    rw [← List.append_assoc, ← split]
    exact rest
  obtain ⟨rfl, here⟩ := append_inj_of_byteLength whole size
  obtain ⟨rfl, left⟩ := append_inj_of_byteLength (here.trans rest') (Nat.add_left_cancel total)
  have settled := (Cursor.ofText text).settled_skipLines
  refine ⟨before, .ofList (Cursor.ofText text).skipLines.rest, ?_, fun c mem => spaces c (List.mem_append_left _ mem),
    Reads.query_of_accept? settled read fun c mem => spaces c (List.mem_append_right _ (left ▸ mem))⟩
  rw [String.toList_ofList, split, ← here, List.append_assoc]

end IsQueryText

end Script

end KeyIntrospection
