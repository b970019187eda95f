import KeyIntrospection.Proofs.Script.Continuation
import KeyIntrospection.Proofs.Script.RoundTrip
import KeyIntrospection.Run.Environment

/-!
Printed answers in scripts. Lists of symbols are printed without blanks around their brackets and before
their commas, and strings with more escapes than the canonical ones; both are read back as they are.
-/

namespace KeyIntrospection.Script

open KeyIntrospection.Alignment (Natural)

/-- The rule reads the characters as the value, up to places, where a character comes next that is allowed to
follow. -/
def ReadsText {α : Type} [Placed α] (p : Rule α) (s : List Char) (x : α) (follow : Option Char → Prop) : Prop :=
  ∀ ⦃c : Cursor⦄ ⦃e : List Char⦄, c.rest = s ++ e → follow e.head? → Gives p c x (· = e)

namespace ReadsText

variable {α β : Type} [Placed α] [Placed β] {p : Rule α} {q : Rule β} {s t : List Char} {x : α} {y : β}
  {f g : Option Char → Prop}

theorem reads {w : String} (inner : ReadsText p w.toList x anything) (visible : Visible w) :
    Reads p [w] x anything := by
  refine ⟨fun u mem => by rwa [List.mem_singleton.mp mem], fun c e _ rest _ => ?_⟩
  obtain ⟨v, n, accepted, alike, rest'⟩ := inner (rest.trans (afterBlanks_lay visible [] e)) trivial
  exact ⟨v, n, accepted, alike, congrArg afterBlanks rest'⟩

theorem mark {m : String} (split : m.toList = s) : ReadsText (Rule.mark m) s () anything := by
  intro c e rest _
  have found : (Token.text m).take? c.rest = some (s, e) := by
    rw [rest]
    simp [Token.text, Token.exactly, split]
  exact ⟨(), c.advance s e, by simp only [Rule.mark, Grammar.accept?, Token.read?, found, Option.map_some], rfl, rfl⟩

theorem map {h : α → β} (inner : ReadsText p s x f) (natural : Natural h) : ReadsText (.map h p) s (h x) f :=
  fun _ _ rest follow => (inner rest follow).map natural

theorem phrase {name : Phrase} {h : α → β} (inner : ReadsText p s x f) (natural : Natural h) (span : Span) :
    ReadsText (Rule.phrase name p h) s ⟨h x, span⟩ f :=
  map (fun _ _ rest follow => (inner rest follow).located span) natural.located

theorem either {name : Phrase} (inner : ReadsText p s x f) : ReadsText (Rule.either name p) s x f :=
  map (fun _ _ rest follow => (inner rest follow).located ⟨0, 0⟩) fun _ _ => rfl

/-- One part after the other, with the spaces between them that are given. -/
theorem seq {b : List Char} (first : ReadsText p s x f) (second : ReadsText q t y g) (spaces : ∀ c ∈ b, isSpace c)
    (joins : ∀ e : List Char, g e.head? → f (b ++ (t ++ e)).head? ∧ Settled (t ++ e)) :
    ReadsText (Rule.seq p q) (s ++ b ++ t) (x, y) g := by
  intro c e rest follow
  obtain ⟨next, settled⟩ := joins e follow
  refine (first (e := b ++ (t ++ e)) (by rw [rest]; simp) next).seq fun d rest' => second ?_ follow
  show afterBlanks d.rest = t ++ e
  rw [rest', afterBlanks_append_of_isSpace spaces, settled]

theorem optional_some (inner : ReadsText p s x f) : ReadsText (.optional p) s (some x) f :=
  fun _ _ rest follow => (inner rest follow).optional_some

theorem optional_none (refused : ∀ ⦃c : Cursor⦄, f c.rest.head? → p.accept? c = none) :
    ReadsText (.optional p) [] none f :=
  fun _ _ rest follow => .optional_none (refused (by rw [rest]; exact follow)) rest

theorem items {text : α → List Char} (consumes : p.Consumes) {l : List α}
    (inner : ∀ x ∈ l, ReadsText p (text x) x f) (starts : ∀ x ∈ l, ∀ r, f (text x ++ r).head? ∧ Settled (text x ++ r))
    (ends : ∀ e : List Char, g e.head? → f e.head? ∧ Settled e)
    (refused : ∀ ⦃c : Cursor⦄, g c.rest.head? → p.accept? c = none) {c : Cursor} {e : List Char}
    (rest : c.rest = l.flatMap text ++ e) (follow : g e.head?) : GivesItems p c l (· = e) := by
  induction l generalizing c with
  | nil =>
    have settled : Settled c.rest := by
      rw [rest]
      exact (ends e follow).2
    refine .nil ?_ rest
    rw [Cursor.skipBlanks_of_settled settled]
    exact refused (by rw [rest]; exact follow)
  | cons x l ih =>
    rw [List.flatMap_cons, List.append_assoc] at rest
    have settled : Settled c.rest := by
      rw [rest]
      exact (starts x List.mem_cons_self _).2
    have next : f (l.flatMap text ++ e).head? := by
      cases l with
      | nil => exact (ends e follow).1
      | cons y l =>
        rw [List.flatMap_cons, List.append_assoc]
        exact (starts y (List.mem_cons_of_mem x List.mem_cons_self) _).1
    have first := inner x List.mem_cons_self rest next
    rw [← Cursor.skipBlanks_of_settled settled] at first
    exact .cons consumes first fun d rest' => ih (fun y mem => inner y (List.mem_cons_of_mem x mem))
      (fun y mem => starts y (List.mem_cons_of_mem x mem)) rest'

theorem many {text : α → List Char} (consumes : p.Consumes) {l : List α}
    (inner : ∀ x ∈ l, ReadsText p (text x) x f) (starts : ∀ x ∈ l, ∀ r, f (text x ++ r).head? ∧ Settled (text x ++ r))
    (ends : ∀ e : List Char, g e.head? → f e.head? ∧ Settled e)
    (refused : ∀ ⦃c : Cursor⦄, g c.rest.head? → p.accept? c = none) :
    ReadsText (.many p) (l.flatMap text) l g := by
  intro c e rest follow
  refine .many (items consumes inner starts ends refused rest follow) consumes ?_
  rw [rest]
  cases l with
  | nil => exact (ends e follow).2
  | cons x l =>
    rw [List.flatMap_cons, List.append_assoc]
    exact (starts x List.mem_cons_self _).2

/-- No letter, digit or underscore comes next. -/
def noPart (h : Option Char) : Prop := ∀ c ∈ h, Word.isPart c = false

theorem symbol {n : Name} (isName : isSymbolName n.value) : ReadsText Rule.symbol (':' :: n.value.toList) n noPart := by
  have parts : ReadsText (Grammar.seq .nothing (Rule.mark ":") (Rule.name .symbolName Word.symbolName))
      (':' :: n.value.toList) ((), n) noPart := by
    intro c e rest follow
    obtain ⟨span, next, accepted, rest'⟩ := Reads.accept?_seq_name (Word.take?_symbolName_append isName follow) rest
    exact ⟨_, next, accepted, alike_pair rfl (alike_located rfl _ _), rest'⟩
  exact phrase parts (fun _ _ => rfl) n.span

/-- The characters of symbols after the first one. -/
def further (l : List Name) : List Char := l.flatMap fun n => [','] ++ [' '] ++ (':' :: n.value.toList)

theorem toList_displaySymbols (n : Name) (l : List Name) :
    (displaySymbols ((n :: l).map Located.value)).toList = ['['] ++ (':' :: n.value.toList ++ further l ++ [']']) := by
  have opens : "[".toList = ['['] := by decide
  have closes : "]".toList = [']'] := by decide
  have comma : ", ".toList = [',', ' '] := by decide
  rw [displaySymbols, String.toList_append, String.toList_append, String.toList_intercalate, opens, closes, comma,
    List.map_cons, List.map_cons, List.map_cons, intercalate_cons, toList_symbol]
  simp [further, List.flatMap_map]

/-- At the bracket that ends a list, what begins otherwise is refused. -/
theorem refused_at_bracket {γ : Type} {p : Rule γ} {l : Lead} (begins : p.Begins fun s => lead s = l)
    (other : l ≠ .sign ']') ⦃c : Cursor⦄ (closes : c.rest.head? = some ']') : p.accept? c = none := by
  obtain ⟨s, rest⟩ := List.head?_eq_some_iff.mp closes
  have settled : Settled c.rest := by
    rw [rest]
    exact settled_cons (by decide) s
  exact Reads.refused_at_sign begins (by decide) (fun s same found => other (found.symm.trans same)) settled closes

theorem noComma ⦃c : Cursor⦄ (closes : c.rest.head? = some ']') : (Rule.mark ",").accept? c = none :=
  refused_at_bracket Rule.comma_begins (by decide) closes

theorem settled_further (l : List Name) {e : List Char} (closes : e.head? = some ']') :
    noPart (further l ++ e).head? ∧ Settled (further l ++ e) := by
  cases l with
  | nil =>
    obtain ⟨s, rfl⟩ := List.head?_eq_some_iff.mp closes
    exact ⟨fun c head => by cases head; decide, settled_cons (by decide) s⟩
  | cons m l => exact ⟨fun c head => by cases head; decide, settled_cons (by decide) _⟩

theorem symbols {n : Name} {l : List Name} (areNames : ∀ m ∈ n :: l, isSymbolName m.value) :
    ReadsText (Rule.listed Rule.symbol Rule.symbol) (':' :: n.value.toList ++ further l) (n :: l) (· = some ']') := by
  have next (m : Name) (mem : m ∈ l) : ReadsText (.map Prod.snd (Rule.seq (Rule.mark ",") Rule.symbol))
      ([','] ++ [' '] ++ (':' :: m.value.toList)) m noPart := by
    have name := symbol (areNames m (List.mem_cons_of_mem n mem))
    have spaces : ∀ c ∈ [' '], isSpace c := List.forall_mem_singleton.mpr (by decide)
    exact map ((mark (by decide)).seq name spaces fun e _ => ⟨trivial, settled_cons (by decide) _⟩) fun _ _ => rfl
  have others : ReadsText (.many (.map Prod.snd (Rule.seq (Rule.mark ",") Rule.symbol))) (further l) l (· = some ']') := by
    have comma : (Rule.mark ",").Consumes := Rule.mark_consumes (by decide)
    refine many (.map comma.seq) next (fun m _ r => ?_) (fun e closes => ?_) fun c closes => ?_
    · exact ⟨fun c head => by cases head; decide, settled_cons (by decide) _⟩
    · exact settled_further [] closes
    · simp [Grammar.accept?, noComma closes]
  have spaces : ∀ c ∈ ([] : List Char), isSpace c := List.forall_mem_nil _
  -- the grammar allows a comma after the last symbol, which is not printed
  have absent : ReadsText (.optional (Rule.mark ",")) [] none (· = some ']') := optional_none noComma
  have ends := others.seq absent spaces fun e closes => ⟨closes, (settled_further [] closes).2⟩
  have all := (symbol (areNames n List.mem_cons_self)).seq ends spaces fun e closes => by
    simpa using settled_further l closes
  rw [List.append_nil, List.append_nil, List.append_nil] at all
  exact map all.optional_some fun _ x => by rcases x with _ | ⟨_, _, _⟩ <;> rfl

end ReadsText

/-- A printed list of symbols is read as the symbols. -/
theorem Reads.symbolList_display {l : List Name} (areNames : ∀ n ∈ l, isSymbolName n.value) :
    Reads Rule.symbolList [displaySymbols (l.map Located.value)] l anything := by
  have opens : ReadsText (Rule.mark "[") ['['] () anything := .mark (by decide)
  have closes : ReadsText (Rule.mark "]") [']'] () anything := .mark (by decide)
  have spaces : ∀ c ∈ ([] : List Char), isSpace c := List.forall_mem_nil _
  have all {s : List Char} (items : ReadsText (Rule.listed Rule.symbol Rule.symbol) s l (· = some ']'))
      (settled : ∀ e, Settled (s ++ (']' :: e))) : ReadsText Rule.symbolList (['['] ++ (s ++ [']'])) l anything := by
    have body := items.seq closes spaces fun e _ => ⟨rfl, settled_cons (by decide) e⟩
    have whole := opens.seq body spaces fun e _ => ⟨trivial, by simpa using settled e⟩
    rw [List.append_nil, List.append_nil] at whole
    exact .either (.map whole fun _ _ => rfl)
  cases l with
  | nil =>
    have text : (displaySymbols ([].map Located.value)).toList = ['['] ++ ([] ++ [']']) := by decide
    have empty : ReadsText (Rule.listed Rule.symbol Rule.symbol) [] [] (· = some ']') := by
      refine .map (.optional_none fun c closes => ?_) fun _ x => by rcases x with _ | ⟨_, _, _⟩ <;> rfl
      exact ReadsText.refused_at_bracket Rule.symbol_begins.seq (by decide) closes
    refine ReadsText.reads ?_ ⟨'[', _, text, by decide⟩
    rw [text]
    exact all empty fun e => settled_cons (by decide) e
  | cons n l =>
    have text := ReadsText.toList_displaySymbols n l
    refine ReadsText.reads ?_ ⟨'[', _, text, by decide⟩
    rw [text]
    exact all (.symbols areNames) fun e => settled_cons (by decide) _

/-- A character that is not written as its code point is written as a script may write it. -/
theorem writes_inspectChar {c : Char} (shown : ¬['\\', 'u'] <+: Text.inspectChar c) :
    Word.Writes (Text.inspectChar c) c := by
  unfold Text.inspectChar at shown ⊢
  split at shown
  · exact Or.inl ⟨'"', rfl, rfl⟩
  · exact Or.inl ⟨'\\', rfl, rfl⟩
  · exact Or.inl ⟨'n', rfl, rfl⟩
  · exact Or.inl ⟨'t', rfl, rfl⟩
  · exact Or.inl ⟨'r', rfl, rfl⟩
  · exact Or.inl ⟨'0', rfl, rfl⟩
  · next quote backslash _ _ _ _ =>
    split at shown
    · exact absurd ⟨_, rfl⟩ shown
    · next plain =>
      rw [if_neg plain]
      exact Or.inr ⟨rfl, quote, backslash⟩

/-- A printed string in which no character is written as its code point is read as the string. -/
theorem Reads.string_inspect {s : Located String} (shown : ∀ c ∈ s.value.toList, ¬['\\', 'u'] <+: Text.inspectChar c) :
    Reads Rule.string [Text.inspect s.value] s anything :=
  string_of_writes fun c mem => writes_inspectChar (shown c mem)

/-- The text of a query, and what its answer is expected to be equal to. -/
theorem parse_expect {text w : String} {q : Located Query} {m : Matcher} (isText : IsQueryText text q)
    (read : Reads Rule.matcher ["==", w] m anything) (span : Span) :
    ∃ s, Statement.parse ("expect " ++ text ++ " == " ++ w) = .ok s ∧ Alike s ⟨.expect q m, span⟩ := by
  obtain ⟨before, inner, split, spaces, query⟩ := isText.reads
  have blanks : ∀ c ∈ ' ' :: before, isSpace c := List.forall_mem_cons.mpr ⟨by decide, spaces⟩
  -- the blanks that the text begins with stand between the keyword and the query
  have parts := (Reads.keyword .expect).joined (query.before read) (List.cons_ne_nil ' ' before) blanks
  have statement := Reads.statement_of_expectation (.phrase parts (fun _ _ => rfl) span)
  obtain ⟨s, parsed, alike⟩ := parse_words (List.cons_ne_nil _ _) statement trivial
  have word : "expect ".toList = Keyword.expect.text.toList ++ [' '] := by decide
  have sign : " == ".toList = ' ' :: ("==".toList ++ [' ']) := by decide
  have same : "expect " ++ text ++ " == " ++ w = " ".intercalate
      [.ofList (Keyword.expect.text.toList ++ ' ' :: before ++ inner.toList), "==", w] := by
    apply String.toList_inj.mp
    rw [toList_intercalate, String.toList_ofList, String.toList_append, String.toList_append, String.toList_append, split,
      word, sign]
    simp [lay]
  exact ⟨s, by rw [same]; exact parsed, alike⟩

end KeyIntrospection.Script
