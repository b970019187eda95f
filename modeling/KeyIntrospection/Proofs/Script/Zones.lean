import KeyIntrospection.Proofs.Script.Spans

/-!
Where the string literals of a text are. The characters alone show it: a quote that stands in no comment and in
no string opens one. So the strings of a script are those that a scan of its source finds.
-/

namespace KeyIntrospection.Script

/-- What a place of a text belongs to; `escape` is the place after a backslash in a string. -/
inductive Zone where
  | code
  | comment
  | string
  | escape
deriving DecidableEq, Repr

namespace Zone

def next : Zone → Char → Zone
  | code, c => if c = '"' then string else if c = '#' then comment else code
  | comment, c => if isLineBreak c then code else comment
  | string, c => if c = '"' then code else if c = '\\' then escape else string
  | escape, _ => string

/-- The zone after some characters. -/
def after (z : Zone) (s : List Char) : Zone := s.foldl next z

def isQuoted : Zone → Bool
  | code | comment => false
  | string | escape => true

@[simp] theorem after_nil (z : Zone) : z.after [] = z := rfl

@[simp] theorem after_cons (z : Zone) (c : Char) (s : List Char) : z.after (c :: s) = (z.next c).after s := rfl

theorem next_code {c : Char} (quote : c ≠ '"') (hash : c ≠ '#') : code.next c = code := by simp [next, quote, hash]

theorem next_lineBreak {z : Zone} {c : Char} (free : z.isQuoted = false) (lineBreak : isLineBreak c) :
    z.next c = code := by
  rcases isLineBreak_iff.mp lineBreak with rfl | rfl <;> cases z <;> first | rfl | cases free

end Zone

/-- The spans of the strings of a text that begins at `offset`; a string that it begins in was opened at `opening`,
and one that does not end goes on past the end. -/
def quotes : Zone → Nat → Nat → List Char → List Span
  | z, opening, offset, [] => if z.isQuoted then [⟨opening, offset + 1⟩] else []
  | z, opening, offset, c :: s =>
    let later := quotes (z.next c) (if z.isQuoted then opening else offset) (offset + c.utf8Size) s
    if z.isQuoted ∧ (z.next c).isQuoted = false then ⟨opening, offset + c.utf8Size⟩ :: later else later

section Scan

variable {z : Zone} {opening offset : Nat} {c : Char} {s : List Char}

theorem quotes_cons_of_free (free : z.isQuoted = false) :
    quotes z opening offset (c :: s) = quotes (z.next c) offset (offset + c.utf8Size) s := by
  simp [quotes, free]

theorem quotes_cons_of_inside (quoted : z.isQuoted) (still : (z.next c).isQuoted) :
    quotes z opening offset (c :: s) = quotes (z.next c) opening (offset + c.utf8Size) s := by
  simp [quotes, quoted, still]

/-- Outside of strings it means nothing where the last one was opened. -/
theorem quotes_congr (free : z.isQuoted = false) (opening' : Nat) :
    quotes z opening offset s = quotes z opening' offset s := by
  cases s with
  | nil => simp [quotes, free]
  | cons c s => rw [quotes_cons_of_free free, quotes_cons_of_free free]

/-- Characters that leave the zone as it is are passed over. -/
theorem quotes_append (free : z.isQuoted = false) {t : List Char} (stays : ∀ c ∈ t, z.next c = z)
    (opening offset opening' : Nat) (s : List Char) :
    quotes z opening offset (t ++ s) = quotes z opening' (offset + byteLength t) s := by
  induction t generalizing opening offset with
  | nil => exact quotes_congr free opening'
  | cons c t ih =>
    rw [List.cons_append, quotes_cons_of_free free, stays c List.mem_cons_self,
      ih fun d mem => stays d (List.mem_cons_of_mem c mem), byteLength, Nat.add_assoc]

/-- Where a line ends, a comment ends. -/
theorem quotes_comment (ending : AtLineEnd s) (opening' : Nat) :
    quotes .comment opening offset s = quotes .code opening' offset s := by
  cases s with
  | nil => rfl
  | cons c s =>
    have lineBreak := ending c rfl
    rw [quotes_cons_of_free rfl, quotes_cons_of_free rfl, Zone.next_lineBreak rfl lineBreak,
      Zone.next_lineBreak rfl lineBreak]

/-- Blanks and a comment hold no strings. -/
theorem quotes_blanks (opening opening' : Nat) (s : List Char) :
    quotes .code opening offset s = quotes .code opening' (offset + byteLength (blanks s)) (afterBlanks s) := by
  have space : ∀ d ∈ s.takeWhile isSpace, Zone.code.next d = .code := fun d mem => by
    rcases isSpace_iff.mp (List.all_eq_true.mp List.all_takeWhile d mem) with rfl | rfl <;> rfl
  have spaces := quotes_append rfl space opening offset opening' (s.dropWhile isSpace)
  rw [List.takeWhile_append_dropWhile] at spaces
  rw [spaces, blanks, afterBlanks, byteLength_append, ← Nat.add_assoc]
  split
  · next hash =>
    obtain ⟨t, rest⟩ := List.head?_eq_some_iff.mp hash
    have line : ∀ d ∈ t.takeWhile (!isLineBreak ·), Zone.comment.next d = .comment := fun d mem => by
      have solid : isLineBreak d = false := by simpa using List.all_eq_true.mp List.all_takeWhile d mem
      simp [Zone.next, solid]
    have hash : isLineBreak '#' = false := by decide
    have comment := quotes_append (z := .comment) rfl line (offset + byteLength (s.takeWhile isSpace))
      (offset + byteLength (s.takeWhile isSpace) + 1) opening' (t.dropWhile (!isLineBreak ·))
    rw [List.takeWhile_append_dropWhile, quotes_comment (atLineEnd_dropWhile t) opening'] at comment
    rw [rest, quotes_cons_of_free rfl, List.takeWhile_cons, List.dropWhile_cons]
    simp only [hash, Bool.not_false, if_true, byteLength, ← Nat.add_assoc]
    exact comment
  · rfl

theorem quotes_quotable {body : List Char} (quotable : Word.Quotable body) (opening offset opening' : Nat) (s : List Char) :
    quotes .string opening offset (body ++ '"' :: s) =
      ⟨opening, offset + byteLength body + 1⟩ :: quotes .code opening' (offset + byteLength body + 1) s := by
  induction quotable generalizing offset with
  | nil =>
    have closing : quotes .string opening offset ('"' :: s) =
        ⟨opening, offset + 1⟩ :: quotes .code opening (offset + 1) s := rfl
    rw [List.nil_append, closing, quotes_congr rfl opening']
    rfl
  | @plain c t quote backslash _ ih =>
    have still : Zone.string.next c = .string := by simp [Zone.next, quote, backslash]
    rw [List.cons_append, quotes_cons_of_inside rfl (by rw [still]; rfl), still, ih, byteLength]
    simp only [Nat.add_assoc]
  | @escaped c t _ ih =>
    have backslash : '\\'.utf8Size = 1 := by decide
    rw [List.cons_append, List.cons_append, quotes_cons_of_inside rfl rfl, quotes_cons_of_inside rfl rfl]
    refine (ih _).trans ?_
    simp only [byteLength, backslash, Nat.add_assoc]

/-- A string that the text begins in goes on there. -/
theorem exists_quotes_open (quoted : z.isQuoted) (opening offset : Nat) (s : List Char) :
    ∃ r ∈ quotes z opening offset s, r.start = opening ∧ offset < r.stop := by
  induction s generalizing z offset with
  | nil => exact ⟨⟨opening, offset + 1⟩, by simp [quotes, quoted], rfl, Nat.lt_succ_self _⟩
  | cons c s ih =>
    have size := c.utf8Size_pos
    cases still : (z.next c).isQuoted with
    | false => exact ⟨⟨opening, offset + c.utf8Size⟩, by simp [quotes, quoted, still], rfl, by simp; omega⟩
    | true =>
      rw [quotes_cons_of_inside quoted still]
      obtain ⟨r, mem, start, stop⟩ := ih still (offset + c.utf8Size)
      exact ⟨r, mem, start, by omega⟩

/-- A place where a string is open is inside of one that the scan finds. -/
theorem exists_quotes_around {before : List Char} (quoted : (z.after before).isQuoted)
    (earlier : z.isQuoted → opening < offset) (s : List Char) :
    ∃ r ∈ quotes z opening offset (before ++ s),
      r.start < offset + byteLength before ∧ offset + byteLength before < r.stop := by
  induction before generalizing z opening offset with
  | nil =>
    obtain ⟨r, mem, start, stop⟩ := exists_quotes_open quoted opening offset s
    have opened := earlier quoted
    exact ⟨r, mem, by simp only [byteLength]; omega, by simpa [byteLength] using stop⟩
  | cons c t ih =>
    have size := c.utf8Size_pos
    have later : (z.next c).isQuoted → (if z.isQuoted then opening else offset) < offset + c.utf8Size := fun _ => by
      split
      · next quoted =>
        have opened := earlier quoted
        omega
      · omega
    obtain ⟨r, mem, start, stop⟩ := ih quoted later
    refine ⟨r, ?_, by rw [byteLength]; omega, by rw [byteLength]; omega⟩
    rw [List.cons_append, quotes]
    split
    · exact List.mem_cons_of_mem _ mem
    · exact mem

end Scan

/-- The spans of the strings in what is left of a text, for a cursor that stands between tokens. -/
def stringsFrom (c : Cursor) : List Span := quotes .code 0 c.offset c.rest

theorem stringsFrom_advance {c : Cursor} {x r : List Char} (split : x ++ r = c.rest)
    (plain : ∀ d ∈ x, d ≠ '"' ∧ d ≠ '#') : stringsFrom c = stringsFrom (c.advance x r) := by
  rw [stringsFrom, stringsFrom, ← split,
    quotes_append rfl (fun d mem => Zone.next_code (plain d mem).1 (plain d mem).2) 0 c.offset 0 r]
  rfl

theorem stringsFrom_skipBlanks (c : Cursor) : stringsFrom c.skipBlanks = stringsFrom c := (quotes_blanks _ _ _).symm

mutual

/-- The spans of the strings in a region, in the order of the source. -/
def Region.strings : Region → List Span
  | .node span (.string _) inside => span :: Region.stringsIn inside
  | .node _ _ inside => Region.stringsIn inside

def Region.stringsIn : List Region → List Span
  | [] => []
  | r :: l => r.strings ++ Region.stringsIn l

end

@[simp] theorem Region.stringsIn_append (l l' : List Region) :
    Region.stringsIn (l ++ l') = Region.stringsIn l ++ Region.stringsIn l' := by
  induction l with
  | nil => rfl
  | cons r l ih => simp [Region.stringsIn, ih]

/-- The strings between two cursors are those of the regions there. -/
def scanning : Survey where
  holds c d l := stringsFrom c = Region.stringsIn l ++ stringsFrom d
  nil _ := rfl
  append first second := by rw [first, second, Region.stringsIn_append, List.append_assoc]
  blanks c := (stringsFrom_skipBlanks c).symm

theorem scanning_plain {t : Token} (plain : t.Plain) : scanning.Finds (.plain t) fun _ => [] := by
  intro c k x accepted _
  obtain ⟨⟨_, last⟩, read, rfl⟩ := Option.map_eq_some_iff.mp accepted
  obtain ⟨⟨taken, rest⟩, found, same⟩ := Option.map_eq_some_iff.mp read
  cases same
  exact stringsFrom_advance (t.append_eq found) (plain found)

theorem scanning_token {α : Type} {p : Phrase} {t : Token} {read : Located (List Char) → Except LiteralFault α}
    {f : α → List Region} (plain : t.Plain) (silent : ∀ x y, read x = .ok y → Region.stringsIn (f y) = []) :
    scanning.Finds (.token p t read) f := by
  intro c k x accepted value
  obtain ⟨⟨_, last⟩, read, rfl⟩ := Option.map_eq_some_iff.mp accepted
  obtain ⟨⟨taken, rest⟩, found, same⟩ := Option.map_eq_some_iff.mp read
  cases same
  refine (stringsFrom_advance (t.append_eq found) (plain found)).trans ?_
  rw [silent _ _ value]
  rfl

/-- A string literal is one string. -/
theorem scanning_string : scanning.Finds Rule.string fun s => [literalAt (s.map .string)] := by
  intro c k x accepted value
  obtain ⟨⟨_, last⟩, read, rfl⟩ := Option.map_eq_some_iff.mp accepted
  obtain ⟨⟨taken, rest⟩, found, same⟩ := Option.map_eq_some_iff.mp read
  cases same
  obtain ⟨body, quotable, rfl, split⟩ := Word.take?_string_eq_some_iff.mp found
  have quote : '"'.utf8Size = 1 := by decide
  have scanned := quotes_quotable quotable c.offset (c.offset + 1) 0 rest
  have length : c.offset + byteLength ('"' :: (body ++ ['"'])) = c.offset + 1 + byteLength body + 1 := by
    simp only [byteLength, byteLength_append, quote]
    omega
  dsimp only at value ⊢
  cases content : readString ⟨'"' :: (body ++ ['"']), c.offset, (c.advance ('"' :: (body ++ ['"'])) rest).offset⟩ with
  | error e =>
    rw [content] at value
    cases value
  | ok text =>
    rw [content] at value
    cases value
    change stringsFrom c = _
    rw [stringsFrom, split, quotes_cons_of_free rfl, quote]
    refine scanned.trans ?_
    rw [← length]
    rfl

theorem scanning_symbol : scanning.Finds Rule.symbol fun n => [symbolAt n] := by
  have colon : (Token.text ":").Bare := .text (by decide)
  have word : scanning.Finds (Rule.name .symbolName Word.symbolName) fun _ => [] :=
    scanning_token Word.bare_symbolName.plain fun _ _ _ => rfl
  have parts : scanning.Finds (Grammar.seq .nothing (Rule.mark ":") (Rule.name .symbolName Word.symbolName)) fun _ => [] :=
    .before (scanning_plain colon.plain) word
  have inner : scanning.Finds Rule.symbol fun _ => [] := .map parts.inside
  exact fun _ _ _ accepted value => inner accepted value

theorem ofScripts_scanning : scanning.OfScripts where
  plain := scanning_plain
  silent plain := scanning_token plain fun _ _ _ => rfl
  name bare _ := scanning_token bare.plain fun _ _ _ => rfl
  symbol := scanning_symbol
  string := scanning_string
  integer := scanning_token Word.bare_integer.plain fun x _ value => by
    cases number : readInteger x <;> rw [number] at value <;> cases value
    rfl
  float := scanning_token Word.bare_float.plain fun _ _ value => by
    cases value
    rfl
  phrase _ inner := by
    intro c k x accepted value
    refine (inner.inside accepted value).trans ?_
    simp only [phraseAt, Region.stringsIn, Region.strings, List.append_nil]
  around found := by
    refine found.trans ?_
    simp only [Region.stringsIn, Region.strings, List.append_nil]

namespace Rule

open Grammar

theorem exists_accept_of_seq {α β : Type} {gap : Gap} {p : Rule α} {q : Rule β} {c : Cursor}
    {m : Match LiteralFault (α × β)} (accepted : (Grammar.seq gap p q).accept? c = some m) :
    ∃ d n, q.accept? d = some n ∧ n.next = m.next := by
  obtain ⟨k, _, follows⟩ := Option.bind_eq_some_iff.mp accepted
  obtain ⟨n, found, rfl⟩ := Option.map_eq_some_iff.mp follows
  exact ⟨_, n, found, rfl⟩

/-- A script goes on to the end of its source. -/
theorem rest_of_accept?_script {c : Cursor} {m : Match LiteralFault (Located (List (Located Statement)))}
    (accepted : script.accept? c = some m) : m.next.rest = [] := by
  obtain ⟨_, located, rfl⟩ := Option.map_eq_some_iff.mp accepted
  obtain ⟨_, parts, rfl⟩ := Option.map_eq_some_iff.mp located
  obtain ⟨_, _, lines, next⟩ := exists_accept_of_seq parts
  obtain ⟨_, _, statements, next'⟩ := exists_accept_of_seq lines
  obtain ⟨_, _, ending, next''⟩ := exists_accept_of_seq statements
  rw [accept?_endOfInput, Option.ite_none_right_eq_some, Option.some.injEq] at ending
  obtain ⟨finished, rfl⟩ := ending
  simp only [Match.map, ← next, ← next', ← next'', finished]

end Rule

end Script

open Script

/-- The spans of the string literals of a script, in the order of its source. -/
def Script.strings (s : Script) : List Span := Region.stringsIn (s.statements.map (phraseAt Statement.regions))

/-- The place is between two characters of what the span covers. -/
def Span.Surrounds (r : Span) (offset : Nat) : Prop := r.start < offset ∧ offset < r.stop

instance (r : Span) (offset : Nat) : Decidable (r.Surrounds offset) := inferInstanceAs (Decidable (_ ∧ _))

namespace Script

/-- The string literals of a script are the strings that a scan of its source finds. -/
theorem quotes_of_parse {source : String} {file : Option String} {s : Script}
    (parsed : Script.parse source file = .ok s) : quotes .code 0 0 source.toList = s.strings := by
  obtain ⟨l, whole, rfl⟩ := Rule.exists_parse_of_script parsed
  obtain ⟨m, found, value⟩ := Rule.exists_accept_of_parse whole
  have scanned : stringsFrom (Cursor.ofText source) = _ ++ stringsFrom m.next := ofScripts_scanning.script found value
  rw [stringsFrom, stringsFrom, Rule.rest_of_accept?_script found] at scanned
  exact scanned.trans (List.append_nil _)

/-- Where a scan is inside of a string, a string literal of the script is around the place. -/
theorem exists_string_of_isQuoted {source : String} {file : Option String} {s : Script}
    (parsed : Script.parse source file = .ok s) {before after : List Char} (split : source.toList = before ++ after)
    (quoted : (Zone.code.after before).isQuoted) : ∃ r ∈ s.strings, r.Surrounds (byteLength before) := by
  have outside : Zone.code.isQuoted → 0 < 0 := fun quoted => by cases quoted
  obtain ⟨r, mem, start, stop⟩ := exists_quotes_around quoted outside after
  rw [← split, quotes_of_parse parsed] at mem
  rw [Nat.zero_add] at start stop
  exact ⟨r, mem, start, stop⟩

end Script

end KeyIntrospection
