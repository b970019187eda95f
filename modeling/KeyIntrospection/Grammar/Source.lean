/-!
Places in a source text. A cursor stands between two characters of a text: it holds what is left to
read and the number of bytes before it. A token takes characters from the head of a text and loses
none of them; blanks and comments are what may stand between tokens.
-/

namespace KeyIntrospection

/-- A range of bytes of a source text. -/
structure Span where
  start : Nat
  stop : Nat
deriving DecidableEq, Repr

def Span.length (s : Span) : Nat := s.stop - s.start

/-- Something that was read, with the place where it stands. -/
structure Located (α : Type) where
  value : α
  span : Span
deriving DecidableEq, Repr

namespace Located

variable {α β : Type}

def map (f : α → β) (x : Located α) : Located β := ⟨f x.value, x.span⟩

end Located

/-- How many bytes the characters take in UTF-8. -/
def byteLength : List Char → Nat
  | [] => 0
  | c :: rest => c.utf8Size + byteLength rest

@[simp] theorem byteLength_append (s t : List Char) :
    byteLength (s ++ t) = byteLength s + byteLength t := by
  induction s with
  | nil => simp [byteLength]
  | cons c rest ih => simp [byteLength, ih, Nat.add_assoc]

/-- A place in a source text: what is left to read, and how many bytes were read before. -/
structure Cursor where
  rest : List Char
  offset : Nat
deriving DecidableEq, Repr

namespace Cursor

def ofText (s : String) : Cursor := ⟨s.toList, 0⟩

/-- The cursor after `taken`, with `rest` left. -/
def advance (c : Cursor) (taken rest : List Char) : Cursor := ⟨rest, c.offset + byteLength taken⟩

/-- `d` is the cursor that reading on from `c` leads to, or `c` itself. -/
def Reaches (c d : Cursor) : Prop := ∃ taken, c.rest = taken ++ d.rest ∧ d = c.advance taken d.rest

theorem Reaches.refl (c : Cursor) : c.Reaches c := ⟨[], rfl, rfl⟩

theorem Reaches.trans {c d e : Cursor} (first : c.Reaches d) (second : d.Reaches e) : c.Reaches e := by
  obtain ⟨s, split, next⟩ := first
  obtain ⟨t, split', next'⟩ := second
  refine ⟨s ++ t, by rw [split, split', List.append_assoc], ?_⟩
  rw [next', next]
  simp [advance, Nat.add_assoc]

theorem reaches_advance {c : Cursor} {taken rest : List Char} (split : taken ++ rest = c.rest) :
    c.Reaches (c.advance taken rest) :=
  ⟨taken, split.symm, rfl⟩

/-- A cursor that stands later has less to read. -/
theorem Reaches.length_lt {c d : Cursor} (reach : c.Reaches d) (later : c.offset < d.offset) :
    d.rest.length < c.rest.length := by
  obtain ⟨taken, split, next⟩ := reach
  cases taken with
  | nil =>
    rw [next] at later
    simp [advance, byteLength] at later
  | cons x s =>
    rw [split, List.length_append, List.length_cons]
    omega

end Cursor

/-- A kind of text that is read without blanks inside: what it takes from the head of a text, and
what is left. -/
structure Token where
  take? : List Char → Option (List Char × List Char)
  append_eq : ∀ {s taken rest : List Char}, take? s = some (taken, rest) → taken ++ rest = s

namespace Token

/-- The longest run of characters, with one class for the first and one for the others. -/
def run (first others : Char → Bool) : Token where
  take?
    | [] => none
    | c :: s => if first c then some (c :: s.takeWhile others, s.dropWhile others) else none
  append_eq {s taken rest} h := by
    cases s with
    | nil => simp at h
    | cons c s =>
      simp only [Option.ite_none_right_eq_some, Option.some.injEq, Prod.mk.injEq] at h
      obtain ⟨_, rfl, rfl⟩ := h
      simp

/-- Exactly the characters `s`. -/
def exactly (s : List Char) : Token where
  take? t := if s.isPrefixOf t then some (s, t.drop s.length) else none
  append_eq {t taken rest} h := by
    simp only [Option.ite_none_right_eq_some, Option.some.injEq, Prod.mk.injEq,
      List.isPrefixOf_iff_prefix] at h
    obtain ⟨⟨u, rfl⟩, rfl, rfl⟩ := h
    simp

def text (s : String) : Token := exactly s.toList

/-- `c` if it is there, otherwise nothing. -/
def optional (c : Char) : Token where
  take?
    | [] => some ([], [])
    | d :: s => if d = c then some ([d], s) else some ([], d :: s)
  append_eq {s taken rest} h := by
    cases s with
    | nil => simp_all
    | cons d s =>
      dsimp only at h
      split at h <;> simp only [Option.some.injEq, Prod.mk.injEq] at h <;>
        obtain ⟨rfl, rfl⟩ := h <;> rfl

/-- `t` and directly after it `u`. -/
def append (t u : Token) : Token where
  take? s := (t.take? s).bind fun (x, r) => (u.take? r).map fun (y, r') => (x ++ y, r')
  append_eq {s taken rest} h := by
    simp only [Option.bind_eq_some_iff, Option.map_eq_some_iff, Prod.exists, Prod.mk.injEq] at h
    obtain ⟨x, r, hx, y, r', hy, rfl, rfl⟩ := h
    rw [List.append_assoc, u.append_eq hy, t.append_eq hx]

/-- `t`, if the text that it takes is one of those wanted. -/
def filter (t : Token) (wanted : List Char → Bool) : Token where
  take? s := (t.take? s).filter fun (x, _) => wanted x
  append_eq h := t.append_eq (Option.filter_eq_some_iff.1 h).1

/-- The end of the text, which takes nothing. -/
def endOfText : Token where
  take? s := if s.isEmpty then some ([], []) else none
  append_eq {s taken rest} h := by
    cases s <;> simp_all

/-- Nothing, anywhere. -/
def nothing : Token where
  take? s := some ([], s)
  append_eq {s taken rest} h := by simp_all

/-- A line break: `\n`, `\r\n` or `\r`. -/
def lineBreak : Token where
  take?
    | '\n' :: s => some (['\n'], s)
    | '\r' :: '\n' :: s => some (['\r', '\n'], s)
    | '\r' :: s => some (['\r'], s)
    | _ => none
  append_eq {s taken rest} h := by
    split at h <;> simp only [Option.some.injEq, Prod.mk.injEq, reduceCtorEq] at h <;>
      obtain ⟨rfl, rfl⟩ := h <;> rfl

/-- The token at a cursor, and the cursor after it. -/
def read? (t : Token) (c : Cursor) : Option (Located (List Char) × Cursor) :=
  (t.take? c.rest).map fun (taken, rest) =>
    let next := c.advance taken rest
    (⟨taken, c.offset, next.offset⟩, next)

theorem read?_reaches {t : Token} {c next : Cursor} {x : Located (List Char)}
    (h : t.read? c = some (x, next)) : c.Reaches next := by
  obtain ⟨⟨taken, rest⟩, takes, same⟩ := Option.map_eq_some_iff.1 h
  cases same
  exact Cursor.reaches_advance (t.append_eq takes)

end Token

def isLineBreak (c : Char) : Bool := c == '\n' || c == '\r'

def isSpace (c : Char) : Bool := c == ' ' || c == '\t'

/-- The spaces at the head of a text and the comment after them. -/
def blanks (s : List Char) : List Char :=
  let rest := s.dropWhile isSpace
  s.takeWhile isSpace ++ if rest.head? = some '#' then rest.takeWhile (!isLineBreak ·) else []

/-- What follows the spaces at the head of a text and the comment after them. -/
def afterBlanks (s : List Char) : List Char :=
  let rest := s.dropWhile isSpace
  if rest.head? = some '#' then rest.dropWhile (!isLineBreak ·) else rest

theorem blanks_append_afterBlanks (s : List Char) : blanks s ++ afterBlanks s = s := by
  simp only [blanks, afterBlanks]
  split
  · rw [List.append_assoc, List.takeWhile_append_dropWhile, List.takeWhile_append_dropWhile]
  · rw [List.append_nil, List.takeWhile_append_dropWhile]

def Cursor.skipBlanks (c : Cursor) : Cursor := c.advance (blanks c.rest) (afterBlanks c.rest)

theorem Cursor.reaches_skipBlanks (c : Cursor) : c.Reaches c.skipBlanks :=
  Cursor.reaches_advance (blanks_append_afterBlanks c.rest)

end KeyIntrospection
