import KeyIntrospection.Text.SExpr
import Mathlib.Data.List.Forall2

/-!
S-expressions read from the end of their text. In a quoted text only the quotes are escaped, so it may end
in a backslash that seems to escape the quote after it, and from the front it cannot be told where a quoted
text ends. From the end it can: each quote inside has a backslash before it, and the quote that opens the
text has none. A text read in this way gives back the expression it was made from, up to the layout.
-/

namespace KeyIntrospection.Text

/-- What ends an atom. -/
def isDelimiter (c : Char) : Bool := c ∈ [' ', '\n', '(', ')', '[', ']', '"']

namespace SExpr

mutual

/-- The expression with each block on one line. -/
def flat : SExpr → SExpr
  | atom text => atom text
  | quoted text => quoted text
  | line items => line (flatAll items)
  | vector items => vector (flatAll items)
  | block head body _ => line (flatAll head ++ flatAll body)

def flatAll : List SExpr → List SExpr
  | [] => []
  | e :: rest => e.flat :: flatAll rest

end

theorem flatAll_eq_map (items : List SExpr) : flatAll items = items.map flat := by
  induction items with
  | nil => rfl
  | cons e rest ih => rw [flatAll, ih, List.map_cons]

/-- A text without delimiters. -/
def IsWord (text : String) : Prop := text.toList ≠ [] ∧ ∀ c ∈ text.toList, isDelimiter c = false

mutual

/-- The atoms are words. -/
def Legible : SExpr → Prop
  | atom text => IsWord text
  | quoted _ => True
  | line items => LegibleAll items
  | vector items => LegibleAll items
  | block head body _ => LegibleAll head ∧ LegibleAll body

def LegibleAll : List SExpr → Prop
  | [] => True
  | e :: rest => e.Legible ∧ LegibleAll rest

end

theorem legibleAll_iff {items : List SExpr} : LegibleAll items ↔ ∀ e ∈ items, e.Legible := by
  induction items with
  | nil => simp [LegibleAll]
  | cons e rest ih => rw [LegibleAll, ih, List.forall_mem_cons]

end SExpr

/-- What a reader who goes through a text from its end has begun to read. -/
inductive Pending where
  /-- An atom, or nothing if it has no character yet. -/
  | atom (text : List Char)
  | quoted (text : List Char)
  /-- A quoted text and a quote before it, which opens the text unless a backslash stands before it. -/
  | opened (text : List Char)

/-- A reader who goes through a text from its end: what was begun, the expressions after it on this level,
and those after this level on the levels around it. -/
structure Reader where
  pending : Pending
  row : List SExpr
  outer : List (List SExpr)

namespace Reader

def fresh (row : List SExpr) (outer : List (List SExpr)) : Reader := ⟨.atom [], row, outer⟩

/-- The expressions on this level if nothing more belongs to what was begun. -/
def settled (r : Reader) : List SExpr :=
  match r.pending with
  | .atom [] => r.row
  | .atom text => .atom (.ofList text) :: r.row
  | .quoted _ => r.row
  | .opened text => .quoted (.ofList text) :: r.row

/-- The end of a level: what was read on it is one expression of the level around it. -/
def close (r : Reader) (form : List SExpr → SExpr) : Reader :=
  match r.outer with
  | [] => fresh [form r.settled] []
  | row :: outer => fresh (form r.settled :: row) outer

/-- A character outside of quoted texts. -/
def outside (c : Char) (r : Reader) : Reader :=
  if c = '"' then ⟨.quoted [], r.settled, r.outer⟩
  else if c = ')' ∨ c = ']' then fresh [] (r.settled :: r.outer)
  else if c = '(' then r.close .line
  else if c = '[' then r.close .vector
  else if c = ' ' ∨ c = '\n' then fresh r.settled r.outer
  else
    match r.pending with
    | .atom text => ⟨.atom (c :: text), r.row, r.outer⟩
    | _ => ⟨.atom [c], r.settled, r.outer⟩

/-- The character before those that were read. -/
def step (c : Char) (r : Reader) : Reader :=
  match r.pending with
  | .quoted text => ⟨if c = '"' then .opened text else .quoted (c :: text), r.row, r.outer⟩
  | .opened text => if c = '\\' then ⟨.quoted ('"' :: text), r.row, r.outer⟩ else r.outside c
  | .atom _ => r.outside c

def read (s : List Char) (r : Reader) : Reader := s.foldr step r

/-- The expressions of a text. -/
def expressions (s : List Char) : List SExpr := (read s (fresh [] [])).settled

theorem read_append (s t : List Char) (r : Reader) : read (s ++ t) r = read s (read t r) := List.foldr_append

/-- No quoted text has been begun. -/
def IsOutside (r : Reader) : Prop := ∀ text, r.pending ≠ .quoted text

/-- A character that is neither a quote nor a backslash is read outside of quoted texts. -/
theorem step_of_isOutside {r : Reader} (out : r.IsOutside) {c : Char} (other : c ≠ '\\') : step c r = r.outside c := by
  obtain ⟨pending, row, outer⟩ := r
  cases pending with
  | atom text => rfl
  | quoted text => exact absurd rfl (out text)
  | opened text => simp [step, other]

end Reader

open Reader in
/-- The text is read as the expressions, wherever it stands. -/
def Spells (s : List Char) (es : List SExpr) : Prop :=
  ∀ row outer, (read s (fresh row outer)).IsOutside ∧
    (read s (fresh row outer)).settled = es ++ row ∧ (read s (fresh row outer)).outer = outer

namespace Spells

open Reader

variable {s t : List Char} {es fs : List SExpr}

theorem nil : Spells [] [] := fun _ _ => ⟨by simp [Reader.read, fresh, IsOutside], rfl, rfl⟩

/-- Blanks between two texts keep them apart. -/
theorem append_blank (first : Spells s es) (second : Spells t fs) {c : Char} (blank : c = ' ' ∨ c = '\n') :
    Spells (s ++ c :: t) (es ++ fs) := by
  intro row outer
  obtain ⟨out, settled, around⟩ := second row outer
  have other : c ≠ '\\' ∧ c ≠ '"' ∧ c ≠ ')' ∧ c ≠ ']' ∧ c ≠ '(' ∧ c ≠ '[' := by
    rcases blank with rfl | rfl <;> decide
  have next : Reader.read (c :: t) (fresh row outer) = fresh (fs ++ row) outer := by
    show step c (Reader.read t (fresh row outer)) = _
    rw [step_of_isOutside out other.1, outside, if_neg other.2.1, if_neg (by simp [other]), if_neg (by simp [other]),
      if_neg (by simp [other]), if_pos blank, settled, around]
  rw [read_append, next, List.append_assoc]
  exact first (fs ++ row) outer

theorem append_newLine (first : Spells s es) (second : Spells t fs) (n : Nat) :
    Spells (s ++ (SExpr.newLine n).toList ++ t) (es ++ fs) := by
  have indented : Spells (List.replicate n ' ' ++ t) fs := by
    induction n with
    | zero => exact second
    | succ n ih => exact nil.append_blank ih (.inl rfl)
  have whole := first.append_blank indented (.inr rfl)
  rw [SExpr.newLine, String.toList_ofList, List.append_assoc]
  exact whole

theorem atom {text : String} (word : SExpr.IsWord text) : Spells text.toList [.atom text] := by
  intro row outer
  have begun (s : List Char) (inside : ∀ c ∈ s, isDelimiter c = false) :
      Reader.read s (fresh row outer) = ⟨.atom s, row, outer⟩ := by
    induction s with
    | nil => rfl
    | cons c s ih =>
      obtain ⟨first, others⟩ := List.forall_mem_cons.mp inside
      have other : c ≠ ' ' ∧ c ≠ '\n' ∧ c ≠ '(' ∧ c ≠ ')' ∧ c ≠ '[' ∧ c ≠ ']' ∧ c ≠ '"' := by
        simpa [isDelimiter] using first
      show step c (Reader.read s (fresh row outer)) = _
      rw [ih others]
      simp [step, outside, other]
  rw [begun _ word.2]
  refine ⟨by simp [IsOutside], ?_, rfl⟩
  obtain ⟨c, s, split⟩ := List.exists_cons_of_ne_nil word.1
  simp only [settled, split]
  rw [← split, String.ofList_toList]
  rfl

/-- Between its quotes a text is read back as it was before it was escaped. -/
theorem read_escaped (s : List Char) (row : List SExpr) (outer : List (List SExpr)) :
    Reader.read (s.flatMap fun c => if c = '"' then ['\\', '"'] else [c]) ⟨.quoted [], row, outer⟩ =
      ⟨.quoted s, row, outer⟩ := by
  induction s with
  | nil => rfl
  | cons c s ih =>
    rw [List.flatMap_cons, read_append, ih]
    by_cases quote : c = '"'
    · rw [if_pos quote, quote]
      rfl
    · rw [if_neg quote]
      simp [Reader.read, step, quote]

theorem quoted (text : String) : Spells (SExpr.quote text).toList [.quoted text] := by
  intro row outer
  have begun : Reader.read (SExpr.quote text).toList (fresh row outer) = ⟨.opened text.toList, row, outer⟩ := by
    rw [SExpr.quote, String.toList_ofList, List.cons_append]
    show step '"' (Reader.read (_ ++ ['"']) (fresh row outer)) = _
    rw [read_append, show Reader.read ['"'] (fresh row outer) = ⟨.quoted [], row, outer⟩ from rfl, read_escaped]
    rfl
  rw [begun]
  refine ⟨by simp [IsOutside], ?_, rfl⟩
  simp only [settled, String.ofList_toList]
  rfl

theorem enclosed (inner : Spells s es) {opening closing : Char} {form : List SExpr → SExpr}
    (pair : opening = '(' ∧ closing = ')' ∧ form = .line ∨ opening = '[' ∧ closing = ']' ∧ form = .vector) :
    Spells (opening :: (s ++ [closing])) [form es] := by
  intro row outer
  have ending : Reader.read [closing] (fresh row outer) = fresh [] (row :: outer) := by
    rcases pair with ⟨_, rfl, _⟩ | ⟨_, rfl, _⟩ <;> rfl
  obtain ⟨out, settled, around⟩ := inner [] (row :: outer)
  have whole : Reader.read (opening :: (s ++ [closing])) (fresh row outer) = fresh (form es :: row) outer := by
    show step opening (Reader.read (s ++ [closing]) (fresh row outer)) = _
    rw [read_append, ending]
    have other : opening ≠ '\\' := by rcases pair with ⟨rfl, _⟩ | ⟨rfl, _⟩ <;> decide
    have closed (form : List SExpr → SExpr) :
        (Reader.read s (fresh [] (row :: outer))).close form = fresh (form es :: row) outer := by
      rw [close, around, settled, List.append_nil]
    rw [step_of_isOutside out other]
    rcases pair with ⟨rfl, _, rfl⟩ | ⟨rfl, _, rfl⟩
    · exact closed _
    · exact closed _
  rw [whole]
  exact ⟨by simp [fresh, IsOutside], rfl, rfl⟩

/-- Texts side by side. -/
theorem intercalate {texts : List String} (each : List.Forall₂ (fun text e => Spells text.toList [e]) texts es) :
    Spells (" ".intercalate texts).toList es := by
  have space : " ".toList = [' '] := by decide
  rw [String.toList_intercalate, space]
  induction each with
  | nil => exact nil
  | @cons text e texts es first others ih =>
    cases others with
    | nil => simpa using first
    | cons second others =>
      rw [List.map_cons, List.map_cons, List.intercalate_cons_cons, List.append_assoc]
      exact first.append_blank ih (.inl rfl)

/-- Texts below each other, after another text. -/
theorem append_lines (first : Spells s es) {texts : List String} (n : Nat)
    (each : List.Forall₂ (fun text e => Spells text.toList [e]) texts fs) :
    Spells (s ++ (String.join (texts.map (SExpr.newLine n ++ ·))).toList) (es ++ fs) := by
  rw [String.toList_join, List.flatMap_map]
  induction each generalizing s es with
  | nil => simpa using first
  | @cons text f texts fs next others ih =>
    have both := ih (first.append_newLine next n)
    simpa using both

end Spells

namespace SExpr

mutual

theorem spells_render : (e : SExpr) → e.Legible → ∀ indent, Spells (e.render indent).toList [e.flat]
  | .atom text, legible, indent => by
    rw [render, flat]
    exact .atom legible
  | .quoted text, _, indent => by
    rw [render, flat]
    exact .quoted text
  | .line items, legible, indent => by
    have inner := Spells.intercalate (spells_renderAll items legible (indent + 2))
    rw [render, flat]
    have whole := inner.enclosed (.inl ⟨rfl, rfl, rfl⟩)
    simpa using whole
  | .vector items, legible, indent => by
    have inner := Spells.intercalate (spells_renderAll items legible (indent + 2))
    rw [render, flat]
    have whole := inner.enclosed (.inr ⟨rfl, rfl, rfl⟩)
    simpa using whole
  | .block head body isOpen, legible, indent => by
    have first := Spells.intercalate (spells_renderAll head legible.1 (indent + 2))
    have lines := first.append_lines (indent + 2) (spells_renderAll body legible.2 (indent + 2))
    rw [render, flat]
    cases isOpen with
    | true =>
      have whole := (lines.append_newLine .nil indent).enclosed (.inl ⟨rfl, rfl, rfl⟩)
      simpa using whole
    | false =>
      have whole := lines.enclosed (.inl ⟨rfl, rfl, rfl⟩)
      simpa using whole

theorem spells_renderAll : (items : List SExpr) → LegibleAll items → ∀ indent,
    List.Forall₂ (fun text e => Spells text.toList [e]) (renderAll indent items) (flatAll items)
  | [], _, _ => .nil
  | e :: rest, legible, indent => .cons (spells_render e legible.1 indent) (spells_renderAll rest legible.2 indent)

end

/-- An expression is read back from its text, up to the layout. -/
theorem expressions_render {e : SExpr} (legible : e.Legible) (indent : Nat) :
    Reader.expressions (e.render indent).toList = [e.flat] := by
  obtain ⟨_, settled, _⟩ := spells_render e legible indent [] []
  rw [Reader.expressions, settled, List.append_nil]

/-- Expressions with one text differ in their layout alone. -/
theorem flat_eq_of_render_eq {e f : SExpr} (legible : e.Legible) (legible' : f.Legible) {m n : Nat}
    (same : e.render m = f.render n) : e.flat = f.flat := by
  have read := expressions_render legible m
  rw [same, expressions_render legible' n] at read
  exact (List.singleton_inj.mp read).symm

end SExpr

end KeyIntrospection.Text
