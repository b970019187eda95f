import KeyIntrospection.Proofs.Grammar.Repetition
import KeyIntrospection.Script.Grammar
import Mathlib.Data.List.Pairwise

/-!
Where the parts of a script stand. A script is seen as a tree of regions of its source; each region covers a
text that spells what it stands for, its parts are inside of it, and they stand in the order of the source.
-/

namespace KeyIntrospection

theorem byteLength_eq_utf8ByteSize (s : List Char) : byteLength s = (String.ofList s).utf8ByteSize := by
  induction s with
  | nil => rfl
  | cons c s ih => rw [byteLength, ih, String.ofList_cons, String.utf8ByteSize_append, String.utf8ByteSize_singleton]

/-- The text under a span. A span that covers a text is in bounds and begins and ends between characters. -/
def Span.Covers (span : Span) (source text : String) : Prop :=
  ∃ before after, source = before ++ text ++ after ∧
    span.start = before.utf8ByteSize ∧ span.stop = (before ++ text).utf8ByteSize

theorem Span.Covers.stop_le {span : Span} {source text : String} (covers : span.Covers source text) :
    span.stop ≤ source.utf8ByteSize := by
  obtain ⟨before, after, rfl, _, stop⟩ := covers
  rw [stop, String.utf8ByteSize_append (t := after)]
  exact Nat.le_add_right _ _

/-- What is read from a place of a source on is the text under the span from there. -/
theorem Cursor.Reaches.covers {source : String} {c : Cursor} (start : (Cursor.ofText source).Reaches c)
    {text rest : List Char} (split : c.rest = text ++ rest) :
    Span.Covers ⟨c.offset, (c.advance text rest).offset⟩ source (.ofList text) := by
  obtain ⟨before, whole, next⟩ := start
  have offset : c.offset = byteLength before := by
    rw [next]
    simp [Cursor.advance, Cursor.ofText]
  refine ⟨.ofList before, .ofList rest, ?_, ?_, ?_⟩
  · rw [← String.ofList_append, ← String.ofList_append, List.append_assoc, ← split, ← whole]
    exact String.ofList_toList.symm
  · rw [← byteLength_eq_utf8ByteSize]
    exact offset
  · rw [← String.ofList_append, ← byteLength_eq_utf8ByteSize, byteLength_append, ← offset]
    rfl

namespace Script

/-- What the text of a region stands for. -/
inductive Label where
  | name (name : String)
  | symbol (name : String)
  | string (value : String)
  | integer (n : Int)
  /-- A phrase, or a literal of another kind. -/
  | other

/-- A decimal numeral, with a minus if the number is negative. -/
def IsNumeralOf (text : String) (n : Int) : Prop :=
  ∃ digits : String, digits ≠ "" ∧ (∀ c ∈ digits.toList, c.isDigit) ∧
    (text = digits ∧ n = Nat.ofDigitChars 10 digits.toList 0 ∨
      text = "-" ++ digits ∧ n = -(Nat.ofDigitChars 10 digits.toList 0 : Int))

/-- How things are written at an offset of a source. -/
def Label.Spells (offset : Nat) (text : String) : Label → Prop
  | name n => text = n
  | symbol n => text = ":" ++ n
  | string s => ∃ body, text = "\"" ++ body ++ "\"" ∧ unescape (offset + 1) body.toList = .ok s.toList
  | integer n => IsNumeralOf text n
  | other => True

/-- A place of a source with what stands there and the regions in it. -/
inductive Region where
  | node (span : Span) (label : Label) (inside : List Region)

namespace Region

def span : Region → Span
  | node span _ _ => span

/-- The region covers a text that spells what it stands for, and the regions in it fit and stand in the order
of the source without overlapping. -/
inductive Fits (source : String) : Region → Prop
  | node {span : Span} {label : Label} {inside : List Region} {text : String} :
    span.Covers source text → span.start < span.stop → label.Spells span.start text →
    inside.Pairwise (fun r r' => r.span.stop ≤ r'.span.start) →
    (∀ r ∈ inside, span.start ≤ r.span.start ∧ r.span.stop ≤ span.stop) →
    (∀ r ∈ inside, Fits source r) → Fits source (.node span label inside)

theorem Fits.exists_covers {source : String} {r : Region} (fits : r.Fits source) : ∃ text, r.span.Covers source text := by
  cases fits with
  | @node _ _ _ text covers => exact ⟨text, covers⟩

theorem Fits.start_lt_stop {source : String} {r : Region} (fits : r.Fits source) : r.span.start < r.span.stop := by
  cases fits with
  | node _ nonempty => exact nonempty

/-- A region in one of the same place. -/
theorem Fits.around {source : String} {r : Region} (fits : r.Fits source) :
    Fits source (.node r.span .other [r]) := by
  obtain ⟨text, covers⟩ := fits.exists_covers
  exact .node covers fits.start_lt_stop trivial (List.pairwise_singleton _ _)
    (List.forall_mem_singleton.mpr ⟨Nat.le_refl _, Nat.le_refl _⟩) (List.forall_mem_singleton.mpr fits)

end Region

/-- Regions between two places of a source, in order. -/
structure Row (source : String) (start stop : Nat) (regions : List Region) : Prop where
  le : start ≤ stop
  order : regions.Pairwise fun r r' => r.span.stop ≤ r'.span.start
  within : ∀ r ∈ regions, start ≤ r.span.start ∧ r.span.stop ≤ stop
  fits : ∀ r ∈ regions, r.Fits source

namespace Row

variable {source : String} {a b c d : Nat} {l l' : List Region}

theorem nil (le : a ≤ b) : Row source a b [] := ⟨le, .nil, List.forall_mem_nil _, List.forall_mem_nil _⟩

theorem singleton {r : Region} (start : a ≤ r.span.start) (stop : r.span.stop ≤ b) (fits : r.Fits source) :
    Row source a b [r] := by
  have nonempty := fits.start_lt_stop
  exact ⟨by omega, List.pairwise_singleton _ _, List.forall_mem_singleton.mpr ⟨start, stop⟩,
    List.forall_mem_singleton.mpr fits⟩

theorem mono (row : Row source b c l) (start : a ≤ b) (stop : c ≤ d) : Row source a d l := by
  have between := row.le
  refine ⟨by omega, row.order, fun r mem => ?_, row.fits⟩
  obtain ⟨lower, upper⟩ := row.within r mem
  omega

theorem append (first : Row source a b l) (second : Row source c d l') (gap : b ≤ c) : Row source a d (l ++ l') := by
  have le := first.le
  have le' := second.le
  have left := first.mono (Nat.le_refl a) (show b ≤ d by omega)
  have right := second.mono (show a ≤ c by omega) (Nat.le_refl d)
  refine ⟨left.le, List.pairwise_append.mpr ⟨first.order, second.order, fun r mem r' mem' => ?_⟩,
    List.forall_mem_append.mpr ⟨left.within, right.within⟩, List.forall_mem_append.mpr ⟨first.fits, second.fits⟩⟩
  have upper := (first.within r mem).2
  have lower := (second.within r' mem').1
  omega

/-- One region over all that was read, with the regions that were read in it. -/
theorem read {c d : Cursor} {text : List Char} {label : Label} (start : (Cursor.ofText source).Reaches c)
    (split : c.rest = text ++ d.rest) (next : d = c.advance text d.rest) (nonempty : c.offset < d.offset)
    (spells : label.Spells c.offset (.ofList text)) (inside : Row source c.offset d.offset l) :
    Row source c.offset d.offset [.node ⟨c.offset, d.offset⟩ label l] := by
  have covers := start.covers split
  rw [← next] at covers
  exact .singleton (Nat.le_refl _) (Nat.le_refl _)
    (.node covers nonempty spells inside.order inside.within inside.fits)

end Row

section Trees

def nameAt (n : Name) : Region := .node n.span (.name n.value) []

def symbolAt (n : Name) : Region := .node n.span (.symbol n.value) []

def Literal.label : Literal → Label
  | int n => .integer n
  | string s => .string s
  | symbol name => .symbol name
  | nil | bool _ | float _ => .other

def literalAt (l : Located Literal) : Region := .node l.span l.value.label []

/-- A phrase and the regions in it. -/
def phraseAt {α : Type} (inside : α → List Region) (x : Located α) : Region := .node x.span .other (inside x.value)

def HashEntry.regions (e : HashEntry) : List Region := [literalAt (e.key.map KeyLiteral.toLiteral), literalAt e.value]

def AttributeInit.regions (a : AttributeInit) : List Region := [nameAt a.name, literalAt a.value]

def Expression.regions : Expression → List Region
  | hash entries => [phraseAt (·.flatMap HashEntry.regions) entries]
  | descriptor properties => [phraseAt (·.flatMap HashEntry.regions) properties]
  | new className attributes => nameAt className :: attributes.flatMap AttributeInit.regions
  | literal l => [literalAt l]

def AccessorDeclaration.regions (d : AccessorDeclaration) : List Region := d.names.map nameAt

def Query.regions : Query → List Region
  | keyInfo object key | read object key => [nameAt object, literalAt key]
  | keys object _ => [nameAt object]

def Matcher.regions : Matcher → List Region
  | equalsSymbols symbols => symbols.map symbolAt
  | equals l => [literalAt l]
  | includes symbol | excludes symbol => [symbolAt symbol]
  | isEmpty => []

/-- The names and literals of a statement and its phrases, in the order in which they are written. -/
def Statement.regions : Statement → List Region
  | assign name e => [nameAt name, phraseAt Expression.regions e]
  | defineClass name accessors => nameAt name :: accessors.map (phraseAt AccessorDeclaration.regions)
  | setAttribute object name value => [nameAt object, nameAt name, literalAt value]
  | freeze object => [nameAt object]
  | query q => [phraseAt Query.regions q]
  | expect q m => phraseAt Query.regions q :: m.regions

end Trees

end Script

end KeyIntrospection
