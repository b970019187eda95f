import KeyIntrospection.Proofs.Script.Word
import KeyIntrospection.Script.Literal

/-!
What the content of a string stands for. It is read from left to right, and a backslash that does not belong to an
escape before it begins one; the first that begins none is where the content goes wrong.
-/

namespace KeyIntrospection.Script

/-- The characters that make an escape with a backslash before them, and what it stands for. -/
def escapes : List (Char × Char) :=
  [('n', '\n'), ('t', '\t'), ('r', '\r'), ('0', '\x00'), ('\\', '\\'), ('"', '"')]

theorem escape?_eq_some_iff {c d : Char} : escape? c = some d ↔ (c, d) ∈ escapes := by
  constructor
  · intro stands
    unfold escape? at stands
    split at stands <;> cases stands <;> decide
  · intro listed
    simp only [escapes, List.mem_cons, Prod.mk.injEq, List.not_mem_nil, or_false] at listed
    rcases listed with ⟨rfl, rfl⟩ | ⟨rfl, rfl⟩ | ⟨rfl, rfl⟩ | ⟨rfl, rfl⟩ | ⟨rfl, rfl⟩ | ⟨rfl, rfl⟩ <;> rfl

theorem escape?_eq_none {c : Char} (unlisted : ∀ d, (c, d) ∉ escapes) : escape? c = none := by
  cases stands : escape? c with
  | none => rfl
  | some d => exact absurd (escape?_eq_some_iff.mp stands) (unlisted d)

/-- The content of a string and the text it stands for. -/
inductive Decodes : List Char → List Char → Prop
  | nil : Decodes [] []
  | plain {c s t} : c ≠ '\\' → Decodes s t → Decodes (c :: s) (c :: t)
  | escape {c d s t} : (c, d) ∈ escapes → Decodes s t → Decodes ('\\' :: c :: s) (d :: t)

namespace Decodes

variable {s t : List Char}

/-- Content that stands for a text is read first, whatever follows it. -/
theorem unescape_append (decodes : Decodes s t) (offset : Nat) (rest : List Char) :
    unescape offset (s ++ rest) = (unescape (offset + byteLength s) rest).map (t ++ ·) := by
  induction decodes generalizing offset with
  | nil => cases h : unescape offset rest <;> simp [byteLength, h, Except.map]
  | @plain c s t backslash _ ih =>
    have step : unescape offset (c :: s ++ rest) = (unescape (offset + c.utf8Size) (s ++ rest)).map (c :: ·) := by
      simp [unescape, backslash]
    rw [step, ih, byteLength, Nat.add_assoc]
    cases unescape (offset + (c.utf8Size + byteLength s)) rest <;> rfl
  | @escape c d s t listed _ ih =>
    have step : unescape offset ('\\' :: c :: s ++ rest) =
        (unescape (offset + 1 + c.utf8Size) (s ++ rest)).map (d :: ·) := by
      simp [unescape, escape?_eq_some_iff.mpr listed]
    have backslash : '\\'.utf8Size = 1 := by decide
    rw [step, ih, byteLength, byteLength, backslash]
    simp only [Nat.add_assoc]
    cases unescape (offset + (1 + (c.utf8Size + byteLength s))) rest <;> rfl

theorem unescape_eq (decodes : Decodes s t) (offset : Nat) : unescape offset s = .ok t := by
  have whole := decodes.unescape_append offset []
  rw [List.append_nil] at whole
  rw [whole]
  simp [unescape, Except.map]

/-- What comes after such content is read up to a backslash that begins no escape. -/
theorem unescape_eq_error (decodes : Decodes s t) {c : Char} (unlisted : ∀ d, (c, d) ∉ escapes) (offset : Nat)
    (rest : List Char) :
    unescape offset (s ++ '\\' :: c :: rest) = .error (.unknownEscape (offset + byteLength s) c) := by
  rw [decodes.unescape_append]
  simp [unescape, escape?_eq_none unlisted, Except.map]

end Decodes

/-- What stands between quotes either stands for a text or has a first backslash that begins no escape. -/
theorem Word.Quotable.decodes_or {s : List Char} (quotable : Quotable s) :
    (∃ t, Decodes s t) ∨
      ∃ before c after t, s = before ++ '\\' :: c :: after ∧ Decodes before t ∧ ∀ d, (c, d) ∉ escapes := by
  induction quotable with
  | nil => exact .inl ⟨[], .nil⟩
  | @plain c s _ backslash _ ih =>
    rcases ih with ⟨t, decodes⟩ | ⟨before, e, after, t, rfl, decodes, unlisted⟩
    · exact .inl ⟨c :: t, .plain backslash decodes⟩
    · exact .inr ⟨c :: before, e, after, c :: t, rfl, .plain backslash decodes, unlisted⟩
  | @escaped c s _ ih =>
    by_cases listed : ∃ d, (c, d) ∈ escapes
    · obtain ⟨d, listed⟩ := listed
      rcases ih with ⟨t, decodes⟩ | ⟨before, e, after, t, rfl, decodes, unlisted⟩
      · exact .inl ⟨d :: t, .escape listed decodes⟩
      · exact .inr ⟨'\\' :: c :: before, e, after, d :: t, rfl, .escape listed decodes, unlisted⟩
    · exact .inr ⟨[], c, s, [], rfl, .nil, fun d member => listed ⟨d, member⟩⟩

end KeyIntrospection.Script
