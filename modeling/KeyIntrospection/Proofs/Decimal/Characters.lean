import KeyIntrospection.Decimal.Layout
import KeyIntrospection.Proofs.Script.Spelling

/-!
The characters in the texts of numbers. They are few, and a float always has one that no integer has: a
point, an exponent, or a letter of its name.
-/

namespace KeyIntrospection

/-- The characters that the texts of numbers are made of. -/
def isNumeral (c : Char) : Bool := c.isDigit || c ∈ ['-', '.', 'e', 'i', 'n', 'f', 'N', 'a']

/-- The characters of integers. -/
def isIntegral (c : Char) : Bool := c.isDigit || c == '-'

theorem isNumeral_of_isDigit {c : Char} (digit : c.isDigit) : isNumeral c := by simp [isNumeral, digit]

theorem isNumeral_of_isIntegral {c : Char} (integral : isIntegral c) : isNumeral c := by
  rcases Bool.or_eq_true_iff.mp integral with digit | minus
  · exact isNumeral_of_isDigit digit
  · rw [eq_of_beq minus]
    rfl

theorem isIntegral_repr (n : Int) : ∀ c ∈ n.repr.toList, isIntegral c := by
  intro c mem
  rw [Script.Word.toList_repr] at mem
  split at mem
  · simp [isIntegral, Script.Word.isDigit_of_mem_toDigits mem]
  · rcases List.mem_cons.mp mem with rfl | mem
    · rfl
    · simp [isIntegral, Script.Word.isDigit_of_mem_toDigits mem]

namespace Decimal

variable (x : Decimal)

theorem isNumeral_sign : ∀ c ∈ x.sign.toList, isNumeral c := by
  rw [sign]
  split
  · exact List.all_eq_true.mp (by decide)
  · simp

theorem isNumeral_digitText : ∀ c ∈ x.digitText, isNumeral c :=
  fun _ mem => isNumeral_of_isDigit (Script.Word.isDigit_of_mem_toDigits mem)

theorem isNumeral_zeros (n : Nat) : ∀ c ∈ zeros n, isNumeral c := by
  intro c mem
  rw [List.eq_of_mem_replicate mem]
  rfl

theorem isNumeral_positional : ∀ c ∈ x.positional.toList, isNumeral c := by
  have digits := x.isNumeral_digitText
  have whole : ∀ c ∈ x.digitText.take x.point.toNat ++ zeros (x.point.toNat - x.digitText.length), isNumeral c :=
    List.forall_mem_append.mpr ⟨fun c mem => digits c (List.mem_of_mem_take mem), isNumeral_zeros _⟩
  have fraction : ∀ c ∈ zeros (-x.point).toNat ++ x.digitText.drop x.point.toNat, isNumeral c :=
    List.forall_mem_append.mpr ⟨isNumeral_zeros _, fun c mem => digits c (List.mem_of_mem_drop mem)⟩
  have zero {s : List Char} (inside : ∀ c ∈ s, isNumeral c) : ∀ c ∈ if s.isEmpty then ['0'] else s, isNumeral c := by
    split
    · exact List.all_eq_true.mp (by decide)
    · exact inside
  rw [positional, String.toList_append, String.toList_ofList]
  exact List.forall_mem_append.mpr ⟨x.isNumeral_sign,
    List.forall_mem_append.mpr ⟨zero whole, List.forall_mem_cons.mpr ⟨rfl, zero fraction⟩⟩⟩

theorem isNumeral_scientific : ∀ c ∈ x.scientific.toList, isNumeral c := by
  have digits := x.isNumeral_digitText
  have fraction : ∀ c ∈ if x.digitText.length ≤ 1 then [] else '.' :: x.digitText.drop 1, isNumeral c := by
    split
    · simp
    · exact List.forall_mem_cons.mpr ⟨rfl, fun c mem => digits c (List.mem_of_mem_drop mem)⟩
  have exponent : ∀ c ∈ (x.point - 1).repr.toList, isNumeral c :=
    fun c mem => isNumeral_of_isIntegral (isIntegral_repr _ c mem)
  rw [scientific, String.toList_append, String.toList_append, String.toList_ofList]
  refine List.forall_mem_append.mpr ⟨List.forall_mem_append.mpr ⟨x.isNumeral_sign, ?_⟩, exponent⟩
  exact List.forall_mem_append.mpr ⟨List.forall_mem_append.mpr
    ⟨fun c mem => digits c (List.mem_of_mem_take mem), fraction⟩, List.all_eq_true.mp (by decide)⟩

end Decimal

namespace Binary64

theorem isNumeral_literalText (x : Binary64) : ∀ c ∈ x.literalText.toList, isNumeral c := by
  cases x with
  | finite negative exponent fraction =>
    rw [literalText]
    split
    · exact Decimal.isNumeral_positional _
    · exact Decimal.isNumeral_scientific _
  | infinite negative => cases negative <;> exact List.all_eq_true.mp (by decide)
  | nan => exact List.all_eq_true.mp (by decide)

/-- No float is written like an integer. -/
theorem exists_not_isIntegral (x : Binary64) : ∃ c ∈ x.literalText.toList, isIntegral c = false := by
  cases x with
  | finite negative exponent fraction =>
    rw [literalText]
    split
    · exact ⟨'.', by simp [Decimal.positional], rfl⟩
    · exact ⟨'e', by simp [Decimal.scientific], rfl⟩
  | infinite negative => cases negative <;> exact ⟨'i', by decide, rfl⟩
  | nan => exact ⟨'N', by decide, rfl⟩

end Binary64

end KeyIntrospection
