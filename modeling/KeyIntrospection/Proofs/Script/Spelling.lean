import KeyIntrospection.Proofs.Script.Canonical
import KeyIntrospection.Proofs.Script.Escapes
import KeyIntrospection.Proofs.Script.Reading

/-!
The words of canonical texts as tokens: each is taken whole by the token that it is meant for, and the
literals among them have the values that they are written for.
-/

namespace KeyIntrospection

/-- A token that takes a whole text takes it before a blank or a comment too. -/
theorem Token.Solid.take?_append {t : Token} (solid : t.Solid) {s : List Char} (whole : t.take? s = some (s, []))
    {e : List Char} (boundary : AtBoundary e) : t.take? (s ++ e) = some (s, e) := by
  rw [solid boundary, whole]
  rfl

namespace Script

namespace Word

/-- A word ends where something else than a letter, a digit or an underscore stands. -/
theorem take?_run_append {first : Char → Bool} {s e : List Char} (word : isWord first s)
    (stops : ∀ c ∈ e.head?, isPart c = false) : (Token.run first isPart).take? (s ++ e) = some (s, e) := by
  cases s with
  | nil => cases word
  | cons c s =>
    have both : first c ∧ s.all isPart := by simpa [isWord] using word
    have inside : ∀ d ∈ s, isPart d := List.all_eq_true.mp both.2
    have none : e.takeWhile isPart = [] ∧ e.dropWhile isPart = e := by
      cases e with
      | nil => exact ⟨rfl, rfl⟩
      | cons d e => simp [stops d rfl]
    have taken : (s ++ e).takeWhile isPart = s := by
      rw [List.takeWhile_append_of_pos inside, none.1, List.append_nil]
    have left : (s ++ e).dropWhile isPart = e := by
      rw [List.dropWhile_append_of_pos inside, none.2]
    simp [Token.run, both.1, taken, left]

theorem take?_run_of_isWord {first : Char → Bool} {s : List Char} (word : isWord first s) :
    (Token.run first isPart).take? s = some (s, []) := by
  have whole := take?_run_append (e := []) word (by simp)
  rwa [List.append_nil] at whole

theorem take?_exactly (m : List Char) : (Token.exactly m).take? m = some (m, []) := by
  simp [Token.exactly]

theorem take?_keyword (k : Keyword) : (keyword k).take? k.text.toList = some (k.text.toList, []) := by
  have word : isWord isPart k.text.toList := by cases k <;> decide
  rw [keyword, Token.filter]
  simp [take?_run_of_isWord word]

theorem take?_variableName {s : String} (name : isVariableName s) :
    variableName.take? s.toList = some (s.toList, []) := by
  have both : isWord isLowerStart s.toList ∧ isKeyword s.toList = false := by simpa [isVariableName] using name
  rw [variableName, Token.filter]
  simp [take?_run_of_isWord both.1, both.2]

theorem take?_attributeName {s : String} (name : isAttributeName s) :
    attributeName.take? s.toList = some (s.toList, []) := by
  unfold isAttributeName at name
  split at name
  · next rest split =>
    have sign : "@".toList = ['@'] := by decide
    rw [split]
    simp [attributeName, Token.append, Token.text, Token.exactly, sign, accessorName, take?_run_of_isWord name]
  · cases name

theorem take?_symbolName_append {s : String} (name : isSymbolName s) {e : List Char}
    (stops : ∀ c ∈ e.head?, isPart c = false) : symbolName.take? (s.toList ++ e) = some (s.toList, e) := by
  have either : isAttributeName s ∨ isAccessorName s := by simpa [isSymbolName] using name
  rcases either with sign | accessor
  · unfold isAttributeName at sign
    split at sign
    · next rest split =>
      rw [split]
      simp [symbolName, Token.append, Token.optional, accessorName, take?_run_append sign stops]
    · cases sign
  · have whole := take?_run_append accessor stops
    rcases split : s.toList with _ | ⟨c, rest⟩
    · rw [isAccessorName, split] at accessor
      cases accessor
    · have other : c ≠ '@' := by
        rintro rfl
        rw [isAccessorName, split] at accessor
        exact absurd accessor (by simp [isWord, isStart])
      rw [split, List.cons_append] at whole
      simp [symbolName, Token.append, Token.optional, accessorName, whole, other]

theorem take?_symbolName {s : String} (name : isSymbolName s) : symbolName.take? s.toList = some (s.toList, []) := by
  have whole := take?_symbolName_append (e := []) name (by simp)
  rwa [List.append_nil] at whole

/-- How a character can be written in a string: as itself, or as an escape that stands for it. -/
def Writes (w : List Char) (c : Char) : Prop :=
  (∃ d, w = ['\\', d] ∧ escape? d = some c) ∨ w = [c] ∧ c ≠ '"' ∧ c ≠ '\\'

/-- What is written character by character can stand between quotes. -/
theorem quotable_flatMap {write : Char → List Char} {s : List Char} (writes : ∀ c ∈ s, Writes (write c) c) :
    Quotable (s.flatMap write) := by
  induction s with
  | nil => exact .nil
  | cons c s ih =>
    have others := ih fun d mem => writes d (List.mem_cons_of_mem c mem)
    rw [List.flatMap_cons]
    rcases writes c List.mem_cons_self with ⟨d, code, _⟩ | ⟨plain, quote, backslash⟩
    · rw [code]
      exact .escaped others
    · rw [plain]
      exact .plain quote backslash others

/-- Between quotes every text can be written. -/
theorem writes_escaped (c : Char) : Writes (if c = '"' ∨ c = '\\' then ['\\', c] else [c]) c := by
  by_cases special : c = '"' ∨ c = '\\'
  · rw [if_pos special]
    refine Or.inl ⟨c, rfl, ?_⟩
    rcases special with rfl | rfl <;> rfl
  · rw [if_neg special]
    exact Or.inr ⟨rfl, fun quote => special (Or.inl quote), fun backslash => special (Or.inr backslash)⟩

theorem take?_string {body : List Char} (quotable : Quotable body) (e : List Char) :
    string.take? ('"' :: (body ++ ['"']) ++ e) = some ('"' :: (body ++ ['"']), e) :=
  take?_string_eq_some_iff.mpr ⟨body, quotable, rfl, by simp⟩

theorem take?_digits {s : List Char} (nonempty : s ≠ []) (inside : ∀ c ∈ s, c.isDigit) :
    digits.take? s = some (s, []) := by
  obtain ⟨c, s, rfl⟩ := List.exists_cons_of_ne_nil nonempty
  have others : ∀ d ∈ s, d.isDigit := fun d mem => inside d (List.mem_cons_of_mem c mem)
  have taken : (s ++ []).takeWhile Char.isDigit = s ++ [].takeWhile Char.isDigit :=
    List.takeWhile_append_of_pos others
  have left : (s ++ []).dropWhile Char.isDigit = [].dropWhile Char.isDigit := List.dropWhile_append_of_pos others
  rw [List.append_nil] at taken left
  simp [digits, Token.run, inside c List.mem_cons_self, taken, left]

theorem isDigit_of_mem_toDigits {n : Nat} {c : Char} (mem : c ∈ Nat.toDigits 10 n) : c.isDigit :=
  Nat.isDigit_of_mem_toDigits (by decide) (by decide) mem

theorem take?_digits_toDigits (n : Nat) : digits.take? (Nat.toDigits 10 n) = some (Nat.toDigits 10 n, []) :=
  take?_digits Nat.toDigits_ne_nil fun _ => isDigit_of_mem_toDigits

theorem head_toDigits (n : Nat) : ∃ c s, Nat.toDigits 10 n = c :: s ∧ c.isDigit := by
  obtain ⟨c, s, split⟩ := List.exists_cons_of_ne_nil (Nat.toDigits_ne_nil (n := n) (b := 10))
  exact ⟨c, s, split, isDigit_of_mem_toDigits (n := n) (by rw [split]; exact List.mem_cons_self)⟩

theorem toList_repr (n : Int) :
    n.repr.toList = if 0 ≤ n then Nat.toDigits 10 n.toNat else '-' :: Nat.toDigits 10 (-n).toNat := by
  rw [Int.repr_eq_if]
  have minus : "-".toList = ['-'] := by decide
  split
  · exact Nat.toList_repr
  · rw [String.toList_append, minus, Nat.toList_repr]
    rfl

theorem take?_integer_toDigits (n : Nat) : integer.take? (Nat.toDigits 10 n) = some (Nat.toDigits 10 n, []) := by
  obtain ⟨c, s, split, digit⟩ := head_toDigits n
  have whole := take?_digits_toDigits n
  have other : c ≠ '-' := by
    rintro rfl
    exact absurd digit (by decide)
  rw [split] at whole ⊢
  simp [integer, Token.append, Token.optional, whole, other]

theorem take?_integer (n : Int) : integer.take? n.repr.toList = some (n.repr.toList, []) := by
  rw [toList_repr]
  split
  · exact take?_integer_toDigits _
  · simp [integer, Token.append, Token.optional, take?_digits_toDigits]

/-- An integer is no float: no point follows it. -/
theorem take?_float_of_integer {s : List Char} (whole : integer.take? s = some (s, [])) : float.take? s = none := by
  have point : ".".toList = ['.'] := by decide
  simp [float, Token.append, whole, Token.text, Token.exactly, point]

end Word

/-- What is written character by character stands for the characters. -/
theorem Decodes.of_writes {write : Char → List Char} {s : List Char} (writes : ∀ c ∈ s, Word.Writes (write c) c) :
    Decodes (s.flatMap write) s := by
  induction s with
  | nil => exact .nil
  | cons c s ih =>
    have others := ih fun d mem => writes d (List.mem_cons_of_mem c mem)
    rw [List.flatMap_cons]
    rcases writes c List.mem_cons_self with ⟨d, code, stands⟩ | ⟨plain, _, backslash⟩
    · rw [code]
      exact .escape (escape?_eq_some_iff.mp stands) others
    · rw [plain]
      exact .plain backslash others

theorem readString_flatMap {write : Char → List Char} {s : String}
    (writes : ∀ c ∈ s.toList, Word.Writes (write c) c) (span : Span) :
    readString ⟨'"' :: (s.toList.flatMap write ++ ['"']), span⟩ = .ok s := by
  have inside : (('"' :: (s.toList.flatMap write ++ ['"'])).drop 1).dropLast = s.toList.flatMap write := by simp
  rw [readString, inside, (Decodes.of_writes writes).unescape_eq]
  exact congrArg Except.ok String.ofList_toList

theorem splitSign_of_isDigit {d : List Char} (inside : ∀ c ∈ d, c.isDigit) : Decimal.splitSign d = (false, d) := by
  unfold Decimal.splitSign
  split
  · exact absurd (inside '-' List.mem_cons_self) (by decide)
  · exact absurd (inside '+' List.mem_cons_self) (by decide)
  · rfl

theorem integerValue_repr (n : Int) : integerValue n.repr.toList = n := by
  have value (m : Nat) : readDigits 0 (Nat.toDigits 10 m) = m := Nat.ofDigitChars_ten_toDigits
  rw [Word.toList_repr]
  split
  · have unsigned := splitSign_of_isDigit fun c mem => Word.isDigit_of_mem_toDigits (n := n.toNat) (c := c) mem
    simp only [integerValue, unsigned, value]
    simp
    omega
  · simp only [integerValue, Decimal.splitSign, value]
    simp
    omega

theorem readInteger_repr {n : Int} (range : Int64.minValue.toInt ≤ n ∧ n ≤ Int64.maxValue.toInt) (span : Span) :
    readInteger ⟨n.repr.toList, span⟩ = .ok n := by
  simp only [readInteger, integerValue_repr]
  exact if_pos range

end Script

end KeyIntrospection
