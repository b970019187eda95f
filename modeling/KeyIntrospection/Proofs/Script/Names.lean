import Mathlib.Data.String.Defs
import KeyIntrospection.Proofs.Run.Names
import KeyIntrospection.Proofs.Script.Spelling

/-!
The names that the grammar reads among those that objects know. Of a name of ASCII characters the rules of scripts and
the sorts of keys say the same, apart from what scripts demand of variables; no other name can be written in a script.
-/

namespace KeyIntrospection.Script

namespace Word

theorem isAscii_of_isPart {c : Char} (part : isPart c) : c.isAscii := by
  have below {n : Nat} (bound : c.toNat ≤ n) (small : n < 128) : c.isAscii :=
    decide_eq_true (Nat.lt_of_le_of_lt bound small)
  rcases Bool.or_eq_true_iff.mp part with letterOrDigit | underscore
  · rcases Bool.or_eq_true_iff.mp letterOrDigit with letter | digit
    · rcases Bool.or_eq_true_iff.mp letter with upper | lower
      · exact below (of_decide_eq_true upper).2 (by decide)
      · exact below (of_decide_eq_true (Bool.and_eq_true_iff.mp lower).2) (by decide)
    · exact below (of_decide_eq_true (Bool.and_eq_true_iff.mp digit).2) (by decide)
  · rw [eq_of_beq underscore]
    decide

/-- What holds of the characters with the first 128 code points holds of all ASCII characters. -/
theorem forall_ascii {P : Char → Prop} (holds : ∀ n < 128, P (.ofNat n)) {c : Char} (ascii : c.isAscii) : P c := by
  have found := holds c.toNat (of_decide_eq_true ascii)
  rwa [Char.ofNat_toNat] at found

theorem isPart_iff {c : Char} : isPart c ↔ c.isAscii ∧ Key.isIdentifierPart c := by
  refine ⟨fun part => ⟨isAscii_of_isPart part, isIdentifierPart_of_isPart part⟩, fun ⟨ascii, part⟩ => ?_⟩
  exact forall_ascii (P := fun c => Key.isIdentifierPart c → isPart c) (by decide) ascii part

theorem isStart_iff {c : Char} : isStart c ↔ c.isAscii ∧ Key.isIdentifierStart c := by
  refine ⟨fun start => ⟨isAscii_of_isPart (isPart_of_isStart start), isIdentifierStart_of_isStart start⟩,
    fun ⟨ascii, start⟩ => ?_⟩
  exact forall_ascii (P := fun c => Key.isIdentifierStart c → isStart c) (by decide) ascii start

theorem isLowerStart_iff {c : Char} : isLowerStart c ↔ isStart c ∧ c.isUpper = false := by
  constructor
  · intro lower
    have start : isPart c := isPart_of_isLowerStart lower
    exact forall_ascii (P := fun c => isLowerStart c → isStart c ∧ c.isUpper = false) (by decide)
      (isAscii_of_isPart start) lower
  · rintro ⟨start, upper⟩
    exact forall_ascii (P := fun c => isStart c → c.isUpper = false → isLowerStart c) (by decide)
      (isStart_iff.mp start).1 start upper

/-- The words of scripts are the identifiers of ASCII characters. -/
theorem isWord_isStart_iff {s : List Char} : isWord isStart s ↔ (∀ c ∈ s, c.isAscii) ∧ Key.isIdentifier s := by
  cases s with
  | nil => simp [isWord, Key.isIdentifier]
  | cons c s =>
    simp only [isWord, Key.isIdentifier, Bool.and_eq_true, List.all_eq_true, isStart_iff, isPart_iff,
      List.forall_mem_cons, forall_and]
    exact and_and_and_comm

theorem isWord_isLowerStart_iff {s : List Char} :
    isWord isLowerStart s ↔ isWord isStart s ∧ ∀ c ∈ s.head?, c.isUpper = false := by
  cases s with
  | nil => simp [isWord]
  | cons c s => simp [isWord, isLowerStart_iff, and_right_comm]

theorem isKeyword_eq_false_iff {w : List Char} : isKeyword w = false ↔ ∀ k : Keyword, w ≠ k.text.toList := by
  simp only [isKeyword, List.any_eq_false, beq_iff_eq]
  exact ⟨fun free k same => free k k.mem_all same.symm, fun free k _ same => free k same.symm⟩

/-- The name of a variable is read where a word begins with a small letter or an underscore and no keyword is read. -/
theorem take?_variableName_iff_no_keyword {s x r : List Char} :
    variableName.take? s = some (x, r) ↔
      (∀ k, (keyword k).take? s = none) ∧ (Token.run isLowerStart isPart).take? s = some (x, r) := by
  rw [variableName, Token.filter, Option.filter_eq_some_iff, and_comm]
  refine and_congr_left fun takes => ?_
  obtain ⟨head, taken⟩ := take?_run_eq_some_iff.mp takes
  -- a keyword would be the same run of letters, digits and underscores
  have run : (Token.run isPart isPart).take? s = some (x, r) := by
    refine take?_run_eq_some_iff.mpr ⟨?_, taken⟩
    cases s with
    | nil => cases head
    | cons c s => exact isPart_of_isLowerStart head
  rw [Bool.not_eq_true', isKeyword_eq_false_iff]
  simp only [keyword, Token.filter, run, Option.filter_some, ite_eq_right_iff, reduceCtorEq, imp_false, beq_iff_eq]

/-- A keyword that is read at the beginning of a word is the whole word. -/
theorem take?_keyword_eq_none_iff {s : List Char} (word : isWord isPart s) {k : Keyword} :
    (keyword k).take? s = none ↔ s ≠ k.text.toList := by
  simp [keyword, Token.filter, take?_run_of_isWord word]

theorem take?_run_whole_iff {first : Char → Bool} {s : List Char} :
    (Token.run first isPart).take? s = some (s, []) ↔ isWord first s :=
  ⟨isWord_of_take?_run, take?_run_of_isWord⟩

theorem isPart_of_isWord_isLowerStart {s : List Char} (word : isWord isLowerStart s) : isWord isPart s := by
  cases s with
  | nil => cases word
  | cons c s => exact Bool.and_eq_true_iff.mpr ((Bool.and_eq_true_iff.mp word).imp_left isPart_of_isLowerStart)

theorem take?_variableName_whole_iff {s : List Char} :
    variableName.take? s = some (s, []) ↔ isWord isLowerStart s ∧ ∀ k : Keyword, s ≠ k.text.toList := by
  rw [take?_variableName_iff_no_keyword, take?_run_whole_iff, and_comm]
  refine and_congr_right fun word => forall_congr' fun k => ?_
  exact take?_keyword_eq_none_iff (isPart_of_isWord_isLowerStart word)

end Word

namespace Keyword

/-- No keyword is the beginning of another one. -/
theorem eq_of_text_prefix {k l : Keyword} (begins : k.text.toList <+: l.text.toList) : k = l := by
  have apart : ∀ k ∈ all, ∀ l ∈ all, k.text.toList <+: l.text.toList → k = l := by decide
  exact apart k k.mem_all l l.mem_all begins

theorem isUpper_head_eq_false {k : Keyword} {s : List Char} (begins : k.text.toList <+: s) :
    ∀ c ∈ s.head?, c.isUpper = false := by
  have small : k.text.toList.head?.any (!·.isUpper) := by cases k <;> decide
  obtain ⟨rest, rfl⟩ := begins
  cases letters : k.text.toList with
  | nil => simp [letters] at small
  | cons c w => simpa [letters] using small

end Keyword

/-- All characters of a name are ASCII characters. -/
def IsAscii (name : String) : Prop := ∀ c ∈ name.toList, c.isAscii

instance (name : String) : Decidable (IsAscii name) := List.decidableBAll (fun c : Char => c.isAscii) name.toList

theorem isAccessorName_iff {name : String} : isAccessorName name ↔ IsAscii name ∧ Key.isAccessorName name :=
  Word.isWord_isStart_iff

theorem isAttributeName_iff {name : String} : isAttributeName name ↔ IsAscii name ∧ Key.isInternalName name := by
  have sigil : '@'.isAscii := by decide
  unfold isAttributeName Key.isInternalName IsAscii
  split
  · next rest whole =>
    rw [whole, List.forall_mem_cons, and_iff_right sigil]
    exact Word.isWord_isStart_iff
  · simp

theorem isSymbolName_iff {name : String} :
    isSymbolName name ↔ IsAscii name ∧ (Key.isInternalName name ∨ Key.isAccessorName name) := by
  rw [isSymbolName, Bool.or_eq_true, isAttributeName_iff, isAccessorName_iff, and_or_left]

namespace Rule

/-- The rule reads a text from its beginning to its end. -/
def ReadsAll (rule : Rule Name) (text : String) : Prop :=
  ∃ m, rule.accept? (Cursor.ofText text) = some m ∧ m.next.rest = []

theorem readsAll_name_iff {p : Phrase} {t : Token} {text : String} :
    (name p t).ReadsAll text ↔ t.take? text.toList = some (text.toList, []) := by
  constructor
  · rintro ⟨m, found, finished⟩
    obtain ⟨⟨x, next⟩, taken, rfl⟩ := Option.map_eq_some_iff.mp found
    obtain ⟨⟨s, r⟩, takes, same⟩ := Option.map_eq_some_iff.mp taken
    cases same
    obtain rfl : r = [] := finished
    have whole := t.append_eq takes
    rw [List.append_nil] at whole
    rwa [whole] at takes
  · intro takes
    have read : t.take? (Cursor.ofText text).rest = some (text.toList, []) := takes
    simp only [ReadsAll, name, Grammar.accept?, Token.read?, read, Option.map_some, Option.some.injEq, exists_eq_left']
    rfl

/-- A token that takes texts of a kind only, and each of these as a whole, reads all of these and no others. -/
theorem readsAll_name_iff_of_kind {p : Phrase} {t : Token} {kind : String → Bool}
    (inKind : ∀ {s x r : List Char}, t.take? s = some (x, r) → kind (.ofList x))
    (taken : ∀ {s : String}, kind s → t.take? s.toList = some (s.toList, [])) {text : String} :
    (name p t).ReadsAll text ↔ kind text := by
  refine readsAll_name_iff.trans ⟨fun takes => ?_, taken⟩
  simpa using inKind takes

end Rule

theorem readsAll_variableName_iff {n : String} :
    Rule.variableName.ReadsAll n ↔ IsAscii n ∧ Key.isAccessorName n ∧
      (∀ c ∈ n.toList.head?, c.isUpper = false) ∧ ∀ k : Keyword, n ≠ k.text := by
  rw [Rule.variableName, Rule.readsAll_name_iff, Word.take?_variableName_whole_iff, Word.isWord_isLowerStart_iff,
    Word.isWord_isStart_iff, and_assoc, and_assoc]
  simp only [Ne, String.toList_inj]
  rfl

/-- The rules for the names of attributes, accessors and symbols read a text as a whole exactly if it is ASCII and
objects know it as an internal name, as the name of an accessor, or as either. The name of a variable could be that of
an accessor, but it begins with no capital letter and is no keyword, though it may begin with one. -/
theorem readsAll_name_rules (n : String) :
    (Rule.attributeName.ReadsAll n ↔ IsAscii n ∧ Key.isInternalName n) ∧
    ((Rule.name .accessorName Word.accessorName).ReadsAll n ↔ IsAscii n ∧ Key.isAccessorName n) ∧
    ((Rule.name .symbolName Word.symbolName).ReadsAll n ↔
      IsAscii n ∧ (Key.isInternalName n ∨ Key.isAccessorName n)) ∧
    (Rule.variableName.ReadsAll n ↔ IsAscii n ∧ Key.isAccessorName n ∧
      (∀ c ∈ n.toList.head?, c.isUpper = false) ∧ ∀ k : Keyword, n ≠ k.text) ∧
    ∀ k : Keyword, k.text.toList <+: n.toList → n ≠ k.text →
      (Rule.variableName.ReadsAll n ↔ IsAscii n ∧ Key.isAccessorName n) := by
  refine ⟨?_, ?_, ?_, readsAll_variableName_iff, fun k begins longer => ?_⟩
  · rw [← isAttributeName_iff]
    exact Rule.readsAll_name_iff_of_kind Word.isAttributeName_of_take? Word.take?_attributeName
  · rw [← isAccessorName_iff]
    exact Rule.readsAll_name_iff_of_kind Word.isAccessorName_of_take? Word.take?_run_of_isWord
  · rw [← isSymbolName_iff]
    exact Rule.readsAll_name_iff_of_kind Word.isSymbolName_of_take? Word.take?_symbolName
  · have free : ∀ l : Keyword, n ≠ l.text := by
      rintro l rfl
      exact longer (congrArg Keyword.text (Keyword.eq_of_text_prefix begins).symm)
    rw [readsAll_variableName_iff, and_iff_left (And.intro (Keyword.isUpper_head_eq_false begins) free)]

/-- The name `keys_of` begins with a keyword, and `é` is a letter that only objects know. -/
theorem readsAll_name_rules_keys_of :
    Rule.variableName.ReadsAll "keys_of" ∧ ¬Rule.variableName.ReadsAll "keys" ∧
      Rule.attributeName.ReadsAll "@keys" ∧ Key.isAccessorName "é" ∧
      ¬(Rule.name .accessorName Word.accessorName).ReadsAll "é" := by
  have accent : ¬IsAscii "é" := fun ascii => absurd (ascii 'é' (by decide)) (by decide)
  refine ⟨?_, fun read => ?_, ?_, by decide, fun read => ?_⟩
  · exact ((readsAll_name_rules "keys_of").2.2.2.2 .keys (by decide) (by decide)).mpr ⟨by decide, by decide⟩
  · exact ((readsAll_name_rules "keys").2.2.2.1.mp read).2.2.2 .keys rfl
  · exact (readsAll_name_rules "@keys").1.mpr ⟨by decide, by decide⟩
  · exact accent ((readsAll_name_rules "é").2.1.mp read).1

end KeyIntrospection.Script
