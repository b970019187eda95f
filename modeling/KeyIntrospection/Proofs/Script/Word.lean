import KeyIntrospection.Proofs.Grammar.Locality
import KeyIntrospection.Script.Grammar
import KeyIntrospection.Text.Blank

/-!
Where the tokens of scripts end. No token but a string goes on over a blank or into a comment, so what
such a token takes does not depend on what follows there. A string ends at its own quote.
-/

namespace KeyIntrospection

/-- White space or the beginning of a comment. -/
def isBoundary (c : Char) : Bool := Text.isBlank c || c == '#'

theorem isBoundary_of_isLineBreak {c : Char} (lineBreak : isLineBreak c) : isBoundary c := by
  rcases isLineBreak_iff.mp lineBreak with rfl | rfl <;> decide

theorem isBoundary_of_isSpace {c : Char} (space : isSpace c) : isBoundary c := by
  rcases isSpace_iff.mp space with rfl | rfl <;> decide

theorem isLineBreak_eq_false {c : Char} (solid : isBoundary c = false) : isLineBreak c = false := by
  refine Bool.eq_false_iff.mpr fun lineBreak => ?_
  rw [isBoundary_of_isLineBreak lineBreak] at solid
  cases solid

/-- A text that begins with a word or a sign stands where it is read. -/
theorem settled_cons {c : Char} (solid : isBoundary c = false) (s : List Char) : Settled (c :: s) := by
  refine settled_iff.mpr fun d head => ?_
  cases head
  refine ⟨Bool.eq_false_iff.mpr fun space => ?_, fun hash => ?_⟩
  · rw [isBoundary_of_isSpace space] at solid
    cases solid
  · subst hash
    exact absurd solid (by decide)

/-- The text is over, or a blank or a comment stands next. -/
def AtBoundary (s : List Char) : Prop := ∀ c ∈ s.head?, isBoundary c

theorem AtLineEnd.atBoundary {s : List Char} (ending : AtLineEnd s) : AtBoundary s :=
  fun c head => isBoundary_of_isLineBreak (ending c head)

theorem AtBoundary.not_of_head {s : List Char} (boundary : AtBoundary s) {p : Char → Bool}
    (inside : ∀ c, p c → isBoundary c = false) : ∀ c ∈ s.head?, p c = false := by
  intro c head
  cases found : p c with
  | false => rfl
  | true =>
    have outside := boundary c head
    rw [inside c found] at outside
    cases outside

namespace Token

theorem eq_of_take?_optional {c : Char} {s x r : List Char} (takes : (optional c).take? s = some (x, r)) :
    x = [c] ∨ x = [] := by
  cases s with
  | nil =>
    cases takes
    exact .inr rfl
  | cons d s =>
    simp only [optional] at takes
    split at takes
    · next same =>
      cases takes
      exact .inl (by rw [same])
    · cases takes
      exact .inr rfl

/-- Whether the token is there, and what it takes, does not depend on what follows a boundary. -/
def Solid (t : Token) : Prop :=
  ∀ ⦃s e : List Char⦄, AtBoundary e → t.take? (s ++ e) = (t.take? s).map fun (x, r) => (x, r ++ e)

namespace Solid

theorem run {first others : Char → Bool} (inFirst : ∀ c, first c → isBoundary c = false)
    (inOthers : ∀ c, others c → isBoundary c = false) : (run first others).Solid := by
  intro s e boundary
  have stopsFirst := boundary.not_of_head inFirst
  have stops := boundary.not_of_head inOthers
  cases s with
  | nil =>
    cases e with
    | nil => rfl
    | cons c e => simp [Token.run, stopsFirst c rfl]
  | cons c s =>
    simp only [Token.run, List.cons_append, takeWhile_append_of_head stops, dropWhile_append_of_head stops]
    split <;> rfl

theorem isPrefixOf_append {m s e : List Char} (inside : ∀ c ∈ m, isBoundary c = false)
    (boundary : AtBoundary e) : m.isPrefixOf (s ++ e) = m.isPrefixOf s := by
  induction m generalizing s with
  | nil => simp
  | cons c m ih =>
    have inside' : ∀ d ∈ m, isBoundary d = false := fun d mem => inside d (List.mem_cons_of_mem c mem)
    cases s with
    | cons d s => rw [List.cons_append, List.isPrefixOf_cons_cons, List.isPrefixOf_cons_cons, ih inside']
    | nil =>
      cases e with
      | nil => rfl
      | cons d e =>
        have other : c ≠ d := by
          rintro rfl
          have outside := boundary c rfl
          rw [inside c List.mem_cons_self] at outside
          cases outside
        simp [List.isPrefixOf, other]

theorem exactly {m : List Char} (solid : m.all (!isBoundary ·)) : (exactly m).Solid := by
  intro s e boundary
  have inside : ∀ c ∈ m, isBoundary c = false := by simpa using solid
  simp only [Token.exactly, isPrefixOf_append inside boundary]
  split
  · next present =>
    have short := (List.isPrefixOf_iff_prefix.mp present).length_le
    rw [List.drop_append_of_le_length short]
    rfl
  · rfl

theorem optional {c : Char} (inside : isBoundary c = false) : (optional c).Solid := by
  intro s e boundary
  cases s with
  | nil =>
    cases e with
    | nil => rfl
    | cons d e =>
      have other : d ≠ c := by
        rintro rfl
        have outside := boundary d rfl
        rw [inside] at outside
        cases outside
      simp [Token.optional, other]
  | cons d s =>
    simp only [Token.optional, List.cons_append]
    split <;> rfl

theorem append {t u : Token} (first : t.Solid) (second : u.Solid) : (t.append u).Solid := by
  intro s e boundary
  simp only [Token.append, first boundary]
  cases t.take? s with
  | none => rfl
  | some found =>
    obtain ⟨x, r⟩ := found
    simp only [Option.map_some, Option.bind_some, second boundary]
    cases u.take? r with
    | none => rfl
    | some found => rfl

theorem filter {t : Token} {wanted : List Char → Bool} (inner : t.Solid) : (t.filter wanted).Solid := by
  intro s e boundary
  simp only [Token.filter, inner boundary]
  cases t.take? s with
  | none => rfl
  | some found =>
    simp only [Option.map_some, Option.filter_some]
    split <;> rfl

theorem locally {t : Token} (solid : t.Solid) : t.Local := by
  intro s e e' x r ending ending' takes
  rw [solid ending.atBoundary] at takes
  obtain ⟨⟨y, u⟩, found, same⟩ := Option.map_eq_some_iff.mp takes
  simp only [Prod.mk.injEq, List.append_cancel_right_eq] at same
  obtain ⟨rfl, rfl⟩ := same
  rw [solid ending'.atBoundary, found]
  rfl

/-- A solid token takes neither white space nor the beginning of a comment. -/
theorem isBoundary_eq_false {t : Token} (solid : t.Solid) {s x r : List Char} (takes : t.take? s = some (x, r))
    {c : Char} (mem : c ∈ x) : isBoundary c = false := by
  refine Bool.eq_false_iff.mpr fun boundary => ?_
  obtain ⟨u, v, rfl⟩ := List.append_of_mem mem
  have whole := t.append_eq takes
  rw [List.append_assoc] at whole
  -- what stands before the boundary would have to hold more than itself
  have stop : AtBoundary (c :: v ++ r) := fun d head => by
    cases head
    exact boundary
  rw [← whole, solid stop] at takes
  obtain ⟨⟨x, r'⟩, found, same⟩ := Option.map_eq_some_iff.mp takes
  have taken : x = u ++ c :: v := congrArg Prod.fst same
  have length := congrArg List.length (t.append_eq found)
  rw [taken] at length
  simp only [List.length_append, List.length_cons] at length
  omega

end Solid

/-- Nothing, where the text is as wanted. -/
def lookahead (wanted : List Char → Bool) : Token where
  take? s := if wanted s then some ([], s) else none
  append_eq {s taken rest} h := by
    simp only [Option.ite_none_right_eq_some, Option.some.injEq, Prod.mk.injEq] at h
    obtain ⟨_, rfl, rfl⟩ := h
    rfl

theorem local_lookahead {wanted : List Char → Bool} (atEnd : ∀ {e}, AtLineEnd e → wanted e)
    (atHead : ∀ c s t, wanted (c :: s) → wanted (c :: t)) : (lookahead wanted).Local := by
  intro s e e' x r ending ending' takes
  simp only [lookahead, Option.ite_none_right_eq_some, Option.some.injEq, Prod.mk.injEq,
    List.append_cancel_right_eq] at takes ⊢
  obtain ⟨present, rfl, rfl⟩ := takes
  refine ⟨?_, rfl, rfl⟩
  cases s with
  | nil => exact atEnd ending'
  | cons c s => exact atHead c _ _ present

end Token

namespace Script.Word

theorem isBoundary_eq_false_of_isPart {c : Char} (part : isPart c) : isBoundary c = false := by
  have alpha : c.isAlpha = (c.isUpper || c.isLower) := rfl
  have upper : c.isUpper = decide (65 ≤ c.val ∧ c.val ≤ 90) := rfl
  have lower : c.isLower = (decide (97 ≤ c.val) && decide (c.val ≤ 122)) := rfl
  have digit : c.isDigit = (decide (48 ≤ c.val) && decide (c.val ≤ 57)) := rfl
  simp only [isPart, Char.isAlphanum, alpha, upper, lower, digit, Bool.or_eq_true, Bool.and_eq_true,
    decide_eq_true_eq, UInt32.le_iff_toNat_le, beq_iff_eq] at part
  change (((65 ≤ c.toNat ∧ c.toNat ≤ 90) ∨ (97 ≤ c.toNat ∧ c.toNat ≤ 122)) ∨
    (48 ≤ c.toNat ∧ c.toNat ≤ 57)) ∨ c = '_' at part
  rcases part with range | rfl
  · have other : c ≠ '#' := by
      rintro rfl
      have code : '#'.toNat = 35 := rfl
      omega
    simp only [isBoundary, Text.isBlank, other, beq_false_of_ne, ne_eq, not_false_eq_true,
      Bool.or_false, Bool.or_eq_false_iff, Bool.and_eq_false_iff, decide_eq_false_iff_not,
      beq_eq_false_iff_ne]
    omega
  · decide

theorem isPart_of_isLowerStart {c : Char} (start : isLowerStart c) : isPart c := by
  simp only [isLowerStart, Bool.or_eq_true] at start
  rcases start with lower | underscore
  · have alpha : c.isAlpha = (c.isUpper || c.isLower) := rfl
    simp [isPart, Char.isAlphanum, alpha, lower]
  · simp [isPart, underscore]

theorem isPart_of_isUpper {c : Char} (upper : c.isUpper) : isPart c := by
  have alpha : c.isAlpha = (c.isUpper || c.isLower) := rfl
  simp [isPart, Char.isAlphanum, alpha, upper]

theorem isPart_of_isDigit {c : Char} (digit : c.isDigit) : isPart c := by
  simp [isPart, Char.isAlphanum, digit]

theorem isPart_of_isStart {c : Char} (start : isStart c) : isPart c := by
  simp only [isStart, Bool.or_eq_true] at start
  rcases start with alpha | underscore
  · simp [isPart, Char.isAlphanum, alpha]
  · simp [isPart, underscore]

theorem take?_run_eq_some_iff {first others : Char → Bool} {s x r : List Char} :
    (Token.run first others).take? s = some (x, r) ↔
      s.head?.any first ∧ x = s.take 1 ++ (s.drop 1).takeWhile others ∧
        r = (s.drop 1).dropWhile others := by
  cases s with
  | nil => simp [Token.run]
  | cons c s =>
    simp only [Token.run, Option.ite_none_right_eq_some, Option.some.injEq, Prod.mk.injEq,
      List.head?_cons, Option.any_some, List.take_succ_cons, List.take_zero, List.drop_succ_cons,
      List.drop_zero, List.singleton_append, eq_comm (a := x), eq_comm (a := r)]

theorem solid_run {first : Char → Bool} (start : ∀ c, first c → isPart c) :
    (Token.run first isPart).Solid :=
  .run (fun c found => isBoundary_eq_false_of_isPart (start c found)) fun _ =>
    isBoundary_eq_false_of_isPart

theorem solid_keyword (k : Keyword) : (keyword k).Solid := (solid_run fun _ => id).filter

theorem solid_variableName : variableName.Solid := (solid_run fun _ => isPart_of_isLowerStart).filter

theorem solid_className : className.Solid := solid_run fun _ => isPart_of_isUpper

theorem solid_accessorName : accessorName.Solid := solid_run fun _ => isPart_of_isStart

theorem solid_attributeName : attributeName.Solid :=
  (Token.Solid.exactly (by decide)).append solid_accessorName

theorem solid_symbolName : symbolName.Solid := (Token.Solid.optional (by decide)).append solid_accessorName

theorem solid_digits : digits.Solid :=
  .run (fun _ digit => isBoundary_eq_false_of_isPart (isPart_of_isDigit digit)) fun _ digit =>
    isBoundary_eq_false_of_isPart (isPart_of_isDigit digit)

theorem solid_integer : integer.Solid := (Token.Solid.optional (by decide)).append solid_digits

theorem solid_float : float.Solid :=
  (solid_integer.append (Token.Solid.exactly (by decide))).append solid_digits

/-- What can stand between the quotes of a string. -/
inductive Quotable : List Char → Prop
  | nil : Quotable []
  | plain {c s} : c ≠ '"' → c ≠ '\\' → Quotable s → Quotable (c :: s)
  | escaped {c s} : Quotable s → Quotable ('\\' :: c :: s)

theorem Quotable.splitQuoted_append {body : List Char} (quotable : Quotable body) (r : List Char) :
    splitQuoted (body ++ '"' :: r) = (body, '"' :: r) := by
  induction quotable with
  | nil => simp [splitQuoted]
  | plain quote backslash _ ih => simp [splitQuoted, quote, backslash, ih]
  | escaped _ ih => simp [splitQuoted, ih]

theorem quotable_splitQuoted (s : List Char) : Quotable (splitQuoted s).1 := by
  fun_induction splitQuoted s with
  | case1 c rest x r split ih =>
    rw [split] at ih
    exact .escaped ih
  | case2 c rest _ other => exact .nil
  | case3 c rest _ other x r split ih =>
    rw [split] at ih
    exact .plain (fun quote => other (.inl quote)) (fun backslash => other (.inr backslash)) ih
  | case4 => exact .nil

theorem take?_string_eq_some_iff {s x r : List Char} :
    string.take? s = some (x, r) ↔
      ∃ body, Quotable body ∧ x = '"' :: (body ++ ['"']) ∧ s = '"' :: (body ++ '"' :: r) := by
  constructor
  · intro takes
    have whole := string.append_eq takes
    simp only [string, Token.append, Token.text, Token.exactly, quoted, Option.bind_eq_some_iff,
      Option.map_eq_some_iff, Prod.exists, Prod.mk.injEq, Option.ite_none_right_eq_some,
      Option.some.injEq] at takes
    obtain ⟨_, _, ⟨_, t, ⟨_, rfl, _⟩, body, u, split, rfl, rfl⟩, _, _, ⟨_, rfl, _⟩, rfl, _⟩ := takes
    have quotable := quotable_splitQuoted t
    rw [split] at quotable
    have quote : "\"".toList = ['"'] := by decide
    refine ⟨body, quotable, by simp [quote], ?_⟩
    rw [← whole]
    simp [quote]
  · rintro ⟨body, quotable, rfl, rfl⟩
    simp [string, Token.append, Token.text, Token.exactly, quoted, quotable.splitQuoted_append]

/-- A string is read in the same way whatever follows it. -/
theorem local_string : string.Local := by
  intro s e e' x r _ _ takes
  obtain ⟨body, quotable, rfl, split⟩ := take?_string_eq_some_iff.mp takes
  refine take?_string_eq_some_iff.mpr ⟨body, quotable, rfl, ?_⟩
  have same : s ++ e = '"' :: (body ++ '"' :: r) ++ e := by simpa using split
  rw [List.append_cancel_right same]
  simp

end Script.Word

namespace Token

/-- All characters that the token takes are of a kind. -/
def Takes (t : Token) (kind : Char → Prop) : Prop :=
  ∀ ⦃s x r : List Char⦄, t.take? s = some (x, r) → ∀ c ∈ x, kind c

namespace Takes

variable {kind : Char → Prop}

theorem run {first others : Char → Bool} (inFirst : ∀ c, first c → kind c) (inOthers : ∀ c, others c → kind c) :
    Takes (.run first others) kind := by
  intro s x r takes c mem
  obtain ⟨head, rfl, _⟩ := Script.Word.take?_run_eq_some_iff.mp takes
  rcases List.mem_append.mp mem with start | rest
  · rcases s with _ | ⟨d, s⟩
    · cases head
    · have same : c = d := by simpa using start
      rw [same]
      exact inFirst d head
  · exact inOthers c (List.all_eq_true.mp List.all_takeWhile c rest)

theorem text {m : String} {kind : Char → Bool} (all : m.toList.all kind) : Takes (.text m) (kind ·) := by
  intro s x r takes
  simp only [Token.text, Token.exactly, Option.ite_none_right_eq_some, Option.some.injEq, Prod.mk.injEq] at takes
  rw [← takes.2.1]
  exact List.all_eq_true.mp all

theorem optional {c : Char} (inside : kind c) : Takes (.optional c) kind := by
  intro s x r takes d mem
  rcases s with _ | ⟨e, s⟩
  · simp only [Token.optional, Option.some.injEq, Prod.mk.injEq] at takes
    rw [← takes.1] at mem
    cases mem
  · simp only [Token.optional] at takes
    split at takes
    · next same =>
      simp only [Option.some.injEq, Prod.mk.injEq] at takes
      rw [← takes.1, List.mem_singleton] at mem
      rw [mem, same]
      exact inside
    · simp only [Option.some.injEq, Prod.mk.injEq] at takes
      rw [← takes.1] at mem
      cases mem

theorem append {t u : Token} (first : Takes t kind) (second : Takes u kind) : Takes (t.append u) kind := by
  intro s x r takes c mem
  simp only [Token.append, Option.bind_eq_some_iff, Option.map_eq_some_iff, Prod.exists,
    Prod.mk.injEq] at takes
  obtain ⟨y, s', takesFirst, z, r', takesSecond, rfl, rfl⟩ := takes
  rcases List.mem_append.mp mem with before | after
  · exact first takesFirst c before
  · exact second takesSecond c after

theorem filter {t : Token} {wanted : List Char → Bool} (inner : Takes t kind) : Takes (t.filter wanted) kind :=
  fun _ _ _ takes => inner (Option.filter_eq_some_iff.mp takes).1

end Takes

/-- The token is solid, and no quote is in it. -/
structure Bare (t : Token) : Prop where
  solid : t.Solid
  unquoted : Takes t (· != '"')

namespace Bare

variable {t u : Token}

theorem text {m : String} (plain : m.toList.all fun c => !isBoundary c && c != '"') : (text m).Bare := by
  have both := List.all_eq_true.mp plain
  simp only [Bool.and_eq_true] at both
  exact ⟨.exactly (List.all_eq_true.mpr fun c mem => (both c mem).1),
    .text (List.all_eq_true.mpr fun c mem => (both c mem).2)⟩

theorem optional {c : Char} (inside : isBoundary c = false) (unquoted : (c != '"') = true) : (optional c).Bare :=
  ⟨.optional inside, .optional unquoted⟩

theorem append (first : t.Bare) (second : u.Bare) : (t.append u).Bare :=
  ⟨first.solid.append second.solid, first.unquoted.append second.unquoted⟩

theorem filter {wanted : List Char → Bool} (inner : t.Bare) : (t.filter wanted).Bare :=
  ⟨inner.solid.filter, inner.unquoted.filter⟩

end Bare

/-- No character that the token takes opens a string or a comment. -/
def Plain (t : Token) : Prop := t.Takes fun c => c ≠ '"' ∧ c ≠ '#'

theorem Bare.plain {t : Token} (bare : t.Bare) : t.Plain := by
  intro s x r takes c mem
  refine ⟨bne_iff_ne.mp (bare.unquoted takes c mem), ?_⟩
  rintro rfl
  exact absurd (bare.solid.isBoundary_eq_false takes mem) (by decide)

theorem plain_lineBreak : lineBreak.Plain := by
  intro s x r takes
  unfold lineBreak at takes
  dsimp only at takes
  split at takes <;> cases takes <;> simp

theorem plain_endOfText : endOfText.Plain := by
  intro s x r takes
  simp only [endOfText, Option.ite_none_right_eq_some, Option.some.injEq, Prod.mk.injEq] at takes
  simp [← takes.2.1]

theorem plain_nothing : nothing.Plain := by
  intro s x r takes
  cases takes
  simp

end Token

namespace Script.Word

theorem ne_quote_of_isPart {c : Char} (part : isPart c) : (c != '"') = true := by
  refine bne_iff_ne.mpr ?_
  rintro rfl
  exact absurd part (by decide)

theorem bare_run {first : Char → Bool} (start : ∀ c, first c → isPart c) : (Token.run first isPart).Bare :=
  ⟨solid_run start, .run (fun c found => ne_quote_of_isPart (start c found)) fun _ => ne_quote_of_isPart⟩

theorem bare_keyword (k : Keyword) : (keyword k).Bare := (bare_run fun _ => id).filter

theorem bare_variableName : variableName.Bare := (bare_run fun _ => isPart_of_isLowerStart).filter

theorem bare_className : className.Bare := bare_run fun _ => isPart_of_isUpper

theorem bare_accessorName : accessorName.Bare := bare_run fun _ => isPart_of_isStart

theorem bare_attributeName : attributeName.Bare := (Token.Bare.text (by decide)).append bare_accessorName

theorem bare_symbolName : symbolName.Bare := (Token.Bare.optional (by decide) (by decide)).append bare_accessorName

theorem bare_digits : digits.Bare :=
  have digit (c : Char) (found : c.isDigit) : (c != '"') = true := ne_quote_of_isPart (isPart_of_isDigit found)
  ⟨solid_digits, .run digit digit⟩

theorem bare_integer : integer.Bare := (Token.Bare.optional (by decide) (by decide)).append bare_digits

theorem bare_float : float.Bare := (bare_integer.append (.text (by decide))).append bare_digits

theorem digits_of_take? {s x r : List Char} (takes : digits.take? s = some (x, r)) :
    x ≠ [] ∧ ∀ c ∈ x, c.isDigit := by
  obtain ⟨head, rfl, _⟩ := take?_run_eq_some_iff.mp takes
  rcases s with _ | ⟨c, s⟩
  · cases head
  · have first : c.isDigit := by simpa using head
    exact ⟨List.cons_ne_nil _ _, List.forall_mem_cons.mpr ⟨first, List.all_eq_true.mp List.all_takeWhile⟩⟩

theorem integer_of_take? {s x r : List Char} (takes : integer.take? s = some (x, r)) :
    ∃ d, d ≠ [] ∧ (∀ c ∈ d, c.isDigit) ∧ (x = d ∨ x = '-' :: d) := by
  simp only [integer, Token.append, Option.bind_eq_some_iff, Option.map_eq_some_iff, Prod.exists, Prod.mk.injEq] at takes
  obtain ⟨sign, _, found, d, _, takes, rfl, _⟩ := takes
  obtain ⟨nonempty, inside⟩ := digits_of_take? takes
  rcases Token.eq_of_take?_optional found with rfl | rfl
  · exact ⟨d, nonempty, inside, .inr rfl⟩
  · exact ⟨d, nonempty, inside, .inl rfl⟩

theorem integer_ne_nil {s x r : List Char} (takes : integer.take? s = some (x, r)) : x ≠ [] := by
  obtain ⟨d, nonempty, _, rfl | rfl⟩ := integer_of_take? takes
  · exact nonempty
  · exact List.cons_ne_nil _ _

theorem float_ne_nil {s x r : List Char} (takes : float.take? s = some (x, r)) : x ≠ [] := by
  simp only [float, Token.append, Option.bind_eq_some_iff, Option.map_eq_some_iff, Prod.exists, Prod.mk.injEq] at takes
  obtain ⟨_, _, _, d, _, takes, rfl, _⟩ := takes
  exact List.append_ne_nil_of_right_ne_nil _ (digits_of_take? takes).1

end Script.Word

end KeyIntrospection
