import KeyIntrospection.Proofs.Script.Inspected
import KeyIntrospection.Script.SExpr

/-!
The forms of strings in s-expressions, read as the string literals of scripts. Only quotes are escaped in a form, so a
backslash of the string is taken for the beginning of an escape: the form of a string is a literal for this string if
the string has no backslash, and never otherwise.
-/

namespace KeyIntrospection.Script

/-- How a character of a string is written in its form. -/
def escapeQuote (c : Char) : List Char := if c = '"' then ['\\', '"'] else [c]

theorem toList_render_string (s : String) (indent : Nat) :
    ((Literal.string s).toSExpr.render indent).toList = '"' :: (s.toList.flatMap escapeQuote ++ ['"']) := by
  rw [Literal.toSExpr, Text.SExpr.render, Text.SExpr.quote, String.toList_ofList]
  rfl

theorem length_escapeQuotes (s : List Char) : (s.flatMap escapeQuote).length = s.length + s.count '"' := by
  induction s with
  | nil => rfl
  | cons c s ih =>
    rw [List.flatMap_cons, List.length_append, ih, List.length_cons, List.count_cons]
    by_cases quote : c = '"'
    · simp [escapeQuote, quote]
      omega
    · simp [escapeQuote, quote]
      omega

/-- The form has the characters of the string, and a backslash for each quote. -/
theorem count_escapeQuotes (d : Char) (s : List Char) :
    (s.flatMap escapeQuote).count d = s.count d + if d = '\\' then s.count '"' else 0 := by
  induction s with
  | nil => simp
  | cons c s ih =>
    rw [List.flatMap_cons, List.count_append, ih]
    by_cases quote : c = '"'
    · by_cases backslash : d = '\\'
      · simp [escapeQuote, quote, backslash]
        omega
      · simp [escapeQuote, quote, backslash, List.count_cons, Ne.symm backslash]
        omega
    · simp [escapeQuote, quote, List.count_cons]
      omega

/-- In the content of a string quotes and backslashes stand in escapes alone. An escape has two characters, one or both
of which are such, and stands for one. -/
theorem Word.Quotable.length_add_count_le {s t : List Char} (quotable : Quotable s) (decodes : Decodes s t) :
    2 * t.length + (s.count '"' + s.count '\\') ≤ 2 * s.length := by
  induction quotable generalizing t with
  | nil =>
    cases decodes
    exact Nat.le_refl _
  | @plain c s quote backslash _ ih =>
    cases decodes with
    | plain _ decodes =>
      have rest := ih decodes
      simp only [List.length_cons, List.count_cons_of_ne quote, List.count_cons_of_ne backslash]
      omega
    | escape => exact absurd rfl backslash
  | @escaped c s _ ih =>
    cases decodes with
    | plain backslash => exact absurd rfl backslash
    | escape _ decodes =>
      have rest := ih decodes
      have once : [c].count '"' + [c].count '\\' ≤ 1 := by
        by_cases quote : c = '"'
        · simp [quote]
        · simpa [quote] using List.count_le_length (a := '\\') (l := [c])
      rw [← List.singleton_append (l := s), List.count_cons_of_ne (by decide), List.count_cons_self,
        List.count_append, List.count_append]
      simp only [List.length_cons, List.singleton_append]
      omega

/-- Between quotes the characters of a form stand for the string only if there is no backslash among them but those of
the escaped quotes. -/
theorem not_mem_of_decodes_escapeQuotes {s : List Char} (quotable : Word.Quotable (s.flatMap escapeQuote))
    (decodes : Decodes (s.flatMap escapeQuote) s) : '\\' ∉ s := by
  have bound := quotable.length_add_count_le decodes
  rw [length_escapeQuotes, count_escapeQuotes, count_escapeQuotes, if_neg (by decide), if_pos rfl] at bound
  exact List.count_eq_zero.mp (by omega)

/-- A character that is no backslash is written in a form as it can be in a literal. -/
theorem writes_escapeQuote {c : Char} (other : c ≠ '\\') : Word.Writes (escapeQuote c) c := by
  by_cases quote : c = '"'
  · rw [escapeQuote, if_pos quote, quote]
    exact .inl ⟨'"', rfl, rfl⟩
  · rw [escapeQuote, if_neg quote]
    exact .inr ⟨rfl, quote, other⟩

/-- What the content of a string literal stands for. -/
theorem decodes_of_readString {body : List Char} (quotable : Word.Quotable body) {span : Span} {s : String}
    (value : readString ⟨'"' :: (body ++ ['"']), span⟩ = .ok s) : Decodes body s.toList := by
  have inside : (('"' :: (body ++ ['"'])).drop 1).dropLast = body := by simp
  rw [readString, inside] at value
  rcases quotable.decodes_or with ⟨t, decodes⟩ | ⟨before, c, after, t, rfl, decodes, unlisted⟩
  · rw [decodes.unescape_eq] at value
    cases value
    rwa [String.toList_ofList]
  · rw [decodes.unescape_eq_error unlisted] at value
    cases value

/-- A string literal that was read: what stands between its quotes stands for its value. -/
theorem Rule.exists_of_accept?_string {c next : Cursor} {s : Located String}
    (found : string.accept? c = some ⟨.ok s, next⟩) :
    ∃ body, Word.Quotable body ∧ c.rest = '"' :: (body ++ ['"']) ++ next.rest ∧ Decodes body s.value.toList := by
  obtain ⟨⟨x, after⟩, taken, made⟩ := Option.map_eq_some_iff.mp found
  obtain ⟨⟨_, rest⟩, takes, same⟩ := Option.map_eq_some_iff.mp taken
  cases same
  obtain ⟨body, quotable, rfl, whole⟩ := Word.take?_string_eq_some_iff.mp takes
  obtain ⟨value, rfl⟩ := Match.mk.inj made
  obtain ⟨t, decoded, rfl⟩ := (Match.value_map_eq_ok (m := ⟨readString _, c⟩)).mp value
  exact ⟨body, quotable, by simpa [Cursor.advance] using whole, decodes_of_readString quotable decoded⟩

/-- The form of a string, wherever it stands and whatever follows it, is read as one string literal with this string
for its value, if and only if no character of the string is a backslash. -/
theorem Rule.string_reads_form_iff (s : String) (indent offset : Nat) (rest : List Char) :
    let form := ((Literal.string s).toSExpr.render indent).toList
    Rule.string.accept? ⟨form ++ rest, offset⟩ =
        some ⟨.ok ⟨s, offset, offset + byteLength form⟩, ⟨rest, offset + byteLength form⟩⟩ ↔
      '\\' ∉ s.toList := by
  intro form
  have written : form = '"' :: (s.toList.flatMap escapeQuote ++ ['"']) := toList_render_string s indent
  constructor
  · intro read
    obtain ⟨body, quotable, split, decodes⟩ := Rule.exists_of_accept?_string read
    have inside : form = '"' :: (body ++ ['"']) := List.append_cancel_right split
    have same : body = s.toList.flatMap escapeQuote := by simpa [written, eq_comm] using inside
    rw [same] at quotable decodes
    exact not_mem_of_decodes_escapeQuotes quotable decodes
  · intro plain
    have writes : ∀ c ∈ s.toList, Word.Writes (escapeQuote c) c := fun c mem =>
      writes_escapeQuote fun backslash => plain (backslash ▸ mem)
    have read := Rule.accept?_string (c := ⟨form ++ rest, offset⟩) (e := rest) (Word.quotable_flatMap writes)
      (by rw [written])
    rw [Rule.quotedAt, readString_flatMap writes, ← written] at read
    exact read

/-- A backslash at the end of a string makes its form a literal that does not end. -/
theorem Rule.not_string_reads_form :
    ¬∀ (s : String) (indent : Nat),
      let form := ((Literal.string s).toSExpr.render indent).toList
      Rule.string.accept? ⟨form, 0⟩ = some ⟨.ok ⟨s, 0, byteLength form⟩, ⟨[], byteLength form⟩⟩ := by
  intro faithful
  have unread : Rule.string.accept? ⟨((Literal.string "\\").toSExpr.render 0).toList, 0⟩ = none := by rfl
  cases unread.symm.trans (faithful "\\" 0)

end KeyIntrospection.Script
