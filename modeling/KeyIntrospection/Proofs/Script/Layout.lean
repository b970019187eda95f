import KeyIntrospection.Proofs.Script.Zones

/-!
The layout of a source: the blanks and comments before its line breaks and at its end, and how its lines end.
Sources that differ in these alone are the same script, up to the places where things stand.
-/

namespace KeyIntrospection.Script

/-- Spaces and tabs, and after them a comment or nothing. -/
inductive IsPadding : List Char → Prop
  | nil : IsPadding []
  | space {c s} : isSpace c → IsPadding s → IsPadding (c :: s)
  | comment {s} : (∀ c ∈ s, isLineBreak c = false) → IsPadding ('#' :: s)

/-- The ends of one or more lines, of which all but the first are blank. -/
inductive IsGap : List Char → Prop
  | last {pad c} : IsPadding pad → isLineBreak c → IsGap (pad ++ [c])
  | more {pad c s} : IsPadding pad → isLineBreak c → IsGap s → IsGap (pad ++ c :: s)

/-- Two texts that have the same characters but for what stands where lines end outside of strings. The zone
is that of the characters before them. -/
inductive Relaid : Zone → List Char → List Char → Prop
  | nil {z} : Relaid z [] []
  | keep {z c s t} : Relaid (z.next c) s t → Relaid z (c :: s) (c :: t)
  | gap {z g g' s t} : z.isQuoted = false → IsGap g → IsGap g' → Relaid .code s t → Relaid z (g ++ s) (g' ++ t)
  | padding {z pad pad'} : z.isQuoted = false → IsPadding pad → IsPadding pad' → Relaid z pad pad'

/-- What stands next ends a line, or is the blanks or the comment before its end. -/
def AtGap (s : List Char) : Prop := ∀ c ∈ s.head?, isLineBreak c ∨ isSpace c ∨ c = '#'

theorem AtGap.atBoundary {s : List Char} (gap : AtGap s) : AtBoundary s := by
  intro c head
  rcases gap c head with lineBreak | space | rfl
  · exact isBoundary_of_isLineBreak lineBreak
  · exact isBoundary_of_isSpace space
  · rfl

theorem AtGap.atLineEnd {s : List Char} (gap : AtGap s) (settled : Settled s) : AtLineEnd s := by
  intro c head
  obtain ⟨solid, other⟩ := settled_iff.mp settled c head
  rcases gap c head with lineBreak | space | hash
  · exact lineBreak
  · rw [solid] at space
    cases space
  · exact absurd hash other

theorem atGap_nil : AtGap [] := by simp [AtGap]

theorem atGap_of_isLineBreak {c : Char} (lineBreak : isLineBreak c) (s : List Char) : AtGap (c :: s) := by
  intro d head
  cases head
  exact .inl lineBreak

theorem IsPadding.atGap {pad s : List Char} (padding : IsPadding pad) (next : AtGap s) : AtGap (pad ++ s) := by
  cases padding with
  | nil => exact next
  | space space _ =>
    intro c head
    cases head
    exact .inr (.inl space)
  | comment _ =>
    intro c head
    cases head
    exact .inr (.inr rfl)

theorem IsGap.atGap {g : List Char} (gap : IsGap g) (s : List Char) : AtGap (g ++ s) := by
  cases gap with
  | last padding lineBreak =>
    rw [List.append_assoc]
    exact padding.atGap (atGap_of_isLineBreak lineBreak s)
  | more padding lineBreak _ =>
    rw [List.append_assoc]
    exact padding.atGap (atGap_of_isLineBreak lineBreak _)

namespace Relaid

variable {z : Zone} {s t : List Char}

theorem refl (z : Zone) (s : List Char) : Relaid z s s := by
  induction s generalizing z with
  | nil => exact .nil
  | cons c s ih => exact .keep (ih _)

theorem symm (relaid : Relaid z s t) : Relaid z t s := by
  induction relaid with
  | nil => exact .nil
  | keep _ ih => exact .keep ih
  | gap free gap gap' _ ih => exact .gap free gap' gap ih
  | padding free pad pad' => exact .padding free pad' pad

/-- Two such texts begin with the same character, or both are at a gap. -/
theorem head (relaid : Relaid z s t) : (∃ c s' t', s = c :: s' ∧ t = c :: t' ∧ Relaid (z.next c) s' t') ∨
    (s = [] ∧ t = []) ∨ z.isQuoted = false ∧ AtGap s ∧ AtGap t := by
  cases relaid with
  | nil => exact .inr (.inl ⟨rfl, rfl⟩)
  | keep rest => exact .inl ⟨_, _, _, rfl, rfl, rest⟩
  | gap free gap gap' _ => exact .inr (.inr ⟨free, gap.atGap _, gap'.atGap _⟩)
  | padding free pad pad' =>
    have left := pad.atGap atGap_nil
    have right := pad'.atGap atGap_nil
    rw [List.append_nil] at left right
    exact .inr (.inr ⟨free, left, right⟩)

/-- A character in a string, or one that is neither a blank nor the beginning of a comment, is kept. -/
theorem kept {c : Char} (relaid : Relaid z (c :: s) t) (inside : z.isQuoted ∨ isBoundary c = false) :
    ∃ t', t = c :: t' ∧ Relaid (z.next c) s t' := by
  rcases relaid.head with ⟨d, s', t', same, rfl, rest⟩ | ⟨empty, _⟩ | ⟨free, gap, _⟩
  · cases same
    exact ⟨t', rfl, rest⟩
  · cases empty
  · have boundary := gap.atBoundary c rfl
    rcases inside with quoted | solid
    · rw [free] at quoted
      cases quoted
    · rw [boundary] at solid
      cases solid

/-- The texts have the same beginning, up to a boundary in both. -/
theorem exists_common (relaid : Relaid z s t) :
    ∃ w e e', s = w ++ e ∧ t = w ++ e' ∧ AtBoundary e ∧ AtBoundary e' := by
  induction s generalizing z t with
  | nil =>
    refine ⟨[], [], t, rfl, rfl, by simp [AtBoundary], ?_⟩
    rcases relaid.head with ⟨_, _, _, same, _⟩ | ⟨_, rfl⟩ | ⟨_, _, gap⟩
    · cases same
    · simp [AtBoundary]
    · exact gap.atBoundary
  | cons c s ih =>
    cases boundary : isBoundary c with
    | false =>
      obtain ⟨t', rfl, rest⟩ := relaid.kept (.inr boundary)
      obtain ⟨w, e, e', rfl, rfl, ends, ends'⟩ := ih rest
      exact ⟨c :: w, e, e', rfl, rfl, ends, ends'⟩
    | true =>
      have here (u : List Char) : AtBoundary (c :: u) := fun d head => by
        cases head
        exact boundary
      rcases relaid.head with ⟨d, s', t', same, rfl, _⟩ | ⟨empty, _⟩ | ⟨_, _, gap⟩
      · cases same
        exact ⟨[], c :: s, c :: t', rfl, rfl, here s, here t'⟩
      · cases empty
      · exact ⟨[], c :: s, t, rfl, rfl, here s, gap.atBoundary⟩

/-- After the same word the texts go on alike. -/
theorem after_word {x : List Char} (relaid : Relaid .code (x ++ s) (x ++ t))
    (word : ∀ c ∈ x, isBoundary c = false ∧ c ≠ '"') : Relaid .code s t := by
  induction x with
  | nil => exact relaid
  | cons c x ih =>
    obtain ⟨solid, quote⟩ := word c List.mem_cons_self
    have hash : c ≠ '#' := by
      rintro rfl
      exact absurd solid (by decide)
    obtain ⟨t', same, rest⟩ := relaid.kept (.inr solid)
    cases same
    rw [Zone.next_code quote hash] at rest
    exact ih rest fun d mem => word d (List.mem_cons_of_mem c mem)

/-- A string that is open in one text is the same in the other. -/
theorem of_quotable {body : List Char} (quotable : Word.Quotable body) (relaid : Relaid .string (body ++ '"' :: s) t) :
    ∃ t', t = body ++ '"' :: t' ∧ Relaid .code s t' := by
  induction quotable generalizing t with
  | nil => exact relaid.kept (.inl rfl)
  | @plain c u quote backslash _ ih =>
    obtain ⟨_, rfl, rest⟩ := relaid.kept (.inl rfl)
    rw [show Zone.string.next c = .string by simp [Zone.next, quote, backslash]] at rest
    obtain ⟨t', rfl, after⟩ := ih rest
    exact ⟨t', rfl, after⟩
  | @escaped c u _ ih =>
    obtain ⟨_, rfl, escaped⟩ := relaid.kept (.inl rfl)
    obtain ⟨_, rfl, rest⟩ := escaped.kept (.inl rfl)
    obtain ⟨t', rfl, after⟩ := ih rest
    exact ⟨t', rfl, after⟩

theorem take?_string {x r : List Char} (relaid : Relaid .code s t) (takes : Word.string.take? s = some (x, r)) :
    ∃ r', Word.string.take? t = some (x, r') ∧ Relaid .code r r' := by
  obtain ⟨body, quotable, rfl, rfl⟩ := Word.take?_string_eq_some_iff.mp takes
  obtain ⟨_, rfl, opened⟩ := relaid.kept (.inr (by decide))
  obtain ⟨r', rfl, after⟩ := opened.of_quotable quotable
  exact ⟨r', Word.take?_string_eq_some_iff.mpr ⟨body, quotable, rfl, rfl⟩, after⟩

theorem atLineEnd (relaid : Relaid z s t) (ending : AtLineEnd s) (settled : Settled t) : AtLineEnd t := by
  rcases relaid.head with ⟨c, s', t', rfl, rfl, _⟩ | ⟨_, rfl⟩ | ⟨_, _, gap⟩
  · exact fun d head => ending d head
  · exact atLineEnd_nil
  · exact gap.atLineEnd settled

end Relaid

/-- What follows the blanks and comments at the head of a text, or of the rest of a comment, and where `lines`,
the line breaks as well. -/
def afterLayout (lines inComment : Bool) : List Char → List Char
  | [] => []
  | c :: s =>
    if isLineBreak c then if lines then afterLayout lines false s else c :: s
    else if inComment ∨ c = '#' then afterLayout lines true s
    else if isSpace c then afterLayout lines false s
    else c :: s

theorem afterLayout_true (inComment : Bool) (s : List Char) : afterLayout true inComment s = afterLines inComment s := by
  induction s generalizing inComment with
  | nil => rfl
  | cons c s ih => simp only [afterLayout, afterLines, ih, if_true]

theorem afterLayout_comment (s : List Char) : afterLayout false true s = s.dropWhile (!isLineBreak ·) := by
  induction s with
  | nil => rfl
  | cons c s ih =>
    rw [List.dropWhile_cons, afterLayout]
    cases isLineBreak c <;> simp [ih]

theorem afterLayout_false (s : List Char) : afterLayout false false s = afterBlanks s := by
  induction s with
  | nil => rfl
  | cons c s ih =>
    cases space : isSpace c with
    | true =>
      have solid : isLineBreak c = false ∧ c ≠ '#' := by rcases isSpace_iff.mp space with rfl | rfl <;> decide
      simp [afterLayout, afterBlanks, solid, space, ih]
    | false =>
      by_cases hash : c = '#'
      · subst hash
        simp [afterLayout, afterBlanks, afterLayout_comment, isLineBreak, isSpace]
      · rw [show afterBlanks (c :: s) = c :: s from settled_iff.mpr fun d head => by cases head; exact ⟨space, hash⟩]
        simp [afterLayout, space, hash]

theorem afterLayout_line {lines : Bool} {line : List Char} (solid : ∀ c ∈ line, isLineBreak c = false) (s : List Char) :
    afterLayout lines true (line ++ s) = afterLayout lines true s := by
  induction line with
  | nil => rfl
  | cons c line ih =>
    have first := solid c List.mem_cons_self
    simp [afterLayout, first, ih fun d mem => solid d (List.mem_cons_of_mem c mem)]

theorem IsPadding.isLineBreak_eq_false {pad : List Char} (padding : IsPadding pad) :
    ∀ c ∈ pad, isLineBreak c = false := by
  induction padding with
  | nil => simp
  | space space _ ih =>
    refine List.forall_mem_cons.mpr ⟨?_, ih⟩
    rcases isSpace_iff.mp space with rfl | rfl <;> decide
  | comment line => exact List.forall_mem_cons.mpr ⟨by decide, line⟩

/-- Padding is passed over; after it a comment may be open. -/
theorem IsPadding.exists_afterLayout {pad : List Char} (padding : IsPadding pad) (lines inComment : Bool) :
    ∃ inComment', ∀ s, afterLayout lines inComment (pad ++ s) = afterLayout lines inComment' s := by
  cases inComment with
  | true => exact ⟨true, afterLayout_line padding.isLineBreak_eq_false⟩
  | false =>
    induction padding with
    | nil => exact ⟨false, fun _ => rfl⟩
    | @space c pad space _ ih =>
      obtain ⟨inComment', same⟩ := ih
      have solid : isLineBreak c = false ∧ c ≠ '#' := by rcases isSpace_iff.mp space with rfl | rfl <;> decide
      exact ⟨inComment', fun s => by simp [afterLayout, solid, space, same]⟩
    | comment line =>
      have solid : isLineBreak '#' = false := by decide
      exact ⟨true, fun s => by simp [afterLayout, solid, afterLayout_line line]⟩

theorem IsPadding.afterLayout_eq_nil {pad : List Char} (padding : IsPadding pad) (lines inComment : Bool) :
    afterLayout lines inComment pad = [] := by
  obtain ⟨inComment', same⟩ := padding.exists_afterLayout lines inComment
  have whole := same []
  rwa [List.append_nil] at whole

theorem afterLayout_lineBreak {c : Char} (lineBreak : isLineBreak c) (inComment : Bool) (s : List Char) :
    afterLayout false inComment (c :: s) = c :: s ∧ afterLayout true inComment (c :: s) = afterLayout true false s := by
  simp [afterLayout, lineBreak]

/-- Of a gap the padding at its head is passed over, and the rest of it where line breaks are. -/
theorem IsGap.exists_afterLayout {g : List Char} (gap : IsGap g) (inComment : Bool) :
    (∃ g', IsGap g' ∧ ∀ s, afterLayout false inComment (g ++ s) = g' ++ s) ∧
      ∀ s, afterLayout true inComment (g ++ s) = afterLayout true false s := by
  induction gap generalizing inComment with
  | @last pad c padding lineBreak =>
    obtain ⟨commented, blanks⟩ := padding.exists_afterLayout false inComment
    obtain ⟨commented', lines⟩ := padding.exists_afterLayout true inComment
    refine ⟨⟨[c], .last .nil lineBreak, fun s => ?_⟩, fun s => ?_⟩
    · rw [List.append_assoc, blanks]
      exact (afterLayout_lineBreak lineBreak commented s).1
    · rw [List.append_assoc, lines]
      exact (afterLayout_lineBreak lineBreak commented' s).2
  | @more pad c t padding lineBreak gap ih =>
    obtain ⟨commented, blanks⟩ := padding.exists_afterLayout false inComment
    obtain ⟨commented', lines⟩ := padding.exists_afterLayout true inComment
    refine ⟨⟨c :: t, .more .nil lineBreak gap, fun s => ?_⟩, fun s => ?_⟩
    · rw [List.append_assoc, blanks]
      exact (afterLayout_lineBreak lineBreak commented (t ++ s)).1
    · rw [List.append_assoc, lines]
      exact (afterLayout_lineBreak lineBreak commented' (t ++ s)).2.trans ((ih false).2 s)

/-- A character in a line is passed over, or it and all that follows it are left. -/
theorem afterLayout_cons {z : Zone} {c : Char} (free : z.isQuoted = false) (solid : isLineBreak c = false) (lines : Bool) :
    ((z.next c).isQuoted = false ∧
        ∀ s, afterLayout lines (z == .comment) (c :: s) = afterLayout lines (z.next c == .comment) s) ∨
      z = .code ∧ ∀ s, afterLayout lines (z == .comment) (c :: s) = c :: s := by
  cases z with
  | string => cases free
  | escape => cases free
  | comment =>
    have stays : Zone.comment.next c = .comment := by simp [Zone.next, solid]
    exact .inl ⟨by rw [stays]; rfl, fun s => by simp [stays, afterLayout, solid]⟩
  | code =>
    have start : (Zone.code == Zone.comment) = false := rfl
    by_cases hash : c = '#'
    · subst hash
      have opens : Zone.code.next '#' = .comment := rfl
      exact .inl ⟨rfl, fun s => by simp [opens, start, afterLayout, solid]⟩
    · cases space : isSpace c with
      | true =>
        have stays : Zone.code.next c = .code := by rcases isSpace_iff.mp space with rfl | rfl <;> rfl
        exact .inl ⟨by rw [stays]; rfl, fun s => by simp [stays, start, afterLayout, solid, hash, space]⟩
      | false => exact .inr ⟨rfl, fun s => by simp [start, afterLayout, solid, hash, space]⟩

/-- Beyond their layout the texts go on alike. -/
theorem Relaid.beyond {z : Zone} {s t : List Char} (relaid : Relaid z s t) (free : z.isQuoted = false) (lines : Bool) :
    Relaid .code (afterLayout lines (z == .comment) s) (afterLayout lines (z == .comment) t) := by
  induction relaid with
  | nil => exact .nil
  | @keep z c s t rest ih =>
    cases lineBreak : isLineBreak c with
    | true =>
      rw [Zone.next_lineBreak free lineBreak] at rest ih
      cases lines with
      | true =>
        rw [(afterLayout_lineBreak lineBreak _ s).2, (afterLayout_lineBreak lineBreak _ t).2]
        exact ih rfl
      | false =>
        rw [(afterLayout_lineBreak lineBreak _ s).1, (afterLayout_lineBreak lineBreak _ t).1]
        exact .keep (by rwa [Zone.next_lineBreak rfl lineBreak])
    | false =>
      rcases afterLayout_cons free lineBreak lines with ⟨free', same⟩ | ⟨rfl, same⟩
      · rw [same, same]
        exact ih free'
      · rw [same, same]
        exact .keep rest
  | @gap z g g' s t _ gap gap' rest ih =>
    obtain ⟨⟨h, isGap, blanks⟩, broken⟩ := gap.exists_afterLayout (z == .comment)
    obtain ⟨⟨h', isGap', blanks'⟩, broken'⟩ := gap'.exists_afterLayout (z == .comment)
    cases lines with
    | true =>
      rw [broken, broken']
      exact ih rfl
    | false =>
      rw [blanks, blanks']
      exact .gap rfl isGap isGap' rest
  | padding _ pad pad' =>
    rw [pad.afterLayout_eq_nil, pad'.afterLayout_eq_nil]
    exact .nil

end KeyIntrospection.Script

namespace KeyIntrospection

open Script

instance : Placed Script where
  move f s := ⟨move f s.statements, s.file, move f s.span⟩
  move_id s := by simp

namespace Alignment

/-- Two texts with another layout. Their offsets are not compared. -/
def layout : Alignment where
  near c d := Relaid .code c.rest d.rest
  left _ := 0
  right _ := 0
  inside _ _ := rfl
  skip {c d} near := by
    have beyond := near.beyond rfl false
    rwa [show (Zone.code == Zone.comment) = false from rfl, afterLayout_false, afterLayout_false] at beyond

theorem respects_layout_of_bare {t : Token} (bare : t.Bare) : layout.Respects t := by
  intro c d near
  have texts : Relaid .code c.rest d.rest := near
  obtain ⟨w, e, e', split, split', boundary, boundary'⟩ := texts.exists_common
  rw [split, split', bare.solid boundary, bare.solid boundary']
  rcases found : t.take? w with _ | ⟨x, r⟩
  · exact .inl ⟨rfl, rfl⟩
  · refine .inr ⟨x, r ++ e, r ++ e', rfl, rfl, ?_⟩
    rw [split, split', ← t.append_eq found, List.append_assoc, List.append_assoc] at texts
    exact texts.after_word fun c mem =>
      ⟨bare.solid.isBoundary_eq_false found mem, bne_iff_ne.mp (bare.unquoted found c mem)⟩

theorem respects_layout_string : layout.Respects Word.string := by
  intro c d near
  have texts : Relaid .code c.rest d.rest := near
  rcases found : Word.string.take? c.rest with _ | ⟨x, r⟩
  · refine .inl ⟨rfl, ?_⟩
    rcases found' : Word.string.take? d.rest with _ | ⟨x, r⟩
    · rfl
    · obtain ⟨r', also, _⟩ := texts.symm.take?_string found'
      rw [found] at also
      cases also
  · obtain ⟨r', also, after⟩ := texts.take?_string found
    exact .inr ⟨x, r, r', rfl, also, after⟩

theorem ofLines_layout : layout.OfLines where
  word := respects_layout_of_bare
  string := respects_layout_string
  lines {c d} near := by
    have beyond := Relaid.beyond near rfl true
    rwa [show (Zone.code == Zone.comment) = false from rfl, afterLayout_true, afterLayout_true] at beyond

end Alignment

namespace Script

namespace Rule

/-- A listing of a text, and one of the text with another layout. -/
theorem Listing.relaid {c d : Cursor} {vs : List (Except LiteralFault (Located Statement))} (listing : Listing c vs)
    (near : Alignment.layout.near c d) : ∃ ws, Listing d ws ∧ Alignment.layout.Agree vs ws := by
  have words := Alignment.ofLines_layout
  induction listing generalizing d with
  | @done c finished =>
    have lines : Relaid .code c.skipLines.rest d.skipLines.rest := words.lines near
    have ending := lines.atLineEnd (by rw [finished]; exact atLineEnd_nil) d.settled_skipLines
    refine ⟨[], .done ?_, rfl⟩
    rcases rest : d.skipLines.rest with _ | ⟨x, t⟩
    · rfl
    · have solid : isLineBreak x = false := isLineBreak_head_afterLines false d.rest x (by
        rw [show afterLines false d.rest = x :: t from rest]; rfl)
      rw [ending x (by rw [rest]; rfl)] at solid
      cases solid
  | @next c m vs found ending _ ih =>
    rcases words.statement (words.lines near) with ⟨refused, _⟩ | ⟨m', n, accepted, accepted', after, agree⟩
    · rw [found] at refused
      cases refused
    · cases found.symm.trans accepted
      have blanks := Alignment.layout.skip after
      obtain ⟨ws, listing, agrees⟩ := ih blanks
      refine ⟨n.value :: ws, .next accepted' (Relaid.atLineEnd blanks ending n.next.settled_skipBlanks) listing, ?_⟩
      rw [Alignment.Agree, move_cons, move_cons, agree, agrees]

theorem agree_foldr_prepend {S : Alignment} {c d : Cursor} {vs ws : List (Except LiteralFault (Located Statement))}
    (agree : S.Agree vs ws) :
    S.Agree (vs.foldr prepend (Cursor.finished c)).value (ws.foldr prepend (Cursor.finished d)).value := by
  induction vs generalizing ws with
  | nil =>
    cases ws with
    | nil => rfl
    | cons w ws => cases agree
  | cons v vs ih =>
    cases ws with
    | nil => cases agree
    | cons w ws =>
      obtain ⟨first, others⟩ := List.cons.inj agree
      have rest := ih others
      rw [List.foldr_cons, List.foldr_cons, prepend, prepend]
      generalize (vs.foldr prepend (Cursor.finished c)).value = p at rest
      generalize (ws.foldr prepend (Cursor.finished d)).value = q at rest
      cases v <;> cases w <;> cases p <;> cases q <;>
        simp_all [Alignment.Agree, bind, Except.bind, pure, Except.pure]
      exact congrArg Prod.fst rest

end Rule

/-- A script with another layout is the same script, up to spans. -/
theorem parse_of_relaid {source source' : String} {file : Option String} {s : Script}
    (parsed : Script.parse source file = .ok s) (relaid : Relaid .code source.toList source'.toList) :
    ∃ t, Script.parse source' file = .ok t ∧ Alike s t := by
  obtain ⟨l, whole, rfl⟩ := Rule.exists_parse_of_script parsed
  obtain ⟨vs, listing, fine⟩ := Rule.exists_listing_of_parse whole
  obtain ⟨ws, listing', agree⟩ := listing.relaid (d := Cursor.ofText source') relaid
  have values := Rule.agree_foldr_prepend agree (c := Cursor.ofText source) (d := Cursor.ofText source')
  rw [fine] at values
  cases fine' : (ws.foldr Rule.prepend (Rule.Cursor.finished (Cursor.ofText source'))).value with
  | error e =>
    rw [fine'] at values
    cases values
  | ok p =>
    rw [fine'] at values
    refine ⟨⟨p.1, file, 0, (Cursor.ofText source').stop⟩, ?_, ?_⟩
    · rw [Script.parse, Rule.parse_of_listing listing', fine']
      rfl
    · have statements : Alike l.value p.1 := congrArg Prod.fst (Except.ok.inj values)
      exact congrArg (fun statements => (⟨statements, file, 0, 0⟩ : Script)) statements

section Changes

variable {z : Zone}

/-- Padding before the end of a line changes the layout. -/
theorem relaid_padding {before after pad : List Char} (free : (z.after before).isQuoted = false)
    (ending : AtLineEnd after) (padding : IsPadding pad) : Relaid z (before ++ after) (before ++ (pad ++ after)) := by
  induction before generalizing z with
  | nil =>
    cases after with
    | nil =>
      rw [List.append_nil, List.append_nil]
      exact .padding free .nil padding
    | cons c s =>
      have lineBreak := ending c rfl
      have gaps : Relaid z ([c] ++ s) ((pad ++ [c]) ++ s) :=
        .gap free (.last .nil lineBreak) (.last padding lineBreak) (.refl _ s)
      rwa [List.append_assoc] at gaps
  | cons c before ih => exact .keep (ih free)

/-- The characters of a text from `offset` on with `newline` for each line feed that no string is around. -/
def withNewlines (strings : List Span) (newline : List Char) (offset : Nat) : List Char → List Char
  | [] => []
  | c :: s =>
    (if c = '\n' ∧ ∀ r ∈ strings, ¬r.Surrounds offset then newline else [c]) ++
      withNewlines strings newline (offset + c.utf8Size) s

theorem relaid_withNewlines {strings : List Span} {newline : List Char} (gap : IsGap newline) {offset : Nat} {s : List Char}
    (around : ∀ before after, s = before ++ after → (z.after before).isQuoted →
      ∃ r ∈ strings, r.Surrounds (offset + byteLength before)) :
    Relaid z s (withNewlines strings newline offset s) := by
  induction s generalizing z offset with
  | nil => exact .nil
  | cons c s ih =>
    have later (z' : Zone) (next : z.next c = z') : Relaid z' s (withNewlines strings newline (offset + c.utf8Size) s) := by
      refine ih fun before after split quoted => ?_
      rw [← next] at quoted
      obtain ⟨r, mem, surrounds⟩ := around (c :: before) after (by rw [split]; rfl) quoted
      rw [byteLength, ← Nat.add_assoc] at surrounds
      exact ⟨r, mem, surrounds⟩
    rw [withNewlines]
    split
    · next outside =>
      obtain ⟨rfl, outside⟩ := outside
      have free : z.isQuoted = false := by
        refine Bool.eq_false_iff.mpr fun quoted => ?_
        obtain ⟨r, mem, surrounds⟩ := around [] _ rfl quoted
        exact outside r mem surrounds
      exact .gap free (.last (c := '\n') .nil rfl) gap (later .code (Zone.next_lineBreak free rfl))
    · exact .keep (later _ rfl)

end Changes

/-- The source with `newline` for each line feed outside of the string literals of the script. -/
def relined (s : Script) (newline source : String) : String :=
  .ofList (withNewlines s.strings newline.toList 0 source.toList)

/-- Layout does not change meaning. Of a script, padding may stand before each line break outside of its string
literals and at its end, and its line feeds outside of them may be carriage returns, with a line feed or without. -/
theorem parse_layout {source : String} {file : Option String} {s : Script}
    (parsed : Script.parse source file = .ok s) :
    (∀ before pad after : String, source = before ++ after →
        (∀ r ∈ s.strings, ¬r.Surrounds before.utf8ByteSize) → AtLineEnd after.toList → IsPadding pad.toList →
        ∃ t, Script.parse (before ++ pad ++ after) file = .ok t ∧ Alike s t) ∧
      ∀ newline ∈ ["\r\n", "\r"], ∃ t, Script.parse (relined s newline source) file = .ok t ∧ Alike s t := by
  refine ⟨fun before pad after split outside ending padding => ?_, fun newline mem => ?_⟩
  · have text : source.toList = before.toList ++ after.toList := by rw [split, String.toList_append]
    have free : (Zone.code.after before.toList).isQuoted = false := by
      refine Bool.eq_false_iff.mpr fun quoted => ?_
      obtain ⟨r, mem, surrounds⟩ := exists_string_of_isQuoted parsed text quoted
      rw [byteLength_eq_utf8ByteSize, String.ofList_toList] at surrounds
      exact outside r mem surrounds
    refine parse_of_relaid parsed ?_
    rw [text, String.toList_append, String.toList_append, List.append_assoc]
    exact relaid_padding free ending padding
  · have gap : IsGap newline.toList := by
      simp only [List.mem_cons, List.not_mem_nil, or_false] at mem
      rcases mem with rfl | rfl
      · exact .more (c := '\r') .nil rfl (.last (c := '\n') .nil rfl)
      · exact .last (c := '\r') .nil rfl
    refine parse_of_relaid parsed ?_
    rw [relined, String.toList_ofList]
    refine relaid_withNewlines gap fun before after split quoted => ?_
    rw [Nat.zero_add]
    exact exists_string_of_isQuoted parsed split quoted

/-- A string over two lines, whose line feed stays, and a quote in a comment, which opens no string. -/
theorem parse_layout_string :
    ∃ s, Script.parse "a = \"x\ny\" # \"\nfreeze a" none = .ok s ∧ s.strings = [⟨4, 9⟩] ∧
      (∃ t, Script.parse ("a = \"x\ny\" # \"" ++ " # \"end" ++ "\nfreeze a") none = .ok t ∧ Alike s t) ∧
      ∃ t, Script.parse "a = \"x\ny\" # \"\r\nfreeze a" none = .ok t ∧ Alike s t := by
  let s : Script :=
    ⟨[⟨.assign ⟨"a", 0, 1⟩ ⟨.literal ⟨.string "x\ny", 4, 9⟩, 4, 9⟩, 0, 9⟩,
      ⟨.freeze ⟨"a", 21, 22⟩, 14, 22⟩], none, 0, 22⟩
  have parsed : Script.parse "a = \"x\ny\" # \"\nfreeze a" none = .ok s := by rfl
  have padding : IsPadding [' ', '#', ' ', '"', 'e', 'n', 'd'] := .space rfl (.comment (by simp [isLineBreak]))
  refine ⟨s, parsed, rfl, ?_, ?_⟩
  · exact (parse_layout parsed).1 _ _ _ (by decide) (by decide) (fun c head => by cases head; rfl) padding
  · exact (parse_layout parsed).2 "\r\n" (by decide)

end Script

end KeyIntrospection
