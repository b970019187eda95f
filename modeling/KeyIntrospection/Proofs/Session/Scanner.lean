import KeyIntrospection.Proofs.Script.Locality
import KeyIntrospection.Session.Input

/-!
What is open while a statement is read. Between tokens no string is open, brackets are as deep as the
rules say, and a comment is open only where its line ends; inside a statement every line feed stands
where a bracket or a string is open. So a statement that is entered line by line is complete at its last
line and not before.
-/

namespace KeyIntrospection.Session

open Token (Takes)

namespace Nesting

/-- What is open after some characters, see `isComplete`. -/
def scan (n : Nesting) (s : List Char) : Nesting := s.foldl next n

@[simp] theorem scan_nil (n : Nesting) : n.scan [] = n := rfl

@[simp] theorem scan_cons (n : Nesting) (c : Char) (s : List Char) : n.scan (c :: s) = (n.next c).scan s := rfl

theorem scan_append (n : Nesting) (s t : List Char) : n.scan (s ++ t) = (n.scan s).scan t :=
  List.foldl_append

/-- Every line feed stands where something is open. -/
def Held (n : Nesting) : List Char → Prop
  | [] => True
  | c :: s => (c = '\n' → n.isClosed = false) ∧ (n.next c).Held s

theorem held_append {n : Nesting} {s t : List Char} : n.Held (s ++ t) ↔ n.Held s ∧ (n.scan s).Held t := by
  induction s generalizing n with
  | nil => simp [Held]
  | cons c s ih => simp [Held, ih, and_assoc]

/-- No comment ends at a carriage return alone: in a comment a line feed follows it, or nothing. -/
def Fed (n : Nesting) : List Char → Prop
  | [] => True
  | c :: s => (n.inComment → c = '\r' → ∀ d ∈ s.head?, d = '\n') ∧ (n.next c).Fed s

instance instDecidableFed : (n : Nesting) → (s : List Char) → Decidable (n.Fed s)
  | _, [] => .isTrue trivial
  | n, c :: s =>
    have := instDecidableFed (n.next c) s
    have : Decidable (∀ d ∈ s.head?, d = '\n') :=
      match s with
      | [] => .isTrue (by simp)
      | d :: _ => decidable_of_iff (d = '\n') (by simp)
    decidable_of_iff ((n.inComment → c = '\r' → ∀ d ∈ s.head?, d = '\n') ∧ (n.next c).Fed s) Iff.rfl

theorem Fed.after {n : Nesting} {s t : List Char} (fed : n.Fed (s ++ t)) : (n.scan s).Fed t := by
  induction s generalizing n with
  | nil => exact fed
  | cons c s ih => exact ih fed.2

theorem fed_of_not_mem {n : Nesting} {s : List Char} (plain : '\r' ∉ s) : n.Fed s := by
  induction s generalizing n with
  | nil => trivial
  | cons c s ih =>
    refine ⟨fun _ carriage => ?_, ih fun mem => plain (List.mem_cons_of_mem c mem)⟩
    exact absurd (carriage ▸ List.mem_cons_self) plain

/-- Between tokens: no string is open, and a comment only where its line ends. -/
structure Between (n : Nesting) (depth : Int32) (rest : List Char) : Prop where
  depth_eq : n.depth = depth
  inString : n.inString = false
  escaped : n.escaped = false
  inComment : n.inComment → AtLineEnd rest

theorem between_initial (s : List Char) : Between {} 0 s := ⟨rfl, rfl, rfl, fun commented => by cases commented⟩

theorem Between.isClosed {n : Nesting} {s : List Char} (between : Between n 0 s) : n.isClosed := by
  simp [Nesting.isClosed, between.depth_eq, between.inString]

/-- Where something else than a line break stands, no comment is open. -/
theorem Between.not_inComment {n : Nesting} {depth : Int32} {c : Char} {s : List Char}
    (between : Between n depth (c :: s)) (solid : isLineBreak c = false) : n.inComment = false := by
  cases inComment : n.inComment with
  | false => rfl
  | true =>
    have lineBreak := between.inComment inComment c rfl
    rw [solid] at lineBreak
    cases lineBreak

/-- Where no comment is open, it does not matter what comes next. -/
theorem Between.of_not_inComment {n : Nesting} {depth : Int32} {s : List Char} (between : Between n depth s)
    (inComment : n.inComment = false) (t : List Char) : Between n depth t := by
  refine ⟨between.depth_eq, between.inString, between.escaped, fun commented => ?_⟩
  rw [inComment] at commented
  cases commented

/-- A line feed ends a comment. -/
theorem Between.feed {n : Nesting} {depth : Int32} {s : List Char} (between : Between n depth s)
    (t : List Char) : Between (n.next '\n') depth t := by
  have ends : n.next '\n' = { n with inComment := false } := by
    obtain ⟨_, _, _, inComment⟩ := n
    cases between.inString
    cases between.escaped
    cases inComment <;> rfl
  rw [ends]
  exact ⟨between.depth_eq, between.inString, between.escaped, fun commented => by cases commented⟩

/-- A carriage return means nothing. -/
theorem Between.carriage {n : Nesting} {depth : Int32} {s : List Char} (between : Between n depth s) :
    n.next '\r' = n := by
  obtain ⟨_, _, _, inComment⟩ := n
  cases between.inString
  cases between.escaped
  cases inComment <;> rfl

/-- A character that opens and closes nothing and breaks no line. -/
def isNeutral (c : Char) : Bool := !"\n\r\"#\x7b\x7d[]()".toList.contains c

theorem isNeutral_iff {c : Char} : isNeutral c ↔ c ≠ '\n' ∧ c ≠ '\r' ∧ c ≠ '"' ∧ c ≠ '#' ∧ c ≠ '\x7b' ∧
    c ≠ '\x7d' ∧ c ≠ '[' ∧ c ≠ ']' ∧ c ≠ '(' ∧ c ≠ ')' := by
  have chars : "\n\r\"#\x7b\x7d[]()".toList =
      ['\n', '\r', '"', '#', '\x7b', '\x7d', '[', ']', '(', ')'] := by decide
  simp [isNeutral, chars]

theorem next_of_isNeutral {n : Nesting} {c : Char} (neutral : isNeutral c) (inComment : n.inComment = false)
    (inString : n.inString = false) (escaped : n.escaped = false) : n.next c = n := by
  obtain ⟨_, _, quote, hash, brace, brace', bracket, bracket', paren, paren'⟩ := isNeutral_iff.mp neutral
  simp [next, inComment, inString, escaped, quote, hash, brace, brace', bracket, bracket', paren, paren']

theorem scan_of_isNeutral {n : Nesting} {s : List Char} (neutral : ∀ c ∈ s, isNeutral c)
    (inComment : n.inComment = false) (inString : n.inString = false) (escaped : n.escaped = false) :
    n.scan s = n ∧ n.Held s := by
  induction s with
  | nil => exact ⟨rfl, trivial⟩
  | cons c s ih =>
    have first := neutral c List.mem_cons_self
    obtain ⟨same, held⟩ := ih fun d mem => neutral d (List.mem_cons_of_mem c mem)
    have stays := next_of_isNeutral first inComment inString escaped
    refine ⟨by rw [scan_cons, stays, same], ?_, by rw [stays]; exact held⟩
    intro feed
    exact absurd feed (isNeutral_iff.mp first).1

theorem scan_comment {n : Nesting} {s : List Char} (line : ∀ c ∈ s, isLineBreak c = false)
    (inComment : n.inComment = true) : n.scan s = n ∧ n.Held s := by
  induction s with
  | nil => exact ⟨rfl, trivial⟩
  | cons c s ih =>
    have feed : c ≠ '\n' := by
      rintro rfl
      exact absurd (line '\n' List.mem_cons_self) (by decide)
    obtain ⟨same, held⟩ := ih fun d mem => line d (List.mem_cons_of_mem c mem)
    have stays : n.next c = n := by
      obtain ⟨depth, inString, escaped, comment⟩ := n
      cases inComment
      simp [next, feed]
    refine ⟨by rw [scan_cons, stays, same], fun same => absurd same feed, by rw [stays]; exact held⟩

theorem isNeutral_of_isSpace {c : Char} (space : isSpace c) : isNeutral c := by
  rcases isSpace_iff.mp space with rfl | rfl <;> decide

/-- Blanks and a comment leave what is open between tokens as it is. -/
theorem Between.skip {n : Nesting} {depth : Int32} {s : List Char} (between : Between n depth s) :
    n.Held (blanks s) ∧ Between (n.scan (blanks s)) depth (afterBlanks s) := by
  cases inComment : n.inComment with
  | true =>
    have settled : afterBlanks s = s := (between.inComment inComment).settled
    have whole := congrArg List.length (blanks_append_afterBlanks s)
    rw [settled, List.length_append] at whole
    have empty : blanks s = [] := List.eq_nil_of_length_eq_zero (by omega)
    rw [empty, settled]
    exact ⟨trivial, between⟩
  | false =>
    have spaces : ∀ c ∈ s.takeWhile isSpace, isNeutral c := fun c mem =>
      isNeutral_of_isSpace (List.all_eq_true.mp List.all_takeWhile c mem)
    obtain ⟨same, held⟩ := scan_of_isNeutral spaces inComment between.inString between.escaped
    unfold blanks afterBlanks
    dsimp only
    rw [scan_append, held_append, same]
    split
    · next hash =>
      obtain ⟨t, rest⟩ := List.head?_eq_some_iff.mp hash
      have comment : n.next '#' = { n with inComment := true } := by
        simp [next, inComment, between.inString, between.escaped]
      have line : ∀ c ∈ t.takeWhile (!isLineBreak ·), isLineBreak c = false := fun c mem => by
        simpa using List.all_eq_true.mp List.all_takeWhile c mem
      obtain ⟨same', held'⟩ := scan_comment (n := { n with inComment := true }) line rfl
      have opens : (s.dropWhile isSpace).takeWhile (!isLineBreak ·) = '#' :: t.takeWhile (!isLineBreak ·) := by
        rw [rest, List.takeWhile_cons, if_pos (by decide)]
      rw [opens]
      refine ⟨⟨held, fun feed => absurd feed (by decide), by rw [comment]; exact held'⟩, ?_⟩
      rw [scan_cons, comment, same']
      exact ⟨between.depth_eq, between.inString, between.escaped, fun _ => atLineEnd_dropWhile _⟩
    · exact ⟨⟨held, trivial⟩, between.of_not_inComment inComment _⟩

end Nesting

open Nesting

/-- Where a phrase begins with `before` open brackets it ends with `after` of them, and every line feed in it is held
back. -/
def Scans {α : Type} (p : Script.Rule α) (before after : Int32) : Prop :=
  ∀ ⦃c : Cursor⦄ ⦃m : Match Script.LiteralFault α⦄, p.accept? c = some m →
    ∀ ⦃n : Nesting⦄, n.Fed c.rest → Between n before c.rest →
      ∃ taken, c.rest = taken ++ m.next.rest ∧ n.Held taken ∧ Between (n.scan taken) after m.next.rest

namespace Scans

variable {α β : Type} {before middle after depth : Int32}

theorem seq {gap : Gap} {p : Script.Rule α} {q : Script.Rule β} (first : Scans p before middle)
    (second : Scans q middle after) : Scans (Grammar.seq gap p q) before after := by
  intro c k accepted n fed start
  obtain ⟨m, acceptedFirst, accepted⟩ := Option.bind_eq_some_iff.mp accepted
  obtain ⟨m', acceptedSecond, rfl⟩ := Option.map_eq_some_iff.mp accepted
  obtain ⟨s, split, held, seam⟩ := first acceptedFirst fed start
  rw [split] at fed
  obtain ⟨t, split', held', seam'⟩ : ∃ t, m.next.rest = t ++ (gap.skip m.next).rest ∧
      (n.scan s).Held t ∧ Between ((n.scan s).scan t) middle (gap.skip m.next).rest := by
    cases gap with
    | blanks => exact ⟨_, (blanks_append_afterBlanks m.next.rest).symm, seam.skip.1, seam.skip.2⟩
    | nothing => exact ⟨[], rfl, trivial, seam⟩
  have fed' := fed.after
  rw [split'] at fed'
  obtain ⟨u, split'', held'', finish⟩ := second acceptedSecond fed'.after seam'
  refine ⟨s ++ (t ++ u), ?_, ?_, ?_⟩
  · rw [split, split', split'']
    simp [Match.pair]
  · exact held_append.mpr ⟨held, held_append.mpr ⟨held', held''⟩⟩
  · rw [scan_append, scan_append]
    exact finish

theorem choice {p q : Script.Rule α} (first : Scans p before after) (second : Scans q before after) :
    Scans (.choice p q) before after := by
  intro c k accepted
  rw [Grammar.accept?] at accepted
  split at accepted
  · next found =>
    cases accepted
    exact first found
  · exact second accepted

theorem map {f : α → β} {p : Script.Rule α} (inner : Scans p before after) : Scans (.map f p) before after := by
  intro c k accepted
  obtain ⟨m, found, rfl⟩ := Option.map_eq_some_iff.mp accepted
  exact inner found

theorem phrase {name : Script.Phrase} {p : Script.Rule α} (inner : Scans p before after) :
    Scans (Grammar.phrase name p) before after := by
  intro c k accepted
  obtain ⟨m, found, rfl⟩ := Option.map_eq_some_iff.mp accepted
  exact inner found

theorem optional {p : Script.Rule α} (inner : Scans p depth depth) : Scans (.optional p) depth depth := by
  intro c k accepted n fed between
  rw [Grammar.accept?] at accepted
  split at accepted
  · next found =>
    cases accepted
    exact inner found fed between
  · cases accepted
    exact ⟨[], rfl, trivial, between⟩

theorem items {p : Script.Rule α} (inner : Scans p depth depth) (consumes : p.Consumes) {l : Nat} {c : Cursor}
    (short : c.rest.length < l) {n : Nesting} (fed : n.Fed c.rest) (between : Between n depth c.rest) :
    ∃ taken, c.rest = taken ++ (Grammar.items p.accept? c).next.rest ∧ n.Held taken ∧
      Between (n.scan taken) depth (Grammar.items p.accept? c).next.rest := by
  induction l generalizing c n with
  | zero => omega
  | succ l ih =>
    cases found : p.accept? c.skipBlanks with
    | none =>
      rw [Grammar.items_of_none found]
      exact ⟨[], rfl, trivial, between⟩
    | some m =>
      have later := Nat.lt_of_le_of_lt c.offset_le_skipBlanks (consumes found)
      have shorter := (c.reaches_skipBlanks.trans (Grammar.accept?_reaches found)).length_lt later
      have split := (blanks_append_afterBlanks c.rest).symm
      rw [split] at fed
      have fed' := fed.after
      obtain ⟨s, split', held', between'⟩ := inner found fed' between.skip.2
      rw [show afterBlanks c.rest = s ++ m.next.rest from split'] at fed'
      obtain ⟨t, split'', held'', between''⟩ := ih (by omega) fed'.after between'
      rw [Grammar.items_of_some consumes found]
      have split₁ : afterBlanks c.rest = s ++ m.next.rest := split'
      refine ⟨blanks c.rest ++ (s ++ t), ?_, ?_, ?_⟩
      · refine split.trans ?_
        rw [split₁, split'']
        simp [Match.cons]
      · exact held_append.mpr ⟨between.skip.1, held_append.mpr ⟨held', held''⟩⟩
      · rw [scan_append, scan_append]
        exact between''

theorem many {p : Script.Rule α} (inner : Scans p depth depth) (consumes : p.Consumes) :
    Scans (.many p) depth depth := by
  intro c k accepted n fed between
  rw [Grammar.accept?] at accepted
  split at accepted
  · next m found =>
    cases accepted
    obtain ⟨s, split, held, between⟩ := inner found fed between
    rw [split] at fed
    obtain ⟨t, split', held', between'⟩ := inner.items consumes (Nat.lt_succ_self _) fed.after between
    refine ⟨s ++ t, ?_, held_append.mpr ⟨held, held'⟩, ?_⟩
    · rw [split, split']
      simp [Match.cons]
    · rw [scan_append]
      exact between'
  · cases accepted
    exact ⟨[], rfl, trivial, between⟩

end Scans

theorem isNeutral_of_isPart {c : Char} (part : Script.Word.isPart c) : isNeutral c := by
  refine isNeutral_iff.mpr ⟨?_, ?_, ?_, ?_, ?_, ?_, ?_, ?_, ?_, ?_⟩ <;> rintro rfl <;>
    exact absurd part (by decide)

namespace Scans

open Script Script.Rule

variable {α β : Type} {depth : Int32}

theorem of_read? {t : Token} (neutral : Takes t (isNeutral ·)) {c next : Cursor} {x : Located (List Char)}
    (takes : t.read? c = some (x, next)) {n : Nesting} (between : Between n depth c.rest) :
    ∃ taken, c.rest = taken ++ next.rest ∧ n.Held taken ∧ Between (n.scan taken) depth next.rest := by
  obtain ⟨⟨taken, rest⟩, found, same⟩ := Option.map_eq_some_iff.mp takes
  cases same
  have split := t.append_eq found
  refine ⟨taken, split.symm, ?_⟩
  rcases taken with _ | ⟨d, taken⟩
  · have whole : rest = c.rest := split
    rw [← whole] at between
    exact ⟨trivial, between⟩
  · have inside := neutral found
    have solid : isLineBreak d = false := by
      obtain ⟨feed, carriage, _⟩ := isNeutral_iff.mp (inside d List.mem_cons_self)
      simp [isLineBreak, feed, carriage]
    rw [← split] at between
    have inComment := between.not_inComment solid
    obtain ⟨same, held⟩ := scan_of_isNeutral inside inComment between.inString between.escaped
    rw [same]
    exact ⟨held, between.of_not_inComment inComment rest⟩

theorem plain {t : Token} (neutral : Takes t (isNeutral ·)) : Scans (.plain t : Rule Unit) depth depth := by
  intro c m accepted n _ between
  obtain ⟨⟨x, next⟩, takes, rfl⟩ := Option.map_eq_some_iff.mp accepted
  exact of_read? neutral takes between

theorem token {name : Phrase} {t : Token} {read : Located (List Char) → Except LiteralFault α}
    (neutral : Takes t (isNeutral ·)) : Scans (.token name t read) depth depth := by
  intro c m accepted n _ between
  obtain ⟨⟨x, next⟩, takes, rfl⟩ := Option.map_eq_some_iff.mp accepted
  exact of_read? neutral takes between

theorem mark {m : String} (neutral : m.toList.all isNeutral) : Scans (Rule.mark m) depth depth :=
  plain (.text neutral)

theorem takes_run {first : Char → Bool} (start : ∀ c, first c → Word.isPart c) :
    Takes (.run first Word.isPart) (isNeutral ·) :=
  .run (fun c found => isNeutral_of_isPart (start c found)) fun _ => isNeutral_of_isPart

theorem keyword (k : Keyword) : Scans (Rule.keyword k) depth depth := token (takes_run fun _ => id).filter

theorem variableName : Scans Rule.variableName depth depth :=
  token (takes_run fun _ => Word.isPart_of_isLowerStart).filter

theorem className : Scans Rule.className depth depth := token (takes_run fun _ => Word.isPart_of_isUpper)

theorem takes_accessorName : Takes Word.accessorName (isNeutral ·) :=
  takes_run fun _ => Word.isPart_of_isStart

theorem attributeName : Scans Rule.attributeName depth depth :=
  token (.append (.text (by decide)) takes_accessorName)

theorem takes_integer : Takes Word.integer (isNeutral ·) := by
  have digit (c : Char) (found : c.isDigit) : isNeutral c := isNeutral_of_isPart (Word.isPart_of_isDigit found)
  exact .append (.optional (by decide)) (.run digit digit)

theorem takes_float : Takes Word.float (isNeutral ·) := by
  have digit (c : Char) (found : c.isDigit) : isNeutral c := isNeutral_of_isPart (Word.isPart_of_isDigit found)
  exact .append (.append takes_integer (.text (by decide))) (.run digit digit)

/-- A bracket is a mark that changes the depth. -/
theorem bracket {m : String} {c : Char} {before after : Int32} (text : m.toList = [c])
    (solid : isLineBreak c = false)
    (turns : ∀ n : Nesting, n.depth = before → n.inComment = false → n.inString = false → n.escaped = false →
      n.next c = { n with depth := after }) : Scans (Rule.mark m) before after := by
  intro d k accepted n _ between
  obtain ⟨⟨x, next⟩, takes, rfl⟩ := Option.map_eq_some_iff.mp accepted
  obtain ⟨⟨taken, rest⟩, found, same⟩ := Option.map_eq_some_iff.mp takes
  cases same
  have split := Token.append_eq _ found
  simp only [Token.text, Token.exactly, Option.ite_none_right_eq_some, Option.some.injEq,
    Prod.mk.injEq] at found
  rw [text] at found
  obtain ⟨_, rfl, _⟩ := found
  rw [← split] at between
  have inComment := between.not_inComment solid
  have step := turns n between.depth_eq inComment between.inString between.escaped
  refine ⟨[c], split.symm, ⟨fun feed => ?_, trivial⟩, ?_⟩
  · rw [feed] at solid
    cases solid
  · rw [scan_cons, scan_nil, step]
    refine ⟨rfl, between.inString, between.escaped, fun commented => ?_⟩
    rw [show n.inComment = true from commented] at inComment
    cases inComment

theorem opening {m : String} {c : Char} (text : m.toList = [c]) (kind : c = '\x7b' ∨ c = '[' ∨ c = '(') :
    Scans (Rule.mark m) 0 1 := by
  refine bracket text ?_ fun n depth inComment inString escaped => ?_
  · rcases kind with rfl | rfl | rfl <;> decide
  · rcases kind with rfl | rfl | rfl <;> simp [Nesting.next, depth, inComment, inString, escaped]

theorem closing {m : String} {c : Char} (text : m.toList = [c]) (kind : c = '\x7d' ∨ c = ']' ∨ c = ')') :
    Scans (Rule.mark m) 1 0 := by
  refine bracket text ?_ fun n depth inComment inString escaped => ?_
  · rcases kind with rfl | rfl | rfl <;> decide
  · rcases kind with rfl | rfl | rfl <;> simp [Nesting.next, depth, inComment, inString, escaped]

end Scans

end KeyIntrospection.Session
