import KeyIntrospection.Proofs.Grammar.Refusal

/-!
What is read on a line does not depend on what follows the line. A phrase that ends on its line is
read in the same way when the line is followed by other lines, or by none, and no name is kept for a
place after the end of the line. For a part that can go on or stop this holds only where something
that can be read after it stands next, and so locality is a property of a grammar before another one.
-/

namespace KeyIntrospection

/-- Nothing or a line break stands at the head of the text. -/
def AtLineEnd (s : List Char) : Prop := ∀ c ∈ s.head?, isLineBreak c

theorem atLineEnd_nil : AtLineEnd [] := by simp [AtLineEnd]

theorem atLineEnd_dropWhile (s : List Char) : AtLineEnd (s.dropWhile (!isLineBreak ·)) := by
  intro c head
  have stops := List.head?_dropWhile_not (fun c => !isLineBreak c) s
  rw [Option.mem_def.mp head] at stops
  simpa using stops

theorem AtLineEnd.not_of_head {s : List Char} (ending : AtLineEnd s) {p : Char → Bool}
    (solid : ∀ c, isLineBreak c → p c = false) : ∀ c ∈ s.head?, p c = false :=
  fun c head => solid c (ending c head)

theorem takeWhile_append_of_head {p : Char → Bool} {s e : List Char} (stops : ∀ c ∈ e.head?, p c = false) :
    (s ++ e).takeWhile p = s.takeWhile p := by
  induction s with
  | nil => cases e <;> simp_all [List.takeWhile]
  | cons c s ih =>
    rw [List.cons_append, List.takeWhile_cons, List.takeWhile_cons, ih]

theorem dropWhile_append_of_head {p : Char → Bool} {s e : List Char} (stops : ∀ c ∈ e.head?, p c = false) :
    (s ++ e).dropWhile p = s.dropWhile p ++ e := by
  induction s with
  | nil => cases e <;> simp_all [List.dropWhile]
  | cons c s ih =>
    rw [List.cons_append, List.dropWhile_cons, List.dropWhile_cons, ih]
    split <;> rfl

theorem isSpace_of_isLineBreak {c : Char} (lineBreak : isLineBreak c) : isSpace c = false := by
  rcases isLineBreak_iff.mp lineBreak with rfl | rfl <;> decide

theorem AtLineEnd.settled {e : List Char} (ending : AtLineEnd e) : Settled e := by
  rw [settled_iff]
  intro c head
  have lineBreak := ending c head
  refine ⟨isSpace_of_isLineBreak lineBreak, fun hash => ?_⟩
  subst hash
  exact absurd lineBreak (by decide)

theorem head?_append_ne_hash {s e : List Char} (ending : AtLineEnd e) :
    (s ++ e).head? = some '#' ↔ s.head? = some '#' := by
  cases s with
  | nil =>
    refine iff_of_false (fun hash => ?_) (by simp)
    exact absurd (ending '#' hash) (by decide)
  | cons c s => simp

theorem blanks_append {s e : List Char} (ending : AtLineEnd e) : blanks (s ++ e) = blanks s := by
  have spaces := ending.not_of_head fun c => isSpace_of_isLineBreak
  have others := ending.not_of_head (p := (!isLineBreak ·)) fun c lineBreak => by simp [lineBreak]
  simp only [blanks, takeWhile_append_of_head spaces, dropWhile_append_of_head spaces,
    takeWhile_append_of_head others, head?_append_ne_hash ending]

theorem afterBlanks_append {s e : List Char} (ending : AtLineEnd e) :
    afterBlanks (s ++ e) = afterBlanks s ++ e := by
  have spaces := ending.not_of_head fun c => isSpace_of_isLineBreak
  have others := ending.not_of_head (p := (!isLineBreak ·)) fun c lineBreak => by simp [lineBreak]
  simp only [afterBlanks, dropWhile_append_of_head spaces, dropWhile_append_of_head others,
    head?_append_ne_hash ending]
  split <;> rfl

namespace Cursor

/-- The cursor when the text on its line is followed by `e`. -/
def followedBy (c : Cursor) (e : List Char) : Cursor := ⟨c.rest ++ e, c.offset⟩

/-- The offset of the end of the text. -/
def stop (c : Cursor) : Nat := c.offset + byteLength c.rest

theorem Reaches.stop_eq {c d : Cursor} (reach : c.Reaches d) : c.stop = d.stop := by
  obtain ⟨taken, split, next⟩ := reach
  rw [next, stop, stop, split]
  simp [advance, Nat.add_assoc]

theorem offset_le_stop (c : Cursor) : c.offset ≤ c.stop := Nat.le_add_right _ _

theorem reaches_followedBy {c d : Cursor} {e : List Char} :
    (c.followedBy e).Reaches (d.followedBy e) ↔ c.Reaches d := by
  constructor
  · rintro ⟨taken, split, next⟩
    simp only [followedBy, ← List.append_assoc, List.append_cancel_right_eq] at split
    have offset := congrArg Cursor.offset next
    refine ⟨taken, split, ?_⟩
    rw [advance, ← show d.offset = c.offset + byteLength taken from offset]
  · rintro ⟨taken, split, next⟩
    refine ⟨taken, by simp [followedBy, split], ?_⟩
    rw [next]
    rfl

/-- What is read before a place on the line is on the line. -/
theorem Reaches.exists_followedBy {c g : Cursor} {e : List Char} (reach : c.Reaches (g.followedBy e)) :
    ∃ d : Cursor, c = d.followedBy e ∧ d.Reaches g := by
  obtain ⟨taken, split, _⟩ := id reach
  have whole : c = (⟨taken ++ g.rest, c.offset⟩ : Cursor).followedBy e := by
    cases c
    simp_all [followedBy]
  rw [whole] at reach
  exact ⟨_, whole, reaches_followedBy.mp reach⟩

theorem settled_followedBy {c : Cursor} {e : List Char} (settled : Settled c.rest) (ending : AtLineEnd e) :
    Settled (c.followedBy e).rest := by
  rw [Settled, followedBy, afterBlanks_append ending, settled]

theorem settled_of_followedBy {c : Cursor} {e : List Char} (ending : AtLineEnd e)
    (settled : Settled (c.followedBy e).rest) : Settled c.rest := by
  rw [Settled, followedBy, afterBlanks_append ending] at settled
  exact List.append_cancel_right settled

theorem skipBlanks_followedBy {c : Cursor} {e : List Char} (ending : AtLineEnd e) :
    (c.followedBy e).skipBlanks = c.skipBlanks.followedBy e := by
  simp only [skipBlanks, followedBy, blanks_append ending, afterBlanks_append ending, advance]

end Cursor

/-- The token takes the same when other lines follow. -/
def Token.Local (t : Token) : Prop :=
  ∀ ⦃s e e' x r : List Char⦄, AtLineEnd e → AtLineEnd e' →
    t.take? (s ++ e) = some (x, r ++ e) → t.take? (s ++ e') = some (x, r ++ e')

namespace Grammar

variable {ν ε α β γ δ : Type}

/-- At a place of a line where the rest of the line is `c.rest`, the grammar accepts the same phrase
whatever follows the line, and keeps no name for a place after the line. -/
def SteadyAt (p : Grammar ν ε α) (c : Cursor) (v : Except ε α) (d : Cursor) (e : List Char) : Prop :=
  ∀ a : Attempts ν, ∃ b, p.attempt (c.followedBy e) a = (some ⟨v, d.followedBy e⟩, b) ∧
    b.offset ≤ max a.offset c.stop

/-- A phrase that ends on its line, with a phrase of `q` after it that does so too, is read in the same
way whatever follows the line. -/
def LocalBefore (q : Grammar ν ε β) (p : Grammar ν ε α) : Prop :=
  ∀ ⦃c g : Cursor⦄ ⦃e e' : List Char⦄ ⦃m : Match ε α⦄ ⦃k : Match ε β⦄, AtLineEnd e → AtLineEnd e' →
    Settled c.rest → p.accept? (c.followedBy e) = some m → q.accept? m.next.skipBlanks = some k →
    k.next = g.followedBy e →
    ∃ d, m.next = d.followedBy e ∧ c.Reaches d ∧ p.SteadyAt c m.value d e'

/-- Where `q` can be read on the line, `p` is refused whatever follows the line, if it is refused at
all. -/
def Declines (p : Grammar ν ε α) (q : Grammar ν ε β) : Prop :=
  ∀ ⦃c g : Cursor⦄ ⦃e e' : List Char⦄ ⦃k : Match ε β⦄ ⦃v : Except ε β⦄, AtLineEnd e → AtLineEnd e' →
    Settled c.rest → p.accept? (c.followedBy e) = none → q.accept? (c.followedBy e) = some k →
    k.next = g.followedBy e → q.accept? (c.followedBy e') = some ⟨v, g.followedBy e'⟩ →
    p.Refuses (c.followedBy e') c.stop

theorem Apart.declines {p : Grammar ν ε α} {q : Grammar ν ε β} (apart : p.Apart q) : p.Declines q := by
  intro c g e e' k v _ ending' settled _ _ _ accepted a
  obtain ⟨b, found, limit⟩ := apart (Cursor.settled_followedBy settled ending') accepted a
  have reach := Cursor.reaches_followedBy.mp (accept?_reaches accepted)
  have before := g.offset_le_stop
  rw [← reach.stop_eq] at before
  exact ⟨b, found, by simp only [Cursor.followedBy] at limit; omega⟩

/-- `q'` can be read only where `q` can be read, and ends no earlier. -/
def Extends (q' : Grammar ν ε γ) (q : Grammar ν ε β) : Prop :=
  ∀ ⦃c : Cursor⦄ ⦃k : Match ε γ⦄, Settled c.rest → q'.accept? c = some k →
    ∃ l, q.accept? c = some l ∧ l.next.Reaches k.next

theorem extends_seq (gap : Gap) (q : Grammar ν ε β) (r : Grammar ν ε γ) : (seq gap q r).Extends q := by
  intro c k _ accepted
  obtain ⟨m, acceptedFirst, accepted⟩ := Option.bind_eq_some_iff.mp accepted
  obtain ⟨n, acceptedSecond, rfl⟩ := Option.map_eq_some_iff.mp accepted
  exact ⟨m, acceptedFirst, (gap.reaches_skip m.next).trans (accept?_reaches (m := n) acceptedSecond)⟩

/-- A grammar that is accepted everywhere, with nothing. -/
def anything : Grammar ν ε Unit := plain .nothing

theorem accept?_anything (c : Cursor) : (anything : Grammar ν ε Unit).accept? c = some ⟨.ok (), c⟩ := by
  simp [anything, accept?, Token.read?, Token.nothing, Cursor.advance, byteLength]

theorem extends_anything (q : Grammar ν ε β) : q.Extends (anything : Grammar ν ε Unit) :=
  fun _ _ _ accepted => ⟨_, accept?_anything _, accept?_reaches accepted⟩

/-- A phrase that ends on its line is read in the same way whatever follows the line. -/
def Local (p : Grammar ν ε α) : Prop := (anything : Grammar ν ε Unit).LocalBefore p

namespace LocalBefore

variable {p : Grammar ν ε α} {q : Grammar ν ε β}

theorem of_extends {r : Grammar ν ε γ} (inner : q.LocalBefore p) (stronger : r.Extends q) :
    r.LocalBefore p := by
  intro c g e e' m k ending ending' settled accepted follows inside
  obtain ⟨l, followsFirst, reach⟩ := stronger m.next.settled_skipBlanks follows
  rw [inside] at reach
  obtain ⟨h, insideFirst, _⟩ := reach.exists_followedBy
  exact inner ending ending' settled accepted followsFirst insideFirst

end LocalBefore

theorem Local.before {p : Grammar ν ε α} (inner : p.Local) (q : Grammar ν ε β) : q.LocalBefore p :=
  LocalBefore.of_extends inner (extends_anything q)

/-- A local grammar that is accepted up to a place on the line is accepted there on any line. -/
theorem Local.steadyAt {p : Grammar ν ε α} (inner : p.Local) {c d : Cursor} {e e' : List Char}
    {m : Match ε α} (ending : AtLineEnd e) (ending' : AtLineEnd e') (settled : Settled c.rest)
    (accepted : p.accept? (c.followedBy e) = some m) (inside : m.next = d.followedBy e) :
    p.SteadyAt c m.value d e' := by
  have follows := accept?_anything (ν := ν) (ε := ε) m.next.skipBlanks
  have ends : (⟨.ok (), m.next.skipBlanks⟩ : Match ε Unit).next = d.skipBlanks.followedBy e := by
    rw [inside, Cursor.skipBlanks_followedBy ending]
  obtain ⟨d', inside', _, steady⟩ := inner ending ending' settled accepted follows ends
  have same : d = d' := by
    have both := inside.symm.trans inside'
    simp only [Cursor.followedBy, Cursor.mk.injEq, List.append_cancel_right_eq] at both
    cases d
    cases d'
    simp_all
  exact same ▸ steady

section Rules

variable {p : Grammar ν ε α} {q : Grammar ν ε β}

theorem read?_followedBy {t : Token} (stays : t.Local) {c d : Cursor} {e e' : List Char}
    {x : Located (List Char)} (ending : AtLineEnd e) (ending' : AtLineEnd e')
    (takes : t.read? (c.followedBy e) = some (x, d.followedBy e)) :
    t.read? (c.followedBy e') = some (x, d.followedBy e') := by
  obtain ⟨⟨taken, rest⟩, found, same⟩ := Option.map_eq_some_iff.mp takes
  simp only [Prod.mk.injEq, Cursor.advance, Cursor.followedBy, Cursor.mk.injEq] at same
  obtain ⟨rfl, rfl, offset⟩ := same
  have found' : t.take? (c.rest ++ e') = some (taken, d.rest ++ e') := stays ending ending' found
  simp only [Token.read?, Cursor.followedBy, found', Option.map_some, Cursor.advance, offset]

theorem Local.plain {t : Token} (stays : t.Local) : (plain t : Grammar ν ε Unit).Local := by
  intro c g e e' m k ending ending' settled accepted follows inside
  obtain ⟨⟨x, next⟩, takes, rfl⟩ := Option.map_eq_some_iff.mp accepted
  have reach := next.reaches_skipBlanks.trans (accept?_reaches follows)
  rw [inside] at reach
  obtain ⟨d, rfl, _⟩ := reach.exists_followedBy
  refine ⟨d, rfl, Cursor.reaches_followedBy.mp (t.read?_reaches takes), fun a => ⟨a, ?_, Nat.le_max_left _ _⟩⟩
  rw [attempt, read?_followedBy stays ending ending' takes]
  rfl

theorem Local.token {name : ν} {t : Token} {read : Located (List Char) → Except ε α} (stays : t.Local) :
    (token name t read).Local := by
  intro c g e e' m k ending ending' settled accepted follows inside
  obtain ⟨⟨x, next⟩, takes, rfl⟩ := Option.map_eq_some_iff.mp accepted
  have reach := next.reaches_skipBlanks.trans (accept?_reaches follows)
  rw [inside] at reach
  obtain ⟨d, rfl, _⟩ := reach.exists_followedBy
  refine ⟨d, rfl, Cursor.reaches_followedBy.mp (t.read?_reaches takes), fun a => ⟨a, ?_, Nat.le_max_left _ _⟩⟩
  rw [attempt, read?_followedBy stays ending ending' takes]

theorem LocalBefore.map {f : α → γ} (inner : q.LocalBefore p) : q.LocalBefore (.map f p) := by
  intro c g e e' m k ending ending' settled accepted follows inside
  obtain ⟨n, found, rfl⟩ := Option.map_eq_some_iff.mp accepted
  obtain ⟨d, inside', reach, steady⟩ := inner ending ending' settled found follows inside
  refine ⟨d, inside', reach, fun a => ?_⟩
  obtain ⟨b, again, limit⟩ := steady a
  exact ⟨b, by rw [attempt, again]; rfl, limit⟩

theorem LocalBefore.phrase {name : ν} (inner : q.LocalBefore p) : q.LocalBefore (.phrase name p) := by
  intro c g e e' m k ending ending' settled accepted follows inside
  obtain ⟨n, found, rfl⟩ := Option.map_eq_some_iff.mp accepted
  obtain ⟨d, inside', reach, steady⟩ := inner ending ending' settled found follows inside
  have inside'' : n.next = d.followedBy e := inside'
  refine ⟨d, inside', reach, fun a => ?_⟩
  obtain ⟨b, again, limit⟩ := steady a
  refine ⟨b, ?_, limit⟩
  rw [attempt, again]
  simp only [Match.map, inside'', Cursor.followedBy]

theorem LocalBefore.seq {r : Grammar ν ε γ} (first : (Grammar.seq .blanks q r).LocalBefore p)
    (second : r.LocalBefore q) : r.LocalBefore (.seq .blanks p q) := by
  intro c g e e' m k ending ending' settled accepted follows inside
  obtain ⟨m, acceptedFirst, accepted⟩ := Option.bind_eq_some_iff.mp accepted
  obtain ⟨n, acceptedSecond, rfl⟩ := Option.map_eq_some_iff.mp accepted
  have followsFirst : (Grammar.seq .blanks q r).accept? m.next.skipBlanks = some (n.pair k) := by
    rw [Gap.skip] at acceptedSecond
    rw [accept?, acceptedSecond]
    exact congrArg (Option.map n.pair) follows
  obtain ⟨d, inside₁, reach₁, steady₁⟩ :=
    first ending ending' settled acceptedFirst followsFirst inside
  rw [Gap.skip, inside₁, Cursor.skipBlanks_followedBy ending] at acceptedSecond
  obtain ⟨h, inside₂, reach₂, steady₂⟩ :=
    second ending ending' d.settled_skipBlanks acceptedSecond follows inside
  have reach := (reach₁.trans d.reaches_skipBlanks).trans reach₂
  refine ⟨h, inside₂, reach, fun a => ?_⟩
  obtain ⟨b, again₁, limit₁⟩ := steady₁ a
  obtain ⟨b', again₂, limit₂⟩ := steady₂ b
  refine ⟨b', ?_, ?_⟩
  · rw [attempt, again₁]
    dsimp only
    rw [Gap.skip, Cursor.skipBlanks_followedBy ending', again₂]
    rfl
  · have same := (reach₁.trans d.reaches_skipBlanks).stop_eq
    omega

theorem LocalBefore.choice {r : Grammar ν ε β} {p p' : Grammar ν ε α} (first : r.LocalBefore p)
    (second : r.LocalBefore p') (declines : p.Declines p') : r.LocalBefore (.choice p p') := by
  intro c g e e' m k ending ending' settled accepted follows inside
  rw [accept?] at accepted
  split at accepted
  · next found =>
    cases accepted
    obtain ⟨d, inside', reach, steady⟩ := first ending ending' settled found follows inside
    refine ⟨d, inside', reach, fun a => ?_⟩
    obtain ⟨b, again, limit⟩ := steady a
    exact ⟨b, by rw [attempt, again], limit⟩
  · next refused =>
    obtain ⟨d, inside', reach, steady⟩ := second ending ending' settled accepted follows inside
    refine ⟨d, inside', reach, fun a => ?_⟩
    obtain ⟨_, again, _⟩ := steady a
    have accepted' := attempt_fst p' (c.followedBy e') a
    rw [again] at accepted'
    obtain ⟨b, refused', limit⟩ :=
      declines ending ending' settled refused accepted inside' accepted'.symm a
    obtain ⟨b', again', limit'⟩ := steady b
    exact ⟨b', by rw [attempt, refused']; exact again', by omega⟩

theorem LocalBefore.optional (inner : q.LocalBefore p) (next : q.Local) (declines : p.Declines q) :
    q.LocalBefore (.optional p) := by
  intro c g e e' m k ending ending' settled accepted follows inside
  rw [accept?] at accepted
  split at accepted
  · next found =>
    cases accepted
    obtain ⟨d, inside', reach, steady⟩ := inner ending ending' settled found follows inside
    refine ⟨d, inside', reach, fun a => ?_⟩
    obtain ⟨b, again, limit⟩ := steady a
    exact ⟨b, by rw [attempt, again]; rfl, limit⟩
  · next refused =>
    cases accepted
    rw [Cursor.skipBlanks_of_settled (Cursor.settled_followedBy settled ending)] at follows
    have steady := next.steadyAt ending ending' settled follows inside
    refine ⟨c, rfl, .refl c, fun a => ?_⟩
    obtain ⟨_, again, _⟩ := steady a
    have follows' := attempt_fst q (c.followedBy e') a
    rw [again] at follows'
    obtain ⟨b, refused', limit⟩ :=
      declines ending ending' settled refused follows inside follows'.symm a
    exact ⟨b, by rw [attempt, refused'], limit⟩

/-- The items of a repetition on a line: each stands before the items after it and what follows them. -/
theorem LocalBefore.items (inner : (Grammar.seq .blanks (many p) q).LocalBefore p) (next : q.Local)
    (declines : p.Declines q) (consumes : p.Consumes) {l : Nat} {c g : Cursor} {e e' : List Char}
    {k : Match ε β} (short : c.rest.length < l) (ending : AtLineEnd e) (ending' : AtLineEnd e')
    (follows : q.accept? (Grammar.items p.accept? (c.followedBy e)).next.skipBlanks = some k)
    (inside : k.next = g.followedBy e) :
    ∃ d, (Grammar.items p.accept? (c.followedBy e)).next = d.followedBy e ∧ c.Reaches d ∧
      ∀ a, ∃ b, attemptItems p.attempt (c.followedBy e') a =
        (⟨(Grammar.items p.accept? (c.followedBy e)).value, d.followedBy e'⟩, b) ∧
        b.offset ≤ max a.offset c.stop := by
  induction l generalizing c with
  | zero => omega
  | succ l ih =>
    have stop := c.reaches_skipBlanks.stop_eq
    have skip := Cursor.skipBlanks_followedBy (c := c) ending'
    cases found : p.accept? (c.skipBlanks.followedBy e) with
    | none =>
      have stopped : Grammar.items p.accept? (c.followedBy e) = ⟨.ok [], c.followedBy e⟩ :=
        items_of_none (by rw [Cursor.skipBlanks_followedBy ending, found])
      rw [stopped] at follows ⊢
      rw [Cursor.skipBlanks_followedBy ending] at follows
      have steady := next.steadyAt ending ending' c.settled_skipBlanks follows inside
      refine ⟨c, rfl, .refl c, fun a => ?_⟩
      obtain ⟨_, again, _⟩ := steady a
      have follows' := attempt_fst q (c.skipBlanks.followedBy e') a
      rw [again] at follows'
      obtain ⟨b, refused, limit⟩ :=
        declines ending ending' c.settled_skipBlanks found follows inside follows'.symm a
      exact ⟨b, attemptItems_of_none (by rw [skip, refused]), by omega⟩
    | some m =>
      have continued : Grammar.items p.accept? (c.followedBy e) = m.cons (Grammar.items p.accept? m.next) :=
        items_of_some consumes (by rw [Cursor.skipBlanks_followedBy ending, found])
      rw [continued] at follows ⊢
      have followsFirst : (Grammar.seq .blanks (many p) q).accept? m.next.skipBlanks =
          some ((Grammar.items p.accept? m.next.skipBlanks).pair k) := by
        rw [accept?, accept?_many_of_settled consumes m.next.settled_skipBlanks, Option.bind_some,
          Gap.skip, skipBlanks_items_next consumes]
        exact congrArg (Option.map _) follows
      obtain ⟨d, inside₁, reach₁, steady₁⟩ :=
        inner ending ending' c.settled_skipBlanks found followsFirst inside
      have later : c.offset < d.offset := by
        have consumed := consumes found
        rw [inside₁] at consumed
        exact Nat.lt_of_le_of_lt c.offset_le_skipBlanks consumed
      have reach := c.reaches_skipBlanks.trans reach₁
      have shorter := reach.length_lt later
      rw [inside₁] at follows ⊢
      obtain ⟨h, inside₂, reach₂, steady₂⟩ := ih (by omega) follows
      refine ⟨h, inside₂, reach.trans reach₂, fun a => ?_⟩
      obtain ⟨b, again₁, limit₁⟩ := steady₁ a
      obtain ⟨b', again₂, limit₂⟩ := steady₂ b
      refine ⟨b', ?_, ?_⟩
      · rw [attemptItems_of_some consumes (by rw [skip, again₁]), again₂]
        rfl
      · have same := reach.stop_eq
        omega

theorem LocalBefore.many (inner : (Grammar.seq .blanks (.many p) q).LocalBefore p) (next : q.Local)
    (declines : p.Declines q) (consumes : p.Consumes) : q.LocalBefore (.many p) := by
  intro c g e e' m k ending ending' settled accepted follows inside
  rw [accept?_many_of_settled consumes (Cursor.settled_followedBy settled ending)] at accepted
  cases accepted
  obtain ⟨d, inside', reach, steady⟩ :=
    inner.items next declines consumes (Nat.lt_succ_self _) ending ending' follows inside
  refine ⟨d, inside', reach, fun a => ?_⟩
  obtain ⟨b, again, limit⟩ := steady a
  refine ⟨b, ?_, limit⟩
  rw [attempt_many_of_settled consumes (Cursor.settled_followedBy settled ending'), again]

theorem Local.seq (first : q.LocalBefore p) (second : q.Local) : (Grammar.seq .blanks p q).Local :=
  LocalBefore.seq (first.of_extends (extends_seq _ _ _)) second

theorem Local.map {f : α → γ} (inner : p.Local) : (Grammar.map f p).Local := LocalBefore.map inner

theorem Local.phrase {name : ν} (inner : p.Local) : (Grammar.phrase name p).Local :=
  LocalBefore.phrase inner

theorem Local.choice {p' : Grammar ν ε α} (first : p.Local) (second : p'.Local)
    (declines : p.Declines p') : (Grammar.choice p p').Local :=
  LocalBefore.choice first second declines

end Rules

end Grammar

end KeyIntrospection
