import KeyIntrospection.Grammar.Attempts

/-!
Repetitions, seen one item at a time. The number of characters that are left bounds a repetition, but
has no part in what it accepts or in the attempts it leaves behind.
-/

namespace KeyIntrospection

/-! A phrase has a value if its parts have. -/

namespace Match

variable {ε α β : Type}

theorem value_map_eq_ok {f : α → β} {m : Match ε α} {y : β} :
    (m.map f).value = .ok y ↔ ∃ x, m.value = .ok x ∧ f x = y := by
  obtain ⟨v | v, next⟩ := m <;> simp [map, Except.map]

theorem value_pair_eq_ok {m : Match ε α} {n : Match ε β} {z : α × β} :
    (m.pair n).value = .ok z ↔ m.value = .ok z.1 ∧ n.value = .ok z.2 := by
  obtain ⟨v | v, next⟩ := m <;> obtain ⟨w | w, last⟩ := n <;>
    simp [pair, bind, Except.bind, pure, Except.pure, Prod.ext_iff]

theorem value_cons_eq_ok {m : Match ε α} {n : Match ε (List α)} {l : List α} :
    (m.cons n).value = .ok l ↔ ∃ x l', m.value = .ok x ∧ n.value = .ok l' ∧ x :: l' = l := by
  obtain ⟨v | v, next⟩ := m <;> obtain ⟨w | w, last⟩ := n <;> simp [cons, bind, Except.bind, pure, Except.pure]

end Match

theorem isLineBreak_iff {c : Char} : isLineBreak c ↔ c = '\n' ∨ c = '\r' := by simp [isLineBreak]

theorem isSpace_iff {c : Char} : isSpace c ↔ c = ' ' ∨ c = '\t' := by simp [isSpace]

/-- No blanks and no comment stand at the head of a text. -/
def Settled (s : List Char) : Prop := afterBlanks s = s

theorem settled_iff {s : List Char} : Settled s ↔ ∀ c ∈ s.head?, isSpace c = false ∧ c ≠ '#' := by
  cases s with
  | nil => simp [Settled, afterBlanks]
  | cons c s =>
    simp only [List.head?_cons, Option.mem_some_iff, forall_eq']
    constructor
    · intro settled
      -- otherwise the text after the blanks would be shorter
      have whole := congrArg List.length (blanks_append_afterBlanks (c :: s))
      rw [show afterBlanks (c :: s) = c :: s from settled, List.length_append, List.length_cons] at whole
      have nothing : blanks (c :: s) = [] := List.eq_nil_of_length_eq_zero (by omega)
      simp only [blanks, List.append_eq_nil_iff] at nothing
      obtain ⟨spaces, comment⟩ := nothing
      have solid : isSpace c = false := by
        cases space : isSpace c with
        | true => simp [List.takeWhile, space] at spaces
        | false => rfl
      refine ⟨solid, fun hash => ?_⟩
      subst hash
      simp [List.dropWhile, isSpace, isLineBreak] at comment
    · rintro ⟨solid, other⟩
      simp [Settled, afterBlanks, List.dropWhile, solid, other]

theorem settled_afterBlanks (s : List Char) : Settled (afterBlanks s) := by
  rw [settled_iff]
  intro c head
  unfold afterBlanks at head
  dsimp only at head
  split at head
  · have ending := List.head?_dropWhile_not (fun c => !isLineBreak c) (s.dropWhile isSpace)
    rw [Option.mem_def.mp head] at ending
    have lineBreak : c = '\n' ∨ c = '\r' := by simpa [isLineBreak, Decidable.or_iff_not_imp_left] using ending
    rcases lineBreak with rfl | rfl <;> decide
  · next other =>
    have solid := List.head?_dropWhile_not isSpace s
    rw [Option.mem_def.mp head] at solid other
    exact ⟨by simpa using solid, fun hash => other (by rw [hash])⟩

namespace Cursor

theorem skipBlanks_of_settled {c : Cursor} (settled : Settled c.rest) : c.skipBlanks = c := by
  have whole := congrArg List.length (blanks_append_afterBlanks c.rest)
  rw [show afterBlanks c.rest = c.rest from settled, List.length_append] at whole
  have nothing : blanks c.rest = [] := List.eq_nil_of_length_eq_zero (by omega)
  rw [skipBlanks, nothing, show afterBlanks c.rest = c.rest from settled]
  rfl

theorem settled_skipBlanks (c : Cursor) : Settled c.skipBlanks.rest := settled_afterBlanks c.rest

@[simp] theorem skipBlanks_skipBlanks (c : Cursor) : c.skipBlanks.skipBlanks = c.skipBlanks :=
  skipBlanks_of_settled c.settled_skipBlanks

theorem Reaches.offset_le {c d : Cursor} (reach : c.Reaches d) : c.offset ≤ d.offset := by
  obtain ⟨taken, _, next⟩ := reach
  rw [next]
  exact Nat.le_add_right _ _

theorem offset_le_skipBlanks (c : Cursor) : c.offset ≤ c.skipBlanks.offset :=
  c.reaches_skipBlanks.offset_le

theorem Reaches.suffix {c d : Cursor} (reach : c.Reaches d) : d.rest <:+ c.rest := by
  obtain ⟨taken, split, _⟩ := reach
  exact ⟨taken, split.symm⟩

end Cursor

namespace Grammar

variable {ν ε α β : Type}

/-- Every phrase has at least one character. -/
def Consumes (p : Grammar ν ε α) : Prop :=
  ∀ ⦃c : Cursor⦄ ⦃m : Match ε α⦄, p.accept? c = some m → c.offset < m.next.offset

namespace Consumes

theorem of_read? {t : Token} (solid : ∀ {s taken rest : List Char}, t.take? s = some (taken, rest) → taken ≠ [])
    {c next : Cursor} {x : Located (List Char)} (takes : t.read? c = some (x, next)) :
    c.offset < next.offset := by
  obtain ⟨⟨taken, rest⟩, found, same⟩ := Option.map_eq_some_iff.mp takes
  cases same
  cases taken with
  | nil => exact absurd rfl (solid found)
  | cons ch s =>
    have positive := ch.utf8Size_pos
    simp only [Cursor.advance, byteLength]
    omega

theorem plain {t : Token} (solid : ∀ {s taken rest : List Char}, t.take? s = some (taken, rest) → taken ≠ []) :
    (Grammar.plain t : Grammar ν ε Unit).Consumes := by
  intro c m accepted
  obtain ⟨⟨x, next⟩, takes, rfl⟩ := Option.map_eq_some_iff.mp accepted
  exact of_read? solid takes

theorem token {name : ν} {t : Token} {read : Located (List Char) → Except ε α}
    (solid : ∀ {s taken rest : List Char}, t.take? s = some (taken, rest) → taken ≠ []) :
    (Grammar.token name t read).Consumes := by
  intro c m accepted
  obtain ⟨⟨x, next⟩, takes, rfl⟩ := Option.map_eq_some_iff.mp accepted
  exact of_read? solid takes

theorem seq {gap : Gap} {p : Grammar ν ε α} {q : Grammar ν ε β} (first : p.Consumes) :
    (Grammar.seq gap p q).Consumes := by
  intro c m accepted
  obtain ⟨m, acceptedFirst, accepted⟩ := Option.bind_eq_some_iff.mp accepted
  obtain ⟨n, acceptedSecond, rfl⟩ := Option.map_eq_some_iff.mp accepted
  have later := ((gap.reaches_skip m.next).trans (accept?_reaches acceptedSecond)).offset_le
  exact Nat.lt_of_lt_of_le (first acceptedFirst) later

theorem seq_right {gap : Gap} {p : Grammar ν ε α} {q : Grammar ν ε β} (second : q.Consumes) :
    (Grammar.seq gap p q).Consumes := by
  intro c m accepted
  obtain ⟨m, acceptedFirst, accepted⟩ := Option.bind_eq_some_iff.mp accepted
  obtain ⟨n, acceptedSecond, rfl⟩ := Option.map_eq_some_iff.mp accepted
  have later := ((accept?_reaches acceptedFirst).trans (gap.reaches_skip m.next)).offset_le
  exact Nat.lt_of_le_of_lt later (second acceptedSecond)

theorem choice {p q : Grammar ν ε α} (first : p.Consumes) (second : q.Consumes) :
    (Grammar.choice p q).Consumes := by
  intro c m accepted
  rw [accept?] at accepted
  split at accepted
  · cases accepted
    exact first ‹_›
  · exact second accepted

theorem map {f : α → β} {p : Grammar ν ε α} (inner : p.Consumes) : (Grammar.map f p).Consumes := by
  intro c m accepted
  obtain ⟨n, found, rfl⟩ := Option.map_eq_some_iff.mp accepted
  exact inner found

theorem phrase {name : ν} {p : Grammar ν ε α} (inner : p.Consumes) : (Grammar.phrase name p).Consumes := by
  intro c m accepted
  obtain ⟨n, found, rfl⟩ := Option.map_eq_some_iff.mp accepted
  exact inner found

end Consumes

/-- As many further items as there are, with the attempts after them. -/
def attemptItems (attempt : Cursor → Attempts ν → Option (Match ε α) × Attempts ν) (c : Cursor)
    (a : Attempts ν) : Match ε (List α) × Attempts ν :=
  attemptFurther attempt c.rest c a

section

variable {attempt : Cursor → Attempts ν → Option (Match ε α) × Attempts ν}

theorem attemptFurther_of_length_eq_zero
    (reaches : ∀ {c a m}, (attempt c a).1 = some m → c.Reaches m.next) {s : List Char} {c : Cursor}
    {a : Attempts ν} (empty : c.rest.length = 0) :
    attemptFurther attempt s c a = (⟨.ok [], c⟩, (attempt c.skipBlanks a).2) := by
  cases s with
  | nil => rfl
  | cons x s =>
    rw [attemptFurther]
    split
    · next found => rw [found]
    · next m b found =>
      have reach : c.skipBlanks.Reaches m.next := reaches (a := a) (by rw [found])
      rw [if_neg, found]
      intro later
      have shorter := (c.reaches_skipBlanks.trans reach).length_lt later
      omega

theorem attemptFurther_eq_attemptFurther
    (reaches : ∀ {c a m}, (attempt c a).1 = some m → c.Reaches m.next) {s t : List Char} {c : Cursor}
    {a : Attempts ν} (hs : c.rest.length ≤ s.length) (ht : c.rest.length ≤ t.length) :
    attemptFurther attempt s c a = attemptFurther attempt t c a := by
  induction s generalizing t c a with
  | nil =>
    have empty := Nat.le_zero.mp hs
    rw [attemptFurther_of_length_eq_zero reaches empty, attemptFurther_of_length_eq_zero reaches empty]
  | cons x s ih =>
    cases t with
    | nil =>
      have empty := Nat.le_zero.mp ht
      rw [attemptFurther_of_length_eq_zero reaches empty, attemptFurther_of_length_eq_zero reaches empty]
    | cons y t =>
      rw [attemptFurther, attemptFurther]
      split
      · rfl
      · next m b found =>
        split
        · next later =>
          have reach : c.skipBlanks.Reaches m.next := reaches (a := a) (by rw [found])
          have shorter := (c.reaches_skipBlanks.trans reach).length_lt later
          simp only [List.length_cons] at hs ht
          rw [ih (t := t) (by omega) (by omega)]
        · rfl

theorem attemptItems_eq (reaches : ∀ {c a m}, (attempt c a).1 = some m → c.Reaches m.next) (c : Cursor)
    (a : Attempts ν) :
    attemptItems attempt c a =
      match attempt c.skipBlanks a with
      | (none, b) => (⟨.ok [], c⟩, b)
      | (some m, b) =>
        if c.offset < m.next.offset then
          let (n, d) := attemptItems attempt m.next b
          (m.cons n, d)
        else (⟨.ok [], c⟩, b) := by
  have longer : c.rest.length ≤ (' ' :: c.rest).length := Nat.le_succ _
  rw [attemptItems, attemptFurther_eq_attemptFurther reaches (Nat.le_refl _) longer, attemptFurther]
  rcases found : attempt c.skipBlanks a with ⟨_ | m, b⟩
  · rfl
  · dsimp only
    by_cases later : c.offset < m.next.offset
    · have reach : c.skipBlanks.Reaches m.next := reaches (a := a) (by rw [found])
      have shorter := (c.reaches_skipBlanks.trans reach).length_lt later
      rw [if_pos later, if_pos later, attemptItems,
        attemptFurther_eq_attemptFurther reaches (Nat.le_of_lt shorter) (Nat.le_refl m.next.rest.length)]
    · rw [if_neg later, if_neg later]

end

theorem attempt_reaches {p : Grammar ν ε α} {c : Cursor} {a : Attempts ν} {m : Match ε α}
    (found : (p.attempt c a).1 = some m) : c.Reaches m.next :=
  accept?_reaches (by rw [← attempt_fst p c a, found])

theorem attemptItems_of_none {p : Grammar ν ε α} {c : Cursor} {a b : Attempts ν}
    (refused : p.attempt c.skipBlanks a = (none, b)) :
    attemptItems p.attempt c a = (⟨.ok [], c⟩, b) := by
  have step := @attemptItems_eq ν ε α p.attempt (fun h => attempt_reaches h) c a
  rw [refused] at step
  exact step

theorem attemptItems_of_some {p : Grammar ν ε α} (consumes : p.Consumes) {c : Cursor}
    {a b : Attempts ν} {m : Match ε α} (found : p.attempt c.skipBlanks a = (some m, b)) :
    attemptItems p.attempt c a =
      (m.cons (attemptItems p.attempt m.next b).1, (attemptItems p.attempt m.next b).2) := by
  have step := @attemptItems_eq ν ε α p.attempt (fun h => attempt_reaches h) c a
  have accepted : p.accept? c.skipBlanks = some m := by rw [← attempt_fst p _ a, found]
  rw [found] at step
  dsimp only at step
  rw [step, if_pos (Nat.lt_of_le_of_lt c.offset_le_skipBlanks (consumes accepted))]

/-- An item and the items after it. -/
theorem items_of_some {p : Grammar ν ε α} (consumes : p.Consumes) {c : Cursor} {m : Match ε α}
    (found : p.accept? c.skipBlanks = some m) :
    items p.accept? c = m.cons (items p.accept? m.next) := by
  have step := @items_eq ε α p.accept? (fun h => accept?_reaches h) c
  rw [found] at step
  dsimp only at step
  rw [step, if_pos (Nat.lt_of_le_of_lt c.offset_le_skipBlanks (consumes found))]

theorem items_of_none {p : Grammar ν ε α} {c : Cursor} (found : p.accept? c.skipBlanks = none) :
    items p.accept? c = ⟨.ok [], c⟩ := by
  have step := @items_eq ε α p.accept? (fun h => accept?_reaches h) c
  rw [found] at step
  exact step

/-- Where no blanks stand, a repetition is its further items. -/
theorem accept?_many_of_settled {p : Grammar ν ε α} (consumes : p.Consumes) {c : Cursor}
    (settled : Settled c.rest) : (many p).accept? c = some (items p.accept? c) := by
  rw [accept?]
  split
  · next m found =>
    rw [← Cursor.skipBlanks_of_settled settled] at found
    rw [items_of_some consumes found]
  · next found =>
    rw [← Cursor.skipBlanks_of_settled settled] at found
    rw [items_of_none found]

theorem attempt_many_of_settled {p : Grammar ν ε α} (consumes : p.Consumes) {c : Cursor}
    {a : Attempts ν} (settled : Settled c.rest) :
    (many p).attempt c a =
      (some (attemptItems p.attempt c a).1, (attemptItems p.attempt c a).2) := by
  have same := Cursor.skipBlanks_of_settled settled
  rw [attempt]
  split
  · next b refused => rw [attemptItems_of_none (by rw [same, refused])]
  · next m b found =>
    rw [attemptItems_of_some consumes (by rw [same, found])]
    rfl

/-- Reading items is reading them where the blanks end, the blanks after the last one aside. -/
theorem skipBlanks_items_next {p : Grammar ν ε α} (consumes : p.Consumes) (c : Cursor) :
    (items p.accept? c.skipBlanks).next.skipBlanks = (items p.accept? c).next.skipBlanks := by
  cases found : p.accept? c.skipBlanks with
  | none =>
    rw [items_of_none found, items_of_none (by rw [Cursor.skipBlanks_skipBlanks, found]),
      Cursor.skipBlanks_skipBlanks]
  | some m =>
    rw [items_of_some consumes found,
      items_of_some consumes (by rw [Cursor.skipBlanks_skipBlanks, found])]

end Grammar

end KeyIntrospection
