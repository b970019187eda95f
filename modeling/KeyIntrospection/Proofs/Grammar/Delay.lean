import KeyIntrospection.Proofs.Grammar.Alignment
import KeyIntrospection.Proofs.Grammar.Refusal

/-!
The same text at a later place. It is read in the same way, and the names that are kept are the same, as
far as they are kept for places in this text: names from before it are dropped at the first failure.
-/

namespace KeyIntrospection

/-- The same text with `k` more bytes before it. -/
def Cursor.later (c : Cursor) (k : Nat) : Cursor := ⟨c.rest, c.offset + k⟩

theorem Cursor.skipBlanks_later (c : Cursor) (k : Nat) : (c.later k).skipBlanks = c.skipBlanks.later k := by
  simp only [skipBlanks, later, advance, Cursor.mk.injEq, true_and]
  omega

/-- A text and the same text at a later place. -/
def Alignment.delay (k : Nat) : Alignment where
  near c d := d = c.later k
  left i := i + k
  right i := i
  inside := by
    rintro c d rfl i
    simp only [Cursor.later]
    omega
  skip := by
    rintro c d rfl
    exact c.skipBlanks_later k

theorem Alignment.respects_delay (k : Nat) (t : Token) : (Alignment.delay k).Respects t := by
  rintro c d rfl
  cases found : t.take? c.rest with
  | none => exact .inl ⟨rfl, found⟩
  | some taken =>
    obtain ⟨x, r⟩ := taken
    refine .inr ⟨x, r, r, rfl, found, ?_⟩
    simp only [Alignment.delay, Cursor.later, Cursor.advance, Cursor.mk.injEq, true_and]
    omega

namespace Attempts

variable {ν : Type} {k offset : Nat} {a a' before before' after after' : Attempts ν} {name : ν}

/-- The same names, `k` bytes later. -/
def Later (k : Nat) (a a' : Attempts ν) : Prop := a'.offset = a.offset + k ∧ a'.tried = a.tried

/-- The same names, `k` bytes later, or no names yet and only names from an earlier text. -/
def Delayed (k : Nat) (a a' : Attempts ν) : Prop :=
  Later k a a' ∨ a.offset = 0 ∧ a.tried = [] ∧ a'.offset < k

theorem Delayed.count_eq (delayed : Delayed k a a') : a'.count (offset + k) = a.count offset := by
  unfold count
  rcases delayed with ⟨there, same⟩ | ⟨start, untried, early⟩
  · rw [there, same]
    by_cases here : offset = a.offset
    · rw [if_pos (by omega), if_pos here]
    · rw [if_neg (by omega), if_neg here]
  · rw [if_neg (by omega), untried]
    split <;> rfl

/-- After a failure in the later text there are only names from it. -/
theorem Delayed.record (first : Delayed k before before') (second : Delayed k after after') :
    Later k (before.record after name offset) (before'.record after' name (offset + k)) := by
  unfold Attempts.record
  rw [second.count_eq, first.count_eq]
  rcases second with ⟨there, same⟩ | ⟨start, untried, early⟩
  · by_cases new : after.count offset = before.count offset + 1
    · rw [if_pos new, if_pos new]
      exact ⟨there, same⟩
    · rw [if_neg new, if_neg new]
      by_cases earlier : offset < after.offset
      · have earlier' : offset + k < after'.offset := by omega
        rw [if_pos earlier, if_pos earlier']
        exact ⟨there, same⟩
      · have earlier' : ¬offset + k < after'.offset := by omega
        rw [if_neg earlier, if_neg earlier']
        by_cases here : offset = after.offset
        · have here' : offset + k = after'.offset := by omega
          rw [if_pos here, if_pos here']
          exact ⟨there, by rw [same]⟩
        · have here' : ¬offset + k = after'.offset := by omega
          rw [if_neg here, if_neg here']
          exact ⟨rfl, rfl⟩
  · have empty : after.count offset = 0 := by
      unfold count
      rw [untried]
      split <;> rfl
    have new : ¬after.count offset = before.count offset + 1 := by omega
    have earlier : ¬offset < after.offset := by omega
    have earlier' : ¬offset + k < after'.offset := by omega
    have here' : ¬offset + k = after'.offset := by omega
    rw [if_neg new, if_neg new, if_neg earlier, if_neg earlier', if_neg here']
    split
    · next here => exact ⟨by rw [← here], by simp [untried]⟩
    · exact ⟨rfl, rfl⟩

/-- A name for the beginning of the text does not change where it went wrong. -/
theorem offset_record_zero : (before.record after name 0).offset = after.offset := by
  unfold record
  split
  · rfl
  · split
    · rfl
    · split
      · rfl
      · next positive other => omega

end Attempts

theorem Gap.skip_later (gap : Gap) (c : Cursor) (k : Nat) : gap.skip (c.later k) = (gap.skip c).later k := by
  cases gap with
  | blanks => exact c.skipBlanks_later k
  | nothing => rfl

namespace Grammar

variable {ν ε α : Type}

/-- The outcomes of an attempt and of the same attempt `k` bytes later. -/
def DelayedOutcome (k : Nat) (r r' : Option (Match ε α) × Attempts ν) : Prop :=
  r'.1.map Match.next = r.1.map (·.next.later k) ∧ r.2.Delayed k r'.2

namespace DelayedOutcome

variable {k : Nat} {r r' : Option (Match ε α) × Attempts ν}

theorem none {b b' : Attempts ν} (delayed : b.Delayed k b') :
    DelayedOutcome k ((.none, b) : Option (Match ε α) × Attempts ν) (.none, b') :=
  ⟨rfl, delayed⟩

theorem some {m n : Match ε α} {b b' : Attempts ν} (next : n.next = m.next.later k)
    (delayed : b.Delayed k b') : DelayedOutcome k (.some m, b) (.some n, b') :=
  ⟨by simp [next], delayed⟩

theorem cases (outcome : DelayedOutcome k r r') :
    (∃ b b', r = (.none, b) ∧ r' = (.none, b') ∧ b.Delayed k b') ∨
      ∃ m n b b', r = (.some m, b) ∧ r' = (.some n, b') ∧ n.next = m.next.later k ∧ b.Delayed k b' := by
  obtain ⟨m, b⟩ := r
  obtain ⟨n, b'⟩ := r'
  obtain ⟨next, delayed⟩ := outcome
  cases m with
  | none =>
    cases n with
    | none => exact .inl ⟨b, b', rfl, rfl, delayed⟩
    | some n => simp at next
  | some m =>
    cases n with
    | none => simp at next
    | some n => exact .inr ⟨m, n, b, b', rfl, rfl, by simpa using next, delayed⟩

end DelayedOutcome

theorem read?_later {t : Token} (c : Cursor) (k : Nat) :
    (t.read? c = none ∧ t.read? (c.later k) = none) ∨
      ∃ x y next, t.read? c = some (x, next) ∧ t.read? (c.later k) = some (y, next.later k) := by
  have near : (Alignment.delay k).near c (c.later k) := rfl
  rcases Alignment.read?_of_respects (Alignment.respects_delay k t) near with absent | ⟨x, r, r', found, found', same⟩
  · exact .inl absent
  · rw [same] at found'
    exact .inr ⟨_, _, _, found, found'⟩

theorem attemptFurther_later {p : Grammar ν ε α} {k : Nat}
    (inner : ∀ {c a a'}, a.Delayed k a' → DelayedOutcome k (p.attempt c a) (p.attempt (c.later k) a'))
    (bound : List Char) {c : Cursor} {a a' : Attempts ν} (delayed : a.Delayed k a') :
    (attemptFurther p.attempt bound (c.later k) a').1.next =
        (attemptFurther p.attempt bound c a).1.next.later k ∧
      (attemptFurther p.attempt bound c a).2.Delayed k (attemptFurther p.attempt bound (c.later k) a').2 := by
  induction bound generalizing c a a' with
  | nil =>
    refine ⟨rfl, ?_⟩
    rw [attemptFurther, attemptFurther, Cursor.skipBlanks_later]
    exact (inner delayed).2
  | cons _ bound ih =>
    rw [attemptFurther, attemptFurther, Cursor.skipBlanks_later]
    rcases (inner (c := c.skipBlanks) delayed).cases with
      ⟨b, b', found, found', delayed'⟩ | ⟨m, n, b, b', found, found', next, delayed'⟩
    · rw [found, found']
      exact ⟨rfl, delayed'⟩
    · rw [found, found']
      have same : (c.later k).offset < n.next.offset ↔ c.offset < m.next.offset := by
        rw [next]
        simp only [Cursor.later]
        omega
      dsimp only
      by_cases later : c.offset < m.next.offset
      · rw [if_pos later, if_pos (same.mpr later), next]
        exact ih delayed'
      · rw [if_neg later, if_neg fun later' => later (same.mp later')]
        exact ⟨rfl, delayed'⟩

/-- An attempt that comes later leaves the same names, `k` bytes later, once there are any. -/
theorem attempt_later {α : Type} (p : Grammar ν ε α) {k : Nat} {c : Cursor} {a a' : Attempts ν}
    (delayed : a.Delayed k a') : DelayedOutcome k (p.attempt c a) (p.attempt (c.later k) a') := by
  induction p generalizing c a a' with
  | plain t =>
    simp only [attempt]
    rcases read?_later (t := t) c k with ⟨absent, absent'⟩ | ⟨x, y, next, found, found'⟩
    · rw [absent, absent']
      exact .none delayed
    · rw [found, found']
      exact .some rfl delayed
  | token name t read =>
    simp only [attempt]
    rcases read?_later (t := t) c k with ⟨absent, absent'⟩ | ⟨x, y, next, found, found'⟩
    · rw [absent, absent']
      exact .none (.inl (delayed.record delayed))
    · rw [found, found']
      exact .some rfl delayed
  | seq gap p q ihp ihq =>
    simp only [attempt]
    rcases (ihp (c := c) delayed).cases with
      ⟨b, b', found, found', delayed'⟩ | ⟨m, n, b, b', found, found', next, delayed'⟩
    · rw [found, found']
      exact .none delayed'
    · rw [found, found']
      dsimp only
      rw [next, gap.skip_later]
      rcases (ihq (c := gap.skip m.next) delayed').cases with
        ⟨b, b', found, found', delayed''⟩ | ⟨m', n', b, b', found, found', next', delayed''⟩
      · rw [found, found']
        exact .none delayed''
      · rw [found, found']
        exact .some next' delayed''
  | choice p q ihp ihq =>
    simp only [attempt]
    rcases (ihp (c := c) delayed).cases with
      ⟨b, b', found, found', delayed'⟩ | ⟨m, n, b, b', found, found', next, delayed'⟩
    · rw [found, found']
      exact ihq delayed'
    · rw [found, found']
      exact .some next delayed'
  | optional p ih =>
    simp only [attempt]
    rcases (ih (c := c) delayed).cases with
      ⟨b, b', found, found', delayed'⟩ | ⟨m, n, b, b', found, found', next, delayed'⟩
    · rw [found, found']
      exact .some rfl delayed'
    · rw [found, found']
      exact .some next delayed'
  | many p ih =>
    simp only [attempt]
    rcases (ih (c := c) delayed).cases with
      ⟨b, b', found, found', delayed'⟩ | ⟨m, n, b, b', found, found', next, delayed'⟩
    · rw [found, found']
      exact .some rfl delayed'
    · rw [found, found']
      have further := attemptFurther_later (c := m.next) ih m.next.rest delayed'
      dsimp only
      rw [next]
      exact .some further.1 further.2
  | ahead p ih =>
    simp only [attempt]
    rcases (ih (c := c) delayed).cases with
      ⟨b, b', found, found', delayed'⟩ | ⟨m, n, b, b', found, found', next, delayed'⟩
    · rw [found, found']
      exact .none delayed'
    · rw [found, found']
      exact .some rfl delayed'
  | map f p ih =>
    simp only [attempt]
    rcases (ih (c := c) delayed).cases with
      ⟨b, b', found, found', delayed'⟩ | ⟨m, n, b, b', found, found', next, delayed'⟩
    · rw [found, found']
      exact .none delayed'
    · rw [found, found']
      exact .some next delayed'
  | phrase name p ih =>
    simp only [attempt]
    rcases (ih (c := c) delayed).cases with
      ⟨b, b', found, found', delayed'⟩ | ⟨m, n, b, b', found, found', next, delayed'⟩
    · rw [found, found']
      exact .none (.inl (delayed.record delayed'))
    · rw [found, found']
      exact .some next delayed'

/-- A repetition is never refused, so what is refused after it is the token, and its name is kept. -/
theorem attempt_many_seq_token_later {gap : Gap} {β : Type} (p : Grammar ν ε α) {name : ν} {t : Token}
    {read : Located (List Char) → Except ε β} {k : Nat} {c : Cursor} {a a' : Attempts ν}
    (delayed : a.Delayed k a')
    (refused : (Grammar.seq gap (many p) (token name t read)).accept? c = none) :
    ((Grammar.seq gap (many p) (token name t read)).attempt c a).2.Later k
      ((Grammar.seq gap (many p) (token name t read)).attempt (c.later k) a').2 := by
  have never : ∀ d b, ((many p).attempt d b).1 ≠ none := by
    intro d b
    rw [attempt_fst, accept?]
    split <;> exact Option.some_ne_none _
  rw [← attempt_fst _ c a] at refused
  simp only [attempt] at refused ⊢
  rcases (attempt_later (many p) (c := c) delayed).cases with
    ⟨b, b', found, found', _⟩ | ⟨m, n, b, b', found, found', next, delayed'⟩
  · exact absurd (by rw [found]) (never c a)
  · simp only [attempt] at found found'
    rw [found] at refused ⊢
    rw [found']
    dsimp only at refused ⊢
    rw [next, gap.skip_later]
    rcases read?_later (t := t) (gap.skip m.next) k with ⟨absent, absent'⟩ | ⟨x, y, next, there, _⟩
    · rw [absent, absent']
      exact delayed'.record delayed'
    · rw [there] at refused
      cases refused

end Grammar

end KeyIntrospection
