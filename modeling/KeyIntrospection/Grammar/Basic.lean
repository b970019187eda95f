import KeyIntrospection.Grammar.Source

/-!
Grammars whose phrases have values. A grammar is a term, and `accept?` is what it accepts at a cursor:
of two alternatives the first that fits, of repetitions as many as fit, and neither choice is taken
back later. The value of a phrase is built from its tokens. A token that fits may still have no value;
then the phrase has the fault of the first such token, and where it ends does not depend on that.
-/

namespace KeyIntrospection

/-- What may stand between the two parts of a sequence. -/
inductive Gap where
  | blanks
  | nothing
deriving DecidableEq, Repr

def Gap.skip : Gap → Cursor → Cursor
  | blanks, c => c.skipBlanks
  | nothing, c => c

theorem Gap.reaches_skip (gap : Gap) (c : Cursor) : c.Reaches (gap.skip c) := by
  cases gap with
  | blanks => exact c.reaches_skipBlanks
  | nothing => exact .refl c

/-- Grammars with phrases named by `ν`, faults in `ε` and values in the last type. -/
inductive Grammar (ν ε : Type) : Type → Type 1 where
  /-- A text that has no value and no name. -/
  | plain (t : Token) : Grammar ν ε Unit
  /-- A token with a name, which is read by `read`. -/
  | token {α : Type} (name : ν) (t : Token) (read : Located (List Char) → Except ε α) : Grammar ν ε α
  | seq {α β : Type} (gap : Gap) (p : Grammar ν ε α) (q : Grammar ν ε β) : Grammar ν ε (α × β)
  | choice {α : Type} (p q : Grammar ν ε α) : Grammar ν ε α
  | optional {α : Type} (p : Grammar ν ε α) : Grammar ν ε (Option α)
  | many {α : Type} (p : Grammar ν ε α) : Grammar ν ε (List α)
  /-- Fits where `p` fits, and takes nothing. -/
  | ahead {α : Type} (p : Grammar ν ε α) : Grammar ν ε Unit
  | map {α β : Type} (f : α → β) (p : Grammar ν ε α) : Grammar ν ε β
  /-- A phrase with a name. -/
  | phrase {α : Type} (name : ν) (p : Grammar ν ε α) : Grammar ν ε (Located α)

/-- A phrase that was accepted: its value or its first fault, and the cursor after it. -/
structure Match (ε α : Type) where
  value : Except ε α
  next : Cursor

namespace Match

variable {ε α β : Type}

def map (f : α → β) (m : Match ε α) : Match ε β := ⟨m.value.map f, m.next⟩

/-- The values of a phrase and of the one after it. -/
def pair (m : Match ε α) (n : Match ε β) : Match ε (α × β) :=
  ⟨do return (← m.value, ← n.value), n.next⟩

def cons (m : Match ε α) (n : Match ε (List α)) : Match ε (List α) :=
  ⟨do return (← m.value) :: (← n.value), n.next⟩

end Match

namespace Grammar

variable {ν ε α : Type}

/-- The further items of a repetition, each after blanks, at most as many as `bound` has elements.
Blanks that no item follows are not taken, and an item that takes nothing is none. -/
def further (read : Cursor → Option (Match ε α)) : List Char → Cursor → Match ε (List α)
  | [], c => ⟨.ok [], c⟩
  | _ :: bound, c =>
    match read c.skipBlanks with
    | none => ⟨.ok [], c⟩
    | some m =>
      if c.offset < m.next.offset then m.cons (further read bound m.next) else ⟨.ok [], c⟩

/-- As many further items as there are: the text itself bounds their number. -/
def items (read : Cursor → Option (Match ε α)) (c : Cursor) : Match ε (List α) :=
  further read c.rest c

/-- What a grammar accepts at a cursor. -/
def accept? {α : Type} : Grammar ν ε α → Cursor → Option (Match ε α)
  | plain t, c => (t.read? c).map fun (_, next) => ⟨.ok (), next⟩
  | token _ t read, c => (t.read? c).map fun (x, next) => ⟨read x, next⟩
  | seq gap p q, c =>
    (p.accept? c).bind fun m => (q.accept? (gap.skip m.next)).map m.pair
  | choice p q, c =>
    match p.accept? c with
    | some m => some m
    | none => q.accept? c
  | optional p, c =>
    match p.accept? c with
    | some m => some (m.map some)
    | none => some ⟨.ok none, c⟩
  | many p, c =>
    match p.accept? c with
    | some m => some (m.cons (items p.accept? m.next))
    | none => some ⟨.ok [], c⟩
  | ahead p, c => (p.accept? c).map fun _ => ⟨.ok (), c⟩
  | map f p, c => (p.accept? c).map (·.map f)
  | phrase _ p, c => (p.accept? c).map fun m => m.map (⟨·, c.offset, m.next.offset⟩)

theorem further_reaches {read : Cursor → Option (Match ε α)}
    (reaches : ∀ {c m}, read c = some m → c.Reaches m.next) (bound : List Char) (c : Cursor) :
    c.Reaches (further read bound c).next := by
  induction bound generalizing c with
  | nil => exact .refl c
  | cons _ bound ih =>
    rw [further]
    split
    · exact .refl c
    · split
      · exact (c.reaches_skipBlanks.trans (reaches ‹_›)).trans (ih _)
      · exact .refl c

/-- A phrase that is accepted ends where reading on leads to. -/
theorem accept?_reaches {α : Type} {p : Grammar ν ε α} {c : Cursor} {m : Match ε α}
    (h : p.accept? c = some m) : c.Reaches m.next := by
  induction p generalizing c with
  | plain t =>
    obtain ⟨⟨x, next⟩, takes, rfl⟩ := Option.map_eq_some_iff.1 h
    exact t.read?_reaches takes
  | token name t read =>
    obtain ⟨⟨x, next⟩, takes, rfl⟩ := Option.map_eq_some_iff.1 h
    exact t.read?_reaches takes
  | seq gap p q ihp ihq =>
    obtain ⟨m, first, h⟩ := Option.bind_eq_some_iff.1 h
    obtain ⟨n, second, rfl⟩ := Option.map_eq_some_iff.1 h
    exact (ihp first).trans ((gap.reaches_skip m.next).trans (ihq second))
  | choice p q ihp ihq =>
    rw [accept?] at h
    split at h
    · cases h
      exact ihp ‹_›
    · exact ihq h
  | optional p ih =>
    rw [accept?] at h
    split at h <;> cases h
    · exact ih ‹_›
    · exact .refl c
  | many p ih =>
    rw [accept?] at h
    split at h <;> cases h
    · exact (ih ‹_›).trans (further_reaches ih _ _)
    · exact .refl c
  | ahead p ih =>
    obtain ⟨n, _, rfl⟩ := Option.map_eq_some_iff.1 h
    exact .refl c
  | map f p ih =>
    obtain ⟨n, found, rfl⟩ := Option.map_eq_some_iff.1 h
    exact ih found
  | phrase name p ih =>
    obtain ⟨n, found, rfl⟩ := Option.map_eq_some_iff.1 h
    exact ih found

theorem length_next_lt {read : Cursor → Option (Match ε α)}
    (reaches : ∀ {c m}, read c = some m → c.Reaches m.next) {c : Cursor} {m : Match ε α}
    (found : read c.skipBlanks = some m) (later : c.offset < m.next.offset) :
    m.next.rest.length < c.rest.length :=
  (c.reaches_skipBlanks.trans (reaches found)).length_lt later

theorem further_of_length_eq_zero {read : Cursor → Option (Match ε α)}
    (reaches : ∀ {c m}, read c = some m → c.Reaches m.next) {s : List Char} {c : Cursor}
    (empty : c.rest.length = 0) : further read s c = ⟨.ok [], c⟩ := by
  cases s with
  | nil => rfl
  | cons x s =>
    rw [further]
    split
    · rfl
    · rename_i m found
      refine if_neg fun later => ?_
      have shorter := length_next_lt reaches found later
      omega

/-- Any bound that is as long as the text gives the same items. -/
theorem further_eq_further {read : Cursor → Option (Match ε α)}
    (reaches : ∀ {c m}, read c = some m → c.Reaches m.next) {s t : List Char} {c : Cursor}
    (hs : c.rest.length ≤ s.length) (ht : c.rest.length ≤ t.length) :
    further read s c = further read t c := by
  induction s generalizing t c with
  | nil =>
    have empty := Nat.le_zero.1 hs
    rw [further_of_length_eq_zero reaches empty, further_of_length_eq_zero reaches empty]
  | cons x s ih =>
    cases t with
    | nil =>
      have empty := Nat.le_zero.1 ht
      rw [further_of_length_eq_zero reaches empty, further_of_length_eq_zero reaches empty]
    | cons y t =>
      rw [further, further]
      split
      · rfl
      · rename_i m found
        split
        · have shorter := length_next_lt reaches found ‹_›
          simp only [List.length_cons] at hs ht
          exact congrArg m.cons (ih (by omega) (by omega))
        · rfl

/-- Further items are the next item, if there is one, and the further items after it. -/
theorem items_eq {read : Cursor → Option (Match ε α)}
    (reaches : ∀ {c m}, read c = some m → c.Reaches m.next) (c : Cursor) :
    items read c =
      match read c.skipBlanks with
      | none => ⟨.ok [], c⟩
      | some m => if c.offset < m.next.offset then m.cons (items read m.next) else ⟨.ok [], c⟩ := by
  have longer : c.rest.length ≤ (' ' :: c.rest).length := Nat.le_succ _
  rw [items, further_eq_further reaches (Nat.le_refl _) longer, further]
  split
  · rfl
  · rename_i m found
    split
    · have shorter := length_next_lt reaches found ‹_›
      exact congrArg m.cons (further_eq_further reaches (Nat.le_of_lt shorter) (Nat.le_refl _))
    · rfl

end Grammar

end KeyIntrospection
