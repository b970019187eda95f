import KeyIntrospection.Grammar.Basic

/-!
Why a text was not accepted. While a grammar is tried, the names of the phrases and tokens that do not
fit are kept, but only those at the farthest place reached so far: that is where the text goes wrong,
and the names are what could stand there. A phrase that fails where several of its parts failed takes
their place in the list; a single part that failed there says more than the phrase, and stays.

What is accepted does not depend on any of this (`attempt_fst`), so a text that is accepted need not be
gone through in this way.
-/

namespace KeyIntrospection

/-- The names that were tried at the farthest place so far. -/
structure Attempts (ν : Type) where
  offset : Nat := 0
  tried : List ν := []
deriving DecidableEq, Repr

namespace Attempts

variable {ν : Type}

/-- How many names are kept for a place. -/
def count (a : Attempts ν) (offset : Nat) : Nat :=
  if offset = a.offset then a.tried.length else 0

/-- The attempts after `name` did not fit at `offset`, where `before` and `after` are the attempts
before and after its parts were tried. -/
def record (before after : Attempts ν) (name : ν) (offset : Nat) : Attempts ν :=
  if after.count offset = before.count offset + 1 then after
  else if offset < after.offset then after
  else if offset = after.offset then
    { after with tried := after.tried.take (before.count offset) ++ [name] }
  else ⟨offset, [name]⟩

end Attempts

namespace Grammar

variable {ν ε α : Type}

/-- The further items of a repetition, see `further`, and the attempts after them. At the end one more
item is tried, which does not fit. -/
def attemptFurther (attempt : Cursor → Attempts ν → Option (Match ε α) × Attempts ν) :
    List Char → Cursor → Attempts ν → Match ε (List α) × Attempts ν
  | [], c, a => (⟨.ok [], c⟩, (attempt c.skipBlanks a).2)
  | _ :: bound, c, a =>
    match attempt c.skipBlanks a with
    | (none, a) => (⟨.ok [], c⟩, a)
    | (some m, a) =>
      if c.offset < m.next.offset then
        let (n, a) := attemptFurther attempt bound m.next a
        (m.cons n, a)
      else (⟨.ok [], c⟩, a)

/-- What a grammar accepts at a cursor, and the attempts after it was tried. -/
def attempt {α : Type} :
    Grammar ν ε α → Cursor → Attempts ν → Option (Match ε α) × Attempts ν
  | plain t, c, a => ((t.read? c).map fun (_, next) => ⟨.ok (), next⟩, a)
  | token name t read, c, a =>
    match t.read? c with
    | none => (none, a.record a name c.offset)
    | some (x, next) => (some ⟨read x, next⟩, a)
  | seq gap p q, c, a =>
    match p.attempt c a with
    | (none, a) => (none, a)
    | (some m, a) =>
      let (n, a) := q.attempt (gap.skip m.next) a
      (n.map m.pair, a)
  | choice p q, c, a =>
    match p.attempt c a with
    | (none, a) => q.attempt c a
    | (some m, a) => (some m, a)
  | optional p, c, a =>
    match p.attempt c a with
    | (none, a) => (some ⟨.ok none, c⟩, a)
    | (some m, a) => (some (m.map some), a)
  | many p, c, a =>
    match p.attempt c a with
    | (none, a) => (some ⟨.ok [], c⟩, a)
    | (some m, a) =>
      let (n, a) := attemptFurther p.attempt m.next.rest m.next a
      (some (m.cons n), a)
  | ahead p, c, a =>
    let (m, a) := p.attempt c a
    (m.map fun _ => ⟨.ok (), c⟩, a)
  | map f p, c, a =>
    let (m, a) := p.attempt c a
    (m.map (·.map f), a)
  | phrase name p, c, a =>
    match p.attempt c a with
    | (none, after) => (none, a.record after name c.offset)
    | (some m, after) => (some (m.map (⟨·, c.offset, m.next.offset⟩)), after)

/-- The attempts when a grammar was tried at a cursor. -/
def blame (p : Grammar ν ε α) (c : Cursor) : Attempts ν := (p.attempt c {}).2

theorem attemptFurther_fst {read : Cursor → Option (Match ε α)}
    {attempt : Cursor → Attempts ν → Option (Match ε α) × Attempts ν}
    (same : ∀ c a, (attempt c a).1 = read c) (bound : List Char) (c : Cursor) (a : Attempts ν) :
    (attemptFurther attempt bound c a).1 = further read bound c := by
  induction bound generalizing c a with
  | nil => rfl
  | cons _ bound ih =>
    rw [attemptFurther, further, ← same c.skipBlanks a]
    split <;> rename_i m after tried <;> rw [tried]
    dsimp only
    split
    · exact congrArg m.cons (ih m.next after)
    · rfl

/-- The attempts have no part in what is accepted. -/
theorem attempt_fst {α : Type} (p : Grammar ν ε α) (c : Cursor) (a : Attempts ν) :
    (p.attempt c a).1 = p.accept? c := by
  induction p generalizing c a with
  | plain t => rfl
  | token name t read =>
    rw [attempt, accept?]
    split <;> rename_i found <;> rw [found] <;> rfl
  | seq gap p q ihp ihq =>
    rw [attempt, accept?, ← ihp c a]
    split <;> rename_i m after tried <;> rw [tried]
    · rfl
    · exact congrArg (Option.map m.pair) (ihq _ after)
  | choice p q ihp ihq =>
    rw [attempt, accept?, ← ihp c a]
    split <;> rename_i m after tried <;> rw [tried]
    exact ihq c after
  | optional p ih =>
    rw [attempt, accept?, ← ih c a]
    split <;> rename_i m after tried <;> rw [tried]
  | many p ih =>
    rw [attempt, accept?, ← ih c a]
    split <;> rename_i m after tried <;> rw [tried]
    exact congrArg (fun n => some (m.cons n)) (attemptFurther_fst ih _ _ after)
  | ahead p ih => exact congrArg (Option.map _) (ih c a)
  | map f p ih => exact congrArg (Option.map _) (ih c a)
  | phrase name p ih =>
    rw [attempt, accept?, ← ih c a]
    split <;> rename_i m after tried <;> rw [tried] <;> rfl

end Grammar

end KeyIntrospection
