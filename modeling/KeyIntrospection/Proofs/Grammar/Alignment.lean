import KeyIntrospection.Proofs.Grammar.Repetition

/-!
Two texts that are read side by side. When each token is found in both texts or in neither, each grammar
is accepted in both or in neither, and the values differ only in the places that they carry.
-/

namespace KeyIntrospection

/-- Values that carry places in a source text. -/
class Placed (α : Type) where
  move : (Nat → Nat) → α → α
  move_id : ∀ x, move id x = x

/-- The value with its places moved. -/
def move {α : Type} [Placed α] (f : Nat → Nat) (x : α) : α := Placed.move f x

/-- Values that are the same up to their places. -/
def Alike {α : Type} [Placed α] (x y : α) : Prop := move (fun _ => 0) x = move (fun _ => 0) y

@[simp] theorem move_id {α : Type} [Placed α] (x : α) : move id x = x := Placed.move_id x

instance : Placed Unit := ⟨fun _ x => x, fun _ => rfl⟩
instance : Placed Bool := ⟨fun _ x => x, fun _ => rfl⟩
instance : Placed Char := ⟨fun _ x => x, fun _ => rfl⟩
instance : Placed String := ⟨fun _ x => x, fun _ => rfl⟩
instance : Placed Span := ⟨fun f s => ⟨f s.start, f s.stop⟩, fun _ => rfl⟩

instance {α β : Type} [Placed α] [Placed β] : Placed (α × β) where
  move f x := (move f x.1, move f x.2)
  move_id x := by simp

instance {α : Type} [Placed α] : Placed (Option α) where
  move f x := x.map (move f)
  move_id x := by cases x <;> simp

instance {α : Type} [Placed α] : Placed (List α) where
  move f l := l.map (move f)
  move_id l := by
    induction l with
    | nil => rfl
    | cons x l ih => rw [List.map_cons, ih, KeyIntrospection.move_id]

instance {α : Type} [Placed α] : Placed (Located α) where
  move f x := ⟨move f x.value, move f x.span⟩
  move_id x := by simp

instance {ε α : Type} [Placed ε] [Placed α] : Placed (Except ε α) where
  move f
    | .ok x => .ok (move f x)
    | .error e => .error (move f e)
  move_id x := by cases x <;> simp

section Moves

variable {ε α β : Type} [Placed ε] [Placed α] [Placed β] {f : Nat → Nat}

@[simp] theorem move_unit (x : Unit) : move f x = x := rfl
@[simp] theorem move_bool (x : Bool) : move f x = x := rfl
@[simp] theorem move_char (x : Char) : move f x = x := rfl
@[simp] theorem move_string (x : String) : move f x = x := rfl
@[simp] theorem move_pair (x : α) (y : β) : move f (x, y) = (move f x, move f y) := rfl
@[simp] theorem move_none : move f (none : Option α) = none := rfl
@[simp] theorem move_some (x : α) : move f (some x) = some (move f x) := rfl
@[simp] theorem move_nil : move f ([] : List α) = [] := rfl
@[simp] theorem move_cons (x : α) (l : List α) : move f (x :: l) = move f x :: move f l := rfl
@[simp] theorem move_span (start stop : Nat) : move f (⟨start, stop⟩ : Span) = ⟨f start, f stop⟩ := rfl
@[simp] theorem move_located (x : α) (s : Span) : move f (⟨x, s⟩ : Located α) = ⟨move f x, move f s⟩ := rfl
@[simp] theorem move_ok (x : α) : move f (.ok x : Except ε α) = .ok (move f x) := rfl
@[simp] theorem move_error (e : ε) : move f (.error e : Except ε α) = .error (move f e) := rfl

@[simp] theorem move_text (s : List Char) : move f s = s := by
  induction s with
  | nil => rfl
  | cons c s ih => rw [move_cons, ih, move_char]

theorem move_list (l : List α) : move f l = l.map (move f) := rfl

end Moves

/-- Which cursors of two texts stand at the same place, and how the offsets of either text are
compared. -/
structure Alignment where
  near : Cursor → Cursor → Prop
  left : Nat → Nat
  right : Nat → Nat
  inside : ∀ {c d : Cursor}, near c d → ∀ i, left (c.offset + i) = right (d.offset + i)
  skip : ∀ {c d : Cursor}, near c d → near c.skipBlanks d.skipBlanks

namespace Alignment

variable (S : Alignment)

/-- The token is found in both texts or in neither, and takes the same from both. -/
def Respects (t : Token) : Prop :=
  ∀ ⦃c d : Cursor⦄, S.near c d → (t.take? c.rest = none ∧ t.take? d.rest = none) ∨
    ∃ x r r', t.take? c.rest = some (x, r) ∧ t.take? d.rest = some (x, r') ∧
      S.near (c.advance x r) (d.advance x r')

/-- The values agree when the offsets of either text are replaced. -/
def Agree {α : Type} [Placed α] (x y : α) : Prop := move S.left x = move S.right y

variable {ν ε α β : Type} [Placed ε] [Placed α] [Placed β]

/-- The grammar is accepted at both cursors or at neither, with values that agree. -/
abbrev Matched {α : Type} [Placed α] (p : Grammar ν ε α) (c d : Cursor) : Prop :=
  (p.accept? c = none ∧ p.accept? d = none) ∨
    ∃ m n, p.accept? c = some m ∧ p.accept? d = some n ∧ S.near m.next n.next ∧ S.Agree m.value n.value

/-- The grammar is accepted in both texts or in neither, with values that agree. -/
def Carries {α : Type} [Placed α] (p : Grammar ν ε α) : Prop :=
  ∀ ⦃c d : Cursor⦄, S.near c d → (p.accept? c = none ∧ p.accept? d = none) ∨
    ∃ m n, p.accept? c = some m ∧ p.accept? d = some n ∧ S.near m.next n.next ∧ S.Agree m.value n.value

/-- So it is where no blanks stand in either text. -/
def CarriesSettled {α : Type} [Placed α] (p : Grammar ν ε α) : Prop :=
  ∀ ⦃c d : Cursor⦄, S.near c d → Settled c.rest → Settled d.rest → S.Matched p c d

/-- The function does not look at places. -/
def Natural {α β : Type} [Placed α] [Placed β] (f : α → β) : Prop :=
  ∀ (g : Nat → Nat) (x : α), move g (f x) = f (move g x)

variable {S}

theorem read?_of_respects {t : Token} (respects : S.Respects t) {c d : Cursor} (near : S.near c d) :
    (t.read? c = none ∧ t.read? d = none) ∨
      ∃ x r r', t.read? c = some (⟨x, c.offset, c.offset + byteLength x⟩, c.advance x r) ∧
        t.read? d = some (⟨x, d.offset, d.offset + byteLength x⟩, d.advance x r') ∧
          S.near (c.advance x r) (d.advance x r') := by
  rcases respects near with ⟨absent, absent'⟩ | ⟨x, r, r', found, found', near'⟩
  · left
    simp [Token.read?, absent, absent']
  · right
    refine ⟨x, r, r', ?_, ?_, near'⟩
    · simp [Token.read?, found, Cursor.advance]
    · simp [Token.read?, found', Cursor.advance]

theorem agree_except_map {x y : Except ε α} {f g : α → β} (agree : S.Agree x y)
    (values : ∀ a b, S.Agree a b → S.Agree (f a) (g b)) : S.Agree (x.map f) (y.map g) := by
  cases x with
  | error e =>
    cases y with
    | error e' => simpa [Agree, Except.map] using agree
    | ok b => simp [Agree] at agree
  | ok a =>
    cases y with
    | error e' => simp [Agree] at agree
    | ok b =>
      have inner : S.Agree a b := by simpa [Agree] using agree
      simpa [Agree, Except.map] using values a b inner

namespace Carries

theorem plain {t : Token} (respects : S.Respects t) : S.Carries (.plain t : Grammar ν ε Unit) := by
  intro c d near
  rcases read?_of_respects respects near with ⟨absent, absent'⟩ | ⟨x, r, r', found, found', near'⟩
  · left
    simp [Grammar.accept?, absent, absent']
  · right
    refine ⟨⟨.ok (), c.advance x r⟩, ⟨.ok (), d.advance x r'⟩, ?_, ?_, near', rfl⟩
    · simp [Grammar.accept?, found]
    · simp [Grammar.accept?, found']

theorem token {name : ν} {t : Token} {read : Located (List Char) → Except ε α} (respects : S.Respects t)
    (reads : ∀ {o o' : Nat} (x : List Char), (∀ i, S.left (o + i) = S.right (o' + i)) →
      S.Agree (read ⟨x, o, o + byteLength x⟩) (read ⟨x, o', o' + byteLength x⟩)) :
    S.Carries (.token name t read) := by
  intro c d near
  rcases read?_of_respects respects near with ⟨absent, absent'⟩ | ⟨x, r, r', found, found', near'⟩
  · left
    simp [Grammar.accept?, absent, absent']
  · right
    refine ⟨⟨_, c.advance x r⟩, ⟨_, d.advance x r'⟩, ?_, ?_, near', reads x (S.inside near)⟩
    · simp [Grammar.accept?, found]
    · simp [Grammar.accept?, found']

theorem agree_pair {m m' : Match ε α} {n n' : Match ε β} (first : S.Agree m.value m'.value)
    (second : S.Agree n.value n'.value) : S.Agree (m.pair n).value (m'.pair n').value := by
  obtain ⟨v, next⟩ := m
  obtain ⟨v', next'⟩ := m'
  obtain ⟨w, last⟩ := n
  obtain ⟨w', end'⟩ := n'
  cases v <;> cases v' <;> cases w <;> cases w' <;> simp_all [Agree, Match.pair, bind, Except.bind, pure, Except.pure]

theorem agree_cons {m m' : Match ε α} {n n' : Match ε (List α)} (first : S.Agree m.value m'.value)
    (second : S.Agree n.value n'.value) : S.Agree (m.cons n).value (m'.cons n').value := by
  obtain ⟨v, next⟩ := m
  obtain ⟨v', next'⟩ := m'
  obtain ⟨w, last⟩ := n
  obtain ⟨w', end'⟩ := n'
  cases v <;> cases v' <;> cases w <;> cases w' <;> simp_all [Agree, Match.cons, bind, Except.bind, pure, Except.pure]

theorem agree_map {m m' : Match ε α} {f : α → β} (natural : Natural f) (inner : S.Agree m.value m'.value) :
    S.Agree (m.map f).value (m'.map f).value := by
  refine agree_except_map inner fun x y agree => ?_
  rw [Agree, natural, natural, agree]

theorem near_skip {c d : Cursor} (gap : Gap) (near : S.near c d) : S.near (gap.skip c) (gap.skip d) := by
  cases gap with
  | blanks => exact S.skip near
  | nothing => exact near

variable {p : Grammar ν ε α} {q : Grammar ν ε β}

theorem seq_of_skip {gap : Gap} (first : S.Carries p)
    (second : ∀ {c d : Cursor}, S.near c d → S.Matched q (gap.skip c) (gap.skip d)) : S.Carries (.seq gap p q) := by
  intro c d near
  simp only [Grammar.accept?]
  rcases first near with ⟨absent, absent'⟩ | ⟨m, m', found, found', near', agree⟩
  · left
    simp [absent, absent']
  · rw [found, found']
    simp only [Option.bind_some]
    rcases second near' with ⟨absent, absent'⟩ | ⟨n, n', follows, follows', near'', agree'⟩
    · left
      simp [absent, absent']
    · right
      exact ⟨m.pair n, m'.pair n', by rw [follows]; rfl, by rw [follows']; rfl, near'', agree_pair agree agree'⟩

theorem seq {gap : Gap} (first : S.Carries p) (second : S.Carries q) : S.Carries (.seq gap p q) :=
  first.seq_of_skip fun near => second (near_skip gap near)

/-- After blanks the second part is read where no blanks stand. -/
theorem seq_settled (first : S.Carries p) (second : S.CarriesSettled q) : S.Carries (.seq .blanks p q) :=
  first.seq_of_skip fun {c d} near => second (S.skip near) c.settled_skipBlanks d.settled_skipBlanks

theorem settled (inner : S.Carries p) : S.CarriesSettled p := fun _ _ near _ _ => inner near

theorem choice {q : Grammar ν ε α} (first : S.Carries p) (second : S.Carries q) :
    S.Carries (.choice p q) := by
  intro c d near
  simp only [Grammar.accept?]
  rcases first near with ⟨absent, absent'⟩ | ⟨m, m', found, found', near', agree⟩
  · rw [absent, absent']
    exact second near
  · right
    exact ⟨m, m', by rw [found], by rw [found'], near', agree⟩

theorem map {f : α → β} (natural : Natural f) (inner : S.Carries p) : S.Carries (.map f p) := by
  intro c d near
  simp only [Grammar.accept?]
  rcases inner near with ⟨absent, absent'⟩ | ⟨m, m', found, found', near', agree⟩
  · left
    simp [absent, absent']
  · right
    exact ⟨m.map f, m'.map f, by rw [found]; rfl, by rw [found']; rfl, near', agree_map natural agree⟩

theorem phrase {name : ν} (inner : S.Carries p) : S.Carries (.phrase name p) := by
  intro c d near
  simp only [Grammar.accept?]
  rcases inner near with ⟨absent, absent'⟩ | ⟨m, m', found, found', near', agree⟩
  · left
    simp [absent, absent']
  · right
    refine ⟨_, _, by rw [found]; rfl, by rw [found']; rfl, near', ?_⟩
    have start := S.inside near 0
    have stop := S.inside near' 0
    simp only [Nat.add_zero] at start stop
    obtain ⟨v, next⟩ := m
    obtain ⟨v', next'⟩ := m'
    cases v <;> cases v' <;> simp_all [Agree, Match.map, Except.map]

section Values

variable {γ δ : Type} [Placed γ] [Placed δ]

theorem congr {p' : Grammar ν ε α} (inner : S.Carries p') (same : ∀ c, p.accept? c = p'.accept? c) : S.Carries p := by
  intro c d near
  rw [same c, same d]
  exact inner near

omit [Placed β] in
/-- Of the second part only what is made of its value need agree. -/
theorem map_seq {f : α × β → γ} {g : β → δ} {h : α × δ → γ} (first : S.Carries p)
    (second : S.CarriesSettled (.map g q)) (natural : Natural h) (same : ∀ x y, f (x, y) = h (x, g y)) :
    S.Carries (.map f (.seq .blanks p q)) := by
  refine (map natural (first.seq_settled second)).congr fun c => ?_
  simp only [Grammar.accept?]
  rcases p.accept? c with _ | ⟨v, next⟩
  · rfl
  · simp only [Option.bind_some]
    rcases q.accept? (Gap.blanks.skip next) with _ | ⟨w, last⟩
    · rfl
    · cases v with
      | error e => rfl
      | ok x =>
        cases w with
        | error e => rfl
        | ok y => exact congrArg (fun z => some (⟨.ok z, last⟩ : Match ε γ)) (same x y)

omit [Placed α] in
theorem map_phrase {name : ν} {f : α → β} (inner : S.Carries (.map f p)) :
    S.Carries (.map (Located.map f) (.phrase name p)) := by
  have outer : S.Carries (.phrase name (.map f p)) := inner.phrase
  refine outer.congr fun c => ?_
  simp only [Grammar.accept?]
  rcases p.accept? c with _ | ⟨v, next⟩
  · rfl
  · cases v <;> rfl

end Values

theorem optional (inner : S.Carries p) : S.Carries (.optional p) := by
  intro c d near
  simp only [Grammar.accept?]
  right
  rcases inner near with ⟨absent, absent'⟩ | ⟨m, m', found, found', near', agree⟩
  · rw [absent, absent']
    exact ⟨_, _, rfl, rfl, near, rfl⟩
  · rw [found, found']
    exact ⟨_, _, rfl, rfl, near', agree_map (fun _ _ => rfl) agree⟩

theorem ahead (inner : S.Carries p) : S.Carries (.ahead p) := by
  intro c d near
  simp only [Grammar.accept?]
  rcases inner near with ⟨absent, absent'⟩ | ⟨m, m', found, found', near', agree⟩
  · left
    simp [absent, absent']
  · right
    exact ⟨⟨.ok (), c⟩, ⟨.ok (), d⟩, by rw [found]; rfl, by rw [found']; rfl, near, rfl⟩

theorem items (inner : S.Carries p) (consumes : p.Consumes) {l : Nat} {c d : Cursor}
    (short : c.rest.length < l) (near : S.near c d) :
    S.near (Grammar.items p.accept? c).next (Grammar.items p.accept? d).next ∧
      S.Agree (Grammar.items p.accept? c).value (Grammar.items p.accept? d).value := by
  induction l generalizing c d with
  | zero => omega
  | succ l ih =>
    rcases inner (S.skip near) with ⟨absent, absent'⟩ | ⟨m, m', found, found', near', agree⟩
    · rw [Grammar.items_of_none absent, Grammar.items_of_none absent']
      exact ⟨near, rfl⟩
    · have later := Nat.lt_of_le_of_lt c.offset_le_skipBlanks (consumes found)
      have shorter := (c.reaches_skipBlanks.trans (Grammar.accept?_reaches found)).length_lt later
      obtain ⟨nearEnd, agreeEnd⟩ := ih (by omega) near'
      rw [Grammar.items_of_some consumes found, Grammar.items_of_some consumes found']
      exact ⟨nearEnd, agree_cons agree agreeEnd⟩

theorem many (inner : S.Carries p) (consumes : p.Consumes) : S.Carries (.many p) := by
  intro c d near
  simp only [Grammar.accept?]
  right
  rcases inner near with ⟨absent, absent'⟩ | ⟨m, m', found, found', near', agree⟩
  · rw [absent, absent']
    exact ⟨_, _, rfl, rfl, near, rfl⟩
  · rw [found, found']
    obtain ⟨nearEnd, agreeEnd⟩ := inner.items consumes (Nat.lt_succ_self _) near'
    exact ⟨_, _, rfl, rfl, nearEnd, agree_cons agree agreeEnd⟩

end Carries

end Alignment

end KeyIntrospection
