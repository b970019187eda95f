import KeyIntrospection.Proofs.Grammar.Repetition

/-!
How a grammar is refused. Most grammars are told apart by the head of the text: one that does not
begin there is refused at once, and no name is kept for a place farther on.
-/

namespace KeyIntrospection

variable {ν : Type}

theorem Attempts.record_offset_le (before after : Attempts ν) (name : ν) (offset : Nat) :
    (before.record after name offset).offset ≤ max after.offset offset := by
  unfold record
  split
  · exact Nat.le_max_left _ _
  · split
    · exact Nat.le_max_left _ _
    · split
      · exact Nat.le_max_left _ _
      · exact Nat.le_max_right _ _

namespace Grammar

variable {ε α β γ : Type}

/-- The grammar is not accepted, and no name is kept for a place after `bound`. -/
def Refuses (p : Grammar ν ε α) (c : Cursor) (bound : Nat) : Prop :=
  ∀ a : Attempts ν, ∃ b, p.attempt c a = (none, b) ∧ b.offset ≤ max a.offset bound

namespace Refuses

variable {c : Cursor} {bound : Nat}

theorem accept?_eq_none {p : Grammar ν ε α} (refuses : p.Refuses c bound) : p.accept? c = none := by
  obtain ⟨b, found, _⟩ := refuses {}
  rw [← attempt_fst p c {}, found]

theorem plain {t : Token} (absent : t.take? c.rest = none) :
    (Grammar.plain t : Grammar ν ε Unit).Refuses c bound := by
  intro a
  refine ⟨a, ?_, Nat.le_max_left _ _⟩
  simp [attempt, Token.read?, absent]

theorem token {name : ν} {t : Token} {read : Located (List Char) → Except ε α}
    (absent : t.take? c.rest = none) (before : c.offset ≤ bound) :
    (Grammar.token name t read).Refuses c bound := by
  intro a
  refine ⟨a.record a name c.offset, ?_, ?_⟩
  · simp [attempt, Token.read?, absent]
  · have limit := a.record_offset_le a name c.offset
    omega

theorem seq {gap : Gap} {p : Grammar ν ε α} {q : Grammar ν ε β} (first : p.Refuses c bound) :
    (Grammar.seq gap p q).Refuses c bound := by
  intro a
  obtain ⟨b, found, limit⟩ := first a
  exact ⟨b, by rw [attempt, found], limit⟩

theorem choice {p q : Grammar ν ε α} (first : p.Refuses c bound) (second : q.Refuses c bound) :
    (Grammar.choice p q).Refuses c bound := by
  intro a
  obtain ⟨b, found, limit⟩ := first a
  obtain ⟨d, found', limit'⟩ := second b
  exact ⟨d, by rw [attempt, found]; exact found', by omega⟩

theorem map {f : α → β} {p : Grammar ν ε α} (inner : p.Refuses c bound) :
    (Grammar.map f p).Refuses c bound := by
  intro a
  obtain ⟨b, found, limit⟩ := inner a
  exact ⟨b, by rw [attempt, found]; rfl, limit⟩

theorem phrase {name : ν} {p : Grammar ν ε α} (inner : p.Refuses c bound) (before : c.offset ≤ bound) :
    (Grammar.phrase name p).Refuses c bound := by
  intro a
  obtain ⟨b, found, limit⟩ := inner a
  refine ⟨a.record b name c.offset, by rw [attempt, found], ?_⟩
  have recorded := a.record_offset_le b name c.offset
  omega

/-- A first part that leaves no name behind does not matter when the second part is refused. -/
theorem seq_of_some {gap : Gap} {p : Grammar ν ε α} {q : Grammar ν ε β} {m : Match ε α}
    (first : ∀ a, p.attempt c a = (some m, a)) (second : q.Refuses (gap.skip m.next) bound) :
    (Grammar.seq gap p q).Refuses c bound := by
  intro a
  obtain ⟨b, found, limit⟩ := second a
  refine ⟨b, ?_, limit⟩
  rw [attempt, first]
  dsimp only
  rw [found]
  rfl

end Refuses

/-- What the text must have at its head, the blanks being over, for the grammar not to be refused at
once. -/
def Begins (p : Grammar ν ε α) (head : List Char → Prop) : Prop :=
  ∀ ⦃c : Cursor⦄ ⦃bound : Nat⦄, Settled c.rest → c.offset ≤ bound → ¬head c.rest → p.Refuses c bound

namespace Begins

variable {head head' : List Char → Prop}

theorem of_accept? {p : Grammar ν ε α} (begins : p.Begins head) {c : Cursor} {m : Match ε α}
    (settled : Settled c.rest) (accepted : p.accept? c = some m) : head c.rest := by
  by_cases present : head c.rest
  · exact present
  · rw [(begins settled (Nat.le_refl _) present).accept?_eq_none] at accepted
    cases accepted

theorem accept?_eq_none {p : Grammar ν ε α} (begins : p.Begins head) {c : Cursor}
    (settled : Settled c.rest) (absent : ¬head c.rest) : p.accept? c = none :=
  (begins settled (Nat.le_refl _) absent).accept?_eq_none

theorem mono {p : Grammar ν ε α} (begins : p.Begins head) (weaker : ∀ s, head s → head' s) :
    p.Begins head' :=
  fun _ _ settled before absent => begins settled before fun present => absent (weaker _ present)

theorem plain {t : Token} : (Grammar.plain t : Grammar ν ε Unit).Begins fun s => (t.take? s).isSome :=
  fun _ _ _ _ absent => .plain (by simpa using absent)

theorem token {name : ν} {t : Token} {read : Located (List Char) → Except ε α} :
    (Grammar.token name t read).Begins fun s => (t.take? s).isSome :=
  fun _ _ _ before absent => .token (by simpa using absent) before

theorem seq {gap : Gap} {p : Grammar ν ε α} {q : Grammar ν ε β} (first : p.Begins head) :
    (Grammar.seq gap p q).Begins head :=
  fun _ _ settled before absent => (first settled before absent).seq

theorem choice {p q : Grammar ν ε α} (first : p.Begins head) (second : q.Begins head') :
    (Grammar.choice p q).Begins fun s => head s ∨ head' s :=
  fun _ _ settled before absent =>
    .choice (first settled before fun present => absent (.inl present))
      (second settled before fun present => absent (.inr present))

theorem map {f : α → β} {p : Grammar ν ε α} (inner : p.Begins head) : (Grammar.map f p).Begins head :=
  fun _ _ settled before absent => (inner settled before absent).map

theorem phrase {name : ν} {p : Grammar ν ε α} (inner : p.Begins head) :
    (Grammar.phrase name p).Begins head :=
  fun _ _ settled before absent => (inner settled before absent).phrase before

end Begins

/-- Where `q` can be read, `p` is refused. -/
def Apart (p : Grammar ν ε α) (q : Grammar ν ε β) : Prop :=
  ∀ ⦃c : Cursor⦄ ⦃k : Match ε β⦄, Settled c.rest → q.accept? c = some k → p.Refuses c k.next.offset

theorem Begins.apart {p : Grammar ν ε α} {q : Grammar ν ε β} {head head' : List Char → Prop}
    (first : p.Begins head) (second : q.Begins head') (disjoint : ∀ s, head s → ¬head' s) :
    p.Apart q := by
  intro c k settled accepted
  refine first settled (accept?_reaches accepted).offset_le fun present => ?_
  exact disjoint _ present (second.of_accept? settled accepted)

/-- Repeated tokens without names leave nothing behind. -/
theorem attempt_many_plain {t : Token} (c : Cursor) (a : Attempts ν) :
    (many (plain t) : Grammar ν ε (List Unit)).attempt c a =
      ((many (plain t) : Grammar ν ε (List Unit)).accept? c, a) := by
  have further (bound : List Char) (c : Cursor) :
      (attemptFurther (plain t : Grammar ν ε Unit).attempt bound c a).2 = a := by
    induction bound generalizing c with
    | nil => rfl
    | cons _ bound ih =>
      rw [attemptFurther, attempt]
      cases t.read? c.skipBlanks with
      | none => rfl
      | some found =>
        dsimp only [Option.map_some]
        split
        · exact ih _
        · rfl
  have untouched : ((many (plain t) : Grammar ν ε (List Unit)).attempt c a).2 = a := by
    rw [attempt, attempt]
    cases t.read? c with
    | none => rfl
    | some found => exact further _ _
  exact Prod.ext (attempt_fst _ c a) untouched

/-- Repeated tokens without names are passed over, and leave nothing behind. -/
theorem attempt_many_plain_of_refused {t : Token} {c : Cursor} (absent : t.take? c.rest = none)
    (a : Attempts ν) :
    (many (plain t) : Grammar ν ε (List Unit)).attempt c a = (some ⟨.ok [], c⟩, a) := by
  simp [attempt, Token.read?, absent]

theorem Begins.many_plain_seq {t : Token} {q : Grammar ν ε β} {head head' : List Char → Prop}
    (first : (Grammar.plain t : Grammar ν ε Unit).Begins head) (second : q.Begins head') :
    (Grammar.seq .blanks (Grammar.many (Grammar.plain t)) q).Begins fun s => head s ∨ head' s := by
  intro c bound settled before absent
  have refused := first.accept?_eq_none settled fun present => absent (.inl present)
  have missing : t.take? c.rest = none := by simpa [accept?, Token.read?] using refused
  refine Refuses.seq_of_some (attempt_many_plain_of_refused missing) ?_
  rw [Gap.skip, Cursor.skipBlanks_of_settled settled]
  exact second settled before fun present => absent (.inr present)

/-- What a repetition and what follows it begin with. -/
theorem Begins.of_accept?_many_seq {p : Grammar ν ε α} {q : Grammar ν ε β} {head head' : List Char → Prop}
    (first : p.Begins head) (second : q.Begins head') {c : Cursor} {k : Match ε (List α × β)}
    (settled : Settled c.rest) (accepted : (Grammar.seq .blanks (Grammar.many p) q).accept? c = some k) :
    head c.rest ∨ head' c.rest := by
  by_cases present : head c.rest
  · exact .inl present
  · have refused := first.accept?_eq_none settled present
    obtain ⟨m, acceptedFirst, accepted⟩ := Option.bind_eq_some_iff.mp accepted
    obtain ⟨n, acceptedSecond, rfl⟩ := Option.map_eq_some_iff.mp accepted
    rw [accept?, refused] at acceptedFirst
    cases acceptedFirst
    rw [Gap.skip, Cursor.skipBlanks_of_settled settled] at acceptedSecond
    exact .inr (second.of_accept? settled acceptedSecond)

theorem Apart.seq {p : Grammar ν ε α} {q : Grammar ν ε β} {gap : Gap} {r : Grammar ν ε γ}
    (apart : p.Apart q) : (Grammar.seq gap p r).Apart q :=
  fun _ _ settled accepted => (apart settled accepted).seq

theorem Apart.choice {p : Grammar ν ε α} {q q' : Grammar ν ε β} (first : p.Apart q) (second : p.Apart q') :
    p.Apart (Grammar.choice q q') := by
  intro c k settled accepted
  rw [accept?] at accepted
  split at accepted
  · next found =>
    cases accepted
    exact first settled found
  · exact second settled accepted

theorem Apart.map {p : Grammar ν ε α} {q : Grammar ν ε β} {f : α → γ} (apart : p.Apart q) :
    (Grammar.map f p).Apart q :=
  fun _ _ settled accepted => (apart settled accepted).map

/-- Grammars that are apart stay so behind the same repeated token. -/
theorem Apart.many_plain_seq {t : Token} {p : Grammar ν ε α} {q : Grammar ν ε β} (apart : p.Apart q) :
    (Grammar.seq .blanks (Grammar.many (Grammar.plain t)) p).Apart (Grammar.seq .blanks (Grammar.many (Grammar.plain t)) q) := by
  intro c k settled accepted
  obtain ⟨m, first, accepted⟩ := Option.bind_eq_some_iff.mp accepted
  obtain ⟨n, second, rfl⟩ := Option.map_eq_some_iff.mp accepted
  refine Refuses.seq_of_some (m := m) (fun a => ?_) (apart m.next.settled_skipBlanks second)
  rw [attempt_many_plain, first]

/-- Of a token and what may stand there without it, the token is tried first. -/
theorem Apart.plain_seq_optional {t : Token} {p : Grammar ν ε α} {q : Grammar ν ε β} (apart : p.Apart q) :
    (Grammar.seq .blanks (Grammar.plain t) p).Apart (Grammar.seq .blanks (Grammar.optional (Grammar.plain t)) q) := by
  intro c k settled accepted
  obtain ⟨m, first, accepted⟩ := Option.bind_eq_some_iff.mp accepted
  obtain ⟨n, second, rfl⟩ := Option.map_eq_some_iff.mp accepted
  rw [accept?] at first
  split at first
  · next m' found =>
    cases first
    refine Refuses.seq_of_some (m := m') (fun a => ?_) (apart m'.next.settled_skipBlanks second)
    have found' := attempt_fst (Grammar.plain t : Grammar ν ε Unit) c a
    rw [found, attempt] at found'
    exact Prod.ext found' rfl
  · next refused =>
    have missing : t.take? c.rest = none := by simpa [accept?, Token.read?] using refused
    exact (Refuses.plain missing).seq

end Grammar

end KeyIntrospection
