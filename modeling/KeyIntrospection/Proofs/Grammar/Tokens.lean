import KeyIntrospection.Proofs.Grammar.Repetition

/-!
The tokens that an accepted phrase is made of. Those with names stand in its text one after the other, and the fault of
a phrase is that of the first of them that has one, whatever is made of their values.
-/

namespace KeyIntrospection

/-- The fault in the place of a value. -/
def faultOf {ε α : Type} : Except ε α → Option ε
  | .ok _ => none
  | .error e => some e

section Faults

variable {ε α β : Type}

@[simp] theorem faultOf_map (f : α → β) (v : Except ε α) : faultOf (v.map f) = faultOf v := by cases v <;> rfl

theorem faultOf_pair (m : Match ε α) (n : Match ε β) :
    faultOf (m.pair n).value = (faultOf m.value).or (faultOf n.value) := by
  obtain ⟨v | v, _⟩ := m <;> obtain ⟨w | w, _⟩ := n <;> rfl

theorem faultOf_cons (m : Match ε α) (n : Match ε (List α)) :
    faultOf (m.cons n).value = (faultOf m.value).or (faultOf n.value) := by
  obtain ⟨v | v, _⟩ := m <;> obtain ⟨w | w, _⟩ := n <;> rfl

end Faults

namespace Grammar

variable {ν ε α : Type}

/-- A token of an accepted phrase: its name, and its text with the place where it stands. -/
abbrev Named (ν : Type) := ν × Located (List Char)

/-- The tokens of the further items of a repetition, see `further`. -/
def furtherTokens (read : Cursor → Option (Match ε α)) (tokens : Cursor → List (Named ν)) :
    List Char → Cursor → List (Named ν)
  | [], _ => []
  | _ :: bound, c =>
    match read c.skipBlanks with
    | none => []
    | some m =>
      if c.offset < m.next.offset then tokens c.skipBlanks ++ furtherTokens read tokens bound m.next else []

/-- The tokens with names of the phrase that is accepted at a cursor, in the order of the text. -/
def tokens {α : Type} : Grammar ν ε α → Cursor → List (Named ν)
  | plain _, _ => []
  | token name t _, c => ((t.read? c).map fun (x, _) => (name, x)).toList
  | seq gap p q, c =>
    match p.accept? c with
    | some m => p.tokens c ++ q.tokens (gap.skip m.next)
    | none => []
  | choice p q, c =>
    match p.accept? c with
    | some _ => p.tokens c
    | none => q.tokens c
  | optional p, c =>
    match p.accept? c with
    | some _ => p.tokens c
    | none => []
  | many p, c =>
    match p.accept? c with
    | some m => p.tokens c ++ furtherTokens p.accept? p.tokens m.next.rest m.next
    | none => []
  | ahead _, _ => []
  | map _ p, c => p.tokens c
  | phrase _ p, c => p.tokens c

section Tokens

variable {p : Grammar ν ε α} {c : Cursor} {m : Match ε α}

theorem tokens_seq {β : Type} {q : Grammar ν ε β} {gap : Gap} (found : p.accept? c = some m) :
    (seq gap p q).tokens c = p.tokens c ++ q.tokens (gap.skip m.next) := by simp only [tokens, found]

theorem tokens_choice {q : Grammar ν ε α} (found : p.accept? c = some m) : (choice p q).tokens c = p.tokens c := by
  simp only [tokens, found]

theorem tokens_choice_of_none {q : Grammar ν ε α} (refused : p.accept? c = none) :
    (choice p q).tokens c = q.tokens c := by simp only [tokens, refused]

theorem tokens_optional (found : p.accept? c = some m) : (optional p).tokens c = p.tokens c := by
  simp only [tokens, found]

theorem tokens_optional_of_none (refused : p.accept? c = none) : (optional p).tokens c = [] := by
  simp only [tokens, refused]

theorem tokens_many (found : p.accept? c = some m) :
    (many p).tokens c = p.tokens c ++ furtherTokens p.accept? p.tokens m.next.rest m.next := by
  simp only [tokens, found]

theorem tokens_many_of_none (refused : p.accept? c = none) : (many p).tokens c = [] := by
  simp only [tokens, refused]

/-- The further items of a repetition and their tokens: none, or one more item and those after it. -/
theorem further_cases (p : Grammar ν ε α) (b : Char) (bound : List Char) (c : Cursor) :
    further p.accept? (b :: bound) c = ⟨.ok [], c⟩ ∧ furtherTokens p.accept? p.tokens (b :: bound) c = [] ∨
      ∃ m, p.accept? c.skipBlanks = some m ∧ further p.accept? (b :: bound) c = m.cons (further p.accept? bound m.next) ∧
        furtherTokens p.accept? p.tokens (b :: bound) c =
          p.tokens c.skipBlanks ++ furtherTokens p.accept? p.tokens bound m.next := by
  rw [further, furtherTokens]
  cases found : p.accept? c.skipBlanks with
  | none => exact .inl ⟨rfl, rfl⟩
  | some m =>
    by_cases later : c.offset < m.next.offset
    · exact .inr ⟨m, rfl, if_pos later, if_pos later⟩
    · exact .inl ⟨if_neg later, if_neg later⟩

end Tokens

/-- Every token with a name has the property, which is about the faults of its values too. -/
def Every (P : ν → Token → (Located (List Char) → Option ε) → Prop) {α : Type} : Grammar ν ε α → Prop
  | plain _ => True
  | token name t read => P name t fun x => faultOf (read x)
  | seq _ p q => p.Every P ∧ q.Every P
  | choice p q => p.Every P ∧ q.Every P
  | optional p => p.Every P
  | many p => p.Every P
  | ahead _ => True
  | map _ p => p.Every P
  | phrase _ p => p.Every P

section Fault

variable {P : ν → Token → (Located (List Char) → Option ε) → Prop} {fault : Named ν → Option ε}
  (faults : ∀ {name t f}, P name t f → ∀ x, f x = fault (name, x))

theorem faultOf_further {p : Grammar ν ε α}
    (first : ∀ {c m}, p.accept? c = some m → faultOf m.value = (p.tokens c).findSome? fault)
    (bound : List Char) (c : Cursor) :
    faultOf (further p.accept? bound c).value = (furtherTokens p.accept? p.tokens bound c).findSome? fault := by
  induction bound generalizing c with
  | nil => rfl
  | cons b bound ih =>
    rcases further_cases p b bound c with ⟨ends, nothing⟩ | ⟨m, found, goes, tokens⟩
    · rw [ends, nothing]
      rfl
    · rw [goes, tokens, faultOf_cons, List.findSome?_append, first found, ih]

include faults

/-- A phrase has the fault of the first of its tokens that has one. -/
theorem faultOf_accept? {α : Type} {p : Grammar ν ε α} (every : p.Every P) {c : Cursor} {m : Match ε α}
    (accepted : p.accept? c = some m) : faultOf m.value = (p.tokens c).findSome? fault := by
  induction p generalizing c with
  | plain t =>
    obtain ⟨_, _, rfl⟩ := Option.map_eq_some_iff.mp accepted
    rfl
  | token name t read =>
    obtain ⟨⟨x, next⟩, found, rfl⟩ := Option.map_eq_some_iff.mp accepted
    simp [tokens, found, faults every x]
  | seq gap p q ihp ihq =>
    obtain ⟨m, first, follows⟩ := Option.bind_eq_some_iff.mp accepted
    obtain ⟨n, second, rfl⟩ := Option.map_eq_some_iff.mp follows
    rw [tokens_seq first, faultOf_pair, List.findSome?_append, ihp every.1 first, ihq every.2 second]
  | choice p q ihp ihq =>
    rw [accept?] at accepted
    split at accepted
    · next found =>
      cases accepted
      rw [tokens_choice found, ihp every.1 found]
    · next refused => rw [tokens_choice_of_none refused, ihq every.2 accepted]
  | optional p ih =>
    rw [accept?] at accepted
    split at accepted
    · next found =>
      cases accepted
      rw [tokens_optional found, ← ih every found]
      exact faultOf_map _ _
    · next refused =>
      cases accepted
      rw [tokens_optional_of_none refused]
      rfl
  | many p ih =>
    rw [accept?] at accepted
    split at accepted
    · next m found =>
      cases accepted
      rw [tokens_many found, faultOf_cons, List.findSome?_append, ih every found]
      exact congrArg _ (faultOf_further (fun found => ih every found) _ _)
    · next refused =>
      cases accepted
      rw [tokens_many_of_none refused]
      rfl
  | ahead p ih =>
    obtain ⟨_, _, rfl⟩ := Option.map_eq_some_iff.mp accepted
    rfl
  | map f p ih =>
    obtain ⟨n, found, rfl⟩ := Option.map_eq_some_iff.mp accepted
    exact (faultOf_map _ _).trans (ih every found)
  | phrase name p ih =>
    obtain ⟨n, found, rfl⟩ := Option.map_eq_some_iff.mp accepted
    exact (faultOf_map _ _).trans (ih every found)

end Fault

/-- What the tokens of a phrase with a value give is what is found in the value. -/
def Gathers {γ : Type} (give : Named ν → Option γ) {α : Type} (p : Grammar ν ε α) (found : α → List γ) : Prop :=
  ∀ ⦃c : Cursor⦄ ⦃m : Match ε α⦄ ⦃x : α⦄, p.accept? c = some m → m.value = .ok x → (p.tokens c).filterMap give = found x

namespace Gathers

variable {γ : Type} {give : Named ν → Option γ} {β : Type} {p : Grammar ν ε α} {q : Grammar ν ε β} {f : α → List γ}
  {g : β → List γ}

theorem plain {t : Token} : Gathers give (.plain t : Grammar ν ε Unit) fun _ => [] := fun _ _ _ _ _ => rfl

theorem token {name : ν} {t : Token} {read : Located (List Char) → Except ε α}
    (reads : ∀ x v, read x = .ok v → (give (name, x)).toList = f v) : Gathers give (.token name t read) f := by
  intro c m v accepted value
  obtain ⟨⟨x, next⟩, found, rfl⟩ := Option.map_eq_some_iff.mp accepted
  rw [tokens, found, ← reads x v value, Option.map_some, Option.toList_some, List.filterMap_cons]
  cases give (name, x) <;> rfl

theorem seq {gap : Gap} (first : Gathers give p f) (second : Gathers give q g) :
    Gathers give (.seq gap p q) fun x => f x.1 ++ g x.2 := by
  intro c k x accepted value
  obtain ⟨m, foundFirst, follows⟩ := Option.bind_eq_some_iff.mp accepted
  obtain ⟨n, foundSecond, rfl⟩ := Option.map_eq_some_iff.mp follows
  obtain ⟨valueFirst, valueSecond⟩ := Match.value_pair_eq_ok.mp value
  rw [tokens_seq foundFirst, List.filterMap_append, first foundFirst valueFirst, second foundSecond valueSecond]

theorem choice {p' : Grammar ν ε α} (first : Gathers give p f) (second : Gathers give p' f) :
    Gathers give (.choice p p') f := by
  intro c m x accepted value
  rw [accept?] at accepted
  split at accepted
  · next found =>
    cases accepted
    rw [tokens_choice found, first found value]
  · next refused => rw [tokens_choice_of_none refused, second accepted value]

theorem map {h : α → β} (inner : Gathers give p fun x => g (h x)) : Gathers give (.map h p) g := by
  intro c k y accepted value
  obtain ⟨m, found, rfl⟩ := Option.map_eq_some_iff.mp accepted
  obtain ⟨x, valueInside, rfl⟩ := Match.value_map_eq_ok.mp value
  exact inner found valueInside

theorem phrase {name : ν} (inner : Gathers give p f) : Gathers give (.phrase name p) fun x => f x.value := by
  intro c k y accepted value
  obtain ⟨m, found, rfl⟩ := Option.map_eq_some_iff.mp accepted
  obtain ⟨x, valueInside, rfl⟩ := Match.value_map_eq_ok.mp value
  exact inner found valueInside

theorem optional (inner : Gathers give p f) : Gathers give (.optional p) fun x => x.toList.flatMap f := by
  intro c k y accepted value
  rw [accept?] at accepted
  split at accepted
  · next m found =>
    cases accepted
    obtain ⟨x, valueInside, rfl⟩ := Match.value_map_eq_ok.mp value
    rw [tokens_optional found, inner found valueInside]
    exact (List.append_nil _).symm
  · next refused =>
    cases accepted
    cases value
    rw [tokens_optional_of_none refused]
    rfl

theorem further (inner : Gathers give p f) (bound : List Char) {c : Cursor} {l : List α}
    (value : (further p.accept? bound c).value = .ok l) :
    (furtherTokens p.accept? p.tokens bound c).filterMap give = l.flatMap f := by
  induction bound generalizing c l with
  | nil =>
    cases value
    rfl
  | cons b bound ih =>
    rcases further_cases p b bound c with ⟨ends, nothing⟩ | ⟨m, found, goes, tokens⟩
    · rw [ends] at value
      cases value
      rw [nothing]
      rfl
    · rw [goes] at value
      obtain ⟨x, others, valueFirst, valueOthers, rfl⟩ := Match.value_cons_eq_ok.mp value
      rw [tokens, List.filterMap_append, inner found valueFirst, ih valueOthers, List.flatMap_cons]

theorem many (inner : Gathers give p f) : Gathers give (.many p) fun l => l.flatMap f := by
  intro c k l accepted value
  rw [accept?] at accepted
  split at accepted
  · next m found =>
    cases accepted
    obtain ⟨x, others, valueFirst, valueOthers, rfl⟩ := Match.value_cons_eq_ok.mp value
    rw [tokens_many found, List.filterMap_append, inner found valueFirst, further inner _ valueOthers]
    rfl
  · next refused =>
    cases accepted
    cases value
    rw [tokens_many_of_none refused]
    rfl

end Gathers

/-- Tokens that stand between two cursors, one after the other, each with a text that its name allows. -/
inductive Laid (allows : ν → List Char → Prop) : Cursor → List (Named ν) → Cursor → Prop
  | nil {c d : Cursor} : c.Reaches d → Laid allows c [] d
  | cons {c d e : Cursor} {name : ν} {text rest : List Char} {l : List (Named ν)} : c.Reaches d →
      text ++ rest = d.rest → allows name text → Laid allows (d.advance text rest) l e →
      Laid allows c ((name, ⟨text, d.offset, (d.advance text rest).offset⟩) :: l) e

namespace Laid

variable {allows : ν → List Char → Prop} {c d e : Cursor} {l l' : List (Named ν)}

theorem of_reaches (reach : c.Reaches d) (laid : Laid allows d l e) : Laid allows c l e := by
  cases laid with
  | nil reach' => exact .nil (reach.trans reach')
  | cons reach' split allowed others => exact .cons (reach.trans reach') split allowed others

theorem append (first : Laid allows c l d) (second : Laid allows d l' e) : Laid allows c (l ++ l') e := by
  induction first with
  | nil reach => exact second.of_reaches reach
  | cons reach split allowed _ ih => exact .cons reach split allowed (ih second)

/-- Each of the tokens was read somewhere. -/
theorem exists_of_mem (laid : Laid allows c l e) {name : ν} {x : Located (List Char)} (mem : (name, x) ∈ l) :
    ∃ d rest, c.Reaches d ∧ x.value ++ rest = d.rest ∧ x.span = ⟨d.offset, (d.advance x.value rest).offset⟩ ∧
      allows name x.value := by
  induction laid with
  | nil => cases mem
  | @cons c d e other text rest l reach split allowed others ih =>
    rcases List.mem_cons.mp mem with same | later
    · cases same
      exact ⟨d, rest, reach, split, rfl, allowed⟩
    · obtain ⟨d', rest', reach', found⟩ := ih later
      exact ⟨d', rest', reach.trans ((Cursor.reaches_advance split).trans reach'), found⟩

theorem offset_le_start (laid : Laid allows c l e) : ∀ t ∈ l, c.offset ≤ t.2.span.start := by
  rintro ⟨name, x⟩ mem
  obtain ⟨d, rest, reach, _, span, _⟩ := laid.exists_of_mem mem
  rw [span]
  exact reach.offset_le

/-- The tokens stand in the order of the text and do not overlap. -/
theorem pairwise (laid : Laid allows c l e) : l.Pairwise fun t u => t.2.span.stop ≤ u.2.span.start := by
  induction laid with
  | nil => exact .nil
  | cons _ _ _ others ih => exact .cons others.offset_le_start ih

end Laid

section Places

variable {P : ν → Token → (Located (List Char) → Option ε) → Prop} {allows : ν → List Char → Prop}
  (takes : ∀ {name t f}, P name t f → ∀ {s x r : List Char}, t.take? s = some (x, r) → allows name x)

theorem laid_further {p : Grammar ν ε α}
    (first : ∀ {c m}, p.accept? c = some m → Laid allows c (p.tokens c) m.next) (bound : List Char) (c : Cursor) :
    Laid allows c (furtherTokens p.accept? p.tokens bound c) (further p.accept? bound c).next := by
  induction bound generalizing c with
  | nil => exact .nil (.refl c)
  | cons b bound ih =>
    rcases further_cases p b bound c with ⟨ends, nothing⟩ | ⟨m, found, goes, tokens⟩
    · rw [ends, nothing]
      exact .nil (.refl c)
    · rw [goes, tokens]
      exact ((first found).of_reaches c.reaches_skipBlanks).append (ih m.next)

include takes

/-- The tokens of a phrase stand where it was read. -/
theorem laid_accept? {α : Type} {p : Grammar ν ε α} (every : p.Every P) {c : Cursor} {m : Match ε α}
    (accepted : p.accept? c = some m) : Laid allows c (p.tokens c) m.next := by
  induction p generalizing c with
  | plain t => exact .nil (accept?_reaches accepted)
  | token name t read =>
    obtain ⟨⟨x, next⟩, found, rfl⟩ := Option.map_eq_some_iff.mp accepted
    obtain ⟨⟨text, rest⟩, taken, same⟩ := Option.map_eq_some_iff.mp found
    cases same
    rw [tokens, found]
    exact .cons (.refl c) (t.append_eq taken) (takes every taken) (.nil (.refl _))
  | seq gap p q ihp ihq =>
    obtain ⟨m, first, follows⟩ := Option.bind_eq_some_iff.mp accepted
    obtain ⟨n, second, rfl⟩ := Option.map_eq_some_iff.mp follows
    rw [tokens_seq first]
    exact (ihp every.1 first).append ((ihq every.2 second).of_reaches (gap.reaches_skip m.next))
  | choice p q ihp ihq =>
    rw [accept?] at accepted
    split at accepted
    · next found =>
      cases accepted
      rw [tokens_choice found]
      exact ihp every.1 found
    · next refused =>
      rw [tokens_choice_of_none refused]
      exact ihq every.2 accepted
  | optional p ih =>
    rw [accept?] at accepted
    split at accepted
    · next found =>
      cases accepted
      rw [tokens_optional found]
      exact ih every found
    · next refused =>
      cases accepted
      rw [tokens_optional_of_none refused]
      exact .nil (.refl c)
  | many p ih =>
    rw [accept?] at accepted
    split at accepted
    · next m found =>
      cases accepted
      rw [tokens_many found]
      exact (ih every found).append (laid_further (fun found => ih every found) _ _)
    · next refused =>
      cases accepted
      rw [tokens_many_of_none refused]
      exact .nil (.refl c)
  | ahead p ih =>
    obtain ⟨_, _, rfl⟩ := Option.map_eq_some_iff.mp accepted
    exact .nil (.refl c)
  | map f p ih =>
    obtain ⟨n, found, rfl⟩ := Option.map_eq_some_iff.mp accepted
    exact ih every found
  | phrase name p ih =>
    obtain ⟨n, found, rfl⟩ := Option.map_eq_some_iff.mp accepted
    exact ih every found

end Places

end Grammar

end KeyIntrospection
