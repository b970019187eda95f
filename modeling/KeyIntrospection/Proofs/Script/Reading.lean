import KeyIntrospection.Proofs.Script.Single

/-!
Words with single spaces between them, read by the rules of the grammar. A rule reads the words of a
value when it accepts them before whatever may follow, gives the value and goes on to the next word.
Some rules, which may take more than they are given, want to know the character that follows.
-/

namespace KeyIntrospection

theorem afterBlanks_append_of_isSpace {s : List Char} (spaces : ∀ c ∈ s, isSpace c) (e : List Char) :
    afterBlanks (s ++ e) = afterBlanks e := by
  simp only [afterBlanks, List.dropWhile_append_of_pos spaces]

end KeyIntrospection

namespace KeyIntrospection.Script

open KeyIntrospection.Alignment (Natural)

/-- A word that begins with neither a blank nor a comment. -/
def Visible (w : String) : Prop := ∃ c s, w.toList = c :: s ∧ isBoundary c = false

/-- Words, each after a space, and what follows them. -/
def lay (ws : List String) (e : List Char) : List Char := ws.foldr (fun w r => ' ' :: (w.toList ++ r)) e

/-- The first character of words, or the one that follows if there are none. -/
def ahead (ws : List String) (next : Option Char) : Option Char :=
  match ws with
  | [] => next
  | w :: _ => w.toList.head?

theorem lay_append (ws us : List String) (e : List Char) : lay (ws ++ us) e = lay ws (lay us e) :=
  List.foldr_append

theorem atBoundary_lay {e : List Char} (boundary : AtBoundary e) (ws : List String) : AtBoundary (lay ws e) := by
  cases ws with
  | nil => exact boundary
  | cons w ws =>
    intro c head
    cases head
    decide

theorem settled_of_visible {w : String} (visible : Visible w) (r : List Char) : Settled (w.toList ++ r) := by
  obtain ⟨c, s, split, solid⟩ := visible
  rw [split]
  exact settled_cons solid (s ++ r)

theorem afterBlanks_lay {w : String} (visible : Visible w) (ws : List String) (e : List Char) :
    afterBlanks (lay (w :: ws) e) = w.toList ++ lay ws e := by
  have settled := settled_of_visible visible (lay ws e)
  have space : afterBlanks (' ' :: (w.toList ++ lay ws e)) = afterBlanks (w.toList ++ lay ws e) := by
    simp [afterBlanks, isSpace]
  exact space.trans settled

theorem head?_afterBlanks_lay {ws : List String} (visible : ∀ w ∈ ws, Visible w) (e : List Char) :
    (afterBlanks (lay ws e)).head? = ahead ws (afterBlanks e).head? := by
  cases ws with
  | nil => rfl
  | cons w ws =>
    have first := visible w List.mem_cons_self
    rw [afterBlanks_lay first]
    obtain ⟨c, s, split, _⟩ := first
    simp [ahead, split]

/-- The rule reads the words as the value, up to places, where a character stands next that is allowed to
follow. -/
structure Reads {α : Type} [Placed α] (p : Rule α) (ws : List String) (x : α) (follow : Option Char → Prop) :
    Prop where
  visible : ∀ w ∈ ws, Visible w
  accept : ∀ ⦃c : Cursor⦄ ⦃e : List Char⦄, AtBoundary e → c.rest = afterBlanks (lay ws e) →
    follow (afterBlanks e).head? →
      ∃ v next, p.accept? c = some ⟨.ok v, next⟩ ∧ Alike v x ∧ afterBlanks next.rest = afterBlanks e

/-- The rule is refused where the words stand. -/
def Refused {α : Type} (p : Rule α) (ws : List String) (follow : Option Char → Prop) : Prop :=
  ∀ ⦃c : Cursor⦄ ⦃e : List Char⦄, AtBoundary e → c.rest = afterBlanks (lay ws e) → follow (afterBlanks e).head? →
    p.accept? c = none

/-- Any character may follow. -/
def anything (_ : Option Char) : Prop := True

/-- Any character but one may follow. -/
def except (c : Char) (h : Option Char) : Prop := h ≠ some c

theorem alike_pair {α β : Type} [Placed α] [Placed β] {v x : α} {w y : β} (first : Alike v x)
    (second : Alike w y) : Alike (v, w) (x, y) := by
  show (_, _) = (_, _)
  rw [show move (fun _ => 0) v = _ from first, show move (fun _ => 0) w = _ from second]

theorem alike_cons {α : Type} [Placed α] {v x : α} {vs xs : List α} (first : Alike v x) (others : Alike vs xs) :
    Alike (v :: vs) (x :: xs) := by
  show _ :: _ = _ :: _
  rw [show move (fun _ => 0) v = _ from first]
  exact congrArg _ others

theorem alike_of_natural {α β : Type} [Placed α] [Placed β] {f : α → β} (natural : Natural f) {v x : α}
    (alike : Alike v x) : Alike (f v) (f x) := by
  rw [Alike, natural, natural, show move (fun _ => 0) v = _ from alike]

theorem alike_located {α : Type} [Placed α] {v x : α} (alike : Alike v x) (s t : Span) :
    Alike (⟨v, s⟩ : Located α) ⟨x, t⟩ := by
  show Located.mk _ _ = Located.mk _ _
  rw [show move (fun _ => 0) v = _ from alike]
  rfl

/-- The rule gives the value at the cursor, up to places, and what it leaves has the property. -/
def Gives {α : Type} [Placed α] (p : Rule α) (c : Cursor) (x : α) (left : List Char → Prop) : Prop :=
  ∃ v next, p.accept? c = some ⟨.ok v, next⟩ ∧ Alike v x ∧ left next.rest

/-- So do the items of a repetition. -/
def GivesItems {α : Type} [Placed α] (p : Rule α) (c : Cursor) (l : List α) (left : List Char → Prop) : Prop :=
  ∃ vs next, Grammar.items p.accept? c = ⟨.ok vs, next⟩ ∧ Alike vs l ∧ left next.rest

section Gives

variable {α β : Type} [Placed α] [Placed β] {p : Rule α} {q : Rule β} {c : Cursor} {x : α} {y : β} {l : List α}
  {between left : List Char → Prop}

namespace Gives

theorem map {h : α → β} (inner : Gives p c x left) (natural : Natural h) : Gives (.map h p) c (h x) left := by
  obtain ⟨v, n, accepted, alike, rest⟩ := inner
  refine ⟨h v, n, ?_, alike_of_natural natural alike, rest⟩
  simp only [Grammar.accept?, accepted, Option.map_some]
  rfl

theorem located {name : Phrase} (inner : Gives p c x left) (span : Span) :
    Gives (Grammar.phrase name p) c ⟨x, span⟩ left := by
  obtain ⟨v, n, accepted, alike, rest⟩ := inner
  refine ⟨⟨v, c.offset, n.offset⟩, n, ?_, alike_located alike _ _, rest⟩
  simp only [Grammar.accept?, accepted, Option.map_some]
  rfl

theorem seq (first : Gives p c x between) (second : ∀ d : Cursor, between d.rest → Gives q d.skipBlanks y left) :
    Gives (Rule.seq p q) c (x, y) left := by
  obtain ⟨v, m, accepted, alike, rest⟩ := first
  obtain ⟨w, n, accepted', alike', rest'⟩ := second m rest
  refine ⟨(v, w), n, ?_, alike_pair alike alike', rest'⟩
  simp only [Rule.seq, Grammar.accept?, accepted, Option.bind_some, Gap.skip, accepted', Option.map_some]
  rfl

theorem optional_some (inner : Gives p c x left) : Gives (.optional p) c (some x) left := by
  obtain ⟨v, n, accepted, alike, rest⟩ := inner
  refine ⟨some v, n, ?_, congrArg some alike, rest⟩
  simp only [Grammar.accept?, accepted]
  rfl

theorem optional_none (refused : p.accept? c = none) (rest : left c.rest) : Gives (.optional p) c none left :=
  ⟨none, c, by simp only [Grammar.accept?, refused], rfl, rest⟩

theorem many (items : GivesItems p c l left) (consumes : p.Consumes) (settled : Settled c.rest) :
    Gives (.many p) c l left := by
  obtain ⟨vs, n, found, alike, rest⟩ := items
  exact ⟨vs, n, by rw [Grammar.accept?_many_of_settled consumes settled, found], alike, rest⟩

end Gives

namespace GivesItems

theorem nil (refused : p.accept? c.skipBlanks = none) (rest : left c.rest) : GivesItems p c [] left :=
  ⟨[], c, Grammar.items_of_none refused, rfl, rest⟩

theorem cons (consumes : p.Consumes) (first : Gives p c.skipBlanks x between)
    (others : ∀ d : Cursor, between d.rest → GivesItems p d l left) : GivesItems p c (x :: l) left := by
  obtain ⟨v, m, accepted, alike, rest⟩ := first
  obtain ⟨vs, n, found, alike', rest'⟩ := others m rest
  refine ⟨v :: vs, n, ?_, alike_cons alike alike', rest'⟩
  rw [Grammar.items_of_some consumes accepted, found]
  rfl

end GivesItems

end Gives

namespace Reads

variable {α β : Type} [Placed α] [Placed β] {p : Rule α} {q : Rule β} {ws us : List String} {x : α} {y : β}
  {f g : Option Char → Prop}

theorem mono (inner : Reads p ws x f) (weaker : ∀ h, g h → f h) : Reads p ws x g :=
  ⟨inner.visible, fun _ _ boundary rest follow => inner.accept boundary rest (weaker _ follow)⟩

theorem gives (inner : Reads p ws x f) {c : Cursor} {e : List Char} (boundary : AtBoundary e)
    (rest : c.rest = afterBlanks (lay ws e)) (follow : f (afterBlanks e).head?) :
    Gives p c x fun rest => afterBlanks rest = afterBlanks e := inner.accept boundary rest follow

theorem of_alike (inner : Reads p ws x f) {z : α} (same : Alike x z) : Reads p ws z f := by
  refine ⟨inner.visible, fun c e boundary rest follow => ?_⟩
  obtain ⟨v, n, accepted, alike, rest'⟩ := inner.accept boundary rest follow
  exact ⟨v, n, accepted, alike.trans same, rest'⟩

theorem seq (first : Reads p ws x f) (second : Reads q us y g) (follows : ∀ h, g h → f (ahead us h)) :
    Reads (Rule.seq p q) (ws ++ us) (x, y) g := by
  refine ⟨fun w mem => (List.mem_append.mp mem).elim (first.visible w) (second.visible w), ?_⟩
  intro c e boundary rest follow
  rw [lay_append] at rest
  have next := follows _ follow
  rw [← head?_afterBlanks_lay second.visible] at next
  exact (first.gives (atBoundary_lay boundary us) rest next).seq fun _ rest' => second.gives boundary rest' follow

/-- After the first rule anything may follow. -/
theorem before (first : Reads p ws x anything) (second : Reads q us y g) :
    Reads (Rule.seq p q) (ws ++ us) (x, y) g := first.seq second fun _ _ => trivial

/-- One word after another is a word of its own, whatever blanks there are between the two. -/
theorem joined {v w : String} {b : List Char} (first : Reads p [v] x anything) (second : Reads q (w :: us) y g)
    (nonempty : b ≠ []) (spaces : ∀ c ∈ b, isSpace c) :
    Reads (Rule.seq p q) (.ofList (v.toList ++ b ++ w.toList) :: us) (x, y) g := by
  have seen := second.visible w List.mem_cons_self
  have whole : Visible (.ofList (v.toList ++ b ++ w.toList)) := by
    obtain ⟨d, s, split, solid⟩ := first.visible v List.mem_cons_self
    exact ⟨d, s ++ b ++ w.toList, by simp [split], solid⟩
  refine ⟨List.forall_mem_cons.mpr ⟨whole, fun u mem => second.visible u (List.mem_cons_of_mem w mem)⟩, ?_⟩
  intro c e boundary rest follow
  have split : afterBlanks (lay (.ofList (v.toList ++ b ++ w.toList) :: us) e) =
      afterBlanks (lay [v] (b ++ (w.toList ++ lay us e))) := by
    rw [afterBlanks_lay whole, afterBlanks_lay (first.visible v List.mem_cons_self)]
    simp [lay]
  have between : AtBoundary (b ++ (w.toList ++ lay us e)) := by
    obtain ⟨d, s, rfl⟩ := List.exists_cons_of_ne_nil nonempty
    intro k head
    cases head
    exact isBoundary_of_isSpace (spaces d List.mem_cons_self)
  refine (first.gives between (rest.trans split) trivial).seq fun d rest' => second.gives boundary ?_ follow
  rw [afterBlanks_lay seen]
  exact rest'.trans ((afterBlanks_append_of_isSpace spaces _).trans (settled_of_visible seen _))

theorem choice_left {q : Rule α} (first : Reads p ws x f) : Reads (.choice p q) ws x f := by
  refine ⟨first.visible, fun c e boundary rest follow => ?_⟩
  obtain ⟨v, n, accepted, alike, rest'⟩ := first.accept boundary rest follow
  exact ⟨v, n, by simp only [Grammar.accept?, accepted], alike, rest'⟩

theorem choice_right {q : Rule α} (second : Reads q ws x f) (refused : Refused p ws f) :
    Reads (.choice p q) ws x f := by
  refine ⟨second.visible, fun c e boundary rest follow => ?_⟩
  obtain ⟨v, n, accepted, alike, rest'⟩ := second.accept boundary rest follow
  exact ⟨v, n, by simp only [Grammar.accept?, refused boundary rest follow, accepted], alike, rest'⟩

/-- Where one rule reads words, a rule that begins otherwise is refused. -/
theorem refused {γ : Type} {p : Rule γ} (second : Reads q us y g) (apart : p.Apart q) : Refused p us g := by
  intro c e boundary rest follow
  obtain ⟨w, n, accepted, _⟩ := second.accept boundary rest follow
  have settled : Settled c.rest := by
    rw [rest]
    exact settled_afterBlanks _
  exact (apart settled accepted).accept?_eq_none

theorem map {h : α → β} (inner : Reads p ws x f) (natural : Natural h) : Reads (.map h p) ws (h x) f :=
  ⟨inner.visible, fun _ _ boundary rest follow => (inner.gives boundary rest follow).map natural⟩

theorem located {name : Phrase} (inner : Reads p ws x f) (span : Span) :
    Reads (Grammar.phrase name p) ws ⟨x, span⟩ f :=
  ⟨inner.visible, fun _ _ boundary rest follow => (inner.gives boundary rest follow).located span⟩

theorem phrase {name : Phrase} {h : α → β} (inner : Reads p ws x f) (natural : Natural h) (span : Span) :
    Reads (Rule.phrase name p h) ws ⟨h x, span⟩ f :=
  map (inner.located span) natural.located

theorem either {name : Phrase} (inner : Reads p ws x f) : Reads (Rule.either name p) ws x f :=
  map (inner.located ⟨0, 0⟩) fun _ _ => rfl

theorem optional_some (inner : Reads p ws x f) : Reads (.optional p) ws (some x) f :=
  ⟨inner.visible, fun _ _ boundary rest follow => (inner.gives boundary rest follow).optional_some⟩

theorem optional_none (refused : ∀ ⦃c : Cursor⦄, Settled c.rest → f c.rest.head? → p.accept? c = none) :
    Reads (.optional p) [] none f := by
  refine ⟨List.forall_mem_nil _, fun c e boundary rest follow => ?_⟩
  have here : c.rest = afterBlanks e := rest
  have absent := refused (c := c) (by rw [here]; exact settled_afterBlanks e) (by rw [here]; exact follow)
  have none : Gives (.optional p) c none fun rest => afterBlanks rest = afterBlanks e := by
    refine .optional_none absent ?_
    rw [here]
    exact settled_afterBlanks e
  exact none

/-- The items of a repetition, read one after the other up to a character at which there is no further
one. -/
theorem items {words : α → List String} (consumes : p.Consumes) {l : List α}
    (inner : ∀ x ∈ l, Reads p (words x) x f) (starts : ∀ x ∈ l, ∃ w us, words x = w :: us ∧ f w.toList.head?)
    (follows : ∀ h, g h → f h) (refused : ∀ ⦃c : Cursor⦄, Settled c.rest → g c.rest.head? → p.accept? c = none)
    {c : Cursor} {e : List Char} (boundary : AtBoundary e)
    (rest : afterBlanks c.rest = afterBlanks (lay (l.flatMap words) e)) (follow : g (afterBlanks e).head?) :
    GivesItems p c l fun rest => afterBlanks rest = afterBlanks e := by
  induction l generalizing c with
  | nil =>
    have here : c.skipBlanks.rest = afterBlanks e := rest
    exact .nil (refused c.settled_skipBlanks (by rw [here]; exact follow)) rest
  | cons x l ih =>
    have others : ∀ w ∈ l.flatMap words, Visible w := fun w mem => by
      obtain ⟨y, mem, inside⟩ := List.mem_flatMap.mp mem
      exact (inner y (List.mem_cons_of_mem x mem)).visible w inside
    have next : f (afterBlanks (lay (l.flatMap words) e)).head? := by
      rw [head?_afterBlanks_lay others]
      cases l with
      | nil => exact follows _ follow
      | cons y l =>
        obtain ⟨w, us, split, start⟩ := starts y (List.mem_cons_of_mem x List.mem_cons_self)
        rw [List.flatMap_cons, split]
        exact start
    rw [List.flatMap_cons, lay_append] at rest
    have first := (inner x List.mem_cons_self).gives (c := c.skipBlanks) (atBoundary_lay boundary _) rest next
    exact .cons consumes first fun d rest' => ih (fun y mem => inner y (List.mem_cons_of_mem x mem))
      (fun y mem => starts y (List.mem_cons_of_mem x mem)) rest'

theorem many {words : α → List String} (consumes : p.Consumes) {l : List α}
    (inner : ∀ x ∈ l, Reads p (words x) x f) (starts : ∀ x ∈ l, ∃ w us, words x = w :: us ∧ f w.toList.head?)
    (follows : ∀ h, g h → f h) (refused : ∀ ⦃c : Cursor⦄, Settled c.rest → g c.rest.head? → p.accept? c = none) :
    Reads (.many p) (l.flatMap words) l g := by
  refine ⟨fun w mem => ?_, fun c e boundary rest follow => ?_⟩
  · obtain ⟨y, mem, inside⟩ := List.mem_flatMap.mp mem
    exact (inner y mem).visible w inside
  · have settled : Settled c.rest := by
      rw [rest]
      exact settled_afterBlanks _
    exact Gives.many (items consumes inner starts follows refused boundary (settled.trans rest) follow) consumes settled

theorem token {name : Phrase} {t : Token} {read : Located (List Char) → Except LiteralFault α} {w : String}
    (visible : Visible w) (takes : ∀ ⦃e : List Char⦄, AtBoundary e → t.take? (w.toList ++ e) = some (w.toList, e))
    (reads : ∀ span, ∃ v, read ⟨w.toList, span⟩ = .ok v ∧ Alike v x) :
    Reads (.token name t read) [w] x anything := by
  refine ⟨fun u mem => by rwa [List.mem_singleton.mp mem], fun c e boundary rest _ => ?_⟩
  rw [afterBlanks_lay visible] at rest
  obtain ⟨v, value, alike⟩ := reads ⟨c.offset, (c.advance w.toList e).offset⟩
  refine ⟨v, c.advance w.toList e, ?_, alike, rfl⟩
  have found : t.take? c.rest = some (w.toList, e) := by
    rw [rest]
    exact takes boundary
  simp only [Grammar.accept?, Token.read?, found, Option.map_some, value]

theorem plain {t : Token} {w : String} (visible : Visible w)
    (takes : ∀ ⦃e : List Char⦄, AtBoundary e → t.take? (w.toList ++ e) = some (w.toList, e)) :
    Reads (.plain t : Rule Unit) [w] () anything := by
  refine ⟨fun u mem => by rwa [List.mem_singleton.mp mem], fun c e boundary rest _ => ?_⟩
  rw [afterBlanks_lay visible] at rest
  refine ⟨(), c.advance w.toList e, ?_, rfl, rfl⟩
  have found : t.take? c.rest = some (w.toList, e) := by
    rw [rest]
    exact takes boundary
  simp only [Grammar.accept?, Token.read?, found, Option.map_some]

end Reads

end KeyIntrospection.Script
