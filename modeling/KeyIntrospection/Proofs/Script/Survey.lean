import KeyIntrospection.Proofs.Script.Traversal

/-!
Surveys of the regions of a script. What is known of names and literals, and goes from parts that stand one after
the other to the whole, is known of what each rule reads.
-/

namespace KeyIntrospection.Script

/-- What is said of the regions between two cursors. -/
structure Survey where
  holds : Cursor → Cursor → List Region → Prop
  nil : ∀ c, holds c c []
  append : ∀ {c d e l l'}, holds c d l → holds d e l' → holds c e (l ++ l')
  blanks : ∀ c : Cursor, holds c c.skipBlanks []

namespace Survey

/-- It is true of the regions of what a rule gives, between the cursors where the rule was read. -/
def Finds {α : Type} (S : Survey) (p : Rule α) (regions : α → List Region) : Prop :=
  ∀ ⦃c : Cursor⦄ ⦃m : Match LiteralFault α⦄ ⦃x : α⦄, p.accept? c = some m → m.value = .ok x →
    S.holds c m.next (regions x)

namespace Finds

open Grammar

variable {S : Survey} {α β : Type} {f : α → List Region} {g : β → List Region} {p : Rule α} {q : Rule β}

theorem congr {f' : α → List Region} (inner : S.Finds p f) (same : ∀ x, f x = f' x) : S.Finds p f' :=
  fun _ _ x accepted value => same x ▸ inner accepted value

theorem seq {gap : Gap} (first : S.Finds p f) (second : S.Finds q g) :
    S.Finds (Grammar.seq gap p q) fun x => f x.1 ++ g x.2 := by
  intro c k x accepted value
  obtain ⟨m, acceptedFirst, accepted⟩ := Option.bind_eq_some_iff.mp accepted
  obtain ⟨n, acceptedSecond, rfl⟩ := Option.map_eq_some_iff.mp accepted
  obtain ⟨valueFirst, valueSecond⟩ := Match.value_pair_eq_ok.mp value
  have skipped : S.holds m.next (gap.skip m.next) [] := by
    cases gap with
    | blanks => exact S.blanks m.next
    | nothing => exact S.nil m.next
  exact S.append (first acceptedFirst valueFirst) (S.append skipped (second acceptedSecond valueSecond))

/-- After a part without regions. -/
theorem before {gap : Gap} (silent : S.Finds p fun _ => []) (second : S.Finds q g) :
    S.Finds (Grammar.seq gap p q) fun x => g x.2 :=
  silent.seq second

theorem choice {p' : Rule α} (first : S.Finds p f) (second : S.Finds p' f) : S.Finds (.choice p p') f := by
  intro c k x accepted value
  rw [Grammar.accept?] at accepted
  split at accepted
  · next found =>
    cases accepted
    exact first found value
  · exact second accepted value

theorem map {h : α → β} (inner : S.Finds p fun x => g (h x)) : S.Finds (.map h p) g := by
  intro c k x accepted value
  obtain ⟨m, found, rfl⟩ := Option.map_eq_some_iff.mp accepted
  obtain ⟨y, valueInside, rfl⟩ := Match.value_map_eq_ok.mp value
  exact inner found valueInside

/-- The regions in a phrase. -/
theorem inside {name : Phrase} (inner : S.Finds p f) : S.Finds (Grammar.phrase name p) fun x => f x.value := by
  intro c k x accepted value
  obtain ⟨m, found, rfl⟩ := Option.map_eq_some_iff.mp accepted
  obtain ⟨y, valueInside, rfl⟩ := Match.value_map_eq_ok.mp value
  exact inner found valueInside

theorem optional (inner : S.Finds p f) : S.Finds (.optional p) fun x => x.toList.flatMap f := by
  intro c k x accepted value
  rw [Grammar.accept?] at accepted
  split at accepted
  · next m found =>
    cases accepted
    obtain ⟨y, valueInside, rfl⟩ := Match.value_map_eq_ok.mp value
    exact S.append (inner found valueInside) (S.nil m.next)
  · cases accepted
    cases value
    exact S.nil c

/-- The regions of the first value and those of the further ones. -/
theorem of_cons {c : Cursor} {m : Match LiteralFault α} {n : Match LiteralFault (List α)} {l : List α}
    (value : (m.cons n).value = .ok l) (first : ∀ x, m.value = .ok x → S.holds c m.next (f x))
    (others : ∀ l, n.value = .ok l → S.holds m.next n.next (l.flatMap f)) :
    S.holds c (m.cons n).next (l.flatMap f) := by
  obtain ⟨x, rest, valueFirst, valueOthers, rfl⟩ := Match.value_cons_eq_ok.mp value
  exact S.append (first x valueFirst) (others rest valueOthers)

theorem further (inner : S.Finds p f) (bound : List Char) {c : Cursor} {l : List α}
    (value : (Grammar.further p.accept? bound c).value = .ok l) :
    S.holds c (Grammar.further p.accept? bound c).next (l.flatMap f) := by
  induction bound generalizing c l with
  | nil =>
    cases value
    exact S.nil c
  | cons b bound ih =>
    rw [Grammar.further] at value ⊢
    split at value
    · cases value
      exact S.nil c
    · next m found =>
      split at value
      · next later =>
        rw [if_pos later]
        exact of_cons value (fun x value => S.append (S.blanks c) (inner found value)) fun l => ih
      · next later =>
        cases value
        rw [if_neg later]
        exact S.nil c

theorem many (inner : S.Finds p f) : S.Finds (.many p) fun l => l.flatMap f := by
  intro c k l accepted value
  rw [Grammar.accept?] at accepted
  split at accepted
  · next m found =>
    cases accepted
    exact of_cons value (fun x => inner found) fun l => further inner _
  · cases accepted
    cases value
    exact S.nil c

theorem ahead : S.Finds (.ahead p) fun _ => [] := by
  intro c k x accepted _
  obtain ⟨m, _, rfl⟩ := Option.map_eq_some_iff.mp accepted
  exact S.nil c

end Finds

/-- It is true of the tokens of scripts, and of a phrase if it is of the parts. -/
structure OfScripts (S : Survey) : Prop where
  plain : ∀ {t : Token}, t.Plain → S.Finds (.plain t) fun _ => []
  silent : ∀ {p : Phrase} {t : Token}, t.Plain → S.Finds (.token p t fun _ => .ok ()) fun _ => []
  name : ∀ {p : Phrase} {t : Token}, t.Bare → (∀ {s x r}, t.take? s = some (x, r) → x ≠ []) →
    S.Finds (Rule.name p t) fun n => [nameAt n]
  symbol : S.Finds Rule.symbol fun n => [symbolAt n]
  string : S.Finds Rule.string fun s => [literalAt (s.map .string)]
  integer : S.Finds (.token .integer Word.integer fun x => (readInteger x).map (⟨.int ·, x.span⟩))
    fun l => [literalAt l]
  float : S.Finds (.token .float Word.float fun x => .ok ⟨.float (readFloat x), x.span⟩) fun l => [literalAt l]
  phrase : ∀ {α : Type} {p : Phrase} {parts : Rule α} {f : α → List Region}, parts.Consumes → S.Finds parts f →
    S.Finds (Grammar.phrase p parts) fun x => [phraseAt f x]
  /-- A region that another one fills. -/
  around : ∀ {c d : Cursor} {r : Region}, S.holds c d [r] → S.holds c d [.node r.span .other [r]]

end Survey

namespace Survey.OfScripts

variable {S : Survey} (words : S.OfScripts)

include words

theorem named {p : Phrase} {t : Token} {kind : String → Bool} (bare : t.Bare) (solid : kind "" = false)
    (takes : ∀ {s x r : List Char}, t.take? s = some (x, r) → kind (.ofList x)) :
    S.Finds (Rule.name p t) fun n => [nameAt n] := by
  refine words.name bare fun found empty => ?_
  have name := takes found
  rw [empty, show kind (.ofList []) = false from solid] at name
  cases name

/-- The rules of scripts are gone through with what is said between cursors. -/
def traversal : Traversal where
  Finds := S.Finds
  congr := .congr
  seq := .seq
  choice := .choice
  map := .map
  inside := .inside
  optional := .optional
  many := .many
  ahead accepted value := Finds.ahead accepted value
  plain := words.plain
  endOfInput := words.silent Token.plain_endOfText
  keyword k := words.silent (Word.bare_keyword k).plain
  variableName := words.named Word.bare_variableName rfl Word.isVariableName_of_take?
  className := words.named Word.bare_className rfl Word.isClassName_of_take?
  attributeName := words.named Word.bare_attributeName rfl Word.isAttributeName_of_take?
  accessorName := words.named Word.bare_accessorName rfl Word.isAccessorName_of_take?
  symbol := words.symbol
  string := words.string
  integer := words.integer
  float := words.float
  phrase := words.phrase
  around inner _ _ _ accepted value := words.around (inner accepted value)

/-- What is true of names and literals is true of scripts. -/
theorem script : S.Finds Rule.script fun l => l.value.map (phraseAt Statement.regions) := words.traversal.script

end Survey.OfScripts

end KeyIntrospection.Script
