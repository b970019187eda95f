import KeyIntrospection.Proofs.Decimal.Characters
import KeyIntrospection.Proofs.Script.Phrases
import KeyIntrospection.Script.SExpr
import Mathlib.Data.List.Forall2

/-!
The form of a statement, which is its s-expression on one line, tells what the statement is. A head says
which kind it has, and its names and literals stand at fixed places. Only floats can be written alike and
differ.
-/

namespace KeyIntrospection.Script

open Text (SExpr)

section Agreement

/-- The same literal, where floats are compared by their text. -/
def Literal.Agrees : Literal → Literal → Prop
  | float x, float y => x.literalText = y.literalText
  | l, l' => l = l'

def HashEntry.Agrees (e e' : HashEntry) : Prop := e.key.value = e'.key.value ∧ e.value.value.Agrees e'.value.value

def AttributeInit.Agrees (a a' : AttributeInit) : Prop :=
  a.name.value = a'.name.value ∧ a.value.value.Agrees a'.value.value

def Expression.Agrees : Expression → Expression → Prop
  | hash entries, hash entries' => List.Forall₂ HashEntry.Agrees entries.value entries'.value
  | descriptor properties, descriptor properties' => List.Forall₂ HashEntry.Agrees properties.value properties'.value
  | new className attributes, new className' attributes' =>
    className.value = className'.value ∧ List.Forall₂ AttributeInit.Agrees attributes attributes'
  | literal l, literal l' => l.value.Agrees l'.value
  | _, _ => False

def AccessorDeclaration.Agrees (d d' : AccessorDeclaration) : Prop :=
  d.kind = d'.kind ∧ d.names.map Located.value = d'.names.map Located.value

def Query.Agrees : Query → Query → Prop
  | keyInfo object key, keyInfo object' key' => object.value = object'.value ∧ key.value.Agrees key'.value
  | keys object withInternal, keys object' withInternal' => object.value = object'.value ∧ withInternal = withInternal'
  | read object key, read object' key' => object.value = object'.value ∧ key.value.Agrees key'.value
  | _, _ => False

def Matcher.Agrees : Matcher → Matcher → Prop
  | equalsSymbols symbols, equalsSymbols symbols' => symbols.map Located.value = symbols'.map Located.value
  | equals l, equals l' => l.value.Agrees l'.value
  | includes symbol, includes symbol' => symbol.value = symbol'.value
  | excludes symbol, excludes symbol' => symbol.value = symbol'.value
  | isEmpty, isEmpty => True
  | _, _ => False

/-- The same statement up to places, where floats are compared by their text. -/
def Statement.Agrees : Statement → Statement → Prop
  | assign name e, assign name' e' => name.value = name'.value ∧ e.value.Agrees e'.value
  | defineClass name accessors, defineClass name' accessors' =>
    name.value = name'.value ∧ List.Forall₂ (fun d d' => d.value.Agrees d'.value) accessors accessors'
  | setAttribute object name value, setAttribute object' name' value' =>
    object.value = object'.value ∧ name.value = name'.value ∧ value.value.Agrees value'.value
  | freeze object, freeze object' => object.value = object'.value
  | query q, query q' => q.value.Agrees q'.value
  | expect q m, expect q' m' => q.value.Agrees q'.value ∧ m.Agrees m'
  | _, _ => False

end Agreement

section Forms

def AttributeInit.toSExpr (a : AttributeInit) : SExpr := .line [.atom a.name.value, a.value.value.toSExpr]

/-- An expression on one line. -/
def Expression.form : Expression → SExpr
  | hash entries => .line (.atom "hash" :: entries.value.map HashEntry.toSExpr)
  | descriptor properties => .line (.atom "meta" :: properties.value.map HashEntry.toSExpr)
  | new className attributes =>
    .line (.atom "new" :: .atom className.value :: attributes.map AttributeInit.toSExpr)
  | literal l => l.value.toSExpr

/-- A statement on one line. -/
def Statement.form : Statement → SExpr
  | assign name e => .line [.atom "assign", .atom name.value, e.value.form]
  | defineClass name accessors => .line (.atom "class" :: .atom name.value :: accessors.map (·.value.toSExpr))
  | setAttribute object name value =>
    .line [.atom "set", .atom object.value, .atom name.value, value.value.toSExpr]
  | freeze object => .line [.atom "freeze", .atom object.value]
  | query q => q.value.toSExpr
  | expect q m => .line [.atom "expect", q.value.toSExpr, m.toSExpr]

end Forms

section Literals

/-- The literal that is written as an expression, if it is no float. -/
def Literal.ofSExpr? : SExpr → Option Literal
  | .atom text =>
    if text = "nil" then some nil
    else if text = "true" then some (bool true)
    else if text = "false" then some (bool false)
    else if text.toList.head? = some ':' then some (symbol (.ofList text.toList.tail))
    else if text.toList.all isIntegral then some (int (integerValue text.toList))
    else none
  | .quoted text => some (string text)
  | _ => none

/-- A number is none of the words that stand for other literals. -/
theorem ne_of_isNumeral {text word : String} (numeral : ∀ c ∈ text.toList, isNumeral c)
    (other : word.toList.all isNumeral = false) : text ≠ word := by
  rintro rfl
  rw [List.all_eq_true.mpr numeral] at other
  cases other

theorem Literal.ofSExpr?_number {text : String} (numeral : ∀ c ∈ text.toList, isNumeral c) :
    ofSExpr? (.atom text) = if text.toList.all isIntegral then some (int (integerValue text.toList)) else none := by
  have unsigned : text.toList.head? ≠ some ':' := fun head => by
    have colon := numeral _ (List.mem_of_head? head)
    exact absurd colon (by decide)
  have apart : text ≠ "nil" ∧ text ≠ "true" ∧ text ≠ "false" :=
    ⟨ne_of_isNumeral numeral (by decide), ne_of_isNumeral numeral (by decide), ne_of_isNumeral numeral (by decide)⟩
  rw [ofSExpr?, if_neg apart.1, if_neg apart.2.1, if_neg apart.2.2, if_neg unsigned]

theorem Literal.ofSExpr?_toSExpr (l : Literal) : ofSExpr? l.toSExpr = if l.isFloat then none else some l := by
  cases l with
  | nil => rfl
  | bool b => cases b <;> rfl
  | int n =>
    have integral := isIntegral_repr n
    have numeral : ∀ c ∈ n.repr.toList, isNumeral c := fun c mem => isNumeral_of_isIntegral (integral c mem)
    rw [toSExpr]
    show ofSExpr? (.atom n.repr) = _
    rw [ofSExpr?_number numeral, if_pos (List.all_eq_true.mpr integral), integerValue_repr]
    rfl
  | float x =>
    obtain ⟨c, mem, other⟩ := x.exists_not_isIntegral
    rw [toSExpr, ofSExpr?_number x.isNumeral_literalText, if_neg fun all => ?_]
    · rfl
    · rw [List.all_eq_true.mp all c mem] at other
      cases other
  | string s => rfl
  | symbol name =>
    have apart {word : String} (other : word.toList.head? ≠ some ':') : ":" ++ name ≠ word := by
      rintro rfl
      exact other (by rw [toList_symbol]; rfl)
    rw [toSExpr, symbolAtom, ofSExpr?, if_neg (apart (by decide)), if_neg (apart (by decide)),
      if_neg (apart (by decide)), toList_symbol, List.head?_cons, if_pos rfl, List.tail_cons, String.ofList_toList]
    rfl

/-- Literals that are written alike agree. -/
theorem Literal.agrees_of_toSExpr_eq {l l' : Literal} (same : l.toSExpr = l'.toSExpr) : l.Agrees l' := by
  have read := congrArg ofSExpr? same
  rw [ofSExpr?_toSExpr, ofSExpr?_toSExpr] at read
  cases l with
  | float x =>
    cases l' with
    | float x' => exact SExpr.atom.inj same
    | _ => cases read
  | _ =>
    cases l' with
    | float x' => cases read
    | _ => exact Option.some.inj read

theorem Literal.toSExpr_ne_line (l : Literal) (items : List SExpr) : l.toSExpr ≠ .line items := by
  cases l with
  | bool b => cases b <;> exact SExpr.noConfusion
  | _ => exact SExpr.noConfusion

theorem Literal.toSExpr_ne_vector (l : Literal) (items : List SExpr) : l.toSExpr ≠ .vector items := by
  cases l with
  | bool b => cases b <;> exact SExpr.noConfusion
  | _ => exact SExpr.noConfusion

theorem KeyLiteral.eq_of_toSExpr_eq {key key' : KeyLiteral} (same : key.toLiteral.toSExpr = key'.toLiteral.toSExpr) :
    key = key' := by
  have read := congrArg Literal.ofSExpr? same
  rw [Literal.ofSExpr?_toSExpr, Literal.ofSExpr?_toSExpr] at read
  cases key <;> cases key' <;> cases read <;> rfl

end Literals

section Injectivity

/-- Lists that are written alike agree item by item. -/
theorem forall₂_of_map_eq {α β : Type} {f : α → β} {R : α → α → Prop} (item : ∀ {a b : α}, f a = f b → R a b)
    {l l' : List α} (same : l.map f = l'.map f) : List.Forall₂ R l l' := by
  have written : List.Forall₂ (fun a b => f a = f b) l l' := by
    refine List.forall₂_map_left_iff.mp (List.forall₂_map_right_iff.mp ?_ : List.Forall₂ (fun y b => y = f b) _ _)
    rw [same]
    exact List.forall₂_same.mpr fun _ _ => rfl
  exact written.imp fun _ _ => item

theorem symbolAtom_injective : Function.Injective symbolAtom := by
  intro name name' same
  have text := congrArg String.toList (SExpr.atom.inj same)
  rw [toList_symbol, toList_symbol] at text
  exact String.toList_inj.mp (List.cons.inj text).2

theorem names_eq_of_map_eq {names names' : List Name}
    (same : names.map (fun n => symbolAtom n.value) = names'.map fun n => symbolAtom n.value) :
    names.map Located.value = names'.map Located.value := by
  refine symbolAtom_injective.list_map ?_
  rw [List.map_map, List.map_map]
  exact same

theorem HashEntry.agrees_of_toSExpr_eq {e e' : HashEntry} (same : e.toSExpr = e'.toSExpr) : e.Agrees e' := by
  simp only [toSExpr, SExpr.line.injEq, List.cons.injEq, true_and, and_true] at same
  exact ⟨KeyLiteral.eq_of_toSExpr_eq same.1, Literal.agrees_of_toSExpr_eq same.2⟩

theorem AttributeInit.agrees_of_toSExpr_eq {a a' : AttributeInit} (same : a.toSExpr = a'.toSExpr) : a.Agrees a' := by
  simp only [toSExpr, SExpr.line.injEq, List.cons.injEq, SExpr.atom.injEq, and_true] at same
  exact ⟨same.1, Literal.agrees_of_toSExpr_eq same.2⟩

theorem Expression.agrees_of_form_eq {e e' : Expression} (same : e.form = e'.form) : e.Agrees e' := by
  cases e with
  | hash entries =>
    cases e' with
    | hash entries' => exact forall₂_of_map_eq HashEntry.agrees_of_toSExpr_eq (List.cons.inj (SExpr.line.inj same)).2
    | literal l => exact absurd same.symm (l.value.toSExpr_ne_line _)
    | _ => simp [form] at same
  | descriptor properties =>
    cases e' with
    | descriptor properties' =>
      exact forall₂_of_map_eq HashEntry.agrees_of_toSExpr_eq (List.cons.inj (SExpr.line.inj same)).2
    | literal l => exact absurd same.symm (l.value.toSExpr_ne_line _)
    | _ => simp [form] at same
  | new className attributes =>
    cases e' with
    | new className' attributes' =>
      simp only [form, SExpr.line.injEq, List.cons.injEq, SExpr.atom.injEq, true_and] at same
      exact ⟨same.1, forall₂_of_map_eq AttributeInit.agrees_of_toSExpr_eq same.2⟩
    | literal l => exact absurd same.symm (l.value.toSExpr_ne_line _)
    | _ => simp [form] at same
  | literal l =>
    cases e' with
    | literal l' => exact Literal.agrees_of_toSExpr_eq same
    | _ => exact absurd same (l.value.toSExpr_ne_line _)

theorem AccessorKind.text_injective : Function.Injective text := by
  intro kind kind' same
  cases kind <;> cases kind' <;> first | rfl | exact absurd same (by decide)

theorem AccessorDeclaration.agrees_of_toSExpr_eq {d d' : AccessorDeclaration} (same : d.toSExpr = d'.toSExpr) :
    d.Agrees d' := by
  simp only [toSExpr, SExpr.line.injEq, List.cons.injEq, SExpr.atom.injEq] at same
  exact ⟨AccessorKind.text_injective same.1, names_eq_of_map_eq same.2⟩

/-- The word that a query begins with. -/
def Query.head : Query → String
  | keyInfo _ _ => "key-info"
  | keys _ _ => "keys"
  | read _ _ => "read"

theorem Query.exists_toSExpr (q : Query) : ∃ items, q.toSExpr = .line (.atom q.head :: items) := by
  cases q with
  | keys object withInternal => cases withInternal <;> exact ⟨_, rfl⟩
  | _ => exact ⟨_, rfl⟩

theorem Query.ne_head (q : Query) {word : String} (other : word ∉ ["key-info", "keys", "read"]) : word ≠ q.head := by
  rintro rfl
  cases q <;> simp [head] at other

/-- Lines that are equal begin with one word. -/
theorem head_eq_of_line_eq {form form' : SExpr} {word word' : String}
    (line : ∃ items, form = .line (.atom word :: items)) (line' : ∃ items, form' = .line (.atom word' :: items))
    (same : form = form') : word = word' := by
  obtain ⟨items, rfl⟩ := line
  obtain ⟨items', rfl⟩ := line'
  exact SExpr.atom.inj (List.cons.inj (SExpr.line.inj same)).1

theorem Query.agrees_of_toSExpr_eq {q q' : Query} (same : q.toSExpr = q'.toSExpr) : q.Agrees q' := by
  have head := head_eq_of_line_eq q.exists_toSExpr q'.exists_toSExpr same
  cases q with
  | keyInfo object key =>
    cases q' with
    | keyInfo object' key' =>
      simp only [toSExpr, SExpr.line.injEq, List.cons.injEq, SExpr.atom.injEq, true_and, and_true] at same
      exact ⟨same.1, Literal.agrees_of_toSExpr_eq same.2⟩
    | _ => simp [Query.head] at head
  | keys object withInternal =>
    cases q' with
    | keys object' withInternal' => cases withInternal <;> cases withInternal' <;> simp_all [toSExpr, Agrees]
    | _ => simp [Query.head] at head
  | read object key =>
    cases q' with
    | read object' key' =>
      simp only [toSExpr, SExpr.line.injEq, List.cons.injEq, SExpr.atom.injEq, true_and, and_true] at same
      exact ⟨same.1, Literal.agrees_of_toSExpr_eq same.2⟩
    | _ => simp [Query.head] at head

/-- The word that a matcher begins with. -/
def Matcher.head : Matcher → String
  | equalsSymbols _ | equals _ => "=="
  | includes _ => "includes"
  | excludes _ => "excludes"
  | isEmpty => "is-empty"

theorem Matcher.exists_toSExpr (m : Matcher) : ∃ items, m.toSExpr = .line (.atom m.head :: items) := by
  cases m <;> exact ⟨_, rfl⟩

theorem Matcher.agrees_of_toSExpr_eq {m m' : Matcher} (same : m.toSExpr = m'.toSExpr) : m.Agrees m' := by
  have head := head_eq_of_line_eq m.exists_toSExpr m'.exists_toSExpr same
  cases m with
  | equalsSymbols symbols =>
    cases m' with
    | equalsSymbols symbols' =>
      simp only [toSExpr, SExpr.line.injEq, List.cons.injEq, SExpr.vector.injEq, true_and, and_true] at same
      exact names_eq_of_map_eq same
    | equals l =>
      simp only [toSExpr, SExpr.line.injEq, List.cons.injEq, true_and, and_true] at same
      exact absurd same.symm (l.value.toSExpr_ne_vector _)
    | _ => simp [Matcher.head] at head
  | equals l =>
    cases m' with
    | equals l' =>
      simp only [toSExpr, SExpr.line.injEq, List.cons.injEq, true_and, and_true] at same
      exact Literal.agrees_of_toSExpr_eq same
    | equalsSymbols symbols =>
      simp only [toSExpr, SExpr.line.injEq, List.cons.injEq, true_and, and_true] at same
      exact absurd same (l.value.toSExpr_ne_vector _)
    | _ => simp [Matcher.head] at head
  | includes symbol =>
    cases m' with
    | includes symbol' =>
      simp only [toSExpr, SExpr.line.injEq, List.cons.injEq, true_and, and_true] at same
      exact symbolAtom_injective same
    | _ => simp [Matcher.head] at head
  | excludes symbol =>
    cases m' with
    | excludes symbol' =>
      simp only [toSExpr, SExpr.line.injEq, List.cons.injEq, true_and, and_true] at same
      exact symbolAtom_injective same
    | _ => simp [Matcher.head] at head
  | isEmpty =>
    cases m' with
    | isEmpty => trivial
    | _ => simp [Matcher.head] at head

/-- The word that a statement begins with. -/
def Statement.head : Statement → String
  | assign _ _ => "assign"
  | defineClass _ _ => "class"
  | setAttribute _ _ _ => "set"
  | freeze _ => "freeze"
  | query q => q.value.head
  | expect _ _ => "expect"

theorem Statement.exists_form (s : Statement) : ∃ items, s.form = .line (.atom s.head :: items) := by
  cases s with
  | query q => exact q.value.exists_toSExpr
  | _ => exact ⟨_, rfl⟩

/-- Statements with one form agree. -/
theorem Statement.agrees_of_form_eq {s s' : Statement} (same : s.form = s'.form) : s.Agrees s' := by
  have head := head_eq_of_line_eq s.exists_form s'.exists_form same
  cases s with
  | assign name e =>
    cases s' with
    | assign name' e' =>
      simp only [form, SExpr.line.injEq, List.cons.injEq, SExpr.atom.injEq, true_and, and_true] at same
      exact ⟨same.1, Expression.agrees_of_form_eq same.2⟩
    | query q => exact absurd head (q.value.ne_head (by simp [Statement.head]))
    | _ => simp [Statement.head] at head
  | defineClass name accessors =>
    cases s' with
    | defineClass name' accessors' =>
      simp only [form, SExpr.line.injEq, List.cons.injEq, SExpr.atom.injEq, true_and] at same
      exact ⟨same.1, forall₂_of_map_eq AccessorDeclaration.agrees_of_toSExpr_eq same.2⟩
    | query q => exact absurd head (q.value.ne_head (by simp [Statement.head]))
    | _ => simp [Statement.head] at head
  | setAttribute object name value =>
    cases s' with
    | setAttribute object' name' value' =>
      simp only [form, SExpr.line.injEq, List.cons.injEq, SExpr.atom.injEq, true_and, and_true] at same
      exact ⟨same.1, same.2.1, Literal.agrees_of_toSExpr_eq same.2.2⟩
    | query q => exact absurd head (q.value.ne_head (by simp [Statement.head]))
    | _ => simp [Statement.head] at head
  | freeze object =>
    cases s' with
    | freeze object' =>
      simp only [form, SExpr.line.injEq, List.cons.injEq, SExpr.atom.injEq, true_and, and_true] at same
      exact same
    | query q => exact absurd head (q.value.ne_head (by simp [Statement.head]))
    | _ => simp [Statement.head] at head
  | query q =>
    cases s' with
    | query q' => exact Query.agrees_of_toSExpr_eq same
    | _ => exact absurd head.symm (q.value.ne_head (by simp [Statement.head]))
  | expect q m =>
    cases s' with
    | expect q' m' =>
      simp only [form, SExpr.line.injEq, List.cons.injEq, true_and, and_true] at same
      exact ⟨Query.agrees_of_toSExpr_eq same.1, Matcher.agrees_of_toSExpr_eq same.2⟩
    | query q' => exact absurd head (q'.value.ne_head (by simp [Statement.head]))
    | _ => simp [Statement.head] at head

end Injectivity

end KeyIntrospection.Script
