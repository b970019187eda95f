import KeyIntrospection.Proofs.Script.Forms
import KeyIntrospection.Proofs.Text.Backward

/-!
The s-expression of a script determines the script. Two scripts with one text have the same statements, up
to the places of their parts and to floats that are written alike, whatever their strings hold.
-/

namespace KeyIntrospection.Script

open Text (SExpr isDelimiter)
open Text.SExpr (flat flatAll flatAll_eq_map IsWord Legible LegibleAll legibleAll_iff)

section Flat

theorem Literal.flat_toSExpr (l : Literal) : l.toSExpr.flat = l.toSExpr := by
  cases l with
  | bool b => cases b <;> rfl
  | _ => rfl

theorem flatAll_map_of_flat_eq {α : Type} {f : α → SExpr} (same : ∀ a, (f a).flat = f a) (l : List α) :
    flatAll (l.map f) = l.map f := by
  rw [flatAll_eq_map, List.map_map]
  exact List.map_congr_left fun a _ => same a

theorem HashEntry.flat_toSExpr (e : HashEntry) : e.toSExpr.flat = e.toSExpr := by
  simp [toSExpr, flat, flatAll, Literal.flat_toSExpr]

theorem flat_hashForm (head : String) (entries : List HashEntry) :
    (hashForm head entries).flat = .line (.atom head :: entries.map HashEntry.toSExpr) := by
  rw [hashForm]
  split
  · simp [flat, flatAll, flatAll_map_of_flat_eq HashEntry.flat_toSExpr]
  · simp [flat, flatAll, flatAll_map_of_flat_eq HashEntry.flat_toSExpr]

theorem AttributeInit.flat_toSExpr (a : AttributeInit) : a.toSExpr.flat = a.toSExpr := by
  simp [toSExpr, flat, flatAll, Literal.flat_toSExpr]

theorem Expression.flat_toSExpr (e : Expression) : e.toSExpr.flat = e.form := by
  cases e with
  | hash entries => exact flat_hashForm _ _
  | descriptor properties => exact flat_hashForm _ _
  | new className attributes =>
    have inner := flatAll_map_of_flat_eq AttributeInit.flat_toSExpr attributes
    show SExpr.line (.atom "new" :: .atom className.value :: flatAll (attributes.map AttributeInit.toSExpr)) = _
    rw [inner]
    rfl
  | literal l => exact l.value.flat_toSExpr

theorem AccessorDeclaration.flat_toSExpr (d : AccessorDeclaration) : d.toSExpr.flat = d.toSExpr := by
  have inner := flatAll_map_of_flat_eq (f := fun n : Name => symbolAtom n.value) (fun _ => rfl) d.names
  simp [toSExpr, flat, flatAll, inner]

theorem Query.flat_toSExpr (q : Query) : q.toSExpr.flat = q.toSExpr := by
  cases q with
  | keys object withInternal => cases withInternal <;> rfl
  | _ => simp [toSExpr, flat, flatAll, Literal.flat_toSExpr]

theorem Matcher.flat_toSExpr (m : Matcher) : m.toSExpr.flat = m.toSExpr := by
  cases m with
  | equalsSymbols symbols =>
    have inner := flatAll_map_of_flat_eq (f := fun n : Name => symbolAtom n.value) (fun _ => rfl) symbols
    simp [toSExpr, flat, flatAll, inner]
  | _ => simp [toSExpr, flat, flatAll, Literal.flat_toSExpr, symbolAtom]

theorem Statement.flat_toSExpr (s : Statement) : s.toSExpr.flat = s.form := by
  cases s with
  | assign name e => simp [toSExpr, form, flat, flatAll, Expression.flat_toSExpr]
  | defineClass name accessors =>
    have inner := flatAll_map_of_flat_eq (f := fun d : Located AccessorDeclaration => d.value.toSExpr)
      (fun d => d.value.flat_toSExpr) accessors
    cases accessors with
    | nil => rfl
    | cons d more =>
      rw [toSExpr, flat, inner]
      · rfl
      · simp
  | setAttribute object name value => simp [toSExpr, form, flat, flatAll, Literal.flat_toSExpr]
  | freeze object => rfl
  | query q => exact q.value.flat_toSExpr
  | expect q m => simp [toSExpr, form, flat, flatAll, Query.flat_toSExpr, Matcher.flat_toSExpr]

end Flat

section Legibility

theorem isDelimiter_eq_false {kind : Char → Bool} (other : [' ', '\n', '(', ')', '[', ']', '"'].all (!kind ·))
    {c : Char} (inside : kind c) : isDelimiter c = false := by
  refine decide_eq_false fun delimiter => ?_
  have outside := List.all_eq_true.mp other c delimiter
  rw [inside] at outside
  cases outside

theorem isDelimiter_of_isPart {c : Char} (part : Word.isPart c) : isDelimiter c = false :=
  isDelimiter_eq_false (by decide) part

theorem isDelimiter_of_isNumeral {c : Char} (numeral : isNumeral c) : isDelimiter c = false :=
  isDelimiter_eq_false (by decide) numeral

theorem isDelimiter_of_mem_isWord {first : Char → Bool} (start : ∀ c, first c → Word.isPart c) {s : List Char}
    (word : Word.isWord first s) : ∀ c ∈ s, isDelimiter c = false := by
  cases s with
  | nil => cases word
  | cons c s =>
    have both : first c ∧ s.all Word.isPart := by simpa [Word.isWord] using word
    exact List.forall_mem_cons.mpr ⟨isDelimiter_of_isPart (start c both.1),
      fun d mem => isDelimiter_of_isPart (List.all_eq_true.mp both.2 d mem)⟩

theorem isDelimiter_of_mem_isAttributeName {name : String} (isName : isAttributeName name) :
    ∀ c ∈ name.toList, isDelimiter c = false := by
  unfold isAttributeName at isName
  split at isName
  · next rest split =>
    rw [split]
    exact List.forall_mem_cons.mpr ⟨by decide, isDelimiter_of_mem_isWord (fun _ => Word.isPart_of_isStart) isName⟩
  · cases isName

/-- Being a word can be computed. -/
theorem isWord_of_all {text : String} (word : (!text.toList.isEmpty && text.toList.all (!isDelimiter ·)) = true) :
    IsWord text := by
  simpa [IsWord] using word

theorem isWord_of_visible {text : String} (visible : Visible text) (inside : ∀ c ∈ text.toList, isDelimiter c = false) :
    IsWord text := by
  obtain ⟨c, s, split, _⟩ := visible
  exact ⟨by rw [split]; exact List.cons_ne_nil c s, inside⟩

theorem isWord_of_isVariableName {name : String} (isName : isVariableName name) : IsWord name := by
  have both : Word.isWord Word.isLowerStart name.toList ∧ Word.isKeyword name.toList = false := by
    simpa [isVariableName] using isName
  exact isWord_of_visible (visible_of_isVariableName isName)
    (isDelimiter_of_mem_isWord (fun _ => Word.isPart_of_isLowerStart) both.1)

theorem isWord_of_isClassName {name : String} (isName : isClassName name) : IsWord name :=
  isWord_of_visible (visible_of_isClassName isName) (isDelimiter_of_mem_isWord (fun _ => Word.isPart_of_isUpper) isName)

theorem isWord_of_isAttributeName {name : String} (isName : isAttributeName name) : IsWord name :=
  isWord_of_visible (visible_of_isAttributeName isName) (isDelimiter_of_mem_isAttributeName isName)

theorem legible_symbolAtom {name : String} (isName : isSymbolName name) : (symbolAtom name).Legible := by
  refine isWord_of_visible (visible_symbol name) ?_
  rw [toList_symbol]
  refine List.forall_mem_cons.mpr ⟨by decide, ?_⟩
  have either : isAttributeName name ∨ isAccessorName name := by simpa [isSymbolName] using isName
  rcases either with signed | accessor
  · exact isDelimiter_of_mem_isAttributeName signed
  · exact isDelimiter_of_mem_isWord (fun _ => Word.isPart_of_isStart) accessor

theorem Literal.WellFormed.legible {l : Literal} (wellFormed : l.WellFormed) : l.toSExpr.Legible := by
  cases l with
  | nil => exact isWord_of_all (by decide)
  | bool b => cases b <;> exact isWord_of_all (by decide)
  | int n =>
    exact isWord_of_visible (visible_repr n) fun c mem =>
      isDelimiter_of_isNumeral (isNumeral_of_isIntegral (isIntegral_repr n c mem))
  | float x =>
    obtain ⟨c, mem, _⟩ := x.exists_not_isIntegral
    exact ⟨List.ne_nil_of_mem mem, fun c mem => isDelimiter_of_isNumeral (x.isNumeral_literalText c mem)⟩
  | string s => trivial
  | symbol name => exact legible_symbolAtom wellFormed

theorem HashEntry.WellFormed.legible {e : HashEntry} (wellFormed : e.WellFormed) : e.toSExpr.Legible :=
  ⟨isWord_of_all (by decide), Literal.WellFormed.legible wellFormed.1, wellFormed.2.legible, trivial⟩

theorem legible_hashForm {head : String} (word : IsWord head) {entries : List HashEntry}
    (wellFormed : ∀ e ∈ entries, e.WellFormed) : (hashForm head entries).Legible := by
  have items : LegibleAll (entries.map HashEntry.toSExpr) :=
    legibleAll_iff.mpr (List.forall_mem_map.mpr fun e mem => (wellFormed e mem).legible)
  rw [hashForm]
  split
  · exact ⟨word, items⟩
  · exact ⟨⟨word, trivial⟩, items⟩

theorem AttributeInit.WellFormed.legible {a : AttributeInit} (wellFormed : a.WellFormed) : a.toSExpr.Legible :=
  ⟨isWord_of_isAttributeName wellFormed.1, wellFormed.2.legible, trivial⟩

theorem Expression.WellFormed.legible {e : Expression} (wellFormed : e.WellFormed) : e.toSExpr.Legible := by
  cases e with
  | hash entries => exact legible_hashForm (isWord_of_all (by decide)) wellFormed
  | descriptor properties => exact legible_hashForm (isWord_of_all (by decide)) wellFormed
  | new className attributes =>
    have inits : LegibleAll (attributes.map AttributeInit.toSExpr) :=
      legibleAll_iff.mpr (List.forall_mem_map.mpr fun a mem => (wellFormed.2 a mem).legible)
    exact ⟨isWord_of_all (by decide), isWord_of_isClassName wellFormed.1, inits⟩
  | literal l => exact Literal.WellFormed.legible wellFormed

theorem isSymbolName_of_isAccessorName {name : String} (isName : isAccessorName name) : isSymbolName name := by
  simp [isSymbolName, isName]

theorem legibleAll_symbols {names : List Name} (symbols : ∀ n ∈ names, isSymbolName n.value) :
    LegibleAll (names.map fun n => symbolAtom n.value) :=
  legibleAll_iff.mpr (List.forall_mem_map.mpr fun n mem => legible_symbolAtom (symbols n mem))

theorem AccessorDeclaration.WellFormed.legible {d : AccessorDeclaration} (wellFormed : d.WellFormed) :
    d.toSExpr.Legible := by
  refine ⟨?_, legibleAll_symbols fun n mem => isSymbolName_of_isAccessorName (wellFormed.2 n mem)⟩
  rcases d.kind <;> exact isWord_of_all (by decide)

theorem Query.WellFormed.legible {q : Query} (wellFormed : q.WellFormed) : q.toSExpr.Legible := by
  cases q with
  | keyInfo object key =>
    exact ⟨isWord_of_all (by decide), isWord_of_isVariableName wellFormed.1, wellFormed.2.legible, trivial⟩
  | keys object withInternal =>
    have isName := isWord_of_isVariableName wellFormed
    cases withInternal with
    | true => exact ⟨isWord_of_all (by decide), isName, legible_symbolAtom (by decide), trivial⟩
    | false => exact ⟨isWord_of_all (by decide), isName, trivial⟩
  | read object key =>
    exact ⟨isWord_of_all (by decide), isWord_of_isVariableName wellFormed.1, wellFormed.2.legible, trivial⟩

theorem Matcher.WellFormed.legible {m : Matcher} (wellFormed : m.WellFormed) : m.toSExpr.Legible := by
  cases m with
  | equalsSymbols symbols => exact ⟨isWord_of_all (by decide), legibleAll_symbols wellFormed, trivial⟩
  | equals l => exact ⟨isWord_of_all (by decide), Literal.WellFormed.legible wellFormed, trivial⟩
  | includes symbol => exact ⟨isWord_of_all (by decide), legible_symbolAtom wellFormed, trivial⟩
  | excludes symbol => exact ⟨isWord_of_all (by decide), legible_symbolAtom wellFormed, trivial⟩
  | isEmpty => exact ⟨isWord_of_all (by decide), trivial⟩

theorem Statement.WellFormed.legible {s : Statement} (wellFormed : s.WellFormed) : s.toSExpr.Legible := by
  cases s with
  | assign name e =>
    exact ⟨isWord_of_all (by decide), isWord_of_isVariableName wellFormed.1, wellFormed.2.legible, trivial⟩
  | defineClass name accessors =>
    have isName := isWord_of_isClassName wellFormed.1
    cases accessors with
    | nil => exact ⟨isWord_of_all (by decide), isName, trivial⟩
    | cons d more =>
      exact ⟨⟨isWord_of_all (by decide), isName, trivial⟩,
        legibleAll_iff.mpr (List.forall_mem_map.mpr fun d mem => (wellFormed.2 d mem).legible)⟩
  | setAttribute object name value =>
    exact ⟨isWord_of_all (by decide), isWord_of_isVariableName wellFormed.1,
      isWord_of_isAttributeName wellFormed.2.1, wellFormed.2.2.legible, trivial⟩
  | freeze object => exact ⟨isWord_of_all (by decide), isWord_of_isVariableName wellFormed, trivial⟩
  | query q => exact Query.WellFormed.legible wellFormed
  | expect q m => exact ⟨isWord_of_all (by decide), wellFormed.1.legible, wellFormed.2.legible, trivial⟩

end Legibility

end KeyIntrospection.Script

namespace KeyIntrospection

open Text.SExpr (flat flatAll flatAll_eq_map Legible LegibleAll legibleAll_iff)

def Script.Agrees (s t : Script) : Prop :=
  List.Forall₂ (fun a b => a.value.Agrees b.value) s.statements t.statements

theorem Script.flat_toSExpr (s : Script) :
    s.toSExpr.flat = .line (.atom "script" :: s.statements.map (·.value.form)) := by
  have inner : flatAll (s.statements.map (·.value.toSExpr)) = s.statements.map (·.value.form) := by
    rw [flatAll_eq_map, List.map_map]
    exact List.map_congr_left fun a _ => a.value.flat_toSExpr
  rw [← inner]
  unfold Script.toSExpr
  split
  · next none => rw [none]; rfl
  · next one => rw [one]; rfl
  · rfl

theorem Script.legible_toSExpr {s : Script} (wellFormed : ∀ a ∈ s.statements, a.value.WellFormed) :
    s.toSExpr.Legible := by
  have inner : LegibleAll (s.statements.map (·.value.toSExpr)) :=
    legibleAll_iff.mpr (List.forall_mem_map.mpr fun a mem => (wellFormed a mem).legible)
  have head : Text.SExpr.IsWord "script" := Script.isWord_of_all (by decide)
  unfold Script.toSExpr
  split
  · exact ⟨head, trivial⟩
  · next one =>
    rw [one] at inner
    exact ⟨head, inner⟩
  · exact ⟨⟨head, trivial⟩, inner⟩

/-- Scripts with one text agree. -/
theorem Script.agrees_of_render_eq {a b : String} {file file' : Option String} {s t : Script}
    (first : Script.parse a file = .ok s) (second : Script.parse b file' = .ok t)
    (same : s.toSExpr.render 0 = t.toSExpr.render 0) : s.Agrees t := by
  have forms := Text.SExpr.flat_eq_of_render_eq (legible_toSExpr (wellFormed_of_parse_script first))
    (legible_toSExpr (wellFormed_of_parse_script second)) same
  rw [flat_toSExpr, flat_toSExpr] at forms
  exact forall₂_of_map_eq Statement.agrees_of_form_eq (List.cons.inj (Text.SExpr.line.inj forms)).2

/-- A string that ends in a backslash, and one that looks like the end of a script and a statement after it. -/
theorem Script.agrees_of_render_eq_blanks :
    ∃ s t, Script.parse "x = \"a\\\\\"\ny = \")\\n(freeze x\"" none = .ok s ∧
      Script.parse " x=\"a\\\\\" # c\n\ny = \")\n(freeze x\"" (some "f") = .ok t ∧
      s.toSExpr.render 0 = t.toSExpr.render 0 ∧ s.Agrees t := by
  let s : Script :=
    ⟨[⟨.assign ⟨"x", 0, 1⟩ ⟨.literal ⟨.string "a\\", 4, 9⟩, 4, 9⟩, 0, 9⟩,
      ⟨.assign ⟨"y", 10, 11⟩ ⟨.literal ⟨.string ")\n(freeze x", 14, 28⟩, 14, 28⟩, 10, 28⟩], none, 0, 28⟩
  let t : Script :=
    ⟨[⟨.assign ⟨"x", 1, 2⟩ ⟨.literal ⟨.string "a\\", 3, 8⟩, 3, 8⟩, 1, 8⟩,
      ⟨.assign ⟨"y", 14, 15⟩ ⟨.literal ⟨.string ")\n(freeze x", 18, 31⟩, 18, 31⟩, 14, 31⟩], some "f", 0, 31⟩
  have first : Script.parse "x = \"a\\\\\"\ny = \")\\n(freeze x\"" none = .ok s := by rfl
  have second : Script.parse " x=\"a\\\\\" # c\n\ny = \")\n(freeze x\"" (some "f") = .ok t := by rfl
  have same : s.toSExpr.render 0 = t.toSExpr.render 0 := rfl
  exact ⟨s, t, first, second, same, Script.agrees_of_render_eq first second same⟩

end KeyIntrospection
