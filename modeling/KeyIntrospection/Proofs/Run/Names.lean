import KeyIntrospection.Proofs.Object.Equality
import KeyIntrospection.Proofs.Run.Effects

/-!
The names of scripts are names that objects accept. A letter, digit or underscore of a script is a character of
an identifier, so that no statement that was read is refused because of a name in it, and what the statements
build holds no other names.
-/

namespace KeyIntrospection

namespace Unicode

theorem Ranges.contains_of_le {first last n : Nat} (rest : List (Nat × Nat)) (lower : first ≤ n) (upper : n ≤ last) :
    Ranges.contains ((first, last) :: rest) n := by
  rw [contains, decide_eq_false (Nat.not_lt.mpr lower), decide_eq_true upper]
  rfl

theorem Ranges.contains_of_contains {first last n : Nat} {rest : List (Nat × Nat)} (lower : first ≤ n)
    (later : Ranges.contains rest n) : Ranges.contains ((first, last) :: rest) n := by
  rw [contains, decide_eq_false (Nat.not_lt.mpr lower), later, Bool.or_true]
  rfl

theorem isAlphabetic_of_isAlpha {c : Char} (letter : c.isAlpha) : isAlphabetic c := by
  rcases Bool.or_eq_true_iff.mp letter with upper | lower
  · obtain ⟨least, greatest⟩ : 65 ≤ c.toNat ∧ c.toNat ≤ 90 := of_decide_eq_true upper
    exact Ranges.contains_of_le _ least greatest
  · obtain ⟨least, greatest⟩ : 97 ≤ c.toNat ∧ c.toNat ≤ 122 :=
      (Bool.and_eq_true_iff.mp lower).imp of_decide_eq_true of_decide_eq_true
    exact Ranges.contains_of_contains (by omega) (Ranges.contains_of_le _ least greatest)

theorem isNumeric_of_isDigit {c : Char} (digit : c.isDigit) : isNumeric c := by
  obtain ⟨least, greatest⟩ : 48 ≤ c.toNat ∧ c.toNat ≤ 57 :=
    (Bool.and_eq_true_iff.mp digit).imp of_decide_eq_true of_decide_eq_true
  exact Ranges.contains_of_le _ least greatest

end Unicode
namespace Script

theorem isIdentifierStart_of_isStart {c : Char} (start : Word.isStart c) : Key.isIdentifierStart c := by
  rcases Bool.or_eq_true_iff.mp start with letter | underscore
  · simp [Key.isIdentifierStart, Unicode.isAlphabetic_of_isAlpha letter]
  · simp [Key.isIdentifierStart, underscore]

theorem isIdentifierPart_of_isPart {c : Char} (part : Word.isPart c) : Key.isIdentifierPart c := by
  rcases Bool.or_eq_true_iff.mp part with letterOrDigit | underscore
  · rcases Bool.or_eq_true_iff.mp letterOrDigit with letter | digit
    · simp [Key.isIdentifierPart, Unicode.isAlphabetic_of_isAlpha letter]
    · simp [Key.isIdentifierPart, Unicode.isNumeric_of_isDigit digit]
  · simp [Key.isIdentifierPart, underscore]

theorem isIdentifier_of_isWord {s : List Char} (word : Word.isWord Word.isStart s) : Key.isIdentifier s := by
  cases s with
  | nil => cases word
  | cons c s =>
    obtain ⟨start, parts⟩ := Bool.and_eq_true_iff.mp word
    refine Bool.and_eq_true_iff.mpr ⟨isIdentifierStart_of_isStart start, List.all_eq_true.mpr fun d mem => ?_⟩
    exact isIdentifierPart_of_isPart (List.all_eq_true.mp parts d mem)

/-- The names that declarations are read with are names of accessors. -/
theorem isAccessorName_key {name : String} (isName : isAccessorName name) : Key.isAccessorName name :=
  isIdentifier_of_isWord isName

/-- The names that attributes are read with are names of internal attributes. -/
theorem isInternalName_key {name : String} (isName : isAttributeName name) : Key.isInternalName name := by
  unfold isAttributeName at isName
  split at isName
  · next rest whole =>
    have identifier : Key.isIdentifier rest := isIdentifier_of_isWord isName
    simpa only [Key.isInternalName, whole] using identifier
  · cases isName

end Script

namespace Table

variable {α : Type} {P : α → Prop} {t : Table α}

theorem All.of_mem (all : t.All P) (distinct : t.names.Nodup) {a : α} (member : a ∈ t.entries.map (·.2)) : P a := by
  obtain ⟨⟨name, b⟩, there, rfl⟩ := List.mem_map.mp member
  exact all name b (get?_of_mem distinct there)

end Table

theorem Object.Holds.of_mem {α : Type} {P : α → Prop} {o : Object α} (holds : o.Holds P) (named : o.WellNamed) {a : α}
    (member : a ∈ o.held) : P a := by
  cases o with
  | mapping m =>
    rcases List.mem_append.mp member with entry | internal
    · exact holds.1.of_mem named.1.nodup entry
    · exact holds.2.of_mem named.2.nodup internal
  | attributed o => exact Table.All.of_mem holds named.2.nodup member
  | descriptor d => exact Table.All.of_mem holds named.nodup member

namespace Environment

open Script

/-- The classes have names of accessors only, and all objects have the names that are allowed to them. -/
structure WellNamed (env : Environment) : Prop where
  classes : env.classes.All (Table.Named Key.isAccessorName)
  objects : env.bindings.All fun v => ∀ o, v = .object o → o.WellNamed

variable {env next : Environment} {s : Located Statement}

theorem named_declare {t : Table Accessor} (named : t.Named Key.isAccessorName)
    {declarations : List (Located AccessorDeclaration)} (wellFormed : ∀ d ∈ declarations, d.value.WellFormed) :
    (declare t declarations).Named Key.isAccessorName := by
  induction declarations generalizing t with
  | nil => exact named
  | cons d declarations ih =>
    obtain ⟨first, others⟩ := List.forall_mem_cons.mp wellFormed
    refine ih (t := d.value.names.foldl (fun t name => t.addAccessor name.value d.value.kind.halves) t) ?_ others
    have names := first.2
    generalize d.value.names = l at names ⊢
    induction l generalizing t with
    | nil => exact named
    | cons name l ih =>
      obtain ⟨isName, more⟩ := List.forall_mem_cons.mp names
      exact ih (named.set (isAccessorName_key isName) _) more

theorem wellNamed_of_instantiate {className : Name} {attributes : List AttributeInit} {o : Attributed Value}
    (ok : env.instantiate className attributes = .ok o) : (Object.attributed o).WellNamed := by
  unfold instantiate at ok
  split at ok
  · obtain ⟨fresh, built, filled⟩ := exists_of_bind_eq_ok ok
    refine invariant_of_foldlM (P := fun o => (Object.attributed o).WellNamed) (fun {o next a} _ changed named => ?_) filled
      (Object.wellNamed_of_ofAccessors (eq_ok_of_raiseAt built))
    obtain ⟨thawed, internal, rfl⟩ := Object.attributed_setAttribute_eq_ok (eq_ok_of_raiseAt changed)
    exact named.step (.attributedSet _ thawed internal)
  · cases ok

theorem wellNamed_of_evaluate {e : Expression} {o : Object Value} (ok : env.evaluate e = .ok (.object o)) :
    o.WellNamed := by
  cases e with
  | hash entries =>
    cases ok
    exact ⟨.ofList _, .empty⟩
  | descriptor properties =>
    cases ok
    exact .ofList _
  | new className attributes =>
    obtain ⟨a, built, same⟩ := exists_of_map_eq_ok ok
    cases same
    exact wellNamed_of_instantiate built
  | literal l =>
    obtain ⟨l, span⟩ := l
    cases l <;> cases ok

namespace WellNamed

theorem start : ({} : Environment).WellNamed := ⟨Table.All.empty, Table.All.empty⟩

theorem object (named : env.WellNamed) {name : Name} {o : Object Value} (found : env.object name = .ok o) :
    o.WellNamed := named.objects _ _ (object_eq_ok found) o rfl

theorem bind (named : env.WellNamed) (name : Name) {v : Value} (value : ∀ o, v = .object o → o.WellNamed) :
    (env.bind name v).WellNamed := ⟨named.classes, named.objects.set name.value value⟩

theorem execute (named : env.WellNamed) (wellFormed : s.value.WellFormed) {outcome : Outcome}
    (ok : env.execute s = .ok (outcome, next)) : next.WellNamed := by
  obtain ⟨s, span⟩ := s
  cases s with
  | assign name e =>
    obtain ⟨v, evaluated, same⟩ := exists_of_bind_eq_ok ok
    cases same
    refine named.bind name fun o same => ?_
    subst same
    exact wellNamed_of_evaluate evaluated
  | defineClass name declarations =>
    cases ok
    have before : ((env.classes.get? name.value).getD .empty).Named Key.isAccessorName := by
      cases found : env.classes.get? name.value with
      | none => exact .empty
      | some t => exact named.classes _ t found
    exact ⟨named.classes.set name.value (named_declare before wellFormed.2), named.objects⟩
  | setAttribute object name value =>
    obtain ⟨o, found, rest⟩ := exists_of_bind_eq_ok ok
    obtain ⟨o', changed, same⟩ := exists_of_bind_eq_ok rest
    cases same
    refine named.bind object fun p same => ?_
    cases same
    exact (named.object found).step (.of_setAttribute (eq_ok_of_raiseAt changed))
  | freeze object =>
    obtain ⟨o, found, same⟩ := exists_of_bind_eq_ok ok
    cases same
    refine named.bind object fun p same => ?_
    cases same
    exact (named.object found).step .frozen
  | query q =>
    obtain ⟨a, _, same⟩ := exists_of_bind_eq_ok ok
    cases same
    exact named
  | expect q m =>
    obtain ⟨a, _, rest⟩ := exists_of_bind_eq_ok ok
    obtain ⟨_, _, same⟩ := exists_of_bind_eq_ok rest
    cases same
    exact named

end WellNamed

theorem Reached.wellNamed (reached : env.Reached) : env.WellNamed := by
  induction reached with
  | start => exact .start
  | next _ parsed executed ih => exact ih.execute parsed.wellFormed executed

theorem Reached.attempt (reached : env.Reached) (parsed : Parsed s) : (env.attempt s).2.Reached := by
  rcases env.attempt_cases s with ⟨e, failed⟩ | ⟨outcome, next, executed, done⟩
  · rwa [failed]
  · rw [done]
    exact reached.next parsed executed

theorem Reached.afterAll {statements : List (Located Statement)} (reached : env.Reached)
    (parsed : ∀ s ∈ statements, Parsed s) : (env.afterAll statements).Reached := by
  induction statements generalizing env with
  | nil => exact reached
  | cons s rest ih =>
    obtain ⟨first, others⟩ := List.forall_mem_cons.mp parsed
    exact ih (reached.attempt first) others

/-- The classes have no names but those of accessors, and no object, wherever it is, has an internal attribute under
a name that is none. -/
structure KeepsNames (env : Environment) : Prop where
  classes : ∀ c t, env.classes.get? c = some t → ∀ name ∈ t.names, Key.isAccessorName name
  objects : ∀ x v o, env.bindings.get? x = some v → (Value.object o).Inside v →
    ∀ name ∈ o.attributeNames, Key.isInternalName name

theorem not_inside_of_isLiteral {v : Value} {o : Object Value} (literal : v.IsLiteral) : ¬(Value.object o).Inside v := by
  obtain ⟨l, _, rfl⟩ := literal
  intro inside
  cases l <;> cases inside

theorem Reached.keepsNames (reached : env.Reached) : env.KeepsNames where
  classes c t found := (reached.wellNamed.classes c t found).forall_valid
  objects x v o found inside := by
    rcases reached.isPlain x v found with literal | ⟨p, rfl, holds⟩
    · exact absurd inside (not_inside_of_isLiteral literal)
    · have named := reached.wellNamed.objects x _ found p rfl
      cases inside with
      | self =>
        cases o with
        | mapping m => exact named.2.forall_valid
        | attributed o => exact named.2.forall_valid
        | descriptor d => exact List.forall_mem_nil _
      | held member deeper => exact absurd deeper (not_inside_of_isLiteral (holds.of_mem named member))

end Environment

end KeyIntrospection
