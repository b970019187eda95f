import KeyIntrospection.Proofs.Object.Frame

/-!
The names in the tables of an object. Whatever requests it has taken, internal attributes are kept under internal names
and accessors under names that become internal by the sigil alone; no table has a name twice, and a name that is new
comes last.
-/

namespace KeyIntrospection

/-- Accessors and the attributes behind them have their names from one rule: what the name of an accessor lacks to be
internal is the sigil. -/
theorem Key.isAccessorName_iff {name : String} :
    isAccessorName name ↔ isInternalName (backing name) ∧ name.toList.head? ≠ some '@' := by
  rw [isInternalName_backing, iff_self_and]
  intro accessor sigil
  obtain ⟨rest, split⟩ := List.head?_eq_some_iff.mp sigil
  rw [isAccessorName, split] at accessor
  exact absurd accessor (by simp [isIdentifier, show isIdentifierStart '@' = false from by decide])

theorem Table.names_prefix_names_set {α : Type} (t : Table α) (name : String) (a : α) :
    t.names <+: (t.set name a).names := by
  rw [names_set]
  split
  · exact List.prefix_refl _
  · exact List.prefix_append _ _

namespace Object

variable {α : Type}

/-- The names of an object are of the sorts that its tables are for, and no table has a name twice. -/
structure ProperlyNamed (o : Object α) : Prop where
  nodup_plain : o.plainNames.Nodup
  nodup_attributes : o.attributeNames.Nodup
  attributes : ∀ name ∈ o.attributeNames, Key.isInternalName name
  accessors : ∀ name, o.HasAccessor name →
    Key.isAccessorName name ∧ Key.isInternalName (Key.backing name) ∧ ¬Key.isInternalName name

theorem WellNamed.properlyNamed {o : Object α} (named : o.WellNamed) : o.ProperlyNamed where
  nodup_plain := named.nodup_plainNames
  nodup_attributes := named.nodup_attributeNames
  attributes := by
    cases o with
    | mapping m => exact named.2.forall_valid
    | attributed o => exact named.2.forall_valid
    | descriptor d => exact List.forall_mem_nil _
  accessors := by
    rintro name ⟨accessors, known, contains⟩
    cases o with
    | mapping m => cases known
    | attributed o =>
      cases known
      have accessor := named.1.forall_valid name ((Table.contains_iff_mem_names _ name).mp contains)
      have plain := Key.isInternalName_eq_false_of_isAccessorName accessor
      exact ⟨accessor, (Key.isAccessorName_iff.mp accessor).1, by simp [plain]⟩
    | descriptor d => cases known

/-- One object has all the names of the other, in their order and before its own. -/
structure Grows (o next : Object α) : Prop where
  kind : next.kind = o.kind
  plain : o.plainNames <+: next.plainNames
  attributes : o.attributeNames <+: next.attributeNames

theorem Grows.refl (o : Object α) : Grows o o := ⟨rfl, List.prefix_refl _, List.prefix_refl _⟩

theorem Grows.trans {o next last : Object α} (first : Grows o next) (second : Grows next last) : Grows o last :=
  ⟨second.kind.trans first.kind, first.plain.trans second.plain, first.attributes.trans second.attributes⟩

theorem Step.grows {o next : Object α} (step : Step o next) : Grows o next := by
  cases step with
  | refused => exact .refl o
  | frozen => cases o <;> exact ⟨rfl, List.prefix_refl _, List.prefix_refl _⟩
  | @inserted m name a _ => exact ⟨rfl, m.entries.names_prefix_names_set name a, List.prefix_refl _⟩
  | @mappingSet m name a _ _ => exact ⟨rfl, List.prefix_refl _, m.attributes.names_prefix_names_set name a⟩
  | @attributedSet o name a _ _ => exact ⟨rfl, List.prefix_refl _, o.attributes.names_prefix_names_set name a⟩
  | @defined o name halves _ => exact ⟨rfl, o.accessors.names_prefix_names_set name _, List.prefix_refl _⟩

theorem grows_afterAll (o : Object α) (requests : List (Request α)) : Grows o (o.afterAll requests) :=
  afterAll_invariant (Grows o) (fun _ _ step grown => grown.trans step.grows) (.refl o) requests

theorem Reached.afterAll {o : Object α} (reached : o.Reached) (requests : List (Request α)) :
    (o.afterAll requests).Reached := by
  induction requests generalizing o with
  | nil => exact reached
  | cons r rest ih => exact ih (reached.after r)

/-- No write is refused for the name under which the value would be kept. -/
theorem WellNamed.write_ne_invalidInternalName {o : Object α} (named : o.WellNamed) (key : String) (a : α)
    (name : String) : o.write key a ≠ .error (.invalidInternalName name) := by
  intro refused
  simpa [refused] using named.write_cases key a

theorem WellNamed.exists_write_eq_ok {o : Object α} (named : o.WellNamed) {key : String}
    (writable : .writable ∈ o.classify key) (a : α) : ∃ next, o.write key a = .ok next := by
  rcases named.write_cases key a with ⟨absent, _⟩ | ⟨_, closed, _⟩ | ⟨_, closed, _⟩ | ⟨_, _, written⟩
  · rw [absent] at writable
    exact absurd writable (CapabilitySet.not_mem_emptyCollection _)
  · exact absurd writable closed
  · exact absurd writable closed
  · exact written

/-- On every object that can come about the tables have the names that belong into them, requests add names at the
ends of tables and leave the others where they are, and so a value can be stored through each accessor that can be
written: the attribute behind it never has a name that is refused. -/
theorem names_along_run {o : Object α} (reached : o.Reached) :
    o.ProperlyNamed ∧ (∀ requests, Grows o (o.afterAll requests)) ∧
    ∀ key a, (∀ name, o.write key a ≠ .error (.invalidInternalName name)) ∧
      (o.HasAccessor key → .writable ∈ o.classify key → ∃ next, o.write key a = .ok next) := by
  have named := reached.wellNamed
  refine ⟨named.properlyNamed, o.grows_afterAll, fun key a => ⟨named.write_ne_invalidInternalName key a, ?_⟩⟩
  exact fun _ writable => named.exists_write_eq_ok writable a

/-- A run in which requests are refused for their names, a value is stored through an accessor before its attribute is
there, and an accessor is defined on the frozen object. -/
def pointRun : List (Request Value) :=
  [.setAttribute "z" .nil, .write "x" (.int 3), .setAttribute "@tag" .nil, .define "@y" ⟨true, true⟩, .freeze,
    .write "x" .nil, .define "z" ⟨false, true⟩]

theorem point_names_along_run :
    point.Reached ∧ (point.afterAll pointRun).ProperlyNamed ∧ Grows point (point.afterAll pointRun) ∧
      (point.afterAll pointRun).plainNames = ["x", "y", "z"] ∧
      (point.afterAll pointRun).attributeNames = ["@x", "@tag"] ∧
      ∃ next, point.write "x" (.int 3) = .ok next := by
  have reached : point.Reached :=
    @Reached.attributed _ "Point" [("x", ⟨true, true⟩), ("y", ⟨true, false⟩)] _ rfl
  obtain ⟨_, grows, stores⟩ := names_along_run reached
  exact ⟨reached, (names_along_run (reached.afterAll pointRun)).1, grows pointRun, by decide, by decide,
    (stores "x" (.int 3)).2 ⟨_, rfl, by decide⟩ (by decide)⟩

end Object

end KeyIntrospection
