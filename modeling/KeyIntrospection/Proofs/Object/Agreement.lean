import KeyIntrospection.Proofs.Object.Lifecycle

/-!
What `classify` says of a key in advance is what `keys`, `read` and `write` then do with it, on every
object that can come about.
-/

namespace KeyIntrospection.Object

variable {α : Type}

theorem mem_writableUnless {frozen : Bool} {c : Capability} :
    c ∈ writableUnless frozen ↔ c = .writable ∧ frozen = false := by
  cases frozen <;> simp [writableUnless]

/-- A key that has any capability exists. -/
theorem classify_eq_empty_iff {o : Object α} {key : String} :
    o.classify key = ∅ ↔ Capability.existing ∉ o.classify key := by
  constructor
  · intro empty
    rw [empty]
    exact CapabilitySet.not_mem_emptyCollection _
  · intro absent
    cases o with
    | mapping m =>
      simp only [classify, attributeCapabilities] at absent ⊢
      split at absent
      · simp at absent
      · split at absent
        · simp at absent
        · simp [*]
    | attributed o =>
      simp only [classify, attributeCapabilities] at absent ⊢
      split at absent
      · simp at absent
      · split at absent
        · simp at absent
        · simp [*]
    | descriptor d =>
      simp only [classify] at absent ⊢
      split at absent
      · simp at absent
      · simp [*]

theorem isSome_attribute?_iff {attributes : Table α} (named : attributes.Named Key.isInternalName)
    {key : String} : (attribute? attributes key).isSome = true ↔ key ∈ attributes.names := by
  rw [← attributes.contains_iff_mem_names, attribute?]
  split
  · rfl
  · next plain =>
    refine iff_of_false (by simp) fun held => plain ?_
    exact named.forall_valid key ((attributes.contains_iff_mem_names key).mp held)

/-- The names of the internal attributes, in the order in which they were first set. -/
def attributeNames (o : Object α) : List String := (o.attributes?.map Table.names).getD []

theorem WellNamed.nodup_plainNames {o : Object α} (named : o.WellNamed) : o.plainNames.Nodup := by
  cases o with
  | mapping m => exact named.1.nodup
  | attributed o => exact named.1.nodup
  | descriptor d => exact named.nodup

theorem WellNamed.nodup_attributeNames {o : Object α} (named : o.WellNamed) :
    o.attributeNames.Nodup := by
  cases o with
  | mapping m => exact named.2.nodup
  | attributed o => exact named.2.nodup
  | descriptor d => exact List.nodup_nil

theorem WellNamed.existing_mem_classify_iff {o : Object α} (named : o.WellNamed) {key : String} :
    Capability.existing ∈ o.classify key ↔ key ∈ o.plainNames ∨ key ∈ o.attributeNames := by
  cases o with
  | mapping m =>
    rw [show attributeNames (mapping m) = m.attributes.names from rfl,
      ← isSome_attribute?_iff named.2, plainNames, ← m.entries.contains_iff_mem_names]
    simp only [classify, attributeCapabilities]
    split
    · simp [*]
    · split
      · simp [*]
      · simp [*]
  | attributed o =>
    rw [show attributeNames (attributed o) = o.attributes.names from rfl,
      ← isSome_attribute?_iff named.2, plainNames, ← o.accessors.contains_iff_mem_names]
    simp only [classify, attributeCapabilities, Table.contains]
    split
    · simp [*]
    · split
      · simp [*]
      · simp [*]
  | descriptor d =>
    rw [show attributeNames (descriptor d) = [] from rfl, plainNames,
      ← d.properties.contains_iff_mem_names]
    simp only [classify]
    split
    · simp [*]
    · simp [*]

theorem mem_keys {o : Object α} {key : String} :
    key ∈ o.keys true ↔ key ∈ o.plainNames ∨ key ∈ o.attributeNames := by
  simp only [keys, if_true, List.mem_append, List.mem_filter, decide_eq_true_eq, attributeNames]
  constructor
  · rintro (plain | ⟨internal, _⟩)
    · exact Or.inl plain
    · exact Or.inr internal
  · rintro (plain | internal)
    · exact Or.inl plain
    · by_cases plain : key ∈ o.plainNames
      · exact Or.inl plain
      · exact Or.inr ⟨internal, plain⟩

theorem keys_true_eq (o : Object α) :
    o.keys true = o.keys false ++ o.attributeNames.filter (· ∉ o.keys false) := by
  simp [keys, attributeNames]

theorem WellNamed.nodup_keys {o : Object α} (named : o.WellNamed) : (o.keys true).Nodup := by
  refine List.nodup_append.mpr ⟨named.nodup_plainNames, named.nodup_attributeNames.filter _, ?_⟩
  rintro key plain other internal rfl
  simpa [plain] using (List.mem_filter.mp internal).2

/-- Reading follows the capabilities. -/
theorem read_cases (o : Object Value) (key : String) :
    (o.classify key = ∅ ∧ o.read key = .error (.unknownIdentifier key)) ∨
    (o.classify key ≠ ∅ ∧ Capability.readable ∉ o.classify key ∧
      o.read key = .error (.notReadable key)) ∨
    (o.classify key ≠ ∅ ∧ Capability.readable ∈ o.classify key ∧ ∃ v, o.read key = .ok v) := by
  rw [Ne, classify_eq_empty_iff]
  cases o with
  | mapping m =>
    simp only [classify, read, attributeCapabilities, Table.contains]
    obtain held | ⟨v, held⟩ := Option.eq_none_or_eq_some (attribute? m.attributes key)
    · obtain found | ⟨v, found⟩ := Option.eq_none_or_eq_some (m.entries.get? key)
      · exact Or.inl (by simp [held, found])
      · exact Or.inr (Or.inr (by simp [held, found]))
    · exact Or.inr (Or.inr (by simp [held]))
  | attributed o =>
    simp only [classify, read, attributeCapabilities]
    obtain held | ⟨v, held⟩ := Option.eq_none_or_eq_some (attribute? o.attributes key)
    · obtain found | ⟨a, found⟩ := Option.eq_none_or_eq_some (o.accessors.get? key)
      · exact Or.inl (by simp [held, found])
      · cases reader : a.reader with
        | true => exact Or.inr (Or.inr (by simp [held, found, reader]))
        | false =>
          refine Or.inr (Or.inl ⟨by simp [held, found], ?_, by simp [held, found, reader]⟩)
          cases writer : a.writer <;> simp [held, found, reader, writer, mem_writableUnless]
    · exact Or.inr (Or.inr (by simp [held]))
  | descriptor d =>
    simp only [classify, read, Table.contains]
    obtain found | ⟨v, found⟩ := Option.eq_none_or_eq_some (d.properties.get? key)
    · exact Or.inl (by simp [found])
    · exact Or.inr (Or.inr (by simp [found]))

theorem setAttribute_of_isInternalName (attributes : Table α) (owner : ObjectKind) (frozen : Bool)
    {name : String} (internal : Key.isInternalName name) (a : α) :
    attributes.setAttribute owner frozen name a =
      if frozen then .error (.frozenTarget name owner.name) else .ok (attributes.set name a) := by
  simp [Table.setAttribute, internal]

theorem isInternalName_of_attribute? {attributes : Table α} {key : String}
    (held : (attribute? attributes key).isSome = true) : Key.isInternalName key := by
  unfold attribute? at held
  split at held
  · assumption
  · cases held

/-- Writing follows the capabilities. That an accessor has a name which backs an internal attribute is
what keeps its writer from being refused. -/
theorem WellNamed.write_cases {o : Object α} (named : o.WellNamed) (key : String) (a : α) :
    (o.classify key = ∅ ∧ o.write key a = .error (.unknownIdentifier key)) ∨
    (o.classify key ≠ ∅ ∧ Capability.writable ∉ o.classify key ∧ o.frozen = true ∧
      o.write key a = .error (.frozenTarget key o.kind.name)) ∨
    (o.classify key ≠ ∅ ∧ Capability.writable ∉ o.classify key ∧ o.frozen = false ∧
      o.write key a = .error (.notWritable key)) ∨
    (o.classify key ≠ ∅ ∧ Capability.writable ∈ o.classify key ∧ ∃ next, o.write key a = .ok next) := by
  rw [Ne, classify_eq_empty_iff]
  cases o with
  | mapping m =>
    simp only [classify, write, attributeCapabilities, Object.frozen, kind, Mapping.setAttribute]
    by_cases held : (attribute? m.attributes key).isSome = true
    · simp only [held, if_true,
        setAttribute_of_isInternalName _ _ _ (isInternalName_of_attribute? held)]
      cases m.frozen with
      | true => exact Or.inr (Or.inl (by simp [mem_writableUnless, Except.map]))
      | false => exact Or.inr (Or.inr (Or.inr (by simp [mem_writableUnless, Except.map])))
    · simp only [held, Mapping.insert]
      by_cases entry : m.entries.contains key = true
      · simp only [entry, if_true]
        cases m.frozen with
        | true => exact Or.inr (Or.inl (by simp [mem_writableUnless, Except.map]))
        | false => exact Or.inr (Or.inr (Or.inr (by simp [mem_writableUnless, Except.map])))
      · simp only [entry]
        exact Or.inl (by simp)
  | attributed o =>
    simp only [classify, write, attributeCapabilities, Object.frozen, kind, Attributed.setAttribute]
    by_cases held : (attribute? o.attributes key).isSome = true
    · simp only [held, if_true,
        setAttribute_of_isInternalName _ _ _ (isInternalName_of_attribute? held)]
      cases o.frozen with
      | true => exact Or.inr (Or.inl (by simp [mem_writableUnless, Except.map]))
      | false => exact Or.inr (Or.inr (Or.inr (by simp [mem_writableUnless, Except.map])))
    · simp only [held]
      cases found : o.accessors.get? key with
      | none => exact Or.inl (by simp)
      | some accessor =>
        have backed : Key.isInternalName (Key.backing key) := by
          rw [Key.isInternalName_backing]
          exact named.1.valid_of_get? found
        simp only [setAttribute_of_isInternalName _ _ _ backed]
        cases o.frozen with
        | true =>
          refine Or.inr (Or.inl ⟨by simp, ?_, rfl, rfl⟩)
          cases accessor.reader <;> cases accessor.writer <;> simp [mem_writableUnless]
        | false =>
          cases writer : accessor.writer with
          | true => exact Or.inr (Or.inr (Or.inr (by simp [mem_writableUnless, Except.map])))
          | false =>
            refine Or.inr (Or.inr (Or.inl ⟨by simp, ?_, rfl, rfl⟩))
            cases accessor.reader <;> simp
  | descriptor d =>
    simp only [classify, write, Object.frozen]
    by_cases property : d.properties.contains key = true
    · simp only [property, if_true]
      exact Or.inr (Or.inr (Or.inl (by simp)))
    · simp only [property]
      exact Or.inl (by simp)

/-- On every object that can come about, `keys` lists each existing key once, internal names last;
`read` succeeds for the readable keys and `write` for the writable ones; and a refusal tells a key that
does not exist from one that may not be read, and a frozen object from a key that is never writable. -/
theorem keys_read_write_agree_with_classify {o : Object Value} (reached : o.Reached) (key : String) :
    ((o.keys true).Nodup ∧ (key ∈ o.keys true ↔ Capability.existing ∈ o.classify key) ∧
      o.keys true = o.keys false ++ o.attributeNames.filter (· ∉ o.keys false)) ∧
    (((∃ v, o.read key = .ok v) ↔ Capability.readable ∈ o.classify key) ∧
      (o.read key = .error (.unknownIdentifier key) ↔ o.classify key = ∅) ∧
      (o.read key = .error (.notReadable key) ↔
        o.classify key ≠ ∅ ∧ Capability.readable ∉ o.classify key)) ∧
    ∀ v, ((∃ next, o.write key v = .ok next) ↔ Capability.writable ∈ o.classify key) ∧
      (o.write key v = .error (.unknownIdentifier key) ↔ o.classify key = ∅) ∧
      (o.write key v = .error (.frozenTarget key o.kind.name) ↔
        o.classify key ≠ ∅ ∧ Capability.writable ∉ o.classify key ∧ o.frozen = true) ∧
      (o.write key v = .error (.notWritable key) ↔
        o.classify key ≠ ∅ ∧ Capability.writable ∉ o.classify key ∧ o.frozen = false) := by
  have named := reached.wellNamed
  refine ⟨⟨named.nodup_keys, ?_, o.keys_true_eq⟩, ?_, fun v => ?_⟩
  · rw [mem_keys, named.existing_mem_classify_iff]
  · rcases o.read_cases key with ⟨absent, answer⟩ | ⟨present, hidden, answer⟩ | ⟨present, seen, v, answer⟩
    · simp [absent, answer]
    · simp [present, hidden, answer]
    · simp [present, seen, answer]
  · rcases named.write_cases key v with ⟨absent, answer⟩ | ⟨present, closed, frozen, answer⟩ |
      ⟨present, closed, thawed, answer⟩ | ⟨present, opened, next, answer⟩
    · simp [absent, answer]
    · simp [present, closed, frozen, answer]
    · simp [present, closed, thawed, answer]
    · simp [present, opened, answer]

/-- A mapping with an entry that is spelled like its internal attribute, frozen at the end. -/
def frozenMapping : Object Value :=
  ((mapping (.ofEntries [("@x", .int 1), ("a", .int 2)])).after (.setAttribute "@x" .nil)).after .freeze

theorem frozenMapping_agrees :
    frozenMapping.Reached ∧ frozenMapping.keys true = ["@x", "a"] ∧
      ∀ v, frozenMapping.write "a" v = .error (.frozenTarget "a" "Hash") := by
  have reached : frozenMapping.Reached := ((Reached.mapping _).after _).after _
  refine ⟨reached, by decide, fun v => ?_⟩
  exact ((keys_read_write_agree_with_classify reached "a").2.2 v).2.2.1.mpr (by decide)

end KeyIntrospection.Object
