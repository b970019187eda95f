import KeyIntrospection.Proofs.Object.Freezing
import KeyIntrospection.Proofs.Object.InPlace

/-!
What a write changes and what it leaves alone. A key is kept in one place: an entry, an internal
attribute, or, for an accessor, the attribute that backs it. A write to a key is seen through the keys
that are kept in the same place and through no others.
-/

namespace KeyIntrospection

theorem Key.backing_ne (name : String) : Key.backing name ≠ name := by
  intro same
  have lengths := congrArg String.length same
  simp [Key.backing] at lengths

theorem Key.backing_injective {name other : String} (same : Key.backing name = Key.backing other) :
    name = other := by
  have characters := congrArg String.toList same
  exact String.toList_inj.mp (by simpa [Key.backing] using characters)

namespace Object

variable {α : Type}

def className? : Object α → Option String
  | mapping _ => none
  | attributed o => some o.className
  | descriptor _ => none

def accessors? : Object α → Option (Table Accessor)
  | mapping _ => none
  | attributed o => some o.accessors
  | descriptor _ => none

def HasAccessor (o : Object α) (name : String) : Prop :=
  ∃ accessors, o.accessors? = some accessors ∧ accessors.contains name = true

/-- Keys are kept in the same place if they are one key, or an accessor and the attribute behind it. -/
def SharesSlot (o : Object α) (key other : String) : Prop :=
  key = other ∨ (o.HasAccessor key ∧ other = Key.backing key) ∨
    (o.HasAccessor other ∧ key = Key.backing other)

/-- What a write leaves as it was, apart from values. -/
structure SameShape (o next : Object α) : Prop where
  kind : next.kind = o.kind
  frozen : next.frozen = o.frozen
  className : next.className? = o.className?
  accessors : next.accessors? = o.accessors?
  plainNames : next.plainNames = o.plainNames

theorem Written.sameShape {o next : Object α} {key : String} {a : α} (written : Written o key a next) :
    SameShape o next := by
  cases written with
  | mappingHeld a thawed held internal => exact ⟨rfl, rfl, rfl, rfl, rfl⟩
  | mappingEntry a thawed free found =>
    exact ⟨rfl, rfl, rfl, rfl, Table.names_set_of_contains found a⟩
  | attributedHeld a thawed held internal => exact ⟨rfl, rfl, rfl, rfl, rfl⟩
  | attributedAccessor a thawed free found writer internal => exact ⟨rfl, rfl, rfl, rfl, rfl⟩

theorem contains_of_attribute? {attributes : Table α} {key : String}
    (held : (attribute? attributes key).isSome = true) : attributes.contains key = true := by
  unfold attribute? at held
  split at held
  · exact held
  · cases held

theorem Written.attributeNames_eq {o next : Object α} {key : String} {a : α}
    (written : Written o key a next) (direct : ¬o.HasAccessor key) :
    next.attributeNames = o.attributeNames := by
  cases written with
  | mappingHeld a thawed held internal =>
    exact Table.names_set_of_contains (contains_of_attribute? held) a
  | mappingEntry a thawed free found => rfl
  | attributedHeld a thawed held internal =>
    exact Table.names_set_of_contains (contains_of_attribute? held) a
  | @attributedAccessor o key halves a thawed free found writer internal =>
    exact absurd ⟨o.accessors, rfl, by simp [Table.contains, found]⟩ direct

theorem mapping_agrees {m next : Mapping Value} {key : String}
    (attributes : attribute? next.attributes key = attribute? m.attributes key)
    (entries : next.entries.get? key = m.entries.get? key) (frozen : next.frozen = m.frozen) :
    (mapping next).classify key = (mapping m).classify key ∧
      (mapping next).read key = (mapping m).read key := by
  have contains : next.entries.contains key = m.entries.contains key := by
    rw [Table.contains, entries, Table.contains]
  exact ⟨by simp only [classify, attributes, contains, frozen], by simp only [read, attributes, entries]⟩

theorem attributed_agrees {o next : Attributed Value} {key : String}
    (attributes : attribute? next.attributes key = attribute? o.attributes key)
    (behind : o.accessors.contains key = true →
      next.attributes.get? (Key.backing key) = o.attributes.get? (Key.backing key))
    (accessors : next.accessors = o.accessors) (frozen : next.frozen = o.frozen) :
    (attributed next).classify key = (attributed o).classify key ∧
      (attributed next).read key = (attributed o).read key := by
  refine ⟨by simp only [classify, attributes, accessors, frozen], ?_⟩
  simp only [read, attributes, accessors]
  cases found : o.accessors.get? key with
  | none => rfl
  | some halves => rw [behind (by simp [Table.contains, found])]

/-- The keys that a write has no effect on. -/
theorem Written.agrees {o next : Object Value} {key : String} {v : Value}
    (written : Written o key v next) {other : String} (apart : ¬o.SharesSlot other key) :
    next.classify other = o.classify other ∧ next.read other = o.read other := by
  have different : other ≠ key := fun same => apart (Or.inl same)
  cases written with
  | mappingHeld v thawed held internal =>
    exact mapping_agrees (by rw [attribute?_set _ internal, if_neg different]) rfl rfl
  | mappingEntry v thawed free found =>
    exact mapping_agrees rfl (by rw [Table.get?_set, if_neg different]) rfl
  | @attributedHeld o key v thawed held internal =>
    refine attributed_agrees (by rw [attribute?_set _ internal, if_neg different]) ?_ rfl rfl
    intro accessor
    have elsewhere : Key.backing other ≠ key := fun same =>
      apart (Or.inr (Or.inl ⟨⟨o.accessors, rfl, accessor⟩, same.symm⟩))
    rw [Table.get?_set, if_neg elsewhere]
  | @attributedAccessor o key halves v thawed free found writer internal =>
    have accessible : o.accessors.contains key = true := by simp [Table.contains, found]
    have behind : other ≠ Key.backing key := fun same =>
      apart (Or.inr (Or.inr ⟨⟨o.accessors, rfl, accessible⟩, same⟩))
    refine attributed_agrees (by rw [attribute?_set _ internal, if_neg behind]) ?_ rfl rfl
    intro accessor
    rw [Table.get?_set, if_neg fun same => different (Key.backing_injective same)]

/-- A key that is written has the capabilities that it had, and shows the new value if it is readable. -/
theorem Written.read_back {o next : Object Value} {key : String} {v : Value}
    (written : Written o key v next) :
    next.classify key = o.classify key ∧
      next.read key = if .readable ∈ o.classify key then .ok v else .error (.notReadable key) := by
  cases written with
  | mappingHeld v thawed held internal =>
    simp [classify, read, attribute?_set _ internal, held, attributeCapabilities]
  | mappingEntry v thawed free found =>
    simp [classify, read, free, Table.contains] at found ⊢
    simp [found]
  | attributedHeld v thawed held internal =>
    simp [classify, read, attribute?_set _ internal, held, attributeCapabilities]
  | @attributedAccessor o key halves v thawed free found writer internal =>
    have apart : key ≠ Key.backing key := fun same => Key.backing_ne key same.symm
    have unheld : attribute? (o.attributes.set (Key.backing key) v) key = none := by
      rw [attribute?_set _ internal, if_neg apart, free]
    have readable : .readable ∈ (attributed o).classify key ↔ halves.reader = true := by
      simp [classify, free, found, mem_writableUnless]
    refine ⟨by simp [classify, unheld, free, found], ?_⟩
    by_cases reader : halves.reader = true
    · rw [if_pos (readable.mpr reader)]
      simp [read, unheld, found, reader]
    · rw [if_neg fun seen => reader (readable.mp seen)]
      simp [read, unheld, found, reader]

/-- The attribute behind an accessor that was written; it takes the last place if it is new. -/
theorem Written.behind {o next : Object Value} {key : String} {v : Value}
    (written : Written o key v next) (named : o.WellNamed) (accessor : o.HasAccessor key) :
    next.read (Key.backing key) = .ok v ∧
      next.classify (Key.backing key) = .ofList [.existing, .readable, .internal, .writable] ∧
      next.attributeNames = if Key.backing key ∈ o.attributeNames then o.attributeNames
        else o.attributeNames ++ [Key.backing key] := by
  obtain ⟨accessors, known, contains⟩ := accessor
  cases written with
  | mappingHeld v thawed held internal => cases known
  | mappingEntry v thawed free found => cases known
  | attributedHeld v thawed held internal =>
    cases known
    have accessorName := named.1.forall_valid key ((Table.contains_iff_mem_names _ key).mp contains)
    simp [Key.isInternalName_eq_false_of_isAccessorName accessorName] at internal
  | @attributedAccessor o key halves v thawed free found writer internal =>
    refine ⟨?_, ?_, o.attributes.names_set _ v⟩
    · simp [read, attribute?_set _ internal]
    · simp [classify, attribute?_set _ internal, attributeCapabilities, writableUnless, thawed]

/-- The accessor in front of an attribute that was written. -/
theorem Written.before {o next : Object Value} {name : String} {v : Value}
    (written : Written o (Key.backing name) v next) (named : o.WellNamed) (accessor : o.HasAccessor name)
    (readable : .readable ∈ o.classify name) : next.read name = .ok v := by
  obtain ⟨accessors, known, contains⟩ := accessor
  cases written with
  | mappingHeld v thawed held internal => cases known
  | mappingEntry v thawed free found => cases known
  | @attributedHeld o _ v thawed held internal =>
    cases known
    have accessorName := named.1.forall_valid name ((Table.contains_iff_mem_names _ name).mp contains)
    have plain := Key.isInternalName_eq_false_of_isAccessorName accessorName
    have unheld (attributes : Table Value) : attribute? attributes name = none := by
      simp [attribute?, plain]
    obtain ⟨halves, found⟩ := Option.isSome_iff_exists.mp contains
    have reader : halves.reader = true := by
      simpa [classify, unheld, found, mem_writableUnless] using readable
    simp [read, unheld, found, reader]
  | @attributedAccessor o _ halves v thawed free found writer internal =>
    -- a name that starts with the sigil is no accessor, so no accessor lies behind another one
    have accessorName := named.1.valid_of_get? found
    have plain := Key.isInternalName_eq_false_of_isAccessorName accessorName
    rw [Key.isInternalName_backing] at plain
    cases known
    have other := named.1.forall_valid name ((Table.contains_iff_mem_names _ name).mp contains)
    rw [plain] at other
    cases other

/-- What a write that succeeds makes of an object. -/
structure Overwritten (o next : Object Value) (key : String) (v : Value) : Prop where
  read_back : next.read key = if .readable ∈ o.classify key then .ok v else .error (.notReadable key)
  classify_back : next.classify key = o.classify key
  shape : SameShape o next
  attributeNames : ¬o.HasAccessor key → next.attributeNames = o.attributeNames
  behind : o.HasAccessor key → next.read (Key.backing key) = .ok v ∧
    next.classify (Key.backing key) = .ofList [.existing, .readable, .internal, .writable] ∧
    next.attributeNames = if Key.backing key ∈ o.attributeNames then o.attributeNames
      else o.attributeNames ++ [Key.backing key]
  before : ∀ name, o.HasAccessor name → key = Key.backing name → .readable ∈ o.classify name →
    next.read name = .ok v
  frame : ∀ other, ¬o.SharesSlot other key →
    next.classify other = o.classify other ∧ next.read other = o.read other

/-- A write that succeeds is read back, through its key and through the other key of its slot, and nothing else is
changed by it. A write in place succeeds in the same cases; where it fails, it leaves the object as it was. -/
theorem write_and_frame {o : Object Value} (reached : o.Reached) (key : String) (v : Value) :
    (∀ next, o.write key v = .ok next →
      (perform (.write key v)).on o = (.ok ⟨⟩, next) ∧ Overwritten o next key v) ∧
    (∀ e, o.write key v = .error e → (perform (.write key v)).on o = (.error e, o)) ∧
    ((perform (.write key v)).on o).2 = o.after (.write key v) := by
  have named := reached.wellNamed
  refine ⟨fun next ok => ⟨?_, ?_⟩, fun e failed => ?_, named.on_perform_snd _⟩
  · exact (named.on_putValue key v).trans (congrArg (settle o) ok)
  · have written := written_of_write ok
    exact {
      read_back := written.read_back.2
      classify_back := written.read_back.1
      shape := written.sameShape
      attributeNames := written.attributeNames_eq
      behind := written.behind named
      before := by
        rintro name accessor rfl readable
        exact written.before named accessor readable
      frame := fun _ apart => written.agrees apart }
  · exact (named.on_putValue key v).trans (congrArg (settle o) failed)

/-- A point whose class lets both coordinates be read and one of them be written. -/
def point : Object Value :=
  attributed ⟨"Point", .ofList [("x", ⟨true, true⟩), ("y", ⟨true, false⟩)], .empty, false⟩

theorem point_write_and_frame : point.Reached ∧ ∃ next, point.write "x" (.int 3) = .ok next ∧
    (perform (.write "x" (.int 3))).on point = (.ok ⟨⟩, next) ∧ next.read "x" = .ok (.int 3) ∧
    next.read "@x" = .ok (.int 3) ∧ next.read "y" = point.read "y" ∧
    (perform (.write "y" .nil)).on next = (.error (.notWritable "y"), next) := by
  have reached : point.Reached :=
    @Reached.attributed _ "Point" [("x", ⟨true, true⟩), ("y", ⟨true, false⟩)] _ rfl
  refine ⟨reached, _, rfl, ?_⟩
  obtain ⟨inPlace, overwritten⟩ := (write_and_frame reached "x" (.int 3)).1 _ rfl
  have later := reached.after (.write "x" (.int 3))
  refine ⟨inPlace, ?_, (overwritten.behind ⟨_, rfl, by decide⟩).1, (overwritten.frame "y" ?_).2,
    (write_and_frame later "y" .nil).2.1 (.notWritable "y") rfl⟩
  · rw [overwritten.read_back, if_pos (by decide)]
  · rintro (same | ⟨_, same⟩ | ⟨_, same⟩)
    · exact absurd same (by decide)
    · exact absurd same (by decide)
    · exact absurd same (by decide)

end Object

end KeyIntrospection
