import KeyIntrospection.Object.Access

/-!
The life of an object: it is built from names and values, and then takes requests, some of which it
refuses. Whatever the requests are, the names of its tables stay those of their sort and each is there
once.
-/

namespace KeyIntrospection

section Results

variable {ε α β : Type}

theorem exists_of_map_eq_ok {result : Except ε α} {f : α → β} {b : β} (ok : result.map f = .ok b) :
    ∃ a, result = .ok a ∧ b = f a := by
  cases result with
  | error e => cases ok
  | ok a => exact ⟨a, rfl, (Except.ok.inj ok).symm⟩

theorem exists_of_bind_eq_ok {result : Except ε α} {f : α → Except ε β} {b : β} (ok : result >>= f = .ok b) :
    ∃ a, result = .ok a ∧ f a = .ok b := by
  cases result with
  | error e => cases ok
  | ok a => exact ⟨a, rfl, ok⟩

/-- What every step keeps is kept by all of them in a row. -/
theorem invariant_of_foldlM {P : β → Prop} {f : β → α → Except ε β} {l : List α}
    (step : ∀ {s t : β} {a : α}, a ∈ l → f s a = .ok t → P s → P t) {s t : β} (ok : l.foldlM f s = .ok t)
    (start : P s) : P t := by
  induction l generalizing s with
  | nil =>
    cases ok
    exact start
  | cons a l ih =>
    rw [List.foldlM_cons] at ok
    obtain ⟨next, first, others⟩ := exists_of_bind_eq_ok ok
    exact ih (fun member => step (List.mem_cons_of_mem a member)) others (step List.mem_cons_self first start)

end Results

/-- Every name of a table is there once and is of the sort `valid`. -/
structure Table.Named {α : Type} (valid : String → Bool) (t : Table α) : Prop where
  nodup : t.names.Nodup
  forall_valid : ∀ name ∈ t.names, valid name

namespace Table.Named

variable {α : Type} {valid : String → Bool} {t : Table α}

theorem empty : (Table.empty : Table α).Named valid := ⟨List.nodup_nil, by simp⟩

theorem ofList (entries : List (String × α)) : (Table.ofList entries).Named fun _ => true :=
  ⟨nodup_names_ofList entries, fun _ _ => rfl⟩

theorem set (named : t.Named valid) {name : String} (sort : valid name) (a : α) :
    (t.set name a).Named valid := by
  refine ⟨nodup_names_set named.nodup name a, fun other member => ?_⟩
  rw [names_set] at member
  split at member
  · exact named.forall_valid other member
  · rcases List.mem_append.mp member with old | new
    · exact named.forall_valid other old
    · cases List.mem_singleton.mp new
      exact sort

theorem valid_of_get? (named : t.Named valid) {name : String} {a : α} (found : t.get? name = some a) :
    valid name :=
  named.forall_valid name ((t.contains_iff_mem_names name).mp (by rw [contains, found]; rfl))

end Table.Named

namespace Object

variable {α : Type}

/-- What an object can be asked to do once it is built. -/
inductive Request (α : Type) where
  | insert (name : String) (a : α)
  | setAttribute (name : String) (a : α)
  | define (name : String) (halves : Accessor)
  | write (key : String) (a : α)
  | freeze

/-- The answer to a request, if objects of this kind take requests of this kind. -/
def request? : Object α → Request α → Option (Except AccessError (Object α))
  | mapping m, .insert name a => some ((m.insert name a).map mapping)
  | attributed o, .define name halves => some ((o.define name halves).map attributed)
  | o, .setAttribute name a => some (o.setAttribute name a)
  | o, .write key a => some (o.write key a)
  | o, .freeze => some (.ok o.freeze)
  | _, _ => none

/-- The object after a request. A request that fails leaves it as it was. -/
def after (o : Object α) (r : Request α) : Object α :=
  match o.request? r with
  | some (.ok next) => next
  | _ => o

/-- The objects that are built from names and values, and those that requests make of them. -/
inductive Reached : Object α → Prop
  | mapping (entries : List (String × α)) : Reached (.mapping (.ofEntries entries))
  | attributed {className : String} {accessors : List (String × Accessor)} {o : Attributed α} :
      Attributed.ofAccessors className accessors = .ok o → Reached (.attributed o)
  | descriptor (properties : List (String × α)) : Reached (.descriptor (.ofProperties properties))
  | after {o : Object α} : Reached o → (r : Request α) → Reached (o.after r)

/-- All that a single request can make of an object. -/
inductive Step : Object α → Object α → Prop
  | refused {o : Object α} : Step o o
  | frozen {o : Object α} : Step o o.freeze
  | inserted {m : Mapping α} (name : String) (a : α) :
      m.frozen = false → Step (.mapping m) (.mapping { m with entries := m.entries.set name a })
  | mappingSet {m : Mapping α} {name : String} (a : α) :
      m.frozen = false → Key.isInternalName name →
      Step (.mapping m) (.mapping { m with attributes := m.attributes.set name a })
  | attributedSet {o : Attributed α} {name : String} (a : α) :
      o.frozen = false → Key.isInternalName name →
      Step (.attributed o) (.attributed { o with attributes := o.attributes.set name a })
  | defined {o : Attributed α} {name : String} (halves : Accessor) :
      Key.isAccessorName name →
      Step (.attributed o) (.attributed { o with accessors := o.accessors.addAccessor name halves })

theorem setAttribute_eq_ok {attributes next : Table α} {owner : ObjectKind} {frozen : Bool}
    {name : String} {a : α} (ok : attributes.setAttribute owner frozen name a = .ok next) :
    frozen = false ∧ Key.isInternalName name ∧ next = attributes.set name a := by
  unfold Table.setAttribute at ok
  split at ok
  · cases ok
  · split at ok
    · cases ok
      exact ⟨by simpa using ‹¬frozen = true›, ‹_›, rfl⟩
    · cases ok

theorem mapping_setAttribute_eq_ok {m next : Mapping α} {name : String} {a : α}
    (ok : m.setAttribute name a = .ok next) :
    m.frozen = false ∧ Key.isInternalName name ∧
      next = { m with attributes := m.attributes.set name a } := by
  obtain ⟨table, set, rfl⟩ := exists_of_map_eq_ok ok
  obtain ⟨thawed, internal, rfl⟩ := setAttribute_eq_ok set
  exact ⟨thawed, internal, rfl⟩

theorem attributed_setAttribute_eq_ok {o next : Attributed α} {name : String} {a : α}
    (ok : o.setAttribute name a = .ok next) :
    o.frozen = false ∧ Key.isInternalName name ∧
      next = { o with attributes := o.attributes.set name a } := by
  obtain ⟨table, set, rfl⟩ := exists_of_map_eq_ok ok
  obtain ⟨thawed, internal, rfl⟩ := setAttribute_eq_ok set
  exact ⟨thawed, internal, rfl⟩

theorem insert_eq_ok {m next : Mapping α} {name : String} {a : α} (ok : m.insert name a = .ok next) :
    m.frozen = false ∧ next = { m with entries := m.entries.set name a } := by
  unfold Mapping.insert at ok
  split at ok
  · cases ok
  · next thawed => exact ⟨by simpa using thawed, (Except.ok.inj ok).symm⟩

theorem define_eq_ok {o next : Attributed α} {name : String} {halves : Accessor}
    (ok : o.define name halves = .ok next) :
    Key.isAccessorName name ∧ next = { o with accessors := o.accessors.addAccessor name halves } := by
  unfold Attributed.define at ok
  split at ok
  · next accessor => exact ⟨accessor, (Except.ok.inj ok).symm⟩
  · cases ok

/-- What a write that succeeds finds at its key, and the table that it changes. -/
inductive Written : Object α → String → α → Object α → Prop
  | mappingHeld {m : Mapping α} {key : String} (a : α) :
      m.frozen = false → (attribute? m.attributes key).isSome = true → Key.isInternalName key →
      Written (.mapping m) key a (.mapping { m with attributes := m.attributes.set key a })
  | mappingEntry {m : Mapping α} {key : String} (a : α) :
      m.frozen = false → attribute? m.attributes key = none → m.entries.contains key = true →
      Written (.mapping m) key a (.mapping { m with entries := m.entries.set key a })
  | attributedHeld {o : Attributed α} {key : String} (a : α) :
      o.frozen = false → (attribute? o.attributes key).isSome = true → Key.isInternalName key →
      Written (.attributed o) key a (.attributed { o with attributes := o.attributes.set key a })
  | attributedAccessor {o : Attributed α} {key : String} {halves : Accessor} (a : α) :
      o.frozen = false → attribute? o.attributes key = none → o.accessors.get? key = some halves →
      halves.writer = true → Key.isInternalName (Key.backing key) →
      Written (.attributed o) key a
        (.attributed { o with attributes := o.attributes.set (Key.backing key) a })

theorem written_of_write {o next : Object α} {key : String} {a : α} (ok : o.write key a = .ok next) :
    Written o key a next := by
  cases o with
  | mapping m =>
    simp only [write] at ok
    split at ok
    · next held =>
      obtain ⟨changed, set, rfl⟩ := exists_of_map_eq_ok ok
      obtain ⟨thawed, internal, rfl⟩ := mapping_setAttribute_eq_ok set
      exact .mappingHeld a thawed held internal
    · next free =>
      split at ok
      · next entry =>
        obtain ⟨changed, inserted, rfl⟩ := exists_of_map_eq_ok ok
        obtain ⟨thawed, rfl⟩ := insert_eq_ok inserted
        exact .mappingEntry a thawed (by simpa using free) entry
      · cases ok
  | attributed o =>
    simp only [write] at ok
    split at ok
    · next held =>
      obtain ⟨changed, set, rfl⟩ := exists_of_map_eq_ok ok
      obtain ⟨thawed, internal, rfl⟩ := attributed_setAttribute_eq_ok set
      exact .attributedHeld a thawed held internal
    · next free =>
      split at ok
      · next halves found =>
        split at ok
        · cases ok
        · split at ok
          · next writer =>
            obtain ⟨changed, set, rfl⟩ := exists_of_map_eq_ok ok
            obtain ⟨thawed, internal, rfl⟩ := attributed_setAttribute_eq_ok set
            exact .attributedAccessor a thawed (by simpa using free) found writer internal
          · cases ok
      · cases ok
  | descriptor d =>
    simp only [write] at ok
    split at ok <;> cases ok

theorem Step.of_setAttribute {o next : Object α} {name : String} {a : α}
    (ok : o.setAttribute name a = .ok next) : Step o next := by
  cases o with
  | mapping m =>
    obtain ⟨changed, set, rfl⟩ := exists_of_map_eq_ok ok
    obtain ⟨thawed, internal, rfl⟩ := mapping_setAttribute_eq_ok set
    exact .mappingSet a thawed internal
  | attributed o =>
    obtain ⟨changed, set, rfl⟩ := exists_of_map_eq_ok ok
    obtain ⟨thawed, internal, rfl⟩ := attributed_setAttribute_eq_ok set
    exact .attributedSet a thawed internal
  | descriptor d => cases ok

theorem Step.of_insert {m : Mapping α} {name : String} {a : α} {next : Object α}
    (ok : (m.insert name a).map Object.mapping = .ok next) : Step (.mapping m) next := by
  obtain ⟨changed, inserted, rfl⟩ := exists_of_map_eq_ok ok
  obtain ⟨thawed, rfl⟩ := insert_eq_ok inserted
  exact .inserted name a thawed

theorem Step.of_write {o next : Object α} {key : String} {a : α} (ok : o.write key a = .ok next) :
    Step o next := by
  cases written_of_write ok with
  | mappingHeld a thawed _ internal => exact .mappingSet a thawed internal
  | mappingEntry a thawed => exact .inserted key a thawed
  | attributedHeld a thawed _ internal => exact .attributedSet a thawed internal
  | attributedAccessor a thawed _ _ _ internal => exact .attributedSet a thawed internal

theorem Step.of_define {o : Attributed α} {name : String} {halves : Accessor} {next : Object α}
    (ok : (o.define name halves).map Object.attributed = .ok next) : Step (.attributed o) next := by
  obtain ⟨changed, defined, rfl⟩ := exists_of_map_eq_ok ok
  obtain ⟨accessor, rfl⟩ := define_eq_ok defined
  exact .defined halves accessor

theorem step_after (o : Object α) (r : Request α) : Step o (o.after r) := by
  unfold after
  split
  · next result answer =>
    cases r with
    | insert name a =>
      cases o <;> simp only [request?, Option.some.injEq, reduceCtorEq] at answer
      exact .of_insert answer
    | setAttribute name a => exact .of_setAttribute (by simpa [request?] using answer)
    | define name halves =>
      cases o <;> simp only [request?, Option.some.injEq, reduceCtorEq] at answer
      exact .of_define answer
    | write key a => exact .of_write (by simpa [request?] using answer)
    | freeze =>
      simp only [request?, Option.some.injEq, Except.ok.injEq] at answer
      exact answer ▸ .frozen
  · exact .refused

/-- The names of entries and properties are free, those of attributes and accessors are not. -/
def WellNamed : Object α → Prop
  | mapping m => (m.entries.Named fun _ => true) ∧ m.attributes.Named Key.isInternalName
  | attributed o => o.accessors.Named Key.isAccessorName ∧ o.attributes.Named Key.isInternalName
  | descriptor d => d.properties.Named fun _ => true

theorem WellNamed.step {o next : Object α} (named : o.WellNamed) (step : Step o next) :
    next.WellNamed := by
  cases step with
  | refused => exact named
  | frozen => cases o <;> exact named
  | inserted name a => exact ⟨named.1.set rfl a, named.2⟩
  | mappingSet a _ internal => exact ⟨named.1, named.2.set internal a⟩
  | attributedSet a _ internal => exact ⟨named.1, named.2.set internal a⟩
  | defined halves accessor => exact ⟨named.1.set accessor _, named.2⟩

theorem wellNamed_of_ofAccessors {className : String} {accessors : List (String × Accessor)} {o : Attributed α}
    (built : Attributed.ofAccessors className accessors = .ok o) : (attributed o).WellNamed := by
  refine invariant_of_foldlM (P := fun o => (attributed o).WellNamed) (fun {o next entry} _ defined named => ?_) built
    ⟨.empty, .empty⟩
  have step : (o.define entry.1 entry.2).map Object.attributed = .ok (.attributed next) :=
    congrArg (Except.map Object.attributed) defined
  exact named.step (.of_define step)

theorem Reached.wellNamed {o : Object α} (reached : o.Reached) : o.WellNamed := by
  induction reached with
  | mapping entries => exact ⟨.ofList entries, .empty⟩
  | attributed built => exact wellNamed_of_ofAccessors built
  | descriptor properties => exact .ofList properties
  | after _ r ih => exact ih.step (step_after _ r)

end Object

end KeyIntrospection
