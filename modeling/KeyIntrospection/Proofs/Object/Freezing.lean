import KeyIntrospection.Proofs.Object.Agreement

/-!
What a run of requests may change about a key. Capabilities are gained and never lost, but for the one
that freezing takes from all keys at once; after that a run can only define accessors.
-/

namespace KeyIntrospection.Object

variable {α : Type}

/-- The object after requests that it answers one after another. -/
def afterAll (o : Object α) (requests : List (Request α)) : Object α := requests.foldl after o

/-- What single steps preserve is preserved by runs. -/
theorem afterAll_invariant (holds : Object α → Prop)
    (kept : ∀ o next, Step o next → holds o → holds next) {o : Object α} (start : holds o)
    (requests : List (Request α)) : holds (o.afterAll requests) := by
  induction requests generalizing o with
  | nil => exact start
  | cons r rest ih => exact ih (kept o _ (step_after o r) start)

def entries? : Object α → Option (Table α)
  | mapping m => some m.entries
  | attributed _ => none
  | descriptor _ => none

/-- The object as it would be had it not been frozen. -/
def thaw : Object α → Object α
  | mapping m => mapping { m with frozen := false }
  | attributed o => attributed { o with frozen := false }
  | descriptor d => descriptor d

@[simp] theorem thaw_freeze (o : Object α) : o.freeze.thaw = o.thaw := by cases o <;> rfl

@[simp] theorem entries?_freeze (o : Object α) : o.freeze.entries? = o.entries? := by cases o <;> rfl

@[simp] theorem attributes?_freeze (o : Object α) : o.freeze.attributes? = o.attributes? := by
  cases o <;> rfl

theorem after_freeze (o : Object α) : o.after .freeze = o.freeze := by cases o <;> rfl

theorem frozen_freeze {o : Object α} (changing : o.kind ≠ .descriptor) : o.freeze.frozen = true := by
  cases o with
  | mapping m => rfl
  | attributed o => rfl
  | descriptor d => exact absurd rfl changing

theorem mem_attributeCapabilities {frozen : Bool} {c : Capability} :
    c ∈ attributeCapabilities frozen ↔
      c = .existing ∨ c = .readable ∨ c = .internal ∨ c = .writable ∧ frozen = false := by
  simp [attributeCapabilities, mem_writableUnless]

theorem mem_entryCapabilities {frozen : Bool} {c : Capability} :
    c ∈ CapabilitySet.ofList ([.existing, .readable] ++ writableUnless frozen) ↔
      c = .existing ∨ c = .readable ∨ c = .writable ∧ frozen = false := by
  simp [mem_writableUnless]

theorem mem_accessorCapabilities {halves : Accessor} {frozen : Bool} {c : Capability} :
    c ∈ CapabilitySet.ofList (.existing :: (if halves.reader then [.readable] else []) ++
        (if halves.writer then writableUnless frozen else [])) ↔
      c = .existing ∨ c = .readable ∧ halves.reader = true ∨
        c = .writable ∧ halves.writer = true ∧ frozen = false := by
  cases halves.reader <;> cases halves.writer <;> simp [mem_writableUnless]

/-- Freezing hides one capability and nothing else. -/
theorem mem_classify_iff {o : Object α} {key : String} {c : Capability} :
    c ∈ o.classify key ↔ c ∈ o.thaw.classify key ∧ (c = .writable → o.frozen = false) := by
  cases o with
  | mapping m =>
    simp only [classify, thaw, Object.frozen]
    split
    · simp only [mem_attributeCapabilities]
      grind
    · split
      · simp only [mem_entryCapabilities]
        grind
      · simp
  | attributed o =>
    simp only [classify, thaw, Object.frozen]
    split
    · simp only [mem_attributeCapabilities]
      grind
    · split
      · simp only [mem_accessorCapabilities]
        grind
      · simp
  | descriptor d => simp [thaw, Object.frozen]

theorem attribute?_set (attributes : Table α) {name : String} (internal : Key.isInternalName name)
    (a : α) (key : String) :
    attribute? (attributes.set name a) key = if key = name then some a else attribute? attributes key := by
  unfold attribute?
  by_cases same : key = name
  · subst same
    simp [internal]
  · simp [same]

/-- An attribute that takes a key from an entry or an accessor offers at least what they did. -/
theorem mem_attributeCapabilities_of_mem_classify {o : Object α} {key : String} {c : Capability}
    (mem : c ∈ o.thaw.classify key) : c ∈ attributeCapabilities false := by
  rw [mem_attributeCapabilities]
  cases o with
  | mapping m =>
    simp only [thaw, classify] at mem
    split at mem
    · exact mem_attributeCapabilities.mp mem
    · split at mem
      · have offered := mem_entryCapabilities.mp mem
        grind
      · exact absurd mem (CapabilitySet.not_mem_emptyCollection c)
  | attributed o =>
    simp only [thaw, classify] at mem
    split at mem
    · exact mem_attributeCapabilities.mp mem
    · split at mem
      · have offered := mem_accessorCapabilities.mp mem
        grind
      · exact absurd mem (CapabilitySet.not_mem_emptyCollection c)
  | descriptor d =>
    simp only [thaw, classify] at mem
    split at mem
    · have offered := CapabilitySet.mem_ofList.mp mem
      grind
    · exact absurd mem (CapabilitySet.not_mem_emptyCollection c)

/-- Freezing apart, no request takes a capability from a key. -/
theorem Step.mem_thaw_classify {o next : Object α} (step : Step o next) {key : String} {c : Capability}
    (mem : c ∈ o.thaw.classify key) : c ∈ next.thaw.classify key := by
  have offered := mem_attributeCapabilities_of_mem_classify mem
  cases step with
  | refused => exact mem
  | frozen => rwa [thaw_freeze]
  | @inserted m name a _ =>
    simp only [thaw, classify] at mem ⊢
    split
    · exact offered
    · next free =>
      rw [if_neg free] at mem
      split at mem
      · next found =>
        rwa [if_pos ((m.entries.contains_set name key a).mpr (Or.inr found))]
      · exact absurd mem (CapabilitySet.not_mem_emptyCollection c)
  | @mappingSet m name a _ internal =>
    simp only [thaw, classify, attribute?_set _ internal] at mem ⊢
    by_cases same : key = name
    · rwa [if_pos same, if_pos Option.isSome_some]
    · rwa [if_neg same]
  | @attributedSet o name a _ internal =>
    simp only [thaw, classify, attribute?_set _ internal] at mem ⊢
    by_cases same : key = name
    · rwa [if_pos same, if_pos Option.isSome_some]
    · rwa [if_neg same]
  | @defined o name halves _ =>
    simp only [thaw, classify, Table.addAccessor, Table.get?_set] at mem ⊢
    split
    · exact offered
    · next free =>
      rw [if_neg free] at mem
      by_cases same : key = name
      · subst same
        cases found : o.accessors.get? key with
        | none => simp [found] at mem
        | some old =>
          rw [found] at mem
          rw [if_pos rfl]
          have kept := mem_accessorCapabilities.mp mem
          refine mem_accessorCapabilities.mpr ?_
          simp only [Option.getD_some, Accessor.merge, Bool.or_eq_true]
          grind
      · rwa [if_neg same]

theorem frozen_after {o : Object α} {r : Request α} (other : r ≠ .freeze) :
    (o.after r).frozen = o.frozen := by
  unfold after
  split
  · next result next answer =>
    cases r with
    | insert name a =>
      cases o <;> simp only [request?, Option.some.injEq, reduceCtorEq] at answer
      obtain ⟨changed, inserted, rfl⟩ := exists_of_map_eq_ok answer
      obtain ⟨thawed, rfl⟩ := insert_eq_ok inserted
      rfl
    | setAttribute name a =>
      have ok : o.setAttribute name a = .ok next := by simpa [request?] using answer
      cases o with
      | mapping m =>
        obtain ⟨changed, set, rfl⟩ := exists_of_map_eq_ok ok
        obtain ⟨_, _, rfl⟩ := mapping_setAttribute_eq_ok set
        rfl
      | attributed o =>
        obtain ⟨changed, set, rfl⟩ := exists_of_map_eq_ok ok
        obtain ⟨_, _, rfl⟩ := attributed_setAttribute_eq_ok set
        rfl
      | descriptor d => cases ok
    | define name halves =>
      cases o <;> simp only [request?, Option.some.injEq, reduceCtorEq] at answer
      obtain ⟨changed, defined, rfl⟩ := exists_of_map_eq_ok answer
      obtain ⟨accessor, rfl⟩ := define_eq_ok defined
      rfl
    | write key a =>
      have ok : o.write key a = .ok next := by simpa [request?] using answer
      cases written_of_write ok <;> rfl
    | freeze => exact absurd rfl other
  · rfl

/-- Only freezing takes a capability from a key, and only the one to write. -/
theorem eq_freeze_of_lost {o : Object α} {r : Request α} {key : String} {c : Capability}
    (mem : c ∈ o.classify key) (lost : c ∉ (o.after r).classify key) :
    c = .writable ∧ r = .freeze ∧ o.kind ≠ .descriptor := by
  have kept : c ∈ (o.after r).thaw.classify key :=
    (step_after o r).mem_thaw_classify (mem_classify_iff.mp mem).1
  obtain ⟨writable, frozen⟩ : c = .writable ∧ (o.after r).frozen = true := by
    rw [mem_classify_iff] at lost
    simpa [kept] using lost
  have thawed : o.frozen = false := (mem_classify_iff.mp mem).2 writable
  by_cases freezing : r = .freeze
  · refine ⟨writable, freezing, fun descriptor => ?_⟩
    subst freezing
    cases o with
    | mapping m => cases descriptor
    | attributed o => cases descriptor
    | descriptor d => cases frozen
  · rw [frozen_after freezing, thawed] at frozen
    cases frozen

theorem classify_freeze {o : Object α} (changing : o.kind ≠ .descriptor) (key : String) :
    o.freeze.classify key = (o.classify key).diff (.singleton .writable) := by
  refine CapabilitySet.ext fun c => ?_
  rw [CapabilitySet.mem_diff, CapabilitySet.mem_singleton, mem_classify_iff, thaw_freeze,
    frozen_freeze changing, @mem_classify_iff _ o]
  grind

/-- What a request may still change of an object that is frozen: no value, and no flag. -/
theorem Step.of_frozen {o next : Object α} (step : Step o next) (frozen : o.frozen = true) :
    next.frozen = true ∧ next.entries? = o.entries? ∧ next.attributes? = o.attributes? := by
  cases step with
  | refused => exact ⟨frozen, rfl, rfl⟩
  | frozen =>
    have changing : o.kind ≠ .descriptor := by
      cases o <;> simp_all [kind, Object.frozen]
    exact ⟨frozen_freeze changing, entries?_freeze o, attributes?_freeze o⟩
  | inserted name a thawed => simp [Object.frozen, thawed] at frozen
  | mappingSet a thawed _ => simp [Object.frozen, thawed] at frozen
  | attributedSet a thawed _ => simp [Object.frozen, thawed] at frozen
  | defined halves _ => exact ⟨frozen, rfl, rfl⟩

/-- Whether the answer to a request is an error. -/
def Refuses (o : Object α) (r : Request α) : Prop := ∃ e, o.request? r = some (.error e)

theorem refuses_setAttribute {o : Object α} (frozen : o.frozen = true) (name : String) (a : α) :
    o.Refuses (.setAttribute name a) := by
  refine ⟨.frozenTarget name o.kind.name, ?_⟩
  cases o with
  | mapping m =>
    have closed : m.frozen = true := frozen
    simp [request?, setAttribute, Mapping.setAttribute, Table.setAttribute, closed, kind, Except.map]
  | attributed o =>
    have closed : o.frozen = true := frozen
    simp [request?, setAttribute, Attributed.setAttribute, Table.setAttribute, closed, kind, Except.map]
  | descriptor d => cases frozen

theorem refuses_write {o : Object α} (frozen : o.frozen = true) (key : String) (a : α) :
    o.Refuses (.write key a) := by
  cases answer : o.write key a with
  | error e => exact ⟨e, by rw [← answer]; cases o <;> rfl⟩
  | ok next =>
    cases written_of_write answer with
    | mappingHeld a thawed => simp [Object.frozen, thawed] at frozen
    | mappingEntry a thawed => simp [Object.frozen, thawed] at frozen
    | attributedHeld a thawed => simp [Object.frozen, thawed] at frozen
    | attributedAccessor a thawed => simp [Object.frozen, thawed] at frozen

/-- What a run comes to after freezing: every value stays, only accessors are still defined, and no
key can be written. -/
structure Settled (before later : Object α) : Prop where
  not_writable : ∀ key, Capability.writable ∉ later.classify key
  entries : later.entries? = before.entries?
  attributes : later.attributes? = before.attributes?
  insert : ∀ key a, later.kind = .mapping → later.Refuses (.insert key a)
  setAttribute : ∀ key a, later.Refuses (.setAttribute key a)
  write : ∀ key a, later.Refuses (.write key a)
  define : ∀ name halves, later.kind = .attributed → Key.isAccessorName name →
    ∃ next, later.request? (.define name halves) = some (.ok next)

theorem settled_of_frozen {before later : Object α} (frozen : later.frozen = true)
    (entries : later.entries? = before.entries?) (attributes : later.attributes? = before.attributes?) :
    Settled before later where
  not_writable key member := by simpa [frozen] using (mem_classify_iff.mp member).2
  entries := entries
  attributes := attributes
  insert key a sort := by
    cases later with
    | mapping m =>
      have closed : m.frozen = true := frozen
      exact ⟨.frozenTarget key ObjectKind.mapping.name, by
        simp [request?, Mapping.insert, closed, Except.map]⟩
    | attributed o => cases sort
    | descriptor d => cases sort
  setAttribute key a := refuses_setAttribute frozen key a
  write key a := refuses_write frozen key a
  define name halves sort accessor := by
    cases later with
    | mapping m => cases sort
    | attributed o => exact ⟨_, by simp [request?, Attributed.define, accessor, Except.map]; rfl⟩
    | descriptor d => cases sort

theorem settled_afterAll {o : Object α} (changing : o.kind ≠ .descriptor) (rest : List (Request α)) :
    Settled o (o.freeze.afterAll rest) := by
  have kept : (o.freeze.afterAll rest).frozen = true ∧
      (o.freeze.afterAll rest).entries? = o.entries? ∧
      (o.freeze.afterAll rest).attributes? = o.attributes? := by
    refine afterAll_invariant
      (fun p => p.frozen = true ∧ p.entries? = o.entries? ∧ p.attributes? = o.attributes?)
      (fun p next step held => ?_) ⟨frozen_freeze changing, entries?_freeze o, attributes?_freeze o⟩ rest
    obtain ⟨frozen, entries, attributes⟩ := held
    obtain ⟨still, sameEntries, sameAttributes⟩ := step.of_frozen frozen
    exact ⟨still, sameEntries.trans entries, sameAttributes.trans attributes⟩
  exact settled_of_frozen kept.1 kept.2.1 kept.2.2

theorem mem_thaw_classify_afterAll {o : Object α} {key : String} {c : Capability}
    (mem : c ∈ o.thaw.classify key) (requests : List (Request α)) :
    c ∈ (o.afterAll requests).thaw.classify key :=
  afterAll_invariant (fun p => c ∈ p.thaw.classify key)
    (fun _ _ step held => step.mem_thaw_classify held) mem requests

/-- Along every run a key keeps what can be done with it, but for writing, which is lost at a freeze
alone, by every key at once and for good. Nothing is ever written to a descriptor, frozen or not. -/
theorem capabilities_along_run (o : Object α) (past : List (Request α)) :
    let now := o.afterAll past
    (∀ key c rest, c ∈ now.classify key → c ≠ .writable → c ∈ (now.afterAll rest).classify key) ∧
    (∀ key r, .writable ∈ now.classify key → .writable ∉ (now.after r).classify key →
      r = .freeze ∧ now.kind ≠ .descriptor) ∧
    (now.kind ≠ .descriptor →
      (∀ key, (now.after .freeze).classify key = (now.classify key).diff (.singleton .writable)) ∧
      ∀ rest, Settled now ((now.after .freeze).afterAll rest)) ∧
    (now.kind = .descriptor →
      (∀ key, .writable ∉ now.classify key) ∧ now.after .freeze = now) := by
  intro now
  rw [after_freeze]
  refine ⟨fun key c rest mem other => ?_, fun key r mem lost => (eq_freeze_of_lost mem lost).2,
    fun changing => ⟨classify_freeze changing, settled_afterAll changing⟩, fun fixed => ?_⟩
  · have kept := mem_thaw_classify_afterAll (mem_classify_iff.mp mem).1 rest
    exact mem_classify_iff.mpr ⟨kept, fun same => absurd same other⟩
  · cases shape : now with
    | mapping m => simp [shape, kind] at fixed
    | attributed o => simp [shape, kind] at fixed
    | descriptor d =>
      refine ⟨fun key => ?_, rfl⟩
      simp only [classify]
      split <;> simp

/-- An object of a class with an accessor that can be written, and with a value in it. -/
def counter : Object Value :=
  attributed ⟨"Counter", .ofList [("count", ⟨true, true⟩)], .ofList [("@count", .int 1)], false⟩

theorem counter_settles :
    .writable ∈ counter.classify "count" ∧ .writable ∉ (counter.after .freeze).classify "count" ∧
      (counter.after .freeze).classify "count" = .ofList [.existing, .readable] ∧
      Settled counter ((counter.after .freeze).afterAll [.define "step" ⟨true, true⟩, .write "count" .nil]) ∧
      .readable ∈ (counter.afterAll [.freeze, .setAttribute "@step" .nil]).classify "count" := by
  obtain ⟨kept, _, freezing, _⟩ := capabilities_along_run counter []
  obtain ⟨lost, settled⟩ := freezing (by decide)
  refine ⟨by decide, by decide, ?_, settled _, kept "count" .readable _ (by decide) (by decide)⟩
  rw [show counter = counter.afterAll [] from rfl, lost]
  decide

end KeyIntrospection.Object
