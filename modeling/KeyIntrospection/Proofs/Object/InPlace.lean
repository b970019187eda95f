import KeyIntrospection.Proofs.Object.Agreement

/-!
Requests that are carried out by changes to an object in its place. There is only one object then, and nothing takes
its changes back when an error comes up; that a request that fails leaves the object as it was depends on the order of
checks and changes.
-/

namespace KeyIntrospection

/-- Work that changes a state in its place: what it has changed stays so when an error comes up. -/
abbrev InPlace (σ ε α : Type) := ExceptT ε (StateM σ) α

namespace InPlace

variable {σ ε α β : Type}

/-- What the work gives, and what it makes of the state. -/
def on (work : InPlace σ ε α) (state : σ) : Except ε α × σ := StateT.run (ExceptT.run work) state

theorem on_bind_of_ok {work : InPlace σ ε α} {state next : σ} {a : α} (ok : work.on state = (.ok a, next))
    (f : α → InPlace σ ε β) : (work >>= f).on state = (f a).on next := by
  have ran : work state = (.ok a, next) := ok
  show StateT.bind work (ExceptT.bindCont f) state = _
  rw [StateT.bind, ran]
  rfl

theorem on_bind_of_error {work : InPlace σ ε α} {state next : σ} {e : ε} (error : work.on state = (.error e, next))
    (f : α → InPlace σ ε β) : (work >>= f).on state = (.error e, next) := by
  have ran : work state = (.error e, next) := error
  show StateT.bind work (ExceptT.bindCont f) state = _
  rw [StateT.bind, ran]
  rfl

theorem on_get_bind (f : σ → InPlace σ ε β) (state : σ) : (get >>= f).on state = (f state).on state := rfl

theorem on_modify_bind (change : σ → σ) (f : PUnit → InPlace σ ε β) (state : σ) :
    (modify change >>= f).on state = (f ⟨⟩).on (change state) := rfl

theorem on_liftExcept (result : Except ε α) (state : σ) :
    (liftExcept result : InPlace σ ε α).on state = (result, state) := by
  cases result <;> rfl

theorem on_liftExcept_bind_of_ok {result : Except ε α} {a : α} (ok : result = .ok a) (f : α → InPlace σ ε β)
    (state : σ) : (liftExcept result >>= f).on state = (f a).on state :=
  on_bind_of_ok (by rw [on_liftExcept, ok]) f

theorem on_liftExcept_bind_of_error {result : Except ε α} {e : ε} (error : result = .error e)
    (f : α → InPlace σ ε β) (state : σ) : (liftExcept result >>= f).on state = (.error e, state) :=
  on_bind_of_error (by rw [on_liftExcept, error]) f

/-- Work that cannot fail, done for one thing after another. -/
theorem on_forM {work : β → InPlace σ ε PUnit} {step : σ → β → σ}
    (unfailing : ∀ b state, (work b).on state = (.ok ⟨⟩, step state b)) (items : List β) (state : σ) :
    (items.forM work).on state = (.ok ⟨⟩, items.foldl step state) := by
  induction items generalizing state with
  | nil => rfl
  | cons b items ih => exact (on_bind_of_ok (unfailing b state) _).trans (ih _)

end InPlace

/-- How work in place ends that makes the state what a result says, and changes nothing if the result is an error. -/
def settle {σ ε : Type} (state : σ) : Except ε σ → Except ε PUnit × σ
  | .ok next => (.ok ⟨⟩, next)
  | .error e => (.error e, state)

namespace Object

variable {α : Type}

/-- Gives an internal attribute a value, in the table that is put back by `back`. -/
def putIn (owner : ObjectKind) (frozen : Bool) (attributes : Table α) (back : Table α → Object α) (name : String)
    (a : α) : InPlace (Object α) AccessError PUnit :=
  if frozen then throw (.frozenTarget name owner.name)
  else if Key.isInternalName name then set (back (attributes.set name a))
  else throw (.invalidInternalName name)

/-- Gives an internal attribute of an object a value. -/
def putAttribute (name : String) (a : α) : InPlace (Object α) AccessError PUnit := do
  match ← get with
  | .mapping m => putIn .mapping m.frozen m.attributes (fun t => mapping { m with attributes := t }) name a
  | .attributed o => putIn .attributed o.frozen o.attributes (fun t => attributed { o with attributes := t }) name a
  | .descriptor _ => throw (.frozenTarget name ObjectKind.descriptor.name)

/-- Gives an entry of a mapping a value. -/
def putEntry (name : String) (a : α) : InPlace (Object α) AccessError PUnit := do
  let .mapping m ← get | return
  if m.frozen then throw (.frozenTarget name ObjectKind.mapping.name)
  else set (mapping { m with entries := m.entries.set name a })

/-- Defines halves of an accessor of an attributed object, which are merged with those it has. -/
def putAccessor (name : String) (halves : Accessor) : InPlace (Object α) AccessError PUnit := do
  let .attributed o ← get | return
  if Key.isAccessorName name then set (attributed { o with accessors := o.accessors.addAccessor name halves })
  else throw (.invalidAccessorName name)

/-- Gives a key that can be written a new value, in the table that has the key: an internal attribute stands for
itself, an accessor for the attribute behind it. -/
def putWritable (o : Object α) (key : String) (a : α) : InPlace (Object α) AccessError PUnit :=
  if .internal ∈ o.classify key then putAttribute key a
  else
    match o with
    | mapping _ => putEntry key a
    | attributed _ => putAttribute (Key.backing key) a
    | descriptor _ => throw (.notWritable key)

/-- Gives a key that exists a new value, if its capabilities let it be written. -/
def putValue (key : String) (a : α) : InPlace (Object α) AccessError PUnit := do
  let o ← get
  if o.classify key = ∅ then throw (.unknownIdentifier key)
  else if .writable ∈ o.classify key then putWritable o key a
  else throw (if o.frozen then .frozenTarget key o.kind.name else .notWritable key)

/-- Carries out a request, if objects of this kind take requests of this kind. -/
def perform : Request α → InPlace (Object α) AccessError PUnit
  | .insert name a => putEntry name a
  | .setAttribute name a => putAttribute name a
  | .define name halves => putAccessor name halves
  | .write key a => putValue key a
  | .freeze => modify freeze

theorem on_putIn (owner : ObjectKind) (frozen : Bool) (attributes : Table α) (back : Table α → Object α)
    (name : String) (a : α) (o : Object α) :
    (putIn owner frozen attributes back name a).on o =
      settle o ((attributes.setAttribute owner frozen name a).map back) := by
  unfold putIn Table.setAttribute
  split
  · rfl
  · split <;> rfl

theorem on_putAttribute (o : Object α) (name : String) (a : α) :
    (putAttribute name a).on o = settle o (o.setAttribute name a) := by
  rw [putAttribute, InPlace.on_get_bind]
  cases o with
  | mapping m =>
    have whole := Functor.map_map (Mapping.mk m.entries · m.frozen) mapping
      (m.attributes.setAttribute .mapping m.frozen name a)
    exact (on_putIn ..).trans (congrArg (settle _) whole.symm)
  | attributed o =>
    have whole := Functor.map_map (Attributed.mk o.className o.accessors · o.frozen) attributed
      (o.attributes.setAttribute .attributed o.frozen name a)
    exact (on_putIn ..).trans (congrArg (settle _) whole.symm)
  | descriptor d => rfl

theorem on_putEntry (m : Mapping α) (name : String) (a : α) :
    (putEntry name a).on (mapping m) = settle (mapping m) ((m.insert name a).map mapping) := by
  rw [putEntry, InPlace.on_get_bind, Mapping.insert]
  dsimp only
  split <;> rfl

theorem on_putAccessor (o : Attributed α) (name : String) (halves : Accessor) :
    (putAccessor name halves).on (attributed o) = settle (attributed o) ((o.define name halves).map attributed) := by
  rw [putAccessor, InPlace.on_get_bind, Attributed.define]
  dsimp only
  split <;> rfl

/-- What can be written is kept where the capabilities say. -/
theorem Written.on_putWritable {o next : Object α} {key : String} {a : α} (written : Written o key a next) :
    (putWritable o key a).on o = (.ok ⟨⟩, next) := by
  cases written with
  | mappingHeld a thawed held internal =>
    rw [putWritable, if_pos (by simp [classify, held, attributeCapabilities]), on_putAttribute, setAttribute,
      Mapping.setAttribute, setAttribute_of_isInternalName _ _ _ internal, thawed]
    rfl
  | mappingEntry a thawed free found =>
    rw [putWritable, if_neg (by simp [classify, free, found, mem_writableUnless]), on_putEntry, Mapping.insert,
      thawed]
    rfl
  | attributedHeld a thawed held internal =>
    rw [putWritable, if_pos (by simp [classify, held, attributeCapabilities]), on_putAttribute, setAttribute,
      Attributed.setAttribute, setAttribute_of_isInternalName _ _ _ internal, thawed]
    rfl
  | attributedAccessor a thawed free found writer internal =>
    rw [putWritable, if_neg (by simp [classify, free, found, mem_writableUnless])]
    refine (on_putAttribute ..).trans ?_
    rw [setAttribute, Attributed.setAttribute, setAttribute_of_isInternalName _ _ _ internal, thawed]
    rfl

/-- A value that is written in place, as the capabilities of the key say, is written as the tables say. -/
theorem WellNamed.on_putValue {o : Object α} (named : o.WellNamed) (key : String) (a : α) :
    (putValue key a).on o = settle o (o.write key a) := by
  rw [putValue, InPlace.on_get_bind]
  rcases named.write_cases key a with ⟨absent, refused⟩ | ⟨present, closed, frozen, refused⟩ |
    ⟨present, closed, thawed, refused⟩ | ⟨present, opened, next, ok⟩
  · rw [if_pos absent, refused]
    rfl
  · rw [if_neg present, if_neg closed, if_pos frozen, refused]
    rfl
  · rw [if_neg present, if_neg closed, if_neg (Bool.eq_false_iff.mp thawed), refused]
    rfl
  · rw [if_neg present, if_pos opened, (written_of_write ok).on_putWritable, ok]
    rfl

/-- A request that is carried out in place has the answer that it is said to have; if it is refused, the object is left
as it was. -/
theorem WellNamed.on_perform {o : Object α} (named : o.WellNamed) (r : Request α) :
    (perform r).on o = settle o ((o.request? r).getD (.ok o)) := by
  cases r with
  | insert name a =>
    cases o with
    | mapping m => exact on_putEntry m name a
    | attributed o => rfl
    | descriptor d => rfl
  | setAttribute name a => cases o <;> exact on_putAttribute _ name a
  | define name halves =>
    cases o with
    | mapping m => rfl
    | attributed o => exact on_putAccessor o name halves
    | descriptor d => rfl
  | write key a => cases o <;> exact named.on_putValue key a
  | freeze => cases o <;> rfl

/-- What a request in place makes of an object is the object after the request. -/
theorem WellNamed.on_perform_snd {o : Object α} (named : o.WellNamed) (r : Request α) :
    ((perform r).on o).2 = o.after r := by
  rw [named.on_perform, after]
  cases o.request? r with
  | none => rfl
  | some result => cases result <;> rfl

end Object

end KeyIntrospection
