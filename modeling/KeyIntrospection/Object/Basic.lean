import KeyIntrospection.Capability
import KeyIntrospection.Diagnostic
import KeyIntrospection.Key
import KeyIntrospection.Table

/-!
Objects that keys are looked up on. A mapping holds entries under any names, an attributed object
offers accessors that its class has declared, and a descriptor holds properties that never change.
Mappings and attributed objects also keep internal attributes, and they can be frozen; accessors are
defined on frozen objects too, since that changes no value.
-/

namespace KeyIntrospection

/-- Why an object refused a request. -/
inductive AccessError where
  | unsupportedReceiver (typeName : String)
  | invalidKey (typeName : String)
  | invalidInternalName (name : String)
  | invalidAccessorName (name : String)
  | unknownIdentifier (key : String)
  | notReadable (key : String)
  | notWritable (key : String)
  | frozenTarget (key kind : String)
deriving DecidableEq, Repr

namespace AccessError

def message : AccessError → String
  | unsupportedReceiver typeName => s!"Unsupported receiver: {typeName} does not expose keys"
  | invalidKey typeName => s!"Invalid key: expected a String or Symbol, found {typeName}"
  | invalidInternalName name => s!"Invalid internal attribute name: {name}"
  | invalidAccessorName name => s!"Invalid accessor name: {name}"
  | unknownIdentifier key => s!"Unknown identifier: {key}"
  | notReadable key => s!"Key {key} is not readable"
  | notWritable key => s!"Key {key} is not writable"
  | frozenTarget key kind => s!"Can't modify frozen {kind}: cannot write {key}"

def code : AccessError → String
  | unsupportedReceiver _ => "interop::unsupported_receiver"
  | invalidKey _ => "interop::invalid_key"
  | invalidInternalName _ => "interop::invalid_internal_name"
  | invalidAccessorName _ => "interop::invalid_accessor_name"
  | unknownIdentifier _ => "interop::unknown_identifier"
  | notReadable _ => "interop::not_readable"
  | notWritable _ => "interop::not_writable"
  | frozenTarget _ _ => "interop::frozen_target"

def help? : AccessError → Option String
  | unsupportedReceiver _ =>
    some "Only Hash-like, attributed and meta objects can be queried for keys"
  | invalidKey _ => some "Keys are names; pass a String or a Symbol"
  | invalidInternalName _ =>
    some "Internal attribute names are a single '@' followed by an identifier, like @exists"
  | invalidAccessorName _ =>
    some "Accessor names are identifiers without the '@' sigil, like ro or rw"
  | unknownIdentifier _ => none
  | notReadable _ => some "The name has a writer but no reader"
  | notWritable _ => none
  | frozenTarget _ _ => some "Frozen objects keep their readable keys but reject every write"

def diagnostic (e : AccessError) : Diagnostic := ⟨e.message, e.code, e.help?, []⟩

end AccessError

/-- The halves of an accessor that are defined. -/
structure Accessor where
  reader : Bool
  writer : Bool
deriving DecidableEq, Repr

def Accessor.merge (a b : Accessor) : Accessor := ⟨a.reader || b.reader, a.writer || b.writer⟩

/-- Defines halves of an accessor in a table, next to those it may have already. -/
def Table.addAccessor (t : Table Accessor) (name : String) (a : Accessor) : Table Accessor :=
  t.set name (((t.get? name).getD ⟨false, false⟩).merge a)

/-- The kinds of objects, as their hosts name them. -/
inductive ObjectKind where
  | mapping
  | attributed
  | descriptor
deriving DecidableEq, Repr

def ObjectKind.name : ObjectKind → String
  | mapping => "Hash"
  | attributed => "Object"
  | descriptor => "MetaObject"

/-- The internal attributes with a new value for one of them, unless their owner is frozen or the
name is not the name of an internal attribute. -/
def Table.setAttribute {α : Type} (attributes : Table α) (owner : ObjectKind) (frozen : Bool)
    (name : String) (a : α) : Except AccessError (Table α) :=
  if frozen then .error (.frozenTarget name owner.name)
  else if Key.isInternalName name then .ok (attributes.set name a)
  else .error (.invalidInternalName name)

/-- An object with entries under any names. -/
structure Mapping (α : Type) where
  entries : Table α := .empty
  attributes : Table α := .empty
  frozen : Bool := false
deriving DecidableEq

namespace Mapping

variable {α : Type}

def ofEntries (entries : List (String × α)) : Mapping α := ⟨.ofList entries, .empty, false⟩

def freeze (m : Mapping α) : Mapping α := { m with frozen := true }

def insert (m : Mapping α) (name : String) (a : α) : Except AccessError (Mapping α) :=
  if m.frozen then .error (.frozenTarget name ObjectKind.mapping.name)
  else .ok { m with entries := m.entries.set name a }

def setAttribute (m : Mapping α) (name : String) (a : α) : Except AccessError (Mapping α) :=
  (m.attributes.setAttribute .mapping m.frozen name a).map fun t => { m with attributes := t }

end Mapping

/-- An object with the accessors of its class. -/
structure Attributed (α : Type) where
  className : String
  accessors : Table Accessor := .empty
  attributes : Table α := .empty
  frozen : Bool := false
deriving DecidableEq

namespace Attributed

variable {α : Type}

def freeze (a : Attributed α) : Attributed α := { a with frozen := true }

def define (o : Attributed α) (name : String) (a : Accessor) : Except AccessError (Attributed α) :=
  if Key.isAccessorName name then .ok { o with accessors := o.accessors.addAccessor name a }
  else .error (.invalidAccessorName name)

def setAttribute (o : Attributed α) (name : String) (a : α) : Except AccessError (Attributed α) :=
  (o.attributes.setAttribute .attributed o.frozen name a).map fun t => { o with attributes := t }

/-- A new object of a class with accessors for all the names, defined from left to right. -/
def ofAccessors (className : String) (accessors : List (String × Accessor)) :
    Except AccessError (Attributed α) :=
  accessors.foldlM (fun o (name, a) => o.define name a) ⟨className, .empty, .empty, false⟩

end Attributed

/-- An object that describes another one by properties. -/
structure Descriptor (α : Type) where
  properties : Table α := .empty
deriving DecidableEq

def Descriptor.ofProperties {α : Type} (properties : List (String × α)) : Descriptor α :=
  ⟨.ofList properties⟩

inductive Object (α : Type) where
  | mapping (m : Mapping α)
  | attributed (o : Attributed α)
  | descriptor (d : Descriptor α)
deriving DecidableEq

namespace Object

variable {α : Type}

def kind : Object α → ObjectKind
  | mapping _ => .mapping
  | attributed _ => .attributed
  | descriptor _ => .descriptor

/-- Whether writes are refused because the object was frozen; a descriptor refuses them anyway. -/
def frozen : Object α → Bool
  | mapping m => m.frozen
  | attributed o => o.frozen
  | descriptor _ => false

def freeze : Object α → Object α
  | mapping m => mapping m.freeze
  | attributed o => attributed o.freeze
  | descriptor d => descriptor d

def attributes? : Object α → Option (Table α)
  | mapping m => some m.attributes
  | attributed o => some o.attributes
  | descriptor _ => none

def setAttribute : Object α → String → α → Except AccessError (Object α)
  | mapping m, name, a => (m.setAttribute name a).map mapping
  | attributed o, name, a => (o.setAttribute name a).map attributed
  | descriptor _, name, _ => .error (.frozenTarget name ObjectKind.descriptor.name)

end Object

end KeyIntrospection
