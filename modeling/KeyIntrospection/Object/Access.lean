import KeyIntrospection.Value

/-!
Asking objects about their keys. `classify` says in advance what can be done with a key, `keys` lists
the keys that exist, `read` and `write` use them. An internal attribute comes before an entry or an
accessor of the same name, and an accessor reads and writes the internal attribute that backs it.
-/

namespace KeyIntrospection

namespace Object

variable {α : Type}

/-- The internal attribute that a key names, if there is one. -/
def attribute? (attributes : Table α) (key : String) : Option α :=
  if Key.isInternalName key then attributes.get? key else none

def writableUnless (frozen : Bool) : List Capability := if frozen then [] else [.writable]

/-- What can be done with an internal attribute. -/
def attributeCapabilities (frozen : Bool) : CapabilitySet :=
  .ofList ([.existing, .readable, .internal] ++ writableUnless frozen)

/-- What can be done with a key; nothing if it does not exist. -/
def classify : Object α → String → CapabilitySet
  | mapping m, key =>
    if (attribute? m.attributes key).isSome then attributeCapabilities m.frozen
    else if m.entries.contains key then .ofList ([.existing, .readable] ++ writableUnless m.frozen)
    else ∅
  | attributed o, key =>
    if (attribute? o.attributes key).isSome then attributeCapabilities o.frozen
    else
      match o.accessors.get? key with
      | some a =>
        .ofList (.existing :: (if a.reader then [.readable] else []) ++
          (if a.writer then writableUnless o.frozen else []))
      | none => ∅
  | descriptor d, key => if d.properties.contains key then .ofList [.existing, .readable] else ∅

/-- The names of entries, accessors or properties. -/
def plainNames : Object α → List String
  | mapping m => m.entries.names
  | attributed o => o.accessors.names
  | descriptor d => d.properties.names

/-- The keys that exist, each once, with or without those of internal attributes at the end. -/
def keys (o : Object α) (withInternal : Bool) : List String :=
  let internal := if withInternal then (o.attributes?.map Table.names).getD [] else []
  o.plainNames ++ internal.filter (· ∉ o.plainNames)

def read : Object Value → String → Except AccessError Value
  | mapping m, key =>
    match attribute? m.attributes key <|> m.entries.get? key with
    | some v => .ok v
    | none => .error (.unknownIdentifier key)
  | attributed o, key =>
    match attribute? o.attributes key with
    | some v => .ok v
    | none =>
      match o.accessors.get? key with
      | some a =>
        if a.reader then .ok ((o.attributes.get? (Key.backing key)).getD .nil)
        else .error (.notReadable key)
      | none => .error (.unknownIdentifier key)
  | descriptor d, key =>
    match d.properties.get? key with
    | some v => .ok v
    | none => .error (.unknownIdentifier key)

/-- Gives a key that exists a new value. -/
def write : Object α → String → α → Except AccessError (Object α)
  | mapping m, key, v =>
    if (attribute? m.attributes key).isSome then (m.setAttribute key v).map mapping
    else if m.entries.contains key then (m.insert key v).map mapping
    else .error (.unknownIdentifier key)
  | attributed o, key, v =>
    if (attribute? o.attributes key).isSome then (o.setAttribute key v).map attributed
    else
      match o.accessors.get? key with
      | some a =>
        if o.frozen then .error (.frozenTarget key ObjectKind.attributed.name)
        else if a.writer then (o.setAttribute (Key.backing key) v).map attributed
        else .error (.notWritable key)
      | none => .error (.unknownIdentifier key)
  | descriptor d, key, _ =>
    if d.properties.contains key then .error (.notWritable key) else .error (.unknownIdentifier key)

end Object

/-- What can be done with a key of a receiver, both given as values. A receiver that is no object and
a key that is no name are mistakes of the caller, not keys that do not exist. -/
def keyInfo (receiver key : Value) : Except AccessError CapabilitySet :=
  match receiver.object?, key.key? with
  | none, _ => .error (.unsupportedReceiver receiver.typeName)
  | some _, none => .error (.invalidKey key.typeName)
  | some o, some name => .ok (o.classify name)

end KeyIntrospection
