/-!
Capabilities: what can be done with a key of an object. A set of capabilities is a word of eight
bits, so that it can be handed over as a number, and every capability has a symbol. The order of the
bits and the order in which symbols are listed are two different orders.
-/

namespace KeyIntrospection

/-- The capabilities, in the order in which their symbols are listed. -/
inductive Capability where
  | existing
  | readable
  | writable
  | invocable
  | internal
  | insertable
  | removable
  | modifiable
deriving DecidableEq, Repr

namespace Capability

def all : List Capability :=
  [existing, readable, writable, invocable, internal, insertable, removable, modifiable]

def symbol : Capability → String
  | existing => "existing"
  | readable => "readable"
  | writable => "writable"
  | invocable => "invocable"
  | internal => "internal"
  | insertable => "insertable"
  | removable => "removable"
  | modifiable => "modifiable"

/-- The place of a capability in the word that stands for a set. -/
def bit : Capability → Fin 8
  | existing => 0
  | readable => 1
  | writable => 2
  | invocable => 3
  | internal => 4
  | modifiable => 5
  | insertable => 6
  | removable => 7

def ofSymbol? (symbol : String) : Option Capability := all.find? (·.symbol = symbol)

theorem mem_all (c : Capability) : c ∈ all := by cases c <;> decide

@[simp] theorem ofSymbol?_symbol (c : Capability) : ofSymbol? c.symbol = some c := by
  cases c <;> decide

theorem ofSymbol?_eq_some_iff {symbol : String} {c : Capability} :
    ofSymbol? symbol = some c ↔ symbol = c.symbol := by
  constructor
  · intro h
    simpa [eq_comm] using List.find?_some h
  · rintro rfl
    exact ofSymbol?_symbol c

end Capability

/-- A set of capabilities, as a word with one bit for each. -/
structure CapabilitySet where
  bits : BitVec 8
deriving DecidableEq, Repr

namespace CapabilitySet

def empty : CapabilitySet := ⟨0⟩

instance : EmptyCollection CapabilitySet := ⟨empty⟩

/-- The set that a number stands for; the bits above the eighth mean nothing. -/
def ofNat (n : Nat) : CapabilitySet := ⟨.ofNat 8 n⟩

def toNat (s : CapabilitySet) : Nat := s.bits.toNat

def contains (s : CapabilitySet) (c : Capability) : Bool := s.bits.getLsbD c.bit

instance : Membership Capability CapabilitySet := ⟨fun s c => s.contains c = true⟩

instance (c : Capability) (s : CapabilitySet) : Decidable (c ∈ s) :=
  inferInstanceAs (Decidable (s.contains c = true))

def singleton (c : Capability) : CapabilitySet := ⟨.twoPow 8 c.bit⟩

def union (s t : CapabilitySet) : CapabilitySet := ⟨s.bits ||| t.bits⟩

def inter (s t : CapabilitySet) : CapabilitySet := ⟨s.bits &&& t.bits⟩

def diff (s t : CapabilitySet) : CapabilitySet := ⟨s.bits &&& ~~~t.bits⟩

def compl (s : CapabilitySet) : CapabilitySet := ⟨~~~s.bits⟩

def isEmpty (s : CapabilitySet) : Bool := s = empty

/-- Whether every capability of `t` is in `s`. -/
def includes (s t : CapabilitySet) : Bool := s.inter t = t

def intersects (s t : CapabilitySet) : Bool := !(s.inter t).isEmpty

def ofList (cs : List Capability) : CapabilitySet :=
  cs.foldr (fun c s => (singleton c).union s) empty

def toList (s : CapabilitySet) : List Capability := Capability.all.filter s.contains

def symbols (s : CapabilitySet) : List String := s.toList.map (·.symbol)

/-- The set with these symbols, or the first text that is the symbol of no capability. -/
def ofSymbols : List String → Except String CapabilitySet
  | [] => .ok empty
  | symbol :: rest =>
    match Capability.ofSymbol? symbol with
    | none => .error symbol
    | some c => (ofSymbols rest).map (singleton c).union

def display (s : CapabilitySet) : String :=
  "[" ++ ", ".intercalate (s.symbols.map (":" ++ ·)) ++ "]"

@[simp] theorem not_mem_empty (c : Capability) : c ∉ (empty : CapabilitySet) := by
  cases c <;> decide

@[simp] theorem not_mem_emptyCollection (c : Capability) : c ∉ (∅ : CapabilitySet) := not_mem_empty c

@[simp] theorem mem_singleton {c d : Capability} : c ∈ singleton d ↔ c = d := by
  cases c <;> cases d <;> decide

@[simp] theorem mem_union {s t : CapabilitySet} {c : Capability} : c ∈ s.union t ↔ c ∈ s ∨ c ∈ t := by
  simp [Membership.mem, contains, union]

@[simp] theorem mem_inter {s t : CapabilitySet} {c : Capability} : c ∈ s.inter t ↔ c ∈ s ∧ c ∈ t := by
  simp [Membership.mem, contains, inter]

@[simp] theorem mem_diff {s t : CapabilitySet} {c : Capability} : c ∈ s.diff t ↔ c ∈ s ∧ c ∉ t := by
  simp [Membership.mem, contains, diff]

@[simp] theorem mem_compl {s : CapabilitySet} {c : Capability} : c ∈ s.compl ↔ c ∉ s := by
  simp [Membership.mem, contains, compl]

@[simp] theorem mem_ofList {cs : List Capability} {c : Capability} : c ∈ ofList cs ↔ c ∈ cs := by
  induction cs with
  | nil => simp [ofList]
  | cons d rest ih =>
    rw [show ofList (d :: rest) = (singleton d).union (ofList rest) from rfl]
    simp [ih]

/-- The text that is reported is one of the given ones, and no symbol. -/
theorem ofSymbols_eq_error {symbols : List String} {unknown : String} (h : ofSymbols symbols = .error unknown) :
    unknown ∈ symbols ∧ Capability.ofSymbol? unknown = none := by
  induction symbols with
  | nil => cases h
  | cons symbol rest ih =>
    rw [ofSymbols] at h
    split at h
    · next none =>
      cases h
      exact ⟨List.mem_cons_self, none⟩
    · cases others : ofSymbols rest with
      | ok s =>
        rw [others] at h
        cases h
      | error other =>
        rw [others] at h
        cases h
        exact (ih others).imp_left (List.mem_cons_of_mem symbol)

theorem ext {s t : CapabilitySet} (h : ∀ c : Capability, c ∈ s ↔ c ∈ t) : s = t := by
  obtain ⟨a⟩ := s
  obtain ⟨b⟩ := t
  congr 1
  apply BitVec.eq_of_getLsbD_eq
  intro i hi
  have bits (c : Capability) : a.getLsbD c.bit = b.getLsbD c.bit := Bool.eq_iff_iff.2 (h c)
  match i, hi with
  | 0, _ => exact bits .existing
  | 1, _ => exact bits .readable
  | 2, _ => exact bits .writable
  | 3, _ => exact bits .invocable
  | 4, _ => exact bits .internal
  | 5, _ => exact bits .modifiable
  | 6, _ => exact bits .insertable
  | 7, _ => exact bits .removable

end CapabilitySet

end KeyIntrospection
