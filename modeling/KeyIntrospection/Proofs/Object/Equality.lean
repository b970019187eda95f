import KeyIntrospection.Proofs.Object.Agreement
import KeyIntrospection.Proofs.Run.Tables
import Mathlib.Data.List.Perm.Basic

/-!
Objects that are equal. Their tables have equal values under the same names, in whatever order, and no request
tells them apart: keys are classified alike, the same keys are listed, what is read is equal again, and so are
the objects after a write. Equality is not reflexive, since one number is no number and equals nothing.
-/

namespace KeyIntrospection

/-- Both results are the same error, or both are values that are related. -/
inductive Concur {ε α : Type} (R : α → α → Prop) : Except ε α → Except ε α → Prop
  | failed (e : ε) : Concur R (.error e) (.error e)
  | done {a b : α} : R a b → Concur R (.ok a) (.ok b)

theorem Concur.map {ε α β : Type} {R : α → α → Prop} {S : β → β → Prop} {x y : Except ε α}
    {f g : α → β} (concur : Concur R x y) (related : ∀ {a b}, R a b → S (f a) (g b)) :
    Concur S (x.map f) (y.map g) := by
  cases concur with
  | failed e => exact .failed e
  | done same => exact .done (related same)

namespace Table

variable {α : Type} {R : α → α → Prop} {t u : Table α} {name : String} {a b : α}

/-- The tables have the same names, in whatever order, and related values under each name. -/
structure Matches (t : Table α) (R : α → α → Prop) (u : Table α) : Prop where
  names : t.names.Perm u.names
  values : ∀ name, Option.Rel R (t.get? name) (u.get? name)

theorem get?_of_mem (distinct : t.names.Nodup) (member : (name, a) ∈ t.entries) : t.get? name = some a := by
  obtain ⟨front, back, split⟩ := List.append_of_mem member
  rw [Table.names, split, List.map_append, List.nodup_append] at distinct
  refine List.lookup_eq_some_iff.mpr ⟨front, back, split, fun entry mem => ?_⟩
  have other : entry.1 ≠ name := distinct.2.2 entry.1 (List.mem_map_of_mem mem) name (by simp)
  simpa using other.symm

theorem mem_of_get? (found : t.get? name = some a) : (name, a) ∈ t.entries := by
  obtain ⟨front, back, rfl, _⟩ := exists_of_get? found
  simp

/-- It is enough to look up every entry of one table in the other if they are of one size. -/
theorem matches_iff (distinct : t.names.Nodup) :
    t.Matches R u ↔ t.size = u.size ∧ ∀ entry ∈ t.entries, ∃ b, u.get? entry.1 = some b ∧ R entry.2 b := by
  constructor
  · rintro ⟨names, values⟩
    refine ⟨by simpa [Table.names, Table.size] using names.length_eq, fun (name, a) member => ?_⟩
    have related := values name
    rw [get?_of_mem distinct member] at related
    cases found : u.get? name with
    | none => rw [found] at related; cases related
    | some b =>
      rw [found] at related
      cases related with
      | some same => exact ⟨b, rfl, same⟩
  · rintro ⟨size, found⟩
    have inside : t.names ⊆ u.names := by
      intro name member
      obtain ⟨⟨other, a⟩, there, rfl⟩ := List.mem_map.mp member
      obtain ⟨b, held, _⟩ := found _ there
      exact (u.contains_iff_mem_names other).mp (by rw [contains, held]; rfl)
    have names : t.names.Perm u.names := by
      refine (List.subperm_of_subset distinct inside).perm_of_length_le ?_
      simpa [Table.names, Table.size] using Nat.le_of_eq size.symm
    refine ⟨names, fun name => ?_⟩
    cases held : t.get? name with
    | none =>
      have missing : name ∉ u.names := (not_congr names.mem_iff).mp (get?_eq_none_iff.mp held)
      rw [get?_eq_none_iff.mpr missing]
      exact .none
    | some a =>
      obtain ⟨b, there, same⟩ := found _ (mem_of_get? held)
      rw [there]
      exact .some same

/-- A table is related to itself if its values are. -/
theorem matches_self_iff (distinct : t.names.Nodup) : t.Matches R t ↔ ∀ a ∈ t.entries.map (·.2), R a a := by
  rw [matches_iff distinct, and_iff_right rfl, List.forall_mem_map]
  refine forall₂_congr fun entry member => ?_
  rw [get?_of_mem distinct member]
  simp

namespace Matches

theorem mem_names_iff (same : t.Matches R u) : name ∈ t.names ↔ name ∈ u.names := same.names.mem_iff

theorem contains_eq (same : t.Matches R u) (name : String) : t.contains name = u.contains name := by
  rw [Bool.eq_iff_iff, contains_iff_mem_names, contains_iff_mem_names, same.mem_names_iff]

theorem set (same : t.Matches R u) (name : String) (related : R a b) : (t.set name a).Matches R (u.set name b) where
  names := by
    rw [names_set, names_set]
    simp only [same.mem_names_iff]
    split
    · exact same.names
    · exact same.names.append_right [name]
  values other := by
    rw [get?_set, get?_set]
    split
    · exact .some related
    · exact same.values other

end Matches

end Table

/-- The values are equal; a number that is no number is equal to none. -/
abbrev Value.Equal (v w : Value) : Prop := v.equals w = true

namespace Object

/-- The values that an object has in its tables. -/
def held {α : Type} : Object α → List α
  | mapping m => m.entries.entries.map (·.2) ++ m.attributes.entries.map (·.2)
  | attributed o => o.attributes.entries.map (·.2)
  | descriptor d => d.properties.entries.map (·.2)

/-- No table of the object has a name twice. -/
def Distinct {α : Type} (o : Object α) : Prop := o.plainNames.Nodup ∧ o.attributeNames.Nodup

/-- Objects that are built and changed by requests have no name twice. -/
theorem Reached.distinct {α : Type} {o : Object α} (reached : o.Reached) : o.Distinct :=
  ⟨reached.wellNamed.nodup_plainNames, reached.wellNamed.nodup_attributeNames⟩

/-- Objects of one kind with the same accessors and the same state, whose values are equal under each name. -/
inductive Equal : Object Value → Object Value → Prop
  | mapping {m n : Mapping Value} :
      m.entries.Matches Value.Equal n.entries →
      m.attributes.Matches Value.Equal n.attributes → m.frozen = n.frozen →
      Equal (.mapping m) (.mapping n)
  | attributed {o p : Attributed Value} :
      o.className = p.className → o.accessors.Matches (· = ·) p.accessors →
      o.attributes.Matches Value.Equal p.attributes → o.frozen = p.frozen →
      Equal (.attributed o) (.attributed p)
  | descriptor {d e : Descriptor Value} :
      d.properties.Matches Value.Equal e.properties → Equal (.descriptor d) (.descriptor e)

end Object

theorem entriesEqual_iff {entries : List (String × Value)} {t : Table Value} :
    entriesEqual entries t = true ↔ ∀ entry ∈ entries, ∃ w, t.get? entry.1 = some w ∧ entry.2.equals w = true := by
  induction entries with
  | nil => simp [entriesEqual]
  | cons entry rest ih =>
    obtain ⟨name, v⟩ := entry
    rw [entriesEqual, Bool.and_eq_true, ih, List.forall_mem_cons]
    refine and_congr_left fun _ => ?_
    cases t.get? name <;> simp

theorem Table.sameAs_iff {t u : Table Accessor} (distinct : t.names.Nodup) :
    t.sameAs u = true ↔ t.Matches (· = ·) u := by
  rw [matches_iff distinct]
  simp [sameAs]

theorem Table.equal_iff {t u : Table Value} (distinct : t.names.Nodup) :
    (t.entries.length == u.size && entriesEqual t.entries u) = true ↔ t.Matches Value.Equal u := by
  rw [matches_iff distinct, Bool.and_eq_true, entriesEqual_iff, beq_iff_eq]
  rfl

namespace Object

theorem equal_iff {o p : Object Value} (distinct : o.Distinct) : objectEquals o p = true ↔ o.Equal p := by
  obtain ⟨plain, internal⟩ := distinct
  cases o with
  | mapping m =>
    cases p with
    | mapping n =>
      have fields : objectEquals (.mapping m) (.mapping n) =
          ((m.entries.entries.length == n.entries.size && entriesEqual m.entries.entries n.entries) &&
            (m.attributes.entries.length == n.attributes.size &&
              entriesEqual m.attributes.entries n.attributes) && m.frozen == n.frozen) := rfl
      rw [fields, Bool.and_eq_true, Bool.and_eq_true, Table.equal_iff plain, Table.equal_iff internal, beq_iff_eq]
      constructor
      · rintro ⟨⟨entries, attributes⟩, frozen⟩
        exact .mapping entries attributes frozen
      · intro equal
        cases equal with
        | mapping entries attributes frozen => exact ⟨⟨entries, attributes⟩, frozen⟩
    | _ => exact iff_of_false Bool.false_ne_true nofun
  | attributed o =>
    cases p with
    | attributed p =>
      have fields : objectEquals (.attributed o) (.attributed p) =
          ((o.className == p.className && o.accessors.sameAs p.accessors) &&
            (o.attributes.entries.length == p.attributes.size &&
              entriesEqual o.attributes.entries p.attributes) && o.frozen == p.frozen) := rfl
      rw [fields, Bool.and_eq_true, Bool.and_eq_true, Bool.and_eq_true, Table.sameAs_iff plain,
        Table.equal_iff internal, beq_iff_eq, beq_iff_eq]
      constructor
      · rintro ⟨⟨⟨className, accessors⟩, attributes⟩, frozen⟩
        exact .attributed className accessors attributes frozen
      · intro equal
        cases equal with
        | attributed className accessors attributes frozen => exact ⟨⟨⟨className, accessors⟩, attributes⟩, frozen⟩
    | _ => exact iff_of_false Bool.false_ne_true nofun
  | descriptor d =>
    cases p with
    | descriptor e =>
      have fields : objectEquals (.descriptor d) (.descriptor e) =
          (d.properties.entries.length == e.properties.size && entriesEqual d.properties.entries e.properties) := rfl
      rw [fields, Table.equal_iff plain]
      constructor
      · exact .descriptor
      · intro equal
        cases equal with
        | descriptor properties => exact properties
    | _ => exact iff_of_false Bool.false_ne_true nofun

section Messages

variable {o p : Object Value} {key : String}

theorem matches_attribute? {t u : Table Value} (same : t.Matches Value.Equal u) (key : String) :
    Option.Rel Value.Equal (attribute? t key) (attribute? u key) := by
  unfold attribute?
  split
  · exact same.values key
  · exact .none

theorem isSome_eq_of_rel {α : Type} {R : α → α → Prop} {x y : Option α} (related : Option.Rel R x y) :
    x.isSome = y.isSome := by
  cases related <;> rfl

theorem eq_of_rel_eq {α : Type} {x y : Option α} (related : Option.Rel (· = ·) x y) : x = y := by
  cases related with
  | none => rfl
  | some same => rw [same]

namespace Equal

theorem classify_eq (equal : o.Equal p) (key : String) : o.classify key = p.classify key := by
  cases equal with
  | mapping entries attributes frozen =>
    simp only [classify, isSome_eq_of_rel (matches_attribute? attributes key), entries.contains_eq, frozen]
  | attributed _ accessors attributes frozen =>
    have halves := eq_of_rel_eq (accessors.values key)
    simp only [classify, isSome_eq_of_rel (matches_attribute? attributes key), halves, frozen]
  | descriptor properties => simp only [classify, properties.contains_eq]

theorem plainNames_perm (equal : o.Equal p) : o.plainNames.Perm p.plainNames := by
  cases equal with
  | mapping entries _ _ => exact entries.names
  | attributed _ accessors _ _ => exact accessors.names
  | descriptor properties => exact properties.names

theorem attributeNames_perm (equal : o.Equal p) : o.attributeNames.Perm p.attributeNames := by
  cases equal with
  | mapping _ attributes _ => exact attributes.names
  | attributed _ _ attributes _ => exact attributes.names
  | descriptor _ => exact .refl _

theorem keys_perm (equal : o.Equal p) (withInternal : Bool) : (o.keys withInternal).Perm (p.keys withInternal) := by
  have plain : (o.keys false).Perm (p.keys false) := by simpa [keys] using equal.plainNames_perm
  cases withInternal with
  | false => exact plain
  | true =>
    have unlisted : ∀ name, decide (name ∉ o.keys false) = decide (name ∉ p.keys false) := fun name => by
      simp only [plain.mem_iff]
    rw [keys_true_eq, keys_true_eq, List.filter_congr fun name _ => unlisted name]
    exact plain.append (equal.attributeNames_perm.filter _)

theorem read_concur (equal : o.Equal p) (key : String) :
    Concur Value.Equal (o.read key) (p.read key) := by
  cases equal with
  | @mapping m n entries attributes frozen =>
    have held := matches_attribute? attributes key
    have entry := entries.values key
    simp only [read]
    generalize attribute? m.attributes key = x, attribute? n.attributes key = y at held
    generalize m.entries.get? key = x', n.entries.get? key = y' at entry
    cases held with
    | some same => exact .done same
    | none =>
      cases entry with
      | some same => exact .done same
      | none => exact .failed _
  | @attributed o p className accessors attributes frozen =>
    have held := matches_attribute? attributes key
    have backed := attributes.values (Key.backing key)
    simp only [read, eq_of_rel_eq (accessors.values key)]
    generalize attribute? o.attributes key = x, attribute? p.attributes key = y at held
    generalize o.attributes.get? (Key.backing key) = x', p.attributes.get? (Key.backing key) = y' at backed
    cases held with
    | some same => exact .done same
    | none =>
      dsimp only
      split
      · next a _ =>
        split
        · cases backed with
          | some same => exact .done same
          | none => exact .done rfl
        · exact .failed _
      · exact .failed _
  | @descriptor d e properties =>
    have property := properties.values key
    simp only [read]
    generalize d.properties.get? key = x, e.properties.get? key = y at property
    cases property with
    | some same => exact .done same
    | none => exact .failed _

theorem setAttribute_concur {t u : Table Value} (same : t.Matches Value.Equal u) (owner : ObjectKind) (frozen : Bool)
    (name : String) {v w : Value} (related : v.Equal w) :
    Concur (Table.Matches · Value.Equal ·) (t.setAttribute owner frozen name v) (u.setAttribute owner frozen name w) := by
  unfold Table.setAttribute
  split
  · exact .failed _
  · split
    · exact .done (same.set name related)
    · exact .failed _

theorem mapping_setAttribute_concur {m n : Mapping Value} (equal : Equal (.mapping m) (.mapping n)) (name : String)
    {v w : Value} (related : v.Equal w) :
    Concur (fun m n => Equal (.mapping m) (.mapping n)) (m.setAttribute name v) (n.setAttribute name w) := by
  cases equal with
  | mapping entries attributes frozen =>
    rw [Mapping.setAttribute, Mapping.setAttribute, frozen]
    exact (setAttribute_concur attributes .mapping n.frozen name related).map fun changed =>
      .mapping entries changed rfl

theorem attributed_setAttribute_concur {o p : Attributed Value} (equal : Equal (.attributed o) (.attributed p))
    (name : String) {v w : Value} (related : v.Equal w) :
    Concur (fun o p => Equal (.attributed o) (.attributed p)) (o.setAttribute name v) (p.setAttribute name w) := by
  cases equal with
  | attributed className accessors attributes frozen =>
    rw [Attributed.setAttribute, Attributed.setAttribute, frozen]
    exact (setAttribute_concur attributes .attributed p.frozen name related).map fun changed =>
      .attributed className accessors changed rfl

theorem insert_concur {m n : Mapping Value} (equal : Equal (.mapping m) (.mapping n)) (name : String) {v w : Value}
    (related : v.Equal w) :
    Concur (fun m n => Equal (.mapping m) (.mapping n)) (m.insert name v) (n.insert name w) := by
  cases equal with
  | mapping entries attributes frozen =>
    rw [Mapping.insert, Mapping.insert, frozen]
    split
    · exact .failed _
    · exact .done (.mapping (entries.set name related) attributes rfl)

/-- Objects that are equal stay so when equal values are written to them. -/
theorem write_concur (equal : o.Equal p) (key : String) {v w : Value} (related : v.Equal w) :
    Concur Equal (o.write key v) (p.write key w) := by
  cases id equal with
  | @mapping m n entries attributes frozen =>
    simp only [write, isSome_eq_of_rel (matches_attribute? attributes key), entries.contains_eq]
    split
    · exact (mapping_setAttribute_concur equal key related).map id
    · split
      · exact (insert_concur equal key related).map id
      · exact .failed _
  | @attributed o p className accessors attributes frozen =>
    simp only [write, isSome_eq_of_rel (matches_attribute? attributes key), eq_of_rel_eq (accessors.values key), frozen]
    split
    · exact (attributed_setAttribute_concur equal key related).map id
    · split
      · split
        · exact .failed _
        · split
          · exact (attributed_setAttribute_concur equal (Key.backing key) related).map id
          · exact .failed _
      · exact .failed _
  | @descriptor d e properties =>
    simp only [write, properties.contains_eq]
    split
    · exact .failed _
    · exact .failed _

end Equal

/-- What is written to an object leaves no name in a table twice. -/
theorem Distinct.write {o next : Object Value} (distinct : o.Distinct) {key : String} {v : Value}
    (ok : o.write key v = .ok next) : next.Distinct := by
  obtain ⟨plain, internal⟩ := distinct
  cases written_of_write ok with
  | mappingHeld => exact ⟨plain, Table.nodup_names_set internal _ _⟩
  | mappingEntry => exact ⟨Table.nodup_names_set plain _ _, internal⟩
  | attributedHeld => exact ⟨plain, Table.nodup_names_set internal _ _⟩
  | attributedAccessor => exact ⟨plain, Table.nodup_names_set internal _ _⟩

end Messages

end Object

/-- The value `w` is `v`, or it is inside a value that a table of the object `v` has. -/
inductive Value.Inside (w : Value) : Value → Prop
  | self : Inside w w
  | held {o : Object Value} {v : Value} : v ∈ o.held → Inside w v → Inside w (.object o)

/-- No object inside the value has a name twice in a table. -/
def Value.Distinct (v : Value) : Prop := ∀ o, (Value.object o).Inside v → o.Distinct

namespace Object

theorem sizeOf_lt_of_mem {entries : List (String × Value)} {v : Value} (member : v ∈ entries.map (·.2)) :
    sizeOf v < sizeOf entries := by
  obtain ⟨⟨name, w⟩, there, rfl⟩ := List.mem_map.mp member
  have inside := List.sizeOf_lt_of_mem there
  rw [Prod.mk.sizeOf_spec] at inside
  dsimp only
  omega

theorem sizeOf_held {o : Object Value} {v : Value} (member : v ∈ o.held) : sizeOf v < sizeOf (Value.object o) := by
  cases o with
  | mapping m =>
    obtain ⟨⟨entries⟩, ⟨attributes⟩, frozen⟩ := m
    simp only [Value.object.sizeOf_spec, mapping.sizeOf_spec, Mapping.mk.sizeOf_spec, Table.mk.sizeOf_spec]
    rcases List.mem_append.mp member with entry | internal
    · have smaller := sizeOf_lt_of_mem entry
      dsimp only at smaller
      omega
    · have smaller := sizeOf_lt_of_mem internal
      dsimp only at smaller
      omega
  | attributed o =>
    obtain ⟨className, accessors, ⟨attributes⟩, frozen⟩ := o
    have smaller := sizeOf_lt_of_mem member
    simp only [Value.object.sizeOf_spec, attributed.sizeOf_spec, Attributed.mk.sizeOf_spec, Table.mk.sizeOf_spec]
    dsimp only at smaller
    omega
  | descriptor d =>
    obtain ⟨⟨properties⟩⟩ := d
    have smaller := sizeOf_lt_of_mem member
    simp only [Value.object.sizeOf_spec, descriptor.sizeOf_spec, Descriptor.mk.sizeOf_spec, Table.mk.sizeOf_spec]
    dsimp only at smaller
    omega

theorem equal_self_iff {o : Object Value} (distinct : o.Distinct) : o.Equal o ↔ ∀ v ∈ o.held, v.Equal v := by
  obtain ⟨plain, internal⟩ := distinct
  cases o with
  | mapping m =>
    rw [held, List.forall_mem_append, ← Table.matches_self_iff plain, ← Table.matches_self_iff internal]
    constructor
    · intro equal
      cases equal with
      | mapping entries attributes _ => exact ⟨entries, attributes⟩
    · rintro ⟨entries, attributes⟩
      exact .mapping entries attributes rfl
  | attributed o =>
    rw [held, ← Table.matches_self_iff internal]
    constructor
    · intro equal
      cases equal with
      | attributed _ _ attributes _ => exact attributes
    · exact fun attributes => .attributed rfl ((Table.matches_self_iff plain).mpr fun _ _ => rfl) attributes rfl
  | descriptor d =>
    rw [held, ← Table.matches_self_iff plain]
    constructor
    · intro equal
      cases equal with
      | descriptor properties => exact properties
    · exact .descriptor

end Object

namespace Value

/-- What holds of values that are no objects, and of an object if it holds of the values in its tables, holds of all
values. -/
theorem induction_held {P : Value → Prop} (plain : ∀ v : Value, v.object? = none → P v)
    (object : ∀ o, (∀ v ∈ o.held, P v) → P (.object o)) (v : Value) : P v := by
  cases v with
  | object o => exact object o fun w member => induction_held plain object w
  | _ => exact plain _ rfl
termination_by sizeOf v
decreasing_by exact Object.sizeOf_held member

theorem inside_object_iff {w : Value} {o : Object Value} (other : w ≠ .object o) :
    w.Inside (.object o) ↔ ∃ v ∈ o.held, w.Inside v := by
  constructor
  · intro inside
    cases inside with
    | self => exact absurd rfl other
    | held member deeper => exact ⟨_, member, deeper⟩
  · rintro ⟨v, member, deeper⟩
    exact .held member deeper

theorem inside_iff_of_plain {w v : Value} (plain : v.object? = none) : w.Inside v ↔ w = v := by
  constructor
  · intro inside
    cases inside with
    | self => rfl
    | held => cases plain
  · rintro rfl
    exact .self

theorem equal_self_iff {v : Value} (distinct : v.Distinct) : v.Equal v ↔ ¬(Value.float .nan).Inside v := by
  induction v using induction_held with
  | plain v plain =>
    rw [inside_iff_of_plain plain]
    cases v with
    | float x =>
      show x.equals x = true ↔ _
      rw [Binary64.equals_self, float.injEq, eq_comm]
    | object o => cases plain
    | _ => simp [Equal, equals]
  | object o ih =>
    have inside : o.Distinct := distinct o .self
    have deeper : ∀ v ∈ o.held, v.Distinct := fun v member p within => distinct p (.held member within)
    rw [inside_object_iff Value.noConfusion]
    show objectEquals o o = true ↔ _
    rw [Object.equal_iff inside, Object.equal_self_iff inside]
    simp only [not_exists, not_and]
    exact forall₂_congr fun v member => ih v member (deeper v member)

/-- No request tells equal objects apart: they classify every key alike, list the same keys, and fail with the same
errors; what is read from them is equal, and they are still equal after the same value was written to both. Equal to
themselves are the values that have no number inside which is no number. -/
theorem equality_congruence :
    (∀ o p : Object Value, o.Distinct → (object o).Equal (object p) →
      (∀ key, o.classify key = p.classify key) ∧
        (∀ withInternal, (o.keys withInternal).Perm (p.keys withInternal)) ∧
        (∀ key, Concur Equal (o.read key) (p.read key)) ∧
        ∀ key v, v.Equal v → Concur (fun o p => (object o).Equal (object p)) (o.write key v) (p.write key v)) ∧
      ∀ v : Value, v.Distinct → (v.Equal v ↔ ¬(float .nan).Inside v) := by
  refine ⟨fun o p distinct same => ?_, fun v distinct => equal_self_iff distinct⟩
  have equal : o.Equal p := (Object.equal_iff distinct).mp same
  refine ⟨equal.classify_eq, equal.keys_perm, equal.read_concur, fun key v related => ?_⟩
  have concur := equal.write_concur key related
  cases written : o.write key v with
  | error e =>
    rw [written] at concur
    generalize p.write key v = other at concur ⊢
    cases concur
    exact .failed e
  | ok next =>
    rw [written] at concur
    generalize p.write key v = other at concur ⊢
    cases concur with
    | done after => exact .done ((Object.equal_iff (distinct.write written)).mpr after)

/-- A mapping with a zero and a nested object, and the same with its names the other way round and the other zero. -/
def point : Object Value :=
  .mapping ⟨⟨[("x", .float (.zero false)), ("of", .object (.descriptor ⟨⟨[("a", .int 1), ("b", .nil)]⟩⟩))]⟩, .empty, false⟩

def turned : Object Value :=
  .mapping ⟨⟨[("of", .object (.descriptor ⟨⟨[("b", .nil), ("a", .int 1)]⟩⟩)), ("x", .float (.zero true))]⟩, .empty, false⟩

theorem equality_congruence_point :
    point.Distinct ∧ (object point).Equal (object turned) ∧ (string "s").Equal (string "s") ∧
      point.classify "x" = turned.classify "x" ∧ (point.keys true).Perm (turned.keys true) ∧
      Concur Equal (point.read "x") (turned.read "x") ∧
      Concur (fun o p => (object o).Equal (object p)) (point.write "x" (string "s")) (turned.write "x" (string "s")) ∧
      (float .nan).Distinct ∧ ¬(float .nan).Equal (float .nan) := by
  have distinct : point.Distinct := ⟨by decide, by decide⟩
  have same : (object point).Equal (object turned) := by decide
  have string : (string "s").Equal (string "s") := by decide
  have plain : (float .nan).Distinct := by
    intro o inside
    cases (inside_iff_of_plain rfl).mp inside
  obtain ⟨congruence, reflexive⟩ := equality_congruence
  obtain ⟨classify, keys, read, write⟩ := congruence point turned distinct same
  exact ⟨distinct, same, string, classify "x", keys true, read "x", write "x" _ string, plain,
    fun equal => (reflexive _ plain).mp equal .self⟩

end Value

end KeyIntrospection
