/-!
Tables from names to values. A table remembers the order in which its names were first given;
giving a known name a new value keeps the name's place. The lemmas say what each operation does
to the two views of a table: its look-up function `get?` and its list of `names`.
-/

namespace KeyIntrospection

/-- A table from names to values, in the order in which the names were first given. -/
structure Table (α : Type) where
  entries : List (String × α) := []
deriving DecidableEq, Inhabited

namespace Table

variable {α β : Type}

def empty : Table α := ⟨[]⟩

def names (t : Table α) : List String := t.entries.map (·.1)

def size (t : Table α) : Nat := t.entries.length

def isEmpty (t : Table α) : Bool := t.entries.isEmpty

def get? (t : Table α) (name : String) : Option α := t.entries.lookup name

def contains (t : Table α) (name : String) : Bool := (t.get? name).isSome

/-- The entries with the value `a` at `name`: in its place if the name is there, else at the end. -/
def put (name : String) (a : α) : List (String × α) → List (String × α)
  | [] => [(name, a)]
  | (other, b) :: rest =>
    if other = name then (other, a) :: rest else (other, b) :: put name a rest

def set (t : Table α) (name : String) (a : α) : Table α := ⟨put name a t.entries⟩

/-- The table that holds `entries`, read from left to right: of a name given twice the last value
counts, at the place of the first. -/
def ofList (entries : List (String × α)) : Table α :=
  entries.foldl (fun t entry => t.set entry.1 entry.2) empty

/-- Whether two tables have the same names with the same values, in whatever order. -/
def sameAs [BEq α] (t u : Table α) : Bool :=
  t.size == u.size && t.entries.all fun (name, a) => u.get? name == some a

@[simp] theorem get?_empty (name : String) : (empty : Table α).get? name = none := rfl

@[simp] theorem names_empty : (empty : Table α).names = [] := rfl

theorem lookup_put (name other : String) (a : α) (entries : List (String × α)) :
    (put name a entries).lookup other = if other = name then some a else entries.lookup other := by
  induction entries with
  | nil => by_cases h : other = name <;> simp [put, List.lookup_cons, beq_eq_false_iff_ne.2, h]
  | cons entry rest ih =>
    obtain ⟨n, b⟩ := entry
    by_cases hn : n = name
    · subst hn
      by_cases h : other = n <;> simp [put, List.lookup_cons, beq_eq_false_iff_ne.2, h]
    · by_cases h : other = n
      · simp [put, h, hn]
      · simp [put, List.lookup_cons, beq_eq_false_iff_ne.2 h, hn, ih]

@[simp] theorem get?_set (t : Table α) (name other : String) (a : α) :
    (t.set name a).get? other = if other = name then some a else t.get? other :=
  lookup_put name other a t.entries

theorem map_fst_put (name : String) (a : α) (entries : List (String × α)) :
    (put name a entries).map (·.1) =
      if name ∈ entries.map (·.1) then entries.map (·.1) else entries.map (·.1) ++ [name] := by
  induction entries with
  | nil => simp [put]
  | cons entry rest ih =>
    obtain ⟨n, b⟩ := entry
    by_cases hn : n = name
    · simp [put, hn]
    · have hname : ¬name = n := fun h => hn h.symm
      by_cases hmem : name ∈ rest.map (·.1)
      · simp only [put, hn, if_false, List.map_cons, ih, hmem, if_true, List.mem_cons, or_true]
      · simp only [put, hn, if_false, List.map_cons, ih, hmem, List.mem_cons, hname, or_self,
          List.cons_append]

theorem names_set (t : Table α) (name : String) (a : α) :
    (t.set name a).names = if name ∈ t.names then t.names else t.names ++ [name] :=
  map_fst_put name a t.entries

theorem contains_iff_mem_names (t : Table α) (name : String) :
    t.contains name = true ↔ name ∈ t.names := by
  simp [contains, get?, names]

theorem names_set_of_contains {t : Table α} {name : String} (known : t.contains name = true) (a : α) :
    (t.set name a).names = t.names := by
  rw [names_set, if_pos ((t.contains_iff_mem_names name).mp known)]

theorem contains_set (t : Table α) (name other : String) (a : α) :
    (t.set name a).contains other = true ↔ other = name ∨ t.contains other = true := by
  by_cases same : other = name <;> simp [contains, same]

theorem nodup_names_set {t : Table α} (distinct : t.names.Nodup) (name : String) (a : α) :
    (t.set name a).names.Nodup := by
  rw [names_set]
  split
  · exact distinct
  · next fresh =>
    refine List.nodup_append.2 ⟨distinct, by simp, ?_⟩
    rintro n hn m hm rfl
    simp only [List.mem_singleton] at hm
    exact fresh (hm ▸ hn)

theorem nodup_names_ofList (entries : List (String × α)) : (ofList entries).names.Nodup := by
  suffices h : ∀ t : Table α, t.names.Nodup →
      (entries.foldl (fun t entry => t.set entry.1 entry.2) t).names.Nodup from h _ (by simp)
  induction entries with
  | nil => exact fun _ distinct => distinct
  | cons entry rest ih => exact fun _ distinct => ih _ (nodup_names_set distinct _ _)

end Table

end KeyIntrospection
