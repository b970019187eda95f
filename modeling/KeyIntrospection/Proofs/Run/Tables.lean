import KeyIntrospection.Object.Basic

/-!
What setting a name does to a table as a list: an entry that is there already gets its new value in its
place, any other one comes last.
-/

namespace KeyIntrospection.Table

variable {α : Type} {name other : String} {a b : α} {t : Table α}

/-- A table before and after `name` gets a value, with the value that it had before. All other entries
stay, and all entries stay in their places. -/
inductive Rebinds (name : String) : Option α → α → Table α → Table α → Prop
  | replaced {front back : List (String × α)} {old new : α} : name ∉ front.map (·.1) →
      Rebinds name (some old) new ⟨front ++ (name, old) :: back⟩ ⟨front ++ (name, new) :: back⟩
  | added {entries : List (String × α)} {new : α} : name ∉ entries.map (·.1) →
      Rebinds name none new ⟨entries⟩ ⟨entries ++ [(name, new)]⟩

theorem put_append {front : List (String × α)} (fresh : name ∉ front.map (·.1)) (a : α)
    (rest : List (String × α)) : put name a (front ++ rest) = front ++ put name a rest := by
  induction front with
  | nil => rfl
  | cons entry front ih =>
    obtain ⟨n, b⟩ := entry
    simp only [List.map_cons, List.mem_cons, not_or] at fresh
    rw [List.cons_append, put, if_neg (Ne.symm fresh.1), ih fresh.2]
    rfl

theorem put_cons_self (name : String) (a b : α) (rest : List (String × α)) :
    put name a ((name, b) :: rest) = (name, a) :: rest := if_pos rfl

theorem get?_eq_none_iff : t.get? name = none ↔ name ∉ t.names := by
  rw [← contains_iff_mem_names, contains]
  cases t.get? name <;> simp

theorem exists_of_get? (found : t.get? name = some a) :
    ∃ front back, t = ⟨front ++ (name, a) :: back⟩ ∧ name ∉ front.map (·.1) := by
  obtain ⟨front, back, entries, before⟩ := List.lookup_eq_some_iff.mp found
  refine ⟨front, back, by rw [← entries], fun mem => ?_⟩
  obtain ⟨entry, inside, same⟩ := List.mem_map.mp mem
  exact absurd same.symm (by simpa using before entry inside)

theorem rebinds_set (t : Table α) (name : String) (a : α) : Rebinds name (t.get? name) a t (t.set name a) := by
  cases found : t.get? name with
  | none =>
    have fresh := get?_eq_none_iff.mp found
    have last := put_append fresh a []
    rw [List.append_nil] at last
    rw [set, last]
    exact .added fresh
  | some old =>
    obtain ⟨front, back, rfl, fresh⟩ := exists_of_get? found
    rw [set, put_append fresh, put_cons_self]
    exact .replaced fresh

theorem set_set (t : Table α) (name : String) (a b : α) : (t.set name a).set name b = t.set name b := by
  cases found : t.get? name with
  | none =>
    have fresh := get?_eq_none_iff.mp found
    have last : ∀ c, put name c t.entries = t.entries ++ [(name, c)] := fun c => by
      simpa [put] using put_append fresh c []
    simp only [set, last, put_append fresh, put_cons_self]
  | some old =>
    obtain ⟨front, back, rfl, fresh⟩ := exists_of_get? found
    simp only [set, put_append fresh, put_cons_self]

/-- Giving a name the value that it has changes nothing. -/
theorem set_eq_self (found : t.get? name = some a) : t.set name a = t := by
  obtain ⟨front, back, rfl, fresh⟩ := exists_of_get? found
  rw [set, put_append fresh, put_cons_self]

end KeyIntrospection.Table
