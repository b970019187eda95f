import KeyIntrospection.Proofs.Run.Effects
import Mathlib.Data.List.Induction

/-!
Classes that are defined more than once, and the objects that were made of them in between. A class has
the accessors of all its definitions so far, and an object has those that its class had when it was made.
-/

namespace KeyIntrospection

open Script (Name Statement AccessorDeclaration AttributeInit)

namespace Table

variable {t u v : Table Accessor}

/-- The accessors have the names that are declared, in the order in which they are first declared, each with
the halves of all its declarations. -/
structure IsDeclaredBy (t : Table Accessor) (declarations : List AccessorDeclaration) : Prop where
  names : t.names = (declarations.flatMap fun d => d.names.map Located.value).eraseDups
  reader : ∀ name halves, t.get? name = some halves →
    (halves.reader = true ↔
      ∃ d ∈ declarations, name ∈ d.names.map Located.value ∧ (d.kind = .reader ∨ d.kind = .accessor))
  writer : ∀ name halves, t.get? name = some halves →
    (halves.writer = true ↔
      ∃ d ∈ declarations, name ∈ d.names.map Located.value ∧ (d.kind = .writer ∨ d.kind = .accessor))

/-- The first names of `u` are those of `t`, and the halves that they have in `t` they have in `u` too. -/
structure Included (t u : Table Accessor) : Prop where
  names : t.names <+: u.names
  halves : ∀ name a, t.get? name = some a →
    ∃ b, u.get? name = some b ∧ (a.reader = true → b.reader = true) ∧ (a.writer = true → b.writer = true)

theorem Included.refl (t : Table Accessor) : t.Included t :=
  ⟨List.prefix_rfl, fun _ a found => ⟨a, found, id, id⟩⟩

theorem Included.trans (first : t.Included u) (second : u.Included v) : t.Included v where
  names := first.names.trans second.names
  halves name a found := by
    obtain ⟨b, there, reader, writer⟩ := first.halves name a found
    obtain ⟨c, last, reader', writer'⟩ := second.halves name b there
    exact ⟨c, last, reader' ∘ reader, writer' ∘ writer⟩

theorem included_addAccessor (t : Table Accessor) (name : String) (a : Accessor) :
    t.Included (t.addAccessor name a) where
  names := by
    rw [addAccessor, names_set]
    split
    · exact List.prefix_rfl
    · exact List.prefix_append _ _
  halves other b found := by
    rw [addAccessor, get?_set]
    split
    · next same =>
      rw [← same, found]
      exact ⟨_, rfl, fun half => by simp [Accessor.merge, half], fun half => by simp [Accessor.merge, half]⟩
    · exact ⟨b, found, id, id⟩

/-- The table after halves of accessors were defined, one after the other. -/
def addAccessors (t : Table Accessor) (entries : List (String × Accessor)) : Table Accessor :=
  entries.foldl (fun t entry => t.addAccessor entry.1 entry.2) t

theorem included_addAccessors (t : Table Accessor) (entries : List (String × Accessor)) :
    t.Included (t.addAccessors entries) := by
  induction entries generalizing t with
  | nil => exact .refl t
  | cons entry entries ih => exact (t.included_addAccessor entry.1 entry.2).trans (ih _)

theorem names_addAccessors (entries : List (String × Accessor)) :
    (empty.addAccessors entries).names = (entries.map (·.1)).eraseDups := by
  induction entries using List.reverseRecOn with
  | nil => rfl
  | append_singleton entries entry ih =>
    have last : empty.addAccessors (entries ++ [entry]) = (empty.addAccessors entries).addAccessor entry.1 entry.2 :=
      List.foldl_append
    rw [last, addAccessor, names_set, ih, List.map_append, List.eraseDups_append]
    by_cases known : entry.1 ∈ entries.map (·.1)
    · have again : List.removeAll [entry.1] (entries.map (·.1)) = [] := by
        simpa [List.removeAll] using known
      rw [if_pos (List.mem_eraseDups.mpr known), List.map_singleton, again]
      simp
    · have fresh : List.removeAll [entry.1] (entries.map (·.1)) = [entry.1] := by
        simpa [List.removeAll] using known
      rw [if_neg (mt List.mem_eraseDups.mp known), List.map_singleton, fresh]
      simp [List.eraseDups_cons]

theorem nodup_names_addAccessors (distinct : t.names.Nodup) (entries : List (String × Accessor)) :
    (t.addAccessors entries).names.Nodup := by
  induction entries generalizing t with
  | nil => exact distinct
  | cons entry entries ih => exact ih (nodup_names_set distinct _ _)

/-- A name has a half if it had it before or gets it from an entry. -/
theorem any_addAccessors {half : Accessor → Bool} (neither : half ⟨false, false⟩ = false)
    (merge : ∀ a b, half (a.merge b) = (half a || half b)) (t : Table Accessor) (entries : List (String × Accessor))
    (name : String) :
    ((t.addAccessors entries).get? name).any half =
      ((t.get? name).any half || entries.any fun entry => entry.1 == name && half entry.2) := by
  induction entries generalizing t with
  | nil => simp [addAccessors]
  | cons entry entries ih =>
    have first : ((t.addAccessor entry.1 entry.2).get? name).any half =
        ((t.get? name).any half || (entry.1 == name && half entry.2)) := by
      rw [addAccessor, get?_set]
      by_cases same : name = entry.1
      · subst same
        cases t.get? entry.1 <;> simp [merge, neither]
      · simp [same, Ne.symm same]
    rw [List.any_cons, ← Bool.or_assoc, ← first, ← ih]
    rfl

theorem addAccessors_append_singleton (t : Table Accessor) {name : String} (fresh : name ∉ t.names) (a : Accessor) :
    t.addAccessor name a = ⟨t.entries ++ [(name, a)]⟩ := by
  have missing : t.get? name = none := get?_eq_none_iff.mpr fresh
  have last := put_append fresh a []
  rw [List.append_nil] at last
  rw [addAccessor, missing, set, Option.getD_none, show Accessor.merge ⟨false, false⟩ a = a by simp [Accessor.merge], last]
  rfl

/-- A table whose names are each there once is built again from its entries. -/
theorem addAccessors_entries (distinct : t.names.Nodup) : empty.addAccessors t.entries = t := by
  suffices build : ∀ front back : List (String × Accessor), ((front ++ back).map (·.1)).Nodup →
      addAccessors ⟨front⟩ back = ⟨front ++ back⟩ from build [] t.entries distinct
  intro front back
  induction back generalizing front with
  | nil => simp [addAccessors]
  | cons entry back ih =>
    intro distinct
    have fresh : entry.1 ∉ names ⟨front⟩ := by
      rw [List.map_append, List.map_cons, List.nodup_append] at distinct
      exact fun mem => distinct.2.2 entry.1 mem entry.1 List.mem_cons_self rfl
    have next := ih (front ++ [entry]) (by simpa using distinct)
    rw [List.append_assoc, List.singleton_append] at next
    rw [← next, ← addAccessors_append_singleton ⟨front⟩ fresh entry.2]
    rfl

end Table

/-- The halves that are declared, one after the other, each with the name that it is for. -/
def declared (declarations : List AccessorDeclaration) : List (String × Accessor) :=
  declarations.flatMap fun d => d.names.map fun name => (name.value, d.kind.halves)

theorem any_declared {half : Accessor → Bool} {declarations : List AccessorDeclaration} {name : String} :
    ((declared declarations).any fun entry => entry.1 == name && half entry.2) = true ↔
      ∃ d ∈ declarations, name ∈ d.names.map Located.value ∧ half d.kind.halves = true := by
  simp only [declared, List.any_flatMap, List.any_map, List.any_eq_true, List.mem_map, Function.comp, Bool.and_eq_true,
    beq_iff_eq]
  refine exists_congr fun d => and_congr_right fun _ => ⟨?_, ?_⟩
  · rintro ⟨other, there, same, has⟩
    exact ⟨⟨other, there, same⟩, has⟩
  · rintro ⟨⟨other, there, same⟩, has⟩
    exact ⟨other, there, same, has⟩

theorem reader_halves {kind : Script.AccessorKind} : kind.halves.reader = true ↔ kind = .reader ∨ kind = .accessor := by
  cases kind <;> decide

theorem writer_halves {kind : Script.AccessorKind} : kind.halves.writer = true ↔ kind = .writer ∨ kind = .accessor := by
  cases kind <;> decide

namespace Environment

theorem declare_eq_addAccessors (t : Table Accessor) (declarations : List (Located AccessorDeclaration)) :
    declare t declarations = t.addAccessors (declared (declarations.map Located.value)) := by
  rw [declared, List.flatMap_map, Table.addAccessors, List.foldl_flatMap, declare]
  simp only [List.foldl_map]

theorem included_declare (t : Table Accessor) (declarations : List (Located AccessorDeclaration)) :
    t.Included (declare t declarations) := by
  rw [declare_eq_addAccessors]
  exact t.included_addAccessors _

theorem isDeclaredBy_declare (declarations : List (Located AccessorDeclaration)) :
    (declare .empty declarations).IsDeclaredBy (declarations.map Located.value) := by
  rw [declare_eq_addAccessors]
  generalize declarations.map Located.value = all
  have half : ∀ (half : Accessor → Bool) (name : String) (halves : Accessor), half ⟨false, false⟩ = false →
      (∀ a b, half (a.merge b) = (half a || half b)) →
      (Table.empty.addAccessors (declared all)).get? name = some halves →
      (half halves = true ↔ ∃ d ∈ all, name ∈ d.names.map Located.value ∧ half d.kind.halves = true) := by
    intro half name halves neither merge found
    have any := Table.any_addAccessors neither merge .empty (declared all) name
    rw [found, Table.get?_empty, Option.any_none, Bool.false_or, Option.any_some] at any
    rw [any, any_declared]
  refine ⟨?_, fun name halves found => ?_, fun name halves found => ?_⟩
  · rw [Table.names_addAccessors, declared, List.map_flatMap]
    simp only [List.map_map]
    rfl
  · simpa only [reader_halves] using half (·.reader) name halves rfl (fun _ _ => rfl) found
  · simpa only [writer_halves] using half (·.writer) name halves rfl (fun _ _ => rfl) found

end Environment

/-- What a statement declares of the class `c`, if it defines that class. -/
def Script.Statement.definition? (c : String) : Statement → Option (List (Located AccessorDeclaration))
  | .defineClass name declarations => if name.value = c then some declarations else none
  | _ => none

/-- The definitions of the class `c` among the statements. -/
def definitions (c : String) (statements : List (Located Statement)) : List (List (Located AccessorDeclaration)) :=
  statements.filterMap fun s => s.value.definition? c

namespace Environment

variable {env : Environment} {s : Located Statement} {c : String}

theorem classes_attempt (other : ∀ name declarations, s.value ≠ .defineClass name declarations) :
    (env.attempt s).2.classes = env.classes := by
  rcases env.attempt_cases s with ⟨e, failed⟩ | ⟨outcome, next, executed, done⟩
  · rw [failed]
  · rw [done]
    have changes := changes_of_execute executed
    obtain ⟨s, span⟩ := s
    cases s with
    | defineClass name declarations => exact absurd rfl (other name declarations)
    | query q => exact congrArg classes changes
    | expect q m => exact congrArg classes changes
    | _ => exact changes.1

/-- Of the classes, a statement changes the one that it defines. -/
theorem get?_classes_attempt (env : Environment) (s : Located Statement) (c : String) :
    (env.attempt s).2.classes.get? c =
      match s.value.definition? c with
      | some declarations => some (declare ((env.classes.get? c).getD .empty) declarations)
      | none => env.classes.get? c := by
  obtain ⟨s, span⟩ := s
  cases s with
  | defineClass name declarations =>
    show (env.classes.set name.value (declare ((env.classes.get? name.value).getD .empty) declarations)).get? c = _
    rw [Table.get?_set, Script.Statement.definition?]
    by_cases named : name.value = c
    · subst named
      simp
    · simp [named, Ne.symm named]
  | _ => exact congrArg (Table.get? · c) (classes_attempt (fun _ _ => Statement.noConfusion))

/-- A class is there if the statements define it, and has the accessors of all the definitions. -/
theorem get?_classes_afterAll (statements : List (Located Statement)) (c : String) :
    (({} : Environment).afterAll statements).classes.get? c =
      match definitions c statements with
      | [] => none
      | all => some (declare .empty all.flatten) := by
  induction statements using List.reverseRecOn with
  | nil => rfl
  | append_singleton statements s ih =>
    have next : definitions c (statements ++ [s]) = definitions c statements ++ (s.value.definition? c).toList := by
      rw [definitions, List.filterMap_append]
      cases h : s.value.definition? c <;> simp [h, definitions]
    rw [afterAll_append, next]
    refine (get?_classes_attempt _ s c).trans ?_
    rw [ih]
    cases defined : s.value.definition? c with
    | none => simp
    | some declarations =>
      cases definitions c statements with
      | nil => simp
      | cons first others => simp [declare]

/-- A class keeps its accessors, and gets more. -/
theorem included_attempt {t : Table Accessor} (found : env.classes.get? c = some t) (s : Located Statement) :
    ∃ u, (env.attempt s).2.classes.get? c = some u ∧ t.Included u := by
  rw [get?_classes_attempt, found]
  cases s.value.definition? c with
  | none => exact ⟨t, rfl, .refl t⟩
  | some declarations => exact ⟨_, rfl, included_declare t declarations⟩

theorem included_afterAll {t : Table Accessor} (found : env.classes.get? c = some t)
    (statements : List (Located Statement)) :
    ∃ u, (env.afterAll statements).classes.get? c = some u ∧ t.Included u := by
  induction statements generalizing env t with
  | nil => exact ⟨t, found, .refl t⟩
  | cons s rest ih =>
    obtain ⟨u, there, first⟩ := included_attempt found s
    obtain ⟨v, last, second⟩ := ih there
    exact ⟨v, last, first.trans second⟩

theorem nodup_names_of_afterAll {statements : List (Located Statement)} {t : Table Accessor}
    (found : (({} : Environment).afterAll statements).classes.get? c = some t) : t.names.Nodup := by
  rw [get?_classes_afterAll] at found
  split at found
  · cases found
  · cases found
    rw [declare_eq_addAccessors]
    exact Table.nodup_names_addAccessors (by simp) _

theorem eq_of_ofAccessors {className : String} {entries : List (String × Accessor)} {o : Attributed Value}
    (built : Attributed.ofAccessors className entries = .ok o) :
    o = ⟨className, Table.empty.addAccessors entries, .empty, false⟩ := by
  suffices build : ∀ t : Table Accessor,
      entries.foldlM (fun (o : Attributed Value) entry => o.define entry.1 entry.2) ⟨className, t, .empty, false⟩ = .ok o →
        o = ⟨className, t.addAccessors entries, .empty, false⟩ from build .empty built
  clear built
  induction entries with
  | nil =>
    intro t built
    exact (Except.ok.inj built).symm
  | cons entry entries ih =>
    intro t built
    rw [List.foldlM_cons] at built
    obtain ⟨next, defined, others⟩ := exists_of_bind_eq_ok built
    obtain ⟨_, rfl⟩ := Object.define_eq_ok defined
    exact ih _ others

/-- A new object has the accessors of its class. -/
theorem instantiate_eq_ok {className : Name} {attributes : List AttributeInit} {o : Attributed Value}
    (ok : env.instantiate className attributes = .ok o) :
    ∃ t, env.classes.get? className.value = some t ∧ o.className = className.value ∧
      o.accessors = Table.empty.addAccessors t.entries := by
  unfold instantiate at ok
  split at ok
  · next t found =>
    obtain ⟨fresh, built, filled⟩ := exists_of_bind_eq_ok ok
    refine ⟨t, found, ?_⟩
    refine invariant_of_foldlM (P := fun o => o.className = className.value ∧ o.accessors = Table.empty.addAccessors t.entries)
      (fun {o next a} _ changed same => ?_) filled ?_
    · obtain ⟨_, _, rfl⟩ := Object.attributed_setAttribute_eq_ok (eq_ok_of_raiseAt changed)
      exact same
    · rw [eq_of_ofAccessors (eq_ok_of_raiseAt built)]
      exact ⟨rfl, rfl⟩
  · cases ok

/-- The statement binds `x` to a new object of the class of `o`, which has the accessors of `o` then. -/
def Makes (env : Environment) (s : Located Statement) (x : String) (o : Attributed Value) : Prop :=
  ∃ name e className attributes v, s.value = .assign name e ∧ name.value = x ∧ e.value = .new className attributes ∧
    className.value = o.className ∧ (env.attempt s).1 = .ok (.bound x v) ∧
    env.classes.get? o.className = some o.accessors

/-- The statement leaves what `x` is bound to, or changes an object that `x` stays bound to. -/
def Keeps (env : Environment) (s : Located Statement) (x : String) (o : Attributed Value) : Prop :=
  (∀ v, (env.attempt s).1 ≠ .ok (.bound x v)) ∧
    ∃ before : Attributed Value, env.bindings.get? x = some (.object (.attributed before)) ∧
      before.className = o.className ∧ before.accessors = o.accessors

theorem attributed_of_setAttribute {before : Object Value} {o : Attributed Value} {name : String} {v : Value}
    (ok : before.setAttribute name v = .ok (.attributed o)) :
    ∃ b : Attributed Value, before = .attributed b ∧ b.className = o.className ∧ b.accessors = o.accessors := by
  cases before with
  | mapping m =>
    obtain ⟨_, _, same⟩ := exists_of_map_eq_ok ok
    cases same
  | attributed b =>
    obtain ⟨_, changed, same⟩ := exists_of_map_eq_ok ok
    cases same
    obtain ⟨_, _, rfl⟩ := Object.attributed_setAttribute_eq_ok changed
    exact ⟨b, rfl, rfl, rfl⟩
  | descriptor d => cases ok

theorem attributed_of_freeze {before : Object Value} {o : Attributed Value} (frozen : before.freeze = .attributed o) :
    ∃ b : Attributed Value, before = .attributed b ∧ b.className = o.className ∧ b.accessors = o.accessors := by
  cases before with
  | attributed b =>
    cases frozen
    exact ⟨b, rfl, rfl, rfl⟩
  | _ => cases frozen

section Keeping

variable {x : String} {o : Attributed Value} {result : Except RunError Outcome} {next : Environment}

theorem keeps_of_bindings_eq (done : env.attempt s = (result, next)) (other : ∀ v, result ≠ .ok (.bound x v))
    (same : next.bindings = env.bindings) (bound : next.bindings.get? x = some (.object (.attributed o))) :
    env.Keeps s x o :=
  ⟨done ▸ other, o, by rw [← same, bound], rfl, rfl⟩

/-- An object that is changed keeps its class name and its accessors. -/
theorem keeps_of_object {object : Name} {before after : Object Value}
    (done : env.attempt s = (.ok (.updated object.value), env.bind object (.object after)))
    (found : env.object object = .ok before)
    (change : ∀ {o : Attributed Value}, after = .attributed o →
      ∃ b : Attributed Value, before = .attributed b ∧ b.className = o.className ∧ b.accessors = o.accessors)
    (bound : (env.bind object (.object after)).bindings.get? x = some (.object (.attributed o))) : env.Keeps s x o := by
  refine ⟨fun v same => ?_, ?_⟩
  · rw [done] at same
    cases same
  · dsimp only [bind] at bound
    rw [Table.get?_set] at bound
    split at bound
    · next named =>
      obtain ⟨b, rfl, kept⟩ := change (Value.object.inj (Option.some.inj bound))
      exact ⟨b, by rw [named, object_eq_ok found], kept⟩
    · exact ⟨o, bound, rfl, rfl⟩

/-- Where an object that a variable is bound to comes from. -/
theorem makes_or_keeps (distinct : ∀ c t, env.classes.get? c = some t → t.names.Nodup)
    (bound : (env.attempt s).2.bindings.get? x = some (.object (.attributed o))) :
    env.Makes s x o ∨ env.Keeps s x o := by
  rcases env.attempt_cases s with ⟨e, failed⟩ | ⟨outcome, next, executed, done⟩
  · rw [failed] at bound
    exact .inr (keeps_of_bindings_eq failed (fun _ same => by cases same) rfl bound)
  · rw [done] at bound
    obtain ⟨s, span⟩ := s
    cases s with
    | assign name e =>
      obtain ⟨v, evaluated, same⟩ := exists_of_bind_eq_ok executed
      cases same
      by_cases named : x = name.value
      · have isNew : v = .object (.attributed o) := by
          dsimp only [bind] at bound
          rw [Table.get?_set, if_pos named] at bound
          exact Option.some.inj bound
        subst isNew named
        obtain ⟨e, place⟩ := e
        cases e with
        | new className attributes =>
          obtain ⟨made, ok, same⟩ := exists_of_map_eq_ok evaluated
          cases same
          obtain ⟨t, found, sameName, accessors⟩ := instantiate_eq_ok ok
          rw [Table.addAccessors_entries (distinct _ t found)] at accessors
          exact .inl ⟨name, _, className, attributes, _, rfl, rfl, rfl, sameName.symm, by rw [done],
            by rw [sameName, accessors, found]⟩
        | literal l =>
          obtain ⟨l, _⟩ := l
          cases l <;> cases evaluated
        | _ => cases evaluated
      · dsimp only [bind] at bound
        rw [Table.get?_set, if_neg named] at bound
        refine .inr ⟨fun w same => ?_, o, bound, rfl, rfl⟩
        rw [done] at same
        cases same
        exact named rfl
    | defineClass name declarations =>
      cases executed
      exact .inr (keeps_of_bindings_eq done (fun _ same => by cases same) rfl bound)
    | setAttribute object name value =>
      obtain ⟨before, found, rest⟩ := exists_of_bind_eq_ok executed
      obtain ⟨after, changed, same⟩ := exists_of_bind_eq_ok rest
      cases same
      exact .inr (keeps_of_object done found (fun same => attributed_of_setAttribute (same ▸ eq_ok_of_raiseAt changed)) bound)
    | freeze object =>
      obtain ⟨before, found, same⟩ := exists_of_bind_eq_ok executed
      cases same
      exact .inr (keeps_of_object done found attributed_of_freeze bound)
    | query q =>
      obtain ⟨a, _, same⟩ := exists_of_bind_eq_ok executed
      cases same
      exact .inr (keeps_of_bindings_eq done (fun _ same => by cases same) rfl bound)
    | expect q m =>
      obtain ⟨a, _, rest⟩ := exists_of_bind_eq_ok executed
      obtain ⟨_, _, same⟩ := exists_of_bind_eq_ok rest
      cases same
      exact .inr (keeps_of_bindings_eq done (fun _ same => by cases same) rfl bound)

end Keeping

/-- Among the statements there is one that made `o` and bound it to `x`, and none after it bound `x` again. -/
def Made (statements : List (Located Statement)) (x : String) (o : Attributed Value) : Prop :=
  ∃ before s rest, statements = before ++ s :: rest ∧ (({} : Environment).afterAll before).Makes s x o ∧
    ∀ r ∈ (({} : Environment).afterAll (before ++ [s])).results rest, ∀ v, r ≠ .ok (.bound x v)

theorem made_of_bound {statements : List (Located Statement)} {x : String} {o : Attributed Value}
    (bound : (({} : Environment).afterAll statements).bindings.get? x = some (.object (.attributed o))) :
    Made statements x o := by
  induction statements using List.reverseRecOn generalizing o with
  | nil => cases bound
  | append_singleton statements s ih =>
    have last : ({} : Environment).afterAll (statements ++ [s]) = ((({} : Environment).afterAll statements).attempt s).2 :=
      afterAll_append _ _ _
    rw [last] at bound
    rcases makes_or_keeps (fun _ _ found => nodup_names_of_afterAll found) bound with makes | ⟨other, o', there, sameName, same⟩
    · exact ⟨statements, s, [], rfl, makes, by simp [results]⟩
    · obtain ⟨before, t, rest, rfl, makes, unbound⟩ := ih there
      refine ⟨before, t, rest ++ [s], by simp, ?_, ?_⟩
      · rwa [Makes, ← sameName, ← same]
      · intro r mem
        rw [results_append, ← afterAll_append, List.append_assoc, List.singleton_append] at mem
        rcases List.mem_append.mp mem with old | new
        · exact unbound r old
        · rw [List.mem_singleton.mp new]
          exact other

/-- Whatever statements are executed, a class has the accessors of all its definitions, and an object that a variable is
bound to has exactly those that its class had when it was made: the first ones that the class has now, with halves that
it has now. -/
theorem classes_and_objects_afterAll (statements : List (Located Statement)) :
    let env := ({} : Environment).afterAll statements
    (∀ c, (env.classes.get? c = none ↔ definitions c statements = []) ∧
      ∀ t, env.classes.get? c = some t → t.IsDeclaredBy ((definitions c statements).flatten.map Located.value)) ∧
    ∀ x o, env.bindings.get? x = some (.object (.attributed o)) →
      Made statements x o ∧ ∃ t, env.classes.get? o.className = some t ∧ o.accessors.Included t := by
  intro env
  refine ⟨fun c => ?_, fun x o bound => ?_⟩
  · have table := get?_classes_afterAll statements c
    rcases all : definitions c statements with _ | ⟨first, others⟩
    · rw [all] at table
      exact ⟨by simp [env, table], fun t found => by cases table.symm.trans found⟩
    · rw [all] at table
      refine ⟨by simp [env, table], fun t found => ?_⟩
      cases table.symm.trans found
      exact isDeclaredBy_declare _
  · have made := made_of_bound bound
    refine ⟨made, ?_⟩
    obtain ⟨before, s, rest, rfl, ⟨_, _, _, _, _, _, _, _, _, _, found⟩, _⟩ := made
    have grown := included_afterAll found (s :: rest)
    rwa [← afterAll_append] at grown

/-- `class P { attr_reader :x }`, `p = new P {}`, and `class P { attr_accessor :y, :x }`. -/
def reopened : List (Located Statement) :=
  [⟨.defineClass ⟨"P", 6, 7⟩ [⟨⟨.reader, [⟨"x", 22, 24⟩]⟩, 10, 24⟩], 0, 26⟩,
    ⟨.assign ⟨"p", 27, 28⟩ ⟨.new ⟨"P", 35, 36⟩ [], 31, 39⟩, 27, 39⟩,
    ⟨.defineClass ⟨"P", 46, 47⟩ [⟨⟨.accessor, [⟨"y", 64, 66⟩, ⟨"x", 68, 70⟩]⟩, 50, 70⟩], 40, 72⟩]

theorem classes_and_objects_reopened :
    let o : Attributed Value := ⟨"P", ⟨[("x", ⟨true, false⟩)]⟩, .empty, false⟩
    let t : Table Accessor := ⟨[("x", ⟨true, true⟩), ("y", ⟨true, true⟩)]⟩
    (({} : Environment).afterAll reopened).bindings.get? "p" = some (.object (.attributed o)) ∧
      (({} : Environment).afterAll reopened).classes.get? "P" = some t ∧
      t.IsDeclaredBy [⟨.reader, [⟨"x", 22, 24⟩]⟩, ⟨.accessor, [⟨"y", 64, 66⟩, ⟨"x", 68, 70⟩]⟩] ∧
      Made reopened "p" o ∧ o.accessors.Included t := by
  obtain ⟨classes, objects⟩ := classes_and_objects_afterAll reopened
  have bound : (({} : Environment).afterAll reopened).bindings.get? "p" =
      some (.object (.attributed ⟨"P", ⟨[("x", ⟨true, false⟩)]⟩, .empty, false⟩)) := rfl
  have found : (({} : Environment).afterAll reopened).classes.get? "P" =
      some ⟨[("x", ⟨true, true⟩), ("y", ⟨true, true⟩)]⟩ := rfl
  obtain ⟨made, t, now, included⟩ := objects "p" _ bound
  cases found.symm.trans now
  exact ⟨bound, found, (classes "P").2 _ found, made, included⟩

end Environment

end KeyIntrospection
