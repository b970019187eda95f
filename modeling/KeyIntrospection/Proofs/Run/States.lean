import KeyIntrospection.Proofs.Object.Lifecycle
import KeyIntrospection.Proofs.Script.WellFormed
import KeyIntrospection.Run.Report

/-!
The environments that statements lead to. Objects never hold objects: whatever a table of theirs has is
the value of a literal, and a variable is bound to such a value or to an object.
-/

namespace KeyIntrospection

/-- Every value of the table has the property. -/
def Table.All {α : Type} (P : α → Prop) (t : Table α) : Prop := ∀ name a, t.get? name = some a → P a

namespace Table.All

variable {α : Type} {P : α → Prop} {t : Table α}

theorem empty : (Table.empty : Table α).All P := by
  intro name a found
  cases found

theorem set (all : t.All P) (name : String) {a : α} (holds : P a) : (t.set name a).All P := by
  intro other b found
  rw [get?_set] at found
  split at found
  · cases found
    exact holds
  · exact all other b found

theorem ofList {entries : List (String × α)} (holds : ∀ e ∈ entries, P e.2) : (Table.ofList entries).All P := by
  suffices run : ∀ t : Table α, t.All P → (entries.foldl (fun t entry => t.set entry.1 entry.2) t).All P from
    run _ empty
  induction entries with
  | nil => exact fun _ all => all
  | cons entry rest ih =>
    intro t all
    exact ih (fun e mem => holds e (List.mem_cons_of_mem entry mem)) _ (all.set _ (holds entry List.mem_cons_self))

end Table.All

/-- Every value that the object holds has the property. -/
def Object.Holds {α : Type} (P : α → Prop) : Object α → Prop
  | mapping m => m.entries.All P ∧ m.attributes.All P
  | attributed o => o.attributes.All P
  | descriptor d => d.properties.All P

namespace Object.Holds

variable {α : Type} {P : α → Prop} {o next : Object α}

theorem freeze (holds : o.Holds P) : o.freeze.Holds P := by
  cases o <;> exact holds

theorem setAttribute (holds : o.Holds P) {name : String} {a : α} (value : P a)
    (ok : o.setAttribute name a = .ok next) : next.Holds P := by
  cases o with
  | mapping m =>
    obtain ⟨m', changed, rfl⟩ := exists_of_map_eq_ok ok
    obtain ⟨_, _, rfl⟩ := mapping_setAttribute_eq_ok changed
    exact ⟨holds.1, holds.2.set name value⟩
  | attributed o =>
    obtain ⟨o', changed, rfl⟩ := exists_of_map_eq_ok ok
    obtain ⟨_, _, rfl⟩ := attributed_setAttribute_eq_ok changed
    exact Table.All.set holds name value
  | descriptor d => cases ok

theorem attribute? {attributes : Table α} (all : attributes.All P) {key : String} {a : α}
    (found : attribute? attributes key = some a) : P a := by
  unfold Object.attribute? at found
  split at found
  · exact all key a found
  · cases found

/-- What is read is held, unless an accessor has no value yet. -/
theorem read {P : Value → Prop} {o : Object Value} (holds : o.Holds P) (nil : P .nil) {key : String} {v : Value}
    (ok : o.read key = .ok v) : P v := by
  cases o with
  | mapping m =>
    simp only [Object.read] at ok
    split at ok
    · next found =>
      cases ok
      rcases Option.or_eq_some_iff.mp (Option.orElse_eq_or.symm.trans found) with held | ⟨_, entry⟩
      · exact attribute? holds.2 held
      · exact holds.1 key _ entry
    · cases ok
  | attributed o =>
    simp only [Object.read] at ok
    split at ok
    · next held =>
      cases ok
      exact attribute? holds held
    · split at ok
      · split at ok
        · cases ok
          rcases found : o.attributes.get? (Key.backing key) with _ | a
          · exact nil
          · exact holds _ a found
        · cases ok
      · cases ok
  | descriptor d =>
    simp only [Object.read] at ok
    split at ok
    · next found =>
      cases ok
      exact holds key _ found
    · cases ok

end Object.Holds

namespace Script

/-- The statement is read from a text of its own or from a script. -/
inductive Parsed (s : Located Statement) : Prop
  | alone {source : String} : Statement.parse source = .ok s → Parsed s
  | within {source : String} {file : Option String} {script : Script} :
      Script.parse source file = .ok script → s ∈ script.statements → Parsed s

theorem Parsed.wellFormed {s : Located Statement} (parsed : Parsed s) : s.value.WellFormed := by
  cases parsed with
  | alone parsed => exact wellFormed_of_parse parsed
  | within parsed member => exact wellFormed_of_parse_script parsed s member

end Script

/-- A value that a literal of a script can have. -/
def Value.IsLiteral (v : Value) : Prop := ∃ l : Script.Literal, l.WellFormed ∧ v = l.toValue

/-- A value that a variable can have. -/
def Value.IsPlain (v : Value) : Prop := v.IsLiteral ∨ ∃ o, v = .object o ∧ o.Holds Value.IsLiteral

namespace Environment

open Script

/-- The environments that parsed statements lead to, when they are executed one after the other. -/
inductive Reached : Environment → Prop
  | start : Reached {}
  | next {env env' : Environment} {s : Located Statement} {outcome : Outcome} :
      Reached env → Parsed s → env.execute s = .ok (outcome, env') → Reached env'

variable {env : Environment}

/-- A script leads from one of them to another, also when an error stops it. -/
theorem Reached.run {statements : List (Located Statement)} (reached : env.Reached)
    (parsed : ∀ s ∈ statements, Parsed s) : (env.run statements).2.Reached := by
  induction statements generalizing env with
  | nil => exact reached
  | cons s rest ih =>
    have others : ∀ t ∈ rest, Parsed t := fun t mem => parsed t (List.mem_cons_of_mem s mem)
    rw [Environment.run]
    cases executed : env.execute s with
    | ok r => exact ih (reached.next (parsed s List.mem_cons_self) executed) others
    | error e =>
      dsimp only
      split
      · exact ih reached others
      · exact reached

/-- Every variable has a value that is plain. -/
def IsPlain (env : Environment) : Prop := env.bindings.All Value.IsPlain

theorem isLiteral_toValue {l : Literal} (wellFormed : l.WellFormed) : l.toValue.IsLiteral := ⟨l, wellFormed, rfl⟩

theorem isLiteral_toPair {entries : List HashEntry} (wellFormed : ∀ e ∈ entries, e.WellFormed) :
    ∀ pair ∈ entries.map (·.toPair), pair.2.IsLiteral := by
  intro pair mem
  obtain ⟨e, inside, rfl⟩ := List.mem_map.mp mem
  exact isLiteral_toValue (wellFormed e inside).2

theorem eq_ok_of_raiseAt {α : Type} {span : Span} {result : Except AccessError α} {a : α}
    (ok : raiseAt span result = .ok a) : result = .ok a := by
  cases result with
  | error e => cases ok
  | ok b =>
    cases ok
    rfl

theorem value_eq_ok {name : Name} {v : Value} (ok : env.value name = .ok v) : env.bindings.get? name.value = some v := by
  unfold value at ok
  split at ok
  · next found =>
    cases ok
    exact found
  · cases ok

theorem object_eq_ok {name : Name} {o : Object Value} (ok : env.object name = .ok o) :
    env.bindings.get? name.value = some (.object o) := by
  obtain ⟨v, found, same⟩ := exists_of_bind_eq_ok ok
  cases v with
  | object p =>
    cases same
    exact value_eq_ok found
  | _ => cases same

/-- A new object holds the values it is given. -/
theorem holds_of_instantiate {className : Name} {attributes : List AttributeInit} {o : Attributed Value}
    (wellFormed : ∀ a ∈ attributes, a.WellFormed) (ok : env.instantiate className attributes = .ok o) :
    (Object.attributed o).Holds Value.IsLiteral := by
  unfold instantiate at ok
  split at ok
  · next accessors _ =>
    obtain ⟨fresh, built, filled⟩ := exists_of_bind_eq_ok ok
    have empty : (Object.attributed fresh).Holds Value.IsLiteral := by
      refine invariant_of_foldlM (P := fun o => (Object.attributed o).Holds Value.IsLiteral)
        (fun {o next entry} _ defined holds => ?_) (eq_ok_of_raiseAt built) Table.All.empty
      obtain ⟨_, rfl⟩ := Object.define_eq_ok defined
      exact holds
    refine invariant_of_foldlM (P := fun o => (Object.attributed o).Holds Value.IsLiteral)
      (fun {o next a} mem changed holds => ?_) filled empty
    obtain ⟨_, _, rfl⟩ := Object.attributed_setAttribute_eq_ok (eq_ok_of_raiseAt changed)
    exact Table.All.set holds _ (isLiteral_toValue (wellFormed a mem).2)
  · cases ok

theorem isPlain_of_evaluate {e : Expression} {v : Value} (wellFormed : e.WellFormed) (ok : env.evaluate e = .ok v) :
    v.IsPlain := by
  cases e with
  | hash entries =>
    cases ok
    exact Or.inr ⟨_, rfl, Table.All.ofList (isLiteral_toPair wellFormed), Table.All.empty⟩
  | descriptor properties =>
    cases ok
    exact Or.inr ⟨_, rfl, Table.All.ofList (isLiteral_toPair wellFormed)⟩
  | new className attributes =>
    obtain ⟨o, built, rfl⟩ := exists_of_map_eq_ok ok
    exact Or.inr ⟨_, rfl, holds_of_instantiate wellFormed.2 built⟩
  | literal l =>
    cases ok
    exact Or.inl (isLiteral_toValue wellFormed)

namespace IsPlain

theorem bind (plain : env.IsPlain) (name : Name) {v : Value} (value : v.IsPlain) : (env.bind name v).IsPlain :=
  plain.set name.value value

theorem holds (plain : env.IsPlain) {name : Name} {o : Object Value} (found : env.object name = .ok o) :
    o.Holds Value.IsLiteral := by
  rcases plain _ _ (object_eq_ok found) with ⟨l, _, same⟩ | ⟨p, same, holds⟩
  · cases l <;> cases same
  · cases same
    exact holds

theorem execute (plain : env.IsPlain) {s : Located Statement} (wellFormed : s.value.WellFormed) {outcome : Outcome}
    {next : Environment} (ok : env.execute s = .ok (outcome, next)) : next.IsPlain := by
  obtain ⟨s, span⟩ := s
  cases s with
  | assign name e =>
    obtain ⟨v, evaluated, same⟩ := exists_of_bind_eq_ok ok
    cases same
    exact plain.bind name (isPlain_of_evaluate wellFormed.2 evaluated)
  | defineClass name declarations =>
    cases ok
    exact plain
  | setAttribute object name value =>
    obtain ⟨o, found, rest⟩ := exists_of_bind_eq_ok ok
    obtain ⟨o', changed, same⟩ := exists_of_bind_eq_ok rest
    cases same
    have holds := (plain.holds found).setAttribute (isLiteral_toValue wellFormed.2.2) (eq_ok_of_raiseAt changed)
    exact plain.bind object (Or.inr ⟨o', rfl, holds⟩)
  | freeze object =>
    obtain ⟨o, found, same⟩ := exists_of_bind_eq_ok ok
    cases same
    exact plain.bind object (Or.inr ⟨o.freeze, rfl, (plain.holds found).freeze⟩)
  | query q =>
    obtain ⟨a, _, same⟩ := exists_of_bind_eq_ok ok
    cases same
    exact plain
  | expect q m =>
    obtain ⟨a, _, rest⟩ := exists_of_bind_eq_ok ok
    obtain ⟨_, _, same⟩ := exists_of_bind_eq_ok rest
    cases same
    exact plain

end IsPlain

theorem Reached.isPlain (reached : env.Reached) : env.IsPlain := by
  induction reached with
  | start => exact Table.All.empty
  | next _ parsed executed ih => exact ih.execute parsed.wellFormed executed

/-- What a query reads is the value of a literal, never an object. -/
theorem Reached.isLiteral_of_answer (reached : env.Reached) {q : Located Query} {v : Value}
    (answered : env.answer q = .ok (.value v)) : v.IsLiteral := by
  obtain ⟨q, span⟩ := q
  cases q with
  | keyInfo object key =>
    obtain ⟨w, _, rest⟩ := exists_of_bind_eq_ok answered
    obtain ⟨s, _, same⟩ := exists_of_bind_eq_ok rest
    cases same
  | keys object withInternal =>
    obtain ⟨o, _, same⟩ := exists_of_bind_eq_ok answered
    cases same
  | read object key =>
    obtain ⟨o, found, rest⟩ := exists_of_bind_eq_ok answered
    obtain ⟨name, _, rest⟩ := exists_of_bind_eq_ok rest
    obtain ⟨w, read, same⟩ := exists_of_bind_eq_ok rest
    cases same
    exact (reached.isPlain.holds found).read ⟨.nil, trivial, rfl⟩ (eq_ok_of_raiseAt read)

end Environment

end KeyIntrospection
