import KeyIntrospection.Proofs.Run.Effects
import KeyIntrospection.Proofs.Session.Replay
import Mathlib.Data.List.DropRight

/-!
What a session has after its inputs. Its bindings are those of the statements that had an outcome since the bindings
were last cleared, and of nothing else; its statistics count all inputs, and nothing makes them smaller. This is so
also where the bindings and the statistics are changed in their places, one after the other.
-/

namespace KeyIntrospection

open Script (Statement)

namespace Session

/-- An input that is blank or a comment. -/
def isSilent (input : String) : Bool := (Text.trim input).toList.head?.all (· == '#')

/-- A command is an input that starts with a slash. -/
def isCommand (input : String) : Bool := (Text.trim input).toList.head? == some '/'

/-- The command that forgets all bindings, whatever stands after its name. -/
def clears (input : String) : Bool :=
  isCommand input && (Text.words (Text.trim input)).head? == some "/clear"

def Reply.outcome? : Reply → Option Outcome
  | .outcome o => some o
  | _ => none

/-- The reply to an input, or why there is none. -/
def Reply.result : Reply → Except Error Reply
  | .error e => .error e
  | reply => .ok reply

end Session

def Outcome.isPassed : Outcome → Bool
  | .passed => true
  | _ => false

namespace Session

/-- The session after some inputs. -/
def after (s : Session) (inputs : List String) : Session := inputs.foldl (fun s input => (s.step input).2) s

/-- The inputs, each with what is replied to it. -/
def exchanges (s : Session) : List String → List (String × Reply)
  | [] => []
  | input :: rest => (input, (s.step input).1) :: (s.step input).2.exchanges rest

/-- The exchanges since the bindings were last cleared. -/
def sinceClear (exchanges : List (String × Reply)) : List (String × Reply) :=
  exchanges.rtakeWhile fun e => !clears e.1

/-- The inputs that had an outcome, each with its outcome. -/
def outcomes (exchanges : List (String × Reply)) : List (String × Outcome) :=
  exchanges.filterMap fun e => e.2.outcome?.map (e.1, ·)

/-- The statistics after one more command. -/
def Stats.countCommand (s : Stats) : Stats := { s with commands := s.commands + 1 }

variable {s : Session} {input : String}

section Step

theorem step_of_isSilent (silent : isSilent input) : s.step input = (.empty, s) := by
  unfold step
  dsimp only
  split
  · rfl
  · rfl
  · next slash => simp [isSilent, slash] at silent
  · next empty comment _ =>
    cases shape : (Text.trim input).toList with
    | nil => exact absurd shape empty
    | cons c rest =>
      obtain rfl : c = '#' := by simpa [isSilent, shape] using silent
      exact absurd shape (comment rest)

theorem isCommand_iff : isCommand input ↔ ∃ rest, (Text.trim input).toList = '/' :: rest := by
  simp [isCommand, List.head?_eq_some_iff]

theorem isCommand_of_isSilent (silent : isSilent input) : isCommand input = false := by
  refine Bool.eq_false_iff.mpr fun command => ?_
  obtain ⟨rest, shape⟩ := isCommand_iff.mp command
  simp [isSilent, shape] at silent

theorem step_of_isCommand (command : isCommand input) :
    s.step input =
      match Command.ofWord? ((Text.words (Text.trim input)).headD "") with
      | some command => runCommand ⟨s.environment, s.stats.countCommand⟩ command
      | none =>
        (.error (.unknownCommand ((Text.words (Text.trim input)).headD "")),
          ⟨s.environment, s.stats.countCommand⟩) := by
  obtain ⟨rest, shape⟩ := isCommand_iff.mp command
  unfold step
  dsimp only
  split
  · next empty => cases empty.symm.trans shape
  · next comment => cases comment.symm.trans shape
  · generalize Command.ofWord? _ = known
    cases known <;> rfl
  · next slash => exact absurd shape (slash rest)

theorem step_of_statement (notSilent : isSilent input = false) (notCommand : isCommand input = false) :
    s.step input = s.runStatement (Text.trim input) := by
  unfold step
  dsimp only
  split
  · next empty => simp [isSilent, empty] at notSilent
  · next comment => simp [isSilent, comment] at notSilent
  · next slash => simp [isCommand, slash] at notCommand
  · rfl

theorem Command.ofWord?_eq_some_clear {word : String} : Command.ofWord? word = some .clear ↔ word = "/clear" := by
  constructor
  · intro known
    unfold Command.ofWord? at known
    split at known <;> first | rfl | cases known
  · rintro rfl
    rfl

theorem clears_iff (command : isCommand input) :
    clears input ↔ Command.ofWord? ((Text.words (Text.trim input)).headD "") = some .clear := by
  rw [clears, command, Command.ofWord?_eq_some_clear]
  cases Text.words (Text.trim input) with
  | nil => decide
  | cons word rest => simp

theorem clears_eq_false (notCommand : isCommand input = false) : clears input = false := by
  rw [clears, notCommand, Bool.false_and]

theorem runStatement_of_error {text : String} {e : Script.ParseError} (refused : Statement.parse text = .error e) :
    s.runStatement text = (.error (.parse e), s) := by
  unfold runStatement
  rewrite [refused]
  rfl

/-- All that a session does with an input. -/
inductive Takes (s : Session) (input : String) : Reply × Session → Prop where
  | silent (notCommand : isCommand input = false) : Takes s input (.empty, s)
  | clear {text : String} (command : isCommand input) (clear : clears input) :
    Takes s input (.message text, ⟨{}, s.stats.countCommand⟩)
  | command {reply : Reply} (command : isCommand input) (keeps : clears input = false)
    (noOutcome : reply.outcome? = none) : Takes s input (reply, ⟨s.environment, s.stats.countCommand⟩)
  | refused {e : Error} (notCommand : isCommand input = false) : Takes s input (.error e, s)
  | executed {statement : Located Statement} {outcome : Outcome} {next : Environment}
    (notCommand : isCommand input = false) (parsed : Statement.parse (Text.trim input) = .ok statement)
    (done : s.environment.execute statement = .ok (outcome, next)) :
    Takes s input (.outcome outcome, ⟨next, s.stats.count outcome⟩)

theorem takes_command (command : isCommand input) : Takes s input (s.step input) := by
  rw [step_of_isCommand command]
  have clear := clears_iff command
  revert clear
  generalize Command.ofWord? _ = known
  intro clear
  have keeps (other : known ≠ some .clear) : clears input = false := Bool.eq_false_iff.mpr (other ∘ clear.mp)
  rcases known with _ | c
  · exact .command command (keeps nofun) rfl
  · cases c with
    | clear => exact .clear command (clear.mpr rfl)
    | help | bindings | classes | stats | quit => exact .command command (keeps nofun) rfl

theorem takes_step (s : Session) (input : String) : Takes s input (s.step input) := by
  by_cases silent : isSilent input
  · rw [step_of_isSilent silent]
    exact .silent (isCommand_of_isSilent silent)
  by_cases command : isCommand input
  · exact takes_command command
  · rw [Bool.not_eq_true] at silent command
    rw [step_of_statement silent command]
    rcases parsed : Statement.parse (Text.trim input) with e | statement
    · rw [runStatement_of_error parsed]
      exact .refused command
    · rw [runStatement_of_parse parsed]
      rcases done : s.environment.execute statement with e | r
      · exact .refused command
      · exact .executed command parsed done

/-- Only statements that have an outcome, and the command that forgets the bindings, change them. -/
theorem environment_step (s : Session) (input : String)
    (noTrace : isSilent input ∨ (isCommand input ∧ clears input = false) ∨ ∃ e, (s.step input).1 = .error e) :
    (s.step input).2.environment = s.environment := by
  have takes := takes_step s input
  generalize same : s.step input = t at takes noTrace ⊢
  cases takes with
  | silent | command | refused => rfl
  | clear command clear =>
    rcases noTrace with silent | ⟨_, keeps⟩ | ⟨e, error⟩
    · rw [isCommand_of_isSilent silent] at command
      cases command
    · rw [keeps] at clear
      cases clear
    · cases error
  | executed notCommand parsed done =>
    rcases noTrace with silent | ⟨command, _⟩ | ⟨e, error⟩
    · rw [step_of_isSilent silent] at same
      cases same
    · rw [notCommand] at command
      cases command
    · cases error

end Step

section Run

theorem after_cons (s : Session) (inputs : List String) (input : String) :
    s.after (input :: inputs) = (s.step input).2.after inputs := by
  rw [after, after, List.foldl_cons]

theorem after_concat (s : Session) (inputs : List String) (input : String) :
    s.after (inputs ++ [input]) = ((s.after inputs).step input).2 := by
  rw [after, List.foldl_concat]
  rfl

theorem exchanges_concat (s : Session) (inputs : List String) (input : String) :
    s.exchanges (inputs ++ [input]) = s.exchanges inputs ++ [(input, ((s.after inputs).step input).1)] := by
  induction inputs generalizing s with
  | nil => rfl
  | cons first inputs ih => rw [List.cons_append, exchanges, ih, exchanges, List.cons_append, after_cons]

variable {exchanges : List (String × Reply)} {reply : Reply}

theorem sinceClear_concat_of_clears (clear : clears input) : sinceClear (exchanges ++ [(input, reply)]) = [] := by
  rw [sinceClear, List.rtakeWhile_concat_neg _ _ _ (by simp [clear])]

theorem sinceClear_concat (keeps : clears input = false) :
    sinceClear (exchanges ++ [(input, reply)]) = sinceClear exchanges ++ [(input, reply)] := by
  rw [sinceClear, List.rtakeWhile_concat_pos _ _ _ (by simp [keeps])]
  rfl

theorem outcomes_concat_of_none (noOutcome : reply.outcome? = none) :
    outcomes (exchanges ++ [(input, reply)]) = outcomes exchanges := by
  simp [outcomes, noOutcome]

theorem outcomes_concat (outcome : Outcome) :
    outcomes (exchanges ++ [(input, .outcome outcome)]) = outcomes exchanges ++ [(input, outcome)] := by
  simp [outcomes, Reply.outcome?]

/-- The inputs are read as these statements, which have these outcomes and make the environment. -/
structure Makes (outcomes : List (String × Outcome)) (statements : List (Located Statement)) (env : Environment) :
    Prop where
  read : List.Forall₂ (fun e s => Statement.parse (Text.trim e.1) = .ok s) outcomes statements
  results : ({} : Environment).results statements = outcomes.map fun e => .ok e.2
  made : ({} : Environment).afterAll statements = env

theorem Makes.start : Makes [] [] {} := ⟨.nil, rfl, rfl⟩

theorem Makes.concat {outcomes : List (String × Outcome)} {statements : List (Located Statement)}
    {env next : Environment} (makes : Makes outcomes statements env) {statement : Located Statement} {outcome : Outcome}
    (parsed : Statement.parse (Text.trim input) = .ok statement) (done : env.execute statement = .ok (outcome, next)) :
    Makes (outcomes ++ [(input, outcome)]) (statements ++ [statement]) next := by
  have attempted : env.attempt statement = (.ok outcome, next) := by rw [Environment.attempt, done]
  refine ⟨List.rel_append makes.read (.cons parsed .nil), ?_, ?_⟩
  · rw [Environment.results_append, makes.results, makes.made, Environment.results, attempted]
    simp [Environment.results]
  · rw [Environment.afterAll_append, makes.made, Environment.afterAll, List.foldl_cons, attempted]
    rfl

theorem exists_makes (inputs : List String) : ∃ statements,
    Makes (outcomes (sinceClear (({} : Session).exchanges inputs))) statements
      (({} : Session).after inputs).environment := by
  induction inputs using List.reverseRecOn with
  | nil => exact ⟨[], .start⟩
  | append_singleton inputs input ih =>
    obtain ⟨statements, makes⟩ := ih
    rw [after_concat, exchanges_concat]
    have takes := takes_step (({} : Session).after inputs) input
    generalize (({} : Session).after inputs).step input = t at takes ⊢
    cases takes with
    | silent notCommand | refused notCommand =>
      rw [sinceClear_concat (clears_eq_false notCommand), outcomes_concat_of_none rfl]
      exact ⟨statements, makes⟩
    | clear _ clear =>
      rw [sinceClear_concat_of_clears clear]
      exact ⟨[], .start⟩
    | command _ keeps noOutcome =>
      rw [sinceClear_concat keeps, outcomes_concat_of_none noOutcome]
      exact ⟨statements, makes⟩
    | executed notCommand parsed done =>
      rw [sinceClear_concat (clears_eq_false notCommand), outcomes_concat]
      exact ⟨_, makes.concat parsed done⟩

theorem stats_after (inputs : List String) :
    (({} : Session).after inputs).stats =
      { statements := (outcomes (({} : Session).exchanges inputs)).length
        expectations := (outcomes (({} : Session).exchanges inputs)).countP (·.2.isPassed)
        errors := 0
        commands := inputs.countP isCommand } := by
  induction inputs using List.reverseRecOn with
  | nil => rfl
  | append_singleton inputs input ih =>
    rw [after_concat, exchanges_concat, List.countP_append, List.countP_singleton]
    have takes := takes_step (({} : Session).after inputs) input
    generalize (({} : Session).after inputs).step input = t at takes ⊢
    cases takes with
    | silent notCommand | refused notCommand =>
      rw [outcomes_concat_of_none rfl, if_neg (Bool.eq_false_iff.mp notCommand), ih]
      rfl
    | clear command _ =>
      rw [outcomes_concat_of_none rfl, if_pos command, ih]
      rfl
    | command command _ noOutcome =>
      rw [outcomes_concat_of_none noOutcome, if_pos command, ih]
      rfl
    | @executed _ outcome _ notCommand _ _ =>
      rw [outcomes_concat, if_neg (Bool.eq_false_iff.mp notCommand), List.length_append, List.countP_append,
        List.countP_singleton, ih]
      cases outcome <;> rfl

/-- No counter is smaller than another. -/
structure Stats.Grows (first later : Stats) : Prop where
  statements : first.statements ≤ later.statements
  expectations : first.expectations ≤ later.expectations
  errors : first.errors ≤ later.errors
  commands : first.commands ≤ later.commands

theorem stats_step (s : Session) (input : String) : s.stats.Grows (s.step input).2.stats := by
  have takes := takes_step s input
  generalize s.step input = t at takes ⊢
  cases takes with
  | silent | refused => exact ⟨le_rfl, le_rfl, le_rfl, le_rfl⟩
  | clear | command => exact ⟨le_rfl, le_rfl, le_rfl, Nat.le_succ _⟩
  | @executed _ outcome _ _ _ _ =>
    cases outcome with
    | passed => exact ⟨Nat.le_succ _, Nat.le_succ _, le_rfl, le_rfl⟩
    | bound | classDefined | updated | query => exact ⟨Nat.le_succ _, le_rfl, le_rfl, le_rfl⟩

end Run

section InPlace

/-- Work on the bindings of a session. -/
def onEnvironment {α : Type} (work : InPlace Environment RunError α) : InPlace Session Error α := do
  let (result, env) := work.on (← get).environment
  modify fun s => { s with environment := env }
  liftExcept (result.mapError Error.run)

/-- Carries out a command, in the place of the bindings. -/
def performCommand : Command → InPlace Session Error Reply
  | .help => return .message helpText
  | .bindings => return .message (variablesText (← get).environment)
  | .classes => return .message (classesText (← get).environment)
  | .clear => do
    modify fun s => { s with environment := {} }
    return .message "Variables and classes cleared"
  | .stats => return .message (← get).stats.text
  | .quit => return .exit

/-- Takes an input by changes to the session in its place: a command is counted before it is known, a statement after
it was executed. -/
def perform (input : String) : InPlace Session Error Reply := do
  let text := Text.trim input
  if isSilent input then return .empty
  else if isCommand input then
    modify fun s => { s with stats := { s.stats with commands := s.stats.commands + 1 } }
    let word := (Text.words text).headD ""
    match Command.ofWord? word with
    | some command => performCommand command
    | none => throw (.unknownCommand word)
  else
    let statement ← liftExcept ((Statement.parse text).mapError Error.parse)
    let outcome ← onEnvironment (Environment.perform statement)
    modify fun s => { s with stats := { s.stats with statements := s.stats.statements + 1 } }
    if outcome.isPassed then
      modify fun s => { s with stats := { s.stats with expectations := s.stats.expectations + 1 } }
    return .outcome outcome

theorem on_onEnvironment (statement : Located Statement) :
    (onEnvironment (Environment.perform statement)).on s =
      ((s.environment.attempt statement).1.mapError Error.run, ⟨(s.environment.attempt statement).2, s.stats⟩) := by
  rw [onEnvironment, InPlace.on_get_bind, Environment.on_perform]
  exact InPlace.on_liftExcept _ _

theorem on_performCommand (command : Command) :
    (performCommand command).on s = ((s.runCommand command).1.result, (s.runCommand command).2) := by
  cases command <;> rfl

theorem on_perform_of_isCommand (command : isCommand input) :
    (perform input).on s = ((s.step input).1.result, (s.step input).2) := by
  have notSilent : ¬ isSilent input := fun silent => by
    rw [isCommand_of_isSilent silent] at command
    cases command
  rw [perform, if_neg notSilent, if_pos command, step_of_isCommand command, InPlace.on_modify_bind]
  dsimp only
  generalize Command.ofWord? _ = known
  cases known with
  | none => rfl
  | some command => exact on_performCommand command

theorem on_perform_of_statement (notSilent : isSilent input = false) (notCommand : isCommand input = false) :
    (perform input).on s = ((s.step input).1.result, (s.step input).2) := by
  rw [perform, if_neg (Bool.eq_false_iff.mp notSilent), if_neg (Bool.eq_false_iff.mp notCommand),
    step_of_statement notSilent notCommand]
  rcases parsed : Statement.parse (Text.trim input) with e | statement
  · rw [runStatement_of_error parsed]
    exact InPlace.on_liftExcept_bind_of_error rfl _ _
  · rw [runStatement_of_parse parsed]
    refine (InPlace.on_liftExcept_bind_of_ok rfl _ _).trans ?_
    have worked := on_onEnvironment (s := s) statement
    rw [Environment.attempt] at worked
    rcases done : s.environment.execute statement with e | ⟨outcome, next⟩
    · rw [done] at worked
      exact InPlace.on_bind_of_error worked _
    · rw [done] at worked
      refine (InPlace.on_bind_of_ok worked _).trans ?_
      cases outcome <;> rfl

/-- An input that is taken by changes in place has the reply and leaves the session that it is said to. -/
theorem on_perform (s : Session) (input : String) :
    (perform input).on s = ((s.step input).1.result, (s.step input).2) := by
  by_cases silent : isSilent input
  · rw [perform, if_pos silent, step_of_isSilent silent]
    rfl
  by_cases command : isCommand input
  · exact on_perform_of_isCommand command
  · exact on_perform_of_statement (Bool.eq_false_iff.mpr silent) (Bool.eq_false_iff.mpr command)

end InPlace

/-- A session has what the statements made that had an outcome since it was cleared, and has counted every input. -/
theorem account_of_inputs (inputs : List String) :
    (∃ statements, Makes (outcomes (sinceClear (({} : Session).exchanges inputs))) statements
      (({} : Session).after inputs).environment) ∧
    ((({} : Session).after inputs).stats.statements = (outcomes (({} : Session).exchanges inputs)).length ∧
      (({} : Session).after inputs).stats.expectations =
        (outcomes (({} : Session).exchanges inputs)).countP (·.2.isPassed) ∧
      (({} : Session).after inputs).stats.commands = inputs.countP isCommand) ∧
    (∀ (s : Session) (input : String),
      (isSilent input ∨ (isCommand input ∧ clears input = false) ∨ ∃ e, (s.step input).1 = .error e) →
        (s.step input).2.environment = s.environment) ∧
    (∀ (s : Session) (input : String), s.stats.Grows (s.step input).2.stats) ∧
    ∀ (s : Session) (input : String), (perform input).on s = ((s.step input).1.result, (s.step input).2) := by
  refine ⟨exists_makes inputs, ?_, environment_step, stats_step, on_perform⟩
  rw [stats_after]
  exact ⟨rfl, rfl, rfl⟩

/-- A session with a statement before its bindings are cleared, and after that a comment, statements with outcomes, one
that fails, one that cannot be read and a command that is not known. -/
def clearedInputs : List String :=
  ["h = \x7b\x7d", "/clear all", "# nothing", "k = \x7b:a => 1\x7d", "keys(h)", "expect keys(k) == [:a]", "k =",
    "/what"]

theorem account_of_clearedInputs :
    isSilent "# nothing" ∧
      ((({} : Session).after clearedInputs).step "# nothing").2.environment =
        (({} : Session).after clearedInputs).environment ∧
      (({} : Session).after clearedInputs).stats.statements = 3 ∧
      (({} : Session).after clearedInputs).stats.expectations = 1 ∧
      (({} : Session).after clearedInputs).stats.commands = 2 ∧
      (({} : Session).after clearedInputs).environment.bindings.names = ["k"] := by
  obtain ⟨_, ⟨statements, expectations, commands⟩, noTrace, _⟩ := account_of_inputs clearedInputs
  have silent : isSilent "# nothing" := by rfl
  refine ⟨silent, noTrace _ _ (.inl silent), statements.trans ?_, expectations.trans ?_, commands.trans ?_, ?_⟩ <;>
    decide +kernel

end Session

end KeyIntrospection
