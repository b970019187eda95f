import KeyIntrospection.CommandLine.Arguments

/-!
How a command line with file names is read: the file names are the files of the run, in their order, and the switch
that leaves out the results of the queries may stand anywhere between them.
-/

namespace KeyIntrospection.CommandLine

/-- A text that the command line takes as the name of a file: a lone dash, or one that does not start with a dash. -/
structure IsFileName (argument : String) : Prop where
  ne_empty : argument ≠ ""
  undashed : argument = "-" ∨ argument.startsWith "-" = false

theorem IsFileName.ne {argument option : String} (isName : IsFileName argument) (dashed : "-".toList <+: option.toList)
    (longer : option ≠ "-") : argument ≠ option := by
  rintro rfl
  rcases isName.undashed with lone | undashed
  · exact longer lone
  · exact String.startsWith_string_eq_false_iff.mp undashed dashed

theorem IsFileName.startsWith_eq_false {argument option : String} (isName : IsFileName argument)
    (dashes : "--".toList <+: option.toList) : argument.startsWith option = false := by
  refine String.startsWith_string_eq_false_iff.mpr fun starts => ?_
  rcases isName.undashed with rfl | undashed
  · exact absurd (dashes.trans starts) (by decide)
  · have dashed : "-".toList <+: "--".toList := by decide
    exact String.startsWith_string_eq_false_iff.mp undashed (dashed.trans (dashes.trans starts))

/-- The switch that leaves out the results of the queries. -/
def quietly : Switch := ⟨"--quiet", some 'q'⟩

namespace Arguments

variable {a : Arguments} {argument flag : String} {rest files : List String}

theorem read_cons_file (isName : IsFileName argument) :
    read quietly true a (argument :: rest) = read quietly true { a with files := argument :: a.files } rest := by
  have notLevel : argument ≠ logLevelOption := isName.ne (by decide) (by decide)
  have notSetLevel : argument.startsWith (logLevelOption ++ "=") = false := isName.startsWith_eq_false (by decide)
  have notHelp : argument ≠ "--help" := isName.ne (by decide) (by decide)
  have notSwitch : argument ≠ quietly.name := isName.ne (by decide) (by decide)
  have named : argument = "-" ∨ (!argument.startsWith "-") = true := by simpa using isName.undashed
  rw [read.eq_def]
  split
  · next empty => cases empty
  · next _ same => exact absurd (List.cons.inj same).1 (isName.ne (by decide) (by decide))
  · next same =>
    obtain ⟨rfl, rfl⟩ := List.cons.inj same
    simp only [notLevel, notSetLevel, notHelp, notSwitch, named, isName.ne_empty, String.isEmpty_iff, Bool.not_true,
      Bool.false_eq_true, if_true, if_false]

theorem read_append_files (a : Arguments) (rest : List String) (names : ∀ file ∈ files, IsFileName file) :
    read quietly true a (files ++ rest) = read quietly true { a with files := files.reverse ++ a.files } rest := by
  induction files generalizing a with
  | nil => rfl
  | cons file files ih =>
    obtain ⟨first, others⟩ := List.forall_mem_cons.mp names
    rw [List.cons_append, read_cons_file first, ih _ others, List.reverse_cons, List.append_assoc]
    rfl

theorem read_cons_flag (isFlag : flag = "--quiet" ∨ flag = "-q") (first : a.switched = false) :
    read quietly true a (flag :: rest) = read quietly true { a with switched := true } rest := by
  have others : flag ≠ "--" ∧ flag ≠ logLevelOption ∧ flag ≠ "--help" ∧
      flag.startsWith (logLevelOption ++ "=") = false := by
    rcases isFlag with rfl | rfl <;>
      exact ⟨by decide, by decide, by decide, String.startsWith_string_eq_false_iff.mpr (by decide)⟩
  obtain ⟨notEnd, notLevel, notHelp, notSetLevel⟩ := others
  rw [read.eq_def]
  split
  · next empty => cases empty
  · next _ same => exact absurd (List.cons.inj same).1 notEnd
  · next same =>
    obtain ⟨rfl, rfl⟩ := List.cons.inj same
    simp only [notLevel, notSetLevel, notHelp, Bool.false_eq_true, if_false]
    rcases isFlag with rfl | rfl
    · simp [quietly, switch, first, Except.bind]
    · have dashed : "-q".startsWith "-" := String.startsWith_string_iff.mpr (by decide)
      have short : "-q".startsWith "--" = false := String.startsWith_string_eq_false_iff.mpr (by decide)
      simp [dashed, short, letters, quietly, switch, first, Except.bind]

end Arguments

namespace Invocation

variable {flag : String} {files before after : List String}

theorem ofArguments_run (arguments : List String) :
    ofArguments ("run" :: arguments) = fileCommand quietly .run arguments := by
  have notSetLevel : "run".startsWith (logLevelOption ++ "=") = false :=
    String.startsWith_string_eq_false_iff.mpr (by decide)
  have notHelp : "run".startsWith "-h" = false := String.startsWith_string_eq_false_iff.mpr (by decide)
  have notVersion : "run".startsWith "-V" = false := String.startsWith_string_eq_false_iff.mpr (by decide)
  have notLevel : "run" ≠ logLevelOption := by decide
  rw [ofArguments, readFrom.eq_def]
  simp [notLevel, notSetLevel, notHelp, notVersion, command, quietly]

/-- File names alone are the files of a run. -/
theorem ofArguments_files (nonempty : files ≠ []) (names : ∀ file ∈ files, IsFileName file) :
    ofArguments ("run" :: files) = .ok (.run files false) := by
  have read : Arguments.read quietly true {} files = .ok (some { files := files.reverse }) := by
    simpa [Arguments.read] using Arguments.read_append_files {} [] names
  simp [ofArguments_run, fileCommand, read, Except.bind, nonempty]

/-- A run is quiet wherever its switch stands between file names. -/
theorem ofArguments_flag (isFlag : flag = "--quiet" ∨ flag = "-q") (nonempty : before ++ after ≠ [])
    (names : ∀ file ∈ before ++ after, IsFileName file) :
    ofArguments ("run" :: (before ++ flag :: after)) = .ok (.run (before ++ after) true) := by
  obtain ⟨namesBefore, namesAfter⟩ := List.forall_mem_append.mp names
  have read : Arguments.read quietly true {} (before ++ flag :: after) =
      .ok (some { files := (before ++ after).reverse, switched := true }) := by
    rw [Arguments.read_append_files _ _ namesBefore, Arguments.read_cons_flag isFlag rfl]
    simpa [Arguments.read] using Arguments.read_append_files
      { files := before.reverse ++ [], switched := true } [] namesAfter
  have nonempty' : ¬ (before ++ after).reverse = [] := fun none => nonempty (List.reverse_eq_nil_iff.mp none)
  simp only [ofArguments_run, fileCommand, read, Except.bind, nonempty', if_false, List.reverse_reverse]

end Invocation

end KeyIntrospection.CommandLine
