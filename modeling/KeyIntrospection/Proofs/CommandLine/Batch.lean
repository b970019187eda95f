import KeyIntrospection.CommandLine.Execute
import KeyIntrospection.Proofs.CommandLine.Arguments
import Mathlib.Algebra.GroupWithZero.Nat
import Mathlib.Data.List.Forall2

/-!
Runs of several scripts. A script is run over no bindings, so that its results are those of a run of its own,
whatever scripts stand before and after it; the output has these results in the order of the files, and the counts
are their sums.
-/

namespace KeyIntrospection.CommandLine

section

variable {content? : String → Option String} {stdin : StandardInput} {file : String} {files : List String}

theorem readSource_of_ne (other : StandardInput) (named : file ≠ "-") :
    readSource content? stdin file = ((readSource content? other file).1, stdin) := by
  rw [readSource, readSource, if_neg named, if_neg named]
  cases content? file <;> rfl

theorem readSources_cons : readSources content? stdin (file :: files) =
    (file, (readSource content? stdin file).1) :: readSources content? (readSource content? stdin file).2 files :=
  rfl

theorem readSources_of_not_mem (other : StandardInput) (absent : "-" ∉ files) :
    readSources content? stdin files = files.map fun file => (file, (readSource content? other file).1) := by
  induction files with
  | nil => rfl
  | cons file files ih =>
    obtain ⟨named, absent⟩ : "-" ≠ file ∧ "-" ∉ files := by simpa using absent
    rw [readSources_cons, readSource_of_ne other (Ne.symm named), ih absent, List.map_cons]

/-- If the standard input is read once, each file name has the source that it has alone. -/
theorem readSources_eq_map (once : files.count "-" ≤ 1) :
    readSources content? stdin files = files.map fun file => (file, (readSource content? stdin file).1) := by
  induction files with
  | nil => rfl
  | cons file files ih =>
    rw [readSources_cons, List.map_cons]
    by_cases lone : file = "-"
    · have others : "-" ∉ files := by
        rw [lone, List.count_cons_self] at once
        exact List.count_eq_zero.mp (by omega)
      rw [readSources_of_not_mem stdin others]
    · have rest : (readSource content? stdin file).2 = stdin := by rw [readSource_of_ne stdin lone]
      rw [List.count_cons_of_ne lone] at once
      rw [rest, ih once]

end

/-- The text that a file name stands for: the whole standard input for a lone dash, and else what a file with the
name of a script holds. -/
inductive IsText (content? : String → Option String) (stdin : StandardInput) : String → String → Prop where
  | standardInput {text : String} (whole : stdin.whole? = some text) : IsText content? stdin "-" text
  | file {file text : String} (named : file ≠ "-") (there : content? file = some text) (script : isScriptName file) :
    IsText content? stdin file text

/-- What a file adds to a run: all that its script reports when it is run over no bindings, and nothing if there is
no such script. -/
inductive Adds (content? : String → Option String) (stdin : StandardInput) (file : String) : Report → Prop where
  | script {text : String} {script : Script} (source : IsText content? stdin file text)
    (parsed : Script.parse text (some (displayName file)) = .ok script) :
    Adds content? stdin file (Environment.run {} script.statements).1
  | missing (named : file ≠ "-") (absent : content? file = none) : Adds content? stdin file {}
  | misnamed (named : file ≠ "-") (wrong : isScriptName file = false) : Adds content? stdin file {}
  | unreadable (lone : file = "-") (broken : stdin.whole? = none) : Adds content? stdin file {}
  | unparsable {text : String} {e : Script.ParseError} (source : IsText content? stdin file text)
    (error : Script.parse text (some (displayName file)) = .error e) : Adds content? stdin file {}

/-- A file has a script, which has no error when it is run over no bindings. -/
def Succeeds (content? : String → Option String) (stdin : StandardInput) (file : String) : Prop :=
  ∃ text script, IsText content? stdin file text ∧ Script.parse text (some (displayName file)) = .ok script ∧
    (Environment.run {} script.statements).1.errors = []

/-- How far a run has come with its files. -/
structure Progress where
  stdin : StandardInput
  lines : List String := []
  passed : Nat := 0
  failed : Nat := 0
  success : Bool := true
  errors : List String := []

namespace Progress

/-- Goes on with one file. Without a script there is only its error. -/
def take (content? : String → Option String) (quiet : Bool) (p : Progress) (file : String) : Progress :=
  let (source, stdin) := readSource content? p.stdin file
  match load file source with
  | .error e => { p with stdin, success := false, errors := p.errors ++ [e.message] }
  | .ok script =>
    let report := (Environment.run {} script.statements).1
    { stdin
      lines := if quiet then p.lines else p.lines ++ report.outputs.map (·.value)
      passed := p.passed + report.passed
      failed := p.failed + report.failed
      success := if report.isSuccess then p.success else false
      errors := p.errors ++ report.errors.map RunError.message }

/-- A run that has got the results of more files. -/
def add (p : Progress) (rest : StandardInput) (results : List FileResult) : Progress :=
  { stdin := rest
    lines := p.lines ++ results.flatMap (·.lines)
    passed := p.passed + total (·.passed) results
    failed := p.failed + total (·.failed) results
    success := p.success && results.all (·.success)
    errors := p.errors ++ results.flatMap (·.errors) }

def output (p : Progress) : Output :=
  { exitCode := if p.success then 0 else 1
    stdout := unlines (p.lines ++ ["", s!"📊 {p.passed} passed, {p.failed} failed"])
    stderr := unlines p.errors }

end Progress

section

variable {content? : String → Option String} {stdin : StandardInput} {file text : String} {files : List String}
  {quiet : Bool}
  {source : Except SourceError String} {script : Script}

theorem isText_iff : IsText content? stdin file text ↔ (readSource content? stdin file).1 = .ok text := by
  constructor
  · intro source
    cases source with
    | standardInput whole => rw [readSource, if_pos rfl, whole]
    | file named there script => simp [readSource, named, there, script]
  · intro read
    by_cases lone : file = "-"
    · subst lone
      rw [readSource, if_pos rfl] at read
      cases whole : stdin.whole? with
      | none => simp [whole] at read
      | some held =>
        obtain rfl : held = text := by simpa [whole] using read
        exact .standardInput whole
    · rw [readSource, if_neg lone] at read
      cases there : content? file with
      | none => simp [there] at read
      | some held =>
        by_cases named : isScriptName file
        · obtain rfl : held = text := by simpa [there, named] using read
          exact .file lone there named
        · simp [there, named] at read

theorem load_eq_ok_iff : load file source = .ok script ↔
    ∃ text, source = .ok text ∧ Script.parse text (some (displayName file)) = .ok script := by
  cases source with
  | error e => simp [load]
  | ok text => cases parsed : Script.parse text (some (displayName file)) <;> simp [load, parsed, Except.mapError]

theorem load_alone_iff : load file (readSource content? stdin file).1 = .ok script ↔
    ∃ text, IsText content? stdin file text ∧ Script.parse text (some (displayName file)) = .ok script := by
  simp only [load_eq_ok_iff, isText_iff]

theorem adds_nothing {e : LoadError} (error : load file (readSource content? stdin file).1 = .error e) :
    Adds content? stdin file {} := by
  cases read : (readSource content? stdin file).1 with
  | ok text =>
    have source := isText_iff.mpr read
    cases parsed : Script.parse text (some (displayName file)) with
    | ok script => cases error.symm.trans (load_alone_iff.mpr ⟨text, source, parsed⟩)
    | error e => exact .unparsable source parsed
  | error e =>
    by_cases lone : file = "-"
    · subst lone
      refine .unreadable rfl (Option.eq_none_iff_forall_ne_some.mpr fun text whole => ?_)
      cases read.symm.trans (isText_iff.mp (.standardInput whole))
    · cases absent : content? file with
      | none => exact .missing lone absent
      | some text =>
        refine .misnamed lone (Bool.eq_false_iff.mpr fun script => ?_)
        cases read.symm.trans (isText_iff.mp (.file lone absent script))

/-- The result of a file with the standard input for itself. -/
def resultAlone (content? : String → Option String) (stdin : StandardInput) (quiet : Bool) (file : String) : FileResult :=
  runFile quiet file (readSource content? stdin file).1

theorem resultAlone_of_load (loaded : load file (readSource content? stdin file).1 = .ok script) :
    resultAlone content? stdin quiet file =
      let report := (Environment.run {} script.statements).1
      { lines := if quiet then [] else report.outputs.map (·.value)
        passed := report.passed
        failed := report.failed
        success := report.isSuccess
        errors := report.errors.map RunError.message } := by
  rw [resultAlone, runFile, loaded]

theorem resultAlone_of_error {e : LoadError} (error : load file (readSource content? stdin file).1 = .error e) :
    resultAlone content? stdin quiet file = failure e := by
  rw [resultAlone, runFile, error]

theorem results_run (once : files.count "-" ≤ 1) :
    (Invocation.run files quiet).results content? stdin = files.map (resultAlone content? stdin quiet) := by
  rw [Invocation.results, readSources_eq_map once, List.map_map]
  rfl

theorem exists_adds (content? : String → Option String) (stdin : StandardInput) (file : String) :
    ∃ report, Adds content? stdin file report := by
  cases loaded : load file (readSource content? stdin file).1 with
  | error e => exact ⟨{}, adds_nothing loaded⟩
  | ok script =>
    obtain ⟨text, source, parsed⟩ := load_alone_iff.mp loaded
    exact ⟨_, .script source parsed⟩

theorem Adds.load_cases {report : Report} (adds : Adds content? stdin file report) :
    (∃ script, load file (readSource content? stdin file).1 = .ok script ∧
      report = (Environment.run {} script.statements).1) ∨
    (∃ e, load file (readSource content? stdin file).1 = .error e) ∧ report = {} := by
  cases adds with
  | script source parsed => exact .inl ⟨_, load_alone_iff.mpr ⟨_, source, parsed⟩, rfl⟩
  | missing named absent => exact .inr ⟨⟨.source (.notFound file), by simp [load, readSource, named, absent]⟩, rfl⟩
  | misnamed named wrong =>
    refine .inr ⟨?_, rfl⟩
    cases there : content? file with
    | none => exact ⟨.source (.notFound file), by simp [load, readSource, named, there]⟩
    | some text => exact ⟨.source (.notAScript file), by simp [load, readSource, named, there, wrong]⟩
  | unreadable lone broken => exact .inr ⟨⟨.source .notText, by simp [load, readSource, lone, broken]⟩, rfl⟩
  | unparsable source error =>
    exact .inr ⟨⟨.parse _, by rw [isText_iff.mp source, load, error]; rfl⟩, rfl⟩

/-- A file gives its report to the output and to the counts. -/
theorem Adds.resultAlone_eq {report : Report} (adds : Adds content? stdin file report) (quiet : Bool) :
    (resultAlone content? stdin quiet file).lines = (if quiet then [] else report.outputs.map (·.value)) ∧
      (resultAlone content? stdin quiet file).passed = report.passed ∧
      (resultAlone content? stdin quiet file).failed = report.failed := by
  rcases adds.load_cases with ⟨script, loaded, rfl⟩ | ⟨⟨e, error⟩, rfl⟩
  · rw [resultAlone_of_load loaded]
    exact ⟨rfl, rfl, rfl⟩
  · rw [resultAlone_of_error error]
    exact ⟨(ite_self _).symm, rfl, rfl⟩

/-- A quiet run leaves out the output of a script and nothing else. -/
theorem resultAlone_quiet :
    resultAlone content? stdin true file = { resultAlone content? stdin false file with lines := [] } := by
  cases loaded : load file (readSource content? stdin file).1 with
  | error e => simp only [resultAlone_of_error loaded, failure]
  | ok script => simp [resultAlone_of_load loaded]

theorem success_resultAlone_iff : (resultAlone content? stdin quiet file).success ↔ Succeeds content? stdin file := by
  cases loaded : load file (readSource content? stdin file).1 with
  | error e =>
    rw [resultAlone_of_error loaded]
    refine ⟨nofun, fun ⟨text, script, source, parsed, _⟩ => ?_⟩
    cases loaded.symm.trans (load_alone_iff.mpr ⟨text, source, parsed⟩)
  | ok script =>
    rw [resultAlone_of_load loaded]
    refine ⟨fun success => ?_, fun ⟨text, other, source, parsed, silent⟩ => ?_⟩
    · obtain ⟨text, source, parsed⟩ := load_alone_iff.mp loaded
      exact ⟨text, script, source, parsed, List.isEmpty_iff.mp success⟩
    · cases loaded.symm.trans (load_alone_iff.mpr ⟨text, source, parsed⟩)
      exact List.isEmpty_iff.mpr silent

theorem exitCode_eq_zero_iff {results : List FileResult} : exitCode results = 0 ↔ ∀ r ∈ results, r.success := by
  simp [exitCode]

theorem exitCode_run_eq_zero_iff (once : files.count "-" ≤ 1) (quiet : Bool) :
    ((Invocation.run files quiet).execute content? stdin).exitCode = 0 ↔
      ∀ file ∈ files, Succeeds content? stdin file := by
  rw [Invocation.execute, exitCode_eq_zero_iff, results_run once]
  simp [success_resultAlone_iff]

theorem total_eq_sum (count : FileResult → Nat) (results : List FileResult) :
    total count results = (results.map count).sum := by
  induction results with
  | nil => rfl
  | cons r results ih =>
    rw [List.map_cons, List.sum_cons, ← ih]
    rfl

namespace Progress

/-- The step of a run adds the result of one file. -/
theorem take_eq (p : Progress) (file : String) : p.take content? quiet file =
    p.add (readSource content? p.stdin file).2 [runFile quiet file (readSource content? p.stdin file).1] := by
  cases loaded : load file (readSource content? p.stdin file).1 with
  | error e => simp [take, add, runFile, loaded, failure, total]
  | ok script => cases quiet <;> simp [take, add, runFile, loaded, total, Bool.and_comm]

theorem add_add (p : Progress) (middle rest : StandardInput) (first others : List FileResult) :
    (p.add middle first).add rest others = p.add rest (first ++ others) := by
  simp [add, total_eq_sum, Nat.add_assoc, Bool.and_assoc]

/-- The steps of a run add the results of all files. -/
theorem exists_foldl_take (content? : String → Option String) (files : List String) (quiet : Bool) (p : Progress) :
    ∃ rest, files.foldl (take content? quiet) p =
      p.add rest ((readSources content? p.stdin files).map fun (file, source) => runFile quiet file source) := by
  induction files generalizing p with
  | nil => exact ⟨p.stdin, by simp [readSources, add, total]⟩
  | cons file files ih =>
    obtain ⟨rest, others⟩ := ih (p.take content? quiet file)
    refine ⟨rest, ?_⟩
    rw [List.foldl_cons, others, take_eq, add_add]
    rfl

theorem output_add (rest : StandardInput) (results : List FileResult) : (add { stdin } rest results).output =
    ⟨exitCode results, unlines (results.flatMap (·.lines) ++ summary results),
      unlines (results.flatMap (·.errors))⟩ := by
  simp only [output, add, Nat.zero_add]
  rfl

/-- A run goes through its files one after another. -/
theorem execute_run_eq (content? : String → Option String) (stdin : StandardInput) (files : List String) (quiet : Bool) :
    (Invocation.run files quiet).execute content? stdin = (files.foldl (take content? quiet) { stdin }).output := by
  obtain ⟨rest, last⟩ := exists_foldl_take content? files quiet { stdin }
  rw [last, output_add]
  rfl

end Progress

variable {reports : List Report}

/-- What the files add, put together. -/
theorem results_eq_of_adds (adds : List.Forall₂ (Adds content? stdin) files reports) (quiet : Bool) :
    let results := files.map (resultAlone content? stdin quiet)
    results.flatMap (·.lines) = (if quiet then [] else reports.flatMap fun r => r.outputs.map (·.value)) ∧
      total (·.passed) results = (reports.map (·.passed)).sum ∧
      total (·.failed) results = (reports.map (·.failed)).sum := by
  induction adds with
  | nil => exact ⟨(ite_self _).symm, rfl, rfl⟩
  | cons first others ih =>
    obtain ⟨lines, passed, failed⟩ := first.resultAlone_eq quiet
    obtain ⟨linesOthers, passedOthers, failedOthers⟩ := ih
    rw [total_eq_sum] at passedOthers failedOthers
    simp only [total_eq_sum, List.map_cons, List.flatMap_cons, List.sum_cons, lines, passed, failed, linesOthers,
      passedOthers, failedOthers, and_true]
    cases quiet <;> rfl

theorem stdout_run (once : files.count "-" ≤ 1) (adds : List.Forall₂ (Adds content? stdin) files reports)
    (quiet : Bool) :
    ((Invocation.run files quiet).execute content? stdin).stdout =
      unlines ((if quiet then [] else reports.flatMap fun r => r.outputs.map (·.value)) ++
        ["", s!"📊 {(reports.map (·.passed)).sum} passed, {(reports.map (·.failed)).sum} failed"]) := by
  obtain ⟨lines, passed, failed⟩ := results_eq_of_adds adds quiet
  rw [Invocation.execute, results_run once]
  simp only [lines, passed, failed, summary]

/-- A quiet run differs in its output alone. -/
theorem execute_run_quiet (once : files.count "-" ≤ 1) :
    (Invocation.run files true).execute content? stdin =
      { (Invocation.run files false).execute content? stdin with
        stdout := ((Invocation.run files true).execute content? stdin).stdout } := by
  have same : files.map (resultAlone content? stdin true) =
      (files.map (resultAlone content? stdin false)).map fun r => { r with lines := [] } := by
    simp [resultAlone_quiet]
  simp only [Invocation.execute, results_run once]
  rw [same]
  generalize files.map (resultAlone content? stdin false) = results
  simp [exitCode, List.flatMap_map]

end

/-- A run writes what its scripts report alone, in the order of the files, and a summary with the sums of their counts;
it succeeds if all files do, and a quiet run leaves out what the scripts report. So does a run that goes through its
files one after another, and so does every command line of file names. -/
theorem run_of_each_alone (content? : String → Option String) (stdin : StandardInput) {files : List String}
    (once : files.count "-" ≤ 1) :
    let run (files : List String) (quiet : Bool) : Output := (Invocation.run files quiet).execute content? stdin
    (∃ reports, List.Forall₂ (Adds content? stdin) files reports) ∧
    (∀ reports, List.Forall₂ (Adds content? stdin) files reports →
      let summary := ["", s!"📊 {(reports.map (·.passed)).sum} passed, {(reports.map (·.failed)).sum} failed"]
      (run files false).stdout = unlines (reports.flatMap (fun r => r.outputs.map (·.value)) ++ summary) ∧
      run files true = { run files false with stdout := unlines summary }) ∧
    (∀ quiet, (run files quiet).exitCode = 0 ↔ ∀ file ∈ files, (run [file] quiet).exitCode = 0) ∧
    (∀ file quiet, (run [file] quiet).exitCode = 0 ↔ Succeeds content? stdin file) ∧
    (∀ quiet, run files quiet = (files.foldl (Progress.take content? quiet) { stdin }).output) ∧
    ∀ names, names ≠ [] → (∀ name ∈ names, IsFileName name) →
      execute ("run" :: names) content? stdin = run names false ∧
      ∀ before flag after, names = before ++ after → flag = "--quiet" ∨ flag = "-q" →
        execute ("run" :: (before ++ flag :: after)) content? stdin = run names true := by
  intro run
  have alone : ∀ file quiet, (run [file] quiet).exitCode = 0 ↔ Succeeds content? stdin file := fun file quiet => by
    have single : [file].count "-" ≤ 1 := List.count_le_length
    simpa using exitCode_run_eq_zero_iff single quiet
  refine ⟨?_, fun reports adds => ⟨?_, ?_⟩, fun quiet => ?_, alone, Progress.execute_run_eq content? stdin files, ?_⟩
  · choose report adds using exists_adds content? stdin
    exact ⟨files.map report, List.forall₂_map_right_iff.mpr (List.forall₂_same.mpr fun file _ => adds file)⟩
  · exact stdout_run once adds false
  · have summaryAlone := stdout_run once adds true
    rw [if_pos rfl, List.nil_append] at summaryAlone
    rw [← summaryAlone]
    exact execute_run_quiet once
  · simp only [alone]
    exact exitCode_run_eq_zero_iff once quiet
  · intro names nonempty areNames
    refine ⟨?_, ?_⟩
    · rw [execute, Invocation.ofArguments_files nonempty areNames]
    · rintro before flag after rfl isFlag
      rw [execute, Invocation.ofArguments_flag isFlag nonempty areNames]

/-- The files of a run: a script with a query and an expectation that fails, no file, the standard input, a file
that is no script and one that cannot be parsed. -/
def mixedFiles : List String := ["h.interop", "missing.interop", "-", "notes.txt", "bad.interop"]

def mixedContent? (file : String) : Option String :=
  List.lookup file [("h.interop", "h = \x7b\x7d\nkeys(h)\nexpect keys(h) includes :a\n"), ("notes.txt", "keys(h)"),
    ("bad.interop", "h =")]

/-- `h = {}`, `keys(h)` and `expect keys(h) includes :a`. -/
def mixedScript : Script :=
  { statements :=
      [⟨.assign ⟨"h", 0, 1⟩ ⟨.hash ⟨[], 4, 6⟩, 4, 6⟩, 0, 6⟩, ⟨.query ⟨.keys ⟨"h", 12, 13⟩ false, 7, 14⟩, 7, 14⟩,
        ⟨.expect ⟨.keys ⟨"h", 27, 28⟩ false, 22, 29⟩ (.includes ⟨"a", 39, 41⟩), 15, 41⟩]
    file := some "h.interop"
    span := ⟨0, 42⟩ }

/-- A variable of the first script is not one of the script on the standard input, and of both there is one count. -/
theorem run_of_each_alone_mixed :
    mixedFiles.count "-" ≤ 1 ∧ mixedFiles ≠ [] ∧ (∀ file ∈ mixedFiles, IsFileName file) ∧
      (execute ("run" :: mixedFiles) mixedContent? "keys(h)").stdout = "[]\n\n📊 0 passed, 1 failed\n" ∧
      (execute ["run", "h.interop", "missing.interop", "-q", "-", "notes.txt", "bad.interop"] mixedContent?
        "keys(h)").stdout = "\n📊 0 passed, 1 failed\n" ∧
      (execute ("run" :: mixedFiles) mixedContent? "keys(h)").exitCode ≠ 0 := by
  have once : mixedFiles.count "-" ≤ 1 := by decide
  have nonempty : mixedFiles ≠ [] := by decide
  have names : ∀ file ∈ mixedFiles, IsFileName file := by
    have undashed : ∀ file ∈ mixedFiles, file = "-" ∨ ¬ "-".toList <+: file.toList := by decide
    exact fun file member => ⟨fun empty => absurd (empty ▸ member) (by decide),
      (undashed file member).imp_right String.startsWith_string_eq_false_iff.mpr⟩
  have whole : Script.parse "h = \x7b\x7d\nkeys(h)\nexpect keys(h) includes :a\n" (some "h.interop") =
      .ok mixedScript := by rfl
  have query : Script.parse "keys(h)" (some "<stdin>") =
      .ok ⟨[⟨.query ⟨.keys ⟨"h", 5, 6⟩ false, 0, 7⟩, 0, 7⟩], some "<stdin>", 0, 7⟩ := by rfl
  have held : IsText mixedContent? "keys(h)" "h.interop" "h = \x7b\x7d\nkeys(h)\nexpect keys(h) includes :a\n" :=
    .file (by decide) rfl (by decide +kernel)
  have first := Adds.script held whole
  have read := Adds.script (.standardInput rfl : IsText mixedContent? "keys(h)" "-" "keys(h)") query
  have last : Adds mixedContent? "keys(h)" "bad.interop" {} :=
    .unparsable (.file (by decide) rfl (by decide +kernel)) rfl
  have adds : List.Forall₂ (Adds mixedContent? "keys(h)") mixedFiles _ :=
    .cons first (.cons (.missing (by decide) rfl) (.cons read
      (.cons (.misnamed (by decide) (by decide +kernel)) (.cons last .nil))))
  obtain ⟨_, report, exits, alone, _, commands⟩ := run_of_each_alone mixedContent? "keys(h)" once
  obtain ⟨plain, switched⟩ := commands mixedFiles nonempty names
  obtain ⟨stdout, quiet⟩ := report _ adds
  refine ⟨once, nonempty, names, ?_, ?_, ?_⟩
  · rw [plain, stdout]
    decide +kernel
  · have quietly := switched ["h.interop", "missing.interop"] "-q" ["-", "notes.txt", "bad.interop"] rfl (.inr rfl)
    refine (congrArg Output.stdout (quietly.trans quiet)).trans ?_
    decide +kernel
  · rw [plain]
    intro zero
    obtain ⟨_, _, source, _⟩ := (alone "missing.interop" false).mp ((exits false).mp zero _ (by decide))
    have read : Except.error (SourceError.notFound "missing.interop") = Except.ok _ := isText_iff.mp source
    cases read

end KeyIntrospection.CommandLine
