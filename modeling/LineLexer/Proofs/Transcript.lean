import LineLexer.Proofs.Script
import LineLexer.Command.Run
/-!
# What the command prints

What is printed for several files is what is printed for each of them alone, one after the other,
and the exit code tells whether every line of every file is clean. The two tasks agree on both the
exit code and what is wrong; a file with a line that passes a limit has an error and no more
(`run_eq_join_alone`).
-/
namespace LineLexer.Command

variable {task : Task} {limits : Limits} {read : Reader} {path script : String} {o : Overrun}
  {ls : List ScriptLine}

/-! ## Transcripts of several files -/

/-- The same task under the same limits for one file. -/
def Invocation.alone (i : Invocation) (path : String) : Invocation := { i with files := [path] }

theorem foldl_append_eq (t : Transcript) (ts : List Transcript) :
    ts.foldl (· ++ ·) t =
      ⟨t.stdout ++ String.join (ts.map (·.stdout)), t.stderr ++ String.join (ts.map (·.stderr)),
        t.failed || ts.any (·.failed)⟩ := by
  induction ts generalizing t with
  | nil => simp
  | cons u ts ih =>
    rw [List.foldl_cons, ih]
    simp [String.append_assoc, Bool.or_assoc]

/-- Where reading is a function and printing is writing down, going through the files puts their
transcripts one after another. -/
theorem run_foldlM_performFile (i : Invocation) (read : Reader) (paths : List String)
    (failed : Bool) (t : Transcript) :
    (paths.foldlM (i.performFile (pure ∘ read) Transcript.add) failed).run t =
      (failed || (paths.map (runFile i.task i.limits read)).any (·.failed),
        (paths.map (runFile i.task i.limits read)).foldl (· ++ ·) t) := by
  induction paths generalizing failed t with
  | nil => exact congrArg (·, t) (Bool.or_false failed).symm
  | cons path paths ih =>
    have hfile : (i.performFile (pure ∘ read) Transcript.add failed path).run t =
        (failed || (runFile i.task i.limits read path).failed,
          t ++ runFile i.task i.limits read path) := rfl
    rw [List.foldlM_cons, StateT.run_bind, hfile]
    refine (ih _ _).trans ?_
    simp [Bool.or_assoc]

theorem run_eq (i : Invocation) (read : Reader) :
    i.run read =
      ⟨String.join (i.files.map fun path => (runFile i.task i.limits read path).stdout),
        String.join (i.files.map fun path => (runFile i.task i.limits read path).stderr),
        i.files.any fun path => (runFile i.task i.limits read path).failed⟩ := by
  rw [Invocation.run, Request.transcript, Request.perform, Invocation.perform, Transcript.ofRun,
    run_foldlM_performFile, foldl_append_eq]
  simp [Function.comp_def]

theorem run_alone (i : Invocation) (read : Reader) (path : String) :
    (i.alone path).run read = runFile i.task i.limits read path := by
  rw [run_eq]
  simp [Invocation.alone]

theorem exitCode_eq_zero_iff {t : Transcript} : t.exitCode = 0 ↔ t.failed = false := by
  simp [Transcript.exitCode]

theorem exitCode_eq_one_iff {t : Transcript} : t.exitCode = 1 ↔ t.failed = true := by
  simp [Transcript.exitCode]

/-! ## One file -/

theorem lexFile_eq_ok_iff :
    limits.lexFile read path = .ok ls ↔
      ∃ script, read path = .ok script ∧ limits.lexScript path script = .ok ls := by
  cases hread : read path with
  | error fault => simp [Limits.lexFile, hread]
  | ok script =>
    rw [Limits.lexFile_of_read hread]
    cases hls : limits.lexScript path script <;> simp [Except.mapError, hls]

/-- A file is listed or summed up if its lines can be read. -/
theorem runFile_of_ok (hread : read path = .ok script)
    (hls : limits.lexScript path script = .ok ls) :
    runFile task limits read path = task.transcript path ls := by
  rw [runFile, lexFile_eq_ok_iff.2 ⟨script, hread, hls⟩]

theorem runFile_of_error (hread : read path = .ok script)
    (ho : limits.lexScript path script = .error o) :
    runFile task limits read path = failure (.overrun o) := by
  rw [runFile, Limits.lexFile_of_read hread, ho]
  rfl

theorem runFile_of_unreadable {fault : ReadFault} (hread : read path = .error fault) :
    runFile task limits read path = failure (.unreadable path fault) := by
  rw [runFile, Limits.lexFile, hread]

/-- Only what goes to the standard output depends on the task. -/
theorem runFile_task_eq (task task' : Task) (limits : Limits) (read : Reader) (path : String) :
    (runFile task limits read path).stderr = (runFile task' limits read path).stderr ∧
      (runFile task limits read path).failed = (runFile task' limits read path).failed := by
  unfold runFile
  cases limits.lexFile read path <;> exact ⟨rfl, rfl⟩

/-! ## Clean files -/

/-- The file can be read, and no line of it passes a limit or has a diagnostic. -/
def CleanFile (limits : Limits) (read : Reader) (path : String) : Prop :=
  ∃ script, read path = .ok script ∧ ∀ k line, (Text.lines script)[k]? = some line →
    ∃ r, limits.lex ⟨path, k + 1⟩ line = .ok r ∧ r.isClean = true

/-- What holds of every line of a script holds of what each line is read to. -/
theorem forall_mem_of_lexScript (hls : limits.lexScript path script = .ok ls)
    (P : Reading → Prop) :
    (∀ l ∈ ls, P l.reading) ↔ ∀ k line, (Text.lines script)[k]? = some line →
      ∃ r, limits.lex ⟨path, k + 1⟩ line = .ok r ∧ P r := by
  rw [Limits.lexScript] at hls
  obtain ⟨hlength, hread⟩ := getElem?_of_lexLines hls
  constructor
  · intro hP k line hk
    obtain ⟨r, hr, hlex⟩ := hread k line hk
    rw [Nat.add_comm] at hlex
    exact ⟨r, hlex, hP _ (List.mem_of_getElem? hr)⟩
  · intro hP l hl
    obtain ⟨k, hk⟩ := List.mem_iff_getElem?.1 hl
    have hlt : k < (Text.lines script).length := by
      rw [← hlength]
      exact (List.getElem?_eq_some_iff.1 hk).1
    have hline := List.getElem?_eq_getElem hlt
    obtain ⟨r, hr, hlex⟩ := hread k _ hline
    obtain ⟨r', hlex', hP'⟩ := hP k _ hline
    rw [Nat.add_comm] at hlex
    rw [hlex] at hlex'
    rw [hk] at hr
    cases hlex'
    cases hr
    exact hP'

theorem diagnosticCount_eq_zero_iff :
    diagnosticCount ls = 0 ↔ ∀ l ∈ ls, l.reading.isClean = true := by
  simp only [diagnosticCount, List.length_eq_zero_iff, List.flatMap_eq_nil_iff, Reading.isClean,
    List.isEmpty_iff]

theorem failed_runFile_eq_false_iff :
    (runFile task limits read path).failed = false ↔ CleanFile limits read path := by
  cases hread : read path with
  | error fault =>
    rw [runFile_of_unreadable hread]
    simp [failure, CleanFile, hread]
  | ok script =>
    have hclean : CleanFile limits read path ↔
        ∀ k line, (Text.lines script)[k]? = some line →
          ∃ r, limits.lex ⟨path, k + 1⟩ line = .ok r ∧ r.isClean = true := by
      simp [CleanFile, hread]
    rw [hclean]
    cases hls : limits.lexScript path script with
    | ok ls =>
      rw [runFile_of_ok hread hls, ← forall_mem_of_lexScript hls (·.isClean = true),
        ← diagnosticCount_eq_zero_iff]
      simp [Task.transcript]
    | error o =>
      rw [runFile_of_error hread hls]
      simp only [failure, Bool.true_eq_false, false_iff]
      intro hall
      obtain ⟨k, line, hk, hline, -⟩ := lexLines_eq_error_iff.1 hls
      obtain ⟨r, hr, -⟩ := hall k line hk
      rw [Nat.add_comm 1 k] at hline
      rw [hr] at hline
      cases hline

/-- A file with a line that passes a limit has nothing printed but the error of the first one. -/
theorem exists_runFile_of_overrun {k : Nat} {line : String} (hread : read path = .ok script)
    (hk : (Text.lines script)[k]? = some line) (ho : limits.lex ⟨path, k + 1⟩ line = .error o)
    (task : Task) :
    ∃ first, limits.lexScript path script = .error first ∧
      runFile task limits read path =
        ⟨"", first.display ++ ": " ++ first.display ++ "\n", true⟩ := by
  cases hls : limits.lexScript path script with
  | ok ls =>
    obtain ⟨r, hr, -⟩ := (forall_mem_of_lexScript hls fun _ => True).1 (fun _ _ => trivial) k line hk
    rw [hr] at ho
    cases ho
  | error first => exact ⟨first, rfl, runFile_of_error hread hls⟩

/-! ## All files -/

/-- What is printed for several files is what is printed for each alone, in their order. The exit
code is 0 if every file is clean and 1 otherwise, so one file that is not makes it 1 whatever the
others are. The exit code and what is wrong do not depend on the task. Of a file with a line that
passes a limit nothing is told but the error of the first such line. -/
theorem run_eq_join_alone (i : Invocation) (read : Reader) :
    (i.run read).stdout = String.join (i.files.map fun path => ((i.alone path).run read).stdout) ∧
    (i.run read).stderr = String.join (i.files.map fun path => ((i.alone path).run read).stderr) ∧
    ((i.run read).exitCode = 0 ↔ ∀ path ∈ i.files, CleanFile i.limits read path) ∧
    ((i.run read).exitCode = 1 ↔ ∃ path ∈ i.files, ¬ CleanFile i.limits read path) ∧
    (∀ task, (Invocation.run { i with task } read).exitCode = (i.run read).exitCode ∧
      (Invocation.run { i with task } read).stderr = (i.run read).stderr) ∧
    ∀ path script, read path = .ok script →
      ∀ k line o, (Text.lines script)[k]? = some line →
        i.limits.lex ⟨path, k + 1⟩ line = .error o →
        ∃ first, i.limits.lexScript path script = .error first ∧
          (i.alone path).run read =
            ⟨"", first.display ++ ": " ++ first.display ++ "\n", true⟩ := by
  have hfailed : (i.run read).failed = false ↔ ∀ path ∈ i.files, CleanFile i.limits read path := by
    simp [run_eq, ← @failed_runFile_eq_false_iff i.task]
  refine ⟨?_, ?_, ?_, ?_, fun task => ⟨?_, ?_⟩, fun path script hread k line o hk ho => ?_⟩
  · simp only [run_alone, run_eq i read]
  · simp only [run_alone, run_eq i read]
  · rw [exitCode_eq_zero_iff, hfailed]
  · rw [exitCode_eq_one_iff, ← Bool.not_eq_false, hfailed]
    simp
  · have htask := fun path => (runFile_task_eq task i.task i.limits read path).2
    simp only [Transcript.exitCode, run_eq, htask]
  · have htask := fun path => (runFile_task_eq task i.task i.limits read path).1
    simp only [run_eq, htask]
  · rw [run_alone]
    exact exists_runFile_of_overrun hread hk ho i.task

/-- One file has a token and a diagnostic above a line that nests too deep, one is not there, and
the last is clean. -/
theorem run_eq_join_alone_three :
    ∃ read : Reader, read "a" = .ok "(;\n((\n" ∧ read "b" = .error .missing ∧ read "c" = .ok ";" ∧
      Limits.lex ⟨1, 9⟩ ⟨"a", 2⟩ "((" = .error ⟨⟨.tooDeep 1, 1⟩, ⟨"a", 2⟩⟩ ∧
      (Invocation.alone ⟨.tokens, ⟨1, 9⟩, ["a", "b", "c"]⟩ "a").run read =
        ⟨"", "a:2:2 - delimiters nested deeper than 1 levels: " ++
          "a:2:2 - delimiters nested deeper than 1 levels\n", true⟩ ∧
      (Invocation.run ⟨.tokens, ⟨1, 9⟩, ["a", "b", "c"]⟩ read).stdout = "1:0 END_EXPR \";\"\n" ∧
      (Invocation.run ⟨.tokens, ⟨1, 9⟩, ["a", "b", "c"]⟩ read).exitCode = 1 := by
  let read : Reader := fun path =>
    if path = "a" then .ok "(;\n((\n" else if path = "c" then .ok ";" else .error .missing
  have hdeep : Limits.lex ⟨1, 9⟩ ⟨"a", 2⟩ "((" = .error ⟨⟨.tooDeep 1, 1⟩, ⟨"a", 2⟩⟩ := by decide
  have hunread : ¬ CleanFile ⟨1, 9⟩ read "b" := by
    rintro ⟨script, hscript, -⟩
    cases hscript
  obtain ⟨hstdout, -, -, hexit, -, halone⟩ :=
    run_eq_join_alone ⟨.tokens, ⟨1, 9⟩, ["a", "b", "c"]⟩ read
  obtain ⟨first, hfirst, ha⟩ := halone "a" "(;\n((\n" rfl 1 "((" _ (by decide) hdeep
  have hscript : Limits.lexScript ⟨1, 9⟩ "a" "(;\n((\n" = .error ⟨⟨.tooDeep 1, 1⟩, ⟨"a", 2⟩⟩ := by
    decide
  obtain rfl : (⟨⟨.tooDeep 1, 1⟩, ⟨"a", 2⟩⟩ : Overrun) = first := by simpa [hscript] using hfirst
  refine ⟨read, rfl, rfl, rfl, hdeep, ha.trans (by decide), hstdout.trans (by decide),
    hexit.2 ⟨"b", by simp, hunread⟩⟩

end LineLexer.Command
