import TensorIR.Proofs.CommandLine.Storing
import TensorIR.Proofs.Pipeline.Validation

/-!
# What the command publishes

The command publishes a text if and only if the source is free of errors and the passes that are
needed go through; what it publishes is then the text that the compilation gives (`CompilesTo`).
Otherwise it leaves nothing behind, neither on the standard output nor in a file.

A text that goes to a file is handed over to a file system, and this is all that the command does
with one beyond reading its source, whatever becomes of the text there (`HandsOver`). In a directory
the text is then in the file that the path leads to (`Published`).

The text depends on what is asked for and on the shapes for the graph's inputs. It does not depend
on where the text goes and on how much is said about it, which is plain from how options are used,
nor on whether the body is checked, which is because the check has nothing to find.
-/

set_option autoImplicit false

namespace TensorIR.CommandLine

/-! ## The text of a source -/

/-- The passes that are run for a program. -/
def Options.run (o : Options) (program : Program) : Run :=
  (Compilation.start program none).run (o.emit.terminal (!o.skipValidate)) o.inputShapes

/-- The source is free of errors, and the passes go through. -/
def Options.Succeeds (o : Options) (content : String) : Prop :=
  (parse content.toList).errors = [] ∧ ∃ program,
    (parse content.toList).program = some program ∧ (o.run program).failed = none

/-- The source is free of errors, the passes go through, and this is the text they are run for. -/
def Options.CompilesTo (o : Options) (content text : String) : Prop :=
  (parse content.toList).errors = [] ∧ ∃ program,
    (parse content.toList).program = some program ∧ (o.run program).failed = none ∧
      (o.run program).compilation.output o.emit = .ok text

variable {o o' : Options} {content text : String}

theorem exists_program {source : List Char} (h : (parse source).errors = []) :
    ∃ program, (parse source).program = some program := by
  simp only [parse] at h ⊢
  split
  · exact ⟨_, rfl⟩
  next stop hstop =>
    rw [hstop] at h
    simp at h

theorem Options.succeeds_iff : o.Succeeds content ↔ ∃ text, o.CompilesTo content text := by
  constructor
  · intro h
    obtain ⟨herrors, program, hprogram, hok⟩ := h
    obtain ⟨text, htext⟩ := Compilation.exists_output hok
    exact ⟨text, herrors, program, hprogram, hok, htext⟩
  · intro h
    obtain ⟨text, herrors, program, hprogram, hok, -⟩ := h
    exact ⟨herrors, program, hprogram, hok⟩

/-- Neither the check nor the place of the output makes a difference to the text. -/
theorem Options.compilesTo_congr (hemit : o'.emit = o.emit)
    (hshapes : o'.inputShapes = o.inputShapes) :
    o'.CompilesTo content text ↔ o.CompilesTo content text := by
  -- Both runs are the run without the check, which has nothing to report.
  have hrun : ∀ program, (o'.run program).failed = (o.run program).failed ∧
      (o'.run program).compilation = (o.run program).compilation := by
    intro program
    have h := Compilation.run_terminal program none o.inputShapes o.emit (!o.skipValidate)
    have h' := Compilation.run_terminal program none o.inputShapes o.emit (!o'.skipValidate)
    rw [run, run, hemit, hshapes]
    exact ⟨h'.1.trans h.1.symm, h'.2.trans h.2.symm⟩
  simp only [CompilesTo, hrun, hemit]

/-! ## Publishing -/

theorem text_compileProgram {program : Program} {source : List Char}
    (hok : (o.run program).failed = none)
    (htext : (o.run program).compilation.output o.emit = .ok text) :
    (compileProgram o source program).text = .ok text := by
  unfold Options.run at hok htext
  simp only [compileProgram, hok, htext]

theorem text_compileProgram_of_failed {program : Program} {source : List Char} {pass : Pass}
    (hfailed : (o.run program).failed = some pass) :
    (compileProgram o source program).text = .error 1 := by
  unfold Options.run at hfailed
  simp only [compileProgram, hfailed]

theorem text_compile (h : o.CompilesTo content text) : (compile o (.ok content)).text = .ok text := by
  obtain ⟨herrors, program, hprogram, hok, htext⟩ := h
  simp only [compile, herrors, hprogram]
  exact text_compileProgram hok htext

theorem text_compile_of_not (h : ¬ o.Succeeds content) :
    (compile o (.ok content)).text = .error 1 := by
  simp only [compile]
  cases herrors : (parse content.toList).errors with
  | cons err errs => simp
  | nil =>
    obtain ⟨program, hprogram⟩ := exists_program herrors
    simp only [hprogram]
    cases hfailed : (o.run program).failed with
    | none => exact absurd ⟨herrors, program, hprogram, hfailed⟩ h
    | some pass => exact text_compileProgram_of_failed hfailed

/-! ## What is handed over -/

section

variable {m : Type → Type} [Monad m] [LawfulMonad m]
  (store : String → String → m (Except String (Option Stream)))

theorem conclude_of_not (h : ¬ o.Succeeds content) : conclude o store (.ok content) =
    pure ⟨1, "", (compile o (.ok content)).notices⟩ := by
  simp only [conclude, publish, text_compile_of_not h, map_pure, Outcome.preceded, List.append_nil]

theorem conclude_printed (htext : o.CompilesTo content text) (houtput : o.output = none) :
    conclude o store (.ok content) = pure ⟨0, text, (compile o (.ok content)).notices⟩ := by
  simp only [conclude, publish, text_compile htext, houtput, map_pure, Outcome.preceded,
    List.append_nil]

theorem conclude_stored {path : String} (htext : o.CompilesTo content text)
    (houtput : o.output = some path) : conclude o store (.ok content) =
      (fun stored => (o.settle path text stored).preceded (compile o (.ok content)).notices) <$>
        store path text := by
  simp only [conclude, publish, text_compile htext, houtput, Functor.map_map]

end

/-- In any file system where the source has this content, the command reads its source and hands
over this text to be stored at this path, or nothing. It does no more with files than that. -/
def Options.HandsOver (o : Options) (content : String) : Option (String × String) → Prop
  | none => ∃ outcome, ∀ (m : Type → Type) [Monad m] [LawfulMonad m] (files : FileSystem m),
    files.read o.source = pure (.ok content) → perform files (.compile o) = pure outcome
  | some (path, text) =>
    ∃ settle, ∀ (m : Type → Type) [Monad m] [LawfulMonad m] (files : FileSystem m),
      files.read o.source = pure (.ok content) →
        perform files (.compile o) = settle <$> files.store path text

theorem handsOver_of_not (h : ¬ o.Succeeds content) : o.HandsOver content none := by
  refine ⟨⟨1, "", (compile o (.ok content)).notices⟩, fun m _ _ files hread => ?_⟩
  rw [perform, hread, pure_bind]
  exact conclude_of_not files.store h

theorem handsOver_of_compilesTo (htext : o.CompilesTo content text) :
    o.HandsOver content (o.output.map fun path => (path, text)) := by
  cases houtput : o.output with
  | none =>
    refine ⟨⟨0, text, (compile o (.ok content)).notices⟩, fun m _ _ files hread => ?_⟩
    rw [perform, hread, pure_bind]
    exact conclude_printed files.store htext houtput
  | some path =>
    refine ⟨fun stored => (o.settle path text stored).preceded (compile o (.ok content)).notices,
      fun m _ _ files hread => ?_⟩
    rw [perform, hread, pure_bind]
    exact conclude_stored files.store htext houtput

namespace Directory

variable {d : Directory}

/-- The command, run in the directory with arguments that are accepted: what it leaves behind, and
the directory afterwards. -/
def invoke (d : Directory) (arguments : List String) : Except UsageError (Outcome × Directory) :=
  (CommandLine.read arguments).map fun request => (perform d.fileSystem request, d.after request)

/-- Any text can be stored at the path. -/
def Writable (d : Directory) (path : String) : Prop :=
  ∀ text, ∃ next stream, d.store path text = .ok (next, stream)

/-- A text was published: on the standard output, or where the output is to go. -/
structure Published (d : Directory) (o : Options) (text : String) (outcome : Outcome)
    (after : Directory) : Prop where
  exit : outcome.exit = 0
  printed : o.output = none → outcome.stdout = text ∧ after = d
  /-- Nothing shows on the standard output, unless this is what the path of the output means. -/
  stdout : ∀ path, o.output = some path →
    (d.locate path Path.stepsToWrite = .ok (.device (.own .output)) → outcome.stdout = text) ∧
    (d.locate path Path.stepsToWrite ≠ .ok (.device (.own .output)) → outcome.stdout = "")
  stored : ∀ path, o.output = some path → ∃ stream, d.store path text = .ok (after, stream)
  /-- The text is in the file that the path leads to, and nothing else has changed. -/
  readable : ∀ path name, o.output = some path → d.Leads path name →
    after.read path = .ok text ∧ ∀ other, other ≠ name → after.content? other = d.content? other
  untouched : ∀ path, o.output = some path → (∀ name, ¬ d.Leads path name) → after = d

/-- The directory tells what comes of a request as it is when the request is carried out. -/
theorem perform_fileSystem (d : Directory) (request : Request) :
    perform d.fileSystem request = (d.carryOut request).1 := by
  cases request with
  | help => rfl
  | version => rfl
  | compile o =>
    have hpublish : ∀ report, publish o d.fileSystem.store report =
        ((publish o storage.store report).run d).1 := by
      intro report
      unfold publish
      split <;> rfl
    exact congrArg (Outcome.preceded _) (hpublish _)

theorem invoke_of_read {arguments : List String} {request : Request}
    (h : CommandLine.read arguments = .ok request) :
    d.invoke arguments = .ok (d.carryOut request) := by
  rw [invoke, h, ← Prod.eta (d.carryOut request), ← perform_fileSystem]
  rfl

theorem carryOut_compile (hsource : d.read o.source = .ok content) :
    d.carryOut (.compile o) = (conclude o storage.store (.ok content)).run d := by
  have hread : storage.read o.source d = (.ok content, d) := by
    simp only [storage, hsource]
    rfl
  show (storage.read o.source >>= conclude o storage.store).run d = _
  rw [StateT.run_bind]
  show (conclude o storage.store (storage.read o.source d).1).run (storage.read o.source d).2 = _
  rw [hread]

theorem exit_stored (o : Options) (path text : String) (stream : Option Stream) :
    (o.stored path text stream).exit = 0 := by
  unfold Options.stored
  split <;> rfl

theorem stdout_stored (o : Options) (path text : String) (stream : Option Stream) :
    (o.stored path text stream).stdout = if stream = some .output then text else "" := by
  unfold Options.stored
  split <;> rfl

theorem published (hsource : d.read o.source = .ok content) (htext : o.CompilesTo content text)
    (hwritable : ∀ path, o.output = some path → d.Writable path) :
    d.Published o text (d.carryOut (.compile o)).1 (d.carryOut (.compile o)).2 := by
  rw [carryOut_compile hsource]
  cases houtput : o.output with
  | none =>
    rw [conclude_printed storage.store htext houtput]
    exact
      { exit := rfl
        printed := fun _ => ⟨rfl, rfl⟩
        stdout := by simp [houtput]
        stored := by simp [houtput]
        readable := by simp [houtput]
        untouched := by simp [houtput] }
  | some path =>
    obtain ⟨next, stream, hstore⟩ := hwritable path houtput text
    have hhanded : storage.store path text d = (.ok stream, next) := by
      simp only [storage, hstore]
    have hdone : (conclude o storage.store (.ok content)).run d =
        ((o.stored path text stream).preceded (compile o (.ok content)).notices, next) := by
      rw [conclude_stored storage.store htext houtput, StateT.run_map]
      show (Outcome.preceded _ (o.settle path text (storage.store path text d).1),
        (storage.store path text d).2) = _
      rw [hhanded]
      rfl
    have hpath : ∀ path', o.output = some path' → path' = path := by
      intro path' h
      exact (Option.some.inj (houtput.symm.trans h)).symm
    rw [hdone]
    refine
      { exit := exit_stored o path text stream
        printed := by simp [houtput]
        stdout := ?stdout
        stored := ?stored
        readable := ?readable
        untouched := ?untouched }
    case stdout =>
      intro path' h
      obtain rfl := hpath path' h
      rw [← stream_eq_output_iff hstore]
      constructor
      · intro hshown
        exact (stdout_stored o path' text stream).trans (if_pos hshown)
      · intro hsilent
        exact (stdout_stored o path' text stream).trans
          (if_neg fun hshown => hsilent ((stream_eq_output_iff hstore).mp hshown))
    case stored =>
      intro path' h
      obtain rfl := hpath path' h
      exact ⟨stream, hstore⟩
    case readable =>
      intro path' name h hleads
      obtain rfl := hpath path' h
      rw [store_of_leads hleads] at hstore
      cases hstore
      exact ⟨read_write hleads, fun other hne => content?_write_of_ne hne⟩
    case untouched =>
      intro path' h hnone
      obtain rfl := hpath path' h
      rcases store_cases hstore with ⟨name, hleads, -⟩ | ⟨-, hnext, -⟩
      · exact absurd hleads (hnone name)
      · exact hnext

/-- A source with errors, or with a pass that fails, leaves nothing behind. -/
theorem unpublished (hsource : d.read o.source = .ok content) (h : ¬ o.Succeeds content) :
    (d.carryOut (.compile o)).1.exit = 1 ∧ (d.carryOut (.compile o)).1.stdout = "" ∧
      (d.carryOut (.compile o)).2 = d := by
  rw [carryOut_compile hsource, conclude_of_not storage.store h]
  exact ⟨rfl, rfl, rfl⟩

/-- The two ways in which the command ends. -/
theorem carryOut_cases (hsource : d.read o.source = .ok content)
    (hwritable : ∀ path, o.output = some path → d.Writable path) :
    (o.Succeeds content ∧ ∃ text, o.CompilesTo content text ∧
      d.Published o text (d.carryOut (.compile o)).1 (d.carryOut (.compile o)).2) ∨
    (¬ o.Succeeds content ∧ (d.carryOut (.compile o)).1.exit = 1 ∧
      (d.carryOut (.compile o)).1.stdout = "" ∧ (d.carryOut (.compile o)).2 = d) := by
  by_cases h : o.Succeeds content
  · obtain ⟨text, htext⟩ := Options.succeeds_iff.mp h
    exact .inl ⟨h, text, htext, published hsource htext hwritable⟩
  · exact .inr ⟨h, unpublished hsource h⟩

theorem exit_eq (hsource : d.read o.source = .ok content)
    (hwritable : ∀ path, o.output = some path → d.Writable path) :
    (o.Succeeds content → (d.carryOut (.compile o)).1.exit = 0) ∧
      (¬ o.Succeeds content → (d.carryOut (.compile o)).1.exit = 1) := by
  rcases carryOut_cases hsource hwritable with ⟨h, text, -, hpublished⟩ | ⟨h, hexit, -⟩
  · exact ⟨fun _ => hpublished.exit, fun hnot => absurd h hnot⟩
  · exact ⟨fun hyes => absurd hyes h, fun _ => hexit⟩

/-- The command publishes a text, and exits with 0, exactly if the source is free of errors and the
passes go through; what it publishes is the text they are run for. Otherwise it exits with 1 and
leaves nothing behind. In any file system, the text is all that it hands over, and only if it has a
path. Whatever else the arguments say, the same source, emitted text and shapes come to the same
exit code, and what is published is the same text. -/
theorem invoke_publishes {arguments : List String}
    (haccepted : CommandLine.read arguments = .ok (.compile o))
    (hsource : d.read o.source = .ok content)
    (hwritable : ∀ path, o.output = some path → d.Writable path) :
    ∃ outcome after, d.invoke arguments = .ok (outcome, after) ∧
      (outcome.exit = 0 ↔ o.Succeeds content) ∧
      (outcome.exit = 0 ∨ outcome.exit = 1) ∧
      (outcome.exit = 1 → outcome.stdout = "" ∧ after = d ∧ o.HandsOver content none) ∧
      (outcome.exit = 0 →
        ∃ text, o.CompilesTo content text ∧ d.Published o text outcome after ∧
          o.HandsOver content (o.output.map fun path => (path, text))) ∧
      ∀ arguments' o', CommandLine.read arguments' = .ok (.compile o') → o'.source = o.source →
        o'.emit = o.emit → o'.inputShapes = o.inputShapes →
        (∀ path, o'.output = some path → d.Writable path) →
          ∃ outcome' after', d.invoke arguments' = .ok (outcome', after') ∧
            outcome'.exit = outcome.exit ∧
            ∀ text, o.CompilesTo content text → d.Published o' text outcome' after' := by
  obtain ⟨hzero, hone⟩ := exit_eq hsource hwritable
  refine ⟨(d.carryOut (.compile o)).1, (d.carryOut (.compile o)).2, invoke_of_read haccepted,
    ?_, ?_, ?_, ?_, ?_⟩
  · refine ⟨fun hexit => ?_, hzero⟩
    by_contra h
    rw [hone h] at hexit
    cases hexit
  · exact (Classical.em (o.Succeeds content)).imp hzero hone
  · intro hexit
    rcases carryOut_cases hsource hwritable with ⟨-, text, -, hpublished⟩ | ⟨h, -, hnothing⟩
    · rw [hpublished.exit] at hexit
      cases hexit
    · exact ⟨hnothing.1, hnothing.2, handsOver_of_not h⟩
  · intro hexit
    rcases carryOut_cases hsource hwritable with ⟨-, text, htext, hpublished⟩ | ⟨-, hfailed, -⟩
    · exact ⟨text, htext, hpublished, handsOver_of_compilesTo htext⟩
    · rw [hfailed] at hexit
      cases hexit
  · intro arguments' o' haccepted' hsame hemit hshapes hwritable'
    have htexts : ∀ text, o'.CompilesTo content text ↔ o.CompilesTo content text :=
      fun text => Options.compilesTo_congr hemit hshapes
    have hsucceeds : o'.Succeeds content ↔ o.Succeeds content := by
      rw [Options.succeeds_iff, Options.succeeds_iff, exists_congr htexts]
    have hsource' : d.read o'.source = .ok content := by rw [hsame, hsource]
    obtain ⟨hzero', hone'⟩ := exit_eq hsource' hwritable'
    refine ⟨(d.carryOut (.compile o')).1, (d.carryOut (.compile o')).2, invoke_of_read haccepted',
      ?_, fun text htext => ?_⟩
    · by_cases h : o.Succeeds content
      · rw [hzero h, hzero' (hsucceeds.mpr h)]
      · rw [hone h, hone' (h ∘ hsucceeds.mp)]
    · exact published hsource' ((htexts text).mpr htext) hwritable'

/-! ## A text that is stored -/

/-- A directory with a source. -/
def workshop : Directory := ⟨[("t.lir", "x = Parameter[shape=[8]]()\nResult(x)\n")]⟩

/-- Options to store the text of a body. -/
def toFile : Options := ⟨"t.lir", some "out.txt", .lir, [], false, false⟩

theorem writable_of_leads {path name : String} (h : d.Leads path name) : d.Writable path :=
  fun _ => ⟨_, _, store_of_leads h⟩

/-- The text of a body is found in the file it was to go to. -/
theorem invoke_publishes_toFile :
    CommandLine.read ["t.lir", "-o", "out.txt"] = .ok (.compile toFile) ∧
    workshop.read "t.lir" = .ok "x = Parameter[shape=[8]]()\nResult(x)\n" ∧
    workshop.Writable "out.txt" ∧
    ∃ outcome after text, workshop.invoke ["t.lir", "-o", "out.txt"] = .ok (outcome, after) ∧
      outcome.exit = 0 ∧ outcome.stdout = "" ∧ after.read "out.txt" = .ok text ∧
      toFile.CompilesTo "x = Parameter[shape=[8]]()\nResult(x)\n" text ∧
      toFile.HandsOver "x = Parameter[shape=[8]]()\nResult(x)\n" (some ("out.txt", text)) := by
  have haccepted : CommandLine.read ["t.lir", "-o", "out.txt"] = .ok (.compile toFile) := by rfl
  have hsource : workshop.read "t.lir" = .ok "x = Parameter[shape=[8]]()\nResult(x)\n" := by rfl
  have hlocate : workshop.locate "out.txt" Path.stepsToWrite = .ok (.vacant (some "out.txt")) := by
    rfl
  have hleads : workshop.Leads "out.txt" "out.txt" := ⟨_, hlocate, rfl⟩
  have hwritable : workshop.Writable "out.txt" := writable_of_leads hleads
  obtain ⟨outcome, after, hinvoke, -, -, -, hpublished, -⟩ :=
    invoke_publishes haccepted hsource fun path hpath => Option.some.inj hpath ▸ hwritable
  have hexit : outcome.exit = 0 := by
    rw [invoke_of_read haccepted] at hinvoke
    cases hinvoke
    decide +kernel
  obtain ⟨text, htext, hshown, hhanded⟩ := hpublished hexit
  have hsilent := (hshown.stdout "out.txt" rfl).2 (by rw [hlocate]; simp)
  exact ⟨haccepted, hsource, hwritable, outcome, after, text, hinvoke, hexit, hsilent,
    (hshown.readable "out.txt" "out.txt" rfl hleads).1, htext, hhanded⟩

end Directory

end TensorIR.CommandLine
