import Swimlane.CommandLine.Program

/-! What the tasks of the commands come to, part by part, and that a task that only reads, asks and puts
out leaves every file as it is. -/
namespace Swimlane.CommandLine

open Service

variable {α β : Type} {folder : Folder} {outside : Outside}

/-- The text of a file of the folder, with line feeds only. -/
def Folder.text (folder : Folder) : PathWord → Except Failure Text
  | none => .error (.breakdown .missingPath)
  | some path => do
    let bytes ← (folder.read path).mapError .file
    let text ← (Utf8.decode bytes).mapError .decoding
    return Text.unifyBreaks text

/-- An exchange takes its replies from the outside. What it notes is logged, and can always be. -/
theorem Script.run_ofExchange (exchange : Exchange α) (folder : Folder) (outside : Outside) :
    let run := (Script.ofExchange exchange).run folder outside
    let record := exchange.run outside.replies
    run.value = record.value ∧ run.folder = folder ∧
      run.outside = { outside with replies := record.replies } := by
  induction exchange generalizing outside with
  | done value => exact ⟨rfl, rfl, rfl⟩
  | post request next ih => exact ih _ outside.afterReply
  | warn message next ih => exact ih outside

/-- What a task comes to: its result, and the files and the outside that are then there. -/
structure Outcome (α : Type) where
  result : Except Failure α
  folder : Folder
  outside : Outside

namespace Task

def outcome (task : Task α) (folder : Folder) (outside : Outside) : Outcome α :=
  let run := Script.run folder outside task.run
  ⟨run.value, run.folder, run.outside⟩

/-- After a failure nothing more is done. -/
theorem outcome_bind (task : Task α) (next : α → Task β) (folder : Folder) (outside : Outside) :
    (task >>= next).outcome folder outside =
      match task.outcome folder outside with
      | ⟨.ok value, folder, outside⟩ => (next value).outcome folder outside
      | ⟨.error failure, folder, outside⟩ => ⟨.error failure, folder, outside⟩ := by
  have hbind : (task >>= next).run = Script.bind task.run (ExceptT.bindCont next) := rfl
  simp only [outcome, hbind, Script.run_bind]
  cases (Script.run folder outside task.run).value <;> rfl

theorem outcome_ofExcept {ε : Type} (failure : ε → Failure) (result : Except ε α) :
    (ofExcept failure result).outcome folder outside = ⟨result.mapError failure, folder, outside⟩ := rfl

/-- What is put out fails if the outside does not take it. -/
theorem outcome_emit (output : Output) : (emit output).outcome folder outside =
    ⟨(outside.print output).mapError .ofPrint, folder, outside.afterPrint output⟩ := by
  have hlift : outcome (ExceptT.lift (.emit output .done)) folder outside =
      ⟨.ok (outside.print output), folder, outside.afterPrint output⟩ := by
    simp only [outcome, ExceptT.lift, ExceptT.run_mk, Functor.map, Script.bind, Script.run]
    cases outside.print output <;> rfl
  rw [emit, outcome_bind, hlift]
  rfl

theorem outcome_ofExchange (exchange : Exchange α) :
    (ofExchange exchange).outcome folder outside =
      ⟨.ok (exchange.run outside.replies).value, folder,
        { outside with replies := (exchange.run outside.replies).replies }⟩ := by
  obtain ⟨hvalue, hfolder, houtside⟩ := Script.run_ofExchange exchange folder outside
  have hlift : (ofExchange exchange).run =
      Script.bind (Script.ofExchange exchange) fun value => .done (.ok value) := rfl
  simp only [outcome, hlift, Script.run_bind, Script.run, hvalue, hfolder, houtside]

theorem outcome_readText (path : PathWord) :
    (readText path).outcome folder outside = ⟨folder.text path, folder, outside⟩ := by
  cases path with
  | none => rfl
  | some path =>
    have hread : outcome (ExceptT.lift (.read path .done)) folder outside =
      ⟨.ok (folder.read path), folder, outside⟩ := rfl
    rw [readText, outcome_bind, hread, Folder.text]
    cases folder.read path with
    | error error => rfl
    | ok bytes =>
      change outcome (ofExcept .decoding (Utf8.decode bytes) >>= fun text =>
        pure (Text.unifyBreaks text)) folder outside = _
      rw [outcome_bind, outcome_ofExcept]
      change _ = Outcome.mk ((Utf8.decode bytes).mapError Failure.decoding >>= fun text =>
        pure (Text.unifyBreaks text)) folder outside
      cases Utf8.decode bytes <;> rfl

/-- To log something for each of some items is no way to fail. -/
theorem outcome_logAll (items : List α) (record : α → LogRecord) :
    outcome (forIn items PUnit.unit fun item _ => do
      emit (.logged (record item))
      return .yield PUnit.unit) folder outside = ⟨.ok PUnit.unit, folder, outside⟩ := by
  induction items with
  | nil => rfl
  | cons item rest ih =>
    rw [List.forIn_cons, outcome_bind, outcome_bind, outcome_emit]
    exact ih

/-- A text is patched as it is without a log. -/
theorem outcome_patch (text : Text) (operations : List Patch.Operation) :
    (patch text operations).outcome folder outside =
      ⟨(Patch.applyChanges text operations).mapError .ofFault |>.map fun result =>
        (result.code, result.entries), folder, outside⟩ := by
  rw [patch, outcome_bind, outcome_ofExcept, Patch.applyChanges]
  cases Patch.Session.ofText text with
  | error fault => rfl
  | ok session =>
    change outcome (forIn (session.trace operations).entries PUnit.unit _ >>= _) folder outside = _
    rw [outcome_bind, outcome_logAll]
    simp only [bind, Except.bind, Patch.Session.run_eq_trace]
    cases (session.trace operations).interruption <;> rfl

end Task

/-- Something that is not put out when its turn comes. -/
def Outside.Withholds (outside : Outside) : Prop := ∃ print ∈ outside.prints, print ≠ .ok ()

theorem Outside.withholds_of_print {output : Output} {error : PrintError}
    (h : outside.print output = .error error) : outside.Withholds := by
  have hhead : outside.prints.headD (.ok ()) = .error error := by
    cases output with
    | logged => cases h
    | _ => exact h
  cases hprints : outside.prints with
  | nil =>
    rw [hprints] at hhead
    cases hhead
  | cons first rest =>
    rw [hprints] at hhead
    refine ⟨first, by rw [hprints]; exact List.mem_cons_self, fun hok => ?_⟩
    cases hok.symm.trans hhead

/-- How a program ends, from what its command comes to and what is then left of the outside. -/
inductive Ends (outside : Outside) : Except Failure Nat → Ending → Prop
  | done {code : Nat} : Ends outside (.ok code) (.exit code)
  | reported {failure : Failure} {message : Text} (h : failure.report = .ok message) :
      Ends outside (.error failure) (.exit 1)
  | unreported {failure : Failure} {message : Text} (h : failure.report = .ok message)
      (hw : outside.Withholds) : Ends outside (.error failure) (.breakdown .printing)
  | broken {failure : Failure} {cause : Breakdown} (h : failure.report = .error cause) :
      Ends outside (.error failure) (.breakdown cause)

namespace Ends

variable {result : Except Failure Nat} {failure : Failure} {ending : Ending}

theorem result_eq (h : Ends outside result (.exit 0)) : result = .ok 0 := by
  cases h
  rfl

theorem of_ok {code : Nat} (h : Ends outside (.ok code) ending) : ending = .exit code := by
  cases h
  rfl

end Ends

/-- A report does nothing to the files. -/
theorem Script.run_report (log : LogRecord) (notice : Text) (folder : Folder) (outside : Outside) :
    let run := Script.run folder outside (.emit (.logged log) fun _ =>
      .emit (.notice notice) fun result => .done (Ending.ofReport result))
    run.folder = folder ∧
      (run.value = .exit 1 ∨ run.value = .breakdown .printing ∧ outside.Withholds) := by
  have hlog : outside.afterPrint (.logged log) = outside := rfl
  dsimp only [Script.run]
  rw [hlog]
  cases hprint : outside.print (.notice notice) with
  | ok => exact ⟨rfl, .inl rfl⟩
  | error error => exact ⟨rfl, .inr ⟨rfl, outside.withholds_of_print hprint⟩⟩

/-- A program does to the files what its command does. -/
theorem Command.run_script (settings : Settings) (command : Command) (folder : Folder)
    (outside : Outside) :
    let run := (command.script settings).run folder outside
    let outcome := (Task.ofCommand settings command).outcome folder outside
    run.folder = outcome.folder ∧ Ends outcome.outside outcome.result run.value := by
  rw [Command.script]
  simp only [bind, Script.run_bind, Task.outcome]
  cases hvalue : (Script.run folder outside (Task.ofCommand settings command).run).value with
  | ok code => exact ⟨rfl, .done⟩
  | error failure =>
    dsimp only
    cases hreport : failure.report with
    | error cause => exact ⟨rfl, .broken hreport⟩
    | ok message =>
      obtain ⟨hfolder, hvalue⟩ := Script.run_report _ _ _ _
      refine ⟨hfolder, ?_⟩
      rcases hvalue with hvalue | ⟨hvalue, hw⟩
      · exact hvalue ▸ .reported hreport
      · exact hvalue ▸ .unreported hreport hw

end Swimlane.CommandLine
