import Swimlane.Proofs.CommandLine.Tasks
import Swimlane.Proofs.Service.Links
import Swimlane.Proofs.Text.Utf8

/-! What the commands do to the files, whatever the command line, the files, the replies and the terminal
are. -/
namespace Swimlane.CommandLine

open Service

variable {α β : Type} {depths : Json.Depths} {settings : Settings} {folder after : Folder}
  {outside later : Outside} {sharing : Bool} {path : Text} {bytes : Utf8.Bytes}

namespace Folder

/-- What the operations in one file make of the text in another, before anything is put out. -/
def patched (folder : Folder) (depths : Json.Depths) (file operations : PathWord) :
    Except Failure Patch.Result := do
  let json ← (Json.readKept depths.reading (← folder.text operations)).mapError .ofUnread
  let text ← folder.text file
  let operations ← (Patch.Operation.listOfKept depths.showing json).mapError .ofUnlisted
  (Patch.applyChanges (Text.keep text) operations).mapError .ofFault

theorem write_eq (h : folder.write path bytes = .ok after) :
    after = folder.insert (normalPath path) bytes := by
  rw [write] at h
  dsimp only at h
  repeat' split at h
  all_goals cases h
  all_goals rfl

/-- A file that was written once can be written again. -/
theorem write_again (h : folder.write path bytes = .ok after) (more : Utf8.Bytes) :
    after.write path more = .ok (after.insert (normalPath path) more) := by
  have hthere : after.contains (normalPath path) = true := by
    rw [write_eq h, OrderedMap.contains, OrderedMap.get?_insert, if_pos rfl]
    rfl
  rw [write] at h ⊢
  split
  · next hnull =>
    rw [if_pos hnull] at h
    cases h
  · exact if_pos hthere

end Folder

/-- How an application ends once its text is put out: with the code of success, unless something is not
put out, or the reply to its wish for a link is nested too deep. -/
inductive Closes (settings : Settings) (sharing : Bool) (outside : Outside) : Except Failure Nat → Prop
  | finished : Closes settings sharing outside (.ok 0)
  | withheld {failure : Failure} (hw : outside.Withholds) :
      Closes settings sharing outside (.error failure)
  | unread {failure : Failure} (hs : sharing = true)
      (hr : Unreadable settings.depths outside.reply) : Closes settings sharing outside (.error failure)

/-- The courses that an application can take. -/
inductive ApplyCourse (settings : Settings) (folder : Folder) (file operations : PathWord)
    (output : Option Text) (sharing : Bool) (outside : Outside) : Outcome Nat → Prop
  | refused {failure : Failure} {rest : Outside}
      (h : folder.patched settings.depths file operations = .error failure) :
      ApplyCourse settings folder file operations output sharing outside
        ⟨.error failure, folder, rest⟩
  | shown {result : Patch.Result} {outcome : Outcome Nat}
      (h : folder.patched settings.depths file operations = .ok result)
      (ho : output.bind Text.nonempty? = none) (hf : outcome.folder = folder)
      (hc : Closes settings sharing outside outcome.result) :
      ApplyCourse settings folder file operations output sharing outside outcome
  | unopened {result : Patch.Result} {path : Text} {error : FileError}
      (h : folder.patched settings.depths file operations = .ok result)
      (ho : output.bind Text.nonempty? = some path) (hw : folder.write path [] = .error error) :
      ApplyCourse settings folder file operations output sharing outside
        ⟨.error (.file error), folder, outside⟩
  | emptied {result : Patch.Result} {path : Text} {error : Utf8.EncodeError} {emptied : Folder}
      (h : folder.patched settings.depths file operations = .ok result)
      (ho : output.bind Text.nonempty? = some path) (hw : folder.write path [] = .ok emptied)
      (he : Utf8.encodeKept result.code = .error error) :
      ApplyCourse settings folder file operations output sharing outside
        ⟨.error (.encoding error), emptied, outside⟩
  | written {result : Patch.Result} {path : Text} {bytes : Utf8.Bytes} {emptied : Folder}
      {outcome : Outcome Nat} (h : folder.patched settings.depths file operations = .ok result)
      (ho : output.bind Text.nonempty? = some path) (hw : folder.write path [] = .ok emptied)
      (he : Utf8.encodeKept result.code = .ok bytes)
      (hf : outcome.folder = emptied.insert (normalPath path) bytes)
      (hc : Closes settings sharing outside outcome.result) :
      ApplyCourse settings folder file operations output sharing outside outcome

namespace Task

/-- A step that leaves everything as it is, with what is shown of a failure and of what comes next. -/
theorem outcome_step {α β : Type} {task : Task α} {next : α → Task β} {result : Except Failure α}
    {p : Outcome β → Prop} (ht : task.outcome folder outside = ⟨result, folder, outside⟩)
    (he : ∀ failure, result = .error failure → p ⟨.error failure, folder, outside⟩)
    (hn : ∀ value, result = .ok value → p ((next value).outcome folder outside)) :
    p ((task >>= next).outcome folder outside) := by
  rw [outcome_bind, ht]
  cases result with
  | error failure => exact he failure rfl
  | ok value => exact hn value rfl

theorem outcome_writeBytes (path : Text) (bytes : Utf8.Bytes) (folder : Folder) (outside : Outside) :
    (writeBytes path bytes).outcome folder outside =
      match folder.write path bytes with
      | .ok after => ⟨.ok (), after, outside⟩
      | .error error => ⟨.error (.file error), folder, outside⟩ := by
  rw [writeBytes, outcome_bind]
  simp only [outcome, ExceptT.lift, ExceptT.run_mk, Functor.map, Script.bind, Script.run]
  cases folder.write path bytes <;> rfl

theorem outcome_writeText (path text : Text) (folder : Folder) (outside : Outside) :
    (writeText path text).outcome folder outside =
      match folder.write path [], Utf8.encodeKept text with
      | .error error, _ => ⟨.error (.file error), folder, outside⟩
      | .ok emptied, .error error => ⟨.error (.encoding error), emptied, outside⟩
      | .ok emptied, .ok bytes => ⟨.ok (), emptied.insert (normalPath path) bytes, outside⟩ := by
  rw [writeText, outcome_bind, outcome_writeBytes]
  cases hw : folder.write path [] with
  | error error => rfl
  | ok emptied =>
    dsimp only
    rw [outcome_bind, outcome_ofExcept]
    cases Utf8.encodeKept text with
    | error error => rfl
    | ok bytes =>
      -- The file is there since it was emptied, so that the second write cannot fail.
      change (writeBytes path bytes).outcome emptied outside = _
      rw [outcome_writeBytes, Folder.write_again hw]

/-- A task that only puts things out, and fails only if one of them is not put out. -/
def PutsOut (task : Task α) : Prop := ∀ folder outside,
  (task.outcome folder outside).folder = folder ∧
  (task.outcome folder outside).outside.replies = outside.replies ∧
  (task.outcome folder outside).outside.prints <:+ outside.prints ∧
  ∀ failure, (task.outcome folder outside).result = .error failure → outside.Withholds

theorem putsOut_pure (value : α) : PutsOut (pure value) :=
  fun _ outside => ⟨rfl, rfl, List.suffix_refl outside.prints, nofun⟩

theorem putsOut_emit (output : Output) : PutsOut (emit output) := by
  intro folder outside
  rw [outcome_emit]
  refine ⟨rfl, ?_, ?_, fun failure h => ?_⟩
  · cases output <;> rfl
  · cases output with
    | logged => exact List.suffix_refl _
    | _ => exact List.tail_suffix _
  · dsimp only at h
    cases hprint : outside.print output with
    | ok =>
      rw [hprint] at h
      cases h
    | error error => exact outside.withholds_of_print hprint

theorem withholds_of_suffix (h : later.prints <:+ outside.prints) (hw : later.Withholds) :
    outside.Withholds := by
  obtain ⟨print, hm, hne⟩ := hw
  exact ⟨print, h.subset hm, hne⟩

theorem putsOut_bind {task : Task α} {next : α → Task β} (ht : task.PutsOut)
    (hn : ∀ value, (next value).PutsOut) : (task >>= next).PutsOut := by
  intro folder outside
  obtain ⟨hfolder, hreplies, hprints, hfails⟩ := ht folder outside
  rw [outcome_bind]
  generalize task.outcome folder outside = outcome at *
  obtain ⟨result, after, later⟩ := outcome
  dsimp only at *
  subst hfolder
  cases result with
  | error failure => exact ⟨rfl, hreplies, hprints, fun _ _ => hfails failure rfl⟩
  | ok value =>
    obtain ⟨hsame, hrest, hfewer, hlater⟩ := hn value after later
    exact ⟨hsame, hrest.trans hreplies, hfewer.trans hprints,
      fun failure h => withholds_of_suffix hprints (hlater failure h)⟩

theorem putsOut_forIn (items : List α) {step : α → Task PUnit} (h : ∀ item, (step item).PutsOut) :
    PutsOut (forIn items PUnit.unit fun item _ => do
      step item
      return .yield PUnit.unit) := by
  induction items with
  | nil => exact putsOut_pure _
  | cons item rest ih =>
    rw [List.forIn_cons]
    refine putsOut_bind (putsOut_bind (h item) fun _ => putsOut_pure _) fun value => ?_
    cases value with
    | done => exact putsOut_pure _
    | yield => exact ih

theorem closes_mono {value : Except Failure Nat} (hreplies : later.replies = outside.replies)
    (hprints : later.prints <:+ outside.prints) (hc : Closes settings sharing later value) :
    Closes settings sharing outside value := by
  cases hc with
  | finished => exact .finished
  | withheld hw => exact .withheld (withholds_of_suffix hprints hw)
  | unread hs hr =>
    rw [Outside.reply, hreplies] at hr
    exact .unread hs hr

/-- What closes an application still does if something is put out before. -/
theorem closes_bind {task : Task α} {next : α → Task Nat} (ht : task.PutsOut)
    (hn : ∀ value later, ((next value).outcome folder later).folder = folder ∧
      Closes settings sharing later ((next value).outcome folder later).result) :
    ((task >>= next).outcome folder outside).folder = folder ∧
      Closes settings sharing outside ((task >>= next).outcome folder outside).result := by
  obtain ⟨hfolder, hreplies, hprints, hfails⟩ := ht folder outside
  rw [outcome_bind]
  generalize task.outcome folder outside = outcome at *
  obtain ⟨result, after, later⟩ := outcome
  dsimp only at *
  subst hfolder
  cases result with
  | error failure => exact ⟨rfl, .withheld (hfails failure rfl)⟩
  | ok value =>
    obtain ⟨hsame, hc⟩ := hn value later
    exact ⟨hsame, closes_mono hreplies hprints hc⟩

/-- The last thing that is put out closes the whole. -/
theorem closes_last (output : Output) (hprints : later.prints <:+ outside.prints) :
    let task : Task Nat := emit output >>= fun _ => pure 0
    (task.outcome folder later).folder = folder ∧
      Closes settings sharing outside (task.outcome folder later).result := by
  dsimp only
  rw [outcome_bind, outcome_emit]
  cases hprint : later.print output with
  | ok => exact ⟨rfl, .finished⟩
  | error error => exact ⟨rfl, .withheld (withholds_of_suffix hprints (later.withholds_of_print hprint))⟩

/-- What is told once the text is put out: a notice for each entry, and the link that was asked for. -/
def closing (settings : Settings) (code : Text) (entries : List Patch.Entry) (sharing : Bool) :
    Task Nat := do
  for entry in entries do
    emit (.notice (entryNotice entry))
  if sharing then
    let result ← ofExchange (Service.share settings (.str code) .null)
    let shared ← ofExcept .ofOverflow result
    emit (.notice (sharedNotice shared))
    return 0
  else return 0

theorem closes_closing (settings : Settings) (code : Text) (entries : List Patch.Entry)
    (sharing : Bool) (folder : Folder) (outside : Outside) :
    ((closing settings code entries sharing).outcome folder outside).folder = folder ∧
      Closes settings sharing outside
        ((closing settings code entries sharing).outcome folder outside).result := by
  refine closes_bind (putsOut_forIn entries fun _ => putsOut_emit _) fun _ later => ?_
  cases sharing with
  | false => exact ⟨rfl, .finished⟩
  | true =>
    obtain ⟨shared, warnings, hrun, hshared⟩ := Service.run_share settings code later.replies
    change (outcome (_ >>= _) folder later).folder = folder ∧ Closes settings true later
      (outcome (_ >>= _) folder later).result
    rw [outcome_bind, outcome_ofExchange, hrun]
    cases hshared with
    | linked rest => exact closes_last _ (List.suffix_refl _)
    | failed => exact closes_last _ (List.suffix_refl _)
    | unread hr => exact ⟨rfl, .unread rfl hr⟩

theorem applyCourse (settings : Settings) (folder : Folder) (file operations : PathWord)
    (output : Option Text) (sharing : Bool) (outside : Outside) :
    ApplyCourse settings folder file operations output sharing outside
      ((apply settings file operations output sharing).outcome folder outside) := by
  refine outcome_step (outcome_readText operations)
    (fun failure h => .refused (by rw [Folder.patched, h]; rfl)) fun listed hlisted => ?_
  refine outcome_step (outcome_ofExcept _ _)
    (fun failure h => .refused (by rw [Folder.patched, hlisted]; simp only [h, bind, Except.bind]))
    fun json hjson => ?_
  refine outcome_step (outcome_readText file)
    (fun failure h => .refused (by
      rw [Folder.patched, hlisted]; simp only [hjson, h, bind, Except.bind])) fun text htext => ?_
  refine outcome_step (outcome_ofExcept _ _)
    (fun failure h => .refused (by
      rw [Folder.patched, hlisted]; simp only [hjson, htext, h, bind, Except.bind]))
    fun batch hbatch => ?_
  have hpatched : folder.patched settings.depths file operations =
      (Patch.applyChanges (Text.keep text) batch).mapError .ofFault := by
    rw [Folder.patched, hlisted]
    simp only [hjson, htext, hbatch, bind, Except.bind]
  cases hresult : folder.patched settings.depths file operations with
  | error failure =>
    rw [outcome_bind, outcome_patch, ← hpatched, hresult]
    exact .refused hresult
  | ok result =>
  rw [outcome_bind, outcome_patch, ← hpatched, hresult]
  simp only [Except.map]
  cases ho : output.bind Text.nonempty? with
  | none =>
    obtain ⟨hfolder, hcloses⟩ := closes_bind (putsOut_emit (.plain (result.code ++ ['\n'])))
      fun _ later => closes_closing settings result.code result.entries sharing folder later
    exact .shown hresult ho hfolder hcloses
  | some path =>
    dsimp only
    rw [outcome_bind, outcome_writeText]
    cases hw : folder.write path [] with
    | error error => exact .unopened hresult ho hw
    | ok emptied =>
    cases he : Utf8.encodeKept result.code with
    | error error => exact .emptied hresult ho hw he
    | ok bytes =>
    obtain ⟨hfolder, hcloses⟩ := closes_closing settings result.code result.entries sharing
      (emptied.insert (normalPath path) bytes) outside
    exact .written hresult ho hw he hfolder hcloses

end Task

namespace ApplyCourse

variable {file operations : PathWord} {output : Option Text} {outcome : Outcome Nat}
  {result : Patch.Result} {emptied : Folder}

/-- An application comes to its end only with a text that has bytes, if it is to be written. -/
theorem of_finished {code : Nat}
    (hc : ApplyCourse settings folder file operations output sharing outside outcome)
    (hf : outcome.result = .ok code) :
    match output.bind Text.nonempty? with
    | none => outcome.folder = folder
    | some path => ∃ (result : Patch.Result) (plain : Text),
        folder.patched settings.depths file operations = .ok result ∧
        Text.signs result.code = plain.map .char ∧ ∀ name, outcome.folder.get? name =
          if name = normalPath path then some (Utf8.encode plain) else folder.get? name := by
  cases hc with
  | refused h => cases hf
  | shown h ho hfolder =>
    rw [ho]
    exact hfolder
  | unopened h ho hw => cases hf
  | emptied h ho hw he => cases hf
  | @written result path bytes emptied _ h ho hw he hfolder =>
    rw [ho]
    rcases Utf8.encodeKept_cases result.code with ⟨plain, hplain, hbytes⟩ | ⟨_, error, herror⟩
    · refine ⟨result, plain, h, hplain, fun name => ?_⟩
      cases hbytes.symm.trans he
      rw [hfolder, OrderedMap.get?_insert, Folder.write_eq hw, OrderedMap.get?_insert]
      split <;> rfl
    · cases herror.symm.trans he

end ApplyCourse

section

variable {words : List Text} {verbose : Bool} {file operations : PathWord} {output : Option Text}

theorem run_ofWords_apply (settings : Settings) (folder : Folder) (outside : Outside)
    (h : Invocation.ofWords words = .ok ⟨verbose, .apply file operations output sharing⟩) :
    let run := (Program.ofWords settings words).script.run folder outside
    ∃ outcome, ApplyCourse settings folder file operations output sharing outside outcome ∧
      run.folder = outcome.folder ∧ Ends outcome.outside outcome.result run.value := by
  refine ⟨_, Task.applyCourse settings folder file operations output sharing outside, ?_⟩
  rw [Program.ofWords, h]
  exact Command.run_script settings (.apply file operations output sharing) folder outside

end

end Swimlane.CommandLine
