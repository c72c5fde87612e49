import Swimlane.Proofs.CommandLine.Apply
import Swimlane.Proofs.Outcomes
import Swimlane.Proofs.Patch.Provenance
import Swimlane.Proofs.Patch.Skips
import Swimlane.Proofs.Text.WholeLines

/-! What an application leaves of the lines of a file: those that no operation touches keep their
characters, and every line break becomes a line feed. -/
namespace Swimlane

open Patch

variable {text : Text} {batch : List Operation} {result : Result}

namespace Text

theorem carriage_not_mem_unifyBreaks (text : Text) : '\r' ∉ unifyBreaks text := by
  rw [unifyBreaks, List.mem_map]
  rintro ⟨c, _, hc⟩
  split at hc
  · cases hc
  · next hne => exact hne hc

/-- The lines of a text are kept line by line. -/
theorem splitOn_keep (text : Text) : (keep text).splitOn '\n' = (text.splitOn '\n').map keep := by
  have hjoin : join ['\n'] (text.splitOn '\n') = text := List.intercalate_splitOn '\n'
  have hkeep := keep_join (c := '\n') (by decide) (text.splitOn '\n')
  rw [hjoin] at hkeep
  rw [hkeep]
  refine List.splitOn_intercalate '\n' ?_ ?_
  · intro line hline
    obtain ⟨given, hgiven, rfl⟩ := List.mem_map.1 hline
    exact fun hm => not_mem_of_mem_splitOn hgiven (mem_keep.1 hm)
  · simp [List.splitOn_ne_nil]

theorem exists_mark {number : Nat} {line : Text} (h : (segments text)[number]? = some line) :
    ∃ mark, IsMark mark ∧ (wholeLines text)[number]? = some (line ++ mark) := by
  obtain ⟨hlength, hwhole⟩ := List.forall₂_iff_get.1 (wholeLines_segments text)
  obtain ⟨hlt, rfl⟩ := List.getElem?_eq_some_iff.1 h
  obtain ⟨mark, heq, hmark⟩ := hwhole number (hlength ▸ hlt) hlt
  exact ⟨mark, hmark, List.getElem?_eq_some_iff.2 ⟨hlength ▸ hlt, heq⟩⟩

/-- Lines as they stand in a text: each but the last with a line feed. -/
def ended : List Text → List Text
  | [] => []
  | [line] => [line]
  | line :: next :: rest => (line ++ ['\n']) :: ended (next :: rest)

theorem flatten_ended (lines : List Text) : (ended lines).flatten = join ['\n'] lines := by
  fun_induction ended lines with
  | case1 => rfl
  | case2 line => simp [join]
  | case3 line next rest ih =>
    simp only [join] at ih ⊢
    rw [List.flatten_cons, ih, List.intercalate_cons_cons]

theorem getElem?_ended (lines : List Text) (place : Nat) : (ended lines)[place]? =
    lines[place]?.map (· ++ if place + 1 < lines.length then ['\n'] else []) := by
  fun_induction ended lines generalizing place with
  | case1 => rfl
  | case2 line => cases place <;> simp
  | case3 line next rest ih =>
    cases place with
    | zero => simp
    | succ place => simpa using ih place

end Text

namespace Patch

/-- A line of a ledger as it is shown. -/
def TracedLine.shown (line : TracedLine) : TracedLine := ⟨line.origin, Text.shown line.text⟩

theorem ofText_keep (h : '\r' ∉ text) : Newline.ofText (Text.keep text) = .lf := by
  rw [Newline.ofText, if_neg]
  intro hm
  exact h (Text.mem_keep.1 ((Text.mentions_iff.1 hm).subset (by simp)))

theorem shown_ofLines_keep (given : List Text) :
    (Ledger.ofLines (given.map Text.keep)).lines.map TracedLine.shown = (Ledger.ofLines given).lines := by
  rw [Ledger.ofLines, List.zipIdx_map, List.map_map, List.map_map]
  refine List.map_congr_left fun pair _ => ?_
  simp [TracedLine.shown, Text.shown_keep]

theorem filter_untouched_shown (events : List Event) (lines : List TracedLine) :
    (lines.filter (Untouched events)).map TracedLine.shown =
      (lines.map TracedLine.shown).filter (Untouched events) := by
  rw [List.filter_map]
  rfl

/-- What is left of the lines of a text in one that a batch made of it. -/
structure LinesKept (text : Text) (ledger : Ledger) (out : Text) : Prop where
  /-- Each line but the last ends with a line feed. -/
  joined : out = (Text.ended (ledger.lines.map fun line => line.shown.text)).flatten
  /-- The lines that no operation touched have their characters and their order. -/
  kept : (ledger.lines.filter (Untouched ledger.events)).map TracedLine.shown =
    (Ledger.ofLines (Text.segments text)).lines.filter (Untouched ledger.events)
  /-- Such a line keeps its end, too, exactly if this was a line feed already. -/
  endings : ∀ (place number : Nat) (line : TracedLine), ledger.lines[place]? = some line →
    line.origin = .given number → Untouched ledger.events line = true →
      ∃ mark, Text.IsMark mark ∧
        (Text.wholeLines text)[number]? = some (line.shown.text ++ mark) ∧
        ((Text.ended (ledger.lines.map fun line => line.shown.text))[place]? =
            (Text.wholeLines text)[number]? ↔
          mark = if place + 1 < ledger.lines.length then ['\n'] else [])

theorem mem_ofLines {given : List Text} {line : TracedLine} :
    line ∈ (Ledger.ofLines given).lines ↔ ∃ number, line.origin = .given number ∧
      given[number]? = some line.text := by
  rw [Ledger.ofLines, List.mem_map]
  constructor
  · rintro ⟨⟨text, number⟩, hpair, rfl⟩
    exact ⟨number, rfl, List.mk_mem_zipIdx_iff_getElem?.1 hpair⟩
  · rintro ⟨number, horigin, hnumber⟩
    obtain ⟨origin, text⟩ := line
    exact ⟨(text, number), List.mk_mem_zipIdx_iff_getElem?.2 hnumber,
      congrArg (TracedLine.mk · text) horigin.symm⟩

/-- A batch that finds a text kept, with line feeds only, leaves its lines as is said. -/
theorem linesKept (h : applyChanges (Text.keep (Text.unifyBreaks text)) batch = .ok result) :
    let ledger := Ledger.ofBatch (Text.keep (Text.unifyBreaks text)) batch
    LinesKept text ledger (Text.shown result.code) ∧
      List.Forall₂ (fun event entry => event.Recorded entry.outcome) ledger.events result.entries := by
  intro ledger
  obtain ⟨hcode, hprovenance⟩ := provenance_ofBatch h
  rw [ofText_keep (Text.carriage_not_mem_unifyBreaks text)] at hcode hprovenance
  have hkept : (ledger.lines.filter (Untouched ledger.events)).map TracedLine.shown =
      (Ledger.ofLines (Text.segments text)).lines.filter (Untouched ledger.events) := by
    have hlines : Newline.lf.split (Text.keep (Text.unifyBreaks text)) =
        (Text.segments text).map Text.keep := Text.splitOn_keep _
    rw [hprovenance.kept, filter_untouched_shown, hlines, shown_ofLines_keep]
  refine ⟨⟨?_, hkept, fun place number line hline horigin huntouched => ?_⟩, hprovenance.recorded⟩
  · rw [hcode, Text.flatten_ended]
    refine (Text.shown_join (c := '\n') (by decide) _).trans ?_
    rw [Ledger.texts, List.map_map]
    rfl
  · have hmem : line.shown ∈ (ledger.lines.filter (Untouched ledger.events)).map TracedLine.shown :=
      List.mem_map_of_mem (List.mem_filter.2 ⟨List.mem_of_getElem? hline, huntouched⟩)
    rw [hkept] at hmem
    obtain ⟨other, hother, htext⟩ := mem_ofLines.1 (List.mem_filter.1 hmem).1
    cases horigin.symm.trans hother
    obtain ⟨mark, hmark, hwhole⟩ := Text.exists_mark htext
    have hshown : (ledger.lines.map fun line => line.shown.text)[place]? = some line.shown.text := by
      rw [List.getElem?_map, hline]
      rfl
    refine ⟨mark, hmark, hwhole, ?_⟩
    rw [Text.getElem?_ended, hshown, hwhole, List.length_map, Option.map_some, Option.some.injEq,
      List.append_cancel_left_eq]
    exact eq_comm

end Patch

namespace CommandLine

open Service

variable {folder : Folder} {depths : Json.Depths} {file operations : PathWord}

/-- The operations that a file of the folder lists. -/
def Folder.listed (folder : Folder) (depths : Json.Depths) (operations : PathWord) :
    Except Failure (List Operation) := do
  let json ← (Json.readKept depths.reading (← folder.text operations)).mapError .ofUnread
  (Operation.listOfKept depths.showing json).mapError .ofUnlisted

theorem Folder.patched_eq_ok (h : folder.patched depths file operations = .ok result) : ∃ text batch,
    folder.text file = .ok text ∧ folder.listed depths operations = .ok batch ∧
      applyChanges (Text.keep text) batch = .ok result := by
  simp only [Folder.patched, bind_eq_ok, mapError_eq_ok] at h
  obtain ⟨source, hsource, json, hjson, text, htext, batch, hbatch, happly⟩ := h
  refine ⟨text, batch, htext, ?_, happly⟩
  simp only [Folder.listed, bind_eq_ok, mapError_eq_ok]
  exact ⟨source, hsource, json, hjson, hbatch⟩

theorem Folder.text_of_read {path : Text} (h : folder.read path = .ok (Utf8.encode text)) :
    folder.text (some path) = .ok (Text.unifyBreaks text) := by
  simp only [Folder.text, bind_eq_ok, mapError_eq_ok]
  exact ⟨_, h, text, Utf8.decode_encode text, rfl⟩

/-- An application that comes to its end writes every line that no operation touched with the
characters that it had, in their order, and ends each line but the last with a line feed, however the
lines of the file ended. If everything was skipped, the bytes are those of the file exactly if it has no
carriage return. -/
theorem apply_keeps_lines (settings : Settings) {words : List Text} {verbose sharing : Bool}
    {file path : Text} (folder : Folder) (outside : Outside)
    (hwords : Invocation.ofWords words =
      .ok ⟨verbose, .apply (some file) operations (some path) sharing⟩) (hpath : path ≠ [])
    (hfile : folder.read file = .ok (Utf8.encode text))
    (hend : ((Program.ofWords settings words).script.run folder outside).value = .exit 0) :
    ∃ batch result out, folder.listed settings.depths operations = .ok batch ∧
      applyChanges (Text.keep (Text.unifyBreaks text)) batch = .ok result ∧
      ((Program.ofWords settings words).script.run folder outside).folder.get? (normalPath path) =
        some (Utf8.encode out) ∧
      (let ledger := Ledger.ofBatch (Text.keep (Text.unifyBreaks text)) batch
      LinesKept text ledger out ∧ List.Forall₂ (fun event entry => event.Recorded entry.outcome)
        ledger.events result.entries) ∧
      ((∀ entry ∈ result.entries, entry.isApplied = false) → out = Text.unifyBreaks text ∧
        (Utf8.encode out = Utf8.encode text ↔ '\r' ∉ text)) := by
  obtain ⟨outcome, hcourse, hfolder, hends⟩ := run_ofWords_apply settings folder outside hwords
  rw [hend] at hends
  have hnonempty : (some path).bind Text.nonempty? = some path := by
    cases path with
    | nil => exact absurd rfl hpath
    | cons c more => rfl
  have hfinished := hcourse.of_finished hends.result_eq
  rw [hnonempty] at hfinished
  obtain ⟨result, plain, hpatched, hplain, hafter⟩ := hfinished
  obtain ⟨given, batch, hgiven, hbatch, happly⟩ := Folder.patched_eq_ok hpatched
  -- The breaks are lost here, before there is anything to patch.
  cases (Folder.text_of_read hfile).symm.trans hgiven
  have hr := Text.carriage_not_mem_unifyBreaks text
  have hshown : Text.shown result.code = plain := by
    rw [Text.shown, hplain, Text.map_shown_char]
  have hlines := linesKept happly
  rw [hshown] at hlines
  refine ⟨batch, result, plain, hbatch, happly, ?_, hlines, fun hskipped => ?_⟩
  · rw [hfolder, hafter, if_pos rfl]
  · have hout : plain = Text.unifyBreaks text := by
      rw [← hshown, code_of_skipped happly hskipped, Text.shown_keep]
    refine ⟨hout, fun hsame => ?_, fun hno => ?_⟩
    · rw [← Utf8.encode_injective hsame, hout]
      exact hr
    · rw [hout, Text.unifyBreaks_eq_self hno]

def pairedText : Text := "a \x7b\r\nn1: circle\r\n\x7d\r\n"

/-- A diagram whose lines end in pairs, and a removal that is made and asked for again. -/
def removalFolder : Folder := .ofList [
  ("d", Utf8.encode pairedText),
  ("ops", Utf8.encode ("[\x7b\"op\":\"removeNode\",\"nodeId\":\"n1\"\x7d," ++
    "\x7b\"op\":\"removeNode\",\"nodeId\":\"n1\"\x7d]"))]

def outWords : List Text := ["apply", "d", "ops", "-o", "out"]

theorem apply_keeps_lines_removal :
    let run := (Program.ofWords (.ofEnvironment none) outWords).script.run removalFolder {}
    run.value = .exit 0 ∧ run.folder.get? "out" = some (Utf8.encode "a \x7b\n\x7d\n") ∧
      ∃ batch, removalFolder.listed {} (some "ops") = .ok batch ∧
        LinesKept pairedText (Ledger.ofBatch (Text.keep (Text.unifyBreaks pairedText)) batch)
          "a \x7b\n\x7d\n" := by
  intro run
  have hend : run.value = .exit 0 := by decide +kernel
  have hout : run.folder.get? "out" = some (Utf8.encode "a \x7b\n\x7d\n") := by decide +kernel
  have hwords : Invocation.ofWords outWords =
      .ok ⟨false, .apply (some "d") (some "ops") (some "out") false⟩ := by decide +kernel
  have hfile : removalFolder.read "d" = .ok (Utf8.encode pairedText) := by decide +kernel
  have hname : normalPath "out" = "out" := by decide +kernel
  obtain ⟨batch, result, out, hbatch, _, hwritten, ⟨hkept, _⟩, _⟩ :=
    apply_keeps_lines (.ofEnvironment none) removalFolder {} hwords (by decide) hfile hend
  rw [hname] at hwritten
  cases Utf8.encode_injective (Option.some.inj (hout.symm.trans hwritten))
  exact ⟨hend, hout, batch, hbatch, hkept⟩

/-- Nothing is to be done, and yet the file that is written is not the one that was read. -/
theorem carriage_returns_lost :
    let folder : Folder := .ofList [("d", Utf8.encode "a \x7b\r\n\x7d\r\n"), ("ops", Utf8.encode "[]")]
    let run := (Program.ofWords (.ofEnvironment none) outWords).script.run folder {}
    run.value = .exit 0 ∧ run.folder.get? "d" = some (Utf8.encode "a \x7b\r\n\x7d\r\n") ∧
      run.folder.get? "out" = some (Utf8.encode "a \x7b\n\x7d\n") ∧
      run.folder.get? "out" ≠ run.folder.get? "d" := by
  decide +kernel

end CommandLine

end Swimlane
