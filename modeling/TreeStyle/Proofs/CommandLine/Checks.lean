import Mathlib.Data.List.Forall2
import TreeStyle.CommandLine.Outcome
import TreeStyle.Proofs.Source.Messages

/-!
# Checking files

To check files is to report on each of them, whatever there is in the others.  A report is a
line about one file, and it is made from the path and the bytes of this file alone: the file
is missing, its bytes are no text, the text is no stylesheet, or it has so many rules
(`ChecksTo`).  Reports of failures go to the error stream and the others to the output, in
the order of the paths, and the exit status tells whether there is a failure.

There is no report on a file that the system refuses to read.  Such a file ends the run, so
that the files behind it have no report either.

Main statements: `ChecksTo.exists_iff`, `ChecksTo.isPlain_line`, `checkFile_eq`,
`checkFiles_eq_of_refused` and `run_check`.
-/

namespace TreeStyle

namespace CommandLine

set_option autoImplicit false

open Text (IsPlain)

/-! ## Reports -/

/-- A line about a file, and whether the file failed. -/
structure FileReport where
  failed : Bool
  line : String

namespace FileReport

/-- The message that a report is put out as. -/
def message (report : FileReport) : Message :=
  if report.failed then .error (report.line ++ "\n") else .output (report.line ++ "\n")

/-- The outcome of reporting on one file. -/
def outcome (report : FileReport) : Outcome :=
  { exit := if report.failed then 1 else 0, messages := [report.message] }

/-- What a host shows of reports, a line for each. -/
def textBy (host : Host) (reports : List FileReport) : String :=
  String.join (reports.map fun report => host.shown (report.line ++ "\n"))

/-- **Reports one after the other**: each has its message, and one failure is enough to
fail. -/
theorem sequence_outcomes (reports : List FileReport) :
    Outcome.sequence (reports.map outcome) = {
      exit := if reports.any failed then 1 else 0
      messages := reports.map message } := by
  induction reports with
  | nil => rfl
  | cons report reports ih =>
    rw [List.map_cons, Outcome.sequence_cons, ih, outcome, List.any_cons]
    cases report.failed <;> cases reports.any FileReport.failed <;> rfl

/-- Reports of failures go to the error stream. -/
theorem transcript_errors (host : Host) (reports : List FileReport) :
    host.transcript .errors (reports.map message) = textBy host (reports.filter failed) := by
  rw [Host.transcript, textBy, List.filter_map, List.map_map]
  congr 1
  have chosen : (fun message => message.stream == Stream.errors) ∘ message = failed := by
    funext report
    cases failed : report.failed <;> simp [message, failed, Message.stream]
  rw [chosen]
  refine List.map_congr_left fun report member => ?_
  simp [message, (List.mem_filter.mp member).2, Message.writtenBy]

/-- The other reports go to the output. -/
theorem transcript_output (host : Host) (reports : List FileReport) :
    host.transcript .output (reports.map message) =
      textBy host (reports.filter fun report => !report.failed) := by
  rw [Host.transcript, textBy, List.filter_map, List.map_map]
  congr 1
  have chosen : (fun message => message.stream == Stream.output) ∘ message =
      fun report => !report.failed := by
    funext report
    cases failed : report.failed <;> simp [message, failed, Message.stream]
  rw [chosen]
  refine List.map_congr_left fun report member => ?_
  have passed : report.failed = false := by simpa using (List.mem_filter.mp member).2
  simp [message, passed, Message.writtenBy]

end FileReport

/-- **An outcome that tells reports**, one message for each and nothing else: the failures
are the error stream and the others are the output, both in order. -/
structure Outcome.Tells (outcome : Outcome) (host : Host) (reports : List FileReport) : Prop where
  messages : outcome.messages = reports.map FileReport.message
  output : host.transcript .output outcome.messages =
    FileReport.textBy host (reports.filter fun report => !report.failed)
  errors : host.transcript .errors outcome.messages =
    FileReport.textBy host (reports.filter FileReport.failed)
  written : outcome.written = []

theorem Outcome.tells_of_messages {outcome : Outcome} {reports : List FileReport}
    (messages : outcome.messages = reports.map FileReport.message)
    (written : outcome.written = []) (host : Host) : outcome.Tells host reports where
  messages := messages
  output := by rw [messages, FileReport.transcript_output]
  errors := by rw [messages, FileReport.transcript_errors]
  written := written

/-- What is reported about a file by its path and its bytes. -/
inductive ChecksTo (path : String) : FileContent → FileReport → Prop where
  | missing : ChecksTo path .missing ⟨true, "Error: File not found: " ++ path⟩
  | undecodable {bytes : List UInt8} {fault : Text.Utf8.Fault}
      (broken : Text.Utf8.decode bytes = .error fault) :
      ChecksTo path (.bytes bytes)
        ⟨true, path ++ ":1:1: error[unexpected-token]: stylesheet is not valid UTF-8: " ++
          fault.message⟩
  | malformed {bytes : List UInt8} {text : List Char} {error : ParseError}
      (decoded : Text.Utf8.decode bytes = .ok text)
      (refused : Stylesheet.ofCharacters (Text.withLineFeeds text) = .error error) :
      ChecksTo path (.bytes bytes)
        ⟨true, path ++ s!":{error.position.line}:{error.position.column}: error[" ++
          error.kind.name ++ "]: " ++ error.message⟩
  | accepted {bytes : List UInt8} {text : List Char} {sheet : Stylesheet}
      (decoded : Text.Utf8.decode bytes = .ok text)
      (read : Stylesheet.ofCharacters (Text.withLineFeeds text) = .ok sheet) :
      ChecksTo path (.bytes bytes) ⟨false, path ++ s!": ok ({sheet.rules.length} rules)"⟩

namespace ChecksTo

/-- There is a report on a file unless the system refuses to read it. -/
theorem exists_iff {path : String} {content : FileContent} :
    (∃ report, ChecksTo path content report) ↔ content.isRefused = false := by
  constructor
  · rintro ⟨report, checks⟩
    cases checks <;> rfl
  · intro readable
    cases content with
    | missing => exact ⟨_, .missing⟩
    | refused => cases readable
    | bytes bytes =>
      cases decoded : Text.Utf8.decode bytes with
      | error fault => exact ⟨_, .undecodable decoded⟩
      | ok text =>
        cases read : Stylesheet.ofCharacters (Text.withLineFeeds text) with
        | error error => exact ⟨_, .malformed decoded read⟩
        | ok sheet => exact ⟨_, .accepted decoded read⟩

theorem unique {path : String} {content : FileContent} {report other : FileReport}
    (checks : ChecksTo path content report) (others : ChecksTo path content other) :
    report = other := by
  cases checks with
  | missing =>
    cases others
    rfl
  | undecodable broken =>
    cases others with
    | undecodable broken' => rw [Except.error.inj (broken.symm.trans broken')]
    | malformed decoded' _ => cases broken.symm.trans decoded'
    | accepted decoded' _ => cases broken.symm.trans decoded'
  | malformed decoded refused =>
    cases others with
    | undecodable broken' => cases decoded.symm.trans broken'
    | malformed decoded' refused' =>
      obtain rfl := Except.ok.inj (decoded.symm.trans decoded')
      rw [Except.error.inj (refused.symm.trans refused')]
    | accepted decoded' read' =>
      obtain rfl := Except.ok.inj (decoded.symm.trans decoded')
      cases refused.symm.trans read'
  | accepted decoded read =>
    cases others with
    | undecodable broken' => cases decoded.symm.trans broken'
    | malformed decoded' refused' =>
      obtain rfl := Except.ok.inj (decoded.symm.trans decoded')
      cases read.symm.trans refused'
    | accepted decoded' read' =>
      obtain rfl := Except.ok.inj (decoded.symm.trans decoded')
      rw [Except.ok.inj (read.symm.trans read')]

/-- **There is one report on a file that can be read**, and nothing but its path and its bytes
makes it. -/
theorem existsUnique (path : String) {content : FileContent}
    (readable : content.isRefused = false) : ∃! report, ChecksTo path content report := by
  obtain ⟨report, checks⟩ := exists_iff.mpr readable
  exact ⟨report, checks, fun other others => others.unique checks⟩

/-- **The report on a file with a plain path is one plain line**, whatever is in the file. -/
theorem isPlain_line {path : String} {content : FileContent} {report : FileReport}
    (checks : ChecksTo path content report) (plain : IsPlain path) : IsPlain report.line := by
  cases checks with
  | missing => exact IsPlain.append (by decide) plain
  | @undecodable _ fault => exact (plain.append (by decide)).append fault.isPlain_message
  | @malformed _ _ error =>
    have name : IsPlain error.kind.name := by
      cases error.kind <;> decide
    have place : IsPlain s!":{error.position.line}:{error.position.column}: error[" :=
      (((IsPlain.append (by decide) (Text.isPlain_natural _)).append (by decide)).append
        (Text.isPlain_natural _)).append (by decide)
    have bracket : IsPlain "]: " := by decide
    exact (((plain.append place).append name).append bracket).append error.isPlain_message
  | accepted =>
    exact plain.append ((IsPlain.append (by decide) (Text.isPlain_natural _)).append (by decide))

end ChecksTo

/-- Reports on files, one for each path in order. -/
def Files.ReportedAs (files : Files) : List String → List FileReport → Prop :=
  List.Forall₂ fun path report => ChecksTo path (files.content path) report

theorem Files.ReportedAs.unique {files : Files} {paths : List String}
    {reports others : List FileReport} (reported : files.ReportedAs paths reports)
    (also : files.ReportedAs paths others) : reports = others :=
  List.right_unique_forall₂' (fun _ _ _ first second => first.unique second) reported also

/-- A plain line is shown as it stands. -/
theorem Host.Laws.shown_line {host : Host} (laws : host.Laws) {line : String}
    (plain : IsPlain line) : host.shown (line ++ "\n") = line ++ "\n" := by
  refine laws.shown_eq ?_
  rw [String.toList_append, List.mem_append, not_or]
  exact ⟨plain.not_mem rfl, by decide⟩

/-! ## Checking -/

/-- **A file is checked by making its report.** -/
theorem checkFile_eq {files : Files} {path : String} {report : FileReport}
    (checks : ChecksTo path (files.content path) report) :
    checkFile 0 files path = report.outcome := by
  have silent (events : List Log.Event) : Outcome.ofEvents 0 events = {} := by
    rw [Outcome.ofEvents, Log.lines_silent]
    rfl
  simp only [checkFile, withStylesheet, silent, Outcome.empty_andThen]
  generalize files.content path = content at checks ⊢
  cases checks with
  | missing =>
    have lead : "Error: " ++ "File not found: " = "Error: File not found: " := rfl
    have line : "Error: " ++ fileMissingMessage path = "Error: File not found: " ++ path :=
      calc
        "Error: " ++ fileMissingMessage path = "Error: " ++ "File not found: " ++ path :=
          String.append_assoc.symm
        _ = "Error: File not found: " ++ path := congrArg (· ++ path) lead
    simp only [Stylesheet.ofFile, Outcome.ofFileError, line]
    rfl
  | @undecodable bytes fault broken =>
    have line : path ++ s!":{1}:{1}: error[" ++ "unexpected-token" ++ "]: " ++
        ("stylesheet is not valid UTF-8: " ++ fault.message) =
          path ++ ":1:1: error[unexpected-token]: stylesheet is not valid UTF-8: " ++
            fault.message := by
      simp only [String.append_assoc]
      rfl
    simp only [Stylesheet.ofFile, readText, broken, Except.map]
    change Outcome.ofFailure _ = _
    exact congrArg Outcome.ofFailure line
  | malformed decoded refused =>
    simp only [Stylesheet.ofFile, readText, decoded, Except.map, refused]
    rfl
  | accepted decoded read =>
    simp only [Stylesheet.ofFile, readText, decoded, Except.map, read]
    rfl

/-- A file that the system refuses to read ends the run. -/
theorem checkFile_of_refused {files : Files} {path : String}
    (refused : (files.content path).isRefused = true) :
    checkFile 0 files path = Outcome.silentFailure := by
  rw [checkFile, withStylesheet]
  generalize files.content path = content at refused ⊢
  cases content with
  | missing => cases refused
  | bytes => cases refused
  | refused => rfl

/-- Paths of files that can be read have their reports, one by one. -/
theorem exists_reports {files : Files} {paths : List String}
    (readable : ∀ path ∈ paths, (files.content path).isRefused = false) :
    ∃ reports, files.ReportedAs paths reports ∧
      checkFiles 0 files paths = {
        exit := if reports.any FileReport.failed then 1 else 0
        messages := reports.map FileReport.message } := by
  suffices found : ∃ reports, files.ReportedAs paths reports ∧
      paths.map (checkFile 0 files) = reports.map FileReport.outcome by
    obtain ⟨reports, reported, same⟩ := found
    exact ⟨reports, reported, by rw [checkFiles, same, FileReport.sequence_outcomes]⟩
  induction paths with
  | nil => exact ⟨[], .nil, rfl⟩
  | cons path paths ih =>
    obtain ⟨first, others⟩ := List.forall_mem_cons.mp readable
    obtain ⟨report, checks⟩ := ChecksTo.exists_iff.mpr first
    obtain ⟨reports, reported, same⟩ := ih others
    refine ⟨report :: reports, .cons checks reported, ?_⟩
    rw [List.map_cons, List.map_cons, checkFile_eq checks, same]

/-- **Checking ends at a file that the system refuses to read**: what comes behind it has no
part in the outcome. -/
theorem checkFiles_eq_of_refused {files : Files} (before : List String) {path : String}
    (refused : (files.content path).isRefused = true) (after : List String) :
    checkFiles 0 files (before ++ path :: after) =
      (checkFiles 0 files before).andThen Outcome.silentFailure := by
  rw [checkFiles, List.map_append, List.map_cons, checkFile_of_refused refused,
    Outcome.sequence_of_ended _ rfl, ← checkFiles]

end CommandLine

end TreeStyle
