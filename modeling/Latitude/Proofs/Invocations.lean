import Latitude.Proofs.Boundary
import Latitude.Proofs.CommandLines
import Latitude.Proofs.Diagnosis
import Latitude.Proofs.Rendering
import Latitude.Proofs.Segmentation

/-!
# The program as a run of the library

For a file that can be read, the program prints what `disassemble` writes, and exits by what
that comes to. The log goes elsewhere and takes no part in it. With strict blocks the listing
can only end earlier.
-/

namespace Latitude

-- ---------------------------------------------------------------------------
-- Errors of files
-- ---------------------------------------------------------------------------

/-- The error was not reported by the system. -/
def ReadError.Internal (e : ReadError) : Prop := ∀ reason, e ≠ .io reason

theorem Reader.Shows.internal {p q : Nat} {data : List UInt8} {e : ReadError}
    (h : Shows p data q e) : e.Internal := by
  obtain ⟨x, w, rest, -, -, flaw⟩ := h
  rintro reason rfl
  cases flaw

theorem Reader.internal_of_presentBlock {index p : Nat} {boundary : Boundary} {data : List UInt8}
    {e : ReadError}
    (failed : ((presentBlock index boundary).run (.over data p)).result = .error e) :
    e.Internal := by
  rcases presentBlock_boundary index (.over data p) with
    ⟨step, same, -⟩ | ⟨b, c, lax, strict, -, runLax, runStrict⟩
  · -- The boundary was not asked, so the error is one that lax reading meets in the bytes.
    rw [same, ← same .lax] at failed
    exact (presentBlock_lax_truthful index p data e failed).internal
  · cases boundary with
    | lax =>
      rw [runLax] at failed
      cases failed
    | strict =>
      rw [runStrict] at failed
      cases failed
      exact nofun

theorem Disassembly.internal_of_tour {walk : Disassembly} (unfinished : walk.finished = false)
    {data : List UInt8} {p : Nat} (cursor : walk.cursor = .over data p) {e : ReadError}
    (failed : walk.tour.outcome = .error e) : e.Internal := by
  refine tour_induction (P := fun walk tour => ∀ data p, walk.cursor = .over data p →
    tour.outcome = .error e → e.Internal) ?_ ?_ ?_ walk unfinished data p cursor failed
  · intro walk c events _ _ data p _ failed
    cases failed
  · intro walk c events e' _ read data p cursor failed
    cases failed
    rcases readBlock_over_cases cursor with ⟨-, ended⟩ | ⟨-, result, c', events', run, found⟩
    · rw [ended] at read
      cases read
    · rw [found] at read
      cases result with
      | ok b => cases read
      | error e' =>
        cases read
        exact Reader.internal_of_presentBlock (congrArg Step.result run)
  · intro walk c events block _ read ih data p cursor failed
    rcases readBlock_over_cases cursor with ⟨-, ended⟩ | ⟨-, result, c', events', run, found⟩
    · rw [ended] at read
      cases read
    · rw [found] at read
      cases result with
      | error e' => cases read
      | ok b =>
        cases read
        obtain ⟨v, rest, _, rfl, takes⟩ :=
          (Reader.presentBlock_plain _ _).exists_takes (congrArg Step.result run)
        rw [takes rest] at run
        cases run
        exact ih rest _ rfl failed

theorem Reading.internal_of_outcome {policy : Policy} {data : List UInt8} {e : ReadError}
    (failed : (ofSource policy (.ofBytes data)).outcome = .error e) : e.Internal := by
  match started : Disassembly.start policy (.ofBytes data) with
  | ⟨.error e', c, events⟩ =>
    rw [ofSource_of_start_error started] at failed
    cases failed
    rintro reason rfl
    exact Disassembly.trueAt_of_start started 0 0
  | ⟨.ok walk, c, events⟩ =>
    obtain ⟨underway, -, -⟩ := Disassembly.underway_of_start (congrArg Step.result started)
    rw [ofSource_of_start started] at failed
    exact Disassembly.internal_of_tour underway.unfinished underway.cursor failed

theorem internal_of_disassemble {policy : Policy} {data : List UInt8} {file : String}
    {e : ReadError} (failed : (disassemble (.ofBytes data) file policy {}).result = .error e) :
    e.Internal := by
  rw [disassemble_of_neverFails _ file _ Sink.neverFails_default] at failed
  cases ended : (Reading.ofSource policy (.ofBytes data)).outcome with
  | ok =>
    rw [ended] at failed
    cases failed
  | error e' =>
    rw [ended] at failed
    cases failed
    exact Reading.internal_of_outcome ended

-- ---------------------------------------------------------------------------
-- Strict listings
-- ---------------------------------------------------------------------------

theorem Reading.strict_text_isPrefix (version : Int) (source : Source) (file : String) :
    Text.encodeUtf8 ((ofSource ⟨version, .strict⟩ source).text file) <+:
      Text.encodeUtf8 ((ofSource ⟨version, .lax⟩ source).text file) := by
  cases found : (ofSource ⟨version, .lax⟩ source).deliveries.find? (0 < ·.block.overrun) with
  | none =>
    refine ⟨[], ?_⟩
    rw [strict_eq_lax (by simpa using found), List.append_nil]
  | some d =>
    obtain ⟨overran, pre, post, split, fitting⟩ := List.find?_eq_some_iff_append.1 found
    obtain ⟨opening, deliveries, -, -⟩ :=
      strict_of_overrun split (by simpa using fitting) (by simpa using overran)
    simp only [text, blocks, opening, deliveries, split]
    cases (ofSource ⟨version, .lax⟩ source).opening.result with
    | error e => exact List.prefix_rfl
    | ok header => simp [String.join_append]

theorem disassemble_strict_isPrefix (version : Int) (source : Source) (file : String) :
    (disassemble source file ⟨version, .strict⟩ {}).sink.output <+:
      (disassemble source file ⟨version, .lax⟩ {}).sink.output := by
  rw [disassemble_of_neverFails source file _ Sink.neverFails_default,
    disassemble_of_neverFails source file _ Sink.neverFails_default]
  simp only [Reading.output_filled]
  exact (List.prefix_append_right_inj _).2 (Reading.strict_text_isPrefix version source file)

-- ---------------------------------------------------------------------------
-- The program
-- ---------------------------------------------------------------------------

/-- The file can be read and holds the bytes `data`. They may come in pieces, and reading may be
interrupted and go on. -/
def Opened.Holds (opened : Opened) (data : List UInt8) : Prop :=
  ∃ source, opened = .source source ∧ source.condensed = (Source.ofBytes data).condensed

namespace Program

/-- The words of a command line are read as what its items say, and no others are accepted. -/
structure Interface.Documented (i : Interface) : Prop where
  reads : ∀ line : CommandLine, i.read line.words = line.read {}
  only_lines : ∀ {words options}, i.read words = .ok options →
    ∃ line : CommandLine, line.words = words

theorem interface_documented : interface.Documented where
  reads line := line.readWords_words {}
  only_lines accepted := CommandLine.exists_commandLine accepted

variable {i : Interface} {words : List String} {options : Options} {path : String}
  {openFile : String → Opened} {data : List UInt8}

theorem listFile_eq_of_condensed {source : Source}
    (same : source.condensed = (Source.ofBytes data).condensed) (shows : Event → Bool)
    (policy : Policy) (path : String) :
    listFile shows policy path source = listFile shows policy path (.ofBytes data) := by
  have seen := sight_disassemble_of_alike (Cursor.alike_of_condensed same) path policy {}
  simp only [Report.sight, Sight.mk.injEq, Prod.mk.injEq] at seen
  obtain ⟨⟨result, sink⟩, -, events⟩ := seen
  simp only [listFile, result, sink, events]

theorem run_eq_listFile (accepted : i.read words = .ok options)
    (named : options.file = some path) (readable : (openFile path).Holds data)
    (filterText : Option String) :
    i.run words filterText openFile =
      listFile (i.shows options filterText) options.policy path (.ofBytes data) := by
  obtain ⟨source, opened, same⟩ := readable
  simp only [Interface.run, accepted, named, opened]
  exact listFile_eq_of_condensed same _ _ _

section
variable {policy : Policy} {source : Source}

theorem listFile_of_ok {summary : Summary}
    (h : (disassemble source path policy {}).result = .ok summary) (shows : Event → Bool) :
    (listFile shows policy path source).stdout =
        (disassemble source path policy {}).sink.output ∧
      (listFile shows policy path source).status = 0 := by
  simp only [listFile, h, and_self]

theorem listFile_of_error {e : ReadError}
    (h : (disassemble source path policy {}).result = .error e) (shows : Event → Bool) :
    (listFile shows policy path source).stdout =
        (disassemble source path policy {}).sink.output ∧
      (listFile shows policy path source).status = 1 ∧
      ∃ log, (listFile shows policy path source).stderr =
        log ++ errorLine "disassemble" path (fullReason e) := by
  simp only [listFile, h, true_and]
  exact ⟨_, rfl⟩

theorem stdout_listFile (shows : Event → Bool) (policy : Policy) (path : String) (source : Source) :
    (listFile shows policy path source).stdout =
      (disassemble source path policy {}).sink.output := by
  cases h : (disassemble source path policy {}).result with
  | ok summary => exact (listFile_of_ok h shows).1
  | error e => exact (listFile_of_error h shows).1

theorem listFile_eq_of_log (shows others : Event → Bool) (policy : Policy) (path : String)
    (source : Source) :
    (listFile others policy path source).stdout = (listFile shows policy path source).stdout ∧
      (listFile others policy path source).status =
        (listFile shows policy path source).status := by
  refine ⟨by rw [stdout_listFile, stdout_listFile], ?_⟩
  cases h : (disassemble source path policy {}).result with
  | ok summary => rw [(listFile_of_ok h others).2, (listFile_of_ok h shows).2]
  | error e => rw [(listFile_of_error h others).2.1, (listFile_of_error h shows).2.1]

end

theorem fullReason_of_internal {e : ReadError} (internal : e.Internal) :
    fullReason e = e.message := by
  cases e with
  | io reason => exact absurd rfl (internal reason)
  | _ => rfl

theorem run_of_misuse (refused : i.read words = .error .misuse)
    (filterText : Option String) (openFile : String → Opened) :
    i.run words filterText openFile = { status := 2, stderr := usage ++ "\n" } := by
  simp only [Interface.run, refused]

theorem stdout_isPrefix_of_strict (documented : i.Documented) {line : CommandLine}
    {policy : Policy} (files : line.files = [path])
    (strict : line.policy = ⟨policy.expectedVersion, .strict⟩)
    (readable : (openFile path).Holds data) (filterText : Option String) :
    (i.run line.words filterText openFile).stdout <+:
      (disassemble (.ofBytes data) path policy {}).sink.output := by
  have reading := documented.reads line
  cases read : line.read {} with
  | error stop =>
    obtain rfl := line.read_onlyMisuse {} stop read
    rw [run_of_misuse (reading.trans read)]
    exact List.nil_prefix
  | ok options =>
    obtain ⟨named, asked⟩ := CommandLine.of_read read
    rw [files, Option.toList_eq_singleton_iff] at named
    rw [run_eq_listFile (reading.trans read) named readable, stdout_listFile, asked, strict]
    obtain ⟨version, boundary⟩ := policy
    cases boundary with
    | strict => exact List.prefix_rfl
    | lax => exact disassemble_strict_isPrefix version _ path

theorem run_eq_of_quiet {others : List String} (filterText otherText : Option String)
    (openFile : String → Opened)
    (same : (i.read others).map Options.quiet = (i.read words).map Options.quiet) :
    (i.run others otherText openFile).stdout = (i.run words filterText openFile).stdout ∧
      (i.run others otherText openFile).status = (i.run words filterText openFile).status := by
  unfold Interface.run
  cases h : i.read words with
  | error stop =>
    cases h' : i.read others with
    | ok options => simp [h, h', Except.map] at same
    | error stop' =>
      obtain rfl : stop' = stop := by simpa [h, h', Except.map] using same
      cases stop' <;> exact ⟨rfl, rfl⟩
  | ok options =>
    cases h' : i.read others with
    | error stop' => simp [h, h', Except.map] at same
    | ok options' =>
      have quiet : options'.quiet = options.quiet := by simpa [h, h', Except.map] using same
      have file : options'.file = options.file := congrArg (fun o => o.file) quiet
      have policy : options'.policy = options.policy := congrArg (fun o => o.policy) quiet
      dsimp only
      rw [file, policy]
      cases options.file with
      | none => exact ⟨rfl, rfl⟩
      | some path =>
        dsimp only
        cases openFile path with
        | failed reason => exact ⟨rfl, rfl⟩
        | source source => exact listFile_eq_of_log _ _ _ _ _

end Program

/-- For a command line that is accepted and names a file that can be read, the program is a run
of the library on the bytes of the file, under the policy that the items of the line ask for:
it prints what that run writes, and exits with zero, or with one and the message of the error,
which the system has no part in. Neither a filter for the log nor items that ask for more log
change the listing or the status, and to ask for strict blocks can only cut the listing off.

All this holds with any interface that reads command lines as documented, whatever it logs, and
the program's own is one. -/
theorem program_runs_library :
    Program.interface.Documented ∧
    ∀ {i : Program.Interface} {words : List String} {options : Options} {path : String}
      {openFile : String → Opened} {data : List UInt8},
      i.Documented → i.read words = .ok options → options.file = some path →
      (openFile path).Holds data →
      (∃ line : CommandLine, line.words = words) ∧
      ∀ line : CommandLine, line.words = words → ∀ filterText,
        let exit := i.run words filterText openFile
        let report := disassemble (.ofBytes data) path line.policy {}
        line.files = [path] ∧ exit.stdout = report.sink.output ∧
        (∀ summary, report.result = .ok summary → exit.status = 0) ∧
        (∀ e, report.result = .error e → exit.status = 1 ∧ e.Internal ∧
          ∃ log, exit.stderr =
            log ++ ("error: failed to disassemble `" ++ path ++ "`: " ++ e.message ++ "\n")) ∧
        (∀ (other : CommandLine) (otherText : Option String), other.essential = line.essential →
          let again := i.run other.words otherText openFile
          again.stdout = exit.stdout ∧ again.status = exit.status) ∧
        ∀ (pre post : List Item) (otherText : Option String), line.items = pre ++ post →
          let stricter : CommandLine := { line with items := pre ++ .strictBlocks :: post }
          (i.run stricter.words otherText openFile).stdout <+: exit.stdout := by
  refine ⟨Program.interface_documented, ?_⟩
  intro i words options path openFile data documented accepted named readable
  refine ⟨documented.only_lines accepted, ?_⟩
  rintro line rfl filterText
  have read : line.read {} = .ok options := (documented.reads line).symm.trans accepted
  obtain ⟨files, policy⟩ := CommandLine.of_read read
  rw [named] at files
  have run := Program.run_eq_listFile accepted named readable filterText
  have stdout := Program.stdout_listFile (i.shows options filterText) options.policy path
    (.ofBytes data)
  rw [← run, policy] at stdout
  rw [policy] at run
  refine ⟨files.symm, stdout, ?_, ?_, ?_, ?_⟩
  · intro summary ended
    rw [run]
    exact (Program.listFile_of_ok ended _).2
  · intro e failed
    have internal := internal_of_disassemble failed
    obtain ⟨-, status, log, stderr⟩ :=
      Program.listFile_of_error failed (i.shows options filterText)
    rw [← run] at status stderr
    rw [Program.fullReason_of_internal internal] at stderr
    exact ⟨status, internal, log, stderr⟩
  · intro other otherText same
    refine Program.run_eq_of_quiet filterText otherText openFile ?_
    rw [documented.reads, documented.reads, ← other.read_essential, ← line.read_essential, same]
  · intro pre post otherText split
    obtain ⟨named', policy'⟩ := CommandLine.of_strictBlocks split
    rw [stdout]
    exact Program.stdout_isPrefix_of_strict documented (named'.trans files.symm) policy' readable
      otherText

/-- A file with a block that overruns, read in two pieces with an interruption between them,
and listed with more log, without, and with strict blocks. -/
theorem program_runs_library_interrupted :
    let data : List UInt8 :=
      [0, 0xE8, 0x03, 0, 0, 0x2E, 0, 1, 0, 0, 0, 0, 0, 0, 0, 0x04, 0x01]
    let openFile (_ : String) : Opened := .source
      [.bytes (data.take 9), .fault ⟨.interrupted, "again"⟩, .bytes (data.drop 9)]
    let run (words : List String) (filterText : Option String) :=
      Program.run words filterText openFile
    Options.ofWords ["f", "-vv"] = .ok { file := some "f", verbosity := 2 } ∧
      (openFile "f").Holds data ∧
      (run ["f", "-vv"] none).stdout = (disassemble (.ofBytes data) "f" {} {}).sink.output ∧
      (run ["f"] (some "off")).stdout = (run ["f", "-vv"] none).stdout ∧
      (run ["--strict-blocks", "f", "-vv"] none).stdout <+: (run ["f", "-vv"] none).stdout := by
  intro data openFile run
  have accepted : Program.interface.read ["f", "-vv"] =
      .ok { file := some "f", verbosity := 2 } := by decide
  have readable : (openFile "f").Holds data := ⟨_, rfl, rfl⟩
  have plain : Word.ofText "f" = .plain "f" := by decide
  obtain ⟨documented, runs⟩ := program_runs_library
  obtain ⟨-, stdout, -, -, quiet, strict⟩ := (runs documented accepted rfl readable).2
    ⟨[.file "f" plain, .verboseLetters 1], none⟩ rfl none
  exact ⟨accepted, readable, stdout, (quiet ⟨[.file "f" plain], none⟩ (some "off") rfl).1,
    strict [] _ none rfl⟩

end Latitude
