import Latitude.Proofs.Language
import Latitude.Proofs.Rendering

/-!
# Listing into a sink that fills up

Reading and writing take turns, and whichever fails first ends the listing. A sink that has
room for the first bytes of a listing only ends up with exactly those, wherever in a
character the cut falls, and is never flushed; its refusal is reported even where the
reading would have failed later on. A sink that holds the whole listing changes at most
what the last flush reports.
-/

namespace Latitude

namespace Report

/-- The listing ended with the sink full: it has taken the first `n` of the bytes that were
for it, and nothing was done to it after that. -/
structure Overflows (report : Report Summary) (sink : Sink) (data : List UInt8) (n : Nat) :
    Prop where
  result : report.result = .error (.io (Sink.refusalReason sink.refusal))
  taken : report.sink = sink.accept (data.take n)

variable {sink : Sink} {n : Nat}

theorem writing_overflows {text : String} {rest : List UInt8} {cursor : Cursor}
    {events : List Event} {andThen : Sink → Report Summary} (bound : sink.capacity = some n)
    (less : n < (Text.encodeUtf8 text ++ rest).length)
    (others : ∀ m, (sink.accept (Text.encodeUtf8 text)).capacity = some m → m < rest.length →
      (andThen (sink.accept (Text.encodeUtf8 text))).Overflows
        (sink.accept (Text.encodeUtf8 text)) rest m) :
    (writing text cursor sink events andThen).Overflows sink (Text.encodeUtf8 text ++ rest) n := by
  rw [List.length_append] at less
  by_cases cut : n < (Text.encodeUtf8 text).length
  · -- The sink fills up within this text, and what comes after it is never reached.
    have refused := Sink.writeBytes_of_capacity bound cut
    have front : (Text.encodeUtf8 text ++ rest).take n = (Text.encodeUtf8 text).take n :=
      List.take_append_of_le_length (Nat.le_of_lt cut)
    constructor <;> simp [writing, Sink.write, refused, front]
  · have holds : sink.Holds (Text.encodeUtf8 text) := by
      intro m other
      cases bound.symm.trans other
      omega
    have left : (sink.accept (Text.encodeUtf8 text)).capacity =
        some (n - (Text.encodeUtf8 text).length) := by
      simp [Sink.capacity_accept, bound]
    obtain ⟨result, full⟩ := others _ left (by omega)
    rw [writing_of_holds holds]
    refine ⟨result, full.trans ?_⟩
    rw [Sink.accept_accept, List.take_append, List.take_of_length_le (Nat.le_of_not_lt cut)]

theorem listing_overflows (finish : Summary → Sink → Report Summary) {ds : List Delivery}
    (bound : sink.capacity = some n) (less : n < (lines (ds.map Delivery.block)).length)
    (total : Summary) :
    (listing finish ds total sink).Overflows sink (lines (ds.map Delivery.block)) n := by
  induction ds generalizing total sink n with
  | nil => simp [lines] at less
  | cons d ds ih =>
    rw [List.map_cons, lines_cons] at less ⊢
    exact writing_overflows bound less fun m left less => ih left less _

end Report

theorem disassemble_overflows {source : Source} {file : String} {policy : Policy} {sink : Sink}
    {n : Nat} (bound : sink.capacity = some n)
    (less : n < (Text.encodeUtf8 ((Reading.ofSource policy source).text file)).length) :
    (disassemble source file policy sink).Overflows sink
      (Text.encodeUtf8 ((Reading.ofSource policy source).text file)) n := by
  rw [disassemble_eq_report]
  match started : Disassembly.start policy source with
  | ⟨.error e, c, events⟩ =>
    simp [Reading.ofSource_of_start_error started, Reading.text] at less
  | ⟨.ok walk, c, events⟩ =>
    simp only [Reading.ofSource_of_start started, Reading.text, Reading.report,
      Text.encodeUtf8_append] at less ⊢
    exact Report.writing_overflows bound less fun m left less =>
      Report.listing_overflows _ left less _

theorem disassemble_ok {source : Source} {file : String} {policy : Policy} {sink : Sink}
    {total : Summary} (ok : (disassemble source file policy sink).result = .ok total) :
    (Reading.ofSource policy source).outcome = .ok () ∧
      total = (Reading.ofSource policy source).summary ∧
      (disassemble source file policy sink).sink.output =
        sink.output ++ Text.encodeUtf8 ((Reading.ofSource policy source).text file) := by
  by_cases holds : sink.Holds (Text.encodeUtf8 ((Reading.ofSource policy source).text file))
  · rw [disassemble_of_holds holds] at ok ⊢
    cases outcome : (Reading.ofSource policy source).outcome with
    | error e => simp [Reading.conclusion, outcome, Except.bind] at ok
    | ok ended =>
      refine ⟨rfl, ?_, Reading.output_filled ..⟩
      cases flushed : (Sink.flush.run sink).result with
      | error e => simp [Reading.conclusion, outcome, flushed, Except.bind, Except.map] at ok
      | ok done =>
        simpa [Reading.conclusion, outcome, flushed, Except.bind, Except.map] using ok.symm
  · obtain ⟨n, bound, less⟩ : ∃ n, sink.capacity = some n ∧
        n < (Text.encodeUtf8 ((Reading.ofSource policy source).text file)).length := by
      simpa [Sink.Holds] using holds
    rw [(disassemble_overflows bound less).result] at ok
    cases ok

/-- A sink with room for a part of the listing that an unbounded one gets takes exactly that
part, reports its refusal, and is never flushed, however the reading would have ended. If
it has room for all of it, it takes all of it; the result is the same, but that a failing
flush is reported in place of a count. A count comes with one flush, an error of the reading
with none. -/
theorem disassemble_into_bounded_sink (source : Source) (file : String) (policy : Policy)
    {sink : Sink} (moves : sink.chunk ≠ some 0) :
    let whole := disassemble source file policy {}
    let report := disassemble source file policy sink
    (∀ limit, sink.room = some limit → limit < whole.sink.output.length →
      report.sink.output = sink.output ++ whole.sink.output.take limit ∧
      report.sink.flushes = sink.flushes ∧
      (∀ reason, sink.refusal = .fails reason → report.result = .error (.io reason)) ∧
      (sink.refusal = .takesNothing →
        report.result = .error (.io "failed to write whole buffer"))) ∧
    ((∀ limit, sink.room = some limit → whole.sink.output.length ≤ limit) →
      report.sink.output = sink.output ++ whole.sink.output ∧
      (∀ e, whole.result = .error e →
        report.result = .error e ∧ report.sink.flushes = sink.flushes) ∧
      ∀ total, whole.result = .ok total →
        report.sink.flushes = sink.flushes + 1 ∧
        (sink.flushFault = none → report.result = .ok total) ∧
        ∀ reason, sink.flushFault = some reason → report.result = .error (.io reason)) := by
  intro whole report
  let reading := Reading.ofSource policy source
  have entire : whole = _ :=
    disassemble_of_neverFails source file policy Sink.neverFails_default
  have output : whole.sink.output = Text.encodeUtf8 (reading.text file) := by
    rw [entire]
    exact Reading.output_filled ..
  have capacity : sink.capacity = sink.room := Sink.capacity_eq_room moves
  rw [output]
  refine ⟨fun limit room less => ?_, fun enough => ?_⟩
  · obtain ⟨result, full⟩ := disassemble_overflows (capacity.trans room) less
    refine ⟨?_, ?_, ?_, ?_⟩
    · exact (congrArg Sink.output full).trans (Sink.output_accept ..)
    · exact (congrArg Sink.flushes full).trans rfl
    · intro reason refusal
      simpa [refusal, Sink.refusalReason] using result
    · intro refusal
      simpa [refusal, Sink.refusalReason] using result
  · have holds : sink.Holds (Text.encodeUtf8 (reading.text file)) := by
      intro limit bound
      exact enough limit (capacity.symm.trans bound)
    have listed : report = _ := disassemble_of_holds holds
    rw [listed, entire]
    refine ⟨Reading.output_filled .., ?_, ?_⟩
    · intro e failed
      cases outcome : (Reading.ofSource policy source).outcome <;>
        simp_all [Reading.conclusion, Reading.filled, Except.map, Except.bind, Sink.accept]
    · intro total ended
      cases outcome : (Reading.ofSource policy source).outcome <;>
        simp_all [Reading.conclusion, Reading.filled, Except.map, Except.bind, Sink.accept,
          Sink.flush]

/-- The room ends between the two bytes of a letter; the reading would have failed as well, in
the second block. -/
theorem disassemble_into_bounded_sink_within_letter :
    let data : List UInt8 :=
      [0, 0xE8, 0x03, 0, 0, 0x4D, 0x24, 0xC3, 0xA9, 0, 0, 0x2E, 0,
        2, 0, 0, 0, 0, 0, 0, 0, 0x04, 0x01, 1, 0, 0, 0, 0, 0, 0, 0, 0xFF]
    let sink : Sink := { chunk := some 3, room := some 31, refusal := .fails "full" }
    let report := disassemble (.ofBytes data) "f" {} sink
    (disassemble (.ofBytes data) "f" {} {}).result = .error (.unknownOpcode 0xFF 31) ∧
      report.result = .error (.io "full") ∧ report.sink.flushes = 0 ∧
      report.sink.output = Text.encodeUtf8 "File: f\nVersion: 1000\nModule: " ++ [0xC3] := by
  intro data sink report
  let header : SpelledHeader :=
    { version := ⟨0, [0xE8, 0x03, 0, 0], rfl⟩
      fields := [⟨.moduleName, [.plain 0xC3 (by decide), .plain 0xA9 (by decide)], "é", by decide⟩]
      last := 0 }
  let rest : List UInt8 := [2, 0, 0, 0, 0, 0, 0, 0, 0x04, 0x01, 1, 0, 0, 0, 0, 0, 0, 0, 0xFF]
  let walk : Disassembly :=
    { policy := {}, header := { version := 1000, moduleName := some "é" }
      cursor := .over rest 13 }
  have version : header.version.value = ({} : Policy).expectedVersion := by decide
  have started : Disassembly.start {} (.ofBytes data) = ⟨.ok walk, walk.cursor, header.events 0⟩ :=
    Disassembly.start_spelled version rest
  let block : Block := ⟨0, 13, 2, 2, [⟨.getl, [.register .ptr], rfl⟩]⟩
  obtain ⟨_, first⟩ :
      ∃ events, walk.readBlock = ⟨.ok (some block), .over (rest.drop 10) 23, events⟩ :=
    ⟨_, by cbv⟩
  obtain ⟨_, second⟩ : ∃ events, (walk.moved (.over (rest.drop 10) 23)).readBlock =
      ⟨.error (.unknownOpcode 0xFF 31), .over [] 32, events⟩ := ⟨_, by cbv⟩
  have reading := Reading.ofSource_of_start started
  rw [Disassembly.tour_of_block rfl first, Disassembly.tour_of_error rfl second] at reading
  have whole := disassemble_of_neverFails (.ofBytes data) "f" {} Sink.neverFails_default
  have output : (disassemble (.ofBytes data) "f" {} {}).sink.output =
      Text.encodeUtf8 "File: f\nVersion: 1000\nModule: é\n<<0>>\n  getl %ptr\n" := by
    rw [whole, Reading.output_filled, reading]
    change Text.encodeUtf8
      (walk.header.listing "f" ++ String.join ([block].map Block.listing)) = _
    decide
  have moves : sink.chunk ≠ some 0 := by decide
  have cut := (disassemble_into_bounded_sink (.ofBytes data) "f" {} moves).1 31 rfl
  rw [output] at cut
  obtain ⟨taken, unflushed, refused, -⟩ := cut (by decide)
  refine ⟨?_, refused "full" rfl, unflushed, taken.trans (by decide)⟩
  rw [whole, reading]
  rfl

end Latitude
