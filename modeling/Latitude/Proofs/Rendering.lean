import Mathlib.Algebra.Ring.Nat
import Latitude.Proofs.Accounting
import Latitude.Proofs.Reports

/-!
# Listing what was read

Into a sink that holds all of it, `disassemble` writes the lines of the header and of every
block that was read, in order, and nothing else; it reports how the reading ended, and
flushes once if it ended well. A sink that never fails has no bound on what it takes, so it
holds every listing.

The listing of a file that is at hand as a whole is that same text: a sink that was given
whole texts holds one, so nothing in it has to be replaced.
-/

namespace Latitude

-- ---------------------------------------------------------------------------
-- How much a sink takes
-- ---------------------------------------------------------------------------

namespace Sink

variable {data more : List UInt8} {sink : Sink}

@[simp] theorem accept_nil (sink : Sink) : sink.accept [] = sink := by
  cases sink
  simp [accept]

@[simp] theorem accept_accept (data more : List UInt8) (sink : Sink) :
    (sink.accept data).accept more = sink.accept (data ++ more) := by
  cases sink
  simp [accept, Function.comp_def, Nat.sub_sub]

/-- The bytes that the sink still takes in all, if there is a bound. -/
def capacity (sink : Sink) : Option Nat :=
  match sink.chunk with
  | some 0 => some 0
  | _ => sink.room

theorem capacity_eq_room (h : sink.chunk ≠ some 0) : sink.capacity = sink.room := by
  unfold capacity
  split
  · contradiction
  · rfl

def Holds (sink : Sink) (data : List UInt8) : Prop :=
  ∀ n, sink.capacity = some n → data.length ≤ n

theorem capacity_accept (data : List UInt8) (sink : Sink) :
    (sink.accept data).capacity = sink.capacity.map (· - data.length) := by
  simp only [capacity, accept]
  split <;> simp

theorem holds_append :
    sink.Holds (data ++ more) ↔ sink.Holds data ∧ (sink.accept data).Holds more := by
  simp only [Holds, capacity_accept, List.length_append]
  cases sink.capacity with
  | none => simp
  | some n =>
    simp only [Option.map_some, Option.some.injEq, forall_eq']
    omega

theorem allowance_cases (sink : Sink) :
    (sink.allowance = none ∧ sink.capacity = none) ∨
      (sink.allowance = some 0 ∧ sink.capacity = some 0) ∨
      ∃ k, sink.allowance = some (k + 1) ∧ ∀ n, sink.capacity = some n → k + 1 ≤ n := by
  rcases chunk : sink.chunk with _ | _ | c
  · rcases room : sink.room with _ | _ | n <;> simp [allowance, capacity, chunk, room]
  · cases room : sink.room <;> simp [allowance, capacity, chunk, room]
  · rcases room : sink.room with _ | _ | n
    · simp [allowance, capacity, chunk, room]
    · simp [allowance, capacity, chunk, room]
    · have next : sink.allowance = some (min c n + 1) := by
        simp [allowance, chunk, room, Nat.add_min_add_right]
      have bound : sink.capacity = some (n + 1) := by simp [capacity, chunk, room]
      refine .inr (.inr ⟨min c n, next, ?_⟩)
      rw [bound]
      rintro _ ⟨⟩
      exact Nat.succ_le_succ (Nat.min_le_right c n)

theorem writeBytes_of_holds (h : sink.Holds data) :
    writeBytes data sink = ⟨.ok (), sink.accept data, []⟩ := by
  fun_induction writeBytes data sink with
  | case1 data sink empty =>
    obtain rfl := List.isEmpty_iff.1 empty
    rw [accept_nil]
  | case2 => rfl
  | case3 data sink some full =>
    rcases sink.allowance_cases with ⟨next, -⟩ | ⟨-, capacity⟩ | ⟨k, next, -⟩
    · simp [full] at next
    · have none := h 0 capacity
      simp_all
    · simp [full] at next
  | case4 data sink _ n _ ih =>
    have parts : sink.Holds (data.take (n + 1) ++ data.drop (n + 1)) := by
      rwa [List.take_append_drop]
    rw [ih (holds_append.1 parts).2, accept_accept, List.take_append_drop]

/-- Of bytes that are too many a sink takes the first, as many as it can, and then refuses. -/
theorem writeBytes_of_capacity {n : Nat} (bound : sink.capacity = some n)
    (less : n < data.length) :
    writeBytes data sink =
      ⟨.error (.io (refusalReason sink.refusal)), sink.accept (data.take n), []⟩ := by
  fun_induction writeBytes data sink generalizing n with
  | case1 data sink empty => simp [List.isEmpty_iff.1 empty] at less
  | case2 data sink _ unbounded =>
    rcases sink.allowance_cases with ⟨-, capacity⟩ | ⟨next, -⟩ | ⟨k, next, -⟩ <;> simp_all
  | case3 data sink _ full =>
    rcases sink.allowance_cases with ⟨next, -⟩ | ⟨-, capacity⟩ | ⟨k, next, -⟩
    · simp [full] at next
    · cases bound.symm.trans capacity
      simp
    · simp [full] at next
  | case4 data sink _ k next ih =>
    have within : k + 1 ≤ n := by
      rcases sink.allowance_cases with ⟨other, -⟩ | ⟨other, -⟩ | ⟨k', other, le⟩
      · simp [next] at other
      · simp [next] at other
      · cases next.symm.trans other
        exact le n bound
    have taken : (data.take (k + 1)).length = k + 1 := by simp; omega
    have left : (sink.accept (data.take (k + 1))).capacity = some (n - (k + 1)) := by
      rw [capacity_accept, bound, taken]
      rfl
    have whole : data.take n = data.take (k + 1) ++ (data.drop (k + 1)).take (n - (k + 1)) := by
      rw [← List.take_add, Nat.add_sub_cancel' within]
    rw [ih left (by rw [List.length_drop]; omega), accept_accept, whole]
    rfl

@[simp] theorem result_flush_accept (data : List UInt8) (sink : Sink) :
    (flush.run (sink.accept data)).result = (flush.run sink).result :=
  rfl

@[simp] theorem state_flush (sink : Sink) :
    (flush.run sink).state = { sink with flushes := sink.flushes + 1 } :=
  rfl

/-- The sink takes every text, and a flush does not fail. -/
structure NeverFails (sink : Sink) : Prop where
  write : ∀ text, ((write text).run sink).result = .ok ()
  flush : (flush.run sink).result = .ok ()

theorem NeverFails.capacity_eq_none (h : sink.NeverFails) : sink.capacity = none := by
  cases bound : sink.capacity with
  | none => rfl
  | some n =>
    -- One byte more than there is room for.
    let text := String.ofList (List.replicate (n + 1) 'a')
    have size : (Text.encodeUtf8 text).length = n + 1 := by
      have one : 'a'.utf8Size = 1 := rfl
      simp [text, Text.encodeUtf8_ofList, List.length_flatMap, one]
    have less : n < (Text.encodeUtf8 text).length := by omega
    have refused := writeBytes_of_capacity bound less
    have taken := h.write text
    simp [Sink.write, refused] at taken

theorem neverFails_iff :
    sink.NeverFails ↔ sink.room = none ∧ sink.chunk ≠ some 0 ∧ sink.flushFault = none := by
  constructor
  · intro h
    have unbounded := h.capacity_eq_none
    have flushed := h.flush
    refine ⟨?_, ?_, ?_⟩
    · unfold capacity at unbounded
      split at unbounded
      · cases unbounded
      · exact unbounded
    · intro chunk
      simp [capacity, chunk] at unbounded
    · cases fault : sink.flushFault with
      | none => rfl
      | some reason => simp [Sink.flush, fault] at flushed
  · rintro ⟨room, chunk, fault⟩
    have unbounded : sink.capacity = none := (capacity_eq_room chunk).trans room
    refine ⟨fun text => ?_, by simp [Sink.flush, fault]⟩
    have holds : sink.Holds (Text.encodeUtf8 text) := by simp [Holds, unbounded]
    simp [Sink.write, writeBytes_of_holds holds]

theorem neverFails_default : ({} : Sink).NeverFails :=
  neverFails_iff.2 ⟨rfl, by decide, rfl⟩

theorem NeverFails.holds (h : sink.NeverFails) (data : List UInt8) : sink.Holds data := by
  simp [Holds, h.capacity_eq_none]

end Sink

-- ---------------------------------------------------------------------------
-- Blocks one after another
-- ---------------------------------------------------------------------------

def Summary.countAll (total : Summary) (blocks : List Block) : Summary :=
  { total with
    blocks := total.blocks + blocks.length
    instructions := total.instructions + (blocks.map (·.instructions.length)).sum }

theorem Summary.countAll_cons (total : Summary) (block : Block) (blocks : List Block) :
    total.countAll (block :: blocks) = (total.count block).countAll blocks := by
  simp [countAll, count, Nat.add_assoc, Nat.add_comm 1]

namespace Report

variable {sink : Sink}

theorem after_after (a b : List Event) (report : Report Summary) :
    (report.after b).after a = report.after (a ++ b) := by
  simp [after]

theorem writing_of_holds {text : String} (h : sink.Holds (Text.encodeUtf8 text)) (cursor : Cursor)
    (events : List Event) (andThen : Sink → Report Summary) :
    writing text cursor sink events andThen =
      (andThen (sink.accept (Text.encodeUtf8 text))).after events := by
  simp [writing, Sink.write, Sink.writeBytes_of_holds h]

def lines (blocks : List Block) : List UInt8 :=
  Text.encodeUtf8 (String.join (blocks.map Block.listing))

theorem lines_cons (block : Block) (blocks : List Block) :
    lines (block :: blocks) = Text.encodeUtf8 block.listing ++ lines blocks := by
  simp [lines]

theorem listing_of_holds (finish : Summary → Sink → Report Summary) {ds : List Delivery}
    (h : sink.Holds (lines (ds.map Delivery.block))) (total : Summary) :
    listing finish ds total sink =
      (finish (total.countAll (ds.map Delivery.block))
        (sink.accept (lines (ds.map Delivery.block)))).after (ds.flatMap Delivery.events) := by
  induction ds generalizing total sink with
  | nil => simp [listing, Summary.countAll, after, lines]
  | cons d ds ih =>
    rw [List.map_cons, lines_cons] at h ⊢
    obtain ⟨first, others⟩ := Sink.holds_append.1 h
    rw [listing, writing_of_holds first, ih others, after_after, Summary.countAll_cons]
    simp

end Report

-- ---------------------------------------------------------------------------
-- Files
-- ---------------------------------------------------------------------------

namespace Reading

/-- The listing of what was read: nothing without a header, and all the blocks behind one. -/
def text (reading : Reading) (file : String) : String :=
  match reading.opening.result with
  | .ok header => header.listing file ++ String.join (reading.blocks.map Block.listing)
  | .error _ => ""

def summary (reading : Reading) : Summary where
  blocks := reading.blocks.length
  instructions := (reading.blocks.map (·.instructions.length)).sum
  bytes := reading.position

/-- What a listing of what was read comes to, in a sink that takes all of it. -/
def conclusion (reading : Reading) (sink : Sink) : Except ReadError Summary :=
  reading.outcome.bind fun _ => (Sink.flush.run sink).result.map fun _ => reading.summary

def filled (reading : Reading) (file : String) (sink : Sink) : Sink :=
  let written := sink.accept (Text.encodeUtf8 (reading.text file))
  match reading.outcome with
  | .ok () => { written with flushes := written.flushes + 1 }
  | .error _ => written

end Reading

theorem disassemble_of_holds {source : Source} {file : String} {policy : Policy} {sink : Sink}
    (h : sink.Holds (Text.encodeUtf8 ((Reading.ofSource policy source).text file))) :
    let reading := Reading.ofSource policy source
    disassemble source file policy sink =
      ⟨reading.conclusion sink, reading.cursor, reading.filled file sink, reading.allEvents⟩ := by
  intro reading
  rw [disassemble_eq_report]
  match started : Disassembly.start policy source with
  | ⟨.error e, c, events⟩ =>
    simp [reading, Reading.ofSource_of_start_error started, Reading.report, Reading.filled,
      Reading.text, Reading.allEvents, Reading.conclusion, Except.bind]
  | ⟨.ok walk, c, events⟩ =>
    rw [Reading.ofSource_of_start started, Reading.text, Text.encodeUtf8_append] at h
    obtain ⟨header, blocks⟩ := Sink.holds_append.1 h
    simp only [reading, Reading.ofSource_of_start started, Reading.report]
    rw [Report.writing_of_holds header, Report.listing_of_holds _ blocks]
    cases outcome : walk.tour.outcome <;>
      simp [Report.ending, Reading.filled, Reading.text, Reading.summary, Reading.allEvents,
        Reading.blocks, Reading.position, Reading.conclusion, Summary.countAll, Report.after,
        Report.lines, Except.bind]

theorem disassemble_of_neverFails (source : Source) (file : String) (policy : Policy)
    {sink : Sink} (h : sink.NeverFails) :
    let reading := Reading.ofSource policy source
    disassemble source file policy sink =
      ⟨reading.outcome.map fun _ => reading.summary, reading.cursor, reading.filled file sink,
        reading.allEvents⟩ := by
  intro reading
  rw [disassemble_of_holds (h.holds _), Reading.conclusion, h.flush]
  cases (Reading.ofSource policy source).outcome <;> rfl

theorem Reading.output_filled (reading : Reading) (file : String) (sink : Sink) :
    (reading.filled file sink).output = sink.output ++ Text.encodeUtf8 (reading.text file) := by
  unfold filled
  cases reading.outcome <;> exact Sink.output_accept ..

theorem listing_eq_text (data : List UInt8) (file : String) :
    let reading := Reading.ofSource {} (.ofBytes data)
    listing data file = reading.outcome.map fun _ => reading.text file := by
  intro reading
  have shown : Text.decodeLossy (reading.filled file {}).output = reading.text file := by
    rw [Reading.output_filled]
    exact Text.decodeLossy_encodeUtf8 _
  rw [listing, listingReport, disassemble_of_neverFails _ file {} Sink.neverFails_default]
  cases reading.outcome with
  | error e => rfl
  | ok => exact congrArg Except.ok shown

/-- Into a sink that never fails, the listing of a file is that of the header and the blocks
which reading it gives. An error of the reading is reported without a flush; a reading that
ends well is counted, and the sink flushed once. The count has all bytes of a source that
reports no end ahead of them. A file at hand as a whole is listed as that same text. -/
theorem disassemble_lists_reading (source : Source) (file : String) (policy : Policy)
    {sink : Sink} (h : sink.NeverFails) :
    let reading := Reading.ofSource policy source
    let report := disassemble source file policy sink
    report.sink.output = sink.output ++ Text.encodeUtf8 (reading.text file) ∧
    (∀ e, reading.outcome = .error e →
      report.result = .error e ∧ report.sink.flushes = sink.flushes) ∧
    (reading.outcome = .ok () →
      report.result = .ok reading.summary ∧ report.sink.flushes = sink.flushes + 1 ∧
        (Segment.endOfFile ∉ source → reading.summary.bytes = source.bytes.length)) ∧
    ∀ data, listing data file =
      (Reading.ofSource {} (.ofBytes data)).outcome.map fun _ =>
        (Reading.ofSource {} (.ofBytes data)).text file := by
  intro reading report
  have listed : report = _ := disassemble_of_neverFails source file policy h
  rw [listed]
  refine ⟨Reading.output_filled .., ?_, ?_, fun data => listing_eq_text data file⟩
  · intro e failed
    simp only [reading] at failed
    simp [failed, Except.map, Reading.filled, Sink.accept]
  · intro ended
    refine ⟨?_, ?_, fun endless => Reading.position_eq_length endless ended⟩
    · simp only [reading] at ended ⊢
      simp [ended, Except.map]
    · simp only [reading] at ended
      simp [ended, Reading.filled, Sink.accept]

/-- A file of one block, in a source that fails behind it; the sink takes three bytes at a time. -/
theorem disassemble_lists_reading_until_fault :
    let source : Source :=
      [.bytes [0, 0xE8, 0x03, 0, 0, 0x2E, 0, 2, 0, 0, 0, 0, 0, 0, 0, 0x04, 0x01],
        .fault ⟨.other, "gone"⟩]
    let sink : Sink := { chunk := some 3 }
    let report := disassemble source "f" {} sink
    sink.NeverFails ∧ report.result = .error (.io "gone") ∧ report.sink.flushes = 0 ∧
      report.sink.output = Text.encodeUtf8 "File: f\nVersion: 1000\n<<0>>\n  getl %ptr\n" := by
  intro source sink report
  have taking : sink.NeverFails := Sink.neverFails_iff.2 ⟨rfl, by decide, rfl⟩
  obtain ⟨written, failed, -, -⟩ := disassemble_lists_reading source "f" {} taking
  let fault : Segment := .fault ⟨.other, "gone"⟩
  let walk : Disassembly :=
    { policy := {}, header := { version := 1000 }
      cursor := ⟨[.bytes [2, 0, 0, 0, 0, 0, 0, 0, 0x04, 0x01], fault], 7⟩ }
  let block : Block := ⟨0, 7, 2, 2, [⟨.getl, [.register .ptr], rfl⟩]⟩
  obtain ⟨_, started⟩ :
      ∃ events, Disassembly.start {} source = ⟨.ok walk, walk.cursor, events⟩ := ⟨_, by cbv⟩
  obtain ⟨_, first⟩ :
      ∃ events, walk.readBlock = ⟨.ok (some block), ⟨[.bytes [], fault], 17⟩, events⟩ :=
    ⟨_, by cbv⟩
  have second : (walk.moved ⟨[.bytes [], fault], 17⟩).readBlock =
      ⟨.error (.io "gone"), ⟨[], 17⟩, []⟩ := by cbv
  have reading := Reading.ofSource_of_start started
  rw [Disassembly.tour_of_block rfl first, Disassembly.tour_of_error rfl second] at reading
  have lines : (Reading.ofSource {} source).text "f" =
      "File: f\nVersion: 1000\n<<0>>\n  getl %ptr\n" := by
    rw [reading]
    change walk.header.listing "f" ++ String.join ([block].map Block.listing) = _
    decide
  rw [lines] at written
  obtain ⟨result, unflushed⟩ := failed _ (by rw [reading]; rfl)
  exact ⟨taking, result, unflushed, written⟩

end Latitude
