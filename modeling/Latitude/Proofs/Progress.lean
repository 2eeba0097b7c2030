import Mathlib.Algebra.Ring.Nat
import Latitude.Proofs.Concatenation
import Latitude.Proofs.Refusals
import Latitude.Proofs.Rounds

/-!
# Progress

A header takes at least seven bytes, a block eight and one more for each of its instructions.
So the bytes of a source bound how much can be decoded from it, whatever the lengths of its
blocks claim: what is counted in the end, and also what is decoded for nothing in a block that
breaks off or behind a sink that is full.
-/

namespace Latitude

open Latitude.Action (EndsWithin)

-- ---------------------------------------------------------------------------
-- Instructions in a log
-- ---------------------------------------------------------------------------

def Event.isInstruction : Event → Bool
  | .instructionDecoded .. => true
  | _ => false

def decodedCount (events : List Event) : Nat := events.countP Event.isInstruction

@[simp] theorem decodedCount_nil : decodedCount [] = 0 := rfl

@[simp] theorem decodedCount_append (events more : List Event) :
    decodedCount (events ++ more) = decodedCount events + decodedCount more :=
  List.countP_append

theorem decodedCount_told (events : List Event) :
    decodedCount (told events) = decodedCount events := by
  rw [decodedCount, told, List.countP_filter]
  refine List.countP_congr fun event _ => ?_
  cases event <;> simp [Event.isInstruction, Event.isNotice]

theorem decodedCount_le_of_isPrefix {events more : List Event} (h : events <+: more) :
    decodedCount events ≤ decodedCount more :=
  h.sublist.countP_le

namespace SpelledBlock

@[simp] theorem decodedCount_decodedFrom (is : List SpelledInstruction) (offset : Nat) :
    decodedCount (decodedFrom offset is) = is.length := by
  induction is generalizing offset with
  | nil => rfl
  | cons i is ih =>
    have others := ih (offset + i.bytes.length)
    simpa [decodedFrom, decodedCount, List.countP_cons, Event.isInstruction] using others

@[simp] theorem decodedCount_log (b : SpelledBlock) (index offset : Nat) :
    decodedCount (b.log index offset) = b.instructions.length :=
  decodedCount_decodedFrom b.instructions _

theorem decodedCount_logFrom_cons (b : SpelledBlock) (bs : List SpelledBlock)
    (index offset : Nat) :
    decodedCount (logFrom (b :: bs) index offset) =
      b.instructions.length +
        decodedCount (logFrom bs (index + 1) (offset + b.bytes.length)) := by
  have warning : decodedCount (if (b.block index offset).overrun = 0 then []
      else [.blockOverran index b.declared b.body.length]) = 0 := by
    split <;> rfl
  simp [logFrom, warning]

theorem decodedCount_logFrom_le (bs : List SpelledBlock) (index offset : Nat) :
    8 * bs.length + decodedCount (logFrom bs index offset) ≤ (bs.flatMap bytes).length := by
  induction bs generalizing index offset with
  | nil => exact Nat.le_refl 0
  | cons b bs ih =>
    have first : 8 + b.instructions.length ≤ b.bytes.length := b.length_bytes_ge
    have others := ih (index + 1) (offset + b.bytes.length)
    rw [decodedCount_logFrom_cons, List.flatMap_cons, List.length_cons, List.length_append]
    omega

theorem sum_instructions_blocksFrom (bs : List SpelledBlock) (index offset : Nat) :
    ((blocksFrom bs index offset).map (·.instructions.length)).sum =
      decodedCount (logFrom bs index offset) := by
  induction bs generalizing index offset with
  | nil => rfl
  | cons b bs ih => simp [blocksFrom, decodedCount_logFrom_cons, ih, block]

end SpelledBlock

-- ---------------------------------------------------------------------------
-- Readings
-- ---------------------------------------------------------------------------

theorem Reader.BreaksOff.position_le {index : Nat} {c c' : Cursor} {events : List Event}
    (h : BreaksOff index c c' events) : c.position + decodedCount events ≤ c'.position := by
  rw [← decodedCount_told]
  cases h with
  | length w took short quiet =>
    rw [took.position, quiet]
    exact Nat.le_add_right ..
  | body s cut took cutOff log =>
    have least := s.length_bytes_ge
    rw [took.position, log, SpelledBlock.decodedCount_log, List.length_append]
    omega

namespace Reading

/-- Behind a header, the bytes that are taken bound the blocks that are given and the
instructions that are decoded, given or not. -/
theorem position_ge {source : Source} {h : Header} {c : Cursor} {events : List Event}
    (read : Reader.header.run { source } = ⟨.ok h, c, events⟩) (policy : Policy) :
    let reading := ofSource policy source
    7 + 8 * reading.summary.blocks + decodedCount reading.allEvents ≤ reading.position ∧
      reading.summary.instructions ≤ decodedCount reading.allEvents := by
  intro reading
  obtain ⟨first, -, bs, c', took', blocks, log, breaksOff⟩ := accounts read policy
  obtain ⟨head, took, rfl, rfl⟩ := Reader.header_accounts_ok read
  have count : decodedCount reading.allEvents =
      decodedCount (SpelledBlock.logFrom bs 0 c.position) + decodedCount reading.events := by
    have opening : decodedCount (head.events 0) = 0 := by
      rw [← decodedCount_told, head.told_events]
      rfl
    rw [allEvents, decodedCount_append, decodedCount_append, first, opening, Nat.zero_add,
      ← log, decodedCount_told]
  have given : reading.summary.blocks = bs.length := by
    rw [summary, blocks, SpelledBlock.length_blocksFrom]
  have sum : reading.summary.instructions =
      decodedCount (SpelledBlock.logFrom bs 0 c.position) := by
    rw [summary, blocks, SpelledBlock.sum_instructions_blocksFrom]
  have header := head.seven_le_length_bytes
  have body := SpelledBlock.decodedCount_logFrom_le bs 0 c.position
  have rest := breaksOff.position_le
  have edge : c'.position = head.bytes.length + (bs.flatMap SpelledBlock.bytes).length :=
    took'.position.trans (by rw [took.position, Nat.zero_add])
  change c'.position + decodedCount reading.events ≤ reading.position at rest
  omega

theorem decodedCount_allEvents_le (policy : Policy) (source : Source) :
    decodedCount (ofSource policy source).allEvents ≤ source.bytes.length := by
  have reach := reach_eq policy source
  match read : Reader.header.run { source } with
  | ⟨.error e, c, events⟩ =>
    have quiet := Reader.header_failsQuietly { source } e (by rw [read])
    rw [read] at quiet
    rw [ofSource_of_start_error (Disassembly.start_of_header_error read policy),
      ← decodedCount_told]
    simp [allEvents, quiet]
  | ⟨.ok h, c, events⟩ =>
    obtain ⟨taken, -⟩ := position_ge read policy
    simp only [Cursor.reach, position] at reach taken
    omega

theorem summary_le {policy : Policy} {source : Source}
    (ended : (ofSource policy source).outcome = .ok ()) :
    let total := (ofSource policy source).summary
    7 + 8 * total.blocks + total.instructions ≤ total.bytes := by
  intro total
  match read : Reader.header.run { source } with
  | ⟨.error e, c, events⟩ =>
    rw [ofSource_of_start_error (Disassembly.start_of_header_error read policy)] at ended
    cases ended
  | ⟨.ok h, c, events⟩ =>
    obtain ⟨taken, counted⟩ := position_ge read policy
    exact Nat.le_trans (Nat.add_le_add_left counted _) taken

end Reading

-- ---------------------------------------------------------------------------
-- Reports
-- ---------------------------------------------------------------------------

namespace Report

theorem events_writing_isPrefix {text : String} {cursor : Cursor} {sink : Sink}
    {events more : List Event} {andThen : Sink → Report Summary}
    (others : ∀ sink, (andThen sink).events <+: more) :
    (writing text cursor sink events andThen).events <+: events ++ more := by
  rcases Sink.write_cases text sink with ⟨next, run⟩ | ⟨e, next, run⟩
  · simpa [writing, run, after] using others next
  · simp [writing, run]

theorem events_listing_isPrefix {finish : Summary → Sink → Report Summary} {more : List Event}
    (last : ∀ total sink, (finish total sink).events <+: more) (ds : List Delivery)
    (total : Summary) (sink : Sink) :
    (listing finish ds total sink).events <+: ds.flatMap Delivery.events ++ more := by
  induction ds generalizing total sink with
  | nil => exact last total sink
  | cons d ds ih =>
    rw [List.flatMap_cons, List.append_assoc]
    exact events_writing_isPrefix fun sink => ih _ sink

end Report

theorem disassemble_events_isPrefix (source : Source) (file : String) (policy : Policy)
    (sink : Sink) :
    (disassemble source file policy sink).events <+:
      (Reading.ofSource policy source).allEvents := by
  rw [disassemble_eq_report]
  match started : Disassembly.start policy source with
  | ⟨.error e, c, events⟩ =>
    simp [Reading.ofSource_of_start_error started, Reading.report, Reading.allEvents]
  | ⟨.ok walk, c, events⟩ =>
    simp only [Reading.ofSource_of_start started, Reading.report, Reading.allEvents,
      List.append_assoc]
    refine Report.events_writing_isPrefix (Report.events_listing_isPrefix ?_ _ {})
    intro total sink
    cases outcome : walk.tour.outcome <;> simp [Report.ending]

/-- Every loop is through after finitely many rounds, whatever the source answers and whatever
length a block declares, and each round ahead of the last has used up an interruption or taken
its least number of bytes. So the bytes of a file pay for all that is counted in it, and those
of a source for all that is decoded from it, also if that ends in an error. -/
theorem reading_ends_within_bytes (c : Cursor) (run : Run) (source : Source) (file : String)
    (policy : Policy) (sink : Sink) :
    let report := disassemble source file policy sink
    EndsWithin Cursor.segments 1 Reader.looking () c (Reader.isExhausted.run c) ∧
    EndsWithin Cursor.remaining 1 Reader.stringRound [] c (Reader.stringBytes.run c) ∧
    (∀ header, EndsWithin Cursor.remaining 4 Reader.headerRound header c
      ((Reader.headerFields header).run c)) ∧
    (∀ stop, EndsWithin Cursor.remaining 1 (Reader.blockRound stop) [] c
      ((Reader.instructionsUpTo stop).run c)) ∧
    EndsWithin Run.remaining 8 Run.round {} run (Run.listBlocks.run run) ∧
    (∀ header next, ((Reader.headerRound header).run c).result = .ok (.again next) →
      c.TookAtLeast 4 ((Reader.headerRound header).run c).state) ∧
    (∀ i, (Reader.instruction.run c).result = .ok i →
      c.TookAtLeast 1 (Reader.instruction.run c).state) ∧
    (∀ index boundary b, ((Reader.block index boundary).run c).result = .ok (some b) →
      c.TookAtLeast (8 + b.instructions.length) ((Reader.block index boundary).run c).state) ∧
    (∀ header, (Reader.header.run c).result = .ok header →
      c.TookAtLeast 7 (Reader.header.run c).state) ∧
    (∀ total, report.result = .ok total →
      7 + 8 * total.blocks + total.instructions ≤ total.bytes) ∧
    decodedCount report.events ≤ source.bytes.length := by
  intro report
  refine ⟨Reader.isExhausted_endsWithin c, Reader.stringBytes_endsWithin c,
    (Reader.headerFields_endsWithin · c), (Reader.instructionsUpTo_endsWithin · c),
    Run.listBlocks_endsWithin run, fun _ _ => Reader.headerRound_tookAtLeast,
    fun _ => Reader.instruction_tookAtLeast, fun _ _ _ => Reader.block_tookAtLeast,
    fun _ => Reader.header_tookAtLeast, ?_, ?_⟩
  · intro total ok
    obtain ⟨ended, rfl, -⟩ := disassemble_ok ok
    exact Reading.summary_le ended
  · calc decodedCount report.events
      _ ≤ decodedCount (Reading.ofSource policy source).allEvents :=
        decodedCount_le_of_isPrefix (disassemble_events_isPrefix source file policy sink)
      _ ≤ source.bytes.length := Reading.decodedCount_allEvents_le policy source

/-- A file of no more bytes than it needs, and a block that declares the greatest length of all,
in a source that is interrupted in its midst. -/
theorem reading_ends_within_bytes_declaring_most :
    let least : List UInt8 := [0, 0xE8, 0x03, 0, 0, 0x2E, 0, 1, 0, 0, 0, 0, 0, 0, 0, 0x11]
    let rest : Source :=
      [.fault ⟨.interrupted, "signal"⟩,
        .bytes [0xFF, 0xFF, 0xFF, 0xFF, 0xFF, 0xFF, 0xFF, 0xFF, 0x11],
        .fault ⟨.interrupted, "signal"⟩, .bytes [0x11]]
    let broken : Source := .bytes [0, 0xE8, 0x03, 0, 0, 0x2E, 0] :: rest
    let behind : Cursor := ⟨rest, 7⟩
    let report := disassemble broken "f" {} {}
    (disassemble (.ofBytes least) "f" {} {}).result = .ok ⟨1, 1, 16⟩ ∧ 7 + 8 * 1 + 1 ≤ 16 ∧
    EndsWithin Cursor.segments 1 Reader.looking () behind (Reader.isExhausted.run behind) ∧
    report.result = .error (.endOfStream 17) ∧ decodedCount report.events = 2 ∧
    decodedCount report.events ≤ broken.bytes.length := by
  intro least rest broken behind report
  let walk (source : Source) : Disassembly :=
    { policy := {}, header := { version := 1000 }, cursor := ⟨source, 7⟩ }
  have ok : (disassemble (.ofBytes least) "f" {} {}).result = .ok ⟨1, 1, 16⟩ := by
    have started : Disassembly.start {} (.ofBytes least) =
        ⟨.ok (walk (.ofBytes (least.drop 7))), .over (least.drop 7) 7,
          [.headerDecoded { version := 1000 }]⟩ := by cbv
    have first : (walk (.ofBytes (least.drop 7))).readBlock =
        ⟨.ok (some ⟨0, 7, 1, 1, [⟨.ret, [], rfl⟩]⟩), .over [] 16,
          [.blockStarted 0 7 1, .instructionDecoded 15 .ret 0]⟩ := by cbv
    have last : ((walk (.ofBytes (least.drop 7))).moved (.over [] 16)).readBlock =
        ⟨.ok none, ⟨[], 16⟩, []⟩ := by cbv
    rw [disassemble_of_neverFails _ _ _ Sink.neverFails_default, Reading.ofSource_of_start started,
      Disassembly.tour_of_block rfl first, Disassembly.tour_of_end rfl last]
    rfl
  have started : Disassembly.start {} broken =
      ⟨.ok (walk (.bytes [] :: rest)), ⟨.bytes [] :: rest, 7⟩,
        [.headerDecoded { version := 1000 }]⟩ := by cbv
  have first : (walk (.bytes [] :: rest)).readBlock =
      ⟨.error (.endOfStream 17), ⟨[], 17⟩,
        [.blockStarted 0 7 0xFFFFFFFFFFFFFFFF, .instructionDecoded 15 .ret 0,
          .instructionDecoded 16 .ret 0]⟩ := by cbv
  have reading := Reading.ofSource_of_start started
  rw [Disassembly.tour_of_error rfl first] at reading
  have listed : report = _ := disassemble_of_neverFails broken "f" {} Sink.neverFails_default
  rw [reading] at listed
  obtain ⟨looked, -, -, -, -, -, -, -, -, -, bound⟩ :=
    reading_ends_within_bytes behind ⟨walk [], {}⟩ broken "f" {} {}
  obtain ⟨-, -, -, -, -, -, -, -, -, counted, -⟩ :=
    reading_ends_within_bytes behind ⟨walk [], {}⟩ (.ofBytes least) "f" {} {}
  exact ⟨ok, counted _ ok, looked, by rw [listed]; rfl, by rw [listed]; rfl, bound⟩

end Latitude
