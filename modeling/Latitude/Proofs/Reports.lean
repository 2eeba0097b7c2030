import Latitude.Proofs.Tour
import Latitude.Run

/-!
# A report is made from a reading

`disassemble` reads and writes by turns. `disassemble_eq_report`: what it reports is what
comes of reading first and writing afterwards, block by block, until the sink takes no
more. So two policies that read a source alike list it alike, into every sink.
-/

namespace Latitude

-- ---------------------------------------------------------------------------
-- Sinks report no events
-- ---------------------------------------------------------------------------

theorem Sink.events_writeBytes (data : List UInt8) (sink : Sink) :
    (Sink.writeBytes data sink).events = [] := by
  fun_induction Sink.writeBytes data sink <;> simp_all

theorem Sink.write_cases (text : String) (sink : Sink) :
    (∃ next, (Sink.write text).run sink = ⟨.ok (), next, []⟩) ∨
      ∃ e next, (Sink.write text).run sink = ⟨.error e, next, []⟩ := by
  have quiet : ((Sink.write text).run sink).events = [] := Sink.events_writeBytes ..
  match run : (Sink.write text).run sink with
  | ⟨.ok (), next, events⟩ => rw [run] at quiet; exact .inl ⟨next, by simp_all⟩
  | ⟨.error e, next, events⟩ => rw [run] at quiet; exact .inr ⟨e, next, by simp_all⟩

-- ---------------------------------------------------------------------------
-- Blocks
-- ---------------------------------------------------------------------------

def Summary.count (total : Summary) (block : Block) : Summary :=
  { total with
    blocks := total.blocks + 1
    instructions := total.instructions + block.instructions.length }

namespace Report

def after {α : Type} (earlier : List Event) (report : Report α) : Report α :=
  { report with events := earlier ++ report.events }

/-- The end of a listing: the error that ended the reading, or a flush. -/
def ending (outcome : Except ReadError Unit) (cursor : Cursor) (events : List Event)
    (total : Summary) (sink : Sink) : Report Summary :=
  match outcome with
  | .error e => ⟨.error e, cursor, sink, events⟩
  | .ok () =>
    let step := Sink.flush.run sink
    ⟨step.result.map fun _ => { total with bytes := cursor.position }, cursor, step.state, events⟩

/-- Writes a text. If the sink refuses it the listing ends there, with the reading at `cursor`. -/
def writing (text : String) (cursor : Cursor) (sink : Sink) (events : List Event)
    (andThen : Sink → Report Summary) : Report Summary :=
  let step := (Sink.write text).run sink
  match step.result with
  | .error e => ⟨.error e, cursor, step.state, events⟩
  | .ok () => (andThen step.state).after events

theorem after_writing (text : String) (cursor : Cursor) (sink : Sink) (events : List Event)
    (andThen : Sink → Report Summary) :
    (writing text cursor sink [] andThen).after events =
      writing text cursor sink events andThen := by
  rcases Sink.write_cases text sink with ⟨next, run⟩ | ⟨e, next, run⟩
  · simp [writing, run, after]
  · simp [writing, run, after]

def listing (finish : Summary → Sink → Report Summary) :
    List Delivery → Summary → Sink → Report Summary
  | [], total, sink => finish total sink
  | d :: ds, total, sink =>
    writing d.block.listing d.cursor sink d.events (listing finish ds (total.count d.block))

end Report

def Reading.report (reading : Reading) (file : String) (sink : Sink) : Report Summary :=
  match reading.opening.result with
  | .error e => ⟨.error e, reading.cursor, sink, reading.opening.events⟩
  | .ok header =>
    .writing (header.listing file) reading.opening.state sink reading.opening.events
      (.listing (.ending reading.outcome reading.cursor reading.events) reading.deliveries {})

namespace Run

def toReport (step : Step Run Summary) : Report Summary :=
  ⟨step.result, step.state.walk.cursor, step.state.sink, step.events⟩

theorem toReport_after (earlier : List Event) (step : Step Run Summary) :
    toReport (step.after earlier) = (toReport step).after earlier := rfl

variable {walk next : Disassembly} {events : List Event} {block : Block} {e : ReadError}

theorem toReport_write (text : String) (walk : Disassembly) (sink : Sink)
    (more : Unit → Action Run Summary) :
    toReport ((onSink (Sink.write text) >>= more).run ⟨walk, sink⟩) =
      .writing text walk.cursor sink [] fun sink => toReport ((more ()).run ⟨walk, sink⟩) := by
  rcases Sink.write_cases text sink with ⟨next, run⟩ | ⟨e, next, run⟩
  · simp [Action.run_bind, onSink, Report.writing, run]
    rfl
  · simp [Action.run_bind, onSink, Report.writing, run, toReport]

def listRest (total : Summary) : Action Run Summary :=
  Action.loop remaining round round_advances total

theorem listRest_of_block (h : walk.advance = ⟨.ok (some block), next, events⟩)
    (total : Summary) (sink : Sink) :
    (listRest total).run ⟨walk, sink⟩ =
      ((onSink (Sink.write block.listing) >>= fun _ => listRest (total.count block)).run
        ⟨next, sink⟩).after events := by
  have read : (onWalk Disassembly.nextBlock).run ⟨walk, sink⟩ =
      ⟨.ok (some block), ⟨next, sink⟩, events⟩ := by
    simp [onWalk, Disassembly.nextBlock, h]
  rw [listRest, Action.loop_eq, round, Action.bind_assoc, Action.run_bind_ok (by rw [read]), read,
    Action.bind_assoc]
  rfl

theorem listRest_of_end (h : walk.advance = ⟨.ok none, next, events⟩) (total : Summary)
    (sink : Sink) :
    toReport ((listRest total).run ⟨walk, sink⟩) =
      .ending (.ok ()) next.cursor events total sink := by
  have read : (onWalk Disassembly.nextBlock).run ⟨walk, sink⟩ =
      ⟨.ok none, ⟨next, sink⟩, events⟩ := by
    simp [onWalk, Disassembly.nextBlock, h]
  rw [listRest, Action.loop_eq, round, Action.bind_assoc, Action.run_bind_ok (by rw [read]), read]
  cases fault : sink.flushFault with
  | none =>
    simp [finish, onSink, Sink.flush, Action.run_bind, Action.run_pure, Action.view, fault,
      toReport, Report.ending, Step.after, Except.map]
    rfl
  | some reason =>
    simp [finish, onSink, Sink.flush, Action.run_bind, fault, toReport, Report.ending,
      Step.after, Except.map]

theorem listRest_of_error (h : walk.advance = ⟨.error e, next, events⟩) (total : Summary)
    (sink : Sink) :
    toReport ((listRest total).run ⟨walk, sink⟩) =
      .ending (.error e) next.cursor events total sink := by
  have read : (onWalk Disassembly.nextBlock).run ⟨walk, sink⟩ =
      ⟨.error e, ⟨next, sink⟩, events⟩ := by
    simp [onWalk, Disassembly.nextBlock, h]
  rw [listRest, Action.loop_eq, round, Action.bind_assoc, Action.run_bind_error (by rw [read]),
    read]
  rfl

theorem toReport_listRest (unfinished : walk.finished = false) (total : Summary) (sink : Sink) :
    toReport ((listRest total).run ⟨walk, sink⟩) =
      .listing (.ending walk.tour.outcome walk.tour.last.cursor walk.tour.events)
        walk.tour.deliveries total sink := by
  refine Disassembly.tour_induction (P := fun walk tour => ∀ total sink,
    toReport ((listRest total).run ⟨walk, sink⟩) =
      .listing (.ending tour.outcome tour.last.cursor tour.events) tour.deliveries total sink)
    ?_ ?_ ?_ walk unfinished total sink
  · intro walk c events unfinished read total sink
    exact listRest_of_end (Disassembly.advance_of_end unfinished read) total sink
  · intro walk c events e unfinished read total sink
    exact listRest_of_error (Disassembly.advance_of_error unfinished read) total sink
  · intro walk c events block unfinished read ih total sink
    rw [listRest_of_block (Disassembly.advance_of_block unfinished read), toReport_after,
      toReport_write, Report.after_writing]
    simp only [ih]
    rfl

end Run

/-- Reading and writing by turns reports what reading first and writing afterwards does. -/
theorem disassemble_eq_report (source : Source) (file : String) (policy : Policy) (sink : Sink) :
    disassemble source file policy sink = (Reading.ofSource policy source).report file sink := by
  match started : Disassembly.start policy source with
  | ⟨.error e, c, events⟩ =>
    rw [Reading.ofSource_of_start_error started]
    simp [disassemble, started, Reading.report]
  | ⟨.ok walk, c, events⟩ =>
    have fresh := Disassembly.eq_of_start started
    have cursor : walk.cursor = c := by rw [fresh]
    have unfinished : walk.finished = false := by rw [fresh]
    have rest := Run.toReport_listRest unfinished {}
    have whole := Run.toReport_write (walk.header.listing file) walk sink fun _ => Run.listRest {}
    rw [cursor] at whole
    simp only [rest] at whole
    rw [Reading.ofSource_of_start started]
    simp only [disassemble, started, Reading.report]
    rw [← Report.after_writing, ← whole]
    rfl

end Latitude
