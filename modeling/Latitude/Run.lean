import Latitude.Disassembly
import Latitude.Listing
import Latitude.Sink

/-!
# Listing a file

`disassemble` walks through a file and writes the listing as it goes, so the listing of
all that was read before an error is in the sink. The sink is flushed once, after the
last block of a file that was read to its end.
-/

namespace Latitude

structure Run where
  walk : Disassembly
  sink : Sink

namespace Run

def remaining (run : Run) : Nat := run.walk.remaining

def onWalk (m : Action Disassembly α) : Action Run α := ⟨fun run =>
  let step := m.run run.walk
  ⟨step.result, { run with walk := step.state }, step.events⟩⟩

def onSink (m : Action Sink α) : Action Run α := ⟨fun run =>
  let step := m.run run.sink
  ⟨step.result, { run with sink := step.state }, step.events⟩⟩

def finish (total : Summary) : Action Run Summary := do
  onSink Sink.flush
  let bytes ← Action.view (·.walk.position)
  return { total with bytes }

/-- Lists one more block, or finishes. `total` counts what was listed. -/
def round (total : Summary) : Action Run (Round Summary Summary) := do
  match ← onWalk Disassembly.nextBlock with
  | some block =>
    onSink (Sink.write block.listing)
    return .again { total with
      blocks := total.blocks + 1
      instructions := total.instructions + block.instructions.length }
  | none => return .done (← finish total)

theorem onSink_neverGrows (m : Action Sink α) : Action.NeverGrows remaining (onSink m) :=
  fun _ => Nat.le_refl _

theorem round_advances (total : Summary) : Action.Advances remaining (round total) := by
  intro run next h
  unfold round at h ⊢
  cases hn : ((onWalk Disassembly.nextBlock).run run).result with
  | error e => rw [Action.run_bind_error hn] at h; cases h
  | ok found =>
    rw [Action.run_bind_ok hn] at h ⊢
    cases found with
    | some block =>
      exact Nat.lt_of_le_of_lt
        ((onSink_neverGrows _).bind (fun _ => .pure _) _)
        (Disassembly.remaining_advance_lt hn)
    | none => exact absurd h (Action.result_bind_done_ne_again _ _ _)

def listBlocks : Action Run Summary :=
  Action.loop remaining round round_advances {}

def list (file : String) : Action Run Summary := do
  let header ← Action.view (·.walk.header)
  onSink (Sink.write (header.listing file))
  listBlocks

end Run

/-- What has become of listing a file: a value or an error, where the reading has got to,
the sink, and the events on the way. -/
structure Report (α : Type) where
  result : Except ReadError α
  cursor : Cursor
  sink : Sink
  events : List Event

/-- Lists a file into a sink, under the name `file`. -/
def disassemble (source : Source) (file : String) (policy : Policy) (sink : Sink) :
    Report Summary :=
  let opened := Disassembly.start policy source
  match opened.result with
  | .error e => ⟨.error e, opened.state, sink, opened.events⟩
  | .ok walk =>
    let step := (Run.list file).run { walk, sink }
    ⟨step.result, step.state.walk.cursor, step.state.sink, opened.events ++ step.events⟩

/-- The listing of a file that is at hand as a whole, under the default policy. What the sink
holds is shown as a text, whether or not it spells one. -/
def listingReport (data : List UInt8) (file : String) : Report String :=
  let report := disassemble (.ofBytes data) file {} {}
  { report with
    result := report.result.map fun _ => Text.decodeLossy report.sink.output }

def listing (data : List UInt8) (file : String) : Except ReadError String :=
  (listingReport data file).result

end Latitude
