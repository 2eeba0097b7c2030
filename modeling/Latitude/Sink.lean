import Latitude.Action
import Latitude.Text.Utf8

/-!
# Sinks

Where a listing goes. A sink may take only so many bytes at a time, and only so many
in all; a text is written piece by piece until all of it is taken or the sink takes no
more. What it has taken by then stays taken.
-/

namespace Latitude

/-- What a sink answers when it takes no more bytes. -/
inductive Refusal
  | fails (reason : String)
  /-- It reports no failure, and takes no byte. -/
  | takesNothing
  deriving DecidableEq

structure Sink where
  /-- The most bytes that it takes at a time, if there is a bound. -/
  chunk : Option Nat := none
  /-- The bytes that it still takes, if there is a bound. -/
  room : Option Nat := none
  refusal : Refusal := .takesNothing
  /-- Why a flush fails, if it does. -/
  flushFault : Option String := none
  /-- What it has taken, the latest byte first. -/
  taken : List UInt8 := []
  flushes : Nat := 0
  deriving DecidableEq

namespace Sink

def output (sink : Sink) : List UInt8 := sink.taken.reverse

/-- How many bytes the sink takes next, if there is a bound. -/
def allowance (sink : Sink) : Option Nat :=
  match sink.chunk, sink.room with
  | some chunk, some room => some (min chunk room)
  | some chunk, none => some chunk
  | none, room => room

def accept (data : List UInt8) (sink : Sink) : Sink :=
  { sink with
    room := sink.room.map (· - data.length)
    taken := data.reverseAux sink.taken }

@[simp] theorem output_accept (data : List UInt8) (sink : Sink) :
    (sink.accept data).output = sink.output ++ data := by
  simp [output, accept]

def refusalReason : Refusal → String
  | .fails reason => reason
  | .takesNothing => "failed to write whole buffer"

/-- Writes bytes, in as many pieces as the sink asks for. -/
def writeBytes (data : List UInt8) (sink : Sink) : Step Sink Unit :=
  if data.isEmpty then ⟨.ok (), sink, []⟩
  else match sink.allowance with
    | none => ⟨.ok (), sink.accept data, []⟩
    | some 0 => ⟨.error (.io (refusalReason sink.refusal)), sink, []⟩
    | some (n + 1) => writeBytes (data.drop (n + 1)) (sink.accept (data.take (n + 1)))
termination_by data.length
decreasing_by
  cases data with
  | nil => simp_all
  | cons b data =>
    rw [List.drop_succ_cons, List.length_drop, List.length_cons]
    exact Nat.lt_succ_of_le (Nat.sub_le _ _)

def write (text : String) : Action Sink Unit := ⟨writeBytes (Text.encodeUtf8 text)⟩

def flush : Action Sink Unit := ⟨fun sink =>
  let result := match sink.flushFault with
    | none => .ok ()
    | some reason => .error (.io reason)
  ⟨result, { sink with flushes := sink.flushes + 1 }, []⟩⟩

end Sink

end Latitude
