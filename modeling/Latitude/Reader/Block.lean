import Latitude.Block
import Latitude.Policy
import Latitude.Reader.Instruction

/-!
# Reading blocks

A block is the length of its instructions in eight bytes, then the instructions. The
length is looked at between instructions only, so the last one may run past it.
-/

namespace Latitude.Reader

def lengthWidth : Nat := 8

/-- No block ends beyond this offset, whatever length it declares. -/
def maxOffset : Nat := 0xFFFFFFFFFFFFFFFF

/-- Reads one more instruction if the cursor stands before `stop`. `seen` are the
instructions so far, the latest first. -/
def blockRound (stop : Nat) (seen : List Instruction) :
    Reader (Round (List Instruction) (List Instruction)) := do
  let offset ← position
  if offset < stop then return .again ((← instruction) :: seen)
  else return .done seen.reverse

theorem blockRound_advances (stop : Nat) (seen : List Instruction) :
    Action.Advances Cursor.remaining (blockRound stop seen) := by
  refine position_neverGrows.bind_advances fun offset => ?_
  split
  · exact (instruction_consumes.bind fun _ => .pure _).advances
  · exact .done _

def instructionsUpTo (stop : Nat) : Reader (List Instruction) :=
  Action.loop Cursor.remaining (blockRound stop) (blockRound_advances stop) []

def settle (boundary : Boundary) (block : Block) : Reader Unit :=
  if block.overrun = 0 then pure ()
  else match boundary with
    | .lax => Action.emit (.blockOverran block.index block.declared block.consumed)
    | .strict => Action.fail (.blockOverrun block.index block.declared block.consumed)

def presentBlock (index : Nat) (boundary : Boundary) : Reader Block := do
  let offset ← position
  let length ← unsigned lengthWidth
  let declared := length.toNat
  let start ← position
  Action.emit (.blockStarted index offset declared)
  let instructions ← instructionsUpTo (min (start + declared) maxOffset)
  let stop ← position
  let block := { index, offset, declared, consumed := stop - start, instructions }
  settle boundary block
  return block

theorem settle_neverGrows (boundary : Boundary) (block : Block) :
    Action.NeverGrows Cursor.remaining (settle boundary block) := by
  unfold settle
  split
  · exact .pure _
  · cases boundary
    · exact .emit _
    · exact .fail _

theorem instructionsUpTo_neverGrows (stop : Nat) :
    Action.NeverGrows Cursor.remaining (instructionsUpTo stop) := by
  refine .loop (fun seen => position_neverGrows.bind fun offset => ?_) []
  split
  · exact instruction_consumes.neverGrows.bind fun _ => .pure _
  · exact .pure _

theorem presentBlock_consumes (index : Nat) (boundary : Boundary) :
    Action.Consumes Cursor.remaining (presentBlock index boundary) :=
  position_neverGrows.bind_consumes fun _ => (unsigned_consumes (by decide)).bind fun _ =>
    position_neverGrows.bind fun _ => (Action.NeverGrows.emit _).bind fun _ =>
      (instructionsUpTo_neverGrows _).bind fun _ => position_neverGrows.bind fun _ =>
        (settle_neverGrows _ _).bind fun _ => .pure _

/-- The next block, or nothing where the source ends ahead of it. -/
def block (index : Nat) (boundary : Boundary) : Reader (Option Block) := do
  if ← isExhausted then return none
  else return some (← presentBlock index boundary)

theorem remaining_block_lt {index : Nat} {boundary : Boundary} {c : Cursor} {b : Block}
    (h : ((block index boundary).run c).result = .ok (some b)) :
    ((block index boundary).run c).state.remaining < c.remaining := by
  unfold block at h ⊢
  have le := isExhausted_neverGrows c
  cases he : (isExhausted.run c).result with
  | error e => rw [Action.run_bind_error he] at h; cases h
  | ok exhausted =>
    rw [Action.run_bind_ok he] at h ⊢
    cases exhausted with
    | true => cases h
    | false =>
      have lt := ((presentBlock_consumes index boundary).bind
        fun b => Action.NeverGrows.pure (some b)).lt (isExhausted.run c).state (some b) h
      exact Nat.lt_of_lt_of_le lt le

end Latitude.Reader
