import Latitude.Reader.Block
import Latitude.Reader.Header

/-!
# Walking through a file

A disassembly starts with the header, whose version must be the expected one, and then
gives block after block. The end of the file or an error ends it for good: whatever is
asked of it afterwards, it answers that there is nothing more and leaves the source
alone.
-/

namespace Latitude

structure Disassembly where
  policy : Policy
  header : Header
  cursor : Cursor
  nextIndex : Nat := 0
  finished : Bool := false

namespace Disassembly

def position (walk : Disassembly) : Nat := walk.cursor.position

def remaining (walk : Disassembly) : Nat := walk.cursor.remaining

def acceptedHeader (policy : Policy) : Reader Header := do
  let header ← Reader.header
  if header.version = policy.expectedVersion then return header
  else Action.fail (.versionMismatch policy.expectedVersion header.version)

def start (policy : Policy) (source : Source) : Step Cursor Disassembly :=
  let step := (acceptedHeader policy).run { source }
  { step with result := step.result.map fun header => { policy, header, cursor := step.state } }

/-- Reads the next block, unless the walk is over. -/
def advance (walk : Disassembly) : Step Disassembly (Option Block) :=
  if walk.finished then ⟨.ok none, walk, []⟩
  else
    let step := (Reader.block walk.nextIndex walk.policy.boundary).run walk.cursor
    match step.result with
    | .ok (some block) =>
      ⟨.ok (some block), { walk with cursor := step.state, nextIndex := walk.nextIndex + 1 },
        step.events⟩
    | result => ⟨result, { walk with cursor := step.state, finished := true }, step.events⟩

def nextBlock : Action Disassembly (Option Block) := ⟨advance⟩

/-- What `nextBlock` gives, seen as an item of a sequence: a block, the error in the place
of one, or nothing once the sequence is over. -/
def item? : Except ReadError (Option Block) → Option (Except ReadError Block)
  | .ok (some block) => some (.ok block)
  | .ok none => none
  | .error e => some (.error e)

/-- Asks for one more block. `seen` are the blocks so far, the latest first. -/
def collectRound (seen : List Block) :
    Action Disassembly (Round (List Block) (List Block)) := do
  match ← nextBlock with
  | some block => return .again (block :: seen)
  | none => return .done seen.reverse

theorem remaining_advance_lt {walk : Disassembly} {block : Block}
    (h : walk.advance.result = .ok (some block)) :
    walk.advance.state.remaining < walk.remaining := by
  unfold advance at h ⊢
  split at h
  · cases h
  · dsimp only at h ⊢
    split at h
    · rename_i unfinished found _ read
      rw [if_neg unfinished]
      exact Reader.remaining_block_lt read
    · rename_i other
      exact absurd h (other block)

theorem collectRound_advances (seen : List Block) :
    Action.Advances remaining (collectRound seen) := by
  intro walk next h
  unfold collectRound at h ⊢
  cases hn : (nextBlock.run walk).result with
  | error e => rw [Action.run_bind_error hn] at h; cases h
  | ok found =>
    rw [Action.run_bind_ok hn] at h ⊢
    cases found with
    | none => cases h
    | some block => exact remaining_advance_lt hn

/-- All the blocks that are left, or the first error. -/
def collect : Action Disassembly (List Block) :=
  Action.loop remaining collectRound collectRound_advances []

end Disassembly

end Latitude
