import Latitude.Instruction

/-!
# Blocks

A block of a compiled file: its instructions, where its length prefix stands, the
length that the prefix declares and the length that the instructions take up.
-/

namespace Latitude

structure Block where
  index : Nat
  /-- Where the length prefix starts. -/
  offset : Nat
  declared : Nat
  consumed : Nat
  instructions : List Instruction
  deriving DecidableEq

/-- How far the instructions run past the declared length. -/
def Block.overrun (block : Block) : Nat := block.consumed - block.declared

end Latitude
