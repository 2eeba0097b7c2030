import Latitude.Reader.Basic

/-!
# Integers

An integer is stored as the bytes of its magnitude, the least significant first. A
signed one has a byte for its sign in front: anything but zero makes it negative.
-/

namespace Latitude.Reader

def integerWidth : Nat := 4

/-- The magnitude of a signed integer stays below this, the 63rd power of two. -/
def magnitudeLimit : Nat := 0x8000000000000000

/-- `width` bytes as a word, the first of them lowest. -/
def word : Nat → Reader UInt64
  | 0 => pure 0
  | width + 1 => do
    let low ← byte
    let high ← word width
    return low.toUInt64 ||| (high <<< 8)

/-- A magnitude of `width` bytes. One that is wider than a word is refused unread. -/
def unsigned (width : Nat) : Reader UInt64 := do
  let offset ← position
  if 8 < width then Action.fail (.integerOverflow width offset) else word width

/-- A sign and a magnitude of `width` bytes. A magnitude that is too large is reported at
the sign. -/
def signed (width : Nat) : Reader Int := do
  let offset ← position
  let sign ← byte
  let magnitude ← unsigned width
  if magnitude.toNat < magnitudeLimit then
    return if sign = 0 then magnitude.toNat else -magnitude.toNat
  else Action.fail (.integerOverflow width offset)

theorem word_neverGrows (width : Nat) : Action.NeverGrows Cursor.remaining (word width) := by
  induction width with
  | zero => exact .pure _
  | succ width ih => exact byte_neverGrows.bind fun _ => ih.bind fun _ => .pure _

theorem word_succ_consumes (width : Nat) :
    Action.Consumes Cursor.remaining (word (width + 1)) :=
  byte_consumes.bind fun _ => (word_neverGrows width).bind fun _ => .pure _

theorem unsigned_neverGrows (width : Nat) :
    Action.NeverGrows Cursor.remaining (unsigned width) := by
  refine position_neverGrows.bind fun offset => ?_
  split
  · exact .fail _
  · exact word_neverGrows width

theorem unsigned_consumes {width : Nat} (h : 0 < width) :
    Action.Consumes Cursor.remaining (unsigned width) := by
  refine position_neverGrows.bind_consumes fun offset => ?_
  split
  · exact .fail _
  · obtain ⟨n, rfl⟩ := Nat.exists_eq_succ_of_ne_zero (Nat.ne_of_gt h)
    exact word_succ_consumes n

theorem signed_neverGrows (width : Nat) :
    Action.NeverGrows Cursor.remaining (signed width) := by
  refine position_neverGrows.bind fun offset => byte_neverGrows.bind fun sign =>
    (unsigned_neverGrows width).bind fun magnitude => ?_
  split
  · exact .pure _
  · exact .fail _

end Latitude.Reader
