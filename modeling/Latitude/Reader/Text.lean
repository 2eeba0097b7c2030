import Latitude.Reader.Basic
import Latitude.Text.Utf8

/-!
# String literals

A string is its bytes in UTF-8 and, as its end, two zero bytes. A zero byte inside it
is written as a zero and `0x2E`. A zero followed by anything else is dropped together
with what follows it, and an event is reported.
-/

namespace Latitude.Reader

/-- The byte after a zero that makes it part of the string. -/
def zeroEscape : UInt8 := 0x2E

/-- Reads one byte of a string, or a zero and its companion. `seen` are the bytes of
the string so far, the latest first. -/
def stringRound (seen : List UInt8) : Reader (Round (List UInt8) (List UInt8)) := do
  let first ← byte
  if first = 0 then
    let offset ← position
    let second ← byte
    if second = 0 then return .done seen.reverse
    else if second = zeroEscape then return .again (0 :: seen)
    else
      Action.emit (.escapeIgnored offset second)
      return .again seen
  else return .again (first :: seen)

theorem stringRound_consumes (seen : List UInt8) :
    Action.Consumes Cursor.remaining (stringRound seen) := by
  refine byte_consumes.bind fun first => ?_
  split
  · refine position_neverGrows.bind fun offset => byte_neverGrows.bind fun second => ?_
    split
    · exact .pure _
    · split
      · exact .pure _
      · exact (Action.NeverGrows.emit _).bind fun _ => .pure _
  · exact .pure _

def stringBytes : Reader (List UInt8) :=
  Action.loop Cursor.remaining stringRound (fun seen => (stringRound_consumes seen).advances) []

/-- A string. That its bytes are not UTF-8 shows at its end, and is reported at its start. -/
def string : Reader String := do
  let offset ← position
  let data ← stringBytes
  match Text.decodeUtf8? data with
  | some text => return text
  | none => Action.fail (.invalidUtf8 offset)

theorem stringBytes_neverGrows : Action.NeverGrows Cursor.remaining stringBytes :=
  .loop (fun seen => (stringRound_consumes seen).neverGrows) []

theorem string_neverGrows : Action.NeverGrows Cursor.remaining string := by
  refine position_neverGrows.bind fun offset => stringBytes_neverGrows.bind fun data => ?_
  split
  · exact .pure _
  · exact .fail _

end Latitude.Reader
