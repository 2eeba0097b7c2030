import Latitude.Reader.Integer
import Latitude.Reader.Text

/-!
# Reading headers

A header is the version, then fields until the tag byte that ends it. A field's value
is read before its tag is looked at, so a value that cannot be read is reported ahead
of an unknown tag. A field given twice keeps the later name.
-/

namespace Latitude.Reader

/-- A value of the header: a byte for its nature, then the value itself. -/
def headerValue : Reader HeaderValue := do
  let offset ← position
  let nature ← byte
  match Nature.ofByte? nature with
  | some .integer => return .integer (← signed integerWidth)
  | some .string => return .string (← string)
  | none => Action.fail (.unknownNature nature offset)

theorem headerValue_neverGrows : Action.NeverGrows Cursor.remaining headerValue := by
  refine position_neverGrows.bind fun offset => byte_neverGrows.bind fun nature => ?_
  split
  · exact (signed_neverGrows _).bind fun _ => .pure _
  · exact string_neverGrows.bind fun _ => .pure _
  · exact .fail _

def headerRound (header : Header) : Reader (Round Header Header) := do
  let offset ← position
  let tag ← byte
  if tag = Header.endByte then
    let _ ← byte
    return .done header
  else
    let value ← headerValue
    match HeaderField.ofByte? tag, value with
    | none, _ => Action.fail (.unknownHeaderTag tag offset)
    | some _, .integer _ => Action.fail (.headerTypeMismatch tag)
    | some field, .string name => return .again (header.set name field)

theorem headerRound_consumes (header : Header) :
    Action.Consumes Cursor.remaining (headerRound header) := by
  refine position_neverGrows.bind_consumes fun offset => byte_consumes.bind fun tag => ?_
  split
  · exact byte_neverGrows.bind fun _ => .pure _
  · refine headerValue_neverGrows.bind fun value => ?_
    split
    · exact .fail _
    · exact .fail _
    · exact .pure _

def headerFields (header : Header) : Reader Header :=
  Action.loop Cursor.remaining headerRound
    (fun header => (headerRound_consumes header).advances) header

/-- A header, whatever its version. -/
def header : Reader Header := do
  let version ← signed integerWidth
  let header ← headerFields { version }
  Action.emit (.headerDecoded header)
  return header

end Latitude.Reader
