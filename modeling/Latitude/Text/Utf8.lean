/-!
# UTF-8

Texts as lists of bytes. `decodeUtf8?_eq_some_iff` says that every text has one form.

Bytes that spell no text can still be shown as one, with a replacement character wherever
they fail to spell another. `decodeLossy_encodeUtf8`: a text that was encoded is shown as
it is.
-/

namespace Latitude.Text

def encodeUtf8 (s : String) : List UInt8 := s.toUTF8.data.toList

def decodeUtf8? (data : List UInt8) : Option String := String.fromUTF8? data.toByteArray

theorem toByteArray_encodeUtf8 (s : String) : (encodeUtf8 s).toByteArray = s.toByteArray := by
  apply ByteArray.ext
  simp [encodeUtf8, String.toUTF8]

theorem decodeUtf8?_eq_some_iff {data : List UInt8} {s : String} :
    decodeUtf8? data = some s ↔ encodeUtf8 s = data := by
  constructor
  · intro h
    unfold decodeUtf8? String.fromUTF8? at h
    split at h
    · cases h
      simp [encodeUtf8, String.toUTF8, String.fromUTF8]
    · cases h
  · rintro rfl
    unfold decodeUtf8? String.fromUTF8?
    rw [dif_pos (by rw [toByteArray_encodeUtf8]; exact s.isValidUTF8)]
    congr 1
    rw [← String.toByteArray_inj]
    exact toByteArray_encodeUtf8 s

@[simp] theorem decodeUtf8?_encodeUtf8 (s : String) : decodeUtf8? (encodeUtf8 s) = some s :=
  decodeUtf8?_eq_some_iff.2 rfl

@[simp] theorem encodeUtf8_append (s t : String) :
    encodeUtf8 (s ++ t) = encodeUtf8 s ++ encodeUtf8 t := by
  simp [encodeUtf8, String.toUTF8]

@[simp] theorem encodeUtf8_empty : encodeUtf8 "" = [] := rfl

theorem encodeUtf8_ofList (cs : List Char) :
    encodeUtf8 (String.ofList cs) = cs.flatMap String.utf8EncodeChar := by
  simp [encodeUtf8, String.toUTF8, List.utf8Encode]

-- ---------------------------------------------------------------------------
-- Bytes that may spell no text
-- ---------------------------------------------------------------------------

/-- The character that the bytes start with. No character has more than four bytes. -/
def firstChar? (data : List UInt8) : Option Char := (data.take 4).toByteArray.utf8DecodeChar? 0

/-- Whether `second` can stand behind `lead` in a character of three or four bytes. -/
def continues (lead second : UInt8) : Bool :=
  if lead = 0xE0 then 0xA0 ≤ second && second ≤ 0xBF
  else if lead = 0xED then 0x80 ≤ second && second ≤ 0x9F
  else if lead = 0xF0 then 0x90 ≤ second && second ≤ 0xBF
  else if lead = 0xF4 then 0x80 ≤ second && second ≤ 0x8F
  else 0xE1 ≤ lead && lead ≤ 0xF3 && 0x80 ≤ second && second ≤ 0xBF

/-- Where `lead` starts a character that breaks off: how many more bytes it has until then. -/
def spoilt (lead : UInt8) : List UInt8 → Nat
  | [] => 0
  | [second] => if continues lead second then 1 else 0
  | second :: third :: _ =>
    if !continues lead second then 0
    else if 0xF0 ≤ lead && 0x80 ≤ third && third ≤ 0xBF then 2
    else 1

/-- The characters of the bytes. U+FFFD stands for a byte that starts no character, and for a
character that breaks off. `seen` are the characters so far, the latest first. -/
def lossyChars (seen : List Char) : List UInt8 → List Char
  | [] => seen.reverse
  | lead :: data =>
    match firstChar? (lead :: data) with
    | some c => lossyChars (c :: seen) (data.drop (c.utf8Size - 1))
    | none => lossyChars (Char.ofNat 0xFFFD :: seen) (data.drop (spoilt lead data))
termination_by data => data.length
decreasing_by all_goals rw [List.length_drop, List.length_cons]; omega

def decodeLossy (data : List UInt8) : String := String.ofList (lossyChars [] data)

theorem firstChar?_utf8EncodeChar (c : Char) (rest : List UInt8) :
    firstChar? (String.utf8EncodeChar c ++ rest) = some c := by
  have whole : (String.utf8EncodeChar c).length ≤ 4 := by
    rw [String.length_utf8EncodeChar]
    exact c.utf8Size_le_four
  rw [firstChar?, List.take_append, List.take_of_length_le whole, List.toByteArray_append]
  exact ByteArray.utf8DecodeChar?_utf8EncodeChar_append

theorem lossyChars_flatMap (cs seen : List Char) :
    lossyChars seen (cs.flatMap String.utf8EncodeChar) = seen.reverse ++ cs := by
  induction cs generalizing seen with
  | nil => simp [lossyChars]
  | cons c cs ih =>
    have first := firstChar?_utf8EncodeChar c (cs.flatMap String.utf8EncodeChar)
    have size := String.length_utf8EncodeChar c
    rw [List.flatMap_cons]
    cases code : String.utf8EncodeChar c with
    | nil =>
      have positive := c.utf8Size_pos
      rw [code, List.length_nil] at size
      omega
    | cons lead more =>
      rw [code] at first size
      rw [List.cons_append] at first ⊢
      have rest : c.utf8Size - 1 = more.length := by simp [← size]
      rw [lossyChars, first]
      simp [rest, ih]

@[simp] theorem decodeLossy_encodeUtf8 (s : String) : decodeLossy (encodeUtf8 s) = s := by
  have spelled := encodeUtf8_ofList s.toList
  rw [String.ofList_toList] at spelled
  rw [decodeLossy, spelled, lossyChars_flatMap, List.reverse_nil, List.nil_append,
    String.ofList_toList]

end Latitude.Text
