/-!
# Decimal integers

Reading an integer as a person types it: an optional sign and one or more decimal
digits, leading zeros allowed, with a value that fits in 64 bits.
-/

namespace Latitude.Text

/-- The number that the digits spell; nothing if there is no digit or something else. -/
def natOfDigits? (digits : List Char) : Option Nat :=
  if digits.isEmpty || !digits.all Char.isDigit then none
  else some (digits.foldl (fun n c => 10 * n + (c.toNat - 0x30)) 0)

/-- A number with an optional plus sign. -/
def natOfChars? : List Char → Option Nat
  | '+' :: digits => natOfDigits? digits
  | digits => natOfDigits? digits

def intOfChars? : List Char → Option Int
  | '-' :: digits => (natOfDigits? digits).map fun n => -(n : Int)
  | cs => (natOfChars? cs).map Int.ofNat

def readInt64? (text : String) : Option Int :=
  (intOfChars? text.toList).filter fun n => -0x8000000000000000 ≤ n && n < 0x8000000000000000

end Latitude.Text
