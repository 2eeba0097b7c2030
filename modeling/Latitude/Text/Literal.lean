import Latitude.Text.Hidden

/-!
# Character and string literals

The written form of a character or a string in messages and log fields: between
quotes, with hidden characters escaped. Every other character but the quote itself and
the backslash stands for itself.
-/

namespace Latitude.Text

def hexDigits (n : Nat) : String := String.ofList (Nat.toDigits 16 n)

def hexByte (byte : UInt8) : String :=
  "0x" ++ String.ofList ([byte.toNat / 16, byte.toNat % 16].map fun d => (Nat.digitChar d).toUpper)

/-- A character as it stands in a literal between two `delimiter`s. -/
def escape (delimiter c : Char) : String :=
  if c == delimiter || c == '\\' then String.ofList ['\\', c]
  else if c.toNat == 0 then "\\0"
  else if c == '\t' then "\\t"
  else if c == '\n' then "\\n"
  else if c == '\r' then "\\r"
  else if isHidden c then "\\u\x7b" ++ hexDigits c.toNat ++ "\x7d"
  else String.singleton c

def literal (delimiter : Char) (s : String) : String :=
  String.singleton delimiter ++ String.join (s.toList.map (escape delimiter)) ++
    String.singleton delimiter

def stringLiteral (s : String) : String := literal '"' s

def byteLiteral (byte : UInt8) : String :=
  literal (Char.ofNat 0x27) (String.singleton (Char.ofNat byte.toNat))

def optionLiteral : Option String → String
  | none => "None"
  | some s => "Some(" ++ stringLiteral s ++ ")"

end Latitude.Text
