/-!
# Headers

What the head of a compiled file says: the version of the format, and the names of
the module and the package where they are given. Each field starts with a tag byte
and its value with a byte for the nature of the value.
-/

namespace Latitude

structure Header where
  version : Int
  moduleName : Option String := none
  packageName : Option String := none
  deriving DecidableEq

namespace Header

def currentVersion : Int := 1000

def isCurrent (header : Header) : Bool := header.version == currentVersion

end Header

inductive HeaderField
  | moduleName | packageName
  deriving DecidableEq

namespace HeaderField

def toByte : HeaderField → UInt8
  | .moduleName => 0x4D
  | .packageName => 0x50

def ofByte? (byte : UInt8) : Option HeaderField :=
  if byte = 0x4D then some .moduleName
  else if byte = 0x50 then some .packageName
  else none

@[simp] theorem ofByte?_toByte (field : HeaderField) : ofByte? field.toByte = some field := by
  cases field <;> rfl

theorem ofByte?_eq_some_iff {byte : UInt8} {field : HeaderField} :
    ofByte? byte = some field ↔ field.toByte = byte := by
  constructor
  · intro h
    unfold ofByte? at h
    split at h <;> try split at h
    all_goals simp_all [toByte]
    all_goals subst h; rfl
  · rintro rfl
    exact ofByte?_toByte field

end HeaderField

namespace Header

/-- The tag byte that ends the header; one more byte, of any value, follows it. -/
def endByte : UInt8 := 0x2E

/-- Gives a name, in place of an earlier one for the same field. -/
def set (header : Header) (name : String) : HeaderField → Header
  | .moduleName => { header with moduleName := some name }
  | .packageName => { header with packageName := some name }

def get (header : Header) : HeaderField → Option String
  | .moduleName => header.moduleName
  | .packageName => header.packageName

@[simp] theorem version_set (header : Header) (name : String) (field : HeaderField) :
    (header.set name field).version = header.version := by
  cases field <;> rfl

theorem get_set (header : Header) (name : String) (field other : HeaderField) :
    (header.set name field).get other = if other = field then some name else header.get other := by
  cases field <;> cases other <;> rfl

end Header

inductive Nature
  | integer | string
  deriving DecidableEq

namespace Nature

def toByte : Nature → UInt8
  | .integer => 0x23
  | .string => 0x24

def ofByte? (byte : UInt8) : Option Nature :=
  if byte = 0x23 then some .integer
  else if byte = 0x24 then some .string
  else none

@[simp] theorem ofByte?_toByte (nature : Nature) : ofByte? nature.toByte = some nature := by
  cases nature <;> rfl

theorem ofByte?_eq_some_iff {byte : UInt8} {nature : Nature} :
    ofByte? byte = some nature ↔ nature.toByte = byte := by
  constructor
  · intro h
    unfold ofByte? at h
    split at h <;> try split at h
    all_goals simp_all [toByte]
    all_goals subst h; rfl
  · rintro rfl
    exact ofByte?_toByte nature

end Nature

inductive HeaderValue
  | integer (value : Int)
  | string (text : String)
  deriving DecidableEq

end Latitude
