import Latitude.Header

/-!
# Policies

What a file must satisfy to be read to its end.
-/

namespace Latitude

/-- Whether the last instruction of a block may run past the block's declared length. -/
inductive Boundary
  | lax | strict
  deriving DecidableEq

structure Policy where
  expectedVersion : Int := Header.currentVersion
  boundary : Boundary := .lax
  deriving DecidableEq

end Latitude
