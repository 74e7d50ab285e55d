import Sandbox.Number.Binary64

/-!
Amounts of memory for people: the number of bytes, or of a larger unit with one
decimal.

The bytes are first rounded to a binary fraction, which changes nothing below
`2 ^ 53`. The tenths are then rounded once, a tie going to the even tenth.
-/

namespace Sandbox.Memory

/-- A unit of memory. -/
inductive MemoryUnit where
  | byte
  | kibi
  | mebi
  | gibi
  deriving DecidableEq, Repr

namespace MemoryUnit

/-- The bytes of a unit. -/
def bytes : MemoryUnit → Nat
  | byte => 1
  | kibi => 1024
  | mebi => 1024 * 1024
  | gibi => 1024 * 1024 * 1024

/-- The name of a unit. -/
def name : MemoryUnit → String
  | byte => "B"
  | kibi => "KiB"
  | mebi => "MiB"
  | gibi => "GiB"

/-- The largest unit that an amount reaches. -/
def of (n : UInt64) : MemoryUnit :=
  if gibi.bytes ≤ n.toNat then gibi
  else if mebi.bytes ≤ n.toNat then mebi
  else if kibi.bytes ≤ n.toNat then kibi
  else byte

end MemoryUnit

/-- The tenths of a unit that are shown for an amount. -/
def tenths (n : UInt64) (u : MemoryUnit) : Nat :=
  roundHalfEven (10 * nearestSignificand n.toNat) u.bytes

/-- An amount as shown. -/
def showAmount (n : UInt64) : String :=
  match MemoryUnit.of n with
  | .byte => toString n.toNat ++ " " ++ MemoryUnit.byte.name
  | u =>
    let t := tenths n u
    toString (t / 10) ++ "." ++ toString (t % 10) ++ " " ++ u.name

end Sandbox.Memory
