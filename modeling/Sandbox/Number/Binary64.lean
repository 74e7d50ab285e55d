/-!
Finite binary floating-point numbers of 64 bits, by their exact value.

A number is a sign, a significand below `2 ^ 53` and a power of two. All
arithmetic is done on natural numbers: the exact result is formed as a ratio and
rounded once, to the nearest number, a tie going to the even significand.
-/

namespace Sandbox

/-- The quotient of two naturals rounded to the nearest one; a tie goes to the
even neighbour. -/
def roundHalfEven (num den : Nat) : Nat :=
  let q := num / den
  let r := num % den
  if 2 * r < den ∨ (2 * r = den ∧ q % 2 = 0) then q else q + 1

/-- The natural nearest to `n` that has a significand below `2 ^ 53`. -/
def nearestSignificand (n : Nat) : Nat :=
  let unit := Nat.pow 2 (n.log2 - 52)
  roundHalfEven n unit * unit

/-- The number `± significand * 2 ^ exponent`. -/
structure Binary64 where
  /-- The number is below zero, or is the negative zero. -/
  negative : Bool
  /-- The significand, below `2 ^ 53`. -/
  significand : Nat
  /-- The power of two, from `-1074` to `971`. -/
  exponent : Int
  deriving DecidableEq, Repr

namespace Binary64

/-- Zero. -/
def zero : Binary64 :=
  ⟨false, 0, -1074⟩

/-- The number is a zero of either sign. -/
def isZero (x : Binary64) : Bool :=
  x.significand = 0

/-- The same amount with a sign. -/
def withSign (x : Binary64) (negative : Bool) : Binary64 :=
  { x with negative }

/-- The greatest `k` with `2 ^ k ≤ num / den`, for positive naturals. -/
def floorLog2 (num den : Nat) : Int :=
  let k : Int := (num.log2 : Int) - den.log2
  if den * Nat.pow 2 k.toNat ≤ num * Nat.pow 2 (-k).toNat then k else k - 1

/-- The number nearest to `num / den`, if it is not too large to be finite. -/
def ofRatio? (num den : Nat) : Option Binary64 :=
  if num = 0 then some zero
  else
    let e := max (floorLog2 num den - 52) (-1074)
    let m := roundHalfEven (num * Nat.pow 2 (-e).toNat) (den * Nat.pow 2 e.toNat)
    let (m, e) := if m = Nat.pow 2 53 then (Nat.pow 2 52, e + 1) else (m, e)
    if 971 < e then none else some ⟨false, m, e⟩

/-- The amount as a ratio: its numerator. -/
def num (x : Binary64) : Nat :=
  x.significand * Nat.pow 2 x.exponent.toNat

/-- The amount as a ratio: its denominator, a power of two. -/
def den (x : Binary64) : Nat :=
  Nat.pow 2 (-x.exponent).toNat

/-- The product of two amounts, rounded. -/
def mul? (x y : Binary64) : Option Binary64 :=
  ofRatio? (x.num * y.num) (x.den * y.den)

/-- The quotient of two amounts, rounded. -/
def div? (x y : Binary64) : Option Binary64 :=
  ofRatio? (x.num * y.den) (x.den * y.num)

/-- The number nearest to a natural. -/
def ofNat? (n : Nat) : Option Binary64 :=
  ofRatio? n 1

/-- The number nearest to `10 ^ k`. -/
def powerOfTen? (k : Nat) : Option Binary64 :=
  ofNat? (Nat.pow 10 k)

/-- The greatest power of ten that is finite. -/
def maxPowerOfTen : Nat :=
  308

/-- `x * 10 ^ k`, in one rounded product. -/
def scaleUp? (x : Binary64) (k : Nat) : Option Binary64 :=
  if x.isZero then some x
  else if k ≤ maxPowerOfTen then do x.mul? (← powerOfTen? k)
  else none

/-- `x / 10 ^ k`, in one rounded quotient, or in two when the power itself is too
large. Past two such quotients every number that began below `2 ^ 64` has become
zero. -/
def scaleDown? (x : Binary64) (k : Nat) : Option Binary64 :=
  if k ≤ maxPowerOfTen then do x.div? (← powerOfTen? k)
  else if k ≤ 2 * maxPowerOfTen then do
    (← x.div? (← powerOfTen? maxPowerOfTen)).div? (← powerOfTen? (k - maxPowerOfTen))
  else some zero

/-- The number that a decimal `n * 10 ^ e` is read as: `n` is rounded, the power
of ten is rounded, and so is their product or quotient. There is none when the
result is too large. -/
def ofDecimal? (n : Nat) (e : Int) : Option Binary64 := do
  let x ← ofNat? n
  if 0 ≤ e then x.scaleUp? e.toNat else x.scaleDown? (-e).toNat

end Binary64

end Sandbox
