import Sandbox.Number.Binary64

/-!
The shortest decimal text of a floating-point number.

`shortest` gives the decimal with the fewest digits that still rounds to the
number; of two such decimals, the nearer one. How the digits are laid out, with
or without an exponent, is the choice of a `FloatLayout`.
-/

namespace Sandbox

/-- The decimal `digits * 10 ^ exponent`. -/
structure Decimal where
  /-- All digits, as one natural. -/
  digits : Nat
  /-- The power of ten of the last digit. -/
  exponent : Int
  deriving DecidableEq, Repr

namespace Decimal

/-- Drops up to `fuel` zeros from the end of the digits. -/
def trim : Nat → Decimal → Decimal
  | 0, d => d
  | fuel + 1, d =>
    if d.digits ≠ 0 ∧ d.digits % 10 = 0 then trim fuel ⟨d.digits / 10, d.exponent + 1⟩ else d

end Decimal

namespace Binary64

/-- How many digits a natural has. -/
def digitCount (n : Nat) : Nat :=
  (Nat.toDigits 10 n).length

/-- The greatest `k` with `10 ^ k ≤ num / den`, for positive naturals. -/
def floorLog10 (num den : Nat) : Int :=
  let k : Int := (digitCount num : Int) - digitCount den
  if den * Nat.pow 10 k.toNat ≤ num * Nat.pow 10 (-k).toNat then k else k - 1

/-- Four times the significand: the number in quarters of its last place. -/
def quarters (x : Binary64) : Nat :=
  4 * x.significand

/-- The least amount that rounds to the number, in quarters of its last place.
Just above a power of two the gap below is half as wide. -/
def lowerQuarters (x : Binary64) : Nat :=
  if x.significand = Nat.pow 2 52 ∧ -1074 < x.exponent then x.quarters - 1 else x.quarters - 2

/-- The greatest amount that rounds to the number, in quarters of its last place. -/
def upperQuarters (x : Binary64) : Nat :=
  x.quarters + 2

/-- The two weights that compare a decimal with quarters of the last place:
`c * 10 ^ k` is at most `q` quarters iff `c * fst ≤ q * snd`. -/
def weights (x : Binary64) (k : Int) : Nat × Nat :=
  let e := x.exponent - 2
  (Nat.pow 2 (-e).toNat * Nat.pow 10 k.toNat, Nat.pow 2 e.toNat * Nat.pow 10 (-k).toNat)

/-- The decimal `c * 10 ^ k` rounds to the number. The ends of the interval do so
exactly when the significand is even. -/
def readsAs (x : Binary64) (c : Nat) (k : Int) : Bool :=
  let (w, q) := x.weights k
  if x.significand % 2 = 0 then x.lowerQuarters * q ≤ c * w && c * w ≤ x.upperQuarters * q
  else x.lowerQuarters * q < c * w && c * w < x.upperQuarters * q

/-- The multiple of `10 ^ k` nearest to the number among those that round to it. -/
def nearestOnGrid? (x : Binary64) (k : Int) : Option Decimal :=
  let (w, q) := x.weights k
  let v := x.quarters * q
  let c := v / w
  let below := v - c * w
  let above := (c + 1) * w - v
  match x.readsAs c k, x.readsAs (c + 1) k with
  | true, true => if above < below ∨ (above = below ∧ c % 2 = 1) then some ⟨c + 1, k⟩ else some ⟨c, k⟩
  | true, false => some ⟨c, k⟩
  | false, true => some ⟨c + 1, k⟩
  | false, false => none

/-- The decimal with the fewest digits that rounds to the number. Seventeen
digits always suffice. -/
def shortest (x : Binary64) : Decimal :=
  if x.isZero then ⟨0, 0⟩
  else
    let top := floorLog10 x.num x.den
    match (List.range 17).findSome? fun (n : Nat) => x.nearestOnGrid? (top - n) with
    | some d => d.trim 17
    | none => ⟨0, 0⟩

end Binary64

/-! ### Layout -/

/-- How the shortest digits are laid out. -/
structure FloatLayout where
  /-- The least power of ten of a first digit that is written without exponent. -/
  leastPlain : Int
  /-- The greatest power of ten of a first digit that is written without exponent. -/
  greatestPlain : Int
  /-- What stands before a non-negative exponent. -/
  plusSign : List Char

namespace FloatLayout

/-- Digits with a decimal point after the power `top` of ten of the first digit;
at least one digit stands on each side. -/
def plain (ds : List Char) (top : Int) : List Char :=
  if top < 0 then '0' :: '.' :: List.replicate (-top - 1).toNat '0' ++ ds
  else
    let whole := top.toNat + 1
    if ds.length ≤ whole then ds ++ List.replicate (whole - ds.length) '0' ++ ['.', '0']
    else ds.take whole ++ '.' :: ds.drop whole

/-- Digits with the point after the first one, and an exponent. -/
def scientific (l : FloatLayout) (ds : List Char) (top : Int) : List Char :=
  let mantissa :=
    match ds with
    | [] => []
    | [d] => [d]
    | d :: ds => d :: '.' :: ds
  let exponent := if top < 0 then '-' :: Nat.toDigits 10 (-top).toNat else l.plusSign ++ Nat.toDigits 10 top.toNat
  mantissa ++ 'e' :: exponent

/-- The text of a number. -/
def render (l : FloatLayout) (x : Binary64) : List Char :=
  let d := x.shortest
  let ds := Nat.toDigits 10 d.digits
  let top := d.exponent + ds.length - 1
  let amount := if l.leastPlain ≤ top ∧ top ≤ l.greatestPlain then plain ds top else l.scientific ds top
  if x.negative then '-' :: amount else amount

end FloatLayout

end Sandbox
