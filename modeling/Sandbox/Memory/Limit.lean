/-!
Memory limits: as texts, and as recorded by packages.

A limit is written as decimal digits, then possibly a unit `K`, `M` or `G`, then
possibly a `B` or `b`. Any other text denotes no limit, and so does one whose amount
does not fit 64 bits. No limit is written as zero.

Of the limits that packages record, one wins. A runtime and an application each have a
slot. Within a slot the last record counts, and the application's slot goes before the
runtime's.
-/

namespace Sandbox

namespace Memory

/-- What the text behind the digits multiplies them by. -/
def factor? : List Char → Option Nat
  | [] | ['B'] | ['b'] => some 1
  | ['K'] | ['K', 'B'] | ['K', 'b'] => some 1024
  | ['M'] | ['M', 'B'] | ['M', 'b'] => some (1024 * 1024)
  | ['G'] | ['G', 'B'] | ['G', 'b'] => some (1024 * 1024 * 1024)
  | _ => none

/-- The number of bytes a text denotes; zero if it denotes no limit. -/
def parseLimit (text : String) : UInt64 :=
  let digits := text.toList.takeWhile Char.isDigit
  match factor? (text.toList.dropWhile Char.isDigit) with
  | none => 0
  | some factor =>
    let amount := Nat.ofDigitChars 10 digits 0 * factor
    if digits ≠ [] ∧ amount < UInt64.size then .ofNat amount else 0

end Memory

/-- The role of a package. -/
inductive PackageType where
  /-- Something that applications run on. -/
  | runtime
  /-- The application itself. -/
  | application
  deriving DecidableEq, Repr, Inhabited

/-- A slot for each role. -/
structure OverrideTable (α : Type) where
  runtime : Option α := none
  application : Option α := none
  deriving DecidableEq, Repr

namespace OverrideTable

/-- A table in which nothing is recorded. -/
def empty : OverrideTable α :=
  {}

/-- Records a value. -/
def record (t : OverrideTable α) (type : PackageType) (a : α) : OverrideTable α :=
  match type with
  | .runtime => { t with runtime := some a }
  | .application => { t with application := some a }

/-- The value that wins. -/
def resolve (t : OverrideTable α) : Option α :=
  t.application <|> t.runtime

end OverrideTable

end Sandbox
