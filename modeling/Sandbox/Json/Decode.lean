import Sandbox.Json.Reader
import Sandbox.Json.Printer
import Sandbox.Path
import Sandbox.Text.Quoted

/-!
Typed values from documents.

A decoder turns a raw value into a value of some type or says what is wrong with
it. The same decoder serves texts and documents. In a text the first thing that is
wrong counts, from left to right, be it a fault of the text or an objection of the
decoder.
-/

namespace Sandbox

/-- A value that a decoder found where it wanted another one. -/
inductive Found where
  | null
  | bool (b : Bool)
  | number (n : JsonNumber)
  | string (s : String)
  | list
  | object
  deriving DecidableEq, Repr

/-- The words for what was found. -/
def Found.message : Found → String
  | null => "null"
  | bool b => "boolean `" ++ .ofList (Json.printBool b) ++ "`"
  | number (.int n) => "integer `" ++ .ofList (Json.printInt n) ++ "`"
  | number (.float x) => "floating point `" ++ .ofList (Json.floatLayout.render x) ++ "`"
  | string s => "string " ++ quoted s
  | list => "sequence"
  | object => "map"

/-- Why a document does not stand for a value of some type. -/
inductive DecodeError where
  /-- The text is no document. -/
  | fault (f : Fault)
  /-- A value of the wrong kind. -/
  | wrongType (found : Found) (expected : String)
  /-- A value of the right kind that is out of range. -/
  | wrongValue (found : Found) (expected : String)
  /-- A list with the wrong number of items. -/
  | wrongLength (length : Nat) (expected : String)
  /-- A name that is none of those allowed. -/
  | unknownVariant (name : String) (allowed : List String)
  /-- A record without a field it needs. -/
  | missingField (name : String)
  /-- A record with a field twice. -/
  | duplicateField (name : String)
  /-- A value of the right type that was refused. -/
  | refused (reason : String)
  deriving DecidableEq, Repr

/-- The word for a fault. -/
def Fault.message : Fault → String
  | truncated => "eof"
  | malformed => "syntax"

/-- A name between backquotes. -/
def backquoted (s : String) : String :=
  "`" ++ s ++ "`"

/-- The choice between names. -/
def choice : List String → String
  | [a, b] => backquoted a ++ " or " ++ backquoted b
  | l => ", ".intercalate (l.map backquoted)

/-- The text of an error. -/
def DecodeError.message : DecodeError → String
  | fault f => f.message
  | wrongType found expected => "invalid type: " ++ found.message ++ ", expected " ++ expected
  | wrongValue found expected => "invalid value: " ++ found.message ++ ", expected " ++ expected
  | wrongLength n expected => "invalid length " ++ toString n ++ ", expected " ++ expected
  | unknownVariant name allowed => "unknown variant " ++ backquoted name ++ ", expected " ++ choice allowed
  | missingField name => "missing field " ++ backquoted name
  | duplicateField name => "duplicate field " ++ backquoted name
  | refused reason => reason

/-- A way to read values of a type. -/
abbrev Decoder (α : Type) := Source → Raw → Except DecodeError α

/-- A result of reading a text as a result of decoding. -/
def orFault (x : Except Fault α) : Except DecodeError α :=
  x.mapError .fault

/-- What a raw value is, or the fault that keeps it from being anything. -/
def Raw.found : Raw → Except Fault Found
  | null => .ok .null
  | bool b => .ok (.bool b)
  | number (some n) => .ok (.number n)
  | number none => .error .malformed
  | string s => s.content.map .string
  | list .. => .ok .list
  | object .. => .ok .object
  | broken f _ => .error f
  | ended => .error .truncated

namespace Decoder

/-- Objects to a value of the wrong kind. -/
def mismatch (expected : String) (r : Raw) : Except DecodeError α :=
  match r.found with
  | .ok found => .error (.wrongType found expected)
  | .error f => .error (.fault f)

/-- Any document. -/
def any : Decoder Json :=
  fun src r => orFault (r.toJson src)

/-- Nothing. -/
def unit : Decoder Unit
  | _, .null => .ok ()
  | _, r => mismatch "unit" r

/-- A truth value. -/
def bool : Decoder Bool
  | _, .bool b => .ok b
  | _, r => mismatch "a boolean" r

/-- A text, called `expected` in objections. -/
def text (expected : String) : Decoder String
  | _, .string s => orFault s.content
  | _, r => mismatch expected r

/-- A text. -/
def string : Decoder String :=
  text "a string"

/-- A path. -/
def path : Decoder Path :=
  fun src r => (text "path string" src r).map .ofString

/-- A natural number below a bound. -/
def below (bound : Nat) (expected : String) : Decoder Nat
  | _, .number (some (.int n)) =>
    if 0 ≤ n ∧ n < bound then .ok n.toNat else .error (.wrongValue (.number (.int n)) expected)
  | _, r => mismatch expected r

/-- A number of 32 bits. -/
def uint32 : Decoder UInt32 :=
  fun src r => (below UInt32.size "u32" src r).map .ofNat

/-- A number of 64 bits. -/
def uint64 : Decoder UInt64 :=
  fun src r => (below UInt64.size "u64" src r).map .ofNat

/-- All items, in order. -/
def each (d : Raw → Except DecodeError α) : List Raw → Except DecodeError (List α)
  | [] => .ok []
  | r :: l => do
    let a ← d r
    return a :: (← each d l)

/-- A list. -/
def list (d : Decoder α) : Decoder (List α)
  | src, .list l stop => do
    let src ← orFault src.enter
    let as ← each (d src) l
    orFault (Raw.outcome stop)
    return as
  | _, r => mismatch "a sequence" r

/-- A value, or none where null stands. -/
def option (d : Decoder α) : Decoder (Option α)
  | _, .null => .ok none
  | src, r => (d src r).map some

/-- A value of a document, or `a` where the document holds no such value. -/
def lenient (d : Decoder α) (a : α) : Decoder α :=
  fun src r =>
    match d src r with
    | .ok b => .ok b
    | .error _ => .ok a

/-! ### Enumerations -/

/-- The value that a name stands for. -/
def variant (variants : List (String × α)) (name : String) : Except DecodeError α :=
  match variants.lookup name with
  | some a => .ok a
  | none => .error (.unknownVariant name (variants.map (·.1)))

/-- One of some named values: its name, or an object that holds nothing under that
name. -/
def enumeration (variants : List (String × α)) : Decoder α
  | _, .string s => do variant variants (← orFault s.content)
  | .tree, .object [(k, r)] _ => do
    let a ← variant variants (← orFault k.content)
    unit .tree r
    return a
  | .tree, .object .. => .error (.wrongValue .object "map with a single key")
  | .tree, r => mismatch "string or map" r
  | src, .object ((k, r) :: more) stop => do
    let src ← orFault src.enter
    let a ← variant variants (← orFault k.content)
    unit src r
    if more.isEmpty then
      orFault (Raw.outcome stop)
      return a
    else .error (.fault .malformed)
  | src, .object [] stop => do
    let _ ← orFault src.enter
    .error (.fault (stop.getD .malformed))
  | _, .ended => .error (.fault .truncated)
  | _, _ => .error (.fault .malformed)

end Decoder

/-! ### Whole texts and documents -/

/-- Reads the bytes of a text as a value. -/
def decodeText (d : Decoder α) (bytes : List UInt8) : Except DecodeError α :=
  let text := Json.readText (Utf8.scan bytes)
  match d (.text Json.depthLimit) text.value with
  | .error e => .error e
  | .ok a => if text.surplus then .error (.fault .malformed) else .ok a

/-- Reads a document as a value. -/
def decodeTree (d : Decoder α) (j : Json) : Except DecodeError α :=
  d .tree (.ofJson j)

end Sandbox
