import Sandbox.Json.Basic

/-!
What a reader finds in a text, before anything is asked of it.

A raw value keeps the members of an object in the order of the text, names that
occur twice included, and it keeps what is wrong with the text at the place where
it is wrong. So whoever takes a raw value apart meets the faults of the text and
its own objections in one pass from left to right.

Some faults only matter to whoever wants the value: a number that is too large, or
a string with half of a surrogate pair. `skip` says what is wrong with a value
that is passed over.
-/

namespace Sandbox

/-- What can be wrong with a text. -/
inductive Fault where
  /-- The text ends within a value. -/
  | truncated
  /-- The text is no document. -/
  | malformed
  deriving DecidableEq, Repr

/-- A string as read. -/
structure RawString where
  /-- The characters, or why there are none. -/
  content : Except Fault String
  /-- Why the end of the string was not reached. -/
  stop : Option Fault

/-- A value as read. -/
inductive Raw where
  | null
  | bool (b : Bool)
  /-- A number, if it is not too large. -/
  | number (n : Option JsonNumber)
  | string (s : RawString)
  /-- A list: its items, and why its end was not reached. -/
  | list (items : List Raw) (stop : Option Fault)
  /-- An object: its members, and why its end was not reached. A name without a
  value has a broken one. -/
  | object (members : List (RawString × Raw)) (stop : Option Fault)
  /-- A value that breaks off. A number that ends too early is truncated for whoever
  wants it and malformed for whoever passes over it. -/
  | broken (wanted skipped : Fault)
  /-- The text ends before a value. -/
  | ended

namespace Raw

/-- A string without faults. -/
def ofString (s : String) : RawString :=
  ⟨.ok s, none⟩

mutual

/-- A document as a raw value. -/
def ofJson : Json → Raw
  | .null => null
  | .bool b => bool b
  | .num n => number (some n)
  | .str s => string (ofString s)
  | .arr l => list (ofItems l) none
  | .obj ms => object (ofMembers ms) none

/-- Items as raw values. -/
def ofItems : List Json → List Raw
  | [] => []
  | j :: l => ofJson j :: ofItems l

/-- Members as raw members. -/
def ofMembers : List (String × Json) → List (RawString × Raw)
  | [] => []
  | (k, j) :: l => (ofString k, ofJson j) :: ofMembers l

end

/-- Nothing is wrong, or this is. -/
def outcome : Option Fault → Except Fault Unit
  | none => .ok ()
  | some f => .error f

mutual

/-- What is wrong with a value that is passed over. -/
def skip : Raw → Except Fault Unit
  | null | bool _ | number _ => .ok ()
  | string s => outcome s.stop
  | list l stop => do skipItems l; outcome stop
  | object ms stop => do skipMembers ms; outcome stop
  | broken _ f => .error f
  | ended => .error .truncated

/-- What is wrong with items that are passed over. -/
def skipItems : List Raw → Except Fault Unit
  | [] => .ok ()
  | r :: l => do r.skip; skipItems l

/-- What is wrong with members that are passed over. -/
def skipMembers : List (RawString × Raw) → Except Fault Unit
  | [] => .ok ()
  | (k, r) :: l => do outcome k.stop; r.skip; skipMembers l

end

end Raw

/-! ### The document of a raw value -/

/-- What a raw value was made from. -/
inductive Source where
  /-- A text, in which lists and objects may stand within each other up to `depth`
  deep from here on. -/
  | text (depth : Nat)
  /-- A document. -/
  | tree
  deriving DecidableEq, Repr

/-- The source within a list or an object. -/
def Source.enter : Source → Except Fault Source
  | text 0 => .error .malformed
  | text (depth + 1) => .ok (text depth)
  | tree => .ok tree

namespace Raw

mutual

/-- The document that a raw value stands for. -/
def toJson (src : Source) : Raw → Except Fault Json
  | null => .ok .null
  | bool b => .ok (.bool b)
  | number (some n) => .ok (.num n)
  | number none => .error .malformed
  | string s => do return .str (← s.content)
  | list l stop => do
    let src ← src.enter
    let items ← toItems src l
    outcome stop
    return .arr items
  | object ms stop => do
    let src ← src.enter
    let members ← toMembers src ms
    outcome stop
    return .obj (Members.ofList members)
  | broken f _ => .error f
  | ended => .error .truncated

/-- The documents of items. -/
def toItems (src : Source) : List Raw → Except Fault (List Json)
  | [] => .ok []
  | r :: l => do
    let j ← r.toJson src
    return j :: (← toItems src l)

/-- The named documents of members, in the order of the text. -/
def toMembers (src : Source) : List (RawString × Raw) → Except Fault (List (String × Json))
  | [] => .ok []
  | (k, r) :: l => do
    let name ← k.content
    let j ← r.toJson src
    return (name, j) :: (← toMembers src l)

end

end Raw

end Sandbox
