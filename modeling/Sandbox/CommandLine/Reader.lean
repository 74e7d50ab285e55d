import Sandbox.CommandLine.Grammar

/-!
Reading one level of a command line.

Words are taken from left to right. An option that takes a value waits for it, and
its value is looked at when the next argument, or the end of the level, is met. So
what is wrong with a value counts after an unknown name behind it.
-/

namespace Sandbox.CommandLine

/-- The values that were given, by name. -/
abbrev Values := List (String × String)

/-- How far a level has been read. -/
structure Progress where
  /-- The arguments that were given and looked at. -/
  given : Values := []
  /-- The argument that was named last and its value, if it has come. -/
  pending : Option (Argument × Option String) := none
  /-- All further words are arguments without a name. -/
  trailing : Bool := false
  deriving DecidableEq, Repr

/-- The number of 32 bits that a text denotes: decimal digits, possibly behind a
sign. -/
def number? (s : String) : Option UInt32 :=
  let unsigned (ds : List Char) : Option Nat :=
    if ds ≠ [] ∧ ds.all Char.isDigit = true then some (Nat.ofDigitChars 10 ds 0) else none
  let bounded (n : Nat) : Option UInt32 := if n < UInt32.size then some (.ofNat n) else none
  match s.toList with
  | '-' :: ds => (unsigned ds).bind fun n => if n = 0 then some 0 else none
  | '+' :: ds => (unsigned ds).bind bounded
  | ds => (unsigned ds).bind bounded

/-- Looks at a value. -/
def checkValue (a : Argument) (value : String) : Except Usage Unit :=
  match a.takes with
  | .path => if value = "" then .error .missingValue else .ok ()
  | .number => if (number? value).isSome then .ok () else .error .notNumber
  | .text | .nothing => .ok ()

namespace Progress

/-- The last option waits for its value. -/
def isWaiting (p : Progress) : Bool :=
  !p.trailing && p.pending.any (·.2.isNone)

/-- An argument was given. -/
def has (p : Progress) (name : String) : Bool :=
  (p.given.lookup name).isSome

/-- Accepts an argument. -/
def accept (p : Progress) (a : Argument) (value : String) : Except Usage Progress :=
  if p.has a.name then .error .repeated
  else do
    checkValue a value
    return { p with given := (a.name, value) :: p.given }

/-- Accepts the argument that was named last. -/
def settle (p : Progress) : Except Usage Progress :=
  match p.pending with
  | none => .ok p
  | some (_, none) => .error .missingValue
  | some (a, some value) => accept { p with pending := none } a value

/-- Names an argument, with its value if that has come. -/
def name (p : Progress) (a : Argument) (value : Option String) : Except Usage Progress := do
  return { ← p.settle with pending := some (a, value) }

end Progress

/-- The name of an option and the value that is attached to it. -/
def splitAttached (word : List Char) : String × Option String :=
  let name := word.takeWhile (· ≠ '=')
  match word.dropWhile (· ≠ '=') with
  | [] => (.ofList name, none)
  | _ :: value => (.ofList name, some (.ofList value))

namespace Level

/-- Reads a long option, given behind its dashes. -/
def readLong (l : Level) (p : Progress) (word : List Char) : Except Usage Progress :=
  let (name, attached) := splitAttached word
  match l.options.find? (·.name = name), attached with
  | some a, attached =>
    match a.takes, attached with
    | .nothing, some _ => .error .surplusValue
    | .nothing, none => do (← p.settle).accept a ""
    | _, some value => do (← p.settle).accept a value
    | _, none => p.name a none
  | none, none =>
    if name = helpName then do let _ ← p.settle; .error .help
    else if name = "version" ∧ l.hasVersion then do let _ ← p.settle; .error .version
    else .error .unknownArgument
  | none, some _ =>
    if name = helpName ∨ (name = "version" ∧ l.hasVersion) then .error .surplusValue
    else .error .unknownArgument

/-- Reads short options, of which there are only two, and each ends the reading. -/
def readShort (l : Level) (p : Progress) (first : Char) : Except Usage Progress :=
  if first = 'h' then do let _ ← p.settle; .error .help
  else if first = 'V' ∧ l.hasVersion then do let _ ← p.settle; .error .version
  else .error .unknownArgument

/-- Reads an argument without a name. -/
def readPositional (l : Level) (p : Progress) (word : String) : Except Usage Progress :=
  match l.positional with
  | some a =>
    if p.has a.name || p.pending.any (·.1 = a) then .error .unknownArgument else p.name a (some word)
  | none =>
    if l.commands = [] ∨ (p.trailing ∧ word ∈ l.commands) then .error .unknownArgument
    else .error .unknownCommand

/-- Reads a word other than a command. -/
def readWord (l : Level) (p : Progress) (word : String) : Except Usage Progress :=
  if p.trailing then l.readPositional p word
  else
    match word.toList with
    | ['-', '-'] => .ok { p with trailing := true }
    | '-' :: '-' :: name => l.readLong p name
    | '-' :: c :: _ => l.readShort p c
    | _ =>
      match p.pending with
      | some (a, none) => .ok { p with pending := some (a, some word) }
      | _ => l.readPositional p word

/-- Reads words up to the end or up to a command, which is given together with the
words behind it. -/
def readWords (l : Level) : Progress → List String → Except Usage (Progress × Option (String × List String))
  | p, [] => .ok (p, none)
  | p, word :: words =>
    if !p.trailing && !p.isWaiting && l.commands.contains word then .ok (p, some (word, words))
    else do readWords l (← l.readWord p word) words

/-- Ends a level: `fallback` is the value of the configuration file where none is
given. -/
def finish (p : Progress) (fallback : Option String) : Except Usage Values := do
  let p ← p.settle
  match fallback with
  | some value =>
    if p.has config.name then return p.given
    else do
      checkValue config value
      return p.given
  | none => return p.given

end Level

end Sandbox.CommandLine
