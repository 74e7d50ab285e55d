import Sandbox.Json.Raw
import Sandbox.Text.Utf8

/-!
Reading a text as a raw value.

Each reader takes the pieces that are left of a text and gives what it found
together with what is left behind it, or the fault that ended the reading.
Reading never gives up without a value: a fault is a part of the value.
-/

namespace Sandbox.Json

open Utf8 (Piece)

/-- What is left of a text, or the fault that ended the reading. -/
abbrev Rest := Except Fault (List Piece)

/-- The fault that ended the reading. -/
def Rest.stop : Rest → Option Fault
  | .ok _ => none
  | .error f => some f

/-- Blanks are spaces, tabs, line feeds and carriage returns. -/
def isBlank : Piece → Bool
  | .char c => c = ' ' || c = '\t' || c = '\n' || c = '\r'
  | .stray _ => false

/-- What is left behind blanks. -/
def skipBlank (ps : List Piece) : List Piece :=
  ps.dropWhile isBlank

theorem skipBlank_cons {p : Piece} (solid : isBlank p = false) (ps : List Piece) : skipBlank (p :: ps) = p :: ps := by
  rw [skipBlank, List.dropWhile_cons_of_neg (by simp [solid])]

theorem skipBlank_blank {p : Piece} (blank : isBlank p = true) (ps : List Piece) :
    skipBlank (p :: ps) = skipBlank ps := by
  rw [skipBlank, List.dropWhile_cons_of_pos blank, skipBlank]

/-- Truncated at the end of the text, malformed before it. -/
def unexpected : List Piece → Fault
  | [] => .truncated
  | _ :: _ => .malformed

/-! ### Words -/

/-- Reads the rest of a word that stands for a value. -/
def readWord (r : Raw) : List Char → List Piece → Raw × Rest
  | [], ps => (r, .ok ps)
  | _ :: _, [] => (.broken .truncated .truncated, .error .truncated)
  | c :: cs, p :: ps =>
    if p = .char c then readWord r cs ps
    else (.broken .malformed .malformed, .error .malformed)

/-! ### Strings -/

/-- A part of a string. -/
inductive StringPart where
  | char (c : Char)
  /-- One half of a surrogate pair. -/
  | surrogate (u : Nat)
  /-- Bytes that are no text. -/
  | stray

/-- The value of a hexadecimal digit. -/
def hexDigit? (c : Char) : Option Nat :=
  if '0' ≤ c ∧ c ≤ '9' then some (c.toNat - '0'.toNat)
  else if 'a' ≤ c ∧ c ≤ 'f' then some (c.toNat - 'a'.toNat + 10)
  else if 'A' ≤ c ∧ c ≤ 'F' then some (c.toNat - 'A'.toNat + 10)
  else none

/-- The value of four hexadecimal digits. -/
def hexUnit? : Piece → Piece → Piece → Piece → Option Nat
  | .char a, .char b, .char c, .char d => do
    return (((← hexDigit? a) * 16 + (← hexDigit? b)) * 16 + (← hexDigit? c)) * 16 + (← hexDigit? d)
  | _, _, _, _ => none

/-- The character of an escape other than a code point. -/
def escaped? : Char → Option Char
  | '"' => some '"'
  | '\\' => some '\\'
  | '/' => some '/'
  | 'b' => some '\x08'
  | 'f' => some '\x0c'
  | 'n' => some '\n'
  | 'r' => some '\r'
  | 't' => some '\t'
  | _ => none

/-- The part that a 16-bit unit stands for. -/
def StringPart.ofUnit (u : Nat) : StringPart :=
  if 0xD800 ≤ u ∧ u ≤ 0xDFFF then .surrogate u else .char (.ofNat u)

/-- One more part in front of a string. -/
def consPart (p : StringPart) : List StringPart × Rest → List StringPart × Rest
  | (parts, rest) => (p :: parts, rest)

/-- Reads the parts of a string up to its closing quote. A code point is written
with four digits; fewer than four bytes at the end of the text truncate it. -/
def readParts : List Piece → List StringPart × Rest
  | [] => ([], .error .truncated)
  | .char '"' :: ps => ([], .ok ps)
  | .char '\\' :: .char 'u' :: a :: b :: c :: d :: ps =>
    match hexUnit? a b c d with
    | some u => consPart (.ofUnit u) (readParts ps)
    | none => ([], .error .malformed)
  | .char '\\' :: .char 'u' :: ps =>
    ([], .error (if ps.foldl (fun n p => n + p.width) 0 < 4 then .truncated else .malformed))
  | .char '\\' :: .char c :: ps =>
    match escaped? c with
    | some c => consPart (.char c) (readParts ps)
    | none => ([], .error .malformed)
  | .char '\\' :: ps => ([], .error (unexpected ps))
  | .char c :: ps => if c < ' ' then ([], .error .malformed) else consPart (.char c) (readParts ps)
  | .stray _ :: ps => consPart .stray (readParts ps)

/-- The unit begins a surrogate pair. -/
def isLeading (u : Nat) : Bool :=
  u < 0xDC00

/-- The character of a surrogate pair. -/
def ofPair (u v : Nat) : Char :=
  .ofNat (0x10000 + (u - 0xD800) * 0x400 + (v - 0xDC00))

/-- The characters of a string. A surrogate has to be a half of a pair; bytes that
are no text are found out at the closing quote. -/
def characters (stop : Option Fault) : List StringPart → Except Fault (List Char)
  | [] => (Raw.outcome stop).map fun _ => []
  | .char c :: r => (characters stop r).map (c :: ·)
  | .stray :: r => do let _ ← characters stop r; .error .malformed
  | [.surrogate u] => .error (if isLeading u then stop.getD .malformed else .malformed)
  | .surrogate u :: .surrogate v :: r =>
    if isLeading u && !isLeading v then (characters stop r).map (ofPair u v :: ·) else .error .malformed
  | .surrogate _ :: _ => .error .malformed

/-- Reads a string behind its opening quote. -/
def readString (ps : List Piece) : RawString × Rest :=
  let (parts, rest) := readParts ps
  (⟨(characters (Rest.stop rest) parts).map .ofList, Rest.stop rest⟩, rest)

/-! ### Numbers -/

/-- The digit a piece is. -/
def digit? : Piece → Option Nat
  | .char c => if c.isDigit then some (c.toNat - '0'.toNat) else none
  | .stray _ => none

/-- The digits at the start of a text, and what is left. -/
def readDigits : List Piece → List Nat × List Piece
  | [] => ([], [])
  | p :: ps =>
    match digit? p with
    | some d => let (ds, rest) := readDigits ps; (d :: ds, rest)
    | none => ([], p :: ps)

/-- The parts of a number as written. -/
structure Numeral where
  /-- A minus sign stands in front. -/
  negative : Bool
  /-- The digits before the point. -/
  whole : List Nat
  /-- The digits behind the point. -/
  fraction : Option (List Nat)
  /-- The power of ten. -/
  exponent : Option Int

namespace Numeral

/-- The bound on the digits of a numeral that count. -/
def digitLimit : Nat := UInt64.size

/-- Appends digits to a natural while it stays below the limit, and gives the
digits that are left. -/
def absorb : Nat → List Nat → Nat × List Nat
  | n, [] => (n, [])
  | n, d :: ds => if n * 10 + d < digitLimit then absorb (n * 10 + d) ds else (n, d :: ds)

/-- The fraction that the numeral denotes, if it is not too large. -/
def toFloat? (x : Numeral) : Option Binary64 :=
  let (n, dropped) := absorb 0 x.whole
  let fraction := x.fraction.getD []
  let (n, ignored) := absorb n fraction
  let shift : Int := dropped.length - (fraction.length - ignored.length : Nat)
  (Binary64.ofDecimal? n (shift + x.exponent.getD 0)).map (·.withSign x.negative)

/-- The number that the numeral denotes. Whole numerals are integers when these
have 64 bits, all others are fractions; so is a zero with a minus sign. -/
def toNumber? (x : Numeral) : Option JsonNumber :=
  let (n, dropped) := absorb 0 x.whole
  if x.fraction.isNone ∧ x.exponent.isNone ∧ dropped = [] ∧ (x.negative → 0 < n ∧ n ≤ digitLimit / 2) then
    some (.int (if x.negative then -n else n))
  else x.toFloat?.map .float

end Numeral

/-- Reads the power of ten of a number, if there is one. -/
def readExponent (ps : List Piece) : Except Fault (Option Int × List Piece) :=
  let power (negative : Bool) (ps : List Piece) : Except Fault (Option Int × List Piece) :=
    match readDigits ps with
    | ([], rest) => .error (unexpected rest)
    | (ds, rest) =>
      let n : Nat := ds.foldl (fun n d => 10 * n + d) 0
      .ok (some (if negative then -n else n), rest)
  match ps with
  | .char c :: r =>
    if c = 'e' ∨ c = 'E' then
      match r with
      | .char '-' :: r => power true r
      | .char '+' :: r => power false r
      | _ => power false r
    else .ok (none, ps)
  | _ => .ok (none, ps)

/-- Reads the digits behind the point of a number, if it has one. -/
def readFraction : List Piece → Except Fault (Option (List Nat) × List Piece)
  | .char '.' :: r =>
    match readDigits r with
    | ([], rest) => .error (unexpected rest)
    | (ds, rest) => .ok (some ds, rest)
  | ps => .ok (none, ps)

/-- Reads the digits before the point of a number. A zero stands alone. -/
def readWhole (ps : List Piece) : Except Fault (List Nat × List Piece) :=
  match readDigits ps with
  | ([], rest) => .error (unexpected rest)
  | (0 :: _ :: _, _) => .error .malformed
  | (ds, rest) => .ok (ds, rest)

/-- Reads a number behind its sign. -/
def readNumeral (negative : Bool) (ps : List Piece) : Except Fault (Numeral × List Piece) := do
  let (whole, ps) ← readWhole ps
  let (fraction, ps) ← readFraction ps
  let (exponent, ps) ← readExponent ps
  return (⟨negative, whole, fraction, exponent⟩, ps)

/-- Reads a number behind its sign as a raw value. -/
def readNumber (negative : Bool) (ps : List Piece) : Raw × Rest :=
  match readNumeral negative ps with
  | .ok (x, rest) => (.number x.toNumber?, .ok rest)
  | .error f => (.broken f .malformed, .error f)

/-! ### Values -/

/-- One more item in front of a list. -/
def consItem (r : Raw) : List Raw × Rest → List Raw × Rest
  | (l, rest) => (r :: l, rest)

/-- One more member in front of an object. -/
def consMember (k : RawString) (r : Raw) : List (RawString × Raw) × Rest → List (RawString × Raw) × Rest
  | (l, rest) => ((k, r) :: l, rest)

/-- What stands for the value of a name that nothing follows. -/
def missingValue : List Piece → Raw
  | [] => .ended
  | _ :: _ => .broken .malformed .malformed

/-- A member whose name cannot be read. -/
def brokenMember (f : Fault) : List (RawString × Raw) × Rest :=
  ([(⟨.error f, some f⟩, .broken f f)], .error f)

/-- A list of what was found. -/
def closeList : List Raw × Rest → Raw × Rest
  | (l, rest) => (.list l (Rest.stop rest), rest)

/-- An object of what was found. -/
def closeObject : List (RawString × Raw) × Rest → Raw × Rest
  | (l, rest) => (.object l (Rest.stop rest), rest)

mutual

/-- Reads a value. `fuel` bounds how many values, items and members are begun. -/
def readValue : Nat → List Piece → Raw × Rest
  | 0, _ => (.ended, .error .truncated)
  | fuel + 1, ps =>
    match skipBlank ps with
    | [] => (.ended, .error .truncated)
    | .char '"' :: r => let (s, rest) := readString r; (.string s, rest)
    | .char '[' :: r =>
      match skipBlank r with
      | .char ']' :: r => (.list [] none, .ok r)
      | r => closeList (readItems fuel r)
    | .char '\x7b' :: r =>
      match skipBlank r with
      | .char '\x7d' :: r => (.object [] none, .ok r)
      | .char '"' :: r => closeObject (readMembers fuel r)
      | r => (.object [] (some (unexpected r)), .error (unexpected r))
    | .char 'n' :: r => readWord .null ['u', 'l', 'l'] r
    | .char 't' :: r => readWord (.bool true) ['r', 'u', 'e'] r
    | .char 'f' :: r => readWord (.bool false) ['a', 'l', 's', 'e'] r
    | .char '-' :: r => readNumber true r
    | p :: r =>
      if (digit? p).isSome then readNumber false (p :: r)
      else (.broken .malformed .malformed, .error .malformed)

/-- Reads the items of a list, one or more, and its end. -/
def readItems : Nat → List Piece → List Raw × Rest
  | 0, _ => ([.ended], .error .truncated)
  | fuel + 1, ps =>
    match readValue fuel ps with
    | (v, .error f) => ([v], .error f)
    | (v, .ok rest) =>
      match skipBlank rest with
      | .char ',' :: r => consItem v (readItems fuel r)
      | .char ']' :: r => ([v], .ok r)
      | r => ([v], .error (unexpected r))

/-- Reads the members of an object, one or more, and its end. The text begins
behind the opening quote of the first name. -/
def readMembers : Nat → List Piece → List (RawString × Raw) × Rest
  | 0, _ => brokenMember .truncated
  | fuel + 1, ps =>
    match readString ps with
    | (k, .error f) => ([(k, .broken f f)], .error f)
    | (k, .ok rest) =>
      match skipBlank rest with
      | .char ':' :: r =>
        match readValue fuel r with
        | (v, .error f) => ([(k, v)], .error f)
        | (v, .ok rest) =>
          match skipBlank rest with
          | .char ',' :: r =>
            match skipBlank r with
            | .char '"' :: r => consMember k v (readMembers fuel r)
            | r => consMember k v (brokenMember (unexpected r))
          | .char '\x7d' :: r => ([(k, v)], .ok r)
          | r => ([(k, v)], .error (unexpected r))
      | r => ([(k, missingValue r)], .error (unexpected r))

end

/-! ### Item by item, member by member -/

section

variable {fuel : Nat} {ps behind behind' r r' : List Piece} {k : RawString} {v : Raw}

theorem readValue_items {c : Char} (start : skipBlank ps = .char '[' :: r) (first : skipBlank r = .char c :: behind)
    (noEnd : c ≠ ']') : readValue (fuel + 1) ps = closeList (readItems fuel (.char c :: behind)) := by
  simp only [readValue, start, first]
  split
  case h_1 same =>
    cases same
    exact absurd rfl noEnd
  case h_2 => rfl

theorem readItems_last (item : readValue fuel ps = (v, .ok behind)) (close : skipBlank behind = .char ']' :: r) :
    readItems (fuel + 1) ps = ([v], .ok r) := by
  simp only [readItems, item, close]

theorem readItems_more (item : readValue fuel ps = (v, .ok behind)) (comma : skipBlank behind = .char ',' :: r) :
    readItems (fuel + 1) ps = consItem v (readItems fuel r) := by
  simp only [readItems, item, comma]

theorem readValue_members (start : skipBlank ps = .char '\x7b' :: r) (first : skipBlank r = .char '"' :: r') :
    readValue (fuel + 1) ps = closeObject (readMembers fuel r') := by
  simp only [readValue, start, first]

theorem readMembers_last (name : readString ps = (k, .ok (.char ':' :: behind)))
    (value : readValue fuel behind = (v, .ok behind')) (close : skipBlank behind' = .char '\x7d' :: r) :
    readMembers (fuel + 1) ps = ([(k, v)], .ok r) := by
  have colon : skipBlank (.char ':' :: behind) = .char ':' :: behind := skipBlank_cons (by decide) behind
  simp only [readMembers, name, colon, value, close]

theorem readMembers_more (name : readString ps = (k, .ok (.char ':' :: behind)))
    (value : readValue fuel behind = (v, .ok behind')) (comma : skipBlank behind' = .char ',' :: r)
    (quote : skipBlank r = .char '"' :: r') :
    readMembers (fuel + 1) ps = consMember k v (readMembers fuel r') := by
  have colon : skipBlank (.char ':' :: behind) = .char ':' :: behind := skipBlank_cons (by decide) behind
  simp only [readMembers, name, colon, value, comma, quote]

end

/-- What a text holds: a value, and whether anything but blanks follows it. -/
structure RawText where
  /-- The value at the start of the text. -/
  value : Raw
  /-- Something follows it. -/
  surplus : Bool

/-- Reads a text. Every value that is begun takes at least one piece, so twice
their number is fuel enough. -/
def readText (ps : List Piece) : RawText :=
  match readValue (2 * ps.length + 2) ps with
  | (v, .ok rest) => ⟨v, skipBlank rest ≠ []⟩
  | (v, .error _) => ⟨v, false⟩

/-- How deep lists and objects of a text may stand within each other. -/
def depthLimit : Nat := 127

/-- The document that the bytes of a text stand for. -/
def parse (bytes : List UInt8) : Except Fault Json :=
  let text := readText (Utf8.scan bytes)
  match text.value.toJson (.text depthLimit) with
  | .error f => .error f
  | .ok j => if text.surplus then .error .malformed else .ok j

end Sandbox.Json
