import Sandbox.Json.Basic
import Sandbox.Number.Shortest

/-!
Documents as text: `compact` without blanks, `pretty` with one member or item to a
line and two spaces for each level.
-/

namespace Sandbox.Json

/-- Fractions have a point from `1e-5` up to, but not including, `1e16`; a positive
exponent has its sign. -/
def floatLayout : FloatLayout :=
  ⟨-5, 15, ['+']⟩

/-- The text of an integer. -/
def printInt : Int → List Char
  | .ofNat n => Nat.toDigits 10 n
  | .negSucc n => '-' :: Nat.toDigits 10 (n + 1)

/-- The text of a number. -/
def printNumber : JsonNumber → List Char
  | .int n => printInt n
  | .float x => floatLayout.render x

/-- How a character is written within a string. Only what has to be escaped is. -/
def escapeChar (c : Char) : List Char :=
  match c with
  | '"' => ['\\', '"']
  | '\\' => ['\\', '\\']
  | '\x08' => ['\\', 'b']
  | '\x0c' => ['\\', 'f']
  | '\n' => ['\\', 'n']
  | '\r' => ['\\', 'r']
  | '\t' => ['\\', 't']
  | c =>
    if c < ' ' then
      let ds := Nat.toDigits 16 c.toNat
      ['\\', 'u'] ++ List.replicate (4 - ds.length) '0' ++ ds
    else [c]

/-- A string between its quotes. -/
def printString (s : String) : List Char :=
  '"' :: s.toList.flatMap escapeChar ++ ['"']

/-- The text of a truth value. -/
def printBool (b : Bool) : List Char :=
  if b then ['t', 'r', 'u', 'e'] else ['f', 'a', 'l', 's', 'e']

/-! ### Without blanks -/

mutual

/-- The compact text of a document. -/
def compactChars : Json → List Char
  | null => ['n', 'u', 'l', 'l']
  | bool b => printBool b
  | num n => printNumber n
  | str s => printString s
  | arr [] => ['[', ']']
  | arr (j :: l) => '[' :: compactChars j ++ compactItems l
  | obj [] => ['\x7b', '\x7d']
  | obj ((k, j) :: l) => '\x7b' :: printString k ++ ':' :: compactChars j ++ compactMembers l

/-- The items behind the first one, and the end of the list. -/
def compactItems : List Json → List Char
  | [] => [']']
  | j :: l => ',' :: compactChars j ++ compactItems l

/-- The members behind the first one, and the end of the object. -/
def compactMembers : List (String × Json) → List Char
  | [] => ['\x7d']
  | (k, j) :: l => ',' :: printString k ++ ':' :: compactChars j ++ compactMembers l

end

/-- The compact text of a document. -/
def compact (j : Json) : String :=
  .ofList j.compactChars

/-! ### With indentation -/

/-- The start of a line at a level. -/
def newLine (level : Nat) : List Char :=
  '\n' :: List.replicate (2 * level) ' '

mutual

/-- The indented text of a document that stands at a level. -/
def prettyChars (level : Nat) : Json → List Char
  | null => ['n', 'u', 'l', 'l']
  | bool b => printBool b
  | num n => printNumber n
  | str s => printString s
  | arr [] => ['[', ']']
  | arr (j :: l) => '[' :: newLine (level + 1) ++ prettyChars (level + 1) j ++ prettyItems level l
  | obj [] => ['\x7b', '\x7d']
  | obj ((k, j) :: l) =>
    '\x7b' :: newLine (level + 1) ++ printString k ++ ':' :: ' ' :: prettyChars (level + 1) j ++
      prettyMembers level l

/-- The items behind the first one, and the end of the list. -/
def prettyItems (level : Nat) : List Json → List Char
  | [] => newLine level ++ [']']
  | j :: l => ',' :: newLine (level + 1) ++ prettyChars (level + 1) j ++ prettyItems level l

/-- The members behind the first one, and the end of the object. -/
def prettyMembers (level : Nat) : List (String × Json) → List Char
  | [] => newLine level ++ ['\x7d']
  | (k, j) :: l =>
    ',' :: newLine (level + 1) ++ printString k ++ ':' :: ' ' :: prettyChars (level + 1) j ++
      prettyMembers level l

end

/-- The indented text of a document. -/
def pretty (j : Json) : String :=
  .ofList (j.prettyChars 0)

end Sandbox.Json
