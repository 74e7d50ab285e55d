import Sandbox.Text.Unprintable
import Sandbox.Text.Combining

/-!
Quoted text, as messages show a name that may hold anything.

A quotation stands between double quotes and is read back without guessing:
quotes, backslashes and the usual controls have two-character escapes, and any
other character that would not show up by itself is written as its code point.
-/

namespace Sandbox

/-- How a character is written within a quotation. Code points above the ASCII
range need an escape when they are unprintable or would merge with the character
before them. -/
def quoteChar (c : Char) : List Char :=
  match c with
  | '"' => ['\\', '"']
  | '\\' => ['\\', '\\']
  | '\n' => ['\\', 'n']
  | '\r' => ['\\', 'r']
  | '\t' => ['\\', 't']
  | '\x00' => ['\\', '0']
  | c =>
    if ' ' ≤ c ∧ c ≤ '~' then [c]
    else if isUnprintable c || isCombining c then
      ['\\', 'u', '\x7b'] ++ Nat.toDigits 16 c.toNat ++ ['\x7d']
    else [c]

/-- A text between double quotes. -/
def quoted (s : String) : String :=
  .ofList ('"' :: s.toList.flatMap quoteChar ++ ['"'])

end Sandbox
