import Sandbox.Json.Basic
import Sandbox.Text.Separated

/-!
Pointers: places in a document, written as text.

A pointer is empty or a list of tokens, each behind a slash; `~0` stands for a
tilde and `~1` for a slash within a token. A token is the name of a member or the
position of an item, in digits without a leading zero.
-/

namespace Sandbox.Json

/-- A token as meant, from a token as written. -/
def unescapeToken : List Char → List Char
  | '~' :: '1' :: r => '/' :: unescapeToken r
  | '~' :: '0' :: r => '~' :: unescapeToken r
  | c :: r => c :: unescapeToken r
  | [] => []

/-- The position a token denotes. -/
def position? (token : List Char) : Option Nat :=
  if token = [] ∨ !token.all Char.isDigit then none
  else if token.head? = some '0' ∧ token.length ≠ 1 then none
  else some (Nat.ofDigitChars 10 token 0)

/-- The part of a document a token leads to. -/
def step? (token : List Char) : Json → Option Json
  | .obj ms => Members.get? (.ofList token) ms
  | .arr l => (position? token).bind (l[·]?)
  | _ => none

/-- The part of a document that a list of tokens leads to. -/
def follow? : List (List Char) → Json → Option Json
  | [], j => some j
  | t :: ts, j => (j.step? t).bind (follow? ts)

/-- The part of a document that a pointer leads to. -/
def pointer? (j : Json) (p : String) : Option Json :=
  match Separated.split '/' p.toList with
  | [] :: tokens => j.follow? (tokens.map unescapeToken)
  | _ => none

end Sandbox.Json
