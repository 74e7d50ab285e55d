import Sandbox.Accounts
import Sandbox.Text.Separated

/-!
Account databases: a line for each account, with fields between colons.
-/

namespace Sandbox.Accounts

/-- The fields of each line. -/
def lines (text : String) : List (List String) :=
  (Separated.split '\n' text.toList).map fun line => (Separated.split ':' line).map .ofList

/-- The number in a field. -/
def numberField (s : String) : Option UInt32 :=
  s.toNat?.map .ofNat

/-- The group of a line: its name, a password, its number. -/
def groupOfLine? : List String → Option (String × UInt32)
  | name :: _ :: gid :: _ => do return (name, ← numberField gid)
  | _ => none

/-- The user of a line: its name, a password, its two numbers. -/
def userOfLine? : List String → Option (String × Owner)
  | name :: _ :: uid :: gid :: _ => do return (name, ⟨← numberField uid, ← numberField gid⟩)
  | _ => none

/-- The accounts of a database of users and one of groups. -/
def ofDatabases (users groups : String) : Accounts where
  groups := (lines groups).filterMap groupOfLine?
  users := (lines users).filterMap userOfLine?

end Sandbox.Accounts
