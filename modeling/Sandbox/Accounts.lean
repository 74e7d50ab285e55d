import Sandbox.Error
import Sandbox.Host.FileTree

/-!
Accounts: the numbers behind the names of groups and users.
-/

namespace Sandbox

/-- The groups and users that are known. -/
structure Accounts where
  groups : List (String × UInt32)
  users : List (String × Owner)
  deriving DecidableEq, Repr

namespace Accounts

/-- The number of a group. -/
def group (a : Accounts) (name : String) : Except Error UInt32 :=
  match a.groups.lookup name with
  | some gid => .ok gid
  | none => .error (.notFound .group name)

/-- The numbers of a user. -/
def user (a : Accounts) (name : String) : Except Error Owner :=
  match a.users.lookup name with
  | some owner => .ok owner
  | none => .error (.notFound .user name)

end Accounts

end Sandbox
