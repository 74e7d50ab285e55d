import Sandbox.Json.Members
import Sandbox.Number.Binary64

/-!
Documents as trees.

The members of an object are kept in increasing order of their names
(`Json.Sorted`), so two objects that hold the same values are the same tree.
-/

namespace Sandbox

/-- A number of a document: an integer, kept exactly, or a binary fraction. -/
inductive JsonNumber where
  | int (n : Int)
  | float (x : Binary64)
  deriving DecidableEq, Repr

/-- A document, or a part of one. -/
inductive Json where
  | null
  | bool (b : Bool)
  | num (n : JsonNumber)
  | str (s : String)
  | arr (items : List Json)
  | obj (members : List (String × Json))
  deriving Repr, Inhabited

namespace Json

/-! ### Equality -/

mutual

/-- Two documents can be told apart. -/
def decEq : (a b : Json) → Decidable (a = b)
  | .null, .null => isTrue rfl
  | .bool a, .bool b => decidable_of_iff (a = b) (by simp)
  | .num a, .num b => decidable_of_iff (a = b) (by simp)
  | .str a, .str b => decidable_of_iff (a = b) (by simp)
  | .arr a, .arr b =>
    match decEqItems a b with
    | isTrue h => isTrue (h ▸ rfl)
    | isFalse h => isFalse fun e => h (Json.arr.inj e)
  | .obj a, .obj b =>
    match decEqMembers a b with
    | isTrue h => isTrue (h ▸ rfl)
    | isFalse h => isFalse fun e => h (Json.obj.inj e)
  | .null, .bool _ | .null, .num _ | .null, .str _ | .null, .arr _ | .null, .obj _
  | .bool _, .null | .bool _, .num _ | .bool _, .str _ | .bool _, .arr _ | .bool _, .obj _
  | .num _, .null | .num _, .bool _ | .num _, .str _ | .num _, .arr _ | .num _, .obj _
  | .str _, .null | .str _, .bool _ | .str _, .num _ | .str _, .arr _ | .str _, .obj _
  | .arr _, .null | .arr _, .bool _ | .arr _, .num _ | .arr _, .str _ | .arr _, .obj _
  | .obj _, .null | .obj _, .bool _ | .obj _, .num _ | .obj _, .str _ | .obj _, .arr _ =>
    isFalse nofun

/-- Two lists of items can be told apart. -/
def decEqItems : (a b : List Json) → Decidable (a = b)
  | [], [] => isTrue rfl
  | [], _ :: _ | _ :: _, [] => isFalse nofun
  | j :: l, k :: m =>
    match decEq j k, decEqItems l m with
    | isTrue h, isTrue i => isTrue (h ▸ i ▸ rfl)
    | isFalse h, _ => isFalse fun e => h (List.cons.inj e).1
    | _, isFalse i => isFalse fun e => i (List.cons.inj e).2

/-- Two lists of members can be told apart. -/
def decEqMembers : (a b : List (String × Json)) → Decidable (a = b)
  | [], [] => isTrue rfl
  | [], _ :: _ | _ :: _, [] => isFalse nofun
  | (c, j) :: l, (d, k) :: m =>
    match decEq j k, decEqMembers l m with
    | isTrue h, isTrue i => decidable_of_iff (c = d) (by simp [h, i])
    | isFalse h, _ => isFalse fun e => h (by simp_all)
    | _, isFalse i => isFalse fun e => i (List.cons.inj e).2

end

instance : DecidableEq Json :=
  decEq

/-! ### Making and looking into documents -/

/-- A natural number as a document. -/
def nat (n : Nat) : Json :=
  .num (.int n)

/-- A list of texts as a document. -/
def strings (l : List String) : Json :=
  .arr (l.map .str)

/-- An object with the given values under the given names. -/
def ofList (l : List (String × Json)) : Json :=
  .obj (Members.ofList l)

/-- The text, if the document is one. -/
def str? : Json → Option String
  | str s => some s
  | _ => none

/-- The items, if the document is a list. -/
def arr? : Json → Option (List Json)
  | arr l => some l
  | _ => none

/-- The members, if the document is an object. -/
def obj? : Json → Option (List (String × Json))
  | obj ms => some ms
  | _ => none

/-- The value of a member, if the document is an object that has it. -/
def member? (j : Json) (name : String) : Option Json :=
  j.obj?.bind (Members.get? name)

/-- What sort of value a document is, as messages say it. -/
def kind : Json → String
  | null => "null"
  | bool _ => "a boolean"
  | num _ => "a number"
  | str _ => "a string"
  | arr _ => "a list"
  | obj _ => "an object"

/-! ### Order of members -/

mutual

/-- The members of every object in the document are in order. -/
def Sorted : Json → Prop
  | arr l => SortedItems l
  | obj ms => Members.Sorted ms ∧ SortedMembers ms
  | _ => True

/-- The members of every object in the items are in order. -/
def SortedItems : List Json → Prop
  | [] => True
  | j :: l => j.Sorted ∧ SortedItems l

/-- The members of every object in the values are in order. -/
def SortedMembers : List (String × Json) → Prop
  | [] => True
  | (_, j) :: l => j.Sorted ∧ SortedMembers l

end

end Json

end Sandbox
