import Sandbox.Error

/-!
Sections: objects and lists within a document, by the names on the way to them.

A section that is missing, or null, counts as empty and is made when something is
put into it. A section of another shape is an error, and so is a section on the
way to it that is no object.

A change yields its outcome and the members after it, failed or not. The sections
on the way are made as they are met, before it is known whether the change
succeeds; a section of the wrong shape is never replaced. `checkList` says whether
a list can be changed without changing it.
-/

namespace Sandbox.Section

/-- The members of an object section, given what stands in its place. -/
def objectIn (path : List String) : Option Json → Except ConfigError (List (String × Json))
  | none | some .null => .ok []
  | some (.obj ms) => .ok ms
  | some j => .error (.sectionShape path .object j.kind)

/-- The items of a list section, given what stands in its place. -/
def listIn (path : List String) : Option Json → Except ConfigError (List Json)
  | none | some .null => .ok []
  | some (.arr l) => .ok l
  | some j => .error (.sectionShape path .list j.kind)

/-- Changes the members of the object section at a path. `above` are the names
passed so far. -/
def updateObjectFrom (f : List (String × Json) → List (String × Json)) :
    List String → List String → List (String × Json) → Except ConfigError Unit × List (String × Json)
  | _, [], ms => (.ok (), f ms)
  | above, k :: ks, ms =>
    let here := above ++ [k]
    match objectIn here (Members.get? k ms) with
    | .error e => (.error e, ms)
    | .ok inner =>
      let (outcome, inner) := updateObjectFrom f here ks inner
      (outcome, Members.set k (.obj inner) ms)

/-- Changes the members of the object section at a path. -/
def updateObject (path : List String) (f : List (String × Json) → List (String × Json))
    (ms : List (String × Json)) : Except ConfigError Unit × List (String × Json) :=
  updateObjectFrom f [] path ms

/-- Changes the items of the list section at a path. `above` are the names passed
so far. -/
def updateListFrom (f : List Json → List Json) :
    List String → List String → List (String × Json) → Except ConfigError Unit × List (String × Json)
  | _, [], ms => (.error .emptyPath, ms)
  | above, [k], ms =>
    match listIn (above ++ [k]) (Members.get? k ms) with
    | .error e => (.error e, ms)
    | .ok items => (.ok (), Members.set k (.arr (f items)) ms)
  | above, k :: ks, ms =>
    let here := above ++ [k]
    match objectIn here (Members.get? k ms) with
    | .error e => (.error e, ms)
    | .ok inner =>
      let (outcome, inner) := updateListFrom f here ks inner
      (outcome, Members.set k (.obj inner) ms)

/-- Changes the items of the list section at a path. -/
def updateList (path : List String) (f : List Json → List Json)
    (ms : List (String × Json)) : Except ConfigError Unit × List (String × Json) :=
  updateListFrom f [] path ms

/-- Says why the list section at a path cannot be changed, if it cannot. -/
def checkListFrom : List String → List String → List (String × Json) → Except ConfigError Unit
  | _, [], _ => .error .emptyPath
  | above, k :: ks, ms =>
    let here := above ++ [k]
    match Members.get? k ms with
    | none | some .null => .ok ()
    | some j =>
      match ks, j with
      | [], .arr _ => .ok ()
      | [], j => .error (.sectionShape here .list j.kind)
      | ks, .obj inner => checkListFrom here ks inner
      | _, j => .error (.sectionShape here .object j.kind)

/-- Says why the list section at a path cannot be changed, if it cannot. -/
def checkList (path : List String) (ms : List (String × Json)) : Except ConfigError Unit :=
  checkListFrom [] path ms

end Sandbox.Section
