import Sandbox.Json.Decode

/-!
Records of named fields, from an object or from a list.

An object gives the fields by name, in any order; members with other names are
passed over. A list gives them by position. What is wrong with a member counts
where the member stands, and a missing field counts last.

A record is described by its fields, in the order of their declaration, put
together with `<*>`.
-/

namespace Sandbox

/-- A field, with what can be said of a value for it. -/
structure Field where
  name : String
  check : Source → Raw → Except DecodeError Unit

/-- The raw values of a record's fields, as far as they are there. -/
abbrev Slots := String → Option Raw

/-- A description of records that stand for values of a type. -/
structure Record (α : Type) where
  /-- The fields, in the order of a list. -/
  fields : List Field
  /-- The value made from slots. `missing` is the objection to an empty slot. -/
  build : Source → Slots → (String → DecodeError) → Except DecodeError α

namespace Record

/-- The field of a name with a decoder. -/
def field (name : String) (d : Decoder α) : Field :=
  ⟨name, fun src r => (d src r).map fun _ => ()⟩

/-- A field that has to be there. -/
def required (name : String) (d : Decoder α) : Record α where
  fields := [field name d]
  build src slots missing :=
    match slots name with
    | some r => d src r
    | none => .error (missing name)

/-- A field that is `a` when it is not there. -/
def defaulting (name : String) (d : Decoder α) (a : α) : Record α where
  fields := [field name d]
  build src slots _ :=
    match slots name with
    | some r => d src r
    | none => .ok a

instance : Applicative Record where
  pure a := ⟨[], fun _ _ _ => .ok a⟩
  seq f x :=
    { fields := f.fields ++ (x ()).fields
      build := fun src slots missing => do
        let g ← f.build src slots missing
        let a ← (x ()).build src slots missing
        return g a }

/-- Looks at the members of an object one after the other. `seen` holds the names
of the fields that were met. -/
def checkMembers (fields : List Field) (src : Source) :
    List String → List (RawString × Raw) → Except DecodeError Unit
  | _, [] => .ok ()
  | seen, (k, r) :: ms => do
    let name ← orFault k.content
    match fields.find? (·.name = name) with
    | none => do
      orFault r.skip
      checkMembers fields src seen ms
    | some f =>
      if name ∈ seen then .error (.duplicateField name)
      else do
        f.check src r
        checkMembers fields src (name :: seen) ms

/-- Looks at the items of a list one after the other. -/
def checkItems (src : Source) : List Field → List Raw → Except DecodeError Unit
  | f :: fs, r :: l => do
    f.check src r
    checkItems src fs l
  | _, _ => .ok ()

/-- The raw value of the member with a name. -/
def slot : List (RawString × Raw) → Slots
  | [], _ => none
  | (k, r) :: ms, name =>
    match k.content with
    | .ok k => if k = name then some r else slot ms name
    | .error _ => slot ms name

/-- A record and the number of its fields, as objections say it. -/
def shape (type : String) (fields : List Field) : String :=
  "struct " ++ type ++ " with " ++ toString fields.length ++
    if fields.length = 1 then " element" else " elements"

/-- The objection to a list with too many items. -/
def surplus (src : Source) (length : Nat) : DecodeError :=
  match src with
  | .text _ => .fault .malformed
  | .tree => .wrongLength length "fewer elements in array"

/-- The decoder of a record, called `type` in objections. -/
def decoder (type : String) (r : Record α) : Decoder α
  | src, .object ms stop => do
    let src ← orFault src.enter
    checkMembers r.fields src [] ms
    orFault (Raw.outcome stop)
    r.build src (slot ms) .missingField
  | src, .list l stop => do
    let src ← orFault src.enter
    checkItems src r.fields l
    if r.fields.length < l.length then .error (surplus src l.length)
    else do
      orFault (Raw.outcome stop)
      let names := r.fields.map (·.name)
      r.build src (fun name => (names.zip l).lookup name) fun name =>
        .wrongLength (names.idxOf name) (shape type r.fields)
  | _, raw => Decoder.mismatch ("struct " ++ type) raw

end Record

end Sandbox
