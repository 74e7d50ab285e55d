import Sandbox.Proofs.Json.Tree

/-!
What is passed over in a text.

Nothing is wrong with a value that was read to its end, also where it could not be made a
document: a number that is too large, or a string with half of a pair
(`Json.skip_of_read`). So an object of a whole text can have members that nobody looks at
(`Json.IsObject.skip`).
-/

namespace Sandbox

namespace Json

open Utf8 (Piece)

variable {fuel : Nat} {ps rest : List Piece} {v : Raw} {l : List Raw} {ms : List (RawString × Raw)}
  {bytes : List UInt8}

/-- The text is that of an object with these members, in their order. -/
def IsObject (bytes : List UInt8) (ms : List (RawString × Raw)) : Prop :=
  readText (Utf8.scan bytes) = ⟨.object ms none, false⟩

theorem stop_of_readString (ok : (readString ps).2 = .ok rest) : (readString ps).1.stop = none :=
  congrArg Rest.stop ok

theorem skip_of_readWord {r : Raw} {cs : List Char} (plain : r.skip = .ok ()) (ok : readWord r cs ps = (v, .ok rest)) :
    v.skip = .ok () := by
  induction cs generalizing ps with
  | nil => cases ok; exact plain
  | cons c cs ih =>
      cases ps with
      | nil => cases ok
      | cons p ps =>
          rw [readWord] at ok
          split at ok
          · exact ih ok
          · cases ok

theorem skip_of_readNumber {negative : Bool} (ok : readNumber negative ps = (v, .ok rest)) : v.skip = .ok () := by
  unfold readNumber at ok
  split at ok
  · cases ok; rfl
  · cases ok

section

variable {items : List Raw × Rest} {members : List (RawString × Raw) × Rest} {k : RawString}

theorem skip_of_closeList (ok : closeList items = (v, .ok rest))
    (skip : ∀ l, items = (l, .ok rest) → Raw.skipItems l = .ok ()) : v.skip = .ok () := by
  obtain ⟨l, left⟩ := items
  cases ok
  rw [Raw.skip, skip l rfl]
  rfl

theorem skip_of_closeObject (ok : closeObject members = (v, .ok rest))
    (skip : ∀ ms, members = (ms, .ok rest) → Raw.skipMembers ms = .ok ()) : v.skip = .ok () := by
  obtain ⟨ms, left⟩ := members
  cases ok
  rw [Raw.skip, skip ms rfl]
  rfl

theorem skip_of_consItem (here : v.skip = .ok ()) (ok : consItem v items = (l, .ok rest))
    (skip : ∀ l, items = (l, .ok rest) → Raw.skipItems l = .ok ()) : Raw.skipItems l = .ok () := by
  obtain ⟨l, left⟩ := items
  cases ok
  rw [Raw.skipItems, here]
  exact skip l rfl

theorem skip_of_consMember (name : k.stop = none) (here : v.skip = .ok ()) (ok : consMember k v members = (ms, .ok rest))
    (skip : ∀ ms, members = (ms, .ok rest) → Raw.skipMembers ms = .ok ()) : Raw.skipMembers ms = .ok () := by
  obtain ⟨ms, left⟩ := members
  cases ok
  rw [Raw.skipMembers, name, here]
  exact skip ms rfl

end

/-- Nothing is wrong with what was read to its end. -/
theorem skip_of_read (fuel : Nat) :
    (∀ ps v rest, readValue fuel ps = (v, .ok rest) → v.skip = .ok ()) ∧
      (∀ ps rest l, readItems fuel ps = (l, .ok rest) → Raw.skipItems l = .ok ()) ∧
      (∀ ps rest ms, readMembers fuel ps = (ms, .ok rest) → Raw.skipMembers ms = .ok ()) := by
  induction fuel with
  | zero => exact ⟨nofun, nofun, nofun⟩
  | succ fuel ih =>
      obtain ⟨value, items, members⟩ := ih
      refine ⟨fun ps v rest ok => ?_, fun ps rest l ok => ?_, fun ps rest ms ok => ?_⟩
      · rw [readValue] at ok
        split at ok
        · cases ok
        · next r _ =>
            obtain ⟨rfl, ended⟩ := Prod.mk.inj ok
            exact congrArg Raw.outcome (stop_of_readString ended)
        · split at ok
          · cases ok; rfl
          · exact skip_of_closeList ok (items _ rest)
        · split at ok
          · cases ok; rfl
          · exact skip_of_closeObject ok (members _ rest)
          · cases ok
        · exact skip_of_readWord rfl ok
        · exact skip_of_readWord rfl ok
        · exact skip_of_readWord rfl ok
        · exact skip_of_readNumber ok
        · split at ok
          · exact skip_of_readNumber ok
          · cases ok
      · rw [readItems] at ok
        split at ok
        · cases ok
        next v behind first =>
        have here := value _ _ _ first
        split at ok
        · exact skip_of_consItem here ok (items _ rest)
        · cases ok
          rw [Raw.skipItems, here]
          rfl
        · cases ok
      · rw [readMembers] at ok
        split at ok
        · cases ok
        next k behind key =>
        have name := stop_of_readString (congrArg Prod.snd key)
        rw [key] at name
        split at ok
        case h_2 => cases ok
        split at ok
        · cases ok
        next v behind' first =>
        have here := value _ _ _ first
        split at ok
        · split at ok
          · exact skip_of_consMember name here ok (members _ rest)
          · cases ok
        · cases ok
          rw [Raw.skipMembers, name, here]
          rfl
        · cases ok

theorem readWord_ne_object {r : Raw} (plain : ∀ ms, r ≠ .object ms none) (cs : List Char) (left : Rest) :
    readWord r cs ps ≠ (.object ms none, left) := by
  induction cs generalizing ps with
  | nil => exact fun read => plain ms (congrArg Prod.fst read)
  | cons c cs ih =>
      cases ps with
      | nil => exact nofun
      | cons p ps =>
          rw [readWord]
          split
          · exact ih
          · exact nofun

theorem readNumber_ne_object (negative : Bool) (left : Rest) : readNumber negative ps ≠ (.object ms none, left) := by
  unfold readNumber
  split <;> exact nofun

/-- An object whose end was found was read to its end. -/
theorem rest_of_readValue {left : Rest} (read : readValue fuel ps = (.object ms none, left)) : ∃ rest, left = .ok rest := by
  cases fuel with
  | zero => cases read
  | succ fuel =>
      rw [readValue] at read
      split at read
      · cases read
      · cases read
      · split at read
        · cases read
        · cases read
      · split at read
        · exact ⟨_, congrArg Prod.snd read.symm⟩
        · obtain ⟨same, rfl⟩ := Prod.mk.inj read
          cases left : (readMembers fuel _).2 with
          | ok rest => exact ⟨rest, rfl⟩
          | error f =>
            obtain ⟨-, stop⟩ := Raw.object.inj same
            rw [left] at stop
            cases stop
        · cases read
      · exact absurd read (readWord_ne_object (fun _ => Raw.noConfusion) _ _)
      · exact absurd read (readWord_ne_object (fun _ => Raw.noConfusion) _ _)
      · exact absurd read (readWord_ne_object (fun _ => Raw.noConfusion) _ _)
      · exact absurd read (readNumber_ne_object _ _)
      · split at read
        · exact absurd read (readNumber_ne_object _ _)
        · cases read

/-- Nothing is wrong with the members of an object of a text that was read to its end. -/
theorem IsObject.skip (object : IsObject bytes ms) : ∀ m ∈ ms, m.2.skip = .ok () := by
  have whole : (Raw.object ms none).skip = .ok () := by
    unfold IsObject readText at object
    split at object
    · next v rest read =>
        cases congrArg RawText.value object
        exact (skip_of_read _).1 _ _ _ read
    · next v f read =>
        cases congrArg RawText.value object
        obtain ⟨rest, ended⟩ := rest_of_readValue read
        cases ended
  obtain ⟨_, members, -⟩ := bind_eq_ok whole
  clear object whole
  induction ms with
  | nil => exact List.forall_mem_nil _
  | cons m ms ih =>
      obtain ⟨_, -, members⟩ := bind_eq_ok members
      obtain ⟨_, here, members⟩ := bind_eq_ok members
      exact List.forall_mem_cons.mpr ⟨here, ih members⟩

end Json

end Sandbox
