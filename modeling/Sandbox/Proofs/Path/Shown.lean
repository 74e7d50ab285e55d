import Sandbox.Proofs.Path.Descend
import Sandbox.Proofs.Text.Pieces

/-!
Paths as they are shown.

A path that is shown is the text of a path again, with each stray run in a name replaced. A
replacement is neither a separator nor a dot, and it is never part of either, so showing a
path shows each of its components and keeps what they are (`components_shown`). A path that
is a text is shown as it is (`shown_ofString`).
-/

namespace Sandbox.Path

/-- The path that a path is shown as. -/
def shown (p : Path) : Path :=
  .ofString p.display

/-- The name that a name is shown as. -/
def shownName (n : Name) : Name :=
  Utf8.encode (Utf8.display n)

/-- The component that a component is shown as. -/
def Component.shown : Component → Component
  | .normal n => .normal (shownName n)
  | c => c

variable {p q : Path} {n : Name}

@[simp] theorem shown_ofString (s : String) : (ofString s).shown = ofString s := by
  rw [shown, display_ofString]

@[simp] theorem shownName_encode (t : List Char) : shownName (Utf8.encode t) = Utf8.encode t := by
  rw [shownName, Utf8.display_encode]

theorem bytes_shown (p : Path) : p.shown.bytes = shownName p.bytes := by
  rw [shown, display, ofString, String.toList_ofList, shownName]

/-! ### Names -/

/-- A name that is written without a replacement is shown as no other one is. -/
theorem shownName_eq_iff {t : List Char} (plain : '\uFFFD' ∉ t) : shownName n = Utf8.encode t ↔ n = Utf8.encode t :=
  Iff.trans ⟨Utf8.encode_injective, congrArg Utf8.encode⟩ (Utf8.display_eq_iff plain)

theorem shownName_eq_nil_iff : shownName n = [] ↔ n = [] :=
  shownName_eq_iff (t := []) (by decide)

theorem shownName_eq_dot_iff : shownName n = dot ↔ n = dot :=
  shownName_eq_iff (t := ['.']) (by decide)

theorem shownName_eq_dotDot_iff : shownName n = dotDot ↔ n = dotDot :=
  shownName_eq_iff (t := ['.', '.']) (by decide)

theorem separator_not_mem_shownName (plain : separator ∉ n) : separator ∉ shownName n := by
  intro mem
  have slash := InstanceId.separator_mem_encode mem
  exact plain (Utf8.mem_of_mem_display slash (by decide) (by decide))

theorem isSkipped_shownName (n : Name) : isSkipped (shownName n) = isSkipped n := by
  simp only [isSkipped, shownName_eq_nil_iff, shownName_eq_dot_iff]

theorem innerComponent?_shownName (n : Name) :
    innerComponent? (shownName n) = (innerComponent? n).map Component.shown := by
  simp only [innerComponent?, isSkipped_shownName, shownName_eq_dotDot_iff]
  split
  · rfl
  · split <;> rfl

/-! ### Segments -/

theorem shownName_append_separator (bs cs : List UInt8) :
    shownName (bs ++ separator :: cs) = shownName bs ++ separator :: shownName cs := by
  have scanned := Utf8.scan_append_ascii (b := separator) (by decide) bs cs
  rw [shownName, Utf8.display, scanned, List.map_append, Utf8.encode_append]
  rfl

theorem shownName_unsplit (ns : List Name) : shownName (unsplit ns) = unsplit (ns.map shownName) := by
  induction ns with
  | nil => rfl
  | cons n ns ih =>
      cases ns with
      | nil => rfl
      | cons m ms =>
          have parts := shownName_append_separator n (unsplit (m :: ms))
          rw [ih] at parts
          exact parts

/-- The segments of a path are shown one by one. -/
theorem split_shown (p : Path) : split p.shown.bytes = (split p.bytes).map shownName := by
  have whole : unsplit (split p.bytes) = p.bytes := Separated.join_split separator p.bytes
  rw [bytes_shown, ← whole, shownName_unsplit, whole]
  cases segments : split p.bytes with
  | nil => exact absurd segments (Separated.split_ne_nil separator p.bytes)
  | cons s ss =>
      refine Separated.split_join fun m mem => ?_
      obtain ⟨n, there, rfl⟩ := List.mem_map.mp (List.map_cons ▸ mem)
      exact separator_not_mem_shownName (separator_not_mem_of_mem_split (segments ▸ there))

/-! ### Components -/

/-- A path begins at the root if its first segment is empty and not the only one. -/
theorem isAbsolute_iff : p.isAbsolute = true ↔ ∃ n ns, split p.bytes = [] :: n :: ns := by
  obtain ⟨bytes⟩ := p
  cases bytes with
  | nil => simp [isAbsolute, split, Separated.split]
  | cons b bs =>
      rw [isAbsolute, split, Separated.split]
      cases segments : Separated.split separator bs with
      | nil => exact absurd segments (Separated.split_ne_nil separator bs)
      | cons s ss => by_cases begins : b = separator <;> simp [begins]

theorem isAbsolute_shown (p : Path) : p.shown.isAbsolute = p.isAbsolute := by
  rw [Bool.eq_iff_iff, isAbsolute_iff, isAbsolute_iff, split_shown]
  rcases split p.bytes with _ | ⟨s, _ | ⟨n, ns⟩⟩ <;> simp [shownName_eq_nil_iff]

theorem firstComponent?_shown (p : Path) (n : Name) :
    p.shown.firstComponent? (shownName n) = (p.firstComponent? n).map Component.shown := by
  simp only [firstComponent?, isAbsolute_shown, shownName_eq_dot_iff, innerComponent?_shownName]
  split
  · rfl
  · split <;> rfl

/-- The components of a path are shown one by one. -/
theorem components_shown (p : Path) : p.shown.components = p.components.map Component.shown := by
  unfold components
  rw [split_shown]
  cases split p.bytes with
  | nil => rfl
  | cons s ss =>
      simp only [List.map_cons, firstComponent?_shown, List.filterMap_map, Function.comp_def,
        innerComponent?_shownName, List.map_append, List.map_filterMap]
      cases p.firstComponent? s <;> rfl

end Sandbox.Path
