/-!
Lists split at a separator and joined by one.

A split list has one part more than there are separators; parts may be empty.
Main facts: joining undoes splitting (`join_split`) and the other way round
(`split_join`), and the parts on the two sides of a separator are split on their own
(`split_append_cons`).
-/

namespace Sandbox.Separated

/-- The parts between separators. -/
def split [DecidableEq α] (sep : α) : List α → List (List α)
  | [] => [[]]
  | a :: as =>
    if a = sep then [] :: split sep as
    else
      match split sep as with
      | [] => [[a]]
      | part :: parts => (a :: part) :: parts

/-- Parts with separators between them. -/
def join (sep : α) : List (List α) → List α
  | [] => []
  | [part] => part
  | part :: parts => part ++ sep :: join sep parts

theorem split_ne_nil [DecidableEq α] (sep : α) (as : List α) : split sep as ≠ [] := by
  cases as with
  | nil => simp [split]
  | cons a as =>
    rw [split]
    split
    · simp
    · split <;> simp

/-- Joining undoes splitting. -/
theorem join_split [DecidableEq α] (sep : α) (as : List α) : join sep (split sep as) = as := by
  induction as with
  | nil => rfl
  | cons a as ih =>
    rw [split]
    split
    case isTrue h =>
      cases parts : split sep as with
      | nil => exact absurd parts (split_ne_nil sep as)
      | cons part parts' =>
        rw [parts] at ih
        simp [join, ih, h]
    case isFalse h =>
      cases parts : split sep as with
      | nil => exact absurd parts (split_ne_nil sep as)
      | cons part parts' =>
        rw [parts] at ih
        cases parts' with
        | nil => simpa [join] using ih
        | cons q qs => simpa [join] using ih

/-- What a separator divides is split on its own. -/
theorem split_append_cons [DecidableEq α] (sep : α) (as bs : List α) :
    split sep (as ++ sep :: bs) = split sep as ++ split sep bs := by
  induction as with
  | nil => simp [split]
  | cons a as ih =>
    rw [List.cons_append, split, split, ih]
    split
    · rfl
    · cases parts : split sep as with
      | nil => exact absurd parts (split_ne_nil sep as)
      | cons part parts' => rfl

/-- Without a separator there is one part. -/
theorem split_of_not_mem [DecidableEq α] {sep : α} {as : List α} (h : sep ∉ as) :
    split sep as = [as] := by
  induction as with
  | nil => rfl
  | cons a as ih =>
    rw [List.mem_cons, not_or] at h
    rw [split, if_neg (Ne.symm h.1), ih h.2]

/-- No part holds a separator. -/
theorem not_mem_of_mem_split [DecidableEq α] {sep : α} {as part : List α} (mem : part ∈ split sep as) :
    sep ∉ part := by
  induction as generalizing part with
  | nil => simp [split] at mem; simp [mem]
  | cons a as ih =>
    rw [split] at mem
    split at mem
    · rcases List.mem_cons.1 mem with rfl | mem
      · exact List.not_mem_nil
      · exact ih mem
    · next ne =>
      cases parts : split sep as with
      | nil => exact absurd parts (split_ne_nil sep as)
      | cons first rest =>
        rw [parts] at mem ih
        rcases List.mem_cons.1 mem with rfl | mem
        · simpa [Ne.symm ne] using ih List.mem_cons_self
        · exact ih (List.mem_cons_of_mem _ mem)

/-- What is not in a part separates two. -/
theorem eq_or_mem_of_mem [DecidableEq α] {sep a : α} {as : List α} (mem : a ∈ as) :
    a = sep ∨ ∃ part ∈ split sep as, a ∈ part := by
  rw [Decidable.or_iff_not_imp_left]
  intro ne
  induction as with
  | nil => cases mem
  | cons b as ih =>
    rw [split]
    split
    · next same =>
      rcases List.mem_cons.1 mem with rfl | mem
      · exact absurd same ne
      · obtain ⟨part, later, inside⟩ := ih mem
        exact ⟨part, List.mem_cons_of_mem _ later, inside⟩
    · cases parts : split sep as with
      | nil => exact absurd parts (split_ne_nil sep as)
      | cons first rest =>
        rcases List.mem_cons.1 mem with rfl | mem
        · exact ⟨a :: first, List.mem_cons_self, List.mem_cons_self⟩
        · obtain ⟨part, later, inside⟩ := ih mem
          rw [parts] at later
          rcases List.mem_cons.1 later with rfl | later
          · exact ⟨b :: part, List.mem_cons_self, List.mem_cons_of_mem b inside⟩
          · exact ⟨part, List.mem_cons_of_mem _ later, inside⟩

/-- Splitting undoes joining, as long as no part holds a separator. -/
theorem split_join [DecidableEq α] {sep : α} {part : List α} {parts : List (List α)}
    (plain : ∀ p ∈ part :: parts, sep ∉ p) : split sep (join sep (part :: parts)) = part :: parts := by
  have first := split_of_not_mem (plain part List.mem_cons_self)
  induction parts generalizing part with
  | nil => exact first
  | cons next parts ih =>
    have rest := fun p mem => plain p (List.mem_cons_of_mem _ mem)
    rw [join, split_append_cons, first, ih rest (split_of_not_mem (rest next List.mem_cons_self))]
    · rfl
    · exact List.cons_ne_nil _ _

/-- A list has one part more than separators. -/
theorem length_split [DecidableEq α] (sep : α) (as : List α) : (split sep as).length = as.count sep + 1 := by
  induction as with
  | nil => rfl
  | cons a as ih =>
    rw [split, List.count_cons]
    split
    · next same => simp [ih, same]
    · next ne =>
      cases parts : split sep as with
      | nil => exact absurd parts (split_ne_nil sep as)
      | cons part parts =>
        rw [parts] at ih
        simpa [ne] using ih

theorem mem_join {a sep : α} {part : List α} {parts : List (List α)} (inside : a ∈ part) (mem : part ∈ parts) :
    a ∈ join sep parts := by
  induction parts with
  | nil => cases mem
  | cons first rest ih =>
    cases rest with
    | nil => rwa [← List.mem_singleton.1 mem]
    | cons next rest =>
      rw [join]
      · rcases List.mem_cons.1 mem with rfl | mem
        · exact List.mem_append_left _ inside
        · exact List.mem_append_right _ (List.mem_cons_of_mem _ (ih mem))
      · exact List.cons_ne_nil _ _

theorem length_le_length_split [DecidableEq α] (sep : α) (parts : List (List α)) :
    parts.length ≤ (split sep (join sep parts)).length := by
  induction parts with
  | nil => exact Nat.zero_le _
  | cons part parts ih =>
    cases parts with
    | nil => rw [length_split]; exact Nat.le_add_left 1 _
    | cons next parts =>
      rw [join, split_append_cons, List.length_append, List.length_cons, length_split sep part]
      · omega
      · exact List.cons_ne_nil _ _

/-- Splitting gives as many parts as were joined only if no part holds a separator. -/
theorem not_mem_of_length_split [DecidableEq α] {sep : α} {part : List α} {parts : List (List α)}
    (same : (split sep (join sep (part :: parts))).length = (part :: parts).length) :
    ∀ p ∈ part :: parts, sep ∉ p := by
  induction parts generalizing part with
  | nil =>
    have none : part.count sep + 1 = 1 := (length_split sep part).symm.trans same
    intro p mem
    rw [List.mem_singleton.1 mem]
    exact List.count_eq_zero.1 (Nat.succ.inj none)
  | cons next parts ih =>
    rw [join, split_append_cons, List.length_append, length_split sep part, List.length_cons] at same
    · have least := length_le_length_split sep (next :: parts)
      have none : part.count sep = 0 := by omega
      exact List.forall_mem_cons.2 ⟨List.count_eq_zero.1 none, ih (by omega)⟩
    · exact List.cons_ne_nil _ _

end Sandbox.Separated
