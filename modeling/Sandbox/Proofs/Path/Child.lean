import Sandbox.Host.Walk
import Sandbox.InstanceId

/-!
Paths that go one name further.

A child path is written by putting a name behind a path. What is needed of it is
that it means the same however the path is written: its names are those of the
path and one more (`names_child`), so are its components (`components_child`), and
its parent is the path again when that ends with a name itself
(`parent?_child_child`). All of this needs an ordinary name, one that cannot lead
elsewhere; the texts of instance ids are such names (`InstanceId.ordinary_name`).
-/

namespace Sandbox.Path

/-- The segments of a path that are not empty. -/
def names (p : Path) : List Name :=
  (split p.bytes).filter (· ≠ [])

/-- A name that stands for an entry of the directory it is looked up in. -/
structure Ordinary (n : Name) : Prop where
  ne_nil : n ≠ []
  ne_dot : n ≠ dot
  ne_dotDot : n ≠ dotDot
  separator_not_mem : separator ∉ n

theorem split_append (bs cs : List UInt8) : split (bs ++ separator :: cs) = split bs ++ split cs :=
  Separated.split_append_cons separator bs cs

theorem firstComponent?_congr {p q : Path} (same : q.isAbsolute = p.isAbsolute) :
    q.firstComponent? = p.firstComponent? := by
  funext s
  rw [firstComponent?, firstComponent?, same]

/-- A path without a separator does not begin at the root. -/
theorem isAbsolute_of_not_mem {n : Name} (plain : separator ∉ n) : (Path.mk n).isAbsolute = false := by
  cases n with
  | nil => rfl
  | cons b bs =>
      have ne : b ≠ separator := fun e => plain (e ▸ List.mem_cons_self)
      simpa [isAbsolute] using ne

namespace Ordinary

variable {n : Name}

theorem split_eq (h : Ordinary n) : split n = [n] :=
  Separated.split_of_not_mem h.separator_not_mem

theorem not_isAbsolute (h : Ordinary n) : (Path.mk n).isAbsolute = false :=
  isAbsolute_of_not_mem h.separator_not_mem

theorem innerComponent?_eq (h : Ordinary n) : innerComponent? n = some (.normal n) := by
  simp [innerComponent?, isSkipped, h.ne_nil, h.ne_dot, h.ne_dotDot]

theorem not_isSkipped (h : Ordinary n) : isSkipped n = false := by
  simp [isSkipped, h.ne_nil, h.ne_dot]

end Ordinary

variable {n : Name}

/-! ### How a child is written -/

/-- The bytes in front of the name of a child. They are empty or end with a
separator. -/
def stem (p : Path) : List UInt8 :=
  if p.bytes = [] || p.hasTrailingSeparator then p.bytes else p.bytes ++ [separator]

theorem bytes_child (p : Path) (h : Ordinary n) : (p.child n).bytes = p.stem ++ n := by
  unfold child join stem
  rw [if_neg (by simp [h.not_isAbsolute])]
  split <;> simp

/-- A path is empty, or its stem ends with a separator and the path is as long or
shorter by the separator. -/
theorem stem_cases (p : Path) :
    p.bytes = [] ∧ p.stem = [] ∨
      ∃ bs, p.stem = bs ++ [separator] ∧ (p.bytes = bs ++ [separator] ∨ p.bytes = bs ∧ bs ≠ []) := by
  unfold stem
  by_cases empty : p.bytes = []
  · exact .inl ⟨empty, by simp [empty]⟩
  · refine .inr ?_
    by_cases trailing : p.hasTrailingSeparator = true
    · obtain ⟨bs, hbs⟩ := List.getLast?_eq_some_iff.mp (of_decide_eq_true trailing)
      exact ⟨bs, by simp [trailing, hbs], .inl hbs⟩
    · exact ⟨p.bytes, by simp [empty, trailing], .inr ⟨rfl, empty⟩⟩

theorem hasTrailingSeparator_child (p : Path) (h : Ordinary n) :
    (p.child n).hasTrailingSeparator = false := by
  have last : (p.child n).bytes.getLast? = some (n.getLast h.ne_nil) := by
    rw [bytes_child p h, List.getLast?_append, List.getLast?_eq_some_getLast h.ne_nil]
    rfl
  have ne : n.getLast h.ne_nil ≠ separator := fun e =>
    h.separator_not_mem (e ▸ List.getLast_mem h.ne_nil)
  simpa [hasTrailingSeparator, last] using ne

theorem isAbsolute_child (p : Path) (h : Ordinary n) : (p.child n).isAbsolute = p.isAbsolute := by
  rcases stem_cases p with ⟨empty, stem⟩ | ⟨bs, stem, bytes | ⟨bytes, ne⟩⟩
  · have := h.not_isAbsolute
    simpa [isAbsolute, bytes_child p h, empty, stem] using this
  · simp [isAbsolute, bytes_child p h, stem, bytes, List.head?_append]
  · cases bs with
    | nil => exact absurd rfl ne
    | cons b bs => simp [isAbsolute, bytes_child p h, stem, bytes]

theorem bytes_child_ne_nil (p : Path) (h : Ordinary n) : (p.child n).bytes ≠ [] := by
  simp [bytes_child p h, h.ne_nil]

/-! ### What a child means -/

/-- The segments of a child are those of the path, of which an empty one at the end
gives way, and the name. -/
theorem split_child (p : Path) (h : Ordinary n) :
    ∃ ss, split (p.child n).bytes = ss ++ [n] ∧ (split p.bytes = ss ∨ split p.bytes = ss ++ [[]]) := by
  rw [bytes_child p h]
  rcases stem_cases p with ⟨empty, stem⟩ | ⟨bs, stem, bytes⟩
  · exact ⟨[], by simp [stem, h.split_eq], .inr (by simp [empty, split, Separated.split])⟩
  · have whole : split (bs ++ [separator] ++ n) = split bs ++ [n] := by
      rw [List.append_assoc, List.singleton_append, split_append, h.split_eq]
    refine ⟨split bs, by rw [stem, whole], ?_⟩
    rcases bytes with bytes | ⟨bytes, _⟩
    · exact .inr (bytes ▸ split_append bs [])
    · exact .inl (by rw [bytes])

/-- The names of a child are those of the path and one more. -/
theorem names_child (p : Path) (h : Ordinary n) : (p.child n).names = p.names ++ [n] := by
  obtain ⟨ss, child, path⟩ := split_child p h
  unfold names
  rcases path with path | path <;> simp [child, path, h.ne_nil]

/-- The components of a child are those of the path and one more. -/
theorem components_child (p : Path) (h : Ordinary n) :
    (p.child n).components = p.components ++ [.normal n] := by
  obtain ⟨ss, child, path⟩ := split_child p h
  have first := firstComponent?_congr (isAbsolute_child p h)
  unfold components
  rw [child, first]
  cases ss with
  | nil =>
      -- Only the empty path has no segment in front of the name.
      have empty : p.bytes = [] := by
        rcases path with path | path
        · exact absurd path (Separated.split_ne_nil separator p.bytes)
        · have := Separated.join_split separator p.bytes
          rw [show Separated.split separator p.bytes = [[]] from path] at this
          exact this.symm
      have relative : p.isAbsolute = false := by simp [isAbsolute, empty]
      have nothing : innerComponent? [] = none := rfl
      simp [split, Separated.split, empty, firstComponent?, relative, h.ne_dot, h.innerComponent?_eq,
        nothing, show [] ≠ dot by decide]
  | cons s ss =>
      have nothing : innerComponent? [] = none := rfl
      rcases path with path | path <;>
        simp [path, List.filterMap_append, h.innerComponent?_eq, nothing]

/-- The steps to a child are its names. -/
theorem steps_child (p : Path) (h : Ordinary n) : (p.child n).steps = p.names ++ [n] := by
  rw [← names_child p h]
  exact if_neg (by simp [hasTrailingSeparator_child p h])

theorem origin_child (p : Path) (h : Ordinary n) (dir : Location) :
    (p.child n).origin dir = p.origin dir := by
  rw [origin, origin, isAbsolute_child p h]

theorem hasZeroByte_child (p : Path) (h : Ordinary n) :
    (p.child n).hasZeroByte = (p.hasZeroByte || n.contains 0) := by
  have stem : p.stem.contains 0 = p.bytes.contains 0 := by
    unfold stem
    split
    · rfl
    · simp [separator]
  rw [hasZeroByte, bytes_child p h, List.contains_append, stem, hasZeroByte]

/-- Nothing is trimmed behind an ordinary name. -/
theorem trimSkipped_concat (ss : List Name) (h : Ordinary n) : trimSkipped (ss ++ [n]) = ss ++ [n] := by
  simp [trimSkipped, h.not_isSkipped]

/-- The parent of a path that ends with a name, by its segments. -/
theorem parent?_of_split {p : Path} {s : Name} (ss : List Name)
    (segments : split p.bytes = s :: (ss ++ [n])) (h : Ordinary n) :
    p.parent? =
      match trimSkipped ss with
      | [] => if p.isAbsolute then some ⟨[separator]⟩ else some ⟨s⟩
      | ss => some ⟨unsplit (s :: ss)⟩ := by
  rw [parent?, segments]
  simp only [trimSkipped_concat ss h]
  split
  · next empty => exact absurd empty (by simp)
  · rewrite [List.dropLast_concat]
    cases trimSkipped ss <;> rfl

/-- The parent of a child is the path, if that ends with a name itself. -/
theorem parent?_child_child (p : Path) {m : Name} (hm : Ordinary m) (hn : Ordinary n) :
    ((p.child m).child n).parent? = some (p.child m) := by
  have nonempty := bytes_child_ne_nil p hm
  have noTrailing := hasTrailingSeparator_child p hm
  have bytes : ((p.child m).child n).bytes = (p.child m).bytes ++ separator :: n := by
    simp [bytes_child (p.child m) hn, stem, nonempty, noTrailing]
  have whole : split ((p.child m).child n).bytes = split (p.child m).bytes ++ [n] := by
    rw [bytes, split_append, hn.split_eq]
  have joined : unsplit (split (p.child m).bytes) = (p.child m).bytes :=
    Separated.join_split separator _
  obtain ⟨ss, child, _⟩ := split_child p hm
  rw [child] at joined
  cases ss with
  | nil =>
      have written : p.child m = ⟨m⟩ := congrArg Path.mk joined.symm
      have relative : ((p.child m).child n).isAbsolute = false := by
        rw [isAbsolute_child _ hn, written, hm.not_isAbsolute]
      rw [parent?_of_split [] (by simpa [child] using whole) hn, relative]
      exact congrArg some written.symm
  | cons s ss =>
      have written : p.child m = ⟨unsplit (s :: (ss ++ [m]))⟩ := congrArg Path.mk joined.symm
      rw [parent?_of_split (ss ++ [m]) (by simpa [child] using whole) hn,
        trimSkipped_concat ss hm, written]
      cases ss <;> rfl

end Sandbox.Path

namespace Sandbox.InstanceId

open Sandbox.Path

/-- The id as the name of a directory. -/
def name (id : InstanceId) : Name :=
  Utf8.encode id.text.toList

/-- Only a slash is written with the byte of a slash. -/
theorem separator_mem_encodeChar {c : Char} (h : separator ∈ Utf8.encodeChar c) : c = '/' := by
  have bound : c.toNat < 0x110000 := by
    have := c.valid
    simp only [UInt32.isValidChar, Nat.isValidChar, Char.toNat_val] at this
    omega
  have byte {k : Nat} (small : k < 256) (e : separator = .ofNat k) : k = 0x2F := by
    have := congrArg UInt8.toNat e
    rw [UInt8.toNat_ofNat_of_lt' small] at this
    exact this.symm
  unfold Utf8.encodeChar at h
  simp only at h
  split at h
  · next ascii =>
      have := byte (by omega) (List.mem_singleton.mp h)
      exact Char.toNat_inj.mp this
  -- The bytes of any other character are 128 or more.
  · have high : ∀ k ∈ [0xC0 + c.toNat / 0x40, 0xE0 + c.toNat / 0x1000, 0xF0 + c.toNat / 0x40000,
        0x80 + c.toNat / 0x1000 % 0x40, 0x80 + c.toNat / 0x40 % 0x40, 0x80 + c.toNat % 0x40],
        k < 256 → separator ≠ .ofNat k := by
      intro k mem small e
      have := byte small e
      simp only [List.mem_cons, List.not_mem_nil, or_false] at mem
      omega
    split at h
    · simp only [List.mem_cons, List.not_mem_nil, or_false] at h
      rcases h with e | e <;> exact absurd e (high _ (by simp) (by omega))
    · split at h
      · simp only [List.mem_cons, List.not_mem_nil, or_false] at h
        rcases h with e | e | e <;> exact absurd e (high _ (by simp) (by omega))
      · simp only [List.mem_cons, List.not_mem_nil, or_false] at h
        rcases h with e | e | e | e <;> exact absurd e (high _ (by simp) (by omega))

theorem separator_mem_encode {cs : List Char} (h : separator ∈ Utf8.encode cs) : '/' ∈ cs := by
  obtain ⟨c, mem, inChar⟩ := List.mem_flatMap.mp h
  exact separator_mem_encodeChar inChar ▸ mem

/-- The text of an id cannot lead elsewhere. -/
theorem ordinary_name (id : InstanceId) : Ordinary id.name := by
  obtain ⟨text, segment⟩ := id
  simp only [isSegment, Bool.and_eq_true, decide_eq_true_eq, Bool.not_eq_true'] at segment
  obtain ⟨⟨⟨nonempty, notDot⟩, notDotDot⟩, noSlash⟩ := segment
  have differs {s : String} (ne : text ≠ s) : Utf8.encode text.toList ≠ Utf8.encode s.toList :=
    fun e => ne (String.toList_injective (Utf8.encode_injective e))
  refine ⟨differs nonempty, differs notDot, differs notDotDot, fun mem => ?_⟩
  have := separator_mem_encode mem
  simp_all

theorem name_injective {id other : InstanceId} (h : id.name = other.name) : id = other := by
  have texts := String.toList_injective (Utf8.encode_injective h)
  cases id
  cases other
  congr

end Sandbox.InstanceId
