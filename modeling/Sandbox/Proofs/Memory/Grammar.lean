import Mathlib.Algebra.Group.Nat.Defs
import Mathlib.Data.List.Induction
import Mathlib.Data.List.TakeWhile
import Sandbox.Memory.Limit

/-!
The grammar of memory limits.

A limit is written as a numeral, a unit or none, and a mark for bytes or none
(`Memory.Denotes`). No text has two amounts (`Denotes.unique`). What is read is the amount
of the text if there is one and 64 bits hold it, and otherwise nothing
(`parseLimit_accepts_grammar`): the numeral and its multiple by the unit may both be too
large, and the unit and the mark may both be a `B`, but neither makes a case of its own.
-/

namespace Sandbox.Memory

/-- Decimal digits, at least one, and the number that they stand for. -/
inductive Numeral : List Char → Nat → Prop
  | digit {d : Nat} : d < 10 → Numeral [d.digitChar] d
  | append {cs : List Char} {n d : Nat} : Numeral cs n → d < 10 → Numeral (cs ++ [d.digitChar]) (10 * n + d)

/-- A unit, or none, and what it multiplies a number by. -/
inductive Scale : List Char → Nat → Prop
  | bytes : Scale [] 1
  | kibi : Scale ['K'] 1024
  | mebi : Scale ['M'] (1024 ^ 2)
  | gibi : Scale ['G'] (1024 ^ 3)

/-- A mark for bytes, or none. -/
inductive Mark : List Char → Prop
  | none : Mark []
  | upper : Mark ['B']
  | lower : Mark ['b']

/-- A text is that of a limit, which is this many bytes. -/
inductive Denotes : List Char → Nat → Prop
  | intro {digits unit mark : List Char} {n factor : Nat} :
    Numeral digits n → Scale unit factor → Mark mark → Denotes (digits ++ unit ++ mark) (n * factor)

variable {cs digits unit mark : List Char} {n m factor : Nat}

/-! ### Numerals -/

theorem isDigit_digitChar {d : Nat} (small : d < 10) : d.digitChar.isDigit = true :=
  Nat.isDigit_digitChar.trans (decide_eq_true small)

theorem exists_digitChar (digit : c.isDigit = true) : ∃ d < 10, d.digitChar = c := by
  rw [Char.isDigit_iff_toNat] at digit
  have zero : '0'.toNat = 48 := rfl
  have nine : '9'.toNat = 57 := rfl
  refine ⟨c.toNat - 48, by omega, Char.toNat_inj.mp ?_⟩
  rw [Nat.toNat_digitChar_of_lt_ten (by omega)]
  omega

theorem ofDigitChars_concat {d : Nat} (small : d < 10) (cs : List Char) :
    Nat.ofDigitChars 10 (cs ++ [d.digitChar]) 0 = 10 * Nat.ofDigitChars 10 cs 0 + d := by
  rw [Nat.ofDigitChars_append, Nat.ofDigitChars_cons_digitChar_of_lt_ten small, Nat.ofDigitChars_nil]

/-- A numeral is all digits, and its value is the one that is read. -/
theorem numeral_iff :
    Numeral digits n ↔ digits ≠ [] ∧ (∀ c ∈ digits, c.isDigit = true) ∧ Nat.ofDigitChars 10 digits 0 = n := by
  constructor
  · intro numeral
    induction numeral with
    | digit small =>
        refine ⟨List.cons_ne_nil _ _, List.forall_mem_singleton.mpr (isDigit_digitChar small), ?_⟩
        simpa using ofDigitChars_concat small []
    | append _ small ih =>
        obtain ⟨-, front, value⟩ := ih
        refine ⟨List.concat_ne_nil _ _, List.forall_mem_append.mpr ⟨front, ?_⟩, ?_⟩
        · exact List.forall_mem_singleton.mpr (isDigit_digitChar small)
        · rw [ofDigitChars_concat small, value]
  · rintro ⟨nonempty, all, rfl⟩
    induction digits using List.reverseRecOn with
    | nil => exact absurd rfl nonempty
    | append_singleton digits c ih =>
        obtain ⟨front, last⟩ := List.forall_mem_append.mp all
        obtain ⟨d, small, rfl⟩ := exists_digitChar (last c (List.mem_singleton_self c))
        rw [ofDigitChars_concat small]
        cases digits with
        | nil => simpa using Numeral.digit small
        | cons first rest => exact (ih (List.cons_ne_nil _ _) front).append small

/-- Zeros in front of a numeral do not change its value. -/
theorem Numeral.zeros (numeral : Numeral digits n) (k : Nat) : Numeral (List.replicate k '0' ++ digits) n := by
  obtain ⟨nonempty, all, value⟩ := numeral_iff.mp numeral
  have zero : ∀ c ∈ List.replicate k '0', c.isDigit = true := by
    intro c mem
    rw [List.eq_of_mem_replicate mem]
    rfl
  refine numeral_iff.mpr ⟨List.append_ne_nil_of_right_ne_nil _ nonempty, List.forall_mem_append.mpr ⟨zero, all⟩, ?_⟩
  rw [Nat.ofDigitChars_append, Nat.ofDigitChars_replicate_zero, Nat.mul_zero, value]

/-! ### What stands behind the digits -/

theorem factor?_eq_some_iff :
    factor? cs = some factor ↔ ∃ unit mark, Scale unit factor ∧ Mark mark ∧ cs = unit ++ mark := by
  constructor
  · intro known
    unfold factor? at known
    split at known <;> cases known
    · exact ⟨_, _, .bytes, .none, rfl⟩
    · exact ⟨_, _, .bytes, .upper, rfl⟩
    · exact ⟨_, _, .bytes, .lower, rfl⟩
    · exact ⟨_, _, .kibi, .none, rfl⟩
    · exact ⟨_, _, .kibi, .upper, rfl⟩
    · exact ⟨_, _, .kibi, .lower, rfl⟩
    · exact ⟨_, _, .mebi, .none, rfl⟩
    · exact ⟨_, _, .mebi, .upper, rfl⟩
    · exact ⟨_, _, .mebi, .lower, rfl⟩
    · exact ⟨_, _, .gibi, .none, rfl⟩
    · exact ⟨_, _, .gibi, .upper, rfl⟩
    · exact ⟨_, _, .gibi, .lower, rfl⟩
  · rintro ⟨unit, mark, scale, marked, rfl⟩
    cases scale <;> cases marked <;> rfl

/-- A unit and a mark begin with no digit. -/
theorem isDigit_suffix (scale : Scale unit factor) (marked : Mark mark) :
    (unit ++ mark).takeWhile Char.isDigit = [] ∧ (unit ++ mark).dropWhile Char.isDigit = unit ++ mark := by
  cases scale <;> cases marked <;> exact ⟨rfl, rfl⟩

/-! ### Limits -/

/-- The digits at the front of a text are its numeral; what is left is its unit and mark. -/
theorem denotes_iff :
    Denotes cs n ↔ cs.takeWhile Char.isDigit ≠ [] ∧ ∃ factor, factor? (cs.dropWhile Char.isDigit) = some factor ∧
      Nat.ofDigitChars 10 (cs.takeWhile Char.isDigit) 0 * factor = n := by
  constructor
  · rintro ⟨numeral, scale, marked⟩
    obtain ⟨nonempty, all, rfl⟩ := numeral_iff.mp numeral
    obtain ⟨front, back⟩ := isDigit_suffix scale marked
    rw [List.append_assoc, List.takeWhile_append_of_pos all, List.dropWhile_append_of_pos all, front, back,
      List.append_nil]
    exact ⟨nonempty, _, factor?_eq_some_iff.mpr ⟨_, _, scale, marked, rfl⟩, rfl⟩
  · rintro ⟨nonempty, factor, known, rfl⟩
    obtain ⟨unit, mark, scale, marked, rest⟩ := factor?_eq_some_iff.mp known
    have numeral := numeral_iff.mpr ⟨nonempty, fun c mem => List.mem_takeWhile_imp mem, rfl⟩
    have limit := Denotes.intro numeral scale marked
    rwa [List.append_assoc, ← rest, List.takeWhile_append_dropWhile] at limit

/-- No text is that of two limits. -/
theorem Denotes.unique (limit : Denotes cs n) (other : Denotes cs m) : n = m := by
  obtain ⟨-, factor, known, rfl⟩ := denotes_iff.mp limit
  obtain ⟨-, factor', known', rfl⟩ := denotes_iff.mp other
  cases known.symm.trans known'
  rfl

theorem Denotes.zeros (limit : Denotes cs n) (k : Nat) : Denotes (List.replicate k '0' ++ cs) n := by
  obtain ⟨numeral, scale, marked⟩ := limit
  rw [List.append_assoc, ← List.append_assoc, ← List.append_assoc]
  exact .intro (numeral.zeros k) scale marked

theorem toNat_parseLimit {text : String} (limit : Denotes text.toList n) (fits : n < 2 ^ 64) :
    (parseLimit text).toNat = n := by
  obtain ⟨nonempty, factor, known, rfl⟩ := denotes_iff.mp limit
  simp only [parseLimit, known]
  rw [if_pos ⟨nonempty, fits⟩]
  exact UInt64.toNat_ofNat_of_lt' fits

theorem parseLimit_eq_zero {text : String} (exceeds : ∀ n, Denotes text.toList n → 2 ^ 64 ≤ n) :
    parseLimit text = 0 := by
  unfold parseLimit
  dsimp only
  split
  · rfl
  · next factor known =>
      refine if_neg fun ⟨nonempty, fits⟩ => ?_
      exact absurd fits (Nat.not_lt.mpr (exceeds _ (denotes_iff.mpr ⟨nonempty, factor, known, rfl⟩)))

/-- The bytes that a text denotes are read from it if there is room for their number, with
any zeros in front; every other text, and one that denotes more, is read as no limit. -/
theorem parseLimit_accepts_grammar (text : String) :
    (∀ n, Denotes text.toList n → n < 2 ^ 64 → (parseLimit text).toNat = n ∧
      ∀ zeros : Nat, (parseLimit (.ofList (List.replicate zeros '0') ++ text)).toNat = n) ∧
    ((∀ n, Denotes text.toList n → 2 ^ 64 ≤ n) → parseLimit text = 0) := by
  refine ⟨fun n limit fits => ⟨toNat_parseLimit limit fits, fun zeros => ?_⟩, parseLimit_eq_zero⟩
  refine toNat_parseLimit ?_ fits
  rw [String.toList_append, String.toList_ofList]
  exact limit.zeros zeros

/-- A limit with a unit and a mark, and a text that ends with two marks. -/
theorem parseLimit_accepts_grammar_sample :
    (parseLimit "64Mb").toNat = 64 * 1024 ^ 2 ∧ parseLimit "10MBB" = 0 := by
  constructor
  · have digits : Numeral ['6', '4'] 64 := .append (.digit (d := 6) (by decide)) (d := 4) (by decide)
    exact ((parseLimit_accepts_grammar "64Mb").1 _ (.intro digits .mebi .lower) (by decide)).1
  · refine (parseLimit_accepts_grammar "10MBB").2 fun n limit => ?_
    obtain ⟨-, factor, known, -⟩ := denotes_iff.mp limit
    cases known

end Sandbox.Memory
