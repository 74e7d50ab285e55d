import Mathlib.Algebra.Order.Ring.Rat
import Mathlib.Data.List.Basic
import Mathlib.Tactic.Linarith
import Mathlib.Tactic.NormNum
import Mathlib.Tactic.Qify
import Mathlib.Tactic.Ring
import Sandbox.Memory.Amount
import Sandbox.Proofs.Memory.Grammar
import Sandbox.Proofs.Number.Rounding

/-!
What amounts of memory say.

An amount is shown as a figure and a unit (`Memory.Amount`), and no text is that of two
amounts (`Amount.unique`). What is shown is as close to the bytes as one decimal allows, and
more bytes are never shown as less, also where the unit changes: the greatest figure of a
unit is the least amount of the next one (`showAmount_faithful_and_monotone`).
-/

namespace Sandbox.Memory

/-! ### Texts -/

/-- A figure: a numeral, or one with a point and a decimal behind it. -/
inductive Figure : List Char → ℚ → Prop
  | whole {cs : List Char} {n : Nat} : Numeral cs n → Figure cs n
  | tenths {cs : List Char} {n d : Nat} : Numeral cs n → d < 10 → Figure (cs ++ ['.', d.digitChar]) (n + d / 10)

/-- A text is that of an amount: a figure and the name of the unit that it counts. -/
inductive Amount : List Char → ℚ → MemoryUnit → Prop
  | intro {cs : List Char} {x : ℚ} (u : MemoryUnit) : Figure cs x → Amount (cs ++ ' ' :: u.name.toList) x u

variable {cs : List Char} {x y : ℚ} {u v : MemoryUnit} {k : Nat} {n a b : UInt64}

/-- The digits of a natural are a numeral for it. -/
theorem numeral_toDigits (n : Nat) : Numeral (Nat.toDigits 10 n) n :=
  numeral_iff.mpr ⟨Nat.toDigits_ne_nil, fun _ => Nat.isDigit_of_mem_toDigits (by decide) (by decide), by simp⟩

/-- A figure is the digits at its front, and a tenth of the one behind the point. -/
theorem Figure.eq_add (figure : Figure cs x) :
    x = Nat.ofDigitChars 10 (cs.takeWhile Char.isDigit) 0 +
      Nat.ofDigitChars 10 ((cs.dropWhile Char.isDigit).drop 1) 0 / 10 := by
  cases figure with
  | whole numeral =>
      obtain ⟨-, all, rfl⟩ := numeral_iff.mp numeral
      rw [List.takeWhile_eq_self_iff.mpr all, List.dropWhile_eq_nil_iff.mpr all]
      simp
  | @tenths cs n d numeral small =>
      obtain ⟨-, all, rfl⟩ := numeral_iff.mp numeral
      have last := ofDigitChars_concat small []
      rw [List.takeWhile_append_of_pos all, List.dropWhile_append_of_pos all,
        List.takeWhile_cons_of_neg (by decide), List.dropWhile_cons_of_neg (by decide), List.append_nil]
      simpa using last.symm

theorem Figure.not_mem (figure : Figure cs x) : ' ' ∉ cs := by
  have solid {ds : List Char} {m : Nat} (numeral : Numeral ds m) : ' ' ∉ ds := fun mem => by
    cases (numeral_iff.mp numeral).2.1 _ mem
  cases figure with
  | whole numeral => exact solid numeral
  | tenths numeral _ => simp [solid numeral]

theorem MemoryUnit.name_injective (same : u.name = v.name) : u = v := by
  cases u <;> cases v <;> simp_all [name]

/-- No text is that of two amounts. -/
theorem Amount.unique (amount : Amount cs x u) (other : Amount cs y v) : x = y ∧ u = v := by
  obtain ⟨u, figure⟩ := amount
  generalize same : _ ++ ' ' :: u.name.toList = text at other
  obtain ⟨v, figure'⟩ := other
  have noBlank : ' ' ∉ u.name.toList := by cases u <;> decide
  obtain ⟨rfl, -, names⟩ := (List.append_cons_inj_of_notMem figure.not_mem noBlank).mp same
  exact ⟨figure.eq_add.trans figure'.eq_add.symm, MemoryUnit.name_injective (String.toList_inj.mp names)⟩

/-! ### Units -/

namespace MemoryUnit

/-- The bytes of a unit as a power of two. -/
def log : MemoryUnit → Nat
  | byte => 0
  | kibi => 10
  | mebi => 20
  | gibi => 30

theorem bytes_eq (u : MemoryUnit) : u.bytes = 2 ^ u.log := by
  cases u <;> rfl

theorem of_cases (n : UInt64) :
    (of n = byte ∧ n.toNat < 2 ^ 10) ∨ (of n = kibi ∧ 2 ^ 10 ≤ n.toNat ∧ n.toNat < 2 ^ 20) ∨
      (of n = mebi ∧ 2 ^ 20 ≤ n.toNat ∧ n.toNat < 2 ^ 30) ∨ (of n = gibi ∧ 2 ^ 30 ≤ n.toNat) := by
  unfold of
  simp only [bytes_eq, log]
  split
  · next reached => exact .inr (.inr (.inr ⟨rfl, reached⟩))
  split
  · next reached => exact .inr (.inr (.inl ⟨rfl, reached, by omega⟩))
  split
  · next reached => exact .inr (.inl ⟨rfl, reached, by omega⟩)
  · exact .inl ⟨rfl, by omega⟩

/-- The unit that an amount is shown in is reached, unless it is the byte. -/
theorem two_pow_log_le (notByte : of n ≠ byte) : 2 ^ (of n).log ≤ n.toNat := by
  rcases of_cases n with ⟨unit, -⟩ | ⟨unit, reached, -⟩ | ⟨unit, reached, -⟩ | ⟨unit, reached⟩
  · exact absurd unit notByte
  all_goals
    rw [unit]
    exact reached

/-- A greater amount is shown in the same unit, or in a greater one that it reaches and the
lesser amount does not. -/
theorem of_mono (le : a.toNat ≤ b.toNat) :
    of a = of b ∨ (of a).log ≤ (of b).log ∧ a.toNat < 2 ^ (of b).log ∧ 2 ^ (of b).log ≤ b.toNat := by
  rcases of_cases a with ⟨unit, below⟩ | ⟨unit, reached, below⟩ | ⟨unit, reached, below⟩ | ⟨unit, reached⟩ <;>
    rcases of_cases b with ⟨unit', below'⟩ | ⟨unit', reached', below'⟩ | ⟨unit', reached', below'⟩ |
      ⟨unit', reached'⟩ <;>
    rw [unit, unit'] <;> simp only [log, reduceCtorEq, true_or, false_or] <;> omega

end MemoryUnit

/-! ### Figures -/

/-- The figure that is shown for an amount. -/
def figure (n : UInt64) : ℚ :=
  tenths n (.of n) / 10

theorem tenths_mul_le (log : u.log ≤ k) (le : n.toNat ≤ 2 ^ k) : tenths n u * u.bytes ≤ 10 * 2 ^ k := by
  have multiple : 10 * 2 ^ k = 10 * 2 ^ (k - u.log) * u.bytes := by
    rw [MemoryUnit.bytes_eq, Nat.mul_assoc, ← Nat.pow_add, Nat.sub_add_cancel log]
  have rounded := Nat.mul_le_mul_left 10 (nearestSignificand_le_two_pow le)
  rw [multiple] at rounded ⊢
  exact Nat.mul_le_mul_right _ (roundHalfEven_le (u.bytes_eq ▸ Nat.two_pow_pos _) rounded)

theorem le_tenths_mul (log : u.log ≤ k) (le : 2 ^ k ≤ n.toNat) : 10 * 2 ^ k ≤ tenths n u * u.bytes := by
  have multiple : 10 * 2 ^ k = 10 * 2 ^ (k - u.log) * u.bytes := by
    rw [MemoryUnit.bytes_eq, Nat.mul_assoc, ← Nat.pow_add, Nat.sub_add_cancel log]
  have rounded := Nat.mul_le_mul_left 10 (two_pow_le_nearestSignificand le)
  rw [multiple] at rounded ⊢
  exact Nat.mul_le_mul_right _ (le_roundHalfEven (u.bytes_eq ▸ Nat.two_pow_pos _) rounded)

/-- A count of bytes has no decimal. -/
theorem tenths_byte (small : n.toNat < 2 ^ 10) : tenths n .byte = 10 * n.toNat := by
  have whole := roundHalfEven_mul (10 * n.toNat) Nat.one_pos
  rw [Nat.mul_one] at whole
  rw [tenths, nearestSignificand_of_lt (Nat.lt_trans small (by decide))]
  exact whole

/-- A greater amount is not shown as less. Where the unit changes, its bytes lie between the
two. -/
theorem tenths_mul_mono (le : a.toNat ≤ b.toNat) :
    tenths a (.of a) * (MemoryUnit.of a).bytes ≤ tenths b (.of b) * (MemoryUnit.of b).bytes := by
  rcases MemoryUnit.of_mono le with same | ⟨greater, below, reached⟩
  · rw [same]
    exact Nat.mul_le_mul_right _ (roundHalfEven_mono _ (Nat.mul_le_mul_left 10 (nearestSignificand_mono le)))
  · exact Nat.le_trans (tenths_mul_le greater (Nat.le_of_lt below)) (le_tenths_mul (Nat.le_refl _) reached)

/-- The text of an amount is that of its figure and its unit. -/
theorem amount_showAmount (n : UInt64) : Amount (showAmount n).toList (figure n) (.of n) := by
  have digits (k : Nat) : (toString k).toList = Nat.toDigits 10 k := Nat.toList_repr
  rcases MemoryUnit.of_cases n with ⟨unit, small⟩ | larger
  · have count : figure n = n.toNat := by
      rw [figure, unit, tenths_byte small]
      push_cast
      exact mul_div_cancel_left₀ _ (by norm_num)
    rw [showAmount, count, unit]
    simp only [String.toList_append, digits, List.append_assoc]
    exact .intro .byte (.whole (numeral_toDigits _))
  · have notByte : MemoryUnit.of n ≠ .byte := by
      rcases larger with ⟨unit, -⟩ | ⟨unit, -⟩ | ⟨unit, -⟩ <;> rw [unit] <;> decide
    have decimal : tenths n (.of n) % 10 < 10 := Nat.mod_lt _ (by decide)
    have value : figure n = (tenths n (.of n) / 10 : ℕ) + (tenths n (.of n) % 10 : ℕ) / 10 := by
      have whole : ((tenths n (.of n) / 10 * 10 + tenths n (.of n) % 10 : ℕ) : ℚ) = tenths n (.of n) :=
        congrArg _ (Nat.div_add_mod' _ _)
      push_cast at whole
      rw [figure]
      linarith
    have text : (showAmount n).toList = Nat.toDigits 10 (tenths n (.of n) / 10) ++
        ['.', (tenths n (.of n) % 10).digitChar] ++ ' ' :: (MemoryUnit.of n).name.toList := by
      unfold showAmount
      split
      · exact absurd ‹_› notByte
      · simp [Nat.toDigits_of_lt_base decimal]
    rw [value, text]
    exact .intro _ (.tenths (numeral_toDigits _) decimal)

/-! ### What is shown -/

/-- A figure of a unit is a faithful one for a number of bytes. -/
structure Faithful (n : Nat) (x : ℚ) (u : MemoryUnit) : Prop where
  /-- The amount is half a tenth of the unit away, and the bytes themselves are first rounded
  to a binary fraction. -/
  near : |x * u.bytes - n| ≤ u.bytes / 20 + 1024
  /-- Below the first unit the bytes are counted. -/
  exact : n < 1024 → x * u.bytes = n
  /-- There is at least one of a unit. -/
  least : u ≠ .byte → 1 ≤ x
  /-- There are at most as many of a unit as make the next one. -/
  greatest : u = .kibi ∨ u = .mebi → x ≤ 1024

/-- The bytes that are shown for an amount. -/
theorem figure_mul (n : UInt64) :
    figure n * (MemoryUnit.of n).bytes = (tenths n (.of n) * (MemoryUnit.of n).bytes : ℕ) / 10 := by
  rw [figure, Nat.cast_mul]
  ring

theorem figure_near (n : UInt64) :
    |figure n * (MemoryUnit.of n).bytes - n.toNat| ≤ (MemoryUnit.of n).bytes / 20 + 1024 := by
  have pos : 0 < (MemoryUnit.of n).bytes := (MemoryUnit.of n).bytes_eq ▸ Nat.two_pow_pos _
  obtain ⟨above, below⟩ := roundHalfEven_error (10 * nearestSignificand n.toNat) pos
  obtain ⟨above', below'⟩ := nearestSignificand_error n.toNat_lt
  rw [← tenths] at above below
  have lower : 20 * n.toNat ≤ 2 * (tenths n (.of n) * (MemoryUnit.of n).bytes) + (MemoryUnit.of n).bytes + 20 * 1024 := by
    omega
  have upper : 2 * (tenths n (.of n) * (MemoryUnit.of n).bytes) ≤ 20 * n.toNat + (MemoryUnit.of n).bytes + 20 * 1024 := by
    omega
  qify at lower upper
  rw [figure_mul, abs_le]
  constructor <;> push_cast <;> linarith

theorem one_le_figure (notByte : MemoryUnit.of n ≠ .byte) : 1 ≤ figure n := by
  have reached := le_tenths_mul (Nat.le_refl _) (MemoryUnit.two_pow_log_le notByte)
  rw [← MemoryUnit.bytes_eq] at reached
  have ten : 10 ≤ tenths n (.of n) := Nat.le_of_mul_le_mul_right reached (MemoryUnit.bytes_eq _ ▸ Nat.two_pow_pos _)
  qify at ten
  rw [figure]
  linarith

theorem figure_le (unit : MemoryUnit.of n = .kibi ∨ MemoryUnit.of n = .mebi) : figure n ≤ 1024 := by
  have below : n.toNat ≤ 2 ^ ((MemoryUnit.of n).log + 10) := by
    rcases MemoryUnit.of_cases n with ⟨unit', below⟩ | ⟨unit', -, below⟩ | ⟨unit', -, below⟩ | ⟨unit', -⟩ <;>
      simp only [unit', reduceCtorEq, or_self] at unit ⊢ <;> exact Nat.le_of_lt below
  have shown := tenths_mul_le (Nat.le_add_right _ _) below
  rw [Nat.pow_add', ← MemoryUnit.bytes_eq, ← Nat.mul_assoc] at shown
  have most : tenths n (.of n) ≤ 10 * 2 ^ 10 := Nat.le_of_mul_le_mul_right shown (MemoryUnit.bytes_eq _ ▸ Nat.two_pow_pos _)
  qify at most
  rw [figure]
  linarith

theorem faithful_figure (n : UInt64) : Faithful n.toNat (figure n) (.of n) := by
  refine ⟨figure_near n, fun small => ?_, one_le_figure, figure_le⟩
  have unit : MemoryUnit.of n = .byte := by
    rcases MemoryUnit.of_cases n with ⟨unit, -⟩ | ⟨-, reached, -⟩ | ⟨-, reached, -⟩ | ⟨-, reached⟩
    · exact unit
    all_goals omega
  rw [figure_mul, unit, tenths_byte small, MemoryUnit.bytes]
  push_cast
  ring

/-- The text of an amount has one reading, which is faithful, and that of more bytes is not
read as less. -/
theorem showAmount_faithful_and_monotone (n : UInt64) : ∃ x u, Amount (showAmount n).toList x u ∧
    (∀ y v, Amount (showAmount n).toList y v → y = x ∧ v = u) ∧ Faithful n.toNat x u ∧
    ∀ m, n ≤ m → ∀ y v, Amount (showAmount m).toList y v → x * u.bytes ≤ y * v.bytes := by
  refine ⟨figure n, .of n, amount_showAmount n, fun y v other => other.unique (amount_showAmount n),
    faithful_figure n, fun m le y v other => ?_⟩
  obtain ⟨rfl, rfl⟩ := other.unique (amount_showAmount m)
  rw [figure_mul, figure_mul]
  exact div_le_div_of_nonneg_right (Nat.cast_le.mpr (tenths_mul_mono (UInt64.le_iff_toNat_le.mp le))) (by norm_num)

/-- The greatest number of bytes that is shown in the lesser unit, and the least one in the
greater: both are the same amount. -/
theorem showAmount_faithful_and_monotone_sample :
    showAmount 1048575 = "1024.0 KiB" ∧ showAmount 1048576 = "1.0 MiB" ∧
      ∃ x u, Amount "1024.0 KiB".toList x u ∧ ∀ y v, Amount "1.0 MiB".toList y v → x * u.bytes ≤ y * v.bytes := by
  have low : showAmount 1048575 = "1024.0 KiB" := by decide
  have high : showAmount 1048576 = "1.0 MiB" := by decide
  obtain ⟨x, u, amount, -, -, mono⟩ := showAmount_faithful_and_monotone 1048575
  refine ⟨low, high, x, u, low ▸ amount, fun y v other => ?_⟩
  exact mono 1048576 (by decide) y v (high ▸ other)

end Sandbox.Memory
