import Mathlib.Data.List.Basic
import Mathlib.Data.Nat.Digits.Defs
import Sandbox.Json.Printer
import Sandbox.Json.Reader

/-!
Strings and integers are read back as they were printed.

Each character of a string is read from what it is escaped to (`readParts_escapeChar`),
so the whole string is (`readString_printed`). The digits of a natural number are read up
to its end and give the number (`readWhole_toDigits`, `absorb_digits`), and so an integer
of 64 bits is read back from its text (`readNumber_printed`).
-/

namespace Sandbox.Json

open Utf8 (Piece)

/-- A text as pieces. -/
def pieces (cs : List Char) : List Piece :=
  cs.map .char

@[simp] theorem pieces_nil : pieces [] = [] := rfl

@[simp] theorem pieces_cons (c : Char) (cs : List Char) : pieces (c :: cs) = .char c :: pieces cs := rfl

@[simp] theorem pieces_append (cs ds : List Char) : pieces (cs ++ ds) = pieces cs ++ pieces ds :=
  List.map_append

/-! ### Strings -/

theorem readParts_plain {c : Char} (quote : c ≠ '"') (backslash : c ≠ '\\') (printable : ¬ c < ' ')
    (ps : List Piece) : readParts (.char c :: ps) = consPart (.char c) (readParts ps) := by
  rw [readParts]
  · rw [if_neg printable]
  all_goals simp_all

/-- The four digits of a control character. -/
theorem hexUnit?_control : ∀ n < 32,
    List.replicate (4 - (Nat.toDigits 16 n).length) '0' ++ Nat.toDigits 16 n =
      ['0', '0', (n / 16).digitChar, (n % 16).digitChar] ∧
    hexUnit? (.char '0') (.char '0') (.char (n / 16).digitChar) (.char (n % 16).digitChar) = some n := by
  decide

/-- A character is read back from what is written for it. -/
theorem readParts_escapeChar (c : Char) (ps : List Piece) :
    readParts (pieces (escapeChar c) ++ ps) = consPart (.char c) (readParts ps) := by
  unfold escapeChar
  split
  case h_8 quote backslash _ _ _ _ _ =>
    split
    case isTrue control =>
      have below : c.toNat < 32 := control
      obtain ⟨digits, unit⟩ := hexUnit?_control c.toNat below
      dsimp only
      rw [List.append_assoc, digits]
      change readParts (.char '\\' :: .char 'u' :: _ :: _ :: _ :: _ :: ps) = _
      rw [readParts, unit]
      have whole : StringPart.ofUnit c.toNat = .char c := by
        rw [StringPart.ofUnit, if_neg (by omega), Char.ofNat_toNat]
      rw [← whole]
    case isFalse printable => exact readParts_plain quote backslash printable ps
  all_goals rfl

/-- What is written for the characters of a string is read as these characters. -/
theorem readParts_printed (cs : List Char) (rest : List Piece) :
    readParts (pieces (cs.flatMap escapeChar) ++ .char '"' :: rest) = (cs.map .char, .ok rest) := by
  induction cs with
  | nil => rfl
  | cons c cs ih =>
      rw [List.flatMap_cons, pieces_append, List.append_assoc, readParts_escapeChar, ih]
      rfl

theorem characters_map_char (cs : List Char) : characters none (cs.map .char) = .ok cs := by
  induction cs with
  | nil => rfl
  | cons c cs ih =>
      rw [List.map_cons, characters, ih]
      rfl

/-- A string is read back, behind its opening quote. -/
theorem readString_printed (s : String) (rest : List Piece) :
    readString (pieces (s.toList.flatMap escapeChar) ++ .char '"' :: rest) = (Raw.ofString s, .ok rest) := by
  simp only [readString, readParts_printed, Rest.stop, characters_map_char, Raw.ofString, Except.map,
    String.ofList_toList]

/-! ### Natural numbers -/

/-- The text goes on with something that is no part of a number. -/
def EndsNumber (rest : List Piece) : Prop :=
  ∀ p ∈ rest.head?, digit? p = none ∧ p ≠ .char '.' ∧ p ≠ .char 'e' ∧ p ≠ .char 'E'

/-- The digits of a natural number. -/
def digits (n : Nat) : List Nat :=
  (Nat.toDigits 10 n).map fun c => c.toNat - '0'.toNat

theorem digit?_of_isDigit {c : Char} (digit : c.isDigit = true) : digit? (.char c) = some (c.toNat - '0'.toNat) := by
  rw [digit?, if_pos digit]

theorem readDigits_of_all {cs : List Char} (all : ∀ c ∈ cs, c.isDigit = true) {rest : List Piece}
    (ends : EndsNumber rest) :
    readDigits (pieces cs ++ rest) = (cs.map fun c => c.toNat - '0'.toNat, rest) := by
  induction cs with
  | nil =>
      cases rest with
      | nil => rfl
      | cons p ps => simp [readDigits, (ends p rfl).1]
  | cons c cs ih =>
      obtain ⟨first, others⟩ := List.forall_mem_cons.mp all
      rw [pieces_cons, List.cons_append, readDigits, digit?_of_isDigit first, ih others]
      rfl

theorem digits_of_lt {n : Nat} (small : n < 10) : digits n = [n] := by
  have digit : ∀ n < 10, n.digitChar.toNat - '0'.toNat = n := by decide
  rw [digits, Nat.toDigits_of_lt_base small, List.map_singleton, digit n small]

theorem digits_of_le {n : Nat} (large : 10 ≤ n) : digits n = digits (n / 10) ++ [n % 10] := by
  have digit : ∀ n < 10, n.digitChar.toNat - '0'.toNat = n := by decide
  rw [digits, Nat.toDigits_of_base_le (by decide) large, List.map_append, List.map_singleton,
    digit _ (Nat.mod_lt n (by decide)), ← digits]

/-- Only zero is written with a zero in front. -/
theorem head?_digits (n : Nat) : (digits n).head? = some 0 → n = 0 := by
  induction n using Nat.strongRecOn with
  | ind n ih =>
      by_cases small : n < 10
      · rw [digits_of_lt small]
        exact Option.some.inj
      · have large : 10 ≤ n := by omega
        have some : digits (n / 10) ≠ [] := by simp [digits, Nat.toDigits_ne_nil]
        rw [digits_of_le large, List.head?_append_of_ne_nil _ some]
        intro zero
        have := ih (n / 10) (by omega) zero
        omega

theorem absorb_append {n v d : Nat} {ds : List Nat} (absorbed : Numeral.absorb n ds = (v, []))
    (fits : v * 10 + d < Numeral.digitLimit) : Numeral.absorb n (ds ++ [d]) = (v * 10 + d, []) := by
  induction ds generalizing n with
  | nil =>
      cases absorbed
      rw [List.nil_append, Numeral.absorb, if_pos fits, Numeral.absorb]
  | cons e ds ih =>
      rw [Numeral.absorb] at absorbed
      rw [List.cons_append, Numeral.absorb]
      split at absorbed
      case isTrue more =>
        rw [if_pos more]
        exact ih absorbed
      case isFalse => cases absorbed

/-- The digits of a number of 64 bits give the number. -/
theorem absorb_digits {n : Nat} (fits : n < Numeral.digitLimit) : Numeral.absorb 0 (digits n) = (n, []) := by
  induction n using Nat.strongRecOn with
  | ind n ih =>
      by_cases small : n < 10
      · rw [digits_of_lt small, Numeral.absorb, if_pos (by omega), Numeral.absorb, Nat.zero_mul, Nat.zero_add]
      · have whole : n / 10 * 10 + n % 10 = n := by omega
        rw [digits_of_le (by omega), absorb_append (ih (n / 10) (by omega) (by omega)) (by omega), whole]

theorem readWhole_toDigits (n : Nat) {rest : List Piece} (ends : EndsNumber rest) :
    readWhole (pieces (Nat.toDigits 10 n) ++ rest) = .ok (digits n, rest) := by
  have all : ∀ c ∈ Nat.toDigits 10 n, c.isDigit = true := fun c =>
    Nat.isDigit_of_mem_toDigits (by decide) (by decide)
  have read : readDigits (pieces (Nat.toDigits 10 n) ++ rest) = (digits n, rest) := readDigits_of_all all ends
  rw [readWhole, read]
  have zero := head?_digits n
  rcases written : digits n with _ | ⟨_ | d, _ | ⟨e, ds⟩⟩
  · simp [digits, Nat.toDigits_ne_nil] at written
  · rfl
  · -- A zero in front of other digits.
    rw [written] at zero
    rw [zero rfl] at written
    cases written
  · rfl
  · rfl

/-! ### Integers -/

theorem readFraction_none {rest : List Piece} (ends : EndsNumber rest) : readFraction rest = .ok (none, rest) := by
  cases rest with
  | nil => rfl
  | cons p ps =>
      obtain ⟨-, point, -⟩ := ends p rfl
      rw [readFraction]
      simpa using point

theorem readExponent_none {rest : List Piece} (ends : EndsNumber rest) : readExponent rest = .ok (none, rest) := by
  cases rest with
  | nil => rfl
  | cons p ps =>
      obtain ⟨-, -, small, large⟩ := ends p rfl
      cases p with
      | stray bytes => rfl
      | char c =>
          have neither : ¬ (c = 'e' ∨ c = 'E') := by
            rintro (rfl | rfl)
            · exact small rfl
            · exact large rfl
          simp only [readExponent, if_neg neither]

/-- The digits of a natural number are a numeral without fraction and power of ten. -/
theorem readNumber_toDigits (negative : Bool) (n : Nat) {rest : List Piece} (ends : EndsNumber rest) :
    readNumber negative (pieces (Nat.toDigits 10 n) ++ rest) =
      (.number (Numeral.toNumber? ⟨negative, digits n, none, none⟩), .ok rest) := by
  have numeral : readNumeral negative (pieces (Nat.toDigits 10 n) ++ rest) =
      .ok (⟨negative, digits n, none, none⟩, rest) := by
    rw [readNumeral, readWhole_toDigits n ends]
    change (readFraction rest >>= _) = _
    rw [readFraction_none ends]
    change (readExponent rest >>= _) = _
    rw [readExponent_none ends]
    rfl
  rw [readNumber, numeral]

theorem toNumber?_nonnegative {n : Nat} (fits : n < 2 ^ 64) :
    Numeral.toNumber? ⟨false, digits n, none, none⟩ = some (.int n) := by
  have limit : n < Numeral.digitLimit := fits
  simp [Numeral.toNumber?, absorb_digits limit]

theorem toNumber?_negative {n : Nat} (positive : 0 < n) (fits : n ≤ 2 ^ 63) :
    Numeral.toNumber? ⟨true, digits n, none, none⟩ = some (.int (-n)) := by
  have half : n ≤ Numeral.digitLimit / 2 := fits
  have limit : n < Numeral.digitLimit := by
    have : Numeral.digitLimit / 2 < Numeral.digitLimit := by decide
    omega
  simp [Numeral.toNumber?, absorb_digits limit, positive, half]

end Sandbox.Json
