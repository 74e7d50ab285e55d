/-!
Text as bytes.

`encode` writes characters as UTF-8. `scan` reads any bytes as a list of pieces: a
piece is a character, or a stray run of bytes that no character can begin with.
A stray run is as long as a character could still be completed from it, so each
run is shown as one replacement character (`display`).

Main facts: reading back what was written gives the characters (`scan_encode`,
`decode?_encode`), so different texts have different bytes (`encode_injective`).
-/

namespace Sandbox.Utf8

/-! ### Writing -/

/-- The bytes of one character. -/
def encodeChar (c : Char) : List UInt8 :=
  let n := c.toNat
  if n < 0x80 then [.ofNat n]
  else if n < 0x800 then [.ofNat (0xC0 + n / 0x40), .ofNat (0x80 + n % 0x40)]
  else if n < 0x10000 then
    [.ofNat (0xE0 + n / 0x1000), .ofNat (0x80 + n / 0x40 % 0x40), .ofNat (0x80 + n % 0x40)]
  else
    [.ofNat (0xF0 + n / 0x40000), .ofNat (0x80 + n / 0x1000 % 0x40),
      .ofNat (0x80 + n / 0x40 % 0x40), .ofNat (0x80 + n % 0x40)]

/-- The bytes of a text. -/
def encode (cs : List Char) : List UInt8 :=
  cs.flatMap encodeChar

@[simp] theorem encode_nil : encode [] = [] := rfl

@[simp] theorem encode_cons (c : Char) (cs : List Char) :
    encode (c :: cs) = encodeChar c ++ encode cs := by
  simp [encode]

@[simp] theorem encode_append (cs ds : List Char) : encode (cs ++ ds) = encode cs ++ encode ds := by
  simp [encode]

/-! ### Reading -/

/-- A piece of scanned text. -/
inductive Piece where
  /-- A well-formed character. -/
  | char (c : Char)
  /-- Bytes that belong to no character. -/
  | stray (bytes : List UInt8)
  deriving DecidableEq, Repr

/-- The bytes a piece was read from. -/
def Piece.bytes : Piece → List UInt8
  | .char c => encodeChar c
  | .stray bs => bs

/-- How many bytes a piece takes. -/
def Piece.width (p : Piece) : Nat :=
  p.bytes.length

/-- A character whose first bytes have been read. -/
structure Open where
  /-- The bytes read. -/
  bytes : List UInt8
  /-- The bits they carry. -/
  value : Nat
  /-- How many bytes are owed after the next one. -/
  owed : Nat
  /-- The least next byte. -/
  low : Nat := 0x80
  /-- The greatest next byte. -/
  high : Nat := 0xBF
  deriving DecidableEq, Repr

/-- What a byte begins between characters: a whole piece, or an open character.
The bounds on a second byte keep out overlong forms, surrogates and numbers
above the last code point. -/
def start (b : UInt8) : Piece ⊕ Open :=
  let n := b.toNat
  if n < 0x80 then .inl (.char (.ofNat n))
  else if n < 0xC2 then .inl (.stray [b])
  else if n < 0xE0 then .inr { bytes := [b], value := n - 0xC0, owed := 0 }
  else if n = 0xE0 then .inr { bytes := [b], value := 0, owed := 1, low := 0xA0 }
  else if n = 0xED then .inr { bytes := [b], value := 0xD, owed := 1, high := 0x9F }
  else if n < 0xF0 then .inr { bytes := [b], value := n - 0xE0, owed := 1 }
  else if n = 0xF0 then .inr { bytes := [b], value := 0, owed := 2, low := 0x90 }
  else if n < 0xF4 then .inr { bytes := [b], value := n - 0xF0, owed := 2 }
  else if n = 0xF4 then .inr { bytes := [b], value := 4, owed := 2, high := 0x8F }
  else .inl (.stray [b])

/-- The byte `b` can come next. -/
def Open.admits (o : Open) (b : UInt8) : Bool :=
  o.low ≤ b.toNat && b.toNat ≤ o.high

/-- The bits carried with the next byte. -/
def Open.extend (o : Open) (b : UInt8) : Nat :=
  o.value * 0x40 + (b.toNat - 0x80)

/-- Reads on with a next byte that still leaves some owed. -/
def Open.push (o : Open) (b : UInt8) : Open :=
  { bytes := o.bytes ++ [b], value := o.extend b, owed := o.owed - 1 }

/-- Reads bytes from the left, from between characters or within one. -/
def scanFrom : Option Open → List UInt8 → List Piece
  | none, [] => []
  | some o, [] => [.stray o.bytes]
  | none, b :: r =>
    match start b with
    | .inl p => p :: scanFrom none r
    | .inr o => scanFrom (some o) r
  | some o, b :: r =>
    if o.admits b then
      if o.owed = 0 then .char (.ofNat (o.extend b)) :: scanFrom none r
      else scanFrom (some (o.push b)) r
    else
      .stray o.bytes ::
        match start b with
        | .inl p => p :: scanFrom none r
        | .inr o => scanFrom (some o) r

/-- Reads bytes as pieces. -/
def scan (bs : List UInt8) : List Piece :=
  scanFrom none bs

/-- The characters of well-formed bytes. -/
def decode? (bs : List UInt8) : Option (List Char) :=
  (scan bs).mapM fun
    | .char c => some c
    | .stray _ => none

/-- The text shown for any bytes: each stray run becomes one replacement
character. -/
def display (bs : List UInt8) : List Char :=
  (scan bs).map fun
    | .char c => c
    | .stray _ => '\uFFFD'

/-! ### Reading back -/

@[simp] private theorem scan_nil : scan [] = [] := rfl

private theorem toNat_ofNat_lt {n : Nat} (h : n < 256) : (UInt8.ofNat n).toNat = n :=
  UInt8.toNat_ofNat_of_lt' h

private theorem scanFrom_start {b : UInt8} {o : Open} (h : start b = .inr o) (r : List UInt8) :
    scanFrom none (b :: r) = scanFrom (some o) r := by
  simp only [scanFrom, h]

private theorem scanFrom_char {b : UInt8} {p : Piece} (h : start b = .inl p) (r : List UInt8) :
    scanFrom none (b :: r) = p :: scanFrom none r := by
  simp only [scanFrom, h]

private theorem admits_ofNat {o : Open} {n : Nat} (small : n < 256) (h : o.low ≤ n ∧ n ≤ o.high) :
    o.admits (.ofNat n) = true := by
  rw [Open.admits, toNat_ofNat_lt small, Bool.and_eq_true]
  exact ⟨decide_eq_true h.1, decide_eq_true h.2⟩

private theorem scanFrom_admits {o : Open} {b : UInt8} (h : o.admits b = true) (r : List UInt8) :
    scanFrom (some o) (b :: r) =
      if o.owed = 0 then .char (.ofNat (o.extend b)) :: scanFrom none r
      else scanFrom (some (o.push b)) r := by
  rw [scanFrom, if_pos h]

private theorem extend_ofNat (o : Open) {n : Nat} (small : n < 256) :
    o.extend (.ofNat n) = o.value * 0x40 + (n - 0x80) :=
  congrArg (fun m => o.value * 0x40 + (m - 0x80)) (toNat_ofNat_lt small)

private theorem scanFrom_last {o : Open} {n : Nat} (owed : o.owed = 0) (small : n < 256)
    (range : o.low ≤ n ∧ n ≤ o.high) (r : List UInt8) :
    scanFrom (some o) (.ofNat n :: r) =
      .char (.ofNat (o.value * 0x40 + (n - 0x80))) :: scanFrom none r := by
  refine (scanFrom_admits (admits_ofNat small range) r).trans ?_
  rw [if_pos owed, extend_ofNat o small]

private theorem scanFrom_more {o : Open} {n k : Nat} (owed : o.owed = k + 1) (small : n < 256)
    (range : o.low ≤ n ∧ n ≤ o.high) (r : List UInt8) :
    scanFrom (some o) (.ofNat n :: r) =
      scanFrom (some { bytes := o.bytes ++ [.ofNat n], value := o.value * 0x40 + (n - 0x80), owed := k }) r := by
  refine (scanFrom_admits (admits_ofNat small range) r).trans ?_
  rw [if_neg (by omega)]
  unfold Open.push
  rw [extend_ofNat o small, owed, Nat.add_sub_cancel]

private theorem start_one {k : Nat} (h : k < 0x80) : start (.ofNat k) = .inl (.char (.ofNat k)) := by
  rw [start, toNat_ofNat_lt (Nat.lt_trans h (by decide))]
  exact if_pos h

private theorem start_two : ∀ k < 0x20, 2 ≤ k → start (.ofNat (0xC0 + k)) =
    .inr { bytes := [.ofNat (0xC0 + k)], value := k, owed := 0 } := by
  decide

private theorem start_three : ∀ k < 0x10, start (.ofNat (0xE0 + k)) =
    .inr { bytes := [.ofNat (0xE0 + k)], value := k, owed := 1
           low := if k = 0 then 0xA0 else 0x80, high := if k = 0xD then 0x9F else 0xBF } := by
  decide

private theorem start_four : ∀ k < 5, start (.ofNat (0xF0 + k)) =
    .inr { bytes := [.ofNat (0xF0 + k)], value := k, owed := 2
           low := if k = 0 then 0x90 else 0x80, high := if k = 4 then 0x8F else 0xBF } := by
  decide

/-- A written character is read back, and reading goes on behind it. -/
theorem scan_encodeChar_append (c : Char) (bs : List UInt8) :
    scan (encodeChar c ++ bs) = .char c :: scan bs := by
  have bound : c.toNat < 0xD800 ∨ 0xDFFF < c.toNat ∧ c.toNat < 0x110000 := by
    have := c.valid
    simpa only [UInt32.isValidChar, Nat.isValidChar, Char.toNat_val] using this
  have back : Char.ofNat c.toNat = c := Char.ofNat_toNat c
  generalize hn : c.toNat = n at bound back
  unfold encodeChar scan
  simp only [hn]
  split
  case isTrue h =>
    rw [List.singleton_append, scanFrom_char (start_one h), back]
  case isFalse h1 =>
  split
  case isTrue h =>
    rw [List.cons_append, List.singleton_append,
      scanFrom_start (start_two (n / 0x40) (by omega) (by omega)),
      scanFrom_last rfl (by omega) (by simp only; omega),
      show n / 0x40 * 0x40 + (0x80 + n % 0x40 - 0x80) = n by omega, back]
  case isFalse h2 =>
  split
  case isTrue h =>
    rw [List.cons_append, List.cons_append, List.singleton_append,
      scanFrom_start (start_three (n / 0x1000) (by omega)),
      scanFrom_more rfl (by omega) (by simp only; split <;> split <;> omega),
      scanFrom_last rfl (by omega) (by simp only; omega),
      show (n / 0x1000 * 0x40 + (0x80 + n / 0x40 % 0x40 - 0x80)) * 0x40 + (0x80 + n % 0x40 - 0x80) = n by
        omega, back]
  case isFalse h3 =>
    rw [List.cons_append, List.cons_append, List.cons_append, List.singleton_append,
      scanFrom_start (start_four (n / 0x40000) (by omega)),
      scanFrom_more rfl (by omega) (by simp only; split <;> split <;> omega),
      scanFrom_more rfl (by omega) (by simp only; omega),
      scanFrom_last rfl (by omega) (by simp only; omega),
      show ((n / 0x40000 * 0x40 + (0x80 + n / 0x1000 % 0x40 - 0x80)) * 0x40 +
        (0x80 + n / 0x40 % 0x40 - 0x80)) * 0x40 + (0x80 + n % 0x40 - 0x80) = n by omega, back]

/-- A written text scans as its characters. -/
@[simp] theorem scan_encode (cs : List Char) : scan (encode cs) = cs.map .char := by
  induction cs with
  | nil => rfl
  | cons c cs ih => simp [scan_encodeChar_append, ih]

/-- Reading undoes writing. -/
@[simp] theorem decode?_encode (cs : List Char) : decode? (encode cs) = some cs := by
  rw [decode?, scan_encode]
  induction cs with
  | nil => rfl
  | cons c cs ih => simp_all [List.mapM_cons]

/-- Written text is shown as it is. -/
@[simp] theorem display_encode (cs : List Char) : display (encode cs) = cs := by
  simp [display, Function.comp_def]

/-- Different texts have different bytes. -/
theorem encode_injective {cs ds : List Char} (h : encode cs = encode ds) : cs = ds := by
  have := congrArg decode? h
  simpa using this

end Sandbox.Utf8
