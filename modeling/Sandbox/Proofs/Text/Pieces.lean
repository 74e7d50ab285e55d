import Sandbox.Text.Utf8

/-!
What scanning keeps.

A byte completes pieces, and what is left is a character that is still open
(`exists_steps`). An open character is sound: whatever can still complete it gives
the bytes of that character (`Open.Sound`). So scanning loses nothing
(`flatMap_bytes_scan`). Bytes are a text just when that text is written so
(`decode?_eq_some_iff`), and bytes that are shown without a replacement are what is shown
(`display_eq_iff`).

An ASCII byte belongs to no other character, so the bytes before and behind it are scanned
on their own (`scan_append_ascii`).
-/

namespace Sandbox.Utf8

/-! ### Characters by their bytes -/

theorem encodeChar_ofNat {n : Nat} (valid : n.isValidChar) :
    encodeChar (.ofNat n) =
      if n < 0x80 then [.ofNat n]
      else if n < 0x800 then [.ofNat (0xC0 + n / 0x40), .ofNat (0x80 + n % 0x40)]
      else if n < 0x10000 then
        [.ofNat (0xE0 + n / 0x1000), .ofNat (0x80 + n / 0x40 % 0x40), .ofNat (0x80 + n % 0x40)]
      else
        [.ofNat (0xF0 + n / 0x40000), .ofNat (0x80 + n / 0x1000 % 0x40), .ofNat (0x80 + n / 0x40 % 0x40),
          .ofNat (0x80 + n % 0x40)] := by
  have number : (Char.ofNat n).toNat = n := by
    rw [Char.ofNat, dif_pos valid]
    exact UInt32.toNat_ofNatLT
  rw [encodeChar, number]

theorem encodeChar_ascii {b : UInt8} (ascii : b.toNat < 0x80) : encodeChar (.ofNat b.toNat) = [b] := by
  rw [encodeChar_ofNat (.inl (by omega)), if_pos ascii, UInt8.ofNat_toNat]

theorem encodeChar_two {b c : UInt8} (lead : 0xC2 ≤ b.toNat ∧ b.toNat < 0xE0)
    (second : 0x80 ≤ c.toNat ∧ c.toNat ≤ 0xBF) :
    encodeChar (.ofNat ((b.toNat - 0xC0) * 0x40 + (c.toNat - 0x80))) = [b, c] := by
  generalize value : (b.toNat - 0xC0) * 0x40 + (c.toNat - 0x80) = n
  rw [encodeChar_ofNat (.inl (by omega)), if_neg (by omega), if_pos (by omega),
    show 0xC0 + n / 0x40 = b.toNat by omega, show 0x80 + n % 0x40 = c.toNat by omega]
  simp only [UInt8.ofNat_toNat]

/-- The bounds on the second byte keep out overlong forms and surrogates. -/
theorem encodeChar_three {b c d : UInt8} (lead : 0xE0 ≤ b.toNat ∧ b.toNat < 0xF0)
    (second : 0x80 ≤ c.toNat ∧ c.toNat ≤ 0xBF) (notOverlong : b.toNat = 0xE0 → 0xA0 ≤ c.toNat)
    (noSurrogate : b.toNat = 0xED → c.toNat ≤ 0x9F) (third : 0x80 ≤ d.toNat ∧ d.toNat ≤ 0xBF) :
    encodeChar (.ofNat (((b.toNat - 0xE0) * 0x40 + (c.toNat - 0x80)) * 0x40 + (d.toNat - 0x80))) = [b, c, d] := by
  generalize value : ((b.toNat - 0xE0) * 0x40 + (c.toNat - 0x80)) * 0x40 + (d.toNat - 0x80) = n
  have valid : n.isValidChar := by
    rcases Nat.lt_or_ge n 0xD800 with small | large
    · exact .inl small
    · exact .inr (by omega)
  rw [encodeChar_ofNat valid, if_neg (by omega), if_neg (by omega), if_pos (by omega),
    show 0xE0 + n / 0x1000 = b.toNat by omega, show 0x80 + n / 0x40 % 0x40 = c.toNat by omega,
    show 0x80 + n % 0x40 = d.toNat by omega]
  simp only [UInt8.ofNat_toNat]

/-- The bounds on the second byte keep out overlong forms and numbers that are too large. -/
theorem encodeChar_four {b c d e : UInt8} (lead : 0xF0 ≤ b.toNat ∧ b.toNat ≤ 0xF4)
    (second : 0x80 ≤ c.toNat ∧ c.toNat ≤ 0xBF) (notOverlong : b.toNat = 0xF0 → 0x90 ≤ c.toNat)
    (notLarge : b.toNat = 0xF4 → c.toNat ≤ 0x8F) (third : 0x80 ≤ d.toNat ∧ d.toNat ≤ 0xBF)
    (fourth : 0x80 ≤ e.toNat ∧ e.toNat ≤ 0xBF) :
    encodeChar (.ofNat ((((b.toNat - 0xF0) * 0x40 + (c.toNat - 0x80)) * 0x40 + (d.toNat - 0x80)) * 0x40 +
      (e.toNat - 0x80))) = [b, c, d, e] := by
  generalize value : (((b.toNat - 0xF0) * 0x40 + (c.toNat - 0x80)) * 0x40 + (d.toNat - 0x80)) * 0x40 +
    (e.toNat - 0x80) = n
  rw [encodeChar_ofNat (.inr (by omega)), if_neg (by omega), if_neg (by omega), if_neg (by omega),
    show 0xF0 + n / 0x40000 = b.toNat by omega, show 0x80 + n / 0x1000 % 0x40 = c.toNat by omega,
    show 0x80 + n / 0x40 % 0x40 = d.toNat by omega, show 0x80 + n % 0x40 = e.toNat by omega]
  simp only [UInt8.ofNat_toNat]

/-! ### Open characters -/

namespace Open

/-- Whatever completes an open character gives its bytes, and no ASCII byte does. -/
inductive Sound : Open → Prop
  | last {o : Open} : 0x80 ≤ o.low → o.owed = 0 →
      (∀ b, o.admits b = true → encodeChar (.ofNat (o.extend b)) = o.bytes ++ [b]) → Sound o
  | more {o : Open} : 0x80 ≤ o.low → o.owed ≠ 0 → (∀ b, o.admits b = true → Sound (o.push b)) → Sound o

variable {o : Open} {b : UInt8}

theorem Sound.low_le (sound : o.Sound) : 0x80 ≤ o.low := by
  cases sound with
  | last low => exact low
  | more low => exact low

theorem admits_iff : o.admits b = true ↔ o.low ≤ b.toNat ∧ b.toNat ≤ o.high := by
  rw [admits, Bool.and_eq_true, decide_eq_true_eq, decide_eq_true_eq]

theorem sound_two (lead : 0xC2 ≤ b.toNat ∧ b.toNat < 0xE0) :
    Sound { bytes := [b], value := b.toNat - 0xC0, owed := 0 } :=
  .last (Nat.le_refl _) rfl fun _ second => encodeChar_two lead (admits_iff.mp second)

theorem sound_three {value low high : Nat} (known : value = b.toNat - 0xE0) (lead : 0xE0 ≤ b.toNat ∧ b.toNat < 0xF0)
    (bounds : 0x80 ≤ low ∧ high ≤ 0xBF) (notOverlong : b.toNat = 0xE0 → 0xA0 ≤ low)
    (noSurrogate : b.toNat = 0xED → high ≤ 0x9F) :
    Sound { bytes := [b], value := value, owed := 1, low := low, high := high } := by
  rw [known]
  refine .more bounds.1 Nat.one_ne_zero fun c second => .last (Nat.le_refl _) rfl fun d third => ?_
  obtain ⟨least, greatest⟩ := admits_iff.mp second
  change encodeChar (.ofNat (((b.toNat - 0xE0) * 0x40 + (c.toNat - 0x80)) * 0x40 + (d.toNat - 0x80))) = [b, c, d]
  exact encodeChar_three lead ⟨Nat.le_trans bounds.1 least, Nat.le_trans greatest bounds.2⟩
    (fun e => Nat.le_trans (notOverlong e) least) (fun e => Nat.le_trans greatest (noSurrogate e)) (admits_iff.mp third)

theorem sound_four {value low high : Nat} (known : value = b.toNat - 0xF0) (lead : 0xF0 ≤ b.toNat ∧ b.toNat ≤ 0xF4)
    (bounds : 0x80 ≤ low ∧ high ≤ 0xBF) (notOverlong : b.toNat = 0xF0 → 0x90 ≤ low)
    (notLarge : b.toNat = 0xF4 → high ≤ 0x8F) :
    Sound { bytes := [b], value := value, owed := 2, low := low, high := high } := by
  rw [known]
  refine .more bounds.1 (Nat.succ_ne_zero 1) fun c second => .more (Nat.le_refl _) Nat.one_ne_zero fun d third =>
    .last (Nat.le_refl _) rfl fun e fourth => ?_
  obtain ⟨least, greatest⟩ := admits_iff.mp second
  change encodeChar (.ofNat ((((b.toNat - 0xF0) * 0x40 + (c.toNat - 0x80)) * 0x40 + (d.toNat - 0x80)) * 0x40 +
      (e.toNat - 0x80))) = [b, c, d, e]
  exact encodeChar_four lead ⟨Nat.le_trans bounds.1 least, Nat.le_trans greatest bounds.2⟩
    (fun e => Nat.le_trans (notOverlong e) least) (fun e => Nat.le_trans greatest (notLarge e)) (admits_iff.mp third)
    (admits_iff.mp fourth)

end Open

/-- What a byte begins between characters is a piece of this byte or a sound open
character. -/
theorem start_cases (b : UInt8) :
    (∃ p, start b = .inl p ∧ p.bytes = [b]) ∨ ∃ o, start b = .inr o ∧ o.Sound ∧ o.bytes = [b] := by
  unfold start
  dsimp only
  split
  case isTrue ascii => exact .inl ⟨_, rfl, encodeChar_ascii ascii⟩
  case isFalse =>
  split
  case isTrue => exact .inl ⟨_, rfl, rfl⟩
  case isFalse =>
  split
  case isTrue => exact .inr ⟨_, rfl, Open.sound_two (by omega), rfl⟩
  case isFalse =>
  split
  case isTrue => exact .inr ⟨_, rfl, Open.sound_three (by omega) (by omega) (by omega) (by omega) (by omega), rfl⟩
  case isFalse =>
  split
  case isTrue => exact .inr ⟨_, rfl, Open.sound_three (by omega) (by omega) (by omega) (by omega) (by omega), rfl⟩
  case isFalse =>
  split
  case isTrue => exact .inr ⟨_, rfl, Open.sound_three rfl (by omega) (by omega) (by omega) (by omega), rfl⟩
  case isFalse =>
  split
  case isTrue => exact .inr ⟨_, rfl, Open.sound_four (by omega) (by omega) (by omega) (by omega) (by omega), rfl⟩
  case isFalse =>
  split
  case isTrue => exact .inr ⟨_, rfl, Open.sound_four rfl (by omega) (by omega) (by omega) (by omega), rfl⟩
  case isFalse =>
  split
  case isTrue => exact .inr ⟨_, rfl, Open.sound_four (by omega) (by omega) (by omega) (by omega) (by omega), rfl⟩
  case isFalse => exact .inl ⟨_, rfl, rfl⟩

/-! ### One byte -/

/-- The bytes of what is open. -/
def pending : Option Open → List UInt8
  | none => []
  | some o => o.bytes

/-- What is open is sound. -/
def SoundState (st : Option Open) : Prop :=
  ∀ o ∈ st, o.Sound

variable {st : Option Open} {o : Open} {b : UInt8} {bs cs : List UInt8} {p : Piece}

theorem SoundState.none : SoundState none :=
  nofun

theorem Open.Sound.state (sound : o.Sound) : SoundState (some o) := by
  rintro _ ⟨⟩
  exact sound

/-- Pieces and a state come from reading a byte in another state: together they have the
bytes, and reading goes on from there. -/
structure Steps (st : Option Open) (b : UInt8) (ps : List Piece) (st' : Option Open) : Prop where
  sound : SoundState st'
  bytes : ps.flatMap Piece.bytes ++ pending st' = pending st ++ [b]
  scanFrom : ∀ r, Utf8.scanFrom st (b :: r) = ps ++ Utf8.scanFrom st' r

theorem exists_steps_none (b : UInt8) : ∃ ps st', Steps none b ps st' := by
  rcases start_cases b with ⟨p, begins, bytes⟩ | ⟨o, begins, sound, bytes⟩
  · refine ⟨[p], none, .none, by simp [pending, bytes], fun r => ?_⟩
    rw [scanFrom, begins]
    rfl
  · refine ⟨[], some o, sound.state, by simp [pending, bytes], fun r => ?_⟩
    rw [scanFrom, begins]
    rfl

/-- A byte that does not belong to what is open is read as between characters. -/
theorem scanFrom_of_refuses (refuses : o.admits b = false) (r : List UInt8) :
    scanFrom (some o) (b :: r) = .stray o.bytes :: scanFrom none (b :: r) :=
  if_neg (Bool.eq_false_iff.mp refuses)

theorem exists_steps (sound : SoundState st) (b : UInt8) : ∃ ps st', Steps st b ps st' := by
  cases st with
  | none => exact exists_steps_none b
  | some o =>
      cases admitted : o.admits b with
      | false =>
          obtain ⟨ps, st', steps⟩ := exists_steps_none b
          refine ⟨.stray o.bytes :: ps, st', steps.sound, ?_, fun r => ?_⟩
          · rw [List.flatMap_cons, List.append_assoc, steps.bytes]
            rfl
          · rw [scanFrom_of_refuses admitted, steps.scanFrom]
            rfl
      | true =>
          cases sound o rfl with
          | last _ owed complete =>
              refine ⟨[.char (.ofNat (o.extend b))], none, .none, ?_, fun r => ?_⟩
              · simp [pending, Piece.bytes, complete b admitted]
              · rw [scanFrom, if_pos admitted, if_pos owed]
                rfl
          | more _ owed next =>
              refine ⟨[], some (o.push b), (next b admitted).state, rfl, fun r => ?_⟩
              rw [scanFrom, if_pos admitted, if_neg owed]
              rfl

/-! ### All bytes -/

theorem flatMap_bytes_scanFrom (sound : SoundState st) (bs : List UInt8) :
    (scanFrom st bs).flatMap Piece.bytes = pending st ++ bs := by
  induction bs generalizing st with
  | nil => cases st <;> simp [scanFrom, pending, Piece.bytes]
  | cons b bs ih =>
      obtain ⟨ps, st', steps⟩ := exists_steps sound b
      rw [steps.scanFrom, List.flatMap_append, ih steps.sound, ← List.append_assoc, steps.bytes, List.append_assoc]
      rfl

/-- Scanning loses nothing. -/
theorem flatMap_bytes_scan (bs : List UInt8) : (scan bs).flatMap Piece.bytes = bs :=
  flatMap_bytes_scanFrom .none bs

theorem scanFrom_append_ascii (sound : SoundState st) (ascii : b.toNat < 0x80) (bs cs : List UInt8) :
    scanFrom st (bs ++ b :: cs) = scanFrom st bs ++ .char (.ofNat b.toNat) :: scan cs := by
  have alone : scanFrom none (b :: cs) = .char (.ofNat b.toNat) :: scan cs := by
    rw [scanFrom, start, if_pos ascii]
    rfl
  induction bs generalizing st with
  | nil =>
      cases st with
      | none => exact alone
      | some o =>
          have refuses : o.admits b = false := by
            have low := (sound o rfl).low_le
            rw [Bool.eq_false_iff, ne_eq, Open.admits_iff]
            omega
          rw [List.nil_append, scanFrom_of_refuses refuses, alone]
          rfl
  | cons c bs ih =>
      obtain ⟨ps, st', steps⟩ := exists_steps sound c
      rw [List.cons_append, steps.scanFrom, steps.scanFrom, ih steps.sound, List.append_assoc]

/-- The bytes before and behind an ASCII byte are scanned on their own. -/
theorem scan_append_ascii (ascii : b.toNat < 0x80) (bs cs : List UInt8) :
    scan (bs ++ b :: cs) = scan bs ++ .char (.ofNat b.toNat) :: scan cs :=
  scanFrom_append_ascii .none ascii bs cs

/-! ### Texts -/

variable {t : List Char}

theorem eq_encode_of_scan (chars : scan bs = t.map .char) : bs = encode t := by
  have bytes := flatMap_bytes_scan bs
  rw [chars, List.flatMap_map] at bytes
  exact bytes.symm

/-- Bytes are read as a text just when that text is written so. -/
theorem decode?_eq_some_iff : decode? bs = some t ↔ bs = encode t := by
  constructor
  · intro decoded
    refine eq_encode_of_scan ?_
    unfold decode? at decoded
    generalize scan bs = ps at decoded
    induction ps generalizing t with
    | nil => cases decoded; rfl
    | cons p ps ih =>
        rw [List.mapM_cons] at decoded
        obtain ⟨c, first, rest⟩ := Option.bind_eq_some_iff.mp decoded
        obtain ⟨cs, others, same⟩ := Option.bind_eq_some_iff.mp rest
        cases same
        cases p with
        | char c => cases first; rw [ih others]; rfl
        | stray => cases first
  · rintro rfl
    exact decode?_encode t

/-- Bytes that are shown without a replacement are what is shown. -/
theorem display_eq_iff (plain : '\uFFFD' ∉ t) : display bs = t ↔ bs = encode t := by
  constructor
  · intro shown
    refine eq_encode_of_scan ?_
    unfold display at shown
    generalize scan bs = ps at shown
    subst shown
    refine .symm (List.map_map.trans ?_)
    refine (List.map_congr_left fun p mem => ?_).trans (List.map_id _)
    cases p with
    | char c => rfl
    | stray => exact absurd (List.mem_map_of_mem mem) plain
  · rintro rfl
    exact display_encode t

/-- What is shown of bytes and is no replacement is written in them. -/
theorem mem_of_mem_display {c : Char} (mem : c ∈ display bs) (ne : c ≠ '\uFFFD') (inside : b ∈ encodeChar c) :
    b ∈ bs := by
  obtain ⟨p, there, shown⟩ := List.mem_map.mp mem
  rw [← flatMap_bytes_scan bs]
  refine List.mem_flatMap.mpr ⟨p, there, ?_⟩
  cases p with
  | char d => cases shown; exact inside
  | stray => exact absurd shown.symm ne

end Sandbox.Utf8
