import Sandbox.Proofs.Json.Scalar
import Sandbox.Proofs.Json.Tree

/-!
Documents are read back as they were printed.

The indented text of a document whose numbers are integers of 64 bits is read as the raw
value of the document, wherever it stands in a text (`readValue_printed`). So a document
whose members are in order and which is not too deep is what its text stands for
(`parse_pretty`).
-/

namespace Sandbox.Json

open Utf8 (Piece)

mutual

/-- Every number in the document is an integer of 64 bits, with a sign or without. -/
def Integral : Json → Prop
  | num (.int n) => -2 ^ 63 ≤ n ∧ n < 2 ^ 64
  | num (.float _) => False
  | arr l => IntegralItems l
  | obj ms => IntegralMembers ms
  | _ => True

@[inherit_doc Integral]
def IntegralItems : List Json → Prop
  | [] => True
  | j :: l => j.Integral ∧ IntegralItems l

@[inherit_doc Integral]
def IntegralMembers : List (String × Json) → Prop
  | [] => True
  | (_, j) :: l => j.Integral ∧ IntegralMembers l

end

variable {l : List Json} {ms : List (String × Json)}

@[simp] theorem integral_arr : (arr l).Integral ↔ ∀ j ∈ l, j.Integral := by
  rw [Integral]
  induction l with
  | nil => simp [IntegralItems]
  | cons j l ih => rw [IntegralItems, ih, List.forall_mem_cons]

@[simp] theorem integral_obj : (obj ms).Integral ↔ ∀ m ∈ ms, m.2.Integral := by
  rw [Integral]
  induction ms with
  | nil => simp [IntegralMembers]
  | cons m ms ih => rw [IntegralMembers, ih, List.forall_mem_cons]

/-! ### Blanks -/

@[simp] theorem skipBlank_newLine (level : Nat) (ps : List Piece) :
    skipBlank (pieces (newLine level) ++ ps) = skipBlank ps := by
  have spaces (n : Nat) : skipBlank (pieces (List.replicate n ' ') ++ ps) = skipBlank ps := by
    induction n with
    | zero => rfl
    | succ n ih =>
        rw [List.replicate_succ, pieces_cons, List.cons_append, skipBlank_blank (by decide), ih]
  rw [newLine, pieces_cons, List.cons_append, skipBlank_blank (by decide), spaces]

/-! ### How values begin, and what follows them -/

theorem not_isBlank_of_isDigit {c : Char} (digit : c.isDigit = true) : isBlank (.char c) = false := by
  have ne {d : Char} (other : d.isDigit = false) : c ≠ d := by
    rintro rfl
    rw [other] at digit
    cases digit
  simp [isBlank, ne (d := ' ') rfl, ne (d := '\t') rfl, ne (d := '\n') rfl, ne (d := '\r') rfl]

theorem toDigits_head (n : Nat) : ∃ c cs, Nat.toDigits 10 n = c :: cs ∧ c.isDigit = true := by
  obtain ⟨c, cs, written⟩ := List.exists_cons_of_ne_nil (@Nat.toDigits_ne_nil n 10)
  have mem : c ∈ Nat.toDigits 10 n := by rw [written]; exact List.mem_cons_self
  exact ⟨c, cs, written, Nat.isDigit_of_mem_toDigits (by decide) (by decide) mem⟩

/-- A value begins with no blank, and not as a list ends. -/
theorem prettyChars_head (level : Nat) {j : Json} (whole : j.Integral) :
    ∃ c cs, prettyChars level j = c :: cs ∧ isBlank (.char c) = false ∧ c ≠ ']' := by
  cases j with
  | null => exact ⟨'n', _, rfl, by decide, by decide⟩
  | bool b =>
      cases b with
      | true => exact ⟨'t', _, rfl, by decide, by decide⟩
      | false => exact ⟨'f', _, rfl, by decide, by decide⟩
  | num n =>
      rcases n with (n | n) | x
      · obtain ⟨c, cs, written, digit⟩ := toDigits_head n
        refine ⟨c, cs, written, not_isBlank_of_isDigit digit, ?_⟩
        rintro rfl
        cases digit
      · exact ⟨'-', _, rfl, by decide, by decide⟩
      · exact absurd whole id
  | str s => exact ⟨'"', _, rfl, by decide, by decide⟩
  | arr l => cases l <;> exact ⟨'[', _, rfl, by decide, by decide⟩
  | obj ms => cases ms <;> exact ⟨'\x7b', _, rfl, by decide, by decide⟩

theorem skipBlank_printed (level : Nat) {j : Json} (whole : j.Integral) (rest : List Piece) :
    skipBlank (pieces (prettyChars level j) ++ rest) = pieces (prettyChars level j) ++ rest := by
  obtain ⟨c, cs, written, solid, -⟩ := prettyChars_head level whole
  rw [written, pieces_cons, List.cons_append, skipBlank_cons solid]

theorem endsNumber_cons {c : Char} (other : digit? (.char c) = none ∧ c ∉ ['.', 'e', 'E']) (ps : List Piece) :
    EndsNumber (.char c :: ps) := by
  intro p mem
  cases mem
  simp_all

/-- No number goes on behind an item. -/
theorem endsNumber_prettyItems (level : Nat) (l : List Json) (rest : List Piece) :
    EndsNumber (pieces (prettyItems level l) ++ rest) := by
  cases l with
  | nil => exact endsNumber_cons (by decide) _
  | cons j l => exact endsNumber_cons (by decide) _

/-- No number goes on behind a member. -/
theorem endsNumber_prettyMembers (level : Nat) (ms : List (String × Json)) (rest : List Piece) :
    EndsNumber (pieces (prettyMembers level ms) ++ rest) := by
  cases ms with
  | nil => exact endsNumber_cons (by decide) _
  | cons m ms => exact endsNumber_cons (by decide) _

/-! ### Values -/

/-- The printed document is read, wherever it stands. -/
def ReadsBack (j : Json) : Prop :=
  ∀ (level fuel : Nat) (ps rest : List Piece), skipBlank ps = pieces (prettyChars level j) ++ rest →
    (prettyChars level j).length ≤ fuel → EndsNumber rest → readValue fuel ps = (.ofJson j, .ok rest)

/-- A text that begins with a value leaves fuel to begin with it. -/
theorem exists_fuel {level fuel : Nat} {j : Json} (whole : j.Integral)
    (enough : (prettyChars level j).length ≤ fuel) : ∃ f, fuel = f + 1 := by
  obtain ⟨c, cs, written, -⟩ := prettyChars_head level whole
  rw [written, List.length_cons] at enough
  exact Nat.exists_eq_add_one.mpr (by omega)

theorem readValue_number {fuel : Nat} {ps r : List Piece} {c : Char} (digit : c.isDigit = true)
    (start : skipBlank ps = .char c :: r) : readValue (fuel + 1) ps = readNumber false (.char c :: r) := by
  have some : (digit? (.char c)).isSome = true := by simp [digit?, digit]
  rw [readValue, start]
  split
  case h_9 p r' same =>
    cases same
    rw [if_pos some]
  all_goals
    rename_i same
    cases same
  all_goals cases digit

theorem readsBack_num {n : JsonNumber} (whole : (num n).Integral) : (num n).ReadsBack := by
  intro level fuel ps rest start enough ends
  obtain ⟨fuel, rfl⟩ := exists_fuel whole enough
  rcases n with (n | n) | x
  · have fits : n < 2 ^ 64 := by
      have := whole.2
      simp only [Int.ofNat_eq_natCast] at this
      omega
    obtain ⟨c, cs, written, digit⟩ := toDigits_head n
    have text : prettyChars level (num (.int (.ofNat n))) = Nat.toDigits 10 n := rfl
    rw [text] at start
    have number := readNumber_toDigits false n ends
    rw [toNumber?_nonnegative fits] at number
    rw [written, pieces_cons, List.cons_append] at start number
    rw [readValue_number digit start, number]
    rfl
  · have fits : n + 1 ≤ 2 ^ 63 := by
      have := whole.1
      omega
    have text : prettyChars level (num (.int (.negSucc n))) = '-' :: Nat.toDigits 10 (n + 1) := rfl
    rw [text, pieces_cons, List.cons_append] at start
    rw [readValue, start]
    change readNumber true _ = _
    rw [readNumber_toDigits true (n + 1) ends, toNumber?_negative (by omega) fits]
    rfl
  · exact absurd whole id

theorem readsBack_str (s : String) : (str s).ReadsBack := by
  intro level fuel ps rest start enough _
  have whole : (str s).Integral := trivial
  obtain ⟨fuel, rfl⟩ := exists_fuel whole enough
  have text : pieces (prettyChars level (str s)) ++ rest =
      .char '"' :: (pieces (s.toList.flatMap escapeChar) ++ .char '"' :: rest) := by
    simp [prettyChars, printString]
  have read := readString_printed s rest
  rw [readValue, start, text]
  revert read
  generalize pieces (s.toList.flatMap escapeChar) ++ .char '"' :: rest = r
  intro read
  change (Raw.string (readString r).1, (readString r).2) = _
  rw [read]
  rfl

theorem readsBack_null : null.ReadsBack := by
  intro level fuel ps rest start enough _
  have whole : (null).Integral := trivial
  obtain ⟨fuel, rfl⟩ := exists_fuel whole enough
  rw [readValue, start]
  rfl

theorem readsBack_bool (b : Bool) : (bool b).ReadsBack := by
  intro level fuel ps rest start enough _
  have whole : (bool b).Integral := trivial
  obtain ⟨fuel, rfl⟩ := exists_fuel whole enough
  rw [readValue, start]
  cases b <;> rfl

/-! ### Lists -/

theorem readItems_printed {level fuel : Nat} {j : Json} {ps rest : List Piece} (first : j.ReadsBack)
    (whole : ∀ k ∈ l, k.Integral) (others : ∀ k ∈ l, k.ReadsBack)
    (start : skipBlank ps = pieces (prettyChars (level + 1) j) ++ (pieces (prettyItems level l) ++ rest))
    (enough : (prettyChars (level + 1) j).length + (prettyItems level l).length ≤ fuel) :
    readItems fuel ps = (Raw.ofItems (j :: l), .ok rest) := by
  induction l generalizing fuel j ps with
  | nil =>
      have close : skipBlank (pieces (prettyItems level []) ++ rest) = .char ']' :: rest := by
        rw [prettyItems, pieces_append, List.append_assoc, skipBlank_newLine]
        exact skipBlank_cons (by decide) rest
      have length : 0 < (prettyItems level []).length := by simp [prettyItems]
      obtain ⟨fuel, rfl⟩ : ∃ f, fuel = f + 1 := Nat.exists_eq_add_one.mpr (by omega)
      exact readItems_last (first _ _ _ _ start (by omega) (endsNumber_prettyItems level [] rest)) close
  | cons k l ih =>
      obtain ⟨wholeNext, wholeRest⟩ := List.forall_mem_cons.mp whole
      obtain ⟨next, others⟩ := List.forall_mem_cons.mp others
      have comma : skipBlank (pieces (prettyItems level (k :: l)) ++ rest) =
          .char ',' :: (pieces (newLine (level + 1)) ++
            (pieces (prettyChars (level + 1) k) ++ (pieces (prettyItems level l) ++ rest))) := by
        rw [prettyItems]
        simp only [List.cons_append, pieces_cons, pieces_append, List.append_assoc]
        exact skipBlank_cons (by decide) _
      have length : (prettyItems level (k :: l)).length =
          1 + (newLine (level + 1)).length + ((prettyChars (level + 1) k).length + (prettyItems level l).length) := by
        rw [prettyItems]
        simp only [List.cons_append, List.length_cons, List.length_append]
        omega
      obtain ⟨fuel, rfl⟩ : ∃ f, fuel = f + 1 := Nat.exists_eq_add_one.mpr (by omega)
      rw [readItems_more (first _ _ _ _ start (by omega) (endsNumber_prettyItems level (k :: l) rest)) comma,
        ih next wholeRest others _ (by omega)]
      · rfl
      · rw [skipBlank_newLine, skipBlank_printed _ wholeNext]

theorem readsBack_arr (whole : ∀ j ∈ l, j.Integral) (items : ∀ j ∈ l, j.ReadsBack) : (arr l).ReadsBack := by
  intro level fuel ps rest start enough _
  obtain ⟨fuel, rfl⟩ := exists_fuel (integral_arr.mpr whole) enough
  cases l with
  | nil =>
      rw [readValue, start]
      rfl
  | cons j l =>
      obtain ⟨wholeFirst, wholeRest⟩ := List.forall_mem_cons.mp whole
      obtain ⟨first, others⟩ := List.forall_mem_cons.mp items
      have opened : skipBlank ps = .char '[' :: (pieces (newLine (level + 1)) ++
          (pieces (prettyChars (level + 1) j) ++ (pieces (prettyItems level l) ++ rest))) := by
        rw [start, prettyChars]
        simp only [List.cons_append, pieces_cons, pieces_append, List.append_assoc]
      have length : (prettyChars level (arr (j :: l))).length =
          1 + (newLine (level + 1)).length + ((prettyChars (level + 1) j).length + (prettyItems level l).length) := by
        rw [prettyChars]
        simp only [List.cons_append, List.length_cons, List.length_append]
        omega
      have solid := skipBlank_printed (level + 1) wholeFirst (pieces (prettyItems level l) ++ rest)
      have read : readItems fuel _ = _ := readItems_printed first wholeRest others solid (by omega)
      obtain ⟨c, cs, written, -, noEnd⟩ := prettyChars_head (level + 1) wholeFirst
      rw [written, pieces_cons, List.cons_append] at solid read opened
      rw [readValue_items opened (by rw [skipBlank_newLine, solid]) noEnd, read]
      rfl

/-! ### Objects -/

/-- A member from behind the opening quote of its name, and what follows it. -/
def memberPieces (level : Nat) (k : String) (j : Json) (rest : List Piece) : List Piece :=
  pieces (k.toList.flatMap escapeChar) ++
    .char '"' :: .char ':' :: .char ' ' :: (pieces (prettyChars (level + 1) j) ++ rest)

theorem readMembers_printed {level fuel : Nat} {k : String} {j : Json} {rest : List Piece}
    (wholeFirst : j.Integral) (first : j.ReadsBack) (whole : ∀ m ∈ ms, m.2.Integral)
    (others : ∀ m ∈ ms, m.2.ReadsBack)
    (enough : (prettyChars (level + 1) j).length + (prettyMembers level ms).length ≤ fuel) :
    readMembers fuel (memberPieces level k j (pieces (prettyMembers level ms) ++ rest)) =
      (Raw.ofMembers ((k, j) :: ms), .ok rest) := by
  have value {f : Nat} {j : Json} (whole : j.Integral) (readsBack : j.ReadsBack)
      (enough : (prettyChars (level + 1) j).length ≤ f) (ms : List (String × Json)) :
      readValue f (.char ' ' :: (pieces (prettyChars (level + 1) j) ++ (pieces (prettyMembers level ms) ++ rest))) =
        (.ofJson j, .ok (pieces (prettyMembers level ms) ++ rest)) := by
    refine readsBack _ _ _ _ ?_ enough (endsNumber_prettyMembers level ms rest)
    rw [skipBlank_blank (by decide), skipBlank_printed _ whole]
  induction ms generalizing fuel k j with
  | nil =>
      have close : skipBlank (pieces (prettyMembers level []) ++ rest) = .char '\x7d' :: rest := by
        rw [prettyMembers, pieces_append, List.append_assoc, skipBlank_newLine]
        exact skipBlank_cons (by decide) rest
      have length : 0 < (prettyMembers level []).length := by simp [prettyMembers]
      obtain ⟨fuel, rfl⟩ : ∃ f, fuel = f + 1 := Nat.exists_eq_add_one.mpr (by omega)
      exact readMembers_last (readString_printed k _) (value wholeFirst first (by omega) []) close
  | cons m ms ih =>
      obtain ⟨k', j'⟩ := m
      have wholeNext : j'.Integral := whole (k', j') List.mem_cons_self
      have next : j'.ReadsBack := others (k', j') List.mem_cons_self
      have wholeRest := (List.forall_mem_cons.mp whole).2
      have others := (List.forall_mem_cons.mp others).2
      have comma : skipBlank (pieces (prettyMembers level ((k', j') :: ms)) ++ rest) = .char ',' ::
          (pieces (newLine (level + 1)) ++ .char '"' ::
            memberPieces level k' j' (pieces (prettyMembers level ms) ++ rest)) := by
        rw [prettyMembers, printString, memberPieces]
        simp only [List.cons_append, pieces_cons, pieces_append, List.append_assoc, List.nil_append]
        exact skipBlank_cons (by decide) _
      have quote : skipBlank (pieces (newLine (level + 1)) ++ .char '"' ::
            memberPieces level k' j' (pieces (prettyMembers level ms) ++ rest)) =
          .char '"' :: memberPieces level k' j' (pieces (prettyMembers level ms) ++ rest) := by
        rw [skipBlank_newLine, skipBlank_cons (by decide)]
      have length : (prettyMembers level ((k', j') :: ms)).length =
          3 + (newLine (level + 1)).length + (printString k').length +
            ((prettyChars (level + 1) j').length + (prettyMembers level ms).length) := by
        rw [prettyMembers]
        simp only [List.cons_append, List.length_cons, List.length_append]
        omega
      obtain ⟨fuel, rfl⟩ : ∃ f, fuel = f + 1 := Nat.exists_eq_add_one.mpr (by omega)
      have here := value wholeFirst first (by omega : _ ≤ fuel) ((k', j') :: ms)
      rw [memberPieces, readMembers_more (readString_printed k _) here comma quote,
        ih wholeNext next wholeRest others (by omega)]
      rfl

theorem readsBack_obj (whole : ∀ m ∈ ms, m.2.Integral) (values : ∀ m ∈ ms, m.2.ReadsBack) :
    (obj ms).ReadsBack := by
  intro level fuel ps rest start enough _
  obtain ⟨fuel, rfl⟩ := exists_fuel (integral_obj.mpr whole) enough
  cases ms with
  | nil =>
      rw [readValue, start]
      rfl
  | cons m ms =>
      obtain ⟨k, j⟩ := m
      have wholeFirst : j.Integral := whole (k, j) List.mem_cons_self
      have first : j.ReadsBack := values (k, j) List.mem_cons_self
      have wholeRest := (List.forall_mem_cons.mp whole).2
      have others := (List.forall_mem_cons.mp values).2
      have opened : skipBlank ps = .char '\x7b' :: (pieces (newLine (level + 1)) ++ .char '"' ::
          memberPieces level k j (pieces (prettyMembers level ms) ++ rest)) := by
        rw [start, prettyChars, printString, memberPieces]
        simp only [List.cons_append, pieces_cons, pieces_append, List.append_assoc, List.nil_append]
      have length : (prettyChars level (obj ((k, j) :: ms))).length =
          3 + (newLine (level + 1)).length + (printString k).length +
            ((prettyChars (level + 1) j).length + (prettyMembers level ms).length) := by
        rw [prettyChars]
        simp only [List.cons_append, List.length_cons, List.length_append]
        omega
      have quote : skipBlank (pieces (newLine (level + 1)) ++ .char '"' ::
            memberPieces level k j (pieces (prettyMembers level ms) ++ rest)) =
          .char '"' :: memberPieces level k j (pieces (prettyMembers level ms) ++ rest) := by
        rw [skipBlank_newLine, skipBlank_cons (by decide)]
      rw [readValue_members opened quote, readMembers_printed wholeFirst first wholeRest others (by omega)]
      rfl

/-! ### Whole texts -/

theorem readsBack {j : Json} (whole : j.Integral) : j.ReadsBack := by
  induction j with
  | null => exact readsBack_null
  | bool b => exact readsBack_bool b
  | num n => exact readsBack_num whole
  | str s => exact readsBack_str s
  | arr l ih =>
      have items := integral_arr.mp whole
      exact readsBack_arr items fun j mem => ih j mem (items j mem)
  | obj ms ih =>
      have values := integral_obj.mp whole
      exact readsBack_obj values fun m mem => ih m mem (values m mem)

/-- The indented text of a document holds nothing else. -/
theorem readText_pretty {j : Json} (whole : j.Integral) :
    readText (Utf8.scan (Utf8.encode j.pretty.toList)) = ⟨.ofJson j, false⟩ := by
  have read : readValue (2 * (pieces (prettyChars 0 j)).length + 2) (pieces (prettyChars 0 j)) =
      (.ofJson j, .ok []) := by
    refine readsBack whole 0 _ _ [] ?_ ?_ (fun _ none => by cases none)
    · simpa using skipBlank_printed 0 whole []
    · simp only [pieces, List.length_map]
      omega
  have scanned : Utf8.scan (Utf8.encode j.pretty.toList) = pieces (prettyChars 0 j) := by
    rw [pretty, String.toList_ofList, Utf8.scan_encode, pieces]
  rw [scanned, readText, read]
  rfl

/-- A document in order that is not too deep, and whose numbers are integers of 64 bits,
is what its indented text stands for. -/
theorem parse_pretty {j : Json} (sorted : j.Sorted) (whole : j.Integral) (shallow : j.depth ≤ depthLimit) :
    parse (Utf8.encode j.pretty.toList) = .ok j := by
  have admitted : (Source.text depthLimit).Admits j := shallow
  rw [parse, readText_pretty whole]
  dsimp only
  rw [Raw.toJson_ofJson sorted admitted]
  rfl

end Sandbox.Json
