import KnowledgePlatform.Lib.Decimal
import KnowledgePlatform.Lib.Except

/-! Spreadsheet cell references: letters for the column, then a number for the row. -/

namespace KnowledgePlatform.Search.Spreadsheet

open List

inductive ReadError where
  | resourceLimit
  | corrupt
deriving DecidableEq

def isLetter (c : Char) : Bool := 65 ≤ c.toNat && c.toNat ≤ 90

def shift (col : Nat) (letter : Char) : Nat := col * 26 + (letter.toNat - 64)

/-- The column and what follows it. The product overflows only if the sum does. -/
def column : Nat → List Char → Except ReadError (Nat × List Char)
  | col, [] => .ok (col, [])
  | col, c :: rest =>
    if isLetter c then do
      ensure (shift col c < 2 ^ 32) .resourceLimit
      column (shift col c) rest
    else .ok (col, c :: rest)

/-- `str::parse::<u32>`. -/
def parseU32 (text : List Char) : Option Nat :=
  (Decimal.readNat (match text with
    | '+' :: digits => digits
    | _ => text)).filter (· < 2 ^ 32)

def cellReference (reference : String) : Except ReadError (Nat × Nat) := do
  let (col, rest) ← column 0 reference.toList
  let row ← okOr (parseU32 rest) .corrupt
  ensure (row ≠ 0 ∧ col ≠ 0) .corrupt
  return (row, col)

/-! ## Columns -/

/-- The bijective value of letters in base 26. -/
def base26 (letters : List Char) : Nat := letters.foldl shift 0

theorem base26_concat (letters : List Char) (c : Char) :
    base26 (letters ++ [c]) = base26 letters * 26 + (c.toNat - 64) := by
  rw [base26, foldl_append]
  rfl

theorem le_foldl_shift (n : Nat) (letters : List Char) : n ≤ letters.foldl shift n := by
  induction letters generalizing n with
  | nil => exact Nat.le_refl n
  | cons c letters ih =>
    have := ih (shift n c)
    rw [foldl_cons]
    unfold shift at this ⊢
    omega

theorem isLetter_iff {c : Char} : isLetter c = true ↔ 65 ≤ c.toNat ∧ c.toNat ≤ 90 := by
  simp [isLetter]

theorem base26_inj {a b : List Char} (ha : ∀ c ∈ a, isLetter c = true)
    (hb : ∀ c ∈ b, isLetter c = true) (same : base26 a = base26 b) : a = b := by
  induction a using List.reverseRecOn generalizing b with
  | nil =>
    obtain rfl | ⟨b, d, rfl⟩ := eq_nil_or_concat' b
    · rfl
    · have last := isLetter_iff.mp (hb d (by simp))
      have none : base26 [] = 0 := rfl
      rw [base26_concat] at same
      omega
  | append_singleton a c ih =>
    have lastA := isLetter_iff.mp (ha c (by simp))
    rw [base26_concat] at same
    obtain rfl | ⟨b, d, rfl⟩ := eq_nil_or_concat' b
    · have none : base26 [] = 0 := rfl
      omega
    · have lastB := isLetter_iff.mp (hb d (by simp))
      rw [base26_concat] at same
      have front : base26 a = base26 b := by omega
      have end_ : c = d := Char.toNat_inj.mp (by omega)
      rw [ih (fun x hx => ha x (by simp [hx])) (fun x hx => hb x (by simp [hx])) front, end_]

theorem column_iff {n col : Nat} {text rest : List Char} (small : n < 2 ^ 32) :
    column n text = .ok (col, rest) ↔ ∃ letters, text = letters ++ rest ∧
      (∀ c ∈ letters, isLetter c = true) ∧ (∀ c ∈ rest.head?, isLetter c = false) ∧
      letters.foldl shift n = col ∧ col < 2 ^ 32 := by
  induction text generalizing n with
  | nil =>
    constructor
    · intro h
      cases h
      exact ⟨[], rfl, by simp, by simp, rfl, small⟩
    · rintro ⟨letters, split, -, -, rfl, -⟩
      obtain ⟨rfl, rfl⟩ := append_eq_nil_iff.mp split.symm
      rfl
  | cons c text ih =>
    by_cases letter : isLetter c = true
    · rw [column, if_pos letter, ensure_bind_iff]
      constructor
      · rintro ⟨fits, h⟩
        obtain ⟨letters, rfl, all, stops, value, bound⟩ := (ih fits).mp h
        exact ⟨c :: letters, rfl, by simpa [letter] using all, stops, value, bound⟩
      · rintro ⟨_ | ⟨d, letters⟩, split, all, stops, value, bound⟩
        · rw [nil_append] at split
          simp [← split, letter] at stops
        · obtain ⟨rfl, rfl⟩ := cons.inj split
          rw [foldl_cons] at value
          have fits := le_foldl_shift (shift n c) letters
          have fits : shift n c < 2 ^ 32 := by omega
          exact ⟨fits, (ih fits).mpr ⟨letters, rfl, fun x hx => all x (.tail _ hx), stops, value,
            bound⟩⟩
    · rw [column, if_neg letter]
      constructor
      · intro h
        cases h
        exact ⟨[], rfl, by simp, by simpa using letter, rfl, small⟩
      · rintro ⟨_ | ⟨d, letters⟩, split, all, -, rfl, -⟩
        · rw [nil_append] at split
          rw [← split]
          rfl
        · obtain ⟨rfl, -⟩ := cons.inj split
          exact absurd (all c (.head _)) letter

/-! ## Rows -/

def rowText (signed : Bool) (zeros row : Nat) : List Char :=
  (if signed then ['+'] else []) ++ (replicate zeros '0' ++ Decimal.nat row)

/-- Digits are leading zeros and then the digits that their value needs. -/
theorem digits_split {ds : List Char} (digits : ∀ c ∈ ds, Decimal.isDigit c = true) :
    ∃ zeros, ds = replicate zeros '0' ++
      if Decimal.value ds = 0 then [] else Decimal.nat (Decimal.value ds) := by
  induction ds using List.reverseRecOn with
  | nil => exact ⟨0, rfl⟩
  | append_singleton ds c ih =>
    obtain ⟨zeros, split⟩ := ih fun x hx => digits x (by simp [hx])
    have last := digits c (by simp)
    simp only [Decimal.isDigit, Bool.and_eq_true, decide_eq_true_eq] at last
    have small : c.toNat - 48 < 10 := by omega
    have digit : c = Nat.digitChar (c.toNat - 48) :=
      Char.toNat_inj.mp (by rw [Nat.toNat_digitChar_of_lt_ten small]; omega)
    rw [Decimal.value_concat]
    by_cases none : Decimal.value ds = 0
    · rw [if_pos none, append_nil] at split
      by_cases zero : c.toNat - 48 = 0
      · refine ⟨zeros + 1, ?_⟩
        rw [none, zero, digit, zero, split, replicate_succ']
        simp
      · refine ⟨zeros, ?_⟩
        rw [none, if_neg (by omega), Nat.mul_zero, Nat.zero_add, Decimal.nat_of_lt small, ← digit,
          ← split]
    · rw [if_neg none] at split
      refine ⟨zeros, ?_⟩
      have tens : (10 * Decimal.value ds + (c.toNat - 48)) / 10 = Decimal.value ds := by omega
      have ones : (10 * Decimal.value ds + (c.toNat - 48)) % 10 = c.toNat - 48 := by omega
      rw [if_neg (by omega), Decimal.nat_of_ge (by omega), tens, ones, ← digit, ← append_assoc,
        ← split]

theorem padded_digits {zeros row : Nat} :
    ∀ c ∈ replicate zeros '0' ++ Decimal.nat row, Decimal.isDigit c = true := by
  intro c hc
  obtain zero | digit := mem_append.mp hc
  · rw [(mem_replicate.mp zero).2]
    rfl
  · exact Decimal.nat_digits row c digit

theorem readNat_iff {text : List Char} {row : Nat} (positive : row ≠ 0) :
    Decimal.readNat text = some row ↔ ∃ zeros, text = replicate zeros '0' ++ Decimal.nat row := by
  rw [Decimal.readNat, Option.ite_none_right_eq_some, Option.some.injEq, all_eq_true]
  constructor
  · rintro ⟨⟨-, digits⟩, rfl⟩
    obtain ⟨zeros, split⟩ := digits_split digits
    rw [if_neg positive] at split
    exact ⟨zeros, split⟩
  · rintro ⟨zeros, rfl⟩
    refine ⟨⟨by simp [Decimal.nat_ne_nil], padded_digits⟩, ?_⟩
    rw [Decimal.value_append, Decimal.value_zeros, Decimal.value_nat, Nat.zero_mul, Nat.zero_add]

theorem parseU32_iff {text : List Char} {row : Nat} (positive : row ≠ 0) :
    parseU32 text = some row ↔ row < 2 ^ 32 ∧ ∃ signed zeros, text = rowText signed zeros row := by
  unfold parseU32
  rw [Option.filter_eq_some_iff, decide_eq_true_iff, readNat_iff positive, and_comm]
  refine and_congr_right fun _ => ?_
  split
  · constructor
    · rintro ⟨zeros, rfl⟩
      exact ⟨true, zeros, rfl⟩
    · rintro ⟨_ | _, zeros, same⟩
      · exact absurd (padded_digits '+' (same ▸ Mem.head _)) (by decide)
      · exact ⟨zeros, (cons.inj same).2⟩
  · next bare =>
    constructor
    · rintro ⟨zeros, same⟩
      exact ⟨false, zeros, same⟩
    · rintro ⟨_ | _, zeros, same⟩
      · exact ⟨zeros, same⟩
      · exact absurd same (bare _)

theorem rowText_not_letter {signed : Bool} {zeros row : Nat} {c : Char}
    (hc : c ∈ rowText signed zeros row) : isLetter c = false := by
  obtain sign | digit := mem_append.mp hc
  · obtain ⟨-, rfl⟩ : signed = true ∧ c = '+' := by simpa using sign
    rfl
  · have digit := padded_digits c digit
    simp only [Decimal.isDigit, Bool.and_eq_true, decide_eq_true_eq] at digit
    simp [isLetter]
    omega

/-- `reference` is `letters` and then a row, with or without a plus sign and leading zeros. -/
def IsReference (reference : String) (letters : List Char) (row : Nat) : Prop :=
  letters ≠ [] ∧ (∀ c ∈ letters, isLetter c = true) ∧ 1 ≤ row ∧
    ∃ signed zeros, reference.toList = letters ++ rowText signed zeros row

theorem cellReference_iff {reference : String} {row col : Nat} :
    cellReference reference = .ok (row, col) ↔ ∃ letters, IsReference reference letters row ∧
      row < 2 ^ 32 ∧ base26 letters = col ∧ col < 2 ^ 32 := by
  simp only [cellReference, except_iffs, Prod.exists, column_iff (Nat.two_pow_pos 32),
    Prod.mk.injEq]
  constructor
  · rintro ⟨_, rest, ⟨letters, split, all, -, value, fits⟩, _, parsed, ⟨positive, some⟩, rfl, rfl⟩
    obtain ⟨bound, signed, zeros, rfl⟩ := (parseU32_iff positive).mp parsed
    refine ⟨letters, ⟨?_, all, Nat.pos_of_ne_zero positive, signed, zeros, split⟩, bound,
      value, fits⟩
    rintro rfl
    exact some value.symm
  · rintro ⟨letters, ⟨some, all, positive, signed, zeros, split⟩, bound, value, fits⟩
    have positive : row ≠ 0 := by omega
    refine ⟨col, _, ⟨letters, split, all, ?_, value, fits⟩, row,
      (parseU32_iff positive).mpr ⟨bound, signed, zeros, rfl⟩, ⟨positive, ?_⟩, rfl, rfl⟩
    · intro c hc
      exact rowText_not_letter (mem_of_mem_head? hc)
    · rintro rfl
      exact some (base26_inj all (by simp) value)

/-- A reference is accepted exactly if it is letters and a positive row, each of 32 bits. References
to one cell differ only in how the row is written. -/
theorem cell_references (reference : String) (row col : Nat) :
    (cellReference reference = .ok (row, col) ↔ ∃ letters, IsReference reference letters row ∧
      row < 2 ^ 32 ∧ base26 letters = col ∧ col < 2 ^ 32) ∧
    ∀ other, cellReference reference = .ok (row, col) → cellReference other = .ok (row, col) →
      ∃ letters, IsReference reference letters row ∧ IsReference other letters row := by
  refine ⟨cellReference_iff, ?_⟩
  intro other ours theirs
  obtain ⟨letters, first, -, value, -⟩ := cellReference_iff.mp ours
  obtain ⟨found, second, -, same, -⟩ := cellReference_iff.mp theirs
  obtain rfl := base26_inj second.2.1 first.2.1 (same.trans value.symm)
  exact ⟨_, first, second⟩

/-- A plus sign and a leading zero are accepted. -/
theorem row_spellings : cellReference "A1" = .ok (1, 1) ∧ cellReference "A+1" = .ok (1, 1) ∧
    cellReference "A01" = .ok (1, 1) := by decide

end KnowledgePlatform.Search.Spreadsheet
