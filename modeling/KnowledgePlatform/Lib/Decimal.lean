import Mathlib.Data.Char
import Mathlib.Data.List.Induction
import Mathlib.Order.Compare
import Mathlib.Tactic.Ring

/-! Decimal texts: the digits of a number, as many as it needs. -/

namespace KnowledgePlatform.Decimal

def isDigit (c : Char) : Bool := 48 ≤ c.toNat && c.toNat ≤ 57

/-- The number that digits spell. -/
def value (ds : List Char) : Nat := ds.foldl (fun n c => 10 * n + (c.toNat - 48)) 0

/-- The digits of a number, without leading zeros. -/
def nat (n : Nat) : List Char := Nat.toDigits 10 n

/-- The digits of an integer after its sign, if it is negative. -/
def int (n : Int) : List Char := if n < 0 then '-' :: nat n.natAbs else nat n.natAbs

/-- Reads digits, at least one of them. -/
def readNat (text : List Char) : Option Nat :=
  if text ≠ [] ∧ text.all isDigit = true then some (value text) else none

/-- Reads an integer, with or without a sign. -/
def readInt : List Char → Option Int
  | '-' :: digits => (readNat digits).map fun n : Nat => -(n : Int)
  | '+' :: digits => (readNat digits).map fun n : Nat => (n : Int)
  | digits => (readNat digits).map fun n : Nat => (n : Int)

theorem value_concat (ds : List Char) (c : Char) :
    value (ds ++ [c]) = 10 * value ds + (c.toNat - 48) := by
  rw [value, List.foldl_append]
  rfl

/-! ## As many digits as needed -/

theorem nat_of_lt {n : Nat} (h : n < 10) : nat n = [Nat.digitChar n] :=
  Nat.toDigits_of_lt_base h

theorem nat_of_ge {n : Nat} (h : 10 ≤ n) : nat n = nat (n / 10) ++ [Nat.digitChar (n % 10)] := by
  have last : n % 10 < 10 := Nat.mod_lt _ (by decide)
  have joined := @Nat.toDigits_append_toDigits 10 (n / 10) (n % 10) (by decide) (by omega) last
  rw [Nat.toDigits_of_lt_base last, show 10 * (n / 10) + n % 10 = n by omega] at joined
  exact joined.symm

theorem nat_digits (n : Nat) : ∀ c ∈ nat n, isDigit c = true := fun _ =>
  Nat.isDigit_of_mem_toDigits (by decide) (by decide)

@[simp] theorem value_nat (n : Nat) : value (nat n) = n := Nat.ofDigitChars_ten_toDigits

theorem nat_ne_nil (n : Nat) : nat n ≠ [] := Nat.toDigits_ne_nil

theorem readNat_nat (n : Nat) : readNat (nat n) = some n := by
  have digits : (nat n).all isDigit = true := List.all_eq_true.mpr (nat_digits n)
  rw [readNat, if_pos ⟨nat_ne_nil n, digits⟩, value_nat]

/-- What is written is read back. -/
theorem readInt_int (n : Int) : readInt (int n) = some n := by
  unfold int
  split
  · rw [readInt, readNat_nat, Option.map_some, Option.some.injEq]
    omega
  · have digits := nat_digits n.natAbs
    have back : readInt (nat n.natAbs) = (readNat (nat n.natAbs)).map fun n : Nat => (n : Int) := by
      unfold readInt
      split
      next same =>
        exact absurd (digits '-' (by rw [same]; simp)) (by decide)
      next same =>
        exact absurd (digits '+' (by rw [same]; simp)) (by decide)
      · rfl
    rw [back, readNat_nat, Option.map_some, Option.some.injEq]
    omega

/-! ## Order -/

theorem value_append (ds es : List Char) :
    value (ds ++ es) = value ds * 10 ^ es.length + value es := by
  induction es using List.reverseRecOn with
  | nil => simp [value]
  | append_singleton es c ih =>
    rw [← List.append_assoc, value_concat, ih, value_concat, List.length_append,
      List.length_singleton]
    ring

theorem value_lt {ds : List Char} (digits : ∀ c ∈ ds, isDigit c = true) :
    value ds < 10 ^ ds.length := by
  induction ds using List.reverseRecOn with
  | nil => exact Nat.one_pos
  | append_singleton ds c ih =>
    obtain ⟨front, last⟩ := List.forall_mem_append.mp digits
    have last := last c (List.mem_singleton_self c)
    simp only [isDigit, Bool.and_eq_true, decide_eq_true_eq] at last
    have front := ih front
    rw [value_concat, List.length_append, List.length_singleton, pow_succ]
    omega

theorem value_zeros (n : Nat) : value (List.replicate n '0') = 0 := by
  induction n with
  | zero => rfl
  | succ n ih =>
    rw [List.replicate_succ', value_concat, ih]
    rfl

/-- The higher part decides, and the lower one where that is equal. -/
theorem compare_mul_add {a b m x y : Nat} (hx : x < m) (hy : y < m) :
    compare (a * m + x) (b * m + y) = (compare a b).then (compare x y) := by
  obtain less | rfl | less := lt_trichotomy a b
  · have := Nat.mul_le_mul_right m less
    rw [compare_lt_iff_lt.mpr less, compare_lt_iff_lt.mpr (by grind)]
    rfl
  · rw [compare_eq_iff_eq.mpr rfl, Ordering.then]
    simp only [Nat.compare_eq_ite_lt, Nat.add_lt_add_iff_left]
  · have := Nat.mul_le_mul_right m less
    rw [compare_gt_iff_gt.mpr less, compare_gt_iff_gt.mpr (by grind)]
    rfl

theorem compare_digit {c d : Char} (hc : isDigit c = true) (hd : isDigit d = true) :
    compare c d = compare (value [c]) (value [d]) := by
  simp only [isDigit, Bool.and_eq_true, decide_eq_true_eq] at hc hd
  simp only [value, List.foldl_cons, List.foldl_nil]
  obtain less | rfl | less := lt_trichotomy c d
  · have smaller : c.toNat < d.toNat := less
    rw [compare_lt_iff_lt.mpr less, compare_lt_iff_lt.mpr (by omega)]
  · simp
  · have smaller : d.toNat < c.toNat := less
    rw [compare_gt_iff_gt.mpr less, compare_gt_iff_gt.mpr (by omega)]

/-- Texts of one length are in the order of their values. -/
theorem compare_digits {ds es : List Char} (hd : ∀ c ∈ ds, isDigit c = true)
    (he : ∀ c ∈ es, isDigit c = true) (same : ds.length = es.length) :
    compare ds es = compare (value ds) (value es) := by
  induction ds generalizing es with
  | nil =>
    cases List.length_eq_zero_iff.mp same.symm
    rfl
  | cons d ds ih =>
    obtain ⟨e, es, rfl⟩ := List.exists_cons_of_length_eq_add_one same.symm
    obtain ⟨firstD, restD⟩ := List.forall_mem_cons.mp hd
    obtain ⟨firstE, restE⟩ := List.forall_mem_cons.mp he
    have same : es.length = ds.length := Nat.succ.inj same.symm
    have below := value_lt restE
    have split := compare_mul_add (a := value [d]) (b := value [e]) (value_lt restD) (same ▸ below)
    rw [← value_append, ← same, ← value_append] at split
    rw [List.compare_cons_cons, ih restD restE same.symm, compare_digit firstD firstE]
    exact split.symm

end KnowledgePlatform.Decimal
