import KnowledgePlatform.Search.Predicate
import Mathlib.Algebra.Order.Field.Rat
import Mathlib.Data.Rat.Lemmas
import Mathlib.Tactic.Positivity

/-! The laws of predicates and of the values they compare: decimals are ordered as the numbers they
stand for, equality of values is a congruence, and negations go inwards. -/

namespace KnowledgePlatform.Search

open Decimal List
open Graph (TypedValue DecimalValue)

/-! ## Decimals -/

def toRat (v : DecimalValue) : ℚ := v.coefficient.val / 10 ^ v.scale.toNat

/-- The digits around the point, of which there is one before it; more of them have no zero in
front. -/
structure Parts (n scale : Nat) (parts : List Char × List Char) : Prop where
  digits : ∀ c ∈ parts.1 ++ parts.2, isDigit c = true
  whole : value (parts.1 ++ parts.2) = n
  fraction : parts.2.length = scale
  given : parts.1 ≠ []
  leading : 1 < parts.1.length → 10 ^ (parts.1.length - 1 + scale) ≤ n

theorem parts_decimalParts (v : DecimalValue) :
    Parts v.coefficient.val.natAbs v.scale.toNat (decimalParts v) := by
  unfold decimalParts
  generalize v.coefficient.val.natAbs = n
  generalize v.scale.toNat = scale
  obtain ⟨padded, shape⟩ : ∃ padded,
    padded = replicate (scale + 1 - (nat n).length) '0' ++ nat n := ⟨_, rfl⟩
  have long : padded.length = max (nat n).length (scale + 1) := by
    rw [shape, length_append, length_replicate]
    omega
  simp only [← shape]
  refine ⟨?_, ?_, ?_, ?_, ?_⟩
  · rw [take_append_drop, shape, forall_mem_append]
    exact ⟨fun c hc => by rw [eq_of_mem_replicate hc]; decide, nat_digits n⟩
  · rw [take_append_drop, shape, value_append, value_zeros, value_nat]
    simp
  · rw [length_drop]
    omega
  · rw [← length_pos_iff, length_take]
    omega
  · intro more
    rw [length_take] at more ⊢
    have size := @Nat.length_toDigits_le_iff 10 n ((nat n).length - 1) (by decide) (by omega)
    rw [show min (padded.length - scale) padded.length - 1 + scale = (nat n).length - 1 by omega]
    by_contra small
    have : (nat n).length ≤ (nat n).length - 1 := size.mpr (by omega)
    omega

section

variable {m n s t : Nat} {l r : List Char × List Char} (h : Parts m s l) (k : Parts n t r)
  {width : Nat} (hs : s ≤ width) (ht : t ≤ width)
include h hs

/-- With the fraction filled up to a width, in digits of that width. -/
theorem Parts.filled :
    (l.2.rightpad width '0').length = width ∧ (∀ c ∈ l.2.rightpad width '0', isDigit c = true) ∧
      value l.1 * 10 ^ width + value (l.2.rightpad width '0') = m * 10 ^ (width - s) := by
  have size := h.fraction
  rw [rightpad, size]
  refine ⟨by simp [size, hs], ?_, ?_⟩
  · refine forall_mem_append.mpr ⟨(forall_mem_append.mp h.digits).2, ?_⟩
    intro c hc
    rw [eq_of_mem_replicate hc]
    decide
  · rw [← h.whole, value_append, value_append, value_zeros, size,
      length_replicate, add_zero, Nat.add_mul, mul_assoc, ← pow_add, Nat.add_sub_cancel' hs]

include k ht

theorem Parts.shorter (short : l.1.length < r.1.length) :
    m * 10 ^ (width - s) < n * 10 ^ (width - t) := by
  have some := length_pos_iff.mpr h.given
  calc m * 10 ^ (width - s) < 10 ^ (l.1.length + s) * 10 ^ (width - s) := by
        refine Nat.mul_lt_mul_of_pos_right ?_ (by positivity)
        have below := value_lt h.digits
        rwa [h.whole, length_append, h.fraction] at below
    _ = 10 ^ (l.1.length + width) := by rw [← pow_add, Nat.add_assoc, Nat.add_sub_cancel' hs]
    _ ≤ 10 ^ (r.1.length - 1 + t) * 10 ^ (width - t) := by
        rw [← pow_add]
        exact Nat.pow_le_pow_right (by decide) (by omega)
    _ ≤ n * 10 ^ (width - t) := Nat.mul_le_mul_right _ (k.leading (by omega))

theorem Parts.compare_eq :
    (compare l.1.length r.1.length).then ((compare l.1 r.1).then
      (compare (l.2.rightpad width '0') (r.2.rightpad width '0'))) =
      compare (m * 10 ^ (width - s)) (n * 10 ^ (width - t)) := by
  obtain short | same | short := lt_trichotomy l.1.length r.1.length
  · rw [compare_lt_iff_lt.mpr short, compare_lt_iff_lt.mpr (h.shorter k hs ht short)]
    rfl
  · obtain ⟨sizeL, digitsL, valueL⟩ := h.filled hs
    obtain ⟨sizeR, digitsR, valueR⟩ := k.filled ht
    have belowL := value_lt digitsL
    have belowR := value_lt digitsR
    rw [sizeL] at belowL
    rw [sizeR] at belowR
    rw [compare_eq_iff_eq.mpr same, ← valueL, ← valueR, compare_mul_add belowL belowR,
      compare_digits digitsL digitsR (sizeL.trans sizeR.symm),
      compare_digits (forall_mem_append.mp h.digits).1 (forall_mem_append.mp k.digits).1
        same]
    rfl
  · rw [compare_gt_iff_gt.mpr short, compare_gt_iff_gt.mpr (k.shorter h ht hs short)]
    rfl

end

/-- A decimal is a multiple of the unit of any wider scale. -/
theorem toRat_eq (v : DecimalValue) {width : Nat} (wide : v.scale.toNat ≤ width) :
    toRat v = ((v.coefficient.val * 10 ^ (width - v.scale.toNat) : Int) : ℚ) / 10 ^ width := by
  rw [toRat, div_eq_div_iff (by positivity) (by positivity)]
  push_cast
  rw [mul_assoc, ← pow_add, Nat.sub_add_cancel wide]

/-- Signs decide first; of two negative numbers the one further from zero is less. -/
theorem compare_signed {x y p q : Int} (hp : 0 < p) (hq : 0 < q) :
    (if x = 0 ∧ y = 0 then .eq
      else if decide (x < 0) ≠ decide (y < 0) then if decide (x < 0) = true then .lt else .gt
      else if decide (x < 0) = true then (compare (|x| * p) (|y| * q)).swap
      else compare (|x| * p) (|y| * q)) = compare (x * p) (y * q) := by
  by_cases hx : x < 0 <;> by_cases hy : y < 0
  · have opposite : StrictAnti fun z : Int => -z := fun _ _ => neg_lt_neg
    have swapped : compare (-(x * p)) (-(y * q)) = compare (y * q) (x * p) := by
      rw [← cmp_eq_compare, opposite.cmp_map_eq, cmp_eq_compare]
    rw [if_neg (by omega), abs_of_neg hx, abs_of_neg hy, neg_mul, neg_mul, swapped,
      @Std.OrientedCmp.eq_swap _ compare _ (x * p)]
    simp [hx, hy]
  · have less := (mul_neg_of_neg_of_pos hx hp).trans_le (mul_nonneg (not_lt.mp hy) hq.le)
    rw [compare_lt_iff_lt.mpr less, if_neg (by omega)]
    simp [hx, hy]
  · have less := (mul_neg_of_neg_of_pos hy hq).trans_le (mul_nonneg (not_lt.mp hx) hp.le)
    rw [compare_gt_iff_gt.mpr less, if_neg (by omega)]
    simp [hx, hy]
  · rw [abs_of_nonneg (not_lt.mp hx), abs_of_nonneg (not_lt.mp hy)]
    split
    next zero =>
      simp [zero]
    · simp [hx, hy]

theorem compareDecimal_eq (a b : DecimalValue) :
    compareDecimal a b = compare (toRat a) (toRat b) := by
  obtain ⟨width, hwidth⟩ : ∃ width, width = max a.scale.toNat b.scale.toNat := ⟨_, rfl⟩
  have wideA : a.scale.toNat ≤ width := by omega
  have wideB : b.scale.toNat ≤ width := by omega
  have scaled : StrictMono fun x : Int => (x : ℚ) / 10 ^ width := by
    intro x y less
    exact div_lt_div_of_pos_right (Int.cast_lt.mpr less) (by positivity)
  have cast : StrictMono fun x : Nat => (x : Int) := Nat.strictMono_cast
  have partsA := parts_decimalParts a
  have partsB := parts_decimalParts b
  have order := partsA.compare_eq partsB wideA wideB
  rw [← cmp_eq_compare (_ * _), ← cast.cmp_map_eq, cmp_eq_compare] at order
  push_cast at order
  rw [toRat_eq a wideA, toRat_eq b wideB, ← cmp_eq_compare, scaled.cmp_map_eq, cmp_eq_compare,
    ← compare_signed (by positivity) (by positivity), ← order]
  unfold compareDecimal
  simp only [partsA.fraction, partsB.fraction, ← hwidth]

/-- Decimals are compared as the rational numbers they stand for. There is a digit before the point,
so that the texts are never cut out of bounds. -/
theorem decimals_compared_exactly (a b : DecimalValue) :
    compareDecimal a b = compare (toRat a) (toRat b) ∧ (decimalParts a).1 ≠ [] ∧
      (decimalParts a).2.length = a.scale.toNat :=
  ⟨compareDecimal_eq a b, (parts_decimalParts a).given, (parts_decimalParts a).fraction⟩

/-! ## Equality -/

variable {a b c : TypedValue} {levels : Nat}

theorem compareValues_swap : compareValues b a = (compareValues a b).map Ordering.swap := by
  cases a <;> cases b <;> try rfl
  case money.money | quantity.quantity =>
    simp only [compareValues, compareDecimal_eq, @eq_comm String]
    split
    · exact congrArg some Std.OrientedCmp.eq_swap
    · rfl
  all_goals
    simp only [compareValues, compareText, compareDecimal_eq, Option.map_some]
    exact congrArg some Std.OrientedCmp.eq_swap

theorem compareValues_congr (same : compareValues b c = some .eq) :
    compareValues a b = compareValues a c := by
  cases b <;> cases c <;> try cases same
  all_goals
    simp only [compareValues, compareText, compareDecimal_eq, Option.some.injEq,
      Std.compare_eq_iff_eq, Option.ite_none_right_eq_some] at same
    cases a <;> simp [compareValues, compareText, compareDecimal_eq, same]

/-- The worst value decides. -/
theorem combineAnd_eq (vs : List TruthValue) : combineAnd vs =
    if .error ∈ vs then .error else if .false ∈ vs then .false else if .unknown ∈ vs then .unknown
    else .true := by
  induction vs using reverseRecOn with
  | nil => rfl
  | append_singleton vs v ih =>
    rw [combineAnd, foldl_concat, ← combineAnd, ih]
    simp only [mem_append, mem_singleton]
    cases v <;> split_ifs <;> simp_all [TruthValue.and]

theorem combineAnd_congr {vs ws : List TruthValue} (same : ∀ v, v ∈ vs ↔ v ∈ ws) :
    combineAnd vs = combineAnd ws := by
  simp only [combineAnd_eq, same]

theorem combineAnd_true {vs : List TruthValue} (h : combineAnd vs = .true) :
    ∀ v ∈ vs, v = .true := by
  intro v hv
  rw [combineAnd_eq] at h
  split_ifs at h
  cases v <;> tauto

theorem valuesEqualAt_symm : valuesEqualAt levels a b = valuesEqualAt levels b a := by
  induction levels generalizing a b with
  | zero => simp only [valuesEqualAt]
  | succ levels ih =>
    cases a <;> cases b
    case list.list xs ys =>
      have swapped : zipWith (valuesEqualAt levels) xs ys = zipWith (valuesEqualAt levels) ys xs :=
        zipWith_comm_of_comm (fun x y => ih)
      simp only [valuesEqualAt, swapped, ne_comm]
    case set.set xs ys =>
      exact combineAnd_congr fun v => by simp only [mem_append, or_comm]
    all_goals
      simp only [valuesEqualAt]
      rw [compareValues_swap]
      cases compareValues _ _ with
      | none => rfl
      | some order => cases order <;> rfl

theorem membershipAt_true {x : TypedValue} {ys : List TypedValue}
    (h : membershipAt levels x ys = .true) :
    ∃ y ∈ ys, valuesEqualAt (levels - 1) x y = .true := by
  cases levels with
  | zero => cases h
  | succ levels =>
    simp only [membershipAt, TruthValue.fromBool] at h
    split_ifs at h with _ found
    simpa using found

/-- Membership reads the verdicts on the items as a set. -/
theorem membershipAt_congr {x y : TypedValue} {xs ys : List TypedValue}
    (same : ∀ v, v ∈ xs.map (valuesEqualAt (levels - 1) x) ↔
      v ∈ ys.map (valuesEqualAt (levels - 1) y)) :
    membershipAt levels x xs = membershipAt levels y ys := by
  cases levels with
  | zero => simp only [membershipAt]
  | succ levels => simp only [membershipAt, Nat.add_sub_cancel] at same ⊢; simp only [same]

/-- Each value of the one list equals one of the other, and the other way round. -/
structure Matched (levels : Nat) (xs ys : List TypedValue) : Prop where
  left : ∀ x ∈ xs, ∃ y ∈ ys, valuesEqualAt levels x y = .true
  right : ∀ y ∈ ys, ∃ x ∈ xs, valuesEqualAt levels x y = .true

theorem Matched.mem_map {xs ys : List TypedValue} (h : Matched levels xs ys)
    {f : TypedValue → TruthValue}
    (congr : ∀ x y, valuesEqualAt levels x y = .true → f x = f y) (v : TruthValue) :
    v ∈ xs.map f ↔ v ∈ ys.map f := by
  simp only [List.mem_map]
  constructor
  · rintro ⟨x, hx, rfl⟩
    obtain ⟨y, hy, same⟩ := h.left x hx
    exact ⟨y, hy, (congr x y same).symm⟩
  · rintro ⟨y, hy, rfl⟩
    obtain ⟨x, hx, same⟩ := h.right y hy
    exact ⟨x, hx, congr x y same⟩

theorem valuesEqualAt_set {ys zs : List TypedValue}
    (same : valuesEqualAt (levels + 1) (.set ys) (.set zs) = .true) :
    Matched (levels - 1) ys zs := by
  have found := combineAnd_true same
  simp only [forall_mem_append, forall_mem_map] at found
  refine ⟨fun y hy => membershipAt_true (found.1 y hy), fun z hz => ?_⟩
  obtain ⟨y, hy, equal⟩ := membershipAt_true (found.2 z hz)
  exact ⟨y, hy, valuesEqualAt_symm.trans equal⟩

theorem valuesEqualAt_list {ys zs : List TypedValue}
    (same : valuesEqualAt (levels + 1) (.list ys) (.list zs) = .true) :
    Forall₂ (fun y z => valuesEqualAt levels y z = .true) ys zs := by
  simp only [valuesEqualAt] at same
  split_ifs at same with lengths
  refine forall₂_iff_zip.2 ⟨not_not.1 lengths, fun {y z} paired => combineAnd_true same _ ?_⟩
  rw [← map_uncurry_zip_eq_zipWith]
  exact mem_map_of_mem paired

theorem valuesEqualAt_congr (same : valuesEqualAt levels b c = .true) :
    valuesEqualAt levels a b = valuesEqualAt levels a c := by
  induction levels using Nat.strong_induction_on generalizing a b c with
  | _ levels ih =>
  cases levels with
  | zero => cases same
  | succ levels =>
  cases b <;> cases c
  case list.list ys zs =>
    have alike := valuesEqualAt_list same
    cases a <;> try rfl
    case list xs =>
    have zipped : zipWith (valuesEqualAt levels) xs ys = zipWith (valuesEqualAt levels) xs zs := by
      clear same
      induction alike generalizing xs with
      | nil => rfl
      | cons equal _ rest =>
        cases xs with
        | nil => rfl
        | cons x xs => rw [zipWith_cons_cons, ih levels levels.lt_succ_self equal, rest]; rfl
    simp only [valuesEqualAt, alike.length_eq, zipped]
  case set.set ys zs =>
    cases a <;> try rfl
    case set xs =>
    have matched := valuesEqualAt_set same
    have congr {x y z} := @ih (levels - 1) (by omega) x y z
    have inside (x) : membershipAt levels x ys = membershipAt levels x zs :=
      membershipAt_congr (matched.mem_map fun y z equal => congr equal)
    have around (y z) (equal : valuesEqualAt (levels - 1) y z = .true) :
        membershipAt levels y xs = membershipAt levels z xs := by
      have swapped (x) : valuesEqualAt (levels - 1) y x = valuesEqualAt (levels - 1) z x := by
        rw [valuesEqualAt_symm, congr equal, valuesEqualAt_symm]
      exact membershipAt_congr fun v => by rw [funext swapped]
    refine combineAnd_congr fun v => ?_
    simp only [mem_append, inside, matched.mem_map around]
  all_goals
    simp only [valuesEqualAt] at same
    split at same
    next order found =>
      cases order <;> cases same
      have congr := @compareValues_congr a _ _ found
      cases a <;> first | cases found | simp only [valuesEqualAt, congr]
    next => cases same

/-- Equality of values does not depend on the order of the two, and equal values compare alike
with every other. -/
theorem valuesEqual_congruent (a b c : TypedValue) : valuesEqual a b = valuesEqual b a ∧
    (valuesEqual b c = .true → valuesEqual a b = valuesEqual a c) :=
  ⟨valuesEqualAt_symm, valuesEqualAt_congr⟩

theorem valuesEqual_congruent_sets :
    valuesEqual (.set [.bool true, .bool false]) (.set [.bool false, .bool true]) = .true ∧
      valuesEqual (.set []) (.set [.bool true, .bool false]) =
        valuesEqual (.set []) (.set [.bool false, .bool true]) :=
  ⟨by decide, (valuesEqual_congruent _ _ _).2 (by decide)⟩

/-! ## Rewriting -/

instance : RightCommutative TruthValue.and :=
  ⟨fun a b c => by cases a <;> cases b <;> cases c <;> rfl⟩

instance : RightCommutative TruthValue.or :=
  ⟨fun a b c => by cases a <;> cases b <;> cases c <;> rfl⟩

theorem not_combineAnd (vs : List TruthValue) : (combineAnd vs).not = combineOr (vs.map .not) := by
  rw [combineOr, foldl_map]
  refine (foldl_hom TruthValue.not ?_).symm
  intro a b
  cases a <;> cases b <;> rfl

theorem not_combineOr (vs : List TruthValue) : (combineOr vs).not = combineAnd (vs.map .not) := by
  rw [combineAnd, foldl_map]
  refine (foldl_hom TruthValue.not ?_).symm
  intro a b
  cases a <;> cases b <;> rfl

/-- The laws of negation, and that the order of members does not matter. -/
theorem predicate_laws (facts : FactSet) (concepts : ConceptResolver) (xs : List PredicateExpr) :
    evaluate (.not (.and xs)) facts concepts = evaluate (.or (xs.map .not)) facts concepts ∧
    evaluate (.not (.or xs)) facts concepts = evaluate (.and (xs.map .not)) facts concepts ∧
    ∀ ys, xs.Perm ys → evaluate (.and xs) facts concepts = evaluate (.and ys) facts concepts ∧
      evaluate (.or xs) facts concepts = evaluate (.or ys) facts concepts := by
  -- Pushing a negation inwards leaves every member at its level.
  simp only [evaluate, maxPredicateDepth]
  refine ⟨?_, ?_, ?_⟩
  · simp only [atDepth, isEmpty_map, map_map, Function.comp_def, apply_ite TruthValue.not,
      not_combineAnd]
    rfl
  · simp only [atDepth, isEmpty_map, map_map, Function.comp_def, apply_ite TruthValue.not,
      not_combineOr]
    rfl
  · intro ys perm
    have values := perm.map (atDepth facts concepts 64)
    simp only [atDepth, perm.isEmpty_eq]
    exact ⟨congrArg _ (values.foldl_eq _), congrArg _ (values.foldl_eq _)⟩

theorem predicate_laws_swapped :
    evaluate (.and [.exists "a", .missing "a"]) ⟨.empty⟩ sampleConcepts =
      evaluate (.and [.missing "a", .exists "a"]) ⟨.empty⟩ sampleConcepts :=
  ((predicate_laws ⟨.empty⟩ sampleConcepts _).2.2 _ (.swap _ _ _)).1

end KnowledgePlatform.Search
