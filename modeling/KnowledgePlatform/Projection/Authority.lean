import KnowledgePlatform.Projection.Canonical
import KnowledgePlatform.Search.Laws

/-! Scoped authority resolution, which keeps the values of an equal rank apart. -/

namespace KnowledgePlatform.Projection

open List
open Graph (TypedValue)
open Search (valuesEqual valuesEqualAt_symm valuesEqualAt_congr)

/-- The ranks that were granted to a scope, predicate and origin. -/
structure AuthorityPolicy where
  rank : String → String → AssertionOrigin → Option UInt16

/-- What is to be resolved, and under which policy. -/
structure ResolutionRule where
  policy : AuthorityPolicy
  (subjectRef predicate authorityScope : String)

def semanticallyEqual (left right : TypedValue) : Bool := valuesEqual left right = .true

def AssertionOrigin.isProtected : AssertionOrigin → Bool
  | authoritative | curated => true
  | _ => false

/-- Inference cannot displace an explicit curated or authoritative assertion. -/
def eligible (found : List (Assertion × UInt16)) : List (Assertion × UInt16) :=
  let hasProtected := found.any fun p => p.1.origin.isProtected
  found.filter fun p => !hasProtected || p.1.origin ≠ .inferred

/-- Keeps a value unless an equal one is kept. -/
def keep (values : List TypedValue) (value : TypedValue) : List TypedValue :=
  if values.any (semanticallyEqual · value) then values else values ++ [value]

namespace ResolutionRule

variable (rule : ResolutionRule)

def ranked (assertions : List Assertion) : List (Assertion × UInt16) :=
  (assertions.filter fun a => a.subjectRef = rule.subjectRef ∧ a.predicate = rule.predicate ∧
    a.authorityScope = rule.authorityScope).filterMap fun a =>
      (rule.policy.rank rule.authorityScope rule.predicate a.origin).map fun rank => (a, rank)

def outcome (best : Nat) : List TypedValue → AuthorityResolution
  | [value] => .resolved value
  | values => .conflict
    ⟨rule.subjectRef, rule.predicate, rule.authorityScope, .ofNat best, values⟩

def select (found : List (Assertion × UInt16)) : AuthorityResolution :=
  match (found.map (·.2.toNat)).max? with
  | none => .unresolved
  | some best => rule.outcome best (found.foldl (fun values p =>
      if p.2.toNat = best then keep values p.1.value else values) [])

def resolveAssertions (assertions : List Assertion) : AuthorityResolution :=
  rule.select (eligible (rule.ranked assertions))

end ResolutionRule

/-! ## Values up to order and equality -/

/-- One value, or two that are semantically equal. -/
def sameValue : Setoid TypedValue where
  r v w := v = w ∨ valuesEqual v w = .true
  iseqv := {
    refl := fun _ => .inl rfl
    symm := fun h => h.imp Eq.symm fun equal => valuesEqualAt_symm.trans equal
    trans := by
      rintro u v w (rfl | first) (rfl | second)
      · exact .inl rfl
      · exact .inr second
      · exact .inr first
      · exact .inr ((valuesEqualAt_congr second).symm.trans first) }

def classOf (v : TypedValue) : Quotient sameValue := .mk _ v

/-- A value with parts that cannot be compared is not equal to itself. -/
abbrev comparable (v : TypedValue) : Bool := semanticallyEqual v v

variable {l m : List TypedValue} {v : TypedValue}

theorem any_equal_iff : l.any (semanticallyEqual · v) = true ↔
    comparable v = true ∧ classOf v ∈ l.map classOf := by
  simp only [any_eq_true, mem_map, comparable, semanticallyEqual, decide_eq_true_eq]
  constructor
  · rintro ⟨u, there, equal⟩
    refine ⟨?_, u, there, Quotient.sound (.inr equal)⟩
    exact (valuesEqualAt_congr equal).symm.trans (valuesEqualAt_symm.trans equal)
  · rintro ⟨self, u, there, same⟩
    obtain rfl | equal := Quotient.exact same
    · exact ⟨u, there, self⟩
    · exact ⟨u, there, equal⟩

/-- The same items in any order, those with a comparable value any number of times. -/
structure Restated {α : Type} (value : α → TypedValue) (l m : List α) : Prop where
  mem_iff : ∀ a, a ∈ l ↔ a ∈ m
  mixed : (l.filter fun a => !comparable (value a)).Perm (m.filter fun a => !comparable (value a))

theorem Restated.filter {α : Type} {value : α → TypedValue} {l m : List α}
    (h : Restated value l m) (p : α → Bool) : Restated value (l.filter p) (m.filter p) where
  mem_iff _ := by simp only [mem_filter, h.mem_iff]
  mixed := by
    rw [filter_comm, filter_comm _ _ m]
    exact h.mixed.filter p

noncomputable instance : DecidableEq (Quotient sameValue) := Classical.decEq _

/-- One of each class of comparable values, and every other value. -/
noncomputable def classes (l : List TypedValue) : Multiset (Quotient sameValue) :=
  (Multiset.ofList ((l.filter comparable).map classOf)).dedup +
    .ofList ((l.filter (!comparable ·)).map classOf)

theorem classes_congr (h : Restated id l m) : classes l = classes m := by
  refine congrArg₂ _ (Multiset.dedup_ext.mpr ?_) (Multiset.coe_eq_coe.mpr (h.mixed.map classOf))
  simp [h.mem_iff]

theorem mem_classes (self : comparable v = true) :
    classOf v ∈ classes l ↔ classOf v ∈ (l.filter comparable).map classOf := by
  simp only [classes, Multiset.mem_add, Multiset.mem_dedup, Multiset.mem_coe]
  refine or_iff_left ?_
  simp only [mem_map, mem_filter]
  rintro ⟨u, ⟨-, mixed⟩, same⟩
  obtain rfl | equal := sameValue.symm (Quotient.exact same)
  · simp [self] at mixed
  · have := (any_equal_iff (l := [v]) (v := u)).mp (by simp [semanticallyEqual, equal])
    simp [this.1] at mixed

theorem kept_classes : .ofList ((l.foldl keep []).map classOf) = classes l := by
  induction l using reverseRecOn with
  | nil => rfl
  | append_singleton l v ih =>
    have known := any_equal_iff (l := l.foldl keep []) (v := v)
    rw [← Multiset.mem_coe, ih] at known
    have moved := perm_append_singleton v l
    rw [foldl_concat, keep, classes_congr ⟨fun _ => moved.mem_iff, moved.filter _⟩]
    have pushed := Multiset.coe_eq_coe.mpr
      (perm_append_singleton (classOf v) ((l.foldl keep []).map classOf))
    rw [← Multiset.cons_coe, ih] at pushed
    cases self : comparable v
    case false =>
      rw [if_neg (by simp [known, self]), map_append, map_singleton, pushed]
      simp [self, classes, ← Multiset.cons_coe]
    case true =>
      simp only [self, true_and, mem_classes self] at known
      rw [classes, filter_cons_of_pos self, filter_cons_of_neg (by simp [self]), map_cons,
        ← Multiset.cons_coe]
      split
      case isTrue there => rw [Multiset.dedup_cons_of_mem (known.mp there), ih, classes]
      case isFalse fresh =>
        rw [Multiset.dedup_cons_of_notMem (mt known.mpr fresh), map_append, map_singleton, pushed,
          classes, Multiset.cons_add]

/-- The same outcome, with its values up to order and equality. -/
def AuthorityResolution.Alike : AuthorityResolution → AuthorityResolution → Prop
  | .unresolved, .unresolved => True
  | .resolved v, .resolved w => classOf v = classOf w
  | .conflict c, .conflict d =>
    c = { d with values := c.values } ∧ (c.values.map classOf).Perm (d.values.map classOf)
  | _, _ => False

namespace ResolutionRule

variable {rule : ResolutionRule} {best : Nat}

theorem outcome_alike (same : (l.map classOf).Perm (m.map classOf)) :
    (rule.outcome best l).Alike (rule.outcome best m) := by
  rcases l with _ | ⟨v, _ | _⟩ <;> rcases m with _ | ⟨w, _ | _⟩
  case cons.nil.cons.nil => exact singleton_perm_singleton.mp same
  all_goals first | exact ⟨rfl, same⟩ | simpa using same.length_eq

theorem select_alike {l m : List (Assertion × UInt16)} (h : Restated (·.1.value) l m) :
    (rule.select l).Alike (rule.select m) := by
  have ranks : (l.map (·.2.toNat)).max? = (m.map (·.2.toNat)).max? := by
    ext best
    simp only [max?_eq_some_iff, mem_map, h.mem_iff]
  unfold select
  rw [ranks]
  split
  case h_1 => trivial
  case h_2 best _ =>
    have top (l : List (Assertion × UInt16)) : l.foldl (fun values p =>
        if p.2.toNat = best then keep values p.1.value else values) [] =
        ((l.filter (·.2.toNat = best)).map (·.1.value)).foldl keep [] := by
      simp [foldl_map, foldl_filter]
    refine outcome_alike (Multiset.coe_eq_coe.mp ?_)
    rw [top, top, kept_classes, kept_classes]
    have h := h.filter (·.2.toNat = best)
    refine classes_congr ⟨by simp only [mem_map, h.mem_iff, implies_true], ?_⟩
    rw [filter_map, filter_map]
    exact h.mixed.map _

theorem ranked_filter {q : Assertion → Bool} {l : List Assertion} :
    (rule.ranked l).filter (q ·.1) = rule.ranked (l.filter q) := by
  rw [ranked, ranked, filter_comm]
  generalize l.filter _ = inScope
  rw [filter_filterMap, filterMap_filter]
  congr 1
  funext a
  cases rule.policy.rank rule.authorityScope rule.predicate a.origin <;> cases kept : q a <;>
    simp [kept]

theorem ranked_restated (rule : ResolutionRule) {l m : List Assertion}
    (h : Restated (·.value) l m) :
    Restated (·.1.value) (rule.ranked l) (rule.ranked m) where
  mem_iff p := by simp only [ranked, mem_filterMap, mem_filter, h.mem_iff]
  mixed := by
    rw [ranked_filter (q := (!comparable ·.value)), ranked_filter (q := (!comparable ·.value))]
    exact (h.mixed.filter _).filterMap _

/-- The top-ranked values decide, whatever their order and however often a comparable one is
asserted; next to a curated or authoritative assertion, nothing inferred counts. -/
theorem resolution_of_top_ranked (rule : ResolutionRule) (l m : List Assertion) :
    (Restated (·.value) l m → (rule.resolveAssertions l).Alike (rule.resolveAssertions m)) ∧
    ((∃ p ∈ rule.ranked l, p.1.origin.isProtected = true) →
      l.filter (·.origin ≠ .inferred) = m.filter (·.origin ≠ .inferred) →
      rule.resolveAssertions l = rule.resolveAssertions m) := by
  constructor
  · intro h
    have h := rule.ranked_restated h
    have guards : (rule.ranked l).any (·.1.origin.isProtected) =
        (rule.ranked m).any (·.1.origin.isProtected) := by
      rw [Bool.eq_iff_iff]
      simp only [any_eq_true, h.mem_iff]
    unfold resolveAssertions eligible
    rw [guards]
    exact select_alike (h.filter _)
  · rintro ⟨p, there, guards⟩ explicit
    have kept := congrArg rule.ranked explicit
    rw [← ranked_filter, ← ranked_filter] at kept
    have plain : p.1.origin ≠ .inferred := by
      intro inferred
      simp [inferred, AssertionOrigin.isProtected] at guards
    have also := mem_of_mem_filter (kept ▸ mem_filter.mpr ⟨there, decide_eq_true plain⟩)
    have only {l : List Assertion} (there : p ∈ rule.ranked l) :
        eligible (rule.ranked l) = (rule.ranked l).filter (·.1.origin ≠ .inferred) := by
      rw [eligible, any_eq_true.mpr ⟨p, there, guards⟩]
      rfl
    rw [resolveAssertions, resolveAssertions, only there, only also, kept]

/-- The members of its value cannot be compared with each other. -/
def mixedAssertion : Assertion :=
  ⟨none, "", "", .set [.bool true, .string ""], "", .curated, "", [],
    .epoch, none, none, none⟩

def allGranted : ResolutionRule := ⟨⟨fun _ _ _ => some 0⟩, "", "", ""⟩

theorem repeated_assertion_conflicts :
    ¬ (allGranted.resolveAssertions [mixedAssertion, mixedAssertion]).Alike
      (allGranted.resolveAssertions [mixedAssertion]) :=
  id

end ResolutionRule

end KnowledgePlatform.Projection
