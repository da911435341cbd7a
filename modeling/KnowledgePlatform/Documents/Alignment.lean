import KnowledgePlatform.Lib.OrderedMap
import Mathlib.Data.Prod.Lex
import Mathlib.Data.String.Basic

/-! The items of two versions of a document paired up in three passes under one budget. Every item
is accounted for once, and both versions are treated alike. -/

namespace KnowledgePlatform.Alignment

open List

/-- Of formats and inspection profiles only the order is used. -/
structure ItemAnchor (φ π : Type) where
  logicalPath : String
  ordinal : Nat
  format : Option φ
  inspectionProfile : π
  semanticFingerprint : Option Digest

inductive AlignmentKind where
  | exact
  | reordered
  | relocated

structure AlignedPair where
  baseIndex : Nat
  targetIndex : Nat
  kind : AlignmentKind

structure UnresolvedCluster where
  baseIndices : List Nat
  targetIndices : List Nat

structure AlignmentOutcome where
  pairs : List AlignedPair
  unmatchedBase : List Nat
  unmatchedTarget : List Nat
  unresolved : List UnresolvedCluster
  exhausted : Bool

structure AlignmentBudget (limit : Nat) where
  used : Nat
  within : used ≤ limit

variable {limit : Nat}

/-- A sum that overflows is over the limit too. -/
def AlignmentBudget.charge (budget : AlignmentBudget limit) (count : Nat) :
    Option (AlignmentBudget limit) :=
  if within : budget.used + count ≤ limit then some ⟨budget.used + count, within⟩ else none

/-- Both sides and the budget on the way. Once that is exhausted nothing changes any more. -/
structure State (limit : Nat) where
  pairs : List AlignedPair
  baseUsed : List Bool
  targetUsed : List Bool
  budget : AlignmentBudget limit
  exhausted : Bool

def pair (s : State limit) (kind : AlignmentKind) : List Nat → List Nat → State limit
  | [i], [j] =>
    { s with
      pairs := s.pairs ++ [⟨i, j, kind⟩]
      baseUsed := s.baseUsed.set i true
      targetUsed := s.targetUsed.set j true }
  | _, _ => s

/-- Two groups of one key, at the cost of their sizes if the pass considers them. -/
def visit (cost : Nat → Nat → Option Nat) (kind : AlignmentKind) (s : State limit)
    (old new : List Nat) : State limit :=
  if s.exhausted then s
  else match cost old.length new.length with
    | none => s
    | some count => match s.budget.charge count with
      | none => { s with exhausted := true }
      | some budget => pair { s with budget } kind old new

def remaining (used : List Bool) : List Nat :=
  (List.range used.length).filter fun i => used[i]? = some false

def State.ambiguous (s : State limit) : Bool :=
  s.exhausted || (!(remaining s.baseUsed).isEmpty && !(remaining s.targetUsed).isEmpty)

def finish (s : State limit) : AlignmentOutcome where
  pairs := sortOn (fun p => toLex (p.baseIndex, p.targetIndex)) s.pairs
  unmatchedBase := bif s.ambiguous then [] else remaining s.baseUsed
  unmatchedTarget := bif s.ambiguous then [] else remaining s.targetUsed
  unresolved := bif s.ambiguous then [⟨remaining s.baseUsed, remaining s.targetUsed⟩] else []
  exhausted := s.exhausted

section

variable {φ π κ : Type} [LinearOrder κ]

/-- The unused items by their keys. -/
def groups (key : ItemAnchor φ π → Option κ) (items : List (ItemAnchor φ π)) (used : List Bool) :
    OrderedMap κ (List Nat) :=
  items.zipIdx.foldl (fun m e => match key e.1 with
    | some k => if used[e.2]? = some false then m.insert k ((m.get k).getD [] ++ [e.2]) else m
    | none => m) .empty

/-- The groups of the keys that the target has too, in the order of the base. -/
def common (base target : OrderedMap κ (List Nat)) : List (κ × List Nat × List Nat) :=
  base.entries.filterMap fun e => (target.get e.1).map fun new => (e.1, e.2, new)

def pass (key : ItemAnchor φ π → Option κ) (cost : Nat → Nat → Option Nat) (kind : AlignmentKind)
    (base target : List (ItemAnchor φ π)) (s : State limit) : State limit :=
  (common (groups key base s.baseUsed) (groups key target s.targetUsed)).foldl
    (fun s e => visit cost kind s e.2.1 e.2.2) s

def exactKey (item : ItemAnchor φ π) : Option (String ×ₗ Nat) :=
  some (toLex (item.logicalPath, item.ordinal))

def pathKey (item : ItemAnchor φ π) : Option String := some item.logicalPath

def fingerprintKey (item : ItemAnchor φ π) : Option (φ ×ₗ π ×ₗ Bytes) := do
  let format ← item.format
  let fingerprint ← item.semanticFingerprint
  return toLex (format, toLex (item.inspectionProfile, fingerprint.bytes))

def singles (m n : Nat) : Option Nat := if m = 1 ∧ n = 1 then some 1 else none

def candidates (m n : Nat) : Option Nat := some (min (m * n) (2 ^ 64 - 1))

def passes [LinearOrder φ] [LinearOrder π] (base target : List (ItemAnchor φ π))
    (budget : AlignmentBudget limit) : State limit :=
  let s := ⟨[], .replicate base.length false, .replicate target.length false, budget, false⟩
  let s := pass exactKey singles .exact base target s
  let s := pass pathKey singles .reordered base target s
  pass fingerprintKey candidates .relocated base target s

def alignItems [LinearOrder φ] [LinearOrder π] (base target : List (ItemAnchor φ π))
    (budget : AlignmentBudget limit) : AlignmentOutcome × AlignmentBudget limit :=
  let s := passes base target budget
  (finish s, s.budget)

/-! ## Both sides alike -/

def AlignedPair.mirror (p : AlignedPair) : AlignedPair := ⟨p.targetIndex, p.baseIndex, p.kind⟩

def UnresolvedCluster.mirror (c : UnresolvedCluster) : UnresolvedCluster :=
  ⟨c.targetIndices, c.baseIndices⟩

def State.mirror (s : State limit) : State limit :=
  ⟨s.pairs.map AlignedPair.mirror, s.targetUsed, s.baseUsed, s.budget, s.exhausted⟩

variable {s : State limit} {cost : Nat → Nat → Option Nat} {kind : AlignmentKind}
  {old new : List Nat} {key : ItemAnchor φ π → Option κ} {base target : List (ItemAnchor φ π)}

theorem pair_mirror : pair s.mirror kind new old = (pair s kind old new).mirror := by
  rcases old with _ | ⟨i, _ | ⟨_, _⟩⟩ <;> rcases new with _ | ⟨j, _ | ⟨_, _⟩⟩ <;>
    simp [pair, State.mirror, AlignedPair.mirror]

variable {a b : OrderedMap κ (List Nat)} {k : κ}

theorem mem_common : (k, old, new) ∈ common a b ↔ a.get k = some old ∧ b.get k = some new := by
  simp only [common, mem_filterMap, Option.map_eq_some_iff, Prod.exists, Prod.mk.injEq]
  constructor
  · rintro ⟨_, _, there, _, found, rfl, rfl, rfl⟩
    exact ⟨OrderedMap.mem_entries.mp there, found⟩
  · rintro ⟨there, found⟩
    exact ⟨k, old, OrderedMap.mem_entries.mpr there, new, found, rfl, rfl, rfl⟩

theorem common_ordered : Keyed.Ordered Prod.fst (common a b) := by
  refine a.ordered.filterMap _ ?_
  intro e e' less x hx y hy
  obtain ⟨_, -, rfl⟩ := Option.map_eq_some_iff.mp hx
  obtain ⟨_, -, rfl⟩ := Option.map_eq_some_iff.mp hy
  exact less

theorem common_mirror : common b a = (common a b).map fun e => (e.1, e.2.2, e.2.1) := by
  apply common_ordered.ext
  · rw [Keyed.Ordered, pairwise_map]
    exact common_ordered
  · rintro ⟨k, new, old⟩
    simp only [mem_map, Prod.exists, Prod.mk.injEq, mem_common]
    constructor
    · rintro ⟨found, there⟩
      exact ⟨k, old, new, ⟨there, found⟩, rfl, rfl, rfl⟩
    · rintro ⟨_, _, _, ⟨there, found⟩, rfl, rfl, rfl⟩
      exact ⟨found, there⟩

theorem pass_mirror (alike : ∀ m n, cost m n = cost n m) :
    pass key cost kind target base s.mirror = (pass key cost kind base target s).mirror := by
  unfold pass
  rw [common_mirror, foldl_map]
  refine foldl_hom State.mirror ?_
  rintro s ⟨_, old, new⟩
  dsimp only [Function.comp_apply, Prod.swap]
  unfold visit
  rw [alike new.length, apply_ite State.mirror]
  refine if_congr Iff.rfl rfl ?_
  cases cost old.length new.length with
  | none => rfl
  | some count =>
    cases charged : s.budget.charge count with
    | none => simp only [charged, State.mirror]
    | some budget =>
      simp only [charged, State.mirror]
      exact pair_mirror (s := { s with budget })

/-! ## Every item once -/

/-- The items of the base are in the pairs or not used, each once. -/
def Accounted (count : Nat) (s : State limit) : Prop :=
  (s.pairs.map AlignedPair.baseIndex ++ remaining s.baseUsed).Perm (List.range count)

theorem remaining_set {used : List Bool} {i : Nat} (free : used[i]? = some false) :
    (remaining used).Perm (i :: remaining (used.set i true)) := by
  have inside : i ∈ remaining used := by
    obtain ⟨small, -⟩ := List.getElem?_eq_some_iff.mp free
    exact mem_filter.mpr ⟨mem_range.mpr small, decide_eq_true free⟩
  have distinct : (remaining used).Nodup := nodup_range.filter _
  have others : remaining (used.set i true) = (remaining used).erase i := by
    rw [distinct.erase_eq_filter, remaining, remaining, length_set, filter_filter]
    apply filter_congr
    intro j _
    by_cases same : i = j
    · simp [getElem?_set, same]
    · simp [same, Ne.symm same]
  rw [others]
  exact perm_cons_erase inside

/-- What a visit does to the base: nothing, or it pairs the one item that the group has. -/
theorem visit_base (cost : Nat → Nat → Option Nat) (kind : AlignmentKind) (s : State limit)
    (old new : List Nat) :
    let t := visit cost kind s old new
    t.pairs = s.pairs ∧ t.baseUsed = s.baseUsed ∨ ∃ i j, old = [i] ∧
      t.pairs = s.pairs ++ [⟨i, j, kind⟩] ∧ t.baseUsed = s.baseUsed.set i true := by
  unfold visit
  split
  · exact .inl ⟨rfl, rfl⟩
  · split
    · exact .inl ⟨rfl, rfl⟩
    · split
      · exact .inl ⟨rfl, rfl⟩
      · unfold pair
        split
        · exact .inr ⟨_, _, rfl, rfl, rfl⟩
        · exact .inl ⟨rfl, rfl⟩

variable {count : Nat}

omit [LinearOrder κ] in
theorem foldl_accounted {l : List (κ × List Nat × List Nat)}
    (apart : l.Pairwise fun e f => ∀ i ∈ e.2.1, i ∉ f.2.1)
    (free : ∀ e ∈ l, ∀ i ∈ e.2.1, s.baseUsed[i]? = some false) (h : Accounted count s) :
    Accounted count (l.foldl (fun s e => visit cost kind s e.2.1 e.2.2) s) := by
  induction l generalizing s with
  | nil => exact h
  | cons e l ih =>
    obtain ⟨first, apart⟩ := pairwise_cons.mp apart
    have later := fun f inside => free f (mem_cons_of_mem e inside)
    obtain ⟨pairs, used⟩ | ⟨i, j, one, pairs, used⟩ : _ ∨ _ :=
      visit_base cost kind s e.2.1 e.2.2
    · refine ih apart (used ▸ later) ?_
      rw [Accounted, pairs, used]
      exact h
    · have here : i ∈ e.2.1 := one ▸ mem_singleton_self i
      refine ih apart ?_ ?_
      · intro f inside j there
        have other : i ≠ j := fun same => first f inside i here (same ▸ there)
        rw [used, getElem?_set, if_neg other]
        exact later f inside j there
      · rw [Accounted, pairs, used, map_append, append_assoc]
        exact ((remaining_set (free e mem_cons_self i here)).symm.append_left _).trans h

theorem groups_free {items : List (ItemAnchor φ π)} {used : List Bool} :
    ∀ k, ∀ i ∈ ((groups key items used).get k).getD [],
      used[i]? = some false ∧ ∃ item, items[i]? = some item ∧ key item = some k := by
  refine foldlRecOn _ _ (motive := fun m : OrderedMap κ (List Nat) => ∀ k, ∀ i ∈ (m.get k).getD [],
    used[i]? = some false ∧ ∃ item, items[i]? = some item ∧ key item = some k) nofun ?_
  rintro m ih ⟨item, i⟩ listed
  split
  next k' keyed =>
    split
    · intro k j
      rw [OrderedMap.get_insert]
      split
      next free same =>
        subst same
        intro inside
        obtain old | last := mem_append.mp inside
        · exact ih k j old
        · cases mem_singleton.mp last
          exact ⟨free, item, mem_zipIdx_iff_getElem?.mp listed, keyed⟩
      · exact ih k j
    · exact ih
  · exact ih

theorem pass_accounted (h : Accounted count s) :
    Accounted count (pass key cost kind base target s) := by
  have free (e : κ × List Nat × List Nat) (there : e ∈ common (groups key base s.baseUsed)
      (groups key target s.targetUsed)) (i : Nat) (inside : i ∈ e.2.1) :=
    groups_free e.1 i (by rw [(mem_common.mp there).1]; exact inside)
  refine foldl_accounted ?_ (fun e there i inside => (free e there i inside).1) h
  refine common_ordered.imp_of_mem ?_
  intro e f there there' less i inside inside'
  obtain ⟨-, item, here, keyed⟩ := free e there i inside
  obtain ⟨-, item', here', keyed'⟩ := free f there' i inside'
  cases here.symm.trans here'
  exact less.ne (Option.some.inj (keyed.symm.trans keyed'))

/-- The items of the base in a result. -/
def AlignmentOutcome.baseItems (out : AlignmentOutcome) : List Nat :=
  out.pairs.map AlignedPair.baseIndex ++ (out.unmatchedBase ++
    out.unresolved.flatMap UnresolvedCluster.baseIndices)

def AlignmentOutcome.targetItems (out : AlignmentOutcome) : List Nat :=
  out.pairs.map AlignedPair.targetIndex ++ (out.unmatchedTarget ++
    out.unresolved.flatMap UnresolvedCluster.targetIndices)

theorem finish_items (h : Accounted count s) : (finish s).baseItems.Perm (List.range count) := by
  have left : (finish s).unmatchedBase ++
      (finish s).unresolved.flatMap UnresolvedCluster.baseIndices = remaining s.baseUsed := by
    unfold finish
    cases s.ambiguous <;> simp
  rw [AlignmentOutcome.baseItems, left]
  exact (((sortOn_perm _ _).map _).append_right _).trans h

section

variable [LinearOrder φ] [LinearOrder π] (base target : List (ItemAnchor φ π))
  (budget : AlignmentBudget limit)

theorem passes_mirror : passes target base budget = (passes base target budget).mirror := by
  have single (m n : Nat) : singles m n = singles n m := by simp only [singles, and_comm]
  have product (m n : Nat) : candidates m n = candidates n m := by
    rw [candidates, candidates, Nat.mul_comm]
  simp only [passes, ← pass_mirror single, ← pass_mirror product]
  rfl

theorem align_items : (alignItems base target budget).1.baseItems.Perm
    (List.range base.length) := by
  apply finish_items
  apply pass_accounted
  apply pass_accounted
  apply pass_accounted
  have all : remaining (.replicate base.length false) = List.range base.length := by
    rw [remaining, length_replicate, filter_eq_self]
    intro i inside
    simp [mem_range.mp inside]
  rw [Accounted, all]
  exact .refl _

/-- The other way round. -/
structure Mirrors (there back : AlignmentOutcome) : Prop where
  pairs : back.pairs.Perm (there.pairs.map AlignedPair.mirror)
  unmatchedBase : back.unmatchedBase = there.unmatchedTarget
  unmatchedTarget : back.unmatchedTarget = there.unmatchedBase
  unresolved : back.unresolved = there.unresolved.map UnresolvedCluster.mirror
  exhausted : back.exhausted = there.exhausted

theorem align_mirrors :
    Mirrors (alignItems base target budget).1 (alignItems target base budget).1 := by
  simp only [alignItems, passes_mirror base target]
  generalize passes base target budget = s
  have sides : s.mirror.ambiguous = s.ambiguous := congrArg (s.exhausted || ·) (Bool.and_comm _ _)
  refine ⟨(sortOn_perm _ _).trans ((sortOn_perm _ _).map _).symm, ?_, ?_, ?_, rfl⟩
  all_goals
    unfold finish
    rw [sides]
    cases s.ambiguous <;> rfl

/-- Aligning the other way round gives the mirror image, at the same cost. -/
theorem align_mirror :
    Mirrors (alignItems base target budget).1 (alignItems target base budget).1 ∧
      (alignItems target base budget).2 = (alignItems base target budget).2 := by
  refine ⟨align_mirrors base target budget, ?_⟩
  simp only [alignItems, passes_mirror base target]
  rfl

/-- Every item of either side is in the result once: paired, unmatched or unresolved. Pairs are in
the order of the base and share no target, and when the budget is used up nothing is called
unmatched. -/
structure Partitions (base target : Nat) (out : AlignmentOutcome) : Prop where
  baseItems : out.baseItems.Perm (List.range base)
  targetItems : out.targetItems.Perm (List.range target)
  increasing : (out.pairs.map AlignedPair.baseIndex).Pairwise (· < ·)
  once : (out.pairs.map AlignedPair.targetIndex).Nodup
  undecided : out.exhausted = true → out.unmatchedBase = [] ∧ out.unmatchedTarget = []

theorem align_partition : Partitions base.length target.length (alignItems base target budget).1 ∧
    (alignItems base target budget).2.used ≤ limit := by
  have baseItems := align_items base target budget
  have targetItems : (alignItems base target budget).1.targetItems.Perm (range target.length) := by
    have mirrors := align_mirrors base target budget
    have back := align_items target base budget
    rw [AlignmentOutcome.baseItems, mirrors.unmatchedBase, mirrors.unresolved, flatMap_map] at back
    have pairs := mirrors.pairs.map AlignedPair.baseIndex
    rw [map_map] at pairs
    exact (pairs.append_right _).symm.trans back
  refine ⟨⟨baseItems, targetItems, ?_, ?_, ?_⟩, (alignItems base target budget).2.within⟩
  · have distinct := (baseItems.nodup_iff.mpr nodup_range).of_append_left
    rw [List.Nodup, pairwise_map] at distinct
    rw [pairwise_map]
    refine ((sortOn_sorted _ _).and distinct).imp ?_
    rintro p q ⟨less, differ⟩
    exact (Prod.Lex.le_iff.mp less).resolve_right fun same => differ same.1
  · exact (targetItems.nodup_iff.mpr nodup_range).of_append_left
  · intro spent
    have spent : (passes base target budget).exhausted = true := spent
    simp [alignItems, finish, State.ambiguous, spent]

end

end

end KnowledgePlatform.Alignment
