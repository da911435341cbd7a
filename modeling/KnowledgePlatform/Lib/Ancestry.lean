import Mathlib.Data.List.Nodup
import Mathlib.Data.List.Sublists
import Mathlib.Logic.Relation

/-! Trees given by parents. `up k` is the parent of a node, if it has one, or nothing at all when
there is no such node. Ascending is bounded, and so is the search for descendants. -/

namespace KnowledgePlatform.Ancestry

open List

variable {κ : Type} {up after : κ → Option (Option κ)} {k l p : κ} {path other : List κ} {n : Nat}

/-- The nodes from `k` to a root. -/
inductive Path (up : κ → Option (Option κ)) : κ → List κ → Prop where
  | root {k : κ} : up k = some none → Path up k [k]
  | node {k p : κ} {path : List κ} : up k = some (some p) → Path up p path → Path up k (k :: path)

/-- From `k` upwards through at most `n` parents. -/
def ascend (up : κ → Option (Option κ)) : Nat → κ → List κ
  | 0, k => if (up k).isSome then [k] else []
  | n + 1, k =>
    match up k with
    | none => []
    | some none => [k]
    | some (some p) => k :: ascend up n p

/-- As `ascend`, with `k` and every parent named on the way, whether or not there is such a node. -/
def named (up : κ → Option (Option κ)) : Nat → κ → List κ
  | 0, k => [k]
  | n + 1, k =>
    match up k with
    | some (some p) => k :: named up n p
    | _ => [k]

/-! ## Paths -/

namespace Path

section

variable (h : Path up k path)
include h

theorem up_isSome : (up k).isSome = true := by
  cases h with
  | root h => rw [h]; rfl
  | node h => rw [h]; rfl

theorem head : k ∈ path := by
  cases h with
  | root => exact mem_singleton_self k
  | node => exact mem_cons_self

theorem unique (h' : Path up k other) : path = other := by
  induction h generalizing other with
  | root top =>
    cases h' with
    | root => rfl
    | node step => rw [top] at step; cases step
  | node step _ ih =>
    cases h' with
    | root top => rw [step] at top; cases top
    | node step' rest =>
      rw [step] at step'
      cases step'
      rw [ih rest]

/-- Every node of a path begins the rest of it. -/
theorem suffix (hl : l ∈ path) : ∃ rest, Path up l rest ∧ rest <:+ path := by
  induction h with
  | root top =>
    cases mem_singleton.mp hl
    exact ⟨_, .root top, suffix_rfl⟩
  | node step rest ih =>
    obtain rfl | hl := mem_cons.mp hl
    · exact ⟨_, .node step rest, suffix_rfl⟩
    · obtain ⟨tail, htail, sub⟩ := ih hl
      exact ⟨tail, htail, sub.trans (suffix_cons _ _)⟩

theorem nodup : path.Nodup := by
  induction h with
  | root => exact nodup_singleton _
  | @node k p path step rest ih =>
    refine nodup_cons.mpr ⟨?_, ih⟩
    intro again
    -- The path of `k` would be a part of the rest of itself.
    obtain ⟨tail, htail, sub⟩ := rest.suffix again
    have same := htail.unique (.node step rest)
    have shorter := sub.length_le
    rw [same, length_cons] at shorter
    omega

theorem exists_up (hl : l ∈ path) : (up l).isSome = true := by
  obtain ⟨rest, hrest, -⟩ := h.suffix hl
  exact hrest.up_isSome

end

theorem length_le {nodes : List κ} (all : ∀ l, (up l).isSome = true → l ∈ nodes)
    (h : Path up k path) : path.length ≤ nodes.length := by
  have sub : path ⊆ nodes := fun l hl => all l (h.exists_up hl)
  exact (h.nodup.subperm sub).length_le

theorem last (h : Path up k path) : ∃ l, path.getLast? = some l ∧ up l = some none := by
  induction h with
  | root top => exact ⟨_, rfl, top⟩
  | @node _ _ _ _ _ ih =>
    obtain ⟨l, end_, top⟩ := ih
    exact ⟨l, by rw [getLast?_cons, end_]; rfl, top⟩

/-- The path of an ancestor is shorter. -/
theorem ancestor (above : Relation.TransGen (fun l p => up l = some (some p)) k l)
    (h : Path up k path) : ∃ rest, Path up l rest ∧ rest.length < path.length := by
  have parent {k p : κ} {path : List κ} (h : Path up k path) (step : up k = some (some p)) :
      ∃ rest, Path up p rest ∧ rest.length < path.length := by
    cases h with
    | root top =>
      rw [top] at step
      cases step
    | node step' rest =>
      rw [step] at step'
      cases step'
      exact ⟨_, rest, Nat.lt_succ_self _⟩
  induction above with
  | single step => exact parent h step
  | tail _ step ih =>
    obtain ⟨rest, hrest, shorter⟩ := ih
    obtain ⟨less, hless, fewer⟩ := parent hrest step
    exact ⟨less, hless, fewer.trans shorter⟩

theorem acyclic (h : Path up k path) :
    ¬ Relation.TransGen (fun l p => up l = some (some p)) k k := by
  intro above
  obtain ⟨rest, again, shorter⟩ := h.ancestor above
  rw [h.unique again] at shorter
  exact Nat.lt_irrefl _ shorter

/-- A path depends only on the parents of its nodes. -/
theorem congr (same : ∀ l ∈ path, after l = up l) (h : Path up k path) : Path after k path := by
  induction h with
  | @root k top =>
    refine .root ?_
    rw [same k (mem_singleton_self k), top]
  | @node k p _ step _ ih =>
    refine .node (p := p) ?_ (ih fun l hl => same l (.tail _ hl))
    rw [same k mem_cons_self, step]

/-- When `k` is put under a node whose path it is not on, every node still has a path. -/
theorem move (moved : after k = some (some p)) (kept : ∀ l, l ≠ k → after l = up l)
    (top : Path up p other) (clear : k ∉ other) (h : Path up l path) :
    ∃ next, Path after l next := by
  have above : Path after p other :=
    top.congr fun m hm => kept m fun same => clear (same ▸ hm)
  induction h with
  | @root l root =>
    by_cases same : l = k
    · subst same
      exact ⟨_, .node moved above⟩
    · exact ⟨_, .root ((kept l same).trans root)⟩
  | @node l _ _ step _ ih =>
    by_cases same : l = k
    · subst same
      exact ⟨_, .node moved above⟩
    · obtain ⟨next, path⟩ := ih
      exact ⟨_, .node ((kept l same).trans step) path⟩

theorem ascend (h : Path up k path) : ascend up n k = path.take (n + 1) := by
  induction h generalizing n with
  | root top => cases n <;> simp [Ancestry.ascend, top]
  | node step _ ih =>
    cases n with
    | zero => simp [Ancestry.ascend, step]
    | succ => simp [Ancestry.ascend, step, ih]

theorem named (h : Path up k path) : named up n k = path.take (n + 1) := by
  induction h generalizing n with
  | root top => cases n <;> simp [Ancestry.named, top]
  | node step _ ih =>
    cases n with
    | zero => simp [Ancestry.named]
    | succ => simp [Ancestry.named, step, ih]

theorem ascend_all (h : Path up k path) (fits : path.length ≤ n + 1) :
    Ancestry.ascend up n k = path := by
  rw [h.ascend, take_of_length_le fits]

end Path

/-! ## Descendants -/

variable [DecidableEq κ] {nodes found : List κ}

/-- What `found` grows to in `n` rounds that each add the nodes whose parents are already there. -/
def descend (up : κ → Option (Option κ)) (nodes : List κ) : Nat → List κ → List κ
  | 0, found => found
  | n + 1, found =>
    descend up nodes n <| found ++ nodes.filter fun child =>
      decide (child ∉ found) && (up child).any fun parent => parent.any fun p => decide (p ∈ found)

theorem descend_mono (h : k ∈ found) : k ∈ descend up nodes n found := by
  induction n generalizing found with
  | zero => exact h
  | succ n ih => exact ih (mem_append_left _ h)

theorem descend_add {m : Nat} :
    descend up nodes (m + n) found = descend up nodes n (descend up nodes m found) := by
  induction m generalizing found with
  | zero => rw [Nat.zero_add]; rfl
  | succ m ih => rw [Nat.succ_add]; exact ih

/-- Every node with `k` on its path is found from `k`. -/
theorem Path.descend (all : ∀ l, (up l).isSome = true → l ∈ nodes) (h : Path up l path)
    (hk : k ∈ path) (fits : path.length ≤ n + 1) : l ∈ descend up nodes n [k] := by
  induction h generalizing n with
  | root =>
    cases mem_singleton.mp hk
    exact descend_mono (mem_singleton_self _)
  | @node l p path step rest ih =>
    obtain rfl | hk := mem_cons.mp hk
    · exact descend_mono (mem_singleton_self _)
    · have node : l ∈ nodes := all l (by rw [step]; rfl)
      have shorter : path.length ≤ n := by simpa using fits
      obtain ⟨m, rfl⟩ : ∃ m, n = m + 1 := by
        have := length_pos_of_mem rest.head
        exact ⟨n - 1, by omega⟩
      have hp := ih hk shorter
      rw [descend_add]
      by_cases old : l ∈ descend up nodes m [k]
      · exact descend_mono old
      · refine mem_append_right _ (mem_filter.mpr ⟨node, ?_⟩)
        simp [old, step, hp]

end KnowledgePlatform.Ancestry
