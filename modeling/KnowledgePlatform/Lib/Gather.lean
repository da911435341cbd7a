import KnowledgePlatform.Lib.Except
import Mathlib.Data.List.Defs

/-! Rows fetched by their keys, in batches and in any order, and looked up afterwards. -/

namespace KnowledgePlatform

open List

/-- An order in which things arrive. -/
structure Arrangement (α : Type) where
  apply : List α → List α
  perm : ∀ l, (apply l).Perm l

/-- The order in which they were sent. -/
instance {α : Type} : Inhabited (Arrangement α) := ⟨id, .refl⟩

/-- Batches of a positive size, the last one perhaps smaller. -/
def batches {α : Type} (size : Nat) (l : List α) : List (List α) := (l.toChunksAux (size - 1) 0).2

theorem toChunksAux_parts {α : Type} (n : Nat) (l : List α) (i : Nat) :
    (l.toChunksAux n i).1 ++ (l.toChunksAux n i).2.flatten = l := by
  induction l generalizing i with
  | nil => rfl
  | cons x l ih =>
    cases i with
    | zero => exact congrArg (x :: ·) (ih n)
    | succ i => exact congrArg (x :: ·) (ih i)

theorem mem_batches {α : Type} {size : Nat} {l : List α} {x : α} :
    x ∈ l ↔ ∃ batch ∈ batches size l, x ∈ batch := by
  have first : (l.toChunksAux (size - 1) 0).1 = [] := by cases l <;> rfl
  have whole := toChunksAux_parts (size - 1) l 0
  rw [first, nil_append] at whole
  nth_rewrite 1 [← whole]
  exact mem_flatten

namespace Gather

variable {κ ρ α ε : Type} (table : κ → Option ρ) (visit : κ → ρ → Except ε α) (missing : ε)

/-- What is found for a key: its row, visited. -/
def Holds (k : κ) (v : α) : Prop := ∃ row, table k = some row ∧ visit k row = .ok v

def select (arrange : Arrangement (κ × ρ)) (keys : List κ) : List (κ × ρ) :=
  arrange.apply (keys.filterMap fun k => (table k).map fun row => (k, row))

/-- Every key must have its row. -/
def gather (arrange : Arrangement (κ × ρ)) (keys : List κ) : Except ε (List (κ × α)) := do
  let rows := select table arrange keys
  ensure (rows.length = keys.length) missing
  rows.mapM fun row => do
    let v ← visit row.1 row.2
    return (row.1, v)

variable {table visit missing} {arrange : Arrangement (κ × ρ)} {keys : List κ} {k : κ} {v w : α}

theorem Holds.unique (hv : Holds table visit k v) (hw : Holds table visit k w) : v = w := by
  obtain ⟨row, found, visited⟩ := hv
  obtain ⟨again, foundAgain, visitedAgain⟩ := hw
  cases found.symm.trans foundAgain
  exact Except.ok.inj (visited.symm.trans visitedAgain)

theorem mem_select {row : κ × ρ} :
    row ∈ select table arrange keys ↔ row.1 ∈ keys ∧ table row.1 = some row.2 := by
  simp [select, (arrange.perm _).mem_iff, Prod.ext_iff]

theorem length_select_iff :
    (select table arrange keys).length = keys.length ↔ ∀ k ∈ keys, ∃ row, table k = some row := by
  rw [select, (arrange.perm _).length_eq, length_filterMap_eq_countP, countP_eq_length]
  simp [Option.isSome_iff_exists]

theorem gather_sound {pairs : List (κ × α)}
    (h : gather table visit missing arrange keys = .ok pairs) :
    (∀ pair ∈ pairs, Holds table visit pair.1 pair.2) ∧ ∀ k ∈ keys, ∃ v, (k, v) ∈ pairs := by
  obtain ⟨_, sized, visited⟩ := except_bind_ok h
  rw [ensure_iff] at sized
  constructor
  · intro pair inside
    obtain ⟨row, selected, made⟩ := (mem_mapM visited).mp inside
    obtain ⟨v, value, same⟩ := except_bind_ok made
    cases same
    exact ⟨row.2, (mem_select.mp selected).2, value⟩
  · intro k inside
    obtain ⟨row, found⟩ := length_select_iff.mp sized k inside
    obtain ⟨pair, among, made⟩ := mapM_each visited
      (mem_select.mpr ⟨inside, found⟩ : (k, row) ∈ select table arrange keys)
    obtain ⟨v, -, same⟩ := except_bind_ok made
    cases same
    exact ⟨v, among⟩

theorem gather_total (all : ∀ k ∈ keys, ∃ v, Holds table visit k v) :
    ∃ pairs, gather table visit missing arrange keys = .ok pairs := by
  have sized : (select table arrange keys).length = keys.length := by
    apply length_select_iff.mpr
    intro k inside
    obtain ⟨v, row, found, -⟩ := all k inside
    exact ⟨row, found⟩
  have each : ∀ row ∈ select table arrange keys, ∃ pair, (do
      let v ← visit row.1 row.2
      return (row.1, v) : Except ε (κ × α)) = .ok pair := by
    intro row selected
    obtain ⟨inside, found⟩ := mem_select.mp selected
    obtain ⟨v, row', again, value⟩ := all row.1 inside
    cases found.symm.trans again
    exact ⟨(row.1, v), by rw [value]; rfl⟩
  obtain ⟨pairs, visited, -⟩ := mapM_total (R := fun _ _ => True) fun row selected =>
    (each row selected).imp fun pair made => ⟨made, trivial⟩
  exact ⟨pairs, except_bind_iff.mpr ⟨(), ensure_iff.mpr sized, visited⟩⟩

end Gather

end KnowledgePlatform
