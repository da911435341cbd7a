import KnowledgePlatform.Lib.Matching

/-! Tables: rows with distinct keys. -/

namespace KnowledgePlatform

open List

variable {α κ : Type}

/-- Rows no two of which share a key. -/
structure Table (key : α → κ) where
  rows : List α
  unique : (rows.map key).Nodup

namespace Table

variable {key : α → κ}

instance : Membership α (Table key) := ⟨fun t r => r ∈ t.rows⟩

def empty : Table key := ⟨[], List.nodup_nil⟩

def select (t : Table key) (p : α → Bool) : List α := t.rows.filter p

def any (t : Table key) (p : α → Bool) : Bool := t.rows.any p

/-- A change of rows that never changes their keys. -/
structure Change (key : α → κ) where
  row : α → α
  keeps : ∀ r, key (row r) = key r

variable {t u : Table key} {r s : α} {p : α → Bool} {f : Change key}

theorem mem_iff : r ∈ t ↔ r ∈ t.rows := Iff.rfl

@[simp] theorem not_mem_empty : r ∉ (empty : Table key) := not_mem_nil

theorem any_iff : t.any p = true ↔ ∃ r ∈ t, p r = true := any_eq_true

theorem mem_select : r ∈ t.select p ↔ r ∈ t ∧ p r = true := mem_filter

variable [DecidableEq κ] {k : κ}

def find (t : Table key) (k : κ) : Option α := t.rows.find? fun r => decide (key r = k)

theorem find_iff : t.find k = some r ↔ r ∈ t ∧ key r = k := find?_key_iff t.unique

theorem find_none_iff : t.find k = none ↔ ∀ r ∈ t, key r ≠ k := by
  simp [find, mem_iff]

/-! ## Changing a table -/

/-- Adds a row of a new key. -/
def insert (t : Table key) (r : α) : Option (Table key) :=
  if new : t.find (key r) = none then
    some ⟨t.rows ++ [r], by
      exact nodup_map_concat t.unique (find_none_iff.mp new)⟩
  else none

/-- Adds rows one after the other, each of a new key. -/
def insertAll (t : Table key) (new : List α) : Option (Table key) := new.foldlM insert t

/-- Changes the rows that satisfy `p`. -/
def update (t : Table key) (p : α → Bool) (f : Change key) : Table key :=
  ⟨t.rows.map fun r => if p r then f.row r else r, by
    have same : (t.rows.map fun r => if p r then f.row r else r).map key = t.rows.map key := by
      rw [List.map_map]
      apply List.map_congr_left
      intro r _
      rw [Function.comp_apply]
      split
      · exact f.keeps r
      · rfl
    rw [same]
    exact t.unique⟩

/-- Changes the row of a key. -/
def modify (t : Table key) (k : κ) (f : Change key) : Table key :=
  t.update (fun r => decide (key r = k)) f

/-- The rows that do not satisfy `p`. -/
def remove (t : Table key) (p : α → Bool) : Table key :=
  ⟨t.rows.filter fun r => !p r, t.unique.sublist (List.filter_sublist.map _)⟩

/-- Adds a row, in the place of the one that has its key. -/
def put (t : Table key) (r : α) : Table key :=
  ⟨t.rows.filter (fun s => decide (key s ≠ key r)) ++ [r], by
    refine nodup_map_concat (t.unique.sublist (List.filter_sublist.map _)) fun s hs => ?_
    exact of_decide_eq_true (List.mem_filter.mp hs).2⟩

theorem mem_put : s ∈ t.put r ↔ (s ∈ t ∧ key s ≠ key r) ∨ s = r := by
  rw [mem_iff, put, mem_append, mem_filter, mem_singleton, decide_eq_true_eq]
  exact Iff.rfl

theorem insert_iff : t.insert r = some u ↔ t.find (key r) = none ∧ u.rows = t.rows ++ [r] := by
  cases u
  simp [insert, eq_comm]

theorem mem_insert (h : t.insert r = some u) : s ∈ u ↔ s ∈ t ∨ s = r := by
  rw [mem_iff, (insert_iff.mp h).2, mem_append, mem_singleton]
  exact Iff.rfl

theorem find_insert (h : t.insert r = some u) :
    u.find k = if key r = k then some r else t.find k := by
  obtain ⟨new, rows⟩ := insert_iff.mp h
  unfold find at new ⊢
  rw [rows, find?_append]
  split
  next same =>
    subst same
    rw [new]
    simp
  next differ =>
    simp [differ]

theorem mem_insertAll {new : List α} (h : t.insertAll new = some u) : s ∈ u ↔ s ∈ t ∨ s ∈ new := by
  induction new generalizing t with
  | nil =>
    cases h
    simp
  | cons r rest ih =>
    obtain ⟨v, first, later⟩ := Option.bind_eq_some_iff.mp h
    rw [ih later, mem_insert first, mem_cons, or_assoc]

omit [DecidableEq κ] in
theorem mem_update : s ∈ t.update p f ↔ ∃ r ∈ t, (if p r then f.row r else r) = s := mem_map

theorem find_update :
    (t.update p f).find k = (t.find k).map fun r => if p r then f.row r else r := by
  unfold find update
  rw [find?_map]
  congr 2
  funext r
  rw [Function.comp_apply]
  split
  · rw [f.keeps]
  · rfl

theorem mem_modify : s ∈ t.modify k f ↔ ∃ r ∈ t, (if key r = k then f.row r else r) = s := by
  simp [modify, mem_update]

theorem find_modify {j : κ} :
    (t.modify k f).find j = if j = k then (t.find j).map f.row else t.find j := by
  unfold modify
  rw [find_update]
  cases found : t.find j with
  | none => simp
  | some r =>
    obtain ⟨-, rfl⟩ := find_iff.mp found
    simp only [Option.map_some, decide_eq_true_eq]
    split <;> rfl

omit [DecidableEq κ] in
theorem mem_remove : r ∈ t.remove p ↔ r ∈ t ∧ p r = false := by
  rw [mem_iff, remove, mem_filter]
  simp [mem_iff]

end Table

end KnowledgePlatform
