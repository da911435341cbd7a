import KnowledgePlatform.Lib.Keyed

/-! Finite maps with their entries in key order. Two maps with equal lookups are equal. -/

namespace KnowledgePlatform

open List

/-- Entries in strictly increasing order of their keys. -/
structure OrderedMap (κ ν : Type) [LinearOrder κ] where
  entries : List (κ × ν)
  ordered : Keyed.Ordered Prod.fst entries

namespace OrderedMap

variable {κ ν μ : Type} [LinearOrder κ] {m n : OrderedMap κ ν} {j k : κ} {v : ν}

def empty : OrderedMap κ ν := ⟨[], .nil⟩

/-- The value of a key. -/
def get (m : OrderedMap κ ν) (k : κ) : Option ν := (Keyed.find Prod.fst k m.entries).map Prod.snd

def contains (m : OrderedMap κ ν) (k : κ) : Bool := (m.get k).isSome

theorem contains_eq_false : m.contains k = false ↔ m.get k = none := by
  rw [contains, Option.isSome_eq_false_iff, Option.isNone_iff_eq_none]

/-- The map with `k` at `v`, whatever it was before. -/
def insert (m : OrderedMap κ ν) (k : κ) (v : ν) : OrderedMap κ ν :=
  ⟨Keyed.insert Prod.fst (k, v) m.entries, m.ordered.insert _⟩

/-- The entries that satisfy `p`. -/
def filter (m : OrderedMap κ ν) (p : κ → ν → Bool) : OrderedMap κ ν :=
  ⟨m.entries.filter fun e => p e.1 e.2, m.ordered.sublist List.filter_sublist⟩

/-- The map without the key. -/
def erase (m : OrderedMap κ ν) (k : κ) : OrderedMap κ ν := m.filter fun j _ => decide (j ≠ k)

/-- The values changed, each with its key. -/
def map (f : κ → ν → μ) (m : OrderedMap κ ν) : OrderedMap κ μ :=
  ⟨m.entries.map fun e => (e.1, f e.1 e.2), by
    rw [Keyed.Ordered, List.pairwise_map]
    exact m.ordered⟩

def keys (m : OrderedMap κ ν) : List κ := m.entries.map Prod.fst

def values (m : OrderedMap κ ν) : List ν := m.entries.map Prod.snd

def size (m : OrderedMap κ ν) : Nat := m.entries.length

def isEmpty (m : OrderedMap κ ν) : Bool := m.entries.isEmpty

/-! ## Lookups -/

theorem mem_entries : (k, v) ∈ m.entries ↔ m.get k = some v := m.ordered.mem_pair

theorem ext_get (same : ∀ k, m.get k = n.get k) : m = n := by
  have entries : m.entries = n.entries := by
    apply m.ordered.ext n.ordered
    rintro ⟨k, v⟩
    rw [mem_entries, mem_entries, same]
  cases m
  cases n
  cases entries
  rfl

@[simp] theorem get_insert : (m.insert k v).get j = if j = k then some v else m.get j := by
  rw [get, insert, m.ordered.find_insert]
  by_cases same : j = k
  · simp [same]
  · rw [if_neg (Ne.symm same), if_neg same]
    rfl

theorem insert_eq_self : m.insert k v = m ↔ m.get k = some v := by
  constructor
  · intro same
    rw [← same, get_insert, if_pos rfl]
  · intro there
    apply ext_get
    intro j
    rw [get_insert]
    split
    next same =>
      rw [same, there]
    · rfl

@[simp] theorem get_filter {p : κ → ν → Bool} : (m.filter p).get k = (m.get k).filter (p k) := by
  apply Option.ext
  intro v
  rw [Option.filter_eq_some_iff, ← mem_entries, ← mem_entries, filter, mem_filter]

@[simp] theorem get_erase : (m.erase k).get j = if j = k then none else m.get j := by
  rw [erase, get_filter]
  by_cases same : j = k
  · simp [same]
  · simp only [same, not_false_eq_true, ne_eq, decide_true, if_false]
    cases m.get j <;> rfl

@[simp] theorem get_map {f : κ → ν → μ} : (m.map f).get k = (m.get k).map (f k) := by
  apply Option.ext
  intro w
  rw [Option.map_eq_some_iff, ← mem_entries, map, mem_map]
  simp [← mem_entries]

theorem keys_nodup (m : OrderedMap κ ν) : m.keys.Nodup := m.ordered.distinct

theorem mem_values : v ∈ m.values ↔ ∃ k, m.get k = some v := by
  simp [values, mem_entries]

theorem isEmpty_iff : m.isEmpty = true ↔ ∀ k, m.get k = none := by
  rw [isEmpty, List.isEmpty_iff]
  constructor
  · intro none k
    rw [get, none]
    rfl
  · intro all
    apply eq_nil_iff_forall_not_mem.mpr
    rintro ⟨k, v⟩ there
    rw [mem_entries, all] at there
    cases there

end OrderedMap

/-! ## Changing values, which may fail -/

section

variable {κ ν μ ε : Type}

/-- The values changed, up to the first failure. -/
def mapValuesM (f : ν → Except ε μ) (entries : List (κ × ν)) : Except ε (List (κ × μ)) :=
  entries.mapM fun e => do
    let value ← f e.2
    return (e.1, value)

variable {f : ν → Except ε μ} {entries : List (κ × ν)} {changed : List (κ × μ)}

theorem mapValuesM_ok (h : mapValuesM f entries = .ok changed) :
    Forall₂ (fun e e' => e.1 = e'.1 ∧ f e.2 = .ok e'.2) entries changed := by
  refine (forall₂_of_mapM h).imp ?_
  intro e e' done
  obtain ⟨value, made, done⟩ := except_bind_ok done
  cases done
  exact ⟨rfl, made⟩

theorem mapValuesM_keys (h : mapValuesM f entries = .ok changed) :
    changed.map Prod.fst = entries.map Prod.fst :=
  (map_eq_of_forall₂ (mapValuesM_ok h) fun _ _ _ done => done.1).symm

theorem mapValuesM_ordered [LinearOrder κ] (h : mapValuesM f entries = .ok changed)
    (ordered : Keyed.Ordered Prod.fst entries) : Keyed.Ordered Prod.fst changed := by
  have keys : ∀ {β : Type} {l : List (κ × β)},
      Keyed.Ordered Prod.fst l ↔ (l.map Prod.fst).Pairwise (· < ·) := by
    intro β l
    rw [Keyed.Ordered, pairwise_map]
  rw [keys, mapValuesM_keys h, ← keys]
  exact ordered

theorem mapValuesM_fixed {f : ν → Except ε ν} (each : ∀ e ∈ entries, f e.2 = .ok e.2) :
    mapValuesM f entries = .ok entries := by
  refine mapM_iff_map.mpr (map_congr_left fun e he => ?_)
  rw [each e he]
  rfl

/-- A change that does nothing the second time does nothing to the changed values. -/
theorem mapValuesM_again {f : ν → Except ε ν} {changed : List (κ × ν)}
    (again : ∀ v w, f v = .ok w → f w = .ok w) (h : mapValuesM f entries = .ok changed) :
    mapValuesM f changed = .ok changed := by
  apply mapValuesM_fixed
  intro e he
  obtain ⟨_, -, -, done⟩ := exists_right (mapValuesM_ok h).flip he
  exact again _ _ done

/-- A map whose values are all changed, or the first failure. -/
def OrderedMap.mapM [LinearOrder κ] (f : ν → Except ε μ) (m : OrderedMap κ ν) :
    Except ε (OrderedMap κ μ) :=
  match h : mapValuesM f m.entries with
  | .ok entries => .ok ⟨entries, mapValuesM_ordered h m.ordered⟩
  | .error e => .error e

theorem OrderedMap.mapM_again [LinearOrder κ] {f : ν → Except ε ν} {m n : OrderedMap κ ν}
    (again : ∀ v w, f v = .ok w → f w = .ok w) (h : m.mapM f = .ok n) : n.mapM f = .ok n := by
  unfold mapM at h
  split at h
  next entries changed =>
    cases h
    have same := mapValuesM_again again changed
    unfold mapM
    split
    next entries' changed' =>
      cases same.symm.trans changed'
      rfl
    next failed =>
      cases same.symm.trans failed
  · cases h

end

/-! ## Sets -/

/-- Items in strictly increasing order. -/
structure OrderedSet (κ : Type) [LinearOrder κ] where
  items : List κ
  ordered : Keyed.Ordered id items

namespace OrderedSet

variable {κ : Type} [LinearOrder κ] {s : OrderedSet κ} {x y : κ}

instance : Membership κ (OrderedSet κ) := ⟨fun s x => x ∈ s.items⟩

instance (s : OrderedSet κ) (x : κ) : Decidable (x ∈ s) := inferInstanceAs (Decidable (x ∈ s.items))

instance : DecidableEq (OrderedSet κ) := fun s t =>
  decidable_of_iff (s.items = t.items)
    ⟨fun same => by cases s; cases t; cases same; rfl, fun same => congrArg items same⟩

def empty : OrderedSet κ := ⟨[], .nil⟩

def ofList (l : List κ) : OrderedSet κ := ⟨Keyed.ofList id l, .ofList l⟩

def insert (s : OrderedSet κ) (x : κ) : OrderedSet κ :=
  ⟨Keyed.insert id x s.items, s.ordered.insert x⟩

@[simp] theorem not_mem_empty : x ∉ (empty : OrderedSet κ) := not_mem_nil

@[simp] theorem mem_insert : y ∈ s.insert x ↔ y = x ∨ y ∈ s := by
  have inserted : y ∈ s.insert x ↔ y = x ∨ y ∈ s ∧ y ≠ x := s.ordered.mem_insert
  rw [inserted]
  by_cases same : y = x
  · simp [same]
  · simp [same]

end OrderedSet

end KnowledgePlatform
