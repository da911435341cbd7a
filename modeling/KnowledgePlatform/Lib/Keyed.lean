import KnowledgePlatform.Lib.Bytes
import KnowledgePlatform.Lib.Matching
import Mathlib.Data.List.Lex
import Mathlib.Data.List.Sort
import Mathlib.Data.UInt

/-! Ordered maps and sets as lists in key order. An element carries its key; a list in strictly
increasing key order is determined by its elements. -/

namespace KnowledgePlatform

open List

instance byteOrder : LinearOrder UInt8 where
  le_refl _ := UInt8.le_refl _
  le_trans _ _ _ := UInt8.le_trans
  le_antisymm _ _ := UInt8.le_antisymm
  le_total := UInt8.le_total
  lt_iff_le_not_ge a b := by
    rw [UInt8.lt_iff_toNat_lt, UInt8.le_iff_toNat_le, UInt8.le_iff_toNat_le]
    omega
  toDecidableLE := inferInstance
  toDecidableLT := inferInstance
  toDecidableEq := inferInstance

/-- Unsigned comparison of the sixteen bytes. -/
instance : LinearOrder Uuid where
  le a b := a.bytes ≤ b.bytes
  lt a b := a.bytes < b.bytes
  le_refl a := le_refl a.bytes
  le_trans _ _ _ := le_trans (α := Bytes)
  le_antisymm _ _ first second := Uuid.ext_bytes (le_antisymm first second)
  le_total a b := le_total a.bytes b.bytes
  lt_iff_le_not_ge a b := lt_iff_le_not_ge (a := a.bytes) (b := b.bytes)
  toDecidableLE a b := inferInstanceAs (Decidable (a.bytes ≤ b.bytes))
  toDecidableLT a b := inferInstanceAs (Decidable (a.bytes < b.bytes))
  toDecidableEq := inferInstance

namespace Keyed

variable {α κ : Type*} [LinearOrder κ] (key : α → κ)

/-- Puts `a` at the place of its key, where it replaces an element of the same key. -/
def insert (a : α) : List α → List α
  | [] => [a]
  | b :: rest =>
    if key a < key b then a :: b :: rest
    else if key a = key b then a :: rest
    else b :: insert a rest

/-- The map of a sequence of insertions. -/
def ofList (l : List α) : List α := l.foldl (fun m a => insert key a m) []

/-- The element of a key. -/
def find (k : κ) (l : List α) : Option α := l.find? fun a => decide (key a = k)

/-- The keys strictly increase. -/
def Ordered (l : List α) : Prop := l.Pairwise fun a b => key a < key b

variable {key} {a b : α} {l m : List α} {k : κ}

theorem Ordered.nil : Ordered key ([] : List α) := Pairwise.nil

theorem Ordered.mem_insert (h : Ordered key l) :
    b ∈ insert key a l ↔ b = a ∨ (b ∈ l ∧ key b ≠ key a) := by
  induction l with
  | nil => simp [Keyed.insert]
  | cons c rest ih =>
    obtain ⟨above, sorted⟩ := pairwise_cons.mp h
    rw [Keyed.insert]
    split
    next less =>
      have differ (hb : b ∈ c :: rest) : key b ≠ key a := by
        obtain rfl | hb := mem_cons.mp hb
        · exact less.ne'
        · exact (less.trans (above b hb)).ne'
      rw [mem_cons, and_iff_left_of_imp differ]
    · split
      next same =>
        have differ (hb : b ∈ rest) : key b ≠ key a := same ▸ (above b hb).ne'
        rw [mem_cons, mem_cons]
        grind
      · rw [mem_cons, mem_cons, ih sorted]
        grind

theorem Ordered.insert (h : Ordered key l) (a : α) : Ordered key (insert key a l) := by
  induction l with
  | nil => exact pairwise_singleton _ _
  | cons c rest ih =>
    obtain ⟨above, sorted⟩ := pairwise_cons.mp h
    rw [Keyed.insert]
    by_cases less : key a < key c
    · rw [if_pos less]
      exact pairwise_cons.mpr ⟨forall_mem_cons.mpr ⟨less, fun b hb => less.trans (above b hb)⟩, h⟩
    · rw [if_neg less]
      by_cases same : key a = key c
      · rw [if_pos same]
        exact pairwise_cons.mpr ⟨same ▸ above, sorted⟩
      · rw [if_neg same]
        refine pairwise_cons.mpr ⟨?_, ih sorted⟩
        intro b hb
        obtain rfl | ⟨hb, -⟩ := (Ordered.mem_insert sorted).mp hb
        · exact lt_of_le_of_ne (not_lt.mp less) (Ne.symm same)
        · exact above b hb

theorem Ordered.ofList (l : List α) : Ordered key (ofList key l) := by
  unfold Keyed.ofList
  exact foldlRecOn l _ .nil fun _ hm a _ => hm.insert a

theorem Ordered.distinct (h : Ordered key l) : (l.map key).Nodup :=
  pairwise_map.mpr (h.imp fun less => less.ne)

theorem Ordered.nodup (h : Ordered key l) : l.Nodup := .of_map _ h.distinct

/-- Elements of one key are one element. -/
theorem Ordered.eq_of_key (h : Ordered key l) (ha : a ∈ l) (hb : b ∈ l) (same : key a = key b) :
    a = b := inj_on_of_nodup_map h.distinct ha hb same

/-- Two maps of the same elements are the same list. -/
theorem Ordered.ext (hl : Ordered key l) (hm : Ordered key m) (same : ∀ a, a ∈ l ↔ a ∈ m) :
    l = m := by
  have perm : l.Perm m := (perm_ext_iff_of_nodup hl.nodup hm.nodup).mpr same
  exact perm.eq_of_pairwise (fun a b _ _ first second => absurd first second.asymm) hl hm

theorem Ordered.find_iff (h : Ordered key l) : find key k l = some a ↔ a ∈ l ∧ key a = k :=
  find?_key_iff h.distinct

theorem Ordered.foldl_insert {before : List α} (h : Ordered key (before ++ l)) :
    l.foldl (fun m a => Keyed.insert key a m) before = before ++ l := by
  induction l generalizing before with
  | nil => exact (append_nil before).symm
  | cons a l ih =>
    have first : Ordered key before := (pairwise_append.mp h).1
    have less : ∀ b ∈ before, key b < key a := fun b hb =>
      (pairwise_append.mp h).2.2 b hb a mem_cons_self
    rw [append_cons] at h
    have last : Keyed.insert key a before = before ++ [a] := by
      apply (first.insert a).ext (pairwise_append.mp h).1
      intro b
      rw [first.mem_insert, mem_append, mem_singleton]
      have differ (hb : b ∈ before) : key b ≠ key a := (less b hb).ne
      tauto
    rw [foldl_cons, last, ih h, ← append_cons]

/-- Inserting an ordered list's elements one after the other gives it back. -/
theorem Ordered.ofList_eq (h : Ordered key l) : Keyed.ofList key l = l := by
  have h : Ordered key ([] ++ l) := h
  exact h.foldl_insert

/-- Inserting replaces what has the key. -/
theorem Ordered.insert_replaces (h : Ordered key l) :
    (Keyed.insert key a l).Perm (a :: l.filter fun b => key b ≠ key a) := by
  have fresh : a ∉ l.filter fun b => key b ≠ key a := by simp
  apply (perm_ext_iff_of_nodup (h.insert a).nodup
    (nodup_cons.mpr ⟨fresh, h.nodup.filter _⟩)).mpr
  intro b
  rw [h.mem_insert, mem_cons, mem_filter]
  simp

theorem filter_absent (none : find key k l = none) : (l.filter fun b => key b ≠ k) = l :=
  filter_eq_self.mpr (by simpa [find] using none)

section

variable (h : Ordered key l)
include h

/-- A new key adds an element and replaces none. -/
theorem Ordered.insert_perm (new : find key (key a) l = none) :
    (Keyed.insert key a l).Perm (a :: l) := by
  have replaced := h.insert_replaces (a := a)
  rwa [filter_absent new] at replaced

/-- What has the key, and the rest. -/
theorem Ordered.find_perm (k : κ) :
    l.Perm ((find key k l).toList ++ l.filter fun b => key b ≠ k) := by
  cases found : find key k l with
  | none => rw [filter_absent found, Option.toList_none, nil_append]
  | some b =>
    obtain ⟨hb, same⟩ := h.find_iff.mp found
    apply (perm_ext_iff_of_nodup h.nodup
      (nodup_cons.mpr ⟨by simp [same], h.nodup.filter _⟩)).mpr
    intro c
    have one (hc : c ∈ l) (here : key c = k) : c = b := h.eq_of_key hc hb (here.trans same.symm)
    rw [mem_cons, mem_filter, decide_eq_true_eq]
    grind

theorem Ordered.find_insert :
    find key k (Keyed.insert key a l) = if key a = k then some a else find key k l := by
  split
  next same =>
    exact (h.insert a).find_iff.mpr ⟨h.mem_insert.mpr (.inl rfl), same⟩
  next differ =>
    apply Option.ext
    intro b
    rw [(h.insert a).find_iff, h.find_iff, h.mem_insert]
    grind

theorem Ordered.find_insert_none :
    find key k (Keyed.insert key a l) = none ↔ key a ≠ k ∧ find key k l = none := by
  rw [h.find_insert]
  split <;> simp [*]

end

/-! ### Maps -/

section

variable {β γ : Type*} {m : List (κ × β)}

theorem Ordered.mem_pair (h : Ordered Prod.fst m) {v : β} :
    (k, v) ∈ m ↔ (find Prod.fst k m).map Prod.snd = some v := by
  rw [Option.map_eq_some_iff]
  constructor
  · intro there
    exact ⟨(k, v), h.find_iff.mpr ⟨there, rfl⟩, rfl⟩
  · rintro ⟨⟨j, w⟩, found, rfl⟩
    obtain ⟨there, rfl⟩ := h.find_iff.mp found
    exact there

/-- Changes the value of a key; a missing one is `none` to `f`. -/
def upsert (k : κ) (f : Option β → β) (m : List (κ × β)) : List (κ × β) :=
  Keyed.insert Prod.fst (k, f ((find Prod.fst k m).map Prod.snd)) m

theorem Ordered.upsert (h : Ordered Prod.fst m) (k : κ) (f : Option β → β) :
    Ordered Prod.fst (Keyed.upsert k f m) := h.insert _

/-- What the values hold changes at the key only. -/
theorem Ordered.flatMap_upsert (h : Ordered Prod.fst m) {f : Option β → β} {hold : β → List γ}
    {more : List γ} (grows : ∀ x, (hold (f x)).Perm (more ++ x.toList.flatMap hold)) :
    ((Keyed.upsert k f m).flatMap fun e => hold e.2).Perm
      (more ++ m.flatMap fun e => hold e.2) := by
  have changed := (h.insert_replaces (a := (k, f ((find Prod.fst k m).map Prod.snd)))).flatMap_right
    fun e => hold e.2
  have before := (h.find_perm k).flatMap_right fun e => hold e.2
  apply changed.trans
  rw [flatMap_cons]
  apply ((grows _).append_right _).trans
  rw [append_assoc]
  apply Perm.append_left
  refine Perm.trans ?_ before.symm
  rw [flatMap_append]
  apply Perm.append_right
  cases find Prod.fst k m <;> simp

theorem lookup_eq (m : List (κ × β)) (k : κ) :
    m.lookup k = (find Prod.fst k m).map Prod.snd := by
  have found : (m.map fun e => (e.1, e.2)).lookup k = _ := lookup_map
  rwa [map_id'] at found

theorem Ordered.lookup_upsert (h : Ordered Prod.fst m) (k k' : κ) (f : Option β → β) :
    (Keyed.upsert k f m).lookup k' = if k' = k then some (f (m.lookup k)) else m.lookup k' := by
  rw [Keyed.upsert, lookup_eq, h.find_insert, lookup_eq m k, lookup_eq m k']
  by_cases same : k' = k
  · simp [same]
  · rw [if_neg (Ne.symm same), if_neg same]

theorem Ordered.mem_iff_lookup (h : Ordered Prod.fst m) {v : β} :
    (k, v) ∈ m ↔ m.lookup k = some v := by
  rw [lookup_eq]
  exact h.mem_pair

end

section

variable {s t : List κ} {x : κ}

theorem mem_ofList_id : x ∈ ofList id s ↔ x ∈ s := by
  have general (m : List κ) (hm : Ordered id m) :
      x ∈ s.foldl (fun m a => Keyed.insert id a m) m ↔ x ∈ m ∨ x ∈ s := by
    induction s generalizing m with
    | nil => simp
    | cons a s ih =>
      rw [foldl_cons, ih _ (hm.insert a), hm.mem_insert, mem_cons]
      by_cases same : x = a
      · simp [same]
      · simp [same]
  simpa [ofList] using general [] .nil

/-- A set does not depend on the order it is collected in. -/
theorem ofList_id_congr (same : ∀ x, x ∈ s ↔ x ∈ t) : ofList id s = ofList id t := by
  apply Ordered.ext (Ordered.ofList s) (Ordered.ofList t)
  intro x
  rw [mem_ofList_id, mem_ofList_id]
  exact same x

/-- A set as large as the list it is collected from has the elements of the list, once each. -/
theorem ofList_id_perm (size : (ofList id s).length = s.length) : s.Perm (ofList id s) := by
  have nodup : (ofList id s).Nodup := (Ordered.ofList s).nodup
  have inside : ofList id s ⊆ s := fun x hx => mem_ofList_id.mp hx
  exact ((subperm_of_subset nodup inside).perm_of_length_le size.ge).symm

end

/-! ### Inserting without repetitions -/

section

variable {ε α κ : Type} [LinearOrder κ] {key : α → κ} {e : ε} {l m : List α}

/-- Inserts under a new key, or refuses. -/
def insertUnique (key : α → κ) (e : ε) (m : List α) (a : α) : Except ε (List α) := do
  ensure (find key (key a) m = none) e
  return Keyed.insert key a m

theorem Ordered.foldlM_unique_iff {start : List α} (h : Ordered key start) :
    l.foldlM (insertUnique key e) start = .ok m ↔
      (l.map key).Nodup ∧ (∀ a ∈ l, find key (key a) start = none) ∧
        m = l.foldl (fun m a => Keyed.insert key a m) start := by
  induction l generalizing start with
  | nil => simp [pure, Except.pure, eq_comm]
  | cons a l ih =>
    rw [foldlM_cons, map_cons, nodup_cons, forall_mem_cons, foldl_cons]
    constructor
    · intro run
      obtain ⟨next, first, rest⟩ := except_bind_ok run
      obtain ⟨new, first⟩ := ensure_bind_iff.mp first
      cases first
      obtain ⟨distinct, absent, rfl⟩ := (ih (h.insert a)).mp rest
      simp only [h.find_insert_none] at absent
      refine ⟨⟨?_, distinct⟩, ⟨new, fun b hb => (absent b hb).2⟩, rfl⟩
      intro again
      obtain ⟨b, hb, same⟩ := mem_map.mp again
      exact (absent b hb).1 same.symm
    · rintro ⟨⟨fresh, distinct⟩, ⟨new, absent⟩, rfl⟩
      apply except_bind_iff.mpr
      refine ⟨_, ensure_bind_iff.mpr ⟨new, rfl⟩, (ih (h.insert a)).mpr ⟨distinct, ?_, rfl⟩⟩
      intro b hb
      exact h.find_insert_none.mpr ⟨fun same => fresh (same ▸ mem_map_of_mem hb), absent b hb⟩

theorem foldlM_unique_nil_iff :
    l.foldlM (insertUnique key e) [] = .ok m ↔ (l.map key).Nodup ∧ m = Keyed.ofList key l := by
  rw [Ordered.nil.foldlM_unique_iff]
  simp [find, Keyed.ofList]

theorem ofList_perm (distinct : (l.map key).Nodup) : (Keyed.ofList key l).Perm l := by
  have general {start : List α} (h : Ordered key start)
      (new : ∀ a ∈ l, find key (key a) start = none) :
      (l.foldl (fun m a => Keyed.insert key a m) start).Perm (l ++ start) := by
    induction l generalizing start with
    | nil => exact .refl _
    | cons a l ih =>
      obtain ⟨fresh, distinct⟩ := nodup_cons.mp distinct
      obtain ⟨newA, new⟩ := forall_mem_cons.mp new
      have still : ∀ b ∈ l, find key (key b) (Keyed.insert key a start) = none := fun b hb =>
        h.find_insert_none.mpr ⟨fun same => fresh (same ▸ mem_map_of_mem hb), new b hb⟩
      rw [foldl_cons, cons_append]
      apply (ih distinct (h.insert a) still).trans
      exact ((h.insert_perm newA).append_left l).trans perm_middle
  simpa [Keyed.ofList] using general .nil (by simp [find])

end

end Keyed

end KnowledgePlatform

/-! ## Sorting by a key that is computed and may fail -/

namespace KnowledgePlatform

open List

variable {α κ ε : Type} {encode : α → Except ε κ} {xs ys : List α}

/-- An element next to its key. -/
def withKey (encode : α → Except ε κ) (x : α) : Except ε (κ × α) := do
  let key ← encode x
  return (key, x)

theorem mapM_withKey_of {keyed : List (κ × α)} (each : ∀ p ∈ keyed, encode p.2 = .ok p.1) :
    (keyed.map Prod.snd).mapM (withKey encode) = .ok keyed := by
  rw [mapM_iff_map, map_map]
  refine map_congr_left fun p hp => ?_
  rw [Function.comp_apply, withKey, each p hp]
  rfl

theorem mapM_withKey {keyed : List (κ × α)} (h : xs.mapM (withKey encode) = .ok keyed) :
    keyed.map Prod.snd = xs ∧ ∀ p ∈ keyed, encode p.2 = .ok p.1 := by
  induction xs generalizing keyed with
  | nil =>
    cases h
    exact ⟨rfl, nofun⟩
  | cons x xs ih =>
    rw [mapM_cons] at h
    simp only [withKey, except_iffs] at h
    obtain ⟨p, ⟨key, encoded, rfl⟩, rest, tail, rfl⟩ := h
    obtain ⟨same, each⟩ := ih tail
    exact ⟨by rw [map_cons, same], forall_mem_cons.mpr ⟨encoded, each⟩⟩

variable [LinearOrder κ]

/-- Elements with equal keys keep their order. -/
def keySort (encode : α → Except ε κ) (xs : List α) : Except ε (List α) := do
  let keyed ← xs.mapM (withKey encode)
  return (keyed.insertionSort fun a b => a.1 ≤ b.1).map Prod.snd

/-- Sorts by a key that is at hand. -/
def sortOn (key : α → κ) (xs : List α) : List α := xs.insertionSort fun a b => key a ≤ key b

theorem sortOn_sorted (key : α → κ) (xs : List α) :
    (sortOn key xs).Pairwise fun a b => key a ≤ key b :=
  haveI : Std.Total fun a b : α => key a ≤ key b := ⟨fun a b => le_total (key a) (key b)⟩
  haveI : IsTrans α fun a b => key a ≤ key b := ⟨fun _ _ _ => le_trans⟩
  pairwise_insertionSort _ xs

@[simp] theorem sortOn_sortOn (key : α → κ) (xs : List α) :
    sortOn key (sortOn key xs) = sortOn key xs :=
  (sortOn_sorted key xs).insertionSort_eq

theorem sortOn_perm (key : α → κ) (xs : List α) : (sortOn key xs).Perm xs :=
  perm_insertionSort _ xs

section

variable (h : keySort encode xs = .ok ys)
include h

theorem keySort_ok :
    ∃ keyed, ys = (sortOn Prod.fst keyed).map Prod.snd ∧ keyed.map Prod.snd = xs ∧
      ∀ p ∈ keyed, encode p.2 = .ok p.1 := by
  simp only [keySort, except_iffs] at h
  obtain ⟨keyed, encoded, rfl⟩ := h
  obtain ⟨same, each⟩ := mapM_withKey encoded
  exact ⟨keyed, rfl, same, each⟩

theorem keySort_perm : ys.Perm xs := by
  obtain ⟨keyed, rfl, rfl, -⟩ := keySort_ok h
  exact (sortOn_perm Prod.fst keyed).map Prod.snd

theorem keySort_again : keySort encode ys = .ok ys := by
  obtain ⟨keyed, rfl, -, each⟩ := keySort_ok h
  have sorted : ∀ p ∈ sortOn Prod.fst keyed, encode p.2 = .ok p.1 := fun p hp =>
    each p ((sortOn_perm Prod.fst keyed).mem_iff.mp hp)
  have same : (sortOn Prod.fst keyed).insertionSort (fun a b => a.1 ≤ b.1) =
      sortOn Prod.fst keyed := sortOn_sortOn Prod.fst keyed
  rw [keySort, mapM_withKey_of sorted, except_ok_bind, same]
  rfl

end

end KnowledgePlatform
