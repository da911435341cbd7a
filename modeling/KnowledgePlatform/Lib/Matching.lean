import KnowledgePlatform.Lib.Except
import Mathlib.Data.List.Nodup
import Mathlib.Data.List.Perm.Basic

/-! Lists that are the same up to their order and a relation between their elements. -/

namespace KnowledgePlatform

open List

variable {α β : Type*} {R : α → α → Prop} {f : α → β} {xs ys zs : List α}

/-- The lists have related elements, in some order. -/
def Matched (R : α → α → Prop) (xs ys : List α) : Prop :=
  ∃ zs, Forall₂ R xs zs ∧ zs.Perm ys

theorem forall₂_of_map_eq (inj : ∀ x ∈ xs, ∀ y ∈ ys, f x = f y → R x y)
    (same : xs.map f = ys.map f) : Forall₂ R xs ys := by
  induction xs generalizing ys with
  | nil =>
    rw [map_eq_nil_iff.mp same.symm]
    exact .nil
  | cons x xs ih =>
    cases ys with
    | nil => cases same
    | cons y =>
      obtain ⟨first, rest⟩ := cons.inj same
      apply Forall₂.cons (inj x mem_cons_self y mem_cons_self first)
      apply ih _ rest
      intro x hx y hy
      exact inj x (.tail _ hx) y (.tail _ hy)

/-- A reordered list has the same images, reordered. -/
theorem exists_map_perm {γ : Type*} {g : γ → β} {ms : List γ} (same : xs.map f = ms.map g)
    (perm : xs.Perm ys) : ∃ ns : List γ, ys.map f = ns.map g ∧ ns.Perm ms := by
  have images := (perm.map f).symm
  rw [same] at images
  have split : Relation.Comp (· = map g ·) (Perm · ·) (ys.map f) ms := by
    rw [eq_map_comp_perm]
    exact images
  exact split

/-- Images that are the same up to order come from matched lists, if `f` tells elements apart. -/
theorem matched_of_map_perm (inj : ∀ x ∈ xs, ∀ y ∈ ys, f x = f y → R x y)
    (perm : (xs.map f).Perm (ys.map f)) : Matched R xs ys := by
  have split : Relation.Comp (· = map f ·) (Perm · ·) (xs.map f) ys := by
    rw [eq_map_comp_perm]
    exact perm
  obtain ⟨zs, same, order⟩ := split
  refine ⟨zs, forall₂_of_map_eq ?_ same, order⟩
  intro x hx z hz
  exact inj x hx z (order.mem_iff.mp hz)

theorem map_eq_of_forall₂ {γ : Type*} {S : α → γ → Prop} {g : γ → β} {l : List γ}
    (h : Forall₂ S xs l) (same : ∀ x ∈ xs, ∀ y, S x y → f x = g y) : xs.map f = l.map g := by
  induction h with
  | nil => rfl
  | cons first _ ih =>
    rw [map_cons, map_cons, same _ mem_cons_self _ first, ih fun x hx => same x (.tail _ hx)]

theorem Matched.map_perm (matched : Matched R xs ys) (congr : ∀ x ∈ xs, ∀ y, R x y → f x = f y) :
    (xs.map f).Perm (ys.map f) := by
  obtain ⟨zs, related, order⟩ := matched
  rw [map_eq_of_forall₂ related congr]
  exact order.map f

theorem matched_eq_iff : Matched Eq xs ys ↔ xs.Perm ys := by
  simp [Matched, forall₂_eq_eq_eq]

/-! ## Lists related element by element -/

section

variable {S : α → β → Prop} {l : List α} {m : List β}

theorem foldlM_forall₂ {M : Type → Type} [Monad M] {δ : Type} {f : δ → α → M δ} {g : δ → β → M δ}
    (agree : ∀ d x y, S x y → f d x = g d y) (h : Forall₂ S l m) (d : δ) :
    l.foldlM f d = m.foldlM g d := by
  induction h generalizing d with
  | nil => rfl
  | cons first _ ih =>
    rw [foldlM_cons, foldlM_cons, agree d _ _ first]
    exact bind_congr fun d => ih d

theorem exists_right (h : Forall₂ S l m) {x : α} (hx : x ∈ l) : ∃ y ∈ m, S x y := by
  induction h with
  | nil => cases hx
  | cons first _ ih =>
    obtain rfl | hx := mem_cons.mp hx
    · exact ⟨_, .head _, first⟩
    · obtain ⟨y, hy, related⟩ := ih hx
      exact ⟨y, .tail _ hy, related⟩

/-- Lists with images that two relations relate place by place are themselves related. -/
theorem forall₂_through {γ : Type*} {T : γ → β → Prop} {D E : β → β → Prop} {Q : α → γ → Prop}
    {k : List γ} {n : List β} (left : Forall₂ S l m) (right : Forall₂ T k n)
    (first : Forall₂ D m n) (second : Forall₂ E m n)
    (through : ∀ x ∈ l, ∀ w ∈ k, ∀ y z, S x y → T w z → D y z → E y z → Q x w) :
    Forall₂ Q l k := by
  induction left generalizing k n with
  | nil =>
    cases first
    cases right
    exact .nil
  | cons hx _ ih =>
    cases first with
    | cons hd restD =>
      cases second with
      | cons he restE =>
        cases right with
        | cons hw rest =>
          refine .cons (through _ mem_cons_self _ mem_cons_self _ _ hx hw hd he) ?_
          apply ih rest restD restE
          intro x hx w hw
          exact through x (.tail _ hx) w (.tail _ hw)

end

theorem flatMap_eq_filter {l : List α} {f : α → List α} {p : α → Bool}
    (each : ∀ x ∈ l, f x = if p x then [x] else []) : l.flatMap f = l.filter p := by
  induction l with
  | nil => rfl
  | cons x l ih =>
    obtain ⟨first, rest⟩ := forall_mem_cons.mp each
    rw [flatMap_cons, filter_cons, first, ih rest]
    split <;> rfl

theorem forall₂_comp {γ : Type*} {R : α → β → Prop} {S : β → γ → Prop} {l : List α} {m : List γ} :
    Forall₂ (fun x z => ∃ y, R x y ∧ S y z) l m ↔ ∃ k, Forall₂ R l k ∧ Forall₂ S k m := by
  constructor
  · intro h
    induction h with
    | nil => exact ⟨[], .nil, .nil⟩
    | cons first _ ih =>
      obtain ⟨y, left, right⟩ := first
      obtain ⟨k, lefts, rights⟩ := ih
      exact ⟨y :: k, .cons left lefts, .cons right rights⟩
  · rintro ⟨k, left, right⟩
    induction left generalizing m with
    | nil =>
      cases right
      exact .nil
    | cons first _ ih =>
      cases right with
      | cons second rest => exact .cons ⟨_, first, second⟩ (ih rest)

theorem forall₂_congr_mem {R S : α → β → Prop} {l : List α} {m : List β}
    (same : ∀ x ∈ l, ∀ y, R x y ↔ S x y) : Forall₂ R l m ↔ Forall₂ S l m := by
  induction l generalizing m with
  | nil => simp only [forall₂_nil_left_iff]
  | cons x l ih =>
    obtain ⟨first, rest⟩ := forall_mem_cons.mp same
    simp only [forall₂_cons_left_iff, first, ih rest]

section

variable {ε β γ δ : Type} {f : β → Except ε γ} {l : List β} {r : List γ}

/-- The results of a visit that succeeds everywhere, element by element. -/
theorem mapM_iff_forall₂ : l.mapM f = .ok r ↔ Forall₂ (fun x y => f x = .ok y) l r := by
  rw [mapM_iff_map, ← forall₂_eq_eq_eq, forall₂_map_left_iff, forall₂_map_right_iff]

theorem forall₂_of_mapM (h : l.mapM f = .ok r) :
    Forall₂ (fun x y => f x = .ok y) l r := mapM_iff_forall₂.mp h

/-- A visit of results that gives back what they are results of. -/
theorem mapM_of_forall₂ {R : β → γ → Prop} {f : γ → Except ε δ} {k : β → δ} (h : Forall₂ R l r)
    (back : ∀ x ∈ l, ∀ y, R x y → f y = .ok (k x)) : r.mapM f = .ok (l.map k) := by
  induction h with
  | nil => rfl
  | cons first _ ih =>
    obtain ⟨head, tail⟩ := forall_mem_cons.mp back
    rw [mapM_cons, head _ first, ih tail]
    rfl

/-- Visits that can be read back one by one can be read back together. -/
theorem mapM_through {h : γ → Except ε δ} {k : β → δ}
    (each : ∀ x ∈ l, ∃ y, f x = .ok y ∧ h y = .ok (k x)) :
    ∃ ys, l.mapM f = .ok ys ∧ ys.mapM h = .ok (l.map k) := by
  obtain ⟨ys, done, read⟩ := mapM_total each
  exact ⟨ys, done, mapM_of_forall₂ read fun _ _ _ back => back⟩

/-- Where visits do not change their results, a traversal leaves them as they are in any order. -/
theorem mapM_settled {f : β → Except ε β} {m n : List β}
    (again : ∀ x ∈ l, ∀ y, f x = .ok y → f y = .ok y) (h : l.mapM f = .ok m) (perm : n.Perm m) :
    n.mapM f = .ok n := by
  refine mapM_iff_map.mpr (map_congr_left fun y there => ?_)
  obtain ⟨x, hx, done⟩ := (mem_mapM h).mp (perm.mem_iff.mp there)
  exact again x hx y done

end

/-! ## At most one element -/

section

variable {p : α → Bool} {l : List α}

theorem length_filter_le_one (distinct : l.Nodup)
    (one : ∀ a ∈ l, ∀ b ∈ l, p a = true → p b = true → a = b) : (l.filter p).length ≤ 1 := by
  rcases shape : l.filter p with _ | ⟨a, _ | ⟨b, rest⟩⟩
  · simp
  · simp
  · have nodup := shape ▸ distinct.filter p
    obtain ⟨ha, pa⟩ := mem_filter.mp (shape ▸ mem_cons_self : a ∈ l.filter p)
    obtain ⟨hb, pb⟩ := mem_filter.mp (shape ▸ .tail _ mem_cons_self : b ∈ l.filter p)
    simp [one a ha b hb pa pb] at nodup

/-- No two elements are counted by a count of at most one. -/
theorem eq_of_countP_le_one (few : l.countP p ≤ 1) {a b : α} (ha : a ∈ l) (hb : b ∈ l)
    (pa : p a = true) (pb : p b = true) : a = b := by
  rw [countP_eq_length_filter] at few
  have ha' : a ∈ l.filter p := mem_filter.mpr ⟨ha, pa⟩
  have hb' : b ∈ l.filter p := mem_filter.mpr ⟨hb, pb⟩
  rcases shape : l.filter p with _ | ⟨c, _ | ⟨d, rest⟩⟩
  · simp [shape] at ha'
  · rw [shape, mem_singleton] at ha' hb'
    rw [ha', hb']
  · simp [shape] at few

/-- Where all that fit are one, it is found. -/
theorem find?_one_iff (one : ∀ x ∈ l, ∀ y ∈ l, p x = true → p y = true → x = y)
    {x : α} : l.find? p = some x ↔ x ∈ l ∧ p x = true := by
  constructor
  · intro found
    exact ⟨mem_of_find?_eq_some found, find?_some found⟩
  · rintro ⟨hx, fits⟩
    obtain ⟨y, found⟩ := Option.isSome_iff_exists.mp (find?_isSome.mpr ⟨x, hx, fits⟩)
    rw [found, one y (mem_of_find?_eq_some found) x hx (find?_some found) fits]

/-- A key not there yet can be added. -/
theorem nodup_map_concat {key : α → β} {a : α} (distinct : (l.map key).Nodup)
    (fresh : ∀ x ∈ l, key x ≠ key a) :
    ((l ++ [a]).map key).Nodup := by
  rw [map_append, map_singleton]
  refine nodup_append.mpr ⟨distinct, nodup_singleton _, ?_⟩
  simpa using fresh

end

/-! ## Finding by a key -/

section

variable {κ : Type*} [DecidableEq κ] {key : α → κ} {value : α → β} {l : List α} {k : κ}

theorem lookup_map : (l.map fun x => (key x, value x)).lookup k =
    (l.find? fun x => decide (key x = k)).map value := by
  induction l with
  | nil => rfl
  | cons x l ih =>
    rw [map_cons, lookup_cons, find?_cons]
    by_cases same : key x = k
    · simp [same]
    · rw [beq_false_of_ne (Ne.symm same), ih]
      simp [same]

/-- Looking up in what was selected by key. -/
theorem lookup_map_filter {keys : List κ} :
    ((l.filter fun x => key x ∈ keys).map fun x => (key x, value x)).lookup k =
      if k ∈ keys then (l.find? fun x => decide (key x = k)).map value else none := by
  rw [lookup_map, find?_filter]
  split
  next inside =>
    congr 2
    funext x
    by_cases same : key x = k
    · simp [same, inside]
    · simp [same]
  next outside =>
    rw [Option.map_eq_none_iff, find?_eq_none]
    intro x _ both
    simp only [decide_eq_true_eq] at both
    exact outside (both.2 ▸ both.1)

/-- What was asked of the keys not known yet, put before what is known. -/
theorem lookup_filled {known l : List (κ × β)} {wanted : List κ} {answer : κ → Option β}
    (remembered : ∀ k v, known.lookup k = some v → answer k = some v)
    (inside : ∀ k ∈ wanted.filter fun k => (known.lookup k).isNone, l.lookup k = answer k)
    (outside : ∀ k ∉ wanted.filter fun k => (known.lookup k).isNone, l.lookup k = none) :
    (∀ k v, (l ++ known).lookup k = some v → answer k = some v) ∧
      ∀ k ∈ wanted, (l ++ known).lookup k = answer k := by
  simp only [lookup_append]
  constructor
  · intro k v found
    by_cases new : k ∈ wanted.filter fun k => (known.lookup k).isNone
    · have absent : known.lookup k = none := by simpa using (mem_filter.mp new).2
      rwa [inside k new, absent, Option.or_none] at found
    · rw [outside k new, Option.none_or] at found
      exact remembered k v found
  · intro k here
    cases old : known.lookup k with
    | none => rw [inside k (mem_filter.mpr ⟨here, by simp [old]⟩), Option.or_none]
    | some v => rw [outside k (by simp [old]), Option.none_or, remembered k v old]

/-- Numbers that are distinct under each key tell the elements apart together with it. -/
theorem nodup_pairs {γ : Type*} {number : α → γ}
    (each : ∀ k, ((l.filter fun x => key x = k).map number).Nodup) :
    (l.map fun x => (key x, number x)).Nodup := by
  induction l with
  | nil => exact nodup_nil
  | cons x l ih =>
    rw [map_cons, nodup_cons]
    constructor
    · intro again
      obtain ⟨y, hy, same⟩ := mem_map.mp again
      rw [Prod.mk.injEq] at same
      have here := each (key x)
      rw [filter_cons_of_pos (by simp), map_cons, nodup_cons] at here
      exact here.1 (mem_map.mpr ⟨y, mem_filter.mpr ⟨hy, by simpa using same.1⟩, same.2⟩)
    · refine ih fun k => (each k).sublist ?_
      exact (sublist_cons_self x l |>.filter _).map _

theorem find?_key_iff (distinct : (l.map key).Nodup) {x : α} :
    (l.find? fun y => decide (key y = k)) = some x ↔ x ∈ l ∧ key x = k := by
  rw [find?_one_iff, decide_eq_true_iff]
  simp only [decide_eq_true_iff]
  rintro x hx y hy rfl same
  exact inj_on_of_nodup_map distinct hx hy same.symm

/-- With distinct keys, an element is found by its key. -/
theorem find?_of_mem (distinct : (l.map key).Nodup) {x : α} (hx : x ∈ l) :
    (l.find? fun y => decide (key y = key x)) = some x :=
  (find?_key_iff distinct).mpr ⟨hx, rfl⟩

/-- The order of the elements does not matter then. -/
theorem find?_perm {p : α → Bool} {m : List α}
    (one : ∀ x ∈ l, ∀ y ∈ l, p x = true → p y = true → x = y) (perm : l.Perm m) :
    l.find? p = m.find? p := by
  ext x
  rw [find?_one_iff one, perm.mem_iff, find?_one_iff]
  simpa only [perm.mem_iff] using one

/-- The parts of one element, among those of elements with distinct keys. -/
theorem filter_flatMap_key {f : α → List β} {held : β → κ} (distinct : (l.map key).Nodup)
    (carry : ∀ x ∈ l, ∀ y ∈ f x, held y = key x) {x : α} (hx : x ∈ l) :
    (l.flatMap f).filter (fun y => held y = key x) = f x := by
  have others {m : List α} (carry : ∀ z ∈ m, ∀ y ∈ f z, held y = key z)
      (absent : key x ∉ m.map key) : (m.flatMap f).filter (fun y => held y = key x) = [] := by
    rw [filter_eq_nil_iff]
    intro y hy same
    obtain ⟨z, hz, hy⟩ := mem_flatMap.mp hy
    rw [carry z hz y hy, decide_eq_true_eq] at same
    exact absent (mem_map.mpr ⟨z, hz, same⟩)
  induction l with
  | nil => cases hx
  | cons z l ih =>
    obtain ⟨fresh, distinct⟩ := nodup_cons.mp distinct
    obtain ⟨here, later⟩ := forall_mem_cons.mp carry
    rw [flatMap_cons, filter_append]
    obtain rfl | hx := mem_cons.mp hx
    · rw [others later fresh, append_nil, filter_eq_self]
      intro y hy
      exact decide_eq_true (here y hy)
    · have differ : key z ≠ key x := fun same => fresh (mem_map.mpr ⟨x, hx, same.symm⟩)
      rw [ih distinct later hx, filter_eq_nil_iff.mpr, nil_append]
      intro y hy same
      rw [here y hy, decide_eq_true_eq] at same
      exact differ same

end

end KnowledgePlatform
