import Mathlib.Data.List.Forall2

/-! The first element of a list that a test accepts, changed in its place. -/

namespace KnowledgePlatform

open List

variable {α β : Type*}

/-- Changes the first element that `p` accepts. -/
def updateFirst (p : α → Bool) (f : α → α) : List α → List α
  | [] => []
  | a :: l => if p a then f a :: l else a :: updateFirst p f l

variable {p : α → Bool} {f : α → α} {l : List α} {a b : α}

/-- Where the element that changes stands. -/
theorem updateFirst_split (found : l.find? p = some a) :
    ∃ x y, l = x ++ a :: y ∧ updateFirst p f l = x ++ f a :: y := by
  induction l with
  | nil => cases found
  | cons b l ih =>
    rw [updateFirst]
    by_cases accepted : p b = true
    · rw [find?_cons_of_pos accepted] at found
      cases found
      exact ⟨[], l, rfl, if_pos accepted⟩
    · rw [find?_cons_of_neg accepted] at found
      obtain ⟨x, y, rfl, changed⟩ := ih found
      exact ⟨b :: x, y, rfl, by rw [if_neg accepted, changed, cons_append]⟩

theorem updateFirst_none (none : l.find? p = none) : updateFirst p f l = l := by
  induction l with
  | nil => rfl
  | cons b l ih =>
    obtain ⟨refused, rest⟩ := forall_mem_cons.mp (find?_eq_none.mp none)
    rw [updateFirst, if_neg refused, ih (find?_eq_none.mpr rest)]

theorem forall₂_updateFirst {R : α → α → Prop} (stays : ∀ a, R a a) (found : l.find? p = some a)
    (changed : R a (f a)) : Forall₂ R l (updateFirst p f l) := by
  obtain ⟨x, y, rfl, there⟩ := updateFirst_split (f := f) found
  rw [there]
  exact rel_append (forall₂_same.mpr fun b _ => stays b)
    (.cons changed (forall₂_same.mpr fun b _ => stays b))

/-- Every element stays, or is changed if the test accepts it. -/
theorem updateFirst_related :
    Forall₂ (fun a b => b = a ∨ (p a = true ∧ b = f a)) l (updateFirst p f l) := by
  cases found : l.find? p with
  | none =>
    rw [updateFirst_none found]
    exact forall₂_same.mpr fun _ _ => .inl rfl
  | some =>
    exact forall₂_updateFirst (fun _ => .inl rfl) found (.inr ⟨find?_some found, rfl⟩)

/-- A further test that the element found passes does not change what is found. -/
theorem find?_and {q : α → Bool} (found : l.find? p = some a) (also : q a = true) :
    (l.find? fun x => p x && q x) = some a := by
  induction l with
  | nil => cases found
  | cons b l ih =>
    by_cases accepted : p b = true
    · rw [find?_cons_of_pos accepted] at found
      cases found
      exact find?_cons_of_pos (by simp [accepted, also])
    · rw [find?_cons_of_neg accepted] at found
      rw [find?_cons_of_neg (by simp [accepted])]
      exact ih found

theorem map_updateFirst {g : α → β} (keeps : ∀ a, l.find? p = some a → g (f a) = g a) :
    (updateFirst p f l).map g = l.map g := by
  cases found : l.find? p with
  | none => rw [updateFirst_none found]
  | some a =>
    obtain ⟨x, y, rfl, there⟩ := updateFirst_split (f := f) found
    simp [there, keeps a found]

/-- In a list without repetition the changed element is gone. -/
theorem mem_updateFirst_nodup (h : b ∈ updateFirst p f l) :
    b ∈ l ∧ (l.Nodup → l.find? p ≠ some b) ∨ ∃ a, l.find? p = some a ∧ b = f a := by
  cases found : l.find? p with
  | none => exact .inl ⟨updateFirst_none (f := f) found ▸ h, nofun⟩
  | some a =>
    obtain ⟨x, y, rfl, there⟩ := updateFirst_split (f := f) found
    have others (inside : b ∈ x ++ y) :
        b ∈ x ++ a :: y ∧ ((x ++ a :: y).Nodup → some a ≠ some b) := by
      refine ⟨perm_middle.mem_iff.mpr (mem_cons_of_mem a inside), ?_⟩
      rintro distinct ⟨⟩
      exact (nodup_cons.mp (perm_middle.nodup_iff.mp distinct)).1 inside
    rw [there, mem_append, mem_cons] at h
    obtain h | rfl | h := h
    · exact .inl (others (mem_append_left _ h))
    · exact .inr ⟨a, rfl, rfl⟩
    · exact .inl (others (mem_append_right _ h))

theorem mem_updateFirst (h : b ∈ updateFirst p f l) :
    b ∈ l ∨ ∃ a, l.find? p = some a ∧ b = f a :=
  (mem_updateFirst_nodup h).imp_left And.left

theorem mem_updateFirst_self (found : l.find? p = some a) : f a ∈ updateFirst p f l := by
  obtain ⟨x, y, -, there⟩ := updateFirst_split (f := f) found
  simp [there]

/-- One element leaves the count, or joins it. -/
theorem countP_updateFirst {q : α → Bool} (found : l.find? p = some a) :
    (updateFirst p f l).countP q + (if q a then 1 else 0) =
      l.countP q + (if q (f a) then 1 else 0) := by
  obtain ⟨x, y, rfl, there⟩ := updateFirst_split (f := f) found
  simp only [there, countP_append, countP_cons]
  omega

/-- An element other than the one changed stays in its place. -/
theorem getElem?_updateFirst {i : Nat} (found : l.find? p = some a) (here : l[i]? = some b)
    (other : b ≠ a) : (updateFirst p f l)[i]? = some b := by
  obtain ⟨x, y, rfl, there⟩ := updateFirst_split (f := f) found
  rw [there]
  rw [getElem?_append] at here ⊢
  split at here
  · rw [if_pos (by assumption), here]
  · rw [if_neg (by assumption)]
    cases k : i - x.length <;> rw [k] at here
    · exact absurd (Option.some.inj here).symm other
    · exact here

section

variable {κ : Type*} [DecidableEq κ] {key : α → κ} {k : κ} {ks : List κ}

/-- With distinct keys the first element with a key is the only one. -/
theorem updateFirst_eq_map (distinct : (l.map key).Nodup) :
    updateFirst (fun a => key a = k) f l = l.map fun a => if key a = k then f a else a := by
  induction l with
  | nil => rfl
  | cons a l ih =>
    rw [map_cons, nodup_cons] at distinct
    rw [updateFirst, map_cons]
    by_cases here : key a = k
    · have others : l.map (fun b => if key b = k then f b else b) = l := by
        refine (map_congr_left ?_).trans (map_id l)
        intro b hb
        refine if_neg ?_
        intro same
        exact distinct.1 (mem_map.mpr ⟨b, hb, same.trans here.symm⟩)
      simp [here, others]
    · simp [here, ih distinct.2]

/-- Changing the first element of each key, one key after the other. -/
theorem foldl_updateFirst (keeps : ∀ a, key (f a) = key a) (distinct : (l.map key).Nodup)
    (once : ks.Nodup) :
    ks.foldl (fun l k => updateFirst (fun a => key a = k) f l) l =
      l.map fun a => if key a ∈ ks then f a else a := by
  induction ks generalizing l with
  | nil => simp
  | cons k ks ih =>
    obtain ⟨fresh, once⟩ := nodup_cons.mp once
    have sameKeys : (updateFirst (fun a => key a = k) f l).map key = l.map key :=
      map_updateFirst fun a _ => keeps a
    rw [foldl_cons, ih (sameKeys ▸ distinct) once, updateFirst_eq_map distinct, map_map]
    refine map_congr_left ?_
    intro a _
    by_cases here : key a = k
    · simp [here, keeps, fresh]
    · simp [here]

end

end KnowledgePlatform
