import Mathlib.Data.List.Basic

/-! Texts that tell where they end. A writer delimits when two texts that begin with written values
agree only if the values agree, and so do the rests: then values can be written one after
another. -/

namespace KnowledgePlatform.Delimited

open List

variable {α β γ : Type}

/-- No written value begins another, whatever follows. -/
def Delimits (f : α → List γ) : Prop :=
  ∀ x y s t, f x ++ s = f y ++ t → x = y ∧ s = t

section

variable {f : α → List γ} {g : β → List γ} {c : γ} {s t x y : List γ}

/-- The first place of a separator that neither first part holds. -/
theorem split_first (hx : c ∉ x) (hy : c ∉ y) (same : x ++ c :: s = y ++ c :: t) :
    x = y ∧ s = t := by
  induction x generalizing y with
  | nil =>
    cases y with
    | nil => exact ⟨rfl, (cons.inj same).2⟩
    | cons => exact absurd ((cons.inj same).1 ▸ mem_cons_self) hy
  | cons a x ih =>
    cases y with
    | nil => exact absurd ((cons.inj same).1 ▸ mem_cons_self) hx
    | cons =>
      obtain ⟨rfl, rest⟩ := cons.inj same
      obtain ⟨rfl, tails⟩ := ih (not_mem_of_not_mem_cons hx) (not_mem_of_not_mem_cons hy)
        rest
      exact ⟨rfl, tails⟩

/-- The last place of a separator that neither last part holds. -/
theorem split_last (hs : c ∉ s) (ht : c ∉ t) (same : x ++ c :: s = y ++ c :: t) :
    x = y ∧ s = t := by
  have turned := congrArg reverse same
  simp only [reverse_append, reverse_cons, append_assoc, singleton_append]
    at turned
  obtain ⟨tails, heads⟩ :=
    split_first (mt mem_reverse.mp hs) (mt mem_reverse.mp ht) turned
  exact ⟨reverse_injective heads, reverse_injective tails⟩

theorem Delimits.injective (h : Delimits f) : Function.Injective f := by
  intro x y same
  have padded : f x ++ [] = f y ++ [] := by rw [same]
  exact (h x y [] [] padded).1

/-- A text up to a separator it does not hold. -/
theorem delimits_until (inj : Function.Injective f) (avoids : ∀ x, c ∉ f x) :
    Delimits fun x => f x ++ [c] := by
  intro x y s t same
  simp only [append_assoc, singleton_append] at same
  obtain ⟨texts, rests⟩ := split_first (avoids x) (avoids y) same
  exact ⟨inj texts, rests⟩

theorem Delimits.pair (hf : Delimits f) (hg : Delimits g) :
    Delimits fun p : α × β => f p.1 ++ g p.2 := by
  rintro ⟨a, b⟩ ⟨a', b'⟩ s t same
  simp only [append_assoc] at same
  obtain ⟨rfl, rest⟩ := hf a a' _ _ same
  obtain ⟨rfl, tails⟩ := hg b b' _ _ rest
  exact ⟨rfl, tails⟩

theorem Delimits.after (lead : List γ) (h : Delimits f) : Delimits fun x => lead ++ f x := by
  intro x y s t same
  rw [append_assoc, append_assoc] at same
  exact h x y s t (append_cancel_left same)

theorem Delimits.before (tail : List γ) (h : Delimits f) : Delimits fun x => f x ++ tail := by
  intro x y s t same
  rw [append_assoc, append_assoc] at same
  obtain ⟨rfl, rest⟩ := h x y _ _ same
  exact ⟨rfl, append_cancel_left rest⟩

theorem Delimits.comp {e : β → α} (h : Delimits f) (inj : Function.Injective e) :
    Delimits fun x => f (e x) := by
  intro x y s t same
  obtain ⟨values, rest⟩ := h (e x) (e y) s t same
  exact ⟨inj values, rest⟩

end

/-! ## Sequences -/

/-- Every value followed by `c` or by nothing more of them: values up to a closing mark that begins
no value. -/
theorem delimits_blocks {f : α → List γ} {c : γ} (h : Delimits f)
    (opens : ∀ x s, (f x ++ s).head? ≠ some c) :
    Delimits fun xs : List α => xs.flatMap f ++ [c] := by
  have marked {x : α} {s t : List γ} (same : f x ++ s = c :: t) : False :=
    opens x s (by rw [same]; rfl)
  intro xs ys s t same
  induction xs generalizing ys <;> cases ys <;>
    simp only [flatMap_nil, flatMap_cons, append_assoc] at same
  case nil.nil => exact ⟨rfl, append_cancel_left same⟩
  case nil.cons => exact (marked same.symm).elim
  case cons.nil => exact (marked same).elim
  case cons.cons x xs ih y ys =>
    obtain ⟨rfl, rest⟩ := h x y _ _ same
    simp only [← append_assoc] at rest
    obtain ⟨rfl, tails⟩ := ih ys rest
    exact ⟨rfl, tails⟩

/-- The values with `between` between them. -/
def separated (between : List γ) (f : α → List γ) : List α → List γ
  | [] => []
  | [x] => f x
  | x :: y :: rest => f x ++ between ++ separated between f (y :: rest)

/-- The values from the second on, each with the separator before it. -/
theorem separated_cons (between : List γ) (f : α → List γ) (x : α) (xs : List α) :
    separated between f (x :: xs) = f x ++ xs.flatMap (fun y => between ++ f y) := by
  induction xs generalizing x with
  | nil => simp [separated]
  | cons y ys ih => rw [separated, ih, flatMap_cons, append_assoc, append_assoc]

/-- A list up to a closing mark that begins neither a value nor the separator. -/
theorem delimits_separated {f : α → List γ} {b c : γ} {between : List γ} (h : Delimits f)
    (opens : ∀ x s, (f x ++ s).head? ≠ some c) (differs : b ≠ c) :
    Delimits fun xs => separated (b :: between) f xs ++ [c] := by
  have rest : Delimits fun xs : List α => xs.flatMap (fun y => (b :: between) ++ f y) ++ [c] := by
    apply delimits_blocks (h.after (b :: between))
    intro x s
    simp only [cons_append, head?_cons, ne_eq, Option.some.injEq]
    exact differs
  have marked {x : α} {s t : List γ} (same : f x ++ s = c :: t) : False :=
    opens x s (by rw [same]; rfl)
  intro xs ys s t same
  cases xs <;> cases ys <;> simp only [separated_cons, append_assoc] at same
  case nil.nil => exact ⟨rfl, append_cancel_left same⟩
  case nil.cons => exact (marked same.symm).elim
  case cons.nil => exact (marked same).elim
  case cons.cons x xs y ys =>
    obtain ⟨rfl, later⟩ := h x y _ _ same
    simp only [← append_assoc] at later
    obtain ⟨rfl, tails⟩ := rest xs ys s t later
    exact ⟨rfl, tails⟩

theorem mem_separated {f : α → List γ} {between : List γ} {c : γ} {xs : List α}
    (h : c ∈ separated between f xs) : c ∈ between ∨ ∃ x ∈ xs, c ∈ f x := by
  cases xs with
  | nil => cases h
  | cons x =>
    rw [separated_cons, mem_append, mem_flatMap] at h
    obtain first | ⟨y, hy, later⟩ := h
    · exact .inr ⟨x, .head _, first⟩
    · obtain mark | value := mem_append.mp later
      · exact .inl mark
      · exact .inr ⟨y, mem_cons_of_mem x hy, value⟩

end KnowledgePlatform.Delimited
