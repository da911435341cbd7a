import KnowledgePlatform.Lib.Except

/-! Computations that do not fail with a given error. -/

namespace KnowledgePlatform

open List

universe u v

variable {ε : Type u} {α β : Type v} {e e' : ε}

/-- The computation does not fail with `e`. -/
def Avoids (e : ε) (x : Except ε α) : Prop := x ≠ .error e

@[simp] theorem avoids_ok (a : α) : Avoids e (.ok a : Except ε α) := by
  intro h
  cases h

variable {x : Except ε α}

theorem avoids_of_ok {a : α} (h : x = .ok a) : Avoids e x := h ▸ avoids_ok a

@[simp] theorem avoids_pure (a : α) : Avoids e (pure a : Except ε α) := avoids_ok a

@[simp] theorem avoids_error : Avoids e (.error e' : Except ε α) ↔ e' ≠ e := by
  simp [Avoids]

/-- An error that is passed on. -/
theorem Avoids.passed (h : Avoids e x) (failed : x = .error e') :
    Avoids e (.error e' : Except ε β) := by
  rw [failed, avoids_error] at h
  exact avoids_error.mpr h

@[simp] theorem avoids_bind {f : α → Except ε β} :
    Avoids e (x >>= f) ↔ Avoids e x ∧ ∀ a, x = .ok a → Avoids e (f a) := by
  cases x <;> simp [Avoids, bind, Except.bind]

@[simp] theorem avoids_map {f : α → β} : Avoids e (f <$> x) ↔ Avoids e x := by
  cases x <;> simp [Avoids]

@[simp] theorem avoids_ensure {p : Prop} [Decidable p] : Avoids e (ensure p e') ↔ e' = e → p := by
  unfold ensure
  split <;> simp [*]

@[simp] theorem avoids_okOr {x : Option α} : Avoids e (okOr x e') ↔ e' = e → x.isSome = true := by
  cases x with
  | none => simp [okOr, avoids_error]
  | some => simp [okOr, avoids_ok]

/-- The rules for a block of checks, and the logic that they leave. -/
theorem avoids_iffs :
    (∀ {ε α β : Type} {e : ε} {x : Except ε α} {f : α → Except ε β},
      Avoids e (x >>= f) ↔ Avoids e x ∧ ∀ a, x = .ok a → Avoids e (f a)) ∧
    (∀ {ε : Type} {e e' : ε} {p : Prop} [Decidable p], Avoids e (ensure p e') ↔ e' = e → p) ∧
    (∀ {ε α : Type} {e e' : ε} {x : Option α}, Avoids e (okOr x e') ↔ e' = e → x.isSome = true) ∧
    (∀ {ε α : Type} {e : ε} {a : α}, Avoids e (pure a : Except ε α)) ∧
    (∀ {p : Prop}, (False → p) = True) ∧ (∀ {p : Prop}, (p → True) = True) ∧
    (∀ {α : Type}, (α → True) = True) ∧ (∀ {p : Prop}, (Unit → p) = p) ∧
    (∀ {p : Prop}, (True → p) = p) ∧ (∀ {p : Prop}, (p ∧ True) = p) ∧
    ∀ {p : Prop}, (True ∧ p) = p :=
  ⟨avoids_bind, avoids_ensure, avoids_okOr, avoids_pure _, by simp⟩

@[simp] theorem avoids_mapM {f : β → Except ε α} {l : List β} (each : ∀ x ∈ l, Avoids e (f x)) :
    Avoids e (l.mapM f) := by
  induction l with
  | nil => exact avoids_ok []
  | cons x l ih =>
    obtain ⟨first, rest⟩ := forall_mem_cons.mp each
    simp [first, ih rest]

@[simp] theorem avoids_forM {f : α → Except ε PUnit} {l : List α}
    (each : ∀ x ∈ l, Avoids e (f x)) : Avoids e (forM l f) := by
  induction l with
  | nil => exact avoids_ok _
  | cons x l ih =>
    obtain ⟨first, rest⟩ := forall_mem_cons.mp each
    rw [forM_cons, avoids_bind]
    exact ⟨first, fun _ _ => ih rest⟩

@[simp] theorem avoids_foldlM {f : β → α → Except ε β} {l : List α} {b : β}
    (each : ∀ b, ∀ x ∈ l, Avoids e (f b x)) : Avoids e (l.foldlM f b) := by
  induction l generalizing b with
  | nil => exact avoids_ok b
  | cons x l ih =>
    rw [foldlM_cons, avoids_bind]
    refine ⟨each b x mem_cons_self, ?_⟩
    intro c _
    exact ih fun b y hy => each b y (mem_cons_of_mem x hy)

end KnowledgePlatform
