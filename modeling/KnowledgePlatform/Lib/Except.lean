import Mathlib.Data.List.Basic

/-! Peeling fallible computations apart. -/

namespace KnowledgePlatform

open List

universe u v

variable {ε : Type u} {α β : Type v} {x : Except ε α} {b : β}

theorem except_bind_ok {f : α → Except ε β} (h : x >>= f = .ok b) :
    ∃ a, x = .ok a ∧ f a = .ok b := by
  cases x with
  | error => cases h
  | ok a => exact ⟨a, rfl, h⟩

theorem except_bind_iff {f : α → Except ε β} :
    x >>= f = .ok b ↔ ∃ a, x = .ok a ∧ f a = .ok b :=
  ⟨except_bind_ok, fun ⟨_, hx, hf⟩ => by rw [hx]; exact hf⟩

theorem except_bind_congr {f g : α → Except ε β} (h : ∀ a, x = .ok a → f a = g a) :
    x >>= f = x >>= g := by
  cases x with
  | error => rfl
  | ok a => exact h a rfl

theorem except_map_iff {f : α → β} :
    f <$> x = .ok b ↔ ∃ a, x = .ok a ∧ f a = b := by
  cases x with
  | error e | ok a => simp [Functor.map, Except.map]

variable {a : α}

theorem except_pure_iff {b : α} : (pure a : Except ε α) = .ok b ↔ a = b := by
  simp [pure, Except.pure]

theorem mapError_iff {δ : Type u} {f : ε → δ} :
    x.mapError f = .ok a ↔ x = .ok a := by
  cases x <;> simp [Except.mapError]

theorem except_ok_bind (a : α) (f : α → Except ε β) : (.ok a : Except ε α) >>= f = f a := rfl

theorem option_bind_some {x : Option α} {f : α → Option β} (h : x >>= f = some b) :
    ∃ a, x = some a ∧ f a = some b := Option.bind_eq_some_iff.mp h

theorem any_exists {x : Option α} {p : α → Bool} (h : x.any p = true) :
    ∃ a, x = some a ∧ p a = true := (Option.any_eq_true p x).mp h

theorem toOption_some (h : x.toOption = some a) : x = .ok a := by
  cases x with
  | error => cases h
  | ok => exact congrArg _ (Option.some.inj h)

theorem isOk_exists (h : x.isOk = true) : ∃ a, x = .ok a := by
  cases x with
  | error => cases h
  | ok a => exact ⟨a, rfl⟩

/-- Refuses with `e` unless `p` holds. -/
def ensure (p : Prop) [Decidable p] (e : ε) : Except ε Unit :=
  if p then .ok () else .error e

variable {p : Prop} {e : ε}

theorem ensure_ok [Decidable p] {u : Unit} (h : ensure p e = .ok u) : p := by
  unfold ensure at h
  split at h
  · assumption
  · cases h

theorem ensure_iff [Decidable p] {u : Unit} : ensure p e = .ok u ↔ p := by
  refine ⟨ensure_ok, ?_⟩
  intro holds
  rw [ensure, if_pos holds]

theorem ensure_bind_iff [Decidable p] {γ : Type} {f : Unit → Except ε γ} {a : γ} :
    ensure p e >>= f = .ok a ↔ p ∧ f () = .ok a := by
  rw [except_bind_iff]
  constructor
  · rintro ⟨_, holds, h⟩
    exact ⟨ensure_ok holds, h⟩
  · rintro ⟨holds, h⟩
    exact ⟨(), ensure_iff.mpr holds, h⟩

/-- The value, or the refusal `e` when there is none. -/
def okOr (x : Option α) (e : ε) : Except ε α :=
  match x with
  | some a => .ok a
  | none => .error e

theorem okOr_iff {x : Option α} : okOr x e = .ok a ↔ x = some a := by
  cases x with
  | none | some => simp [okOr]

/-- The rules that peel a fallible computation apart, as one set. -/
theorem except_iffs :
    (∀ {ε α β : Type} {x : Except ε α} {f : α → Except ε β} {b : β},
      x >>= f = .ok b ↔ ∃ a, x = .ok a ∧ f a = .ok b) ∧
    (∀ {ε α : Type} {a b : α}, (pure a : Except ε α) = .ok b ↔ a = b) ∧
    (∀ {ε : Type} {p : Prop} [Decidable p] {e : ε} {u : Unit}, ensure p e = .ok u ↔ p) ∧
    (∀ {ε α : Type} {x : Option α} {e : ε} {a : α}, okOr x e = .ok a ↔ x = some a) ∧
    ∀ {p : Unit → Prop}, (∃ u, p u) ↔ p () :=
  ⟨except_bind_iff, except_pure_iff, ensure_iff, okOr_iff, Unique.exists_iff⟩

theorem else_error_iff [Decidable p] {b : α} :
    (if p then x else .error e) = .ok b ↔ p ∧ x = .ok b := by
  split
  · exact (and_iff_right ‹p›).symm
  · exact iff_of_false nofun fun h => absurd h.1 ‹¬p›

theorem ite_error_iff [Decidable p] {b : α} :
    (if p then .error e else x) = .ok b ↔ ¬ p ∧ x = .ok b := by
  rw [← ite_not, else_error_iff]

theorem ite_ok_iff [Decidable p] {b : α} :
    (if p then .ok a else .error e : Except ε α) = .ok b ↔ p ∧ b = a := by
  rw [else_error_iff, Except.ok.injEq, eq_comm]

variable {f : β → Except ε α} {P : β → Prop} {r : List α}

/-- A traversal whose visits succeed under `P` with the value `g` succeeds when all of them do. -/
theorem mapM_ok_iff {g : β → α} {l : List β} (visit : ∀ x ∈ l, ∀ y, f x = .ok y ↔ P x ∧ y = g x) :
    l.mapM f = .ok r ↔ (∀ x ∈ l, P x) ∧ r = l.map g := by
  induction l generalizing r with
  | nil => simp [pure, Except.pure, eq_comm]
  | cons x l ih =>
    have rest (r : List α) := ih (r := r) fun y hy => visit y (.tail _ hy)
    simp [except_bind_iff, except_map_iff, visit x mem_cons_self, rest, and_assoc, @eq_comm _ r]

/-- A visit that succeeds everywhere is the list of its results. -/
theorem mapM_iff_map {l : List β} :
    l.mapM f = .ok r ↔ l.map f = r.map .ok := by
  induction l generalizing r with
  | nil => cases r <;> simp [pure, Except.pure]
  | cons x l ih => cases r <;> simp [except_bind_iff, except_map_iff, ih]

theorem mem_mapM {l : List β} (h : l.mapM f = .ok r) {y : α} :
    y ∈ r ↔ ∃ x ∈ l, f x = .ok y := by
  have image : y ∈ r ↔ (.ok y : Except ε α) ∈ r.map .ok := by simp
  rw [image, ← mapM_iff_map.mp h, mem_map]

theorem mapM_each {l : List β} (h : l.mapM f = .ok r) {x : β} (hx : x ∈ l) :
    ∃ y ∈ r, f x = .ok y := by
  have image : f x ∈ r.map .ok := mapM_iff_map.mp h ▸ mem_map_of_mem hx
  obtain ⟨y, hy, same⟩ := mem_map.mp image
  exact ⟨y, hy, same.symm⟩

variable {l : List α}

/-- A traversal whose visits all succeed succeeds. -/
theorem mapM_total {R : β → α → Prop} {l : List β} (each : ∀ x ∈ l, ∃ y, f x = .ok y ∧ R x y) :
    ∃ r, l.mapM f = .ok r ∧ Forall₂ R l r := by
  induction l with
  | nil => exact ⟨[], rfl, .nil⟩
  | cons x l ih =>
    obtain ⟨⟨y, first, related⟩, rest⟩ := forall_mem_cons.mp each
    obtain ⟨ys, others, all⟩ := ih rest
    refine ⟨y :: ys, ?_, .cons related all⟩
    rw [mapM_cons, first, others]
    rfl

/-- The order in which a list is visited decides only which error comes first. -/
theorem mapM_perm {l m : List β} (perm : l.Perm m) (h : l.mapM f = .ok r) :
    ∃ s, m.mapM f = .ok s ∧ ∀ y, y ∈ s ↔ y ∈ r := by
  have each (x : β) (hx : x ∈ m) : ∃ y, f x = .ok y ∧ True := by
    obtain ⟨y, -, made⟩ := mapM_each h (perm.mem_iff.mpr hx)
    exact ⟨y, made, trivial⟩
  obtain ⟨s, done, -⟩ := mapM_total each
  refine ⟨s, done, fun y => ?_⟩
  simp only [mem_mapM done, mem_mapM h, perm.mem_iff]

theorem forM_iff {f : α → Except ε PUnit} :
    l.forM f = .ok () ↔ ∀ x ∈ l, f x = .ok () := by
  induction l with
  | nil => simp [pure, Except.pure]
  | cons x l ih =>
    rw [forM_eq_forM, forM_cons, except_bind_iff, forall_mem_cons, ← ih]
    constructor
    · rintro ⟨_, first, rest⟩
      exact ⟨first, rest⟩
    · rintro ⟨first, rest⟩
      exact ⟨(), first, rest⟩

variable {y : β}

theorem foldlM_invariant_mem {f : β → α → Except ε β} {x : β}
    (step : ∀ x, ∀ a ∈ l, ∀ y, P x → f x a = .ok y → P y) (start : P x) (h : l.foldlM f x = .ok y) :
    P y := by
  induction l generalizing x with
  | nil =>
    obtain rfl := Except.ok.inj h
    exact start
  | cons a l ih =>
    rw [foldlM_cons, except_bind_iff] at h
    obtain ⟨next, first, rest⟩ := h
    exact ih (fun x b hb => step x b (mem_cons_of_mem a hb))
      (step x a mem_cons_self next start first) rest

/-- What every step of a fallible fold keeps, a whole fold keeps. -/
theorem foldlM_invariant {f : β → α → Except ε β} {x : β}
    (step : ∀ x a y, P x → f x a = .ok y → P y) (start : P x) (h : l.foldlM f x = .ok y) : P y :=
  foldlM_invariant_mem (fun x a _ => step x a) start h

/-- Every element of a fallible fold has had its step. -/
theorem foldlM_visits {f : β → α → Except ε β} {x : β} (h : l.foldlM f x = .ok y) (ha : a ∈ l) :
    ∃ before after, f before a = .ok after := by
  induction l generalizing x with
  | nil => cases ha
  | cons b l ih =>
    rw [foldlM_cons, except_bind_iff] at h
    obtain ⟨next, first, rest⟩ := h
    obtain rfl | ha := mem_cons.mp ha
    · exact ⟨x, next, first⟩
    · exact ih rest ha

/-- A fallible fold seen through `p`, a part of its state with steps of its own. -/
theorem foldlM_image {γ : Type v} {f : β → α → Except ε β} {g : γ → α → Except ε γ} {p : β → γ}
    {x : β} (step : ∀ x, ∀ a ∈ l, ∀ y, f x a = .ok y → g (p x) a = .ok (p y))
    (h : l.foldlM f x = .ok y) : l.foldlM g (p x) = .ok (p y) := by
  induction l generalizing x with
  | nil =>
    obtain rfl := Except.ok.inj h
    rfl
  | cons a l ih =>
    rw [foldlM_cons, except_bind_iff] at h
    obtain ⟨next, first, rest⟩ := h
    rw [foldlM_cons, step x a mem_cons_self next first]
    exact ih (fun x a ha => step x a (.tail _ ha)) rest

end KnowledgePlatform
