import Mathlib.Logic.Relation

/-! Transactions: computations that read a context and change a state, or fail and
change nothing. -/

namespace KnowledgePlatform

variable {ρ σ ε α β : Type}

def Transaction (ρ σ ε α : Type) : Type := ρ → σ → Except ε (α × σ)

namespace Transaction

instance : Monad (Transaction ρ σ ε) where
  pure a := fun _ s => .ok (a, s)
  bind m f := fun r s =>
    match m r s with
    | .ok (a, t) => f a r t
    | .error e => .error e

def context : Transaction ρ σ ε ρ := fun r s => .ok (r, s)

def state : Transaction ρ σ ε σ := fun _ s => .ok (s, s)

def update (f : σ → σ) : Transaction ρ σ ε Unit := fun _ s => .ok ((), f s)

def raise (e : ε) : Transaction ρ σ ε α := fun _ _ => .error e

/-- The value, which must be there. -/
def expect (x : Option α) (e : ε) : Transaction ρ σ ε α :=
  match x with
  | some a => pure a
  | none => raise e

section

variable {r : ρ} {s : σ} {a : α} {e : ε}

theorem bind_of_ok {m : Transaction ρ σ ε α} {f : α → Transaction ρ σ ε β} {u : σ}
    (first : m r s = .ok (a, u)) : (m >>= f) r s = f a r u := by
  change (match m r s with | .ok (a, u) => f a r u | .error e => .error e) = _
  rw [first]

end

end Transaction

end KnowledgePlatform

/-! ## Answers that a state only remembers -/

namespace KnowledgePlatform.Transaction

variable {ρ σ ε α β : Type}

/-- From every state that `I` admits, `m` gives the answer `x`, and leaves a state `J` admits. -/
def Leads (I J : σ → Prop) (r : ρ) (m : Transaction ρ σ ε α) (x : Except ε α) : Prop :=
  ∀ s, I s → match x with
    | .ok a => ∃ t, m r s = .ok (a, t) ∧ J t
    | .error e => m r s = .error e

/-- `m` gives the answer `x`, and keeps `I`. -/
def Computes (I : σ → Prop) (r : ρ) (m : Transaction ρ σ ε α) (x : Except ε α) : Prop :=
  Leads I I r m x

variable {I J K : σ → Prop} {r : ρ} {m : Transaction ρ σ ε α} {x : Except ε α}

theorem Leads.mono {I' J' : σ → Prop} (h : Leads I J r m x) (pre : ∀ s, I' s → I s)
    (post : ∀ s, J s → J' s) :
    Leads I' J' r m x := by
  intro s hs
  have answer := h s (pre s hs)
  cases x with
  | error => exact answer
  | ok =>
    obtain ⟨t, answered, ht⟩ := answer
    exact ⟨t, answered, post t ht⟩

theorem Leads.bind {f : α → Transaction ρ σ ε β} {y : α → Except ε β} (first : Leads I J r m x)
    (rest : ∀ a, Leads J K r (f a) (y a)) :
    Leads I K r (m >>= f) (x >>= y) := by
  intro s hs
  have first := first s hs
  change match x >>= y with
    | .ok b => ∃ t, (match m r s with | .ok (a, u) => f a r u | .error e => .error e) = .ok (b, t) ∧
        K t
    | .error e => (match m r s with | .ok (a, u) => f a r u | .error e => .error e) = .error e
  cases x with
  | error e =>
    rw [show m r s = .error e from first]
    rfl
  | ok a =>
    obtain ⟨u, answered, hu⟩ := first
    rw [answered]
    exact rest a u hu

/-- What is read of the state does not change the answer. -/
theorem leads_state {f : σ → Transaction ρ σ ε α} (each : ∀ u, Leads I J r (f u) x) :
    Leads I J r (state >>= f) x :=
  fun s hs => each s s hs

theorem computes_pure {a : α} : Computes I r (pure a : Transaction ρ σ ε α) (.ok a) :=
  fun s hs => ⟨s, rfl, hs⟩

theorem Computes.bind {f : α → Transaction ρ σ ε β} {y : α → Except ε β} (first : Computes I r m x)
    (rest : ∀ a, Computes I r (f a) (y a)) :
    Computes I r (m >>= f) (x >>= y) :=
  Leads.bind first rest

/-- A test on the state, then a computation that it decides. -/
theorem computes_test {m : Transaction ρ σ ε Bool} {b : Bool} (test : Computes I r m (.ok b))
    {yes no : Transaction ρ σ ε α} {y : Except ε α} (hyes : Computes I r yes x)
    (hno : Computes I r no y) :
    Computes I r (m >>= fun seen => if seen = true then yes else no)
      (if b = true then x else y) := by
  refine test.bind (y := fun seen => if seen = true then x else y) fun seen => ?_
  cases seen
  · exact hno
  · exact hyes

theorem computes_and {m n : Transaction ρ σ ε Bool} {b c : Bool} (first : Computes I r m (.ok b))
    (second : Computes I r n (.ok c)) :
    Computes I r (m >>= fun seen => if seen = true then n else pure false) (.ok (b && c)) := by
  have step := computes_test first second (computes_pure (a := false))
  cases b <;> exact step

/-- A computation that is passed over unless `b`. -/
theorem computes_unless {b c : Bool} {a : α}
    (rest : Computes I r m (if c = true then x else .ok a)) :
    Computes I r (if b = false then pure a else m) (if (b && c) = true then x else .ok a) := by
  cases b with
  | false => exact computes_pure
  | true => exact rest

theorem computes_foldlM {f : β → α → Transaction ρ σ ε β} {g : β → α → Except ε β} {l : List α}
    (each : ∀ b, ∀ a ∈ l, Computes I r (f b a) (g b a)) (b : β) :
    Computes I r (l.foldlM f b) (l.foldlM g b) := by
  induction l generalizing b with
  | nil => exact computes_pure
  | cons a l ih =>
    rw [List.foldlM_cons, List.foldlM_cons]
    apply (each b a List.mem_cons_self).bind
    intro c
    exact ih (fun b x hx => each b x (List.mem_cons_of_mem a hx)) c

/-- A computation of a fallible value, which the state has no part in. -/
def lift (x : Except ε α) : Transaction ρ σ ε α := fun _ s => x.map fun a => (a, s)

theorem computes_lift :
    Computes I r (lift x : Transaction ρ σ ε α) x := by
  intro s hs
  cases x with
  | error => rfl
  | ok => exact ⟨s, rfl, hs⟩

end KnowledgePlatform.Transaction
