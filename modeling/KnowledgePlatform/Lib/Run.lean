import KnowledgePlatform.Lib.Except
import Mathlib.Logic.Relation

/-! Runs of a labelled step relation, with the labels taken so far. -/

namespace KnowledgePlatform

variable {σ ε : Type*} {step : σ → ε → σ → Prop} {start s t : σ} {trace later : List ε}

/-- The states reached from `start`, with the labels of the steps, latest first. -/
inductive Run (step : σ → ε → σ → Prop) (start : σ) : List ε → σ → Prop where
  | start : Run step start [] start
  | next {trace s e t} : Run step start trace s → step s e t → Run step start (e :: trace) t

namespace Run

/-- What holds at the start and is kept by every step of the run holds at its end. -/
theorem invariant {P : List ε → σ → Prop} (base : P [] start)
    (keep : ∀ trace s e t, P trace s → step s e t → P (e :: trace) t)
    (run : Run step start trace s) : P trace s := by
  induction run with
  | start => exact base
  | next _ h ih => exact keep _ _ _ _ ih h

theorem append (run : Run step start trace s) (rest : Run step s later t) :
    Run step start (later ++ trace) t := by
  induction rest with
  | start => exact run
  | next _ h ih => exact ih.next h

/-- Every label of a run was taken from a state that an earlier part of the run reached. -/
theorem split {newer older : List ε} {e : ε} (run : Run step start (newer ++ e :: older) s) :
    ∃ a b, Run step start older a ∧ step a e b ∧ Run step b newer s := by
  induction newer generalizing s with
  | nil =>
    cases run with
    | next before h => exact ⟨_, _, before, h, .start⟩
  | cons _ newer ih =>
    cases run with
    | next before h =>
      obtain ⟨a, b, first, taken, last⟩ := ih before
      exact ⟨a, b, first, taken, last.next h⟩

/-- Calls made one after the other, each with its answer and the state it leaves, are a run. -/
theorem of_calls {κ ρ : Type*} (call : σ → κ → ρ × σ) (event : κ → ρ → ε)
    (made : ∀ s c, step s (event c (call s c).1) (call s c).2) (s : σ) (calls : List κ) :
    ∃ trace, Run step s trace (calls.foldl (fun s c => (call s c).2) s) ∧
      ∀ e ∈ trace, ∃ c ∈ calls, ∃ answer, e = event c answer := by
  induction calls generalizing s with
  | nil => exact ⟨[], .start, fun _ inside => absurd inside List.not_mem_nil⟩
  | cons c calls ih =>
    obtain ⟨trace, run, called⟩ := ih (call s c).2
    refine ⟨_, (Run.start.next (made s c)).append run, ?_⟩
    intro e inside
    obtain inside | inside := List.mem_append.mp inside
    · obtain ⟨other, listed, same⟩ := called e inside
      exact ⟨other, .tail _ listed, same⟩
    · exact ⟨c, .head _, _, List.mem_singleton.mp inside⟩

/-- Takes the steps of a list, the latest first, each with the number of those before it. -/
def replay {σ ε δ : Type} (take : Nat → σ → ε → Except δ σ) (s : σ) : List ε → Except δ σ
  | [] => .ok s
  | e :: earlier => do
    let t ← replay take s earlier
    take earlier.length t e

/-- What takes steps of the relation replays a run of it. -/
theorem of_replay {σ ε δ : Type} {step : σ → ε → σ → Prop} {take : Nat → σ → ε → Except δ σ}
    {s t : σ} {trace : List ε} (taken : ∀ n s e t, take n s e = .ok t → step s e t)
    (h : replay take s trace = .ok t) : Run step s trace t := by
  induction trace generalizing t with
  | nil =>
    cases h
    exact .start
  | cons e earlier ih =>
    obtain ⟨u, before, last⟩ := except_bind_ok h
    exact (ih before).next (taken _ u e t last)

end Run

end KnowledgePlatform
