import Mathlib.Data.List.Basic

/-!
# Loops that consume a queue

A loop body `turn` takes the state and the next element of a queue and says whether the loop goes on.
`drain` runs it until it stops or the queue is empty. The loop leaves nothing behind exactly when it
goes on at every element but perhaps the last (`drain_rest_eq_nil_iff`).
-/

namespace Drain

variable {σ ρ : Type}

/-- The state at the end of the loop and the elements not consumed. -/
def drain (turn : σ → ρ → σ × Bool) : σ → List ρ → σ × List ρ
  | s, [] => (s, [])
  | s, r :: q => if (turn s r).2 then drain turn (turn s r).1 q else ((turn s r).1, q)

/-- The state after the body has run on every element. -/
def after (turn : σ → ρ → σ × Bool) (s : σ) (q : List ρ) : σ :=
  q.foldl (fun s r => (turn s r).1) s

variable {turn : σ → ρ → σ × Bool}

@[simp] theorem after_nil (s : σ) : after turn s [] = s := rfl

@[simp] theorem after_cons (s : σ) (r : ρ) (q : List ρ) :
    after turn s (r :: q) = after turn (turn s r).1 q := rfl

theorem drain_rest_eq_nil_iff (s : σ) (q : List ρ) :
    (drain turn s q).2 = [] ↔
      ∀ pre r q', q = pre ++ r :: q' → q' ≠ [] → (turn (after turn s pre) r).2 = true := by
  induction q generalizing s with
  | nil => simp [drain]
  | cons r q ih =>
    constructor
    · intro h pre r' q' hq hne
      simp only [drain] at h
      split at h
      · next hgo =>
        cases pre with
        | nil =>
          obtain ⟨rfl, -⟩ := List.cons.inj hq
          exact hgo
        | cons x pre =>
          obtain ⟨rfl, htail⟩ := List.cons.inj hq
          exact (ih _).mp h pre r' q' htail hne
      · -- the loop stops at the first element, so it is the last
        obtain rfl : q = [] := h
        cases pre with
        | nil => simp_all
        | cons x pre => simp at hq
    · intro h
      simp only [drain]
      split
      · exact (ih _).mpr fun pre r' q' hq hne => h (r :: pre) r' q' (by simp [hq]) hne
      · next hstop =>
        by_contra hne
        exact hstop (h [] r q rfl hne)

/-- A loop that leaves nothing behind has run its body on every element. -/
theorem drain_state {s : σ} {q : List ρ} (h : (drain turn s q).2 = []) :
    (drain turn s q).1 = after turn s q := by
  induction q generalizing s with
  | nil => rfl
  | cons r q ih =>
    simp only [drain] at h ⊢
    split at h
    · next hgo =>
      rw [if_pos hgo]
      exact ih h
    · next hstop =>
      obtain rfl : q = [] := h
      rw [if_neg hstop]
      rfl

end Drain
