import TestBed.Lib.Transition
import Mathlib.Data.List.Perm.Subperm

/-!
# A datagram network

A message that is sent stays in flight for any time; it is delivered, in whatever order, or lost. What
was received and what is in flight are among the messages sent (`run_subperm`). They are all of the
messages with a property `p` if none of these was lost (`run_perm_filter`).
-/

universe u

open Transition

structure Mailbox (α : Type u) where
  sent : List α
  inFlight : List α
  received : List α
  deriving DecidableEq, Repr

namespace Mailbox

variable {α : Type u}

inductive Act (α : Type u)
  | send (x : α)
  | deliver (i : Nat)
  | lose (i : Nat)
  deriving DecidableEq, Repr

def empty : Mailbox α := ⟨[], [], []⟩

def step (m : Mailbox α) : Act α → Option (Mailbox α)
  | .send x => some { m with sent := m.sent ++ [x], inFlight := m.inFlight ++ [x] }
  | .deliver i => m.inFlight[i]?.map fun x =>
      { m with inFlight := m.inFlight.eraseIdx i, received := m.received ++ [x] }
  | .lose i => m.inFlight[i]?.map fun _ => { m with inFlight := m.inFlight.eraseIdx i }

/-- No message with the property `p` is lost. -/
def Keeps (p : α → Bool) (m : Mailbox α) : Act α → Prop
  | .lose i => ∀ x, m.inFlight[i]? = some x → p x = false
  | _ => True

variable {m m' : Mailbox α} {a : Act α}

theorem perm_cons_eraseIdx {xs : List α} {i : Nat} {x : α} (h : xs[i]? = some x) :
    (x :: xs.eraseIdx i).Perm xs := by
  obtain ⟨hi, rfl⟩ := List.getElem?_eq_some_iff.mp h
  exact List.getElem_cons_eraseIdx_perm hi

theorem subperm_step (h : (m.received ++ m.inFlight).Subperm m.sent) (hm : step m a = some m') :
    (m'.received ++ m'.inFlight).Subperm m'.sent := by
  cases a with
  | send x =>
    cases hm
    dsimp only
    rw [← List.append_assoc]
    exact h.append (List.Subperm.refl [x])
  | deliver i =>
    obtain ⟨x, hx, rfl⟩ := Option.map_eq_some_iff.mp hm
    dsimp only
    rw [List.append_assoc, List.singleton_append]
    exact ((perm_cons_eraseIdx hx).append_left m.received).subperm.trans h
  | lose i =>
    obtain ⟨x, -, rfl⟩ := Option.map_eq_some_iff.mp hm
    exact ((List.eraseIdx_sublist m.inFlight i).append_left m.received).subperm.trans h

theorem perm_filter_step {p : α → Bool}
    (h : ((m.received ++ m.inFlight).filter p).Perm (m.sent.filter p)) (hG : Keeps p m a)
    (hm : step m a = some m') : ((m'.received ++ m'.inFlight).filter p).Perm (m'.sent.filter p) := by
  cases a with
  | send x =>
    cases hm
    dsimp only
    rw [← List.append_assoc, List.filter_append, List.filter_append m.sent]
    exact h.append_right _
  | deliver i =>
    obtain ⟨x, hx, rfl⟩ := Option.map_eq_some_iff.mp hm
    dsimp only
    rw [List.append_assoc, List.singleton_append]
    exact (((perm_cons_eraseIdx hx).append_left m.received).filter p).trans h
  | lose i =>
    obtain ⟨x, hx, rfl⟩ := Option.map_eq_some_iff.mp hm
    have hlost := (perm_cons_eraseIdx hx).filter p
    rw [List.filter_cons_of_neg (by simp [hG x hx])] at hlost
    dsimp only
    rw [List.filter_append] at h ⊢
    exact (hlost.append_left _).trans h

theorem run_send {xs : List α} (h : run step m (xs.map .send) = some m') :
    m' = ⟨m.sent ++ xs, m.inFlight ++ xs, m.received⟩ := by
  induction xs generalizing m with
  | nil =>
    cases h
    simp
  | cons x xs ih =>
    rw [List.map_cons, run_cons] at h
    rw [ih h]
    simp

/-! ## Whole runs -/

variable {as : List (Act α)}

/-- **Nothing is made up.** What was received and what is in flight was sent. -/
theorem run_subperm (h : run step empty as = some m) : (m.received ++ m.inFlight).Subperm m.sent :=
  run_invariant (I := fun m => (m.received ++ m.inFlight).Subperm m.sent) (List.Subperm.refl [])
    (fun _ _ _ hm hm' => subperm_step hm hm') h

theorem mem_sent (h : run step empty as = some m) {x : α} (hx : x ∈ m.received) : x ∈ m.sent :=
  (run_subperm h).subset (List.mem_append_left _ hx)

/-- **Nothing is missing.** A message with the property that was sent was received or is in flight. -/
theorem run_perm_filter {p : α → Bool} (h : run step empty as = some m)
    (hG : Meets step (Keeps p) empty as) :
    ((m.received ++ m.inFlight).filter p).Perm (m.sent.filter p) :=
  run_invariant_of_meets (I := fun m => ((m.received ++ m.inFlight).filter p).Perm (m.sent.filter p))
    (List.Perm.refl []) (fun _ _ _ hm hG hm' => perm_filter_step hm hG hm') hG h

end Mailbox
