import TestBed.Lib.Transition
import Mathlib.Algebra.Order.BigOperators.Group.List
import Mathlib.Algebra.Ring.Int.Defs

/-!
# An unreliable link

Amounts are sent into a link that may hold them for any time, deliver them in any order and lose
them. Nothing is received that was not sent (`received_le_sent`), and nothing but what is still in
flight is missing if nothing of value was lost (`received_add_inFlight`).
-/

namespace Link

open Transition

structure State where
  sent : Int
  inFlight : List Int
  received : Int
  deriving DecidableEq, Repr

inductive Act
  | send (n : Int)
  | deliver (i : Nat)
  | lose (i : Nat)
  deriving DecidableEq, Repr

def step (s : State) : Act → Option State
  | .send n =>
    if 0 ≤ n then some { s with sent := s.sent + n, inFlight := s.inFlight ++ [n] } else none
  | .deliver i =>
    s.inFlight[i]?.map fun n =>
      { s with received := s.received + n, inFlight := s.inFlight.eraseIdx i }
  | .lose i => s.inFlight[i]?.map fun _ => { s with inFlight := s.inFlight.eraseIdx i }

def empty : State := ⟨0, [], 0⟩

def LosesNothing (s : State) : Act → Prop
  | .lose i => s.inFlight[i]? = some 0
  | _ => True

theorem sum_eraseIdx {ns : List Int} {i : Nat} {n : Int} (h : ns[i]? = some n) :
    (ns.eraseIdx i).sum + n = ns.sum := by
  obtain ⟨hi, rfl⟩ := List.getElem?_eq_some_iff.mp h
  rw [Int.add_comm]
  exact List.CommMonoid.add_sum_eraseIdx hi

structure Balanced (s : State) : Prop where
  inFlight : ∀ n ∈ s.inFlight, 0 ≤ n
  le : s.received + s.inFlight.sum ≤ s.sent

theorem Balanced.step {s t : State} {a : Act} (hs : Balanced s) (h : step s a = some t) :
    Balanced t := by
  have hle := hs.le
  cases a with
  | send n =>
    simp only [Link.step] at h
    split at h <;> cases h
    next hn =>
    refine ⟨?_, by simp; omega⟩
    intro m hm
    rcases List.mem_append.mp hm with hm | hm
    · exact hs.inFlight m hm
    · exact List.mem_singleton.mp hm ▸ hn
  | deliver i =>
    obtain ⟨n, hn, rfl⟩ := Option.map_eq_some_iff.mp h
    have hsum := sum_eraseIdx hn
    exact ⟨fun m hm => hs.inFlight m (List.mem_of_mem_eraseIdx hm), by dsimp only; omega⟩
  | lose i =>
    obtain ⟨n, hn, rfl⟩ := Option.map_eq_some_iff.mp h
    have hsum := sum_eraseIdx hn
    have hpos := hs.inFlight n (List.mem_of_getElem? hn)
    exact ⟨fun m hm => hs.inFlight m (List.mem_of_mem_eraseIdx hm), by dsimp only; omega⟩

theorem run_balanced {as : List Act} {s : State} (h : run step empty as = some s) : Balanced s :=
  run_invariant (I := Balanced) ⟨by simp [empty], by simp [empty]⟩
    (fun _ _ _ hs ht => hs.step ht) h

/-- **Nothing is received that was not sent.** -/
theorem received_le_sent {as : List Act} {s : State} (h : run step empty as = some s) :
    s.received ≤ s.sent := by
  have hs := run_balanced h
  have hsum := List.sum_nonneg hs.inFlight
  have hle := hs.le
  omega

/-- **Nothing is missing.** What was not received is in flight, if only empty amounts were lost. -/
theorem received_add_inFlight {as : List Act} {s : State} (h : run step empty as = some s)
    (hlose : Meets step LosesNothing empty as) : s.received + s.inFlight.sum = s.sent := by
  refine run_invariant_of_meets (I := fun s => s.received + s.inFlight.sum = s.sent) rfl ?_ hlose h
  intro s a t hs hG ht
  cases a with
  | send n =>
    simp only [step] at ht
    split at ht <;> cases ht
    simp
    omega
  | deliver i =>
    obtain ⟨n, hn, rfl⟩ := Option.map_eq_some_iff.mp ht
    have hsum := sum_eraseIdx hn
    dsimp only
    omega
  | lose i =>
    obtain ⟨n, hn, rfl⟩ := Option.map_eq_some_iff.mp ht
    have hsum := sum_eraseIdx hn
    obtain rfl : n = 0 := Option.some.inj (hn.symm.trans hG)
    dsimp only
    omega

end Link
