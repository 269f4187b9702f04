import TestBed.Lib.Transition
import Mathlib.Data.List.Perm.Subperm

/-!
# A bounded byte stream

A writer puts elements into a pipe with room for `cap` of them, a reader takes them out at the other
end, in pieces of any length; the writer ends the stream. In between the pipe may lose elements and
change their order (`disturb`).

Whatever it does, what was read and what is in flight are among the elements written
(`run_subperm`). A pipe that is left alone keeps their order and loses nothing (`run_intact`), so the
reader that finds the stream at its end has everything.
-/

universe u

open Transition

structure Pipe (α : Type u) where
  sent : List α
  inFlight : List α
  got : List α
  ended : Bool
  deriving DecidableEq, Repr

namespace Pipe

variable {α : Type u}

inductive Act (α : Type u)
  | write (xs : List α)
  | finish
  | read (n : Nat)
  | disturb (xs : List α)
  deriving DecidableEq, Repr

def empty : Pipe α := ⟨[], [], [], false⟩

/-- Nothing is left and nothing will come. -/
def atEnd (p : Pipe α) : Bool := p.ended && p.inFlight.isEmpty

def step [DecidableEq α] (cap : Nat) (p : Pipe α) : Act α → Option (Pipe α)
  | .write xs =>
    if p.ended = false ∧ p.inFlight.length + xs.length ≤ cap then
      some { p with sent := p.sent ++ xs, inFlight := p.inFlight ++ xs }
    else none
  | .finish => some { p with ended := true }
  | .read n =>
    if n ≤ p.inFlight.length then
      some { p with got := p.got ++ p.inFlight.take n, inFlight := p.inFlight.drop n }
    else none
  | .disturb xs => if xs.Subperm p.inFlight then some { p with inFlight := xs } else none

/-- The pipe is left alone. -/
def Undisturbed (_ : Pipe α) : Act α → Prop
  | .disturb _ => False
  | _ => True

theorem atEnd_iff {p : Pipe α} : p.atEnd = true ↔ p.ended = true ∧ p.inFlight = [] := by
  simp [atEnd]

/-! ## What one act does -/

section Step

variable [DecidableEq α] {cap : Nat} {p q : Pipe α}

theorem write_eq_some {xs : List α} (h : step cap p (.write xs) = some q) :
    (p.ended = false ∧ p.inFlight.length + xs.length ≤ cap) ∧
      q = { p with sent := p.sent ++ xs, inFlight := p.inFlight ++ xs } := by
  simp only [step] at h
  split at h <;> cases h
  next hroom => exact ⟨hroom, rfl⟩

theorem read_eq_some {n : Nat} (h : step cap p (.read n) = some q) :
    n ≤ p.inFlight.length ∧
      q = { p with got := p.got ++ p.inFlight.take n, inFlight := p.inFlight.drop n } := by
  simp only [step] at h
  split at h <;> cases h
  next hn => exact ⟨hn, rfl⟩

theorem disturb_eq_some {xs : List α} (h : step cap p (.disturb xs) = some q) :
    xs.Subperm p.inFlight ∧ q = { p with inFlight := xs } := by
  simp only [step] at h
  split at h <;> cases h
  next hsub => exact ⟨hsub, rfl⟩

theorem subperm_step {a : Act α} (hp : (p.got ++ p.inFlight).Subperm p.sent)
    (h : step cap p a = some q) : (q.got ++ q.inFlight).Subperm q.sent := by
  cases a with
  | write xs =>
    obtain ⟨-, rfl⟩ := write_eq_some h
    rw [← List.append_assoc]
    exact hp.append (List.Subperm.refl xs)
  | finish =>
    cases h
    exact hp
  | read n =>
    obtain ⟨-, rfl⟩ := read_eq_some h
    rw [List.append_assoc, List.take_append_drop]
    exact hp
  | disturb xs =>
    obtain ⟨hsub, rfl⟩ := disturb_eq_some h
    exact ((List.Subperm.refl p.got).append hsub).trans hp

theorem intact_step {a : Act α} (hp : p.got ++ p.inFlight = p.sent) (ha : Undisturbed p a)
    (h : step cap p a = some q) : q.got ++ q.inFlight = q.sent := by
  cases a with
  | write xs =>
    obtain ⟨-, rfl⟩ := write_eq_some h
    rw [← List.append_assoc, hp]
  | finish =>
    cases h
    exact hp
  | read n =>
    obtain ⟨-, rfl⟩ := read_eq_some h
    rw [List.append_assoc, List.take_append_drop]
    exact hp
  | disturb xs => exact ha.elim

/-- The end of the stream is final. -/
theorem atEnd_step {a : Act α} (hp : p.atEnd = true) (ha : Undisturbed p a)
    (h : step cap p a = some q) : q.atEnd = true := by
  obtain ⟨hended, hempty⟩ := atEnd_iff.mp hp
  rw [atEnd_iff]
  cases a with
  | write xs =>
    obtain ⟨⟨hopen, -⟩, -⟩ := write_eq_some h
    rw [hended] at hopen
    cases hopen
  | finish =>
    cases h
    exact ⟨rfl, hempty⟩
  | read n =>
    obtain ⟨-, rfl⟩ := read_eq_some h
    exact ⟨hended, by simp [hempty]⟩
  | disturb xs => exact ha.elim

end Step

/-! ## Whole runs -/

section Run

variable [DecidableEq α] {cap : Nat} {p : Pipe α} {as : List (Act α)}

/-- **Nothing is made up.** What was read and what is in flight are elements that were written. -/
theorem run_subperm (h : run (step cap) empty as = some p) :
    (p.got ++ p.inFlight).Subperm p.sent :=
  run_invariant (I := fun p => (p.got ++ p.inFlight).Subperm p.sent) (List.Subperm.refl [])
    (fun _ _ _ hp hq => subperm_step hp hq) h

theorem run_length_le (h : run (step cap) empty as = some p) :
    p.got.length + p.inFlight.length ≤ p.sent.length := by
  rw [← List.length_append]
  exact (run_subperm h).length_le

/-- **A pipe left alone loses nothing and keeps the order.** -/
theorem run_intact (h : run (step cap) empty as = some p)
    (hleft : Meets (step cap) Undisturbed empty as) : p.got ++ p.inFlight = p.sent :=
  run_invariant_of_meets (I := fun p => p.got ++ p.inFlight = p.sent) rfl
    (fun _ _ _ hp ha hq => intact_step hp ha hq) hleft h

end Run

/-- A reader at the end has everything. -/
theorem got_eq_sent {p : Pipe α} (hp : p.got ++ p.inFlight = p.sent) (hend : p.atEnd = true) :
    p.got = p.sent := by
  rw [← hp, (atEnd_iff.mp hend).2, List.append_nil]

end Pipe
