import Mathlib.Data.List.Basic

/-!
# Slices of a list and lists of pieces that tile an interval

`slice xs a n` is the piece of `n` elements that starts at `a`. `Tiles a ps b` says that the pieces
`ps` (each an offset and a length) follow one another without gap or overlap from `a` up to `b`;
the slices they cut then concatenate to the one slice from `a` to `b` (`Tiles.flatMap_slice`).
-/

namespace Slice

universe u

variable {α : Type u}

/-- The `n` elements of `xs` from position `a` on. -/
def slice (xs : List α) (a n : Nat) : List α := (xs.drop a).take n

@[simp] theorem slice_zero (xs : List α) (a : Nat) : slice xs a 0 = [] := by
  simp [slice]

theorem slice_length {xs : List α} {a n : Nat} (h : a + n ≤ xs.length) :
    (slice xs a n).length = n := by
  simp [slice]
  omega

@[simp] theorem slice_self (xs : List α) : slice xs 0 xs.length = xs := by
  simp [slice]

theorem slice_append (xs : List α) (a n m : Nat) :
    slice xs a n ++ slice xs (a + n) m = slice xs a (n + m) := by
  simp only [slice]
  rw [List.take_add, List.drop_drop]

theorem take_slice (xs : List α) (a n : Nat) {m : Nat} (h : m ≤ n) :
    (slice xs a n).take m = slice xs a m := by
  simp only [slice, List.take_take, Nat.min_eq_left h]

/-- The pieces `ps` follow one another from `a` up to `b`. -/
def Tiles : Nat → List (Nat × Nat) → Nat → Prop
  | a, [], b => a = b
  | a, p :: ps, b => p.1 = a ∧ Tiles (a + p.2) ps b

@[simp] theorem tiles_nil {a b : Nat} : Tiles a [] b ↔ a = b := Iff.rfl

@[simp] theorem tiles_cons {a b : Nat} {p : Nat × Nat} {ps : List (Nat × Nat)} :
    Tiles a (p :: ps) b ↔ p.1 = a ∧ Tiles (a + p.2) ps b := Iff.rfl

theorem Tiles.le {a b : Nat} {ps : List (Nat × Nat)} (h : Tiles a ps b) : a ≤ b := by
  induction ps generalizing a with
  | nil => exact Nat.le_of_eq h
  | cons p ps ih => exact Nat.le_trans (Nat.le_add_right a p.2) (ih h.2)

theorem Tiles.append {a b c : Nat} {ps qs : List (Nat × Nat)} (h : Tiles a ps b)
    (h' : Tiles b qs c) : Tiles a (ps ++ qs) c := by
  induction ps generalizing a with
  | nil =>
    rw [tiles_nil] at h
    exact h ▸ h'
  | cons p ps ih => exact ⟨h.1, ih h.2⟩

theorem Tiles.concat {a b : Nat} {ps : List (Nat × Nat)} (h : Tiles a ps b) (n : Nat) :
    Tiles a (ps ++ [(b, n)]) (b + n) :=
  h.append ⟨rfl, rfl⟩

/-- **Tiling.** The slices cut by a tiling of `[a, b)` concatenate to the slice from `a` to `b`. -/
theorem Tiles.flatMap_slice {a b : Nat} {ps : List (Nat × Nat)} (h : Tiles a ps b)
    (xs : List α) : ps.flatMap (fun p => slice xs p.1 p.2) = slice xs a (b - a) := by
  induction ps generalizing a with
  | nil =>
    rw [tiles_nil] at h
    simp [h]
  | cons p ps ih =>
    obtain ⟨rfl, h⟩ := h
    have hle := h.le
    rw [List.flatMap_cons, ih h, slice_append]
    congr 1
    omega

/-- Concatenations of pieces of pairwise equal lengths agree exactly where all pieces do. -/
theorem flatMap_eq_flatMap_iff {β : Type u} {ps : List α} {f g : α → List β}
    (hlen : ∀ p ∈ ps, (f p).length = (g p).length) :
    ps.flatMap f = ps.flatMap g ↔ ∀ p ∈ ps, f p = g p := by
  induction ps with
  | nil => simp
  | cons p ps ih =>
    have ih := ih fun q hq => hlen q (List.mem_cons_of_mem p hq)
    rw [List.flatMap_cons, List.flatMap_cons, List.forall_mem_cons, ← ih]
    constructor
    · intro h
      exact List.append_inj h (hlen p List.mem_cons_self)
    · rintro ⟨hhead, htail⟩
      rw [hhead, htail]

/-- The pieces of `n` equal lengths tile the interval they span. -/
theorem tiles_equal (k n : Nat) :
    Tiles 0 ((List.range n).map fun i => (k * i, k)) (k * n) := by
  induction n with
  | zero => simp
  | succ n ih =>
    rw [List.range_succ, List.map_append, Nat.mul_succ]
    exact ih.concat k

end Slice
