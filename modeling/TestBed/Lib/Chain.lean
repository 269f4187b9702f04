import Mathlib.Data.List.Basic
import Mathlib.Logic.Function.Basic

/-!
# Chains of pointers

`Spells next p xs` says that following `next` from the pointer `p` visits the nodes `xs` in order and
ends in null. A pointer spells at most one list (`Spells.unique`); writes to nodes that are not on the
chain leave it in place (`Spells.congr`); and making the last node point to a new one appends it
(`Spells.snoc`). A walk along a chain finds what a search of the list finds (`Spells.walk`).
-/

namespace Chain

variable {ν : Type}

def Spells (next : ν → Option ν) : Option ν → List ν → Prop
  | p, [] => p = none
  | p, x :: xs => p = some x ∧ Spells next (next x) xs

instance decidableSpells [DecidableEq ν] (next : ν → Option ν) :
    ∀ (p : Option ν) (xs : List ν), Decidable (Spells next p xs)
  | p, [] => inferInstanceAs (Decidable (p = none))
  | p, x :: xs =>
    have := decidableSpells next (next x) xs
    inferInstanceAs (Decidable (p = some x ∧ _))

variable {next next' : ν → Option ν} {p : Option ν} {xs ys : List ν}

@[simp] theorem spells_nil : Spells next p [] ↔ p = none := Iff.rfl

@[simp] theorem spells_cons {x : ν} :
    Spells next p (x :: xs) ↔ p = some x ∧ Spells next (next x) xs := Iff.rfl

theorem Spells.head (h : Spells next p xs) : p = xs.head? := by
  cases xs with
  | nil => exact h
  | cons x xs => exact h.1

theorem Spells.unique (h : Spells next p xs) (h' : Spells next p ys) : xs = ys := by
  induction xs generalizing p ys with
  | nil =>
    cases ys with
    | nil => rfl
    | cons y ys =>
      obtain ⟨hp, -⟩ := h'
      cases h.symm.trans hp
  | cons x xs ih =>
    obtain ⟨hp, hxs⟩ := h
    cases ys with
    | nil => cases hp.symm.trans h'
    | cons y ys =>
      obtain ⟨hp', hys⟩ := h'
      obtain rfl : x = y := Option.some.inj (hp.symm.trans hp')
      rw [ih hxs hys]

theorem Spells.congr (h : Spells next p xs) (heq : ∀ x ∈ xs, next' x = next x) :
    Spells next' p xs := by
  induction xs generalizing p with
  | nil => exact h
  | cons x xs ih =>
    obtain ⟨hx, hxs⟩ := List.forall_mem_cons.mp heq
    refine ⟨h.1, ?_⟩
    rw [hx]
    exact ih h.2 hxs

theorem Spells.snoc [DecidableEq ν] {e y : ν} (h : Spells next p (xs ++ [e]))
    (hnodup : (xs ++ [e]).Nodup) (hy : y ∉ xs ++ [e]) (hnext : next y = none) :
    Spells (Function.update next e (some y)) p (xs ++ [e, y]) := by
  induction xs generalizing p with
  | nil =>
    have hye : y ≠ e := by simpa using hy
    refine ⟨h.1, ?_⟩
    simp [Function.update_of_ne hye, hnext]
  | cons x xs ih =>
    obtain ⟨hx, hnodup⟩ := List.nodup_cons.mp hnodup
    have hxe : x ≠ e := by
      rintro rfl
      simp at hx
    refine ⟨h.1, ?_⟩
    rw [Function.update_of_ne hxe]
    exact ih h.2 hnodup (fun hmem => hy (List.mem_cons_of_mem x hmem))

/-! ## Walking a chain -/

/-- The first node from `p` on that passes the test. The inner `none` is null, the outer one a walk that
has taken `fuel` turns and is still going. -/
def walk (next : ν → Option ν) (test : ν → Bool) : Nat → Option ν → Option (Option ν)
  | 0, _ => none
  | _ + 1, none => some none
  | fuel + 1, some x => if test x then some (some x) else walk next test fuel (next x)

/-- On a chain the walk ends, with what a search of the list finds. -/
theorem Spells.walk {test : ν → Bool} {fuel : Nat} (h : Spells next p xs)
    (hfuel : xs.length < fuel) : walk next test fuel p = some (xs.find? test) := by
  induction xs generalizing p fuel with
  | nil =>
    obtain ⟨fuel, rfl⟩ := Nat.exists_eq_succ_of_ne_zero (Nat.ne_of_gt hfuel)
    rw [spells_nil.mp h]
    rfl
  | cons x xs ih =>
    obtain ⟨hx, hxs⟩ := h
    obtain ⟨fuel, rfl⟩ := Nat.exists_eq_succ_of_ne_zero (Nat.ne_of_gt (Nat.zero_lt_of_lt hfuel))
    have hshort : xs.length < fuel := by simpa using hfuel
    rw [hx, Chain.walk, List.find?_cons]
    by_cases htest : test x = true
    · simp [htest]
    · simpa [htest] using ih hxs hshort

end Chain
