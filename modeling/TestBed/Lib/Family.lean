import TestBed.Lib.Transition
import Mathlib.Algebra.Order.BigOperators.Group.List
import Mathlib.Algebra.GroupWithZero.Nat
import Mathlib.Algebra.Order.Group.Nat
import Mathlib.Algebra.Ring.Int.Defs
import Mathlib.Data.List.Perm.Subperm
import Mathlib.Data.List.Nodup
import Mathlib.Logic.Function.Basic

/-!
# Families of independent systems

`family step` is one copy of a system for each index; a label says which copy moves. A run of the family
is a run of every copy (`run_family`), so what holds of every run of one copy holds of each.

The sum of what a list of different indices contributes is bounded by the sum over all of them
(`sum_map_le_of_nodup`).
-/

universe u v w

namespace Transition

variable {σ : Type u} {ℓ : Type v} {ι : Type w} [DecidableEq ι] {step : σ → ℓ → Option σ}

def family (step : σ → ℓ → Option σ) (f : ι → σ) (l : ι × ℓ) : Option (ι → σ) :=
  (step (f l.1) l.2).map (Function.update f l.1)

theorem family_eq_some {f g : ι → σ} {i : ι} {l : ℓ} (h : family step f (i, l) = some g) :
    step (f i) l = some (g i) ∧ ∀ j, j ≠ i → g j = f j := by
  obtain ⟨t, ht, rfl⟩ := Option.map_eq_some_iff.mp h
  exact ⟨by simpa using ht, fun j hj => Function.update_of_ne hj t f⟩

theorem run_family_single {f g : ι → σ} {i : ι} {l : ℓ}
    (h : run (family step) f [(i, l)] = some g) :
    step (f i) l = some (g i) ∧ ∀ j, j ≠ i → g j = f j := by
  rw [run_cons] at h
  obtain ⟨g', hg, hrest⟩ := Option.bind_eq_some_iff.mp h
  obtain rfl : g' = g := Option.some.inj hrest
  exact family_eq_some hg

/-- The labels of copy `i`. -/
def ofCopy (i : ι) (ls : List (ι × ℓ)) : List ℓ :=
  ls.filterMap fun l => if l.1 = i then some l.2 else none

theorem ofCopy_append (i : ι) (ls ls' : List (ι × ℓ)) :
    ofCopy i (ls ++ ls') = ofCopy i ls ++ ofCopy i ls' := List.filterMap_append

theorem mem_ofCopy {i : ι} {ls : List (ι × ℓ)} {l : ℓ} : l ∈ ofCopy i ls ↔ (i, l) ∈ ls := by
  simp only [ofCopy, List.mem_filterMap, Option.ite_none_right_eq_some, Option.some.injEq,
    Prod.exists]
  constructor
  · rintro ⟨j, m, hmem, rfl, rfl⟩
    exact hmem
  · exact fun hmem => ⟨i, l, hmem, rfl, rfl⟩

/-- **A run of the family is a run of every copy.** -/
theorem run_family {f g : ι → σ} {ls : List (ι × ℓ)} (h : run (family step) f ls = some g)
    (i : ι) : run step (f i) (ofCopy i ls) = some (g i) := by
  refine run_induction (P := fun ls g => run step (f i) (ofCopy i ls) = some (g i)) rfl ?_ h
  intro ls g ⟨j, l⟩ g' _ ih hl
  obtain ⟨hstep, hrest⟩ := family_eq_some hl
  rw [ofCopy_append]
  by_cases hij : j = i
  · subst hij
    have hone : ofCopy j [(j, l)] = [l] := by simp [ofCopy]
    rw [hone]
    exact run_concat_eq_some.mpr ⟨g j, ih, hstep⟩
  · have hnone : ofCopy i [(j, l)] = [] := by simp [ofCopy, hij]
    rw [hnone, List.append_nil, ih, hrest i (Ne.symm hij)]

end Transition

namespace Family

variable {ι : Type w} {is js : List ι} {f : ι → Nat}

theorem subperm_map (h : is.Subperm js) : (is.map f).Subperm (js.map f) := by
  obtain ⟨ks, hperm, hsub⟩ := h
  exact ⟨ks.map f, hperm.map f, hsub.map f⟩

theorem sum_le_of_subperm {xs ys : List Nat} (h : xs.Subperm ys) : xs.sum ≤ ys.sum := by
  obtain ⟨zs, hperm, hsub⟩ := h
  rw [← hperm.sum_eq]
  exact hsub.sum_le_sum fun _ _ => Nat.zero_le _

/-- Different indices contribute no more than all of them. -/
theorem sum_map_le_of_nodup (hnodup : is.Nodup) (hsub : ∀ i ∈ is, i ∈ js) :
    (is.map f).sum ≤ (js.map f).sum :=
  sum_le_of_subperm (subperm_map (hnodup.subperm hsub))

theorem sum_map_mono {g : ι → Nat} (h : ∀ i ∈ is, f i ≤ g i) : (is.map f).sum ≤ (is.map g).sum :=
  List.sum_le_sum h

theorem natCast_sum_map (is : List ι) (f : ι → Nat) :
    (((is.map f).sum : Nat) : Int) = (is.map fun i => (f i : Int)).sum := by
  induction is with
  | nil => rfl
  | cons i is ih =>
    rw [List.map_cons, List.map_cons, List.sum_cons, List.sum_cons, ← ih]
    exact Int.natCast_add _ _

/-- A list is what its places hold. -/
theorem map_getElem?_range {α : Type u} (xs : List α) (x : α) :
    (List.range xs.length).map (fun i => (xs[i]?).getD x) = xs := by
  apply List.ext_getElem?
  intro i
  rw [List.getElem?_map]
  by_cases hi : i < xs.length
  · simp [List.getElem?_range hi, List.getElem?_eq_getElem hi]
  · rw [List.getElem?_eq_none (by simpa using hi), List.getElem?_eq_none (by omega)]
    rfl

/-- Where one member contributes more, all together contribute as much more. -/
theorem flatMap_set_perm {α : Type u} {β : Type v} {xs : List α} {k : Nat} {x y : α}
    (hx : xs[k]? = some x) {g : α → List β} {zs : List β} (hy : g y = g x ++ zs) :
    ((xs.set k y).flatMap g).Perm (xs.flatMap g ++ zs) := by
  induction xs generalizing k with
  | nil => cases hx
  | cons a xs ih =>
    cases k with
    | zero =>
      cases hx
      simp only [List.set_cons_zero, List.flatMap_cons, hy, List.append_assoc]
      exact List.perm_append_comm.append_left _
    | succ k =>
      simp only [List.set_cons_succ, List.flatMap_cons, List.append_assoc]
      exact (ih hx).append_left _

end Family
