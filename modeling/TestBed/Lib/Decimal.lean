import Mathlib.Algebra.Group.Nat.Defs
import Mathlib.Algebra.Ring.Int.Defs
import Mathlib.Logic.Function.Basic

/-!
# Decimal text

The text that `%d` prints. Distinct numbers have distinct texts (`decimal_injective`), and the length of
the text bounds the number (`length_decimal_le_iff`).
-/

namespace Decimal

def decimal (n : Int) : List Char :=
  if n < 0 then '-' :: Nat.toDigits 10 n.natAbs else Nat.toDigits 10 n.natAbs

theorem toDigits_injective : Function.Injective (Nat.toDigits 10) := by
  intro m n h
  have hvalue := congrArg (fun ds => Nat.ofDigitChars 10 ds 0) h
  simpa only [Nat.ofDigitChars_ten_toDigits] using hvalue

/-- A number without a sign does not begin with one. -/
theorem minus_not_mem_toDigits {n : Nat} : '-' ∉ Nat.toDigits 10 n := by
  intro h
  have hdigit := Nat.isDigit_of_mem_toDigits (b := 10) (by decide) (by decide) h
  cases hdigit

theorem decimal_injective : Function.Injective decimal := by
  intro m n h
  unfold decimal at h
  by_cases hm : m < 0 <;> by_cases hn : n < 0
  · rw [if_pos hm, if_pos hn] at h
    have habs := toDigits_injective (List.tail_eq_of_cons_eq h)
    omega
  · rw [if_pos hm, if_neg hn] at h
    exact absurd (h ▸ List.mem_cons_self) minus_not_mem_toDigits
  · rw [if_neg hm, if_pos hn] at h
    exact absurd (h ▸ List.mem_cons_self) minus_not_mem_toDigits
  · rw [if_neg hm, if_neg hn] at h
    have habs := toDigits_injective h
    omega

theorem length_decimal_le_iff {n : Int} {k : Nat} (hn : 0 ≤ n) (hk : 0 < k) :
    (decimal n).length ≤ k ↔ n < 10 ^ k := by
  obtain ⟨m, rfl⟩ := Int.eq_ofNat_of_zero_le hn
  unfold decimal
  rw [if_neg (Int.not_lt.mpr hn), Int.natAbs_natCast,
    Nat.length_toDigits_le_iff (by decide) hk]
  exact_mod_cast Iff.rfl

/-- The sign takes one more place. -/
theorem length_decimal_le {n : Int} {k : Nat} (hk : 0 < k) (hn : n.natAbs < 10 ^ k) :
    (decimal n).length ≤ k + 1 := by
  have hdigits := (Nat.length_toDigits_le_iff (b := 10) (by decide) hk).mpr hn
  unfold decimal
  split
  · exact Nat.succ_le_succ hdigits
  · exact Nat.le_succ_of_le hdigits

end Decimal
