import TestBed.CommandLine
import TestBed.RandomFile

/-!
# From kilobytes to the name of the cache file

Both set-ups multiply the size in KB by 1024 in an `int`, and `tb_load_random_file` prints the product into
a buffer of ten bytes. The text with its terminator fits up to 976562 KB; the product fits a little longer
(`exactSize_iff`).
-/

namespace TestBed.FileSize

open CInt Decimal Setup RandomFile

/-- The listener `l` was set up to send `kb` KB. -/
inductive SetsSize (kb : Int) : TbListener → Prop
  | parse (junk : Int) (argv : List String) {text : String} {l : TbListener} {initialised : Bool}
    (hsize : argv[6]? = some "size") (htext : argv[7]? = some text)
    (hscan : scanInt text = some kb) (hclient : isClient l.eType = true)
    (hstart : tbParseOutcome junk argv = .ok (l, initialised)) : SetsSize kb l
  | create (params : TestParams) {l : TbListener} (hsize : params.dSize = kb)
    (hcreate : tbCreateEndpoint params = some l) : SetsSize kb l

/-- The size in bytes is exact, its text fits into `num_str` and the name into `cat_str`, and no other size
has the same name. -/
structure ExactSize (kb fileSize : Int) : Prop where
  product : fileSize = 1024 * kb
  fitsNumStr : (numStr fileSize).length + 1 ≤ 10
  fitsCatStr : catStr fileSize = numStr fileSize ++ ".ran".toList ∧ (catStr fileSize).length + 1 ≤ 20
  distinct : ∀ size, -2 ^ 31 ≤ size → size < 2 ^ 31 → catStr size = catStr fileSize → size = fileSize

/-! ## The product -/

/-- A client that is told its size has it as the product. -/
theorem parseFile_size {argv : List String} {text : String} {kb : Int} {l l' : TbListener}
    (hsize : argv[6]? = some "size") (htext : argv[7]? = some text)
    (hscan : scanInt text = some kb) (h : parseFile argv l = some l') :
    l'.fileSize = asInt (1024 * kb) ∧ l'.eType = l.eType := by
  simp only [parseFile, hsize, htext, hscan, Option.bind_eq_bind, Option.bind_some, if_true,
    Option.getD_some, Option.some.injEq] at h
  subst h
  exact ⟨congrArg asInt (Int.mul_comm kb 1024), rfl⟩

theorem SetsSize.fileSize {kb : Int} {l : TbListener} (h : SetsSize kb l) :
    l.fileSize = asInt (1024 * kb) := by
  cases h with
  | parse junk argv hsize htext hscan hclient hstart =>
    rcases tbParseOutcome_cases junk argv with ⟨-, hexit⟩ | ⟨type, l₀, -, -, -, -, -, hout⟩
    · rw [hexit] at hstart
      cases hstart
    rw [hout] at hstart
    obtain ⟨⟨l', hfile, rfl⟩, -⟩ := startListener_eq_ok_iff.mp hstart
    obtain ⟨htype, hkeep, -⟩ := parseBufsize_keeps l'
    have hclient' : isClient l₀.eType = true := by
      by_contra hserver
      rw [if_neg hserver, Option.some.injEq] at hfile
      exact hserver (by rw [hfile, ← htype]; exact hclient)
    rw [if_pos hclient'] at hfile
    exact hkeep.trans (parseFile_size hsize htext hscan hfile).1
  | create params hsize hcreate =>
    rw [Int.mul_comm, ← hsize]
    unfold tbCreateEndpoint at hcreate
    split at hcreate
    · cases hcreate
    split at hcreate
    · cases hcreate
    obtain ⟨l₀, -, hl⟩ := Option.bind_eq_some_iff.mp hcreate
    cases hl
    rfl

/-! ## The texts -/

theorem length_ran : ".ran".toList.length = 4 := by decide

/-- The name is not cut off for any `int`. -/
theorem catStr_eq {size : Int} (h : -2 ^ 31 ≤ size) (h' : size < 2 ^ 31) :
    catStr size = numStr size ++ ".ran".toList ∧ (catStr size).length ≤ 15 := by
  have hdigits : (numStr size).length ≤ 11 := length_decimal_le (by decide) (by omega)
  have hlength : (numStr size ++ ".ran".toList).length ≤ 15 := by
    rw [List.length_append, length_ran]
    omega
  have hcat : catStr size = numStr size ++ ".ran".toList := List.take_of_length_le (by omega)
  exact ⟨hcat, hcat ▸ hlength⟩

theorem catStr_injective {m n : Int} (hm : -2 ^ 31 ≤ m) (hm' : m < 2 ^ 31) (hn : -2 ^ 31 ≤ n)
    (hn' : n < 2 ^ 31) (h : catStr m = catStr n) : m = n := by
  rw [(catStr_eq hm hm').1, (catStr_eq hn hn').1] at h
  exact decimal_injective (List.append_cancel_right h)

/-- **When the sizes stay exact.** A size of at least 1 KB is exact, from the set-up to the name of the
cache file, exactly up to 976562 KB. -/
theorem exactSize_iff (kb : Int) (l : TbListener) (hpos : 1 ≤ kb) (hint : kb < 2 ^ 31)
    (hset : SetsSize kb l) : ExactSize kb l.fileSize ↔ kb ≤ 976562 := by
  have hfile := hset.fileSize
  constructor
  · intro h
    have hsize := h.product
    have htext : (decimal l.fileSize).length ≤ 9 := Nat.le_of_succ_le_succ h.fitsNumStr
    rw [length_decimal_le_iff (by omega) (by decide), hsize] at htext
    omega
  · intro hkb
    have hsize : l.fileSize = 1024 * kb := by rw [hfile, asInt_eq (by omega) (by omega)]
    have hlow : -2 ^ 31 ≤ l.fileSize := by omega
    have hhigh : l.fileSize < 2 ^ 31 := by omega
    obtain ⟨hcat, hlength⟩ := catStr_eq hlow hhigh
    refine ⟨hsize, ?_, ⟨hcat, by omega⟩, fun size h h' heq => ?_⟩
    · have htext : (decimal l.fileSize).length ≤ 9 := by
        rw [length_decimal_le_iff (by omega) (by decide), hsize]
        omega
      exact Nat.succ_le_succ htext
    · exact catStr_injective h h' hlow hhigh heq

/-- 4 KB through the library. -/
theorem exactSize_iff_four : ∃ l, tbCreateEndpoint clientParams = some l ∧
    (ExactSize 4 l.fileSize ↔ (4 : Int) ≤ 976562) :=
  ⟨_, rfl, exactSize_iff 4 _ (by decide) (by decide) (.create clientParams rfl rfl)⟩

/-- The command line of a client that sends so many KB. -/
def sizeArgv (text : String) : List String :=
  ["TestBed", "client", "127.0.0.1", "5000", "tcp", "1408", "size", text]

/-- 976563 KB have ten digits, and `num_str` no room for the terminator; 2 GB are no longer an `int`. -/
theorem large_sizes_overflow :
    (∃ l, tbParse (sizeArgv "976563") = some l ∧ SetsSize 976563 l ∧
      10 ≤ (numStr l.fileSize).length ∧ ¬ ExactSize 976563 l.fileSize) ∧
      ∃ l, tbParse (sizeArgv "2097152") = some l ∧ SetsSize 2097152 l ∧
        l.fileSize = -2147483648 ∧ ¬ ExactSize 2097152 l.fileSize := by
  have hdigits : ¬ (decimal 1000000512).length ≤ 9 := by
    rw [length_decimal_le_iff (by decide) (by decide)]
    decide
  refine ⟨⟨_, rfl, ?_, ?_, fun h => ?_⟩, _, rfl, ?_, ?_, fun h => ?_⟩
  · exact .parse 0 (sizeArgv "976563") rfl rfl rfl rfl rfl
  · exact Nat.lt_of_not_le hdigits
  · exact hdigits (Nat.le_of_succ_le_succ h.fitsNumStr)
  · exact .parse 0 (sizeArgv "2097152") rfl rfl rfl rfl rfl
  · decide
  · exact absurd h.product (by decide)

end TestBed.FileSize
