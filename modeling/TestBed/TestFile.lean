import TestBed.Basic

/-!
# Loading the test file

`tb_create_test_file` and `tb_load_test_file` over a model of stdio: a readable file has contents and
may be seekable; `fseek` returns 0 or -1; `fread` returns the number of bytes it has read. The data of
a random file is up to the argument `random`.
-/

namespace TestBed

open CInt

structure File where
  contents : List UInt8
  seekable : Bool
  deriving DecidableEq, Repr

structure Stream where
  file : File
  pos : Nat
  deriving DecidableEq, Repr

abbrev Files := String → Option File

def eof : Int := -1

def fopen (files : Files) (name : String) : Option Stream := (files name).map fun f => ⟨f, 0⟩

/-- `fseek(fp, 0, SEEK_END)` -/
def fseekEnd (fp : Stream) : Stream × Int :=
  if fp.file.seekable then ({ fp with pos := fp.file.contents.length }, 0) else (fp, -1)

/-- `fseek(fp, 0, SEEK_SET)` -/
def fseekSet (fp : Stream) : Stream × Int :=
  if fp.file.seekable then ({ fp with pos := 0 }, 0) else (fp, -1)

/-- The first `n` bytes from the position on, and their number. -/
def fread (fp : Stream) (n : Nat) : List UInt8 × Int :=
  let bytes := (fp.file.contents.drop fp.pos).take n
  (bytes, bytes.length)

/-- A block of `n` bytes; what `malloc` leaves in it is 0 here. -/
def malloc (n : Nat) : List UInt8 := List.replicate n 0

def overwrite (block bytes : List UInt8) : List UInt8 := bytes ++ block.drop bytes.length

/-- `tb_load_test_file`: the block returned, `none` for `NULL`, and the value left in `*file_size`. -/
def tbLoadTestFile (files : Files) (fileName : String) (fileSize : Int) :
    Option (List UInt8) × Int :=
  match fopen files fileName with
  | none => (none, fileSize)
  | some fp =>
    let (fp, fileSize) := fseekEnd fp
    if fileSize = eof then (none, fileSize)
    else
      let (fp, _) := fseekSet fp
      let n := asSizeT fileSize
      let data := malloc n.toNat
      let (bytes, rc) := fread fp n.toNat
      if asSizeT rc = asSizeT eof then (none, fileSize)
      else (some (overwrite data bytes), fileSize)

/-- `tb_create_test_file`; its callers never pass a null `file_size`. -/
def tbCreateTestFile (files : Files) (random : Int → Option (List UInt8))
    (fileName : Option String) (fileSize : Int) : Option (List UInt8) × Int :=
  match fileName with
  | some name => tbLoadTestFile files name fileSize
  | none => (random fileSize, fileSize)

def tbClientLoad (files : Files) (random : Int → Option (List UInt8)) (l : Listener) : Listener :=
  let r := tbCreateTestFile files random l.filename l.fileSize
  { l with data := r.1, fileSize := r.2 }

/-- A seekable file is loaded as an empty block: the size is what `fseek` returned. -/
theorem tbLoadTestFile_seekable {files : Files} {name : String} {contents : List UInt8}
    (hfile : files name = some ⟨contents, true⟩) (fileSize : Int) :
    tbLoadTestFile files name fileSize = (some [], 0) := by
  simp [tbLoadTestFile, fopen, hfile, fseekEnd, fseekSet, fread, malloc, overwrite, eof, asSizeT]

end TestBed
