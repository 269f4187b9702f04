import TestBed.Protocol
import Mathlib.Data.List.TakeWhile

/-!
# The two ways to set up an endpoint

`tb_parse` on a command line and `tb_create_endpoint` on a parameter struct, both over
`tb_create_listener`. What `malloc` leaves in the callbacks of a new listener is `unset`. Logs, the
printing of statistics and the congestion control, which nothing reads, are left out.

The library never sets the callbacks, so no endpoint that it creates is the one that `tb_parse` starts
(`setups_disagree`); the other fields agree for a client with a packet size.
-/

namespace TestBed.Setup

open CInt

/-! ## Listeners -/

/-- The functions that `f_exit` and `f_abort` point to. -/
inductive ListenerFn
  | unset
  | tbExit
  | tbAbort
  deriving DecidableEq, Repr

/-- `tb_options_t` -/
structure Options where
  protocol : Protocol
  l3RBSize : Int
  l3SBSize : Int
  l4SBSize : Int
  l4RBSize : Int
  deriving DecidableEq, Repr

/-- A listener with the fields that only its set-up and `tb_start` use. -/
structure TbListener extends Listener where
  bindPort : String
  bindAddress : String
  protocol : TbProtocol
  options : Options
  dExit : Bool
  fExit : ListenerFn
  fAbort : ListenerFn

def isClient (type : EndpointType) : Bool := type = .client || type = .mClient

/-- `tb_create_listener`; `none` is the `exit(-1)` of `tb_create_protocol`. -/
def tbCreateListener (type : EndpointType) (addr port : String) (protocol : Protocol)
    (bufsize : Int) : Option TbListener := do
  let table ← tbCreateProtocol protocol
  some {
    toListener := TestBed.tbCreateListener type protocol bufsize
    bindPort := port
    bindAddress := addr
    protocol := table
    options := ⟨protocol, 0, 0, 0, 0⟩
    dExit := true
    fExit := .unset
    fAbort := .unset }

/-! ## The command line -/

def isSpace (c : Char) : Bool := c.isWhitespace || c = '\x0b' || c = '\x0c'

/-- A number out of the range of `long` becomes the nearest one in it. -/
def asLong (n : Int) : Int := max (-2 ^ 63) (min n (2 ^ 63 - 1))

/-- The value that `sscanf(s, "%d", ..)` stores, if it stores one: a `long` is read, and converted. -/
def scanInt (s : String) : Option Int :=
  let digits cs :=
    let ds := cs.takeWhile Char.isDigit
    if ds.isEmpty then none else some (Nat.ofDigitChars 10 ds 0 : Int)
  match s.toList.dropWhile isSpace with
  | '-' :: cs => (digits cs).map fun n => asInt (asLong (-n))
  | '+' :: cs => (digits cs).map fun n => asInt (asLong n)
  | cs => (digits cs).map fun n => asInt (asLong n)

/-- The comparisons with `argv[TYPE]`. -/
def parseType (argc : Nat) (arg : String) : Option EndpointType :=
  if arg = "server" then some .server
  else if arg = "client" ∧ argc = 8 then some .client
  else if arg = "mserver" then some .mServer
  else if arg = "mclient" then some .mClient
  else none

/-- The comparisons with `argv[PROT]`. -/
def parseProtocol (arg : String) : Option Protocol :=
  if arg = "tcp" then some .tcp
  else if arg = "udp" then some .udp
  else if arg = "udt" then some .udt
  else if arg = "audt" then some .audt
  else if arg = "utp" then some .utp
  else if arg = "eudp" then some .eudp
  else if arg = "dccp" then some .dccp
  else none

/-- What a client sends, by `argv[FILE_TYPE]` and `argv[FILE_NAME]`. -/
def parseFile (argv : List String) (l : TbListener) : Option TbListener := do
  let fileType ← argv[6]?
  let fileName ← argv[7]?
  if fileType = "size" then
    let size := (scanInt fileName).getD l.fileSize
    some { l with fileSize := asInt (size * 1024) }
  else if fileType = "file" then some { l with filename := some fileName }
  else none

/-- The default for a buffer size of 0. -/
def parseBufsize (l : TbListener) : TbListener :=
  if l.bufsize = 0 then
    if isClient l.eType then { l with bufsize := l.fileSize } else { l with bufsize := 1408 }
  else l

/-- `tb_parse`, as the listener that it hands to `tb_start`; `none` stands for its exits, and for
arguments that are missing or leave `bufsize` unset. -/
def tbParse (argv : List String) : Option TbListener := do
  if argv.length < 6 ∨ argv.length > 8 then none
  else
    let type ← parseType argv.length (← argv[1]?)
    let protocol ← parseProtocol (← argv[4]?)
    let bufsize ← scanInt (← argv[5]?)
    let l ← tbCreateListener type (← argv[2]?) (← argv[3]?) protocol bufsize
    let l ← if isClient l.eType then parseFile argv l else some l
    some { parseBufsize l with dExit := true, fExit := .tbExit, fAbort := .tbAbort }

/-! ## The library -/

/-- `tb_test_params_t` -/
structure TestParams where
  type : EndpointType
  protocol : Protocol
  address : String
  port : String
  l4RBSize : Int
  l4WBSize : Int
  l3RBSize : Int
  l3WBSize : Int
  dSize : Int
  fileName : Option String
  packSize : Int
  deriving DecidableEq, Repr

/-- `tb_create_endpoint`; `none` stands for a failing assertion and for the exit of
`tb_create_protocol`. -/
def tbCreateEndpoint (params : TestParams) : Option TbListener := do
  if params.fileName = none ∧ ¬ params.dSize > 0 then none
  else if params.fileName ≠ none ∧ ¬ params.dSize ≤ 0 then none
  else
    let l ← tbCreateListener params.type params.address params.port params.protocol params.packSize
    some { l with
      fileSize := asInt (params.dSize * 1024)
      filename := params.fileName
      bufsize := if params.packSize = 0 then 1408 else params.packSize
      options := { l.options with
        l3RBSize := params.l3RBSize
        l3SBSize := params.l3WBSize
        l4SBSize := params.l4WBSize
        l4RBSize := params.l4RBSize }
      dExit := false }

/-! ## One specification for both -/

/-- An endpoint that both can describe; `kb` is what a client sends, in KB. -/
structure Spec where
  type : EndpointType
  protocol : Protocol
  address : String
  port : String
  packSize : Nat
  kb : Nat
  supported : (tbCreateProtocol protocol).isSome = true
  packSize_lt : packSize < 2 ^ 31
  kb_pos : 1 ≤ kb
  kb_lt : 1024 * kb < 2 ^ 31

def typeArg : EndpointType → String
  | .server => "server"
  | .client => "client"
  | .mServer => "mserver"
  | .mClient => "mclient"

def protArg : Protocol → String
  | .tcp => "tcp"
  | .udp => "udp"
  | .udt => "udt"
  | .audt => "audt"
  | .utp => "utp"
  | .eudp => "eudp"
  | .dccp => "dccp"

/-- The command line. -/
def Spec.argv (spec : Spec) : List String :=
  ["TestBed", typeArg spec.type, spec.address, spec.port, protArg spec.protocol,
    spec.packSize.repr] ++ if isClient spec.type then ["size", spec.kb.repr] else []

/-- The parameter structs. A client's data size is that of the specification; a server has none, but
the assertions ask for a size or a name all the same. -/
structure Spec.Describes (spec : Spec) (params : TestParams) : Prop where
  type : params.type = spec.type
  protocol : params.protocol = spec.protocol
  address : params.address = spec.address
  port : params.port = spec.port
  options : params.l3RBSize = 0 ∧ params.l3WBSize = 0 ∧ params.l4WBSize = 0 ∧ params.l4RBSize = 0
  packSize : params.packSize = spec.packSize
  data : isClient spec.type = true → params.dSize = spec.kb ∧ params.fileName = none
  dSize_lt : 1024 * params.dSize < 2 ^ 31
  asserted : params.fileName = none ∧ params.dSize > 0 ∨
    params.fileName ≠ none ∧ params.dSize ≤ 0

/-- Two listeners agree on what is read of them, apart from the callbacks. -/
structure SameFields (a b : TbListener) : Prop where
  eType : a.eType = b.eType
  protId : a.protId = b.protId
  protocol : a.protocol = b.protocol
  bindAddress : a.bindAddress = b.bindAddress
  bindPort : a.bindPort = b.bindPort
  bufsize : a.bufsize = b.bufsize
  fileSize : a.fileSize = b.fileSize
  filename : a.filename = b.filename
  options : a.options = b.options

structure Agree (a b : TbListener) : Prop where
  fields : SameFields a b
  fExit : a.fExit = b.fExit
  fAbort : a.fAbort = b.fAbort

/-! ## Reading the arguments -/

theorem scanInt_repr {n : Nat} (h : n < 2 ^ 31) : scanInt n.repr = some (n : Int) := by
  have hdigit : ∀ c ∈ Nat.toDigits 10 n, c.isDigit = true := fun c hc =>
    Nat.isDigit_of_mem_toDigits (by decide) (by decide) hc
  have htake : (Nat.toDigits 10 n).takeWhile Char.isDigit = Nat.toDigits 10 n :=
    List.takeWhile_eq_self_iff.mpr hdigit
  have hvalue : Nat.ofDigitChars 10 (Nat.toDigits 10 n) 0 = n := Nat.ofDigitChars_ten_toDigits
  have hlong : asLong n = n := by
    unfold asLong
    omega
  have hint : asInt n = n := asInt_eq (by omega) (by omega)
  unfold scanInt
  rw [Nat.toList_repr]
  rcases hds : Nat.toDigits 10 n with _ | ⟨c, cs⟩
  · exact absurd hds Nat.toDigits_ne_nil
  · -- a digit is neither a blank nor a sign
    have hc : c.isDigit = true := hdigit c (by simp [hds])
    have hws : isSpace c = false := by
      by_contra hws
      simp only [isSpace, Char.isWhitespace, Bool.not_eq_false, Bool.or_eq_true,
        decide_eq_true_eq] at hws
      rcases hws with ((((rfl | rfl) | rfl) | rfl) | rfl) | rfl <;> cases hc
    have hminus : c ≠ '-' := by rintro rfl; cases hc
    have hplus : c ≠ '+' := by rintro rfl; cases hc
    rw [hds] at htake hvalue
    simp [hws, hminus, hplus, htake, hvalue, hlong, hint]

theorem parseType_typeArg (type : EndpointType) (argc : Nat)
    (h : isClient type = true → argc = 8) : parseType argc (typeArg type) = some type := by
  cases type with
  | client =>
    rw [h rfl]
    decide
  | server => rfl
  | mServer => rfl
  | mClient => rfl

theorem parseProtocol_protArg (protocol : Protocol) :
    parseProtocol (protArg protocol) = some protocol := by
  cases protocol <;> decide

/-! ## The two listeners -/

section Listeners

variable (spec : Spec) {table : TbProtocol} (htable : tbCreateProtocol spec.protocol = some table)

/-- The bytes that a client of the specification sends. -/
def Spec.fileSize : Int := if isClient spec.type then spec.kb * 1024 else 0

/-- The listener before the default of its buffer size. -/
def Spec.loaded (table : TbProtocol) : TbListener where
  toListener := { TestBed.tbCreateListener spec.type spec.protocol spec.packSize with
    fileSize := spec.fileSize }
  bindPort := spec.port
  bindAddress := spec.address
  protocol := table
  options := ⟨spec.protocol, 0, 0, 0, 0⟩
  dExit := true
  fExit := .unset
  fAbort := .unset

include htable in
/-- The listener that `tb_parse` starts. -/
theorem tbParse_argv : tbParse spec.argv = some { parseBufsize (spec.loaded table) with
    dExit := true, fExit := .tbExit, fAbort := .tbAbort } := by
  have hpack := scanInt_repr spec.packSize_lt
  have hprot := parseProtocol_protArg spec.protocol
  cases hclient : isClient spec.type with
  | true =>
    have hlt := spec.kb_lt
    have hkb : scanInt spec.kb.repr = some (spec.kb : Int) := scanInt_repr (by omega)
    have hsize : asInt (spec.kb * 1024) = spec.kb * 1024 := asInt_eq (by omega) (by omega)
    have htype := parseType_typeArg spec.type 8 fun _ => rfl
    simp [tbParse, Spec.argv, hclient, htype, hprot, hpack, hkb, tbCreateListener, htable,
      parseFile, hsize, TestBed.tbCreateListener, Spec.loaded, Spec.fileSize]
  | false =>
    have htype := parseType_typeArg spec.type 6 fun h => by simp [hclient] at h
    simp [tbParse, Spec.argv, hclient, htype, hprot, hpack, tbCreateListener, htable,
      TestBed.tbCreateListener, Spec.loaded, Spec.fileSize]

include htable in
/-- The listener that `tb_create_endpoint` returns. -/
theorem tbCreateEndpoint_eq {params : TestParams} (h : spec.Describes params) :
    tbCreateEndpoint params = some { spec.loaded table with
      fileSize := asInt (params.dSize * 1024)
      filename := params.fileName
      bufsize := if spec.packSize = 0 then 1408 else spec.packSize
      dExit := false } := by
  obtain ⟨hrb, hwb, hrb', hwb'⟩ := h.options
  have hsize : ¬ (params.fileName = none ∧ ¬ params.dSize > 0) := by
    rintro ⟨hname, hd⟩
    rcases h.asserted with hok | hok
    · exact hd hok.2
    · exact hok.1 hname
  have hname : ¬ (params.fileName ≠ none ∧ ¬ params.dSize ≤ 0) := by
    rintro ⟨hname, hd⟩
    rcases h.asserted with hok | hok
    · exact hname hok.1
    · exact hd hok.2
  rw [tbCreateEndpoint, if_neg hsize, if_neg hname]
  simp [tbCreateListener, h.type, h.address, h.port, h.protocol, h.packSize, htable, hrb, hwb,
    hrb', hwb', TestBed.tbCreateListener, Spec.loaded]

theorem parseBufsize_loaded : parseBufsize (spec.loaded table) = { spec.loaded table with
    bufsize :=
      if spec.packSize ≠ 0 then (spec.packSize : Int)
      else if isClient spec.type then spec.fileSize else 1408 } := by
  unfold parseBufsize
  by_cases hzero : spec.packSize = 0
  · cases hclient : isClient spec.type <;>
      simp [Spec.loaded, TestBed.tbCreateListener, hzero, hclient]
  · simp [Spec.loaded, TestBed.tbCreateListener, hzero]

/-- The file is the same for a client; a server's would have to be empty and without a name. -/
theorem sameFile_iff {params : TestParams} (h : spec.Describes params) :
    (spec.fileSize = asInt (params.dSize * 1024) ∧ none = params.fileName) ↔
      isClient spec.type = true := by
  have hlt := h.dSize_lt
  have hkb := spec.kb_lt
  unfold Spec.fileSize
  cases hclient : isClient spec.type with
  | true =>
    obtain ⟨hsize, hname⟩ := h.data hclient
    rw [hsize, hname, asInt_eq (by omega) (by omega)]
    simp
  | false =>
    simp only [Bool.false_eq_true, if_false, iff_false]
    rintro ⟨hsize, hname⟩
    rcases h.asserted with hok | hok
    · rw [asInt_eq (by omega) (by omega)] at hsize
      omega
    · exact hok.1 hname.symm

end Listeners

/-- **The two set-ups never agree.** Whatever the specification, the library leaves `f_exit` and
`f_abort` as `malloc` does; the other fields agree exactly for a client with a packet size. -/
theorem setups_disagree (spec : Spec) (params : TestParams) (h : spec.Describes params) :
    ∃ a b, tbParse spec.argv = some a ∧ tbCreateEndpoint params = some b ∧ ¬ Agree a b ∧
      (SameFields a b ↔ isClient spec.type = true ∧ spec.packSize ≠ 0) ∧
      b.fExit = .unset ∧ b.fAbort = .unset := by
  obtain ⟨table, htable⟩ := Option.isSome_iff_exists.mp spec.supported
  have hfile := sameFile_iff spec h
  refine ⟨_, _, tbParse_argv spec htable, tbCreateEndpoint_eq spec htable h, ?_, ?_, rfl, rfl⟩
  · rintro ⟨-, hexit, -⟩
    cases hexit
  · rw [parseBufsize_loaded]
    constructor
    · intro hsame
      have hclient : isClient spec.type = true := hfile.mp ⟨hsame.fileSize, hsame.filename⟩
      refine ⟨hclient, fun hzero => ?_⟩
      -- 1408 bytes are no whole number of KB
      have hbuf : (spec.kb : Int) * 1024 = 1408 := by
        simpa [hzero, hclient, Spec.fileSize] using hsame.bufsize
      omega
    · rintro ⟨hclient, hpack⟩
      obtain ⟨hsize, hname⟩ := hfile.mpr hclient
      exact ⟨rfl, rfl, rfl, rfl, rfl, by simp [hpack], hsize, hname, rfl⟩

/-- A client that sends 4 KB in packets of 1408 bytes. -/
def clientSpec : Spec where
  type := .client
  protocol := .tcp
  address := "127.0.0.1"
  port := "5000"
  packSize := 1408
  kb := 4
  supported := rfl
  packSize_lt := by decide
  kb_pos := by decide
  kb_lt := by decide

def clientParams : TestParams := ⟨.client, .tcp, "127.0.0.1", "5000", 0, 0, 0, 0, 4, none, 1408⟩

theorem clientSpec_describes : clientSpec.Describes clientParams :=
  ⟨rfl, rfl, rfl, rfl, ⟨rfl, rfl, rfl, rfl⟩, rfl, fun _ => ⟨rfl, rfl⟩, by decide, .inl (by decide)⟩

theorem setups_disagree_client :
    ∃ a b, tbParse clientSpec.argv = some a ∧ tbCreateEndpoint clientParams = some b ∧
      SameFields a b := by
  obtain ⟨a, b, ha, hb, -, hsame, -, -⟩ :=
    setups_disagree clientSpec clientParams clientSpec_describes
  exact ⟨a, b, ha, hb, hsame.mpr ⟨rfl, by decide⟩⟩

/-- The client's callbacks: an abort of the library's endpoint calls a function that was never set. -/
theorem library_leaves_callbacks :
    ∃ a b, tbParse ["TestBed", "client", "127.0.0.1", "5000", "tcp", "1408", "size", "4"] = some a ∧
      tbCreateEndpoint clientParams = some b ∧ a.fAbort = .tbAbort ∧ b.fAbort = .unset ∧
        ¬ Agree a b :=
  ⟨_, _, rfl, rfl, rfl, rfl, fun h => nomatch h.fAbort⟩

end TestBed.Setup
