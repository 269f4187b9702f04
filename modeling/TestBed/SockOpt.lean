import TestBed.Setup
import TestBed.Code.World

/-!
# Socket options

The setters of `tb_sock_opt.c`. Each fills in the sizes that are 0 and hands them to calls that set one
option each; what these calls return is `ret`, and the first failure ends the setter.

`tb_set_udt_opts` hands the receive size of layer 3 to the send buffer of UDP as well, so the requested
sizes are the ones applied except in a UDT endpoint whose two layer 3 sizes differ (`requested_iff`).
-/

namespace TestBed.SockOpt

open Setup

/-- The options that the setters set. -/
inductive Opt
  | soRcvbuf | soSndbuf | soReuseaddr
  | udtRcvbuf | udtSndbuf | udpRcvbuf | udpSndbuf
  deriving DecidableEq, Repr

def udtSndBuff : Int := 1024 * 1024 * 10
def udtRcvBuff : Int := 1024 * 1024 * 10
def udpSndBuff : Int := 1024 * 256
def udpRcvBuff : Int := 1024 * 1024
def tcpSndBuff : Int := 1024 * 256
def tcpRcvBuff : Int := 1024 * 1024
def utpSndBuff : Int := 300 * 200
def utpRcvBuff : Int := 300 * 200
def dccpSndBuff : Int := 1024 * 256
def dccpRcvBuff : Int := 1024 * 1024

/-- What a setter leaves: the sizes, the options it has set with their values, and its return value. -/
structure Outcome where
  options : Options
  applied : List (Opt × Int)
  rc : Int
  deriving DecidableEq, Repr

/-- One call after the other, up to the first that fails. -/
def setEach (failed : Int → Bool) (ret : Opt → Int) : List (Opt × Int) → List (Opt × Int) × Int
  | [] => ([], 0)
  | call :: calls =>
    if failed (ret call.1) then ([], -1)
    else
      let (applied, rc) := setEach failed ret calls
      (call :: applied, rc)

def orDefault (size default : Int) : Int := if size = 0 then default else size

variable (ret : Opt → Int)

/-- `tb_set_bsd_sock_opts`; the sizes that it reads back are only printed. -/
def tbSetBsdSockOpts (options : Options) : Outcome :=
  let calls := setEach (· ≠ 0) ret
    [(.soRcvbuf, options.l3RBSize), (.soSndbuf, options.l3SBSize), (.soReuseaddr, 1)]
  ⟨options, calls.1, calls.2⟩

/-- The defaults of the setters that use the sizes of layer 3. -/
def fillL3 (rcvBuff sndBuff : Int) (options : Options) : Options :=
  { options with
    l3RBSize := orDefault options.l3RBSize rcvBuff
    l3SBSize := orDefault options.l3SBSize sndBuff }

/-- The defaults of the setters that use all four sizes. -/
def fillAll (rcvBuff sndBuff : Int) (options : Options) : Options :=
  { options with
    l4RBSize := orDefault options.l4RBSize rcvBuff
    l4SBSize := orDefault options.l4SBSize sndBuff
    l3RBSize := orDefault options.l3RBSize udpRcvBuff
    l3SBSize := orDefault options.l3SBSize udpSndBuff }

/-- The setters of the kernel's protocols, with their defaults. -/
def setL3Opts (rcvBuff sndBuff : Int) (options : Options) : Outcome :=
  tbSetBsdSockOpts ret (fillL3 rcvBuff sndBuff options)

def tbSetTcpOpts (options : Options) : Outcome := setL3Opts ret tcpRcvBuff tcpSndBuff options

def tbSetUdpOpts (options : Options) : Outcome := setL3Opts ret udpRcvBuff udpSndBuff options

def tbSetEudpOpts (options : Options) : Outcome := tbSetUdpOpts ret options

def tbSetDccpOpts (options : Options) : Outcome := setL3Opts ret dccpRcvBuff dccpSndBuff options

def tbSetUdtOpts (options : Options) : Outcome :=
  let options := fillAll udtRcvBuff udtSndBuff options
  let calls := setEach (· = -1) ret
    [(.udtRcvbuf, options.l4RBSize), (.udtSndbuf, options.l4SBSize),
      (.udpRcvbuf, options.l3RBSize), (.udpSndbuf, options.l3RBSize)]
  ⟨options, calls.1, calls.2⟩

def tbSetAudtOpts (options : Options) : Outcome := ⟨options, [], 0⟩

def tbSetUtpOpts (options : Options) : Outcome := ⟨fillAll utpRcvBuff utpSndBuff options, [], 0⟩

def tbSetSockOpt (options : Options) : Outcome :=
  match options.protocol with
  | .tcp => tbSetTcpOpts ret options
  | .udp => tbSetUdpOpts ret options
  | .udt => tbSetUdtOpts ret options
  | .audt => tbSetAudtOpts options
  | .utp => tbSetUtpOpts options
  | .eudp => tbSetEudpOpts ret options
  | .dccp => tbSetDccpOpts ret options

/-- The buffer options of an endpoint's sockets, each with the size that asks for it. -/
def bufferSizes (options : Options) : List (Opt × Int) :=
  match options.protocol with
  | .udt => [(.udtRcvbuf, options.l4RBSize), (.udtSndbuf, options.l4SBSize),
      (.udpRcvbuf, options.l3RBSize), (.udpSndbuf, options.l3SBSize)]
  | _ => [(.soRcvbuf, options.l3RBSize), (.soSndbuf, options.l3SBSize)]

/-- Only sizes of 0 differ. -/
structure OnlyZeros (options options' : Options) : Prop where
  protocol : options'.protocol = options.protocol
  l3RBSize : options.l3RBSize ≠ 0 → options'.l3RBSize = options.l3RBSize
  l3SBSize : options.l3SBSize ≠ 0 → options'.l3SBSize = options.l3SBSize
  l4SBSize : options.l4SBSize ≠ 0 → options'.l4SBSize = options.l4SBSize
  l4RBSize : options.l4RBSize ≠ 0 → options'.l4RBSize = options.l4RBSize

/-- The setter fills in zeros only, is done with that after one call, and applies to each buffer the size
that asks for it. -/
structure Requested (options : Options) : Prop where
  onlyZeros : OnlyZeros options (tbSetSockOpt ret options).options
  again : ∀ ret', (tbSetSockOpt ret' (tbSetSockOpt ret options).options).options =
    (tbSetSockOpt ret options).options
  applied : (tbSetSockOpt ret options).rc = 0 →
    ∀ opt size, (opt, size) ∈ bufferSizes (tbSetSockOpt ret options).options →
      ∀ value, (opt, value) ∈ (tbSetSockOpt ret options).applied ↔ value = size

/-! ## The calls -/

variable {ret}

/-- A setter returns 0 exactly if no call failed, and has then made them all. -/
theorem setEach_rc {failed : Int → Bool} (calls : List (Opt × Int)) :
    (setEach failed ret calls).2 = 0 ↔ ∀ call ∈ calls, failed (ret call.1) = false := by
  induction calls with
  | nil => simp [setEach]
  | cons call calls ih =>
    by_cases hfail : failed (ret call.1) = true
    · simp [setEach, hfail]
    · simp [setEach, hfail, ih]

theorem setEach_applied {failed : Int → Bool} {calls : List (Opt × Int)}
    (h : (setEach failed ret calls).2 = 0) : (setEach failed ret calls).1 = calls := by
  induction calls with
  | nil => rfl
  | cons call calls ih =>
    by_cases hfail : failed (ret call.1) = true
    · simp [setEach, hfail] at h
    · simp only [setEach, hfail] at h ⊢
      exact congrArg (call :: ·) (ih h)

theorem setEach_rc_cases {failed : Int → Bool} (calls : List (Opt × Int)) :
    (setEach failed ret calls).2 = 0 ∨ (setEach failed ret calls).2 = -1 := by
  induction calls with
  | nil => exact .inl rfl
  | cons call calls ih =>
    by_cases hfail : failed (ret call.1) = true
    · simp [setEach, hfail]
    · simpa [setEach, hfail] using ih

/-! ## The sizes -/

theorem orDefault_of_ne {size default : Int} (h : size ≠ 0) : orDefault size default = size :=
  if_neg h

theorem orDefault_orDefault {size default : Int} (h : default ≠ 0) :
    orDefault (orDefault size default) default = orDefault size default := by
  refine orDefault_of_ne ?_
  unfold orDefault
  split
  · exact h
  · assumption

/-- The sizes that a setter leaves. -/
def filled (options : Options) : Options :=
  match options.protocol with
  | .tcp => fillL3 tcpRcvBuff tcpSndBuff options
  | .udp | .eudp => fillL3 udpRcvBuff udpSndBuff options
  | .dccp => fillL3 dccpRcvBuff dccpSndBuff options
  | .udt => fillAll udtRcvBuff udtSndBuff options
  | .utp => fillAll utpRcvBuff utpSndBuff options
  | .audt => options

variable {options : Options} {rcvBuff sndBuff : Int}

/-- They do not depend on what the calls return. -/
theorem tbSetSockOpt_options (ret : Opt → Int) (options : Options) :
    (tbSetSockOpt ret options).options = filled options := by
  unfold tbSetSockOpt filled
  cases options.protocol <;> rfl

theorem fillL3_onlyZeros : OnlyZeros options (fillL3 rcvBuff sndBuff options) :=
  ⟨rfl, orDefault_of_ne, orDefault_of_ne, fun _ => rfl, fun _ => rfl⟩

theorem fillAll_onlyZeros : OnlyZeros options (fillAll rcvBuff sndBuff options) :=
  ⟨rfl, orDefault_of_ne, orDefault_of_ne, orDefault_of_ne, orDefault_of_ne⟩

theorem fillL3_fillL3 (hrcv : rcvBuff ≠ 0) (hsnd : sndBuff ≠ 0) :
    fillL3 rcvBuff sndBuff (fillL3 rcvBuff sndBuff options) = fillL3 rcvBuff sndBuff options := by
  simp only [fillL3, orDefault_orDefault hrcv, orDefault_orDefault hsnd]

theorem fillAll_fillAll (hrcv : rcvBuff ≠ 0) (hsnd : sndBuff ≠ 0) :
    fillAll rcvBuff sndBuff (fillAll rcvBuff sndBuff options) = fillAll rcvBuff sndBuff options := by
  have hrcv' : udpRcvBuff ≠ 0 := by decide
  have hsnd' : udpSndBuff ≠ 0 := by decide
  simp only [fillAll, orDefault_orDefault hrcv, orDefault_orDefault hsnd,
    orDefault_orDefault hrcv', orDefault_orDefault hsnd']

theorem filled_onlyZeros (options : Options) : OnlyZeros options (filled options) := by
  unfold filled
  cases options.protocol with
  | tcp | udp | eudp | dccp => exact fillL3_onlyZeros
  | udt | utp => exact fillAll_onlyZeros
  | audt => exact ⟨rfl, fun _ => rfl, fun _ => rfl, fun _ => rfl, fun _ => rfl⟩

theorem filled_filled (options : Options) : filled (filled options) = filled options := by
  have hprot := (filled_onlyZeros options).protocol
  unfold filled at hprot ⊢
  rw [hprot]
  cases options.protocol with
  | tcp | udp | eudp | dccp => exact fillL3_fillL3 (by decide) (by decide)
  | udt | utp => exact fillAll_fillAll (by decide) (by decide)
  | audt => rfl

/-! ## What is applied -/

/-- The protocols of the kernel. -/
theorem tbSetSockOpt_bsd (hudt : options.protocol ≠ .udt) (haudt : options.protocol ≠ .audt)
    (hutp : options.protocol ≠ .utp) :
    tbSetSockOpt ret options = tbSetBsdSockOpts ret (filled options) := by
  unfold tbSetSockOpt filled
  cases hprot : options.protocol with
  | tcp | udp | eudp | dccp => rfl
  | udt => exact absurd hprot hudt
  | audt => exact absurd hprot haudt
  | utp => exact absurd hprot hutp

theorem tbSetSockOpt_udt (hudt : options.protocol = .udt) :
    tbSetSockOpt ret options = tbSetUdtOpts ret options := by
  unfold tbSetSockOpt
  rw [hudt]

/-- A setter returns 0 or -1, and 0 if it makes no calls. -/
theorem tbSetSockOpt_rc (options : Options) :
    (tbSetSockOpt ret options).rc = 0 ∨
      (tbSetSockOpt ret options).rc = -1 ∧ options.protocol ≠ .utp ∧ options.protocol ≠ .audt := by
  by_cases hutp : options.protocol = .utp
  · simp [tbSetSockOpt, hutp, tbSetUtpOpts]
  by_cases haudt : options.protocol = .audt
  · simp [tbSetSockOpt, haudt, tbSetAudtOpts]
  have hcases : (tbSetSockOpt ret options).rc = 0 ∨ (tbSetSockOpt ret options).rc = -1 := by
    by_cases hudt : options.protocol = .udt
    · rw [tbSetSockOpt_udt hudt]
      exact setEach_rc_cases _
    · rw [tbSetSockOpt_bsd hudt haudt hutp]
      exact setEach_rc_cases _
  exact hcases.imp id fun h => ⟨h, hutp, haudt⟩

/-- The outcome of the call in the bodies of `TestBed.Code`. -/
theorem setSockOpt_valid {w : Code.World} (h : w.prot.protocol = options.protocol) :
    Code.Call.valid w (Code.Io.ret (tbSetSockOpt ret options).rc) .setSockOpt = true := by
  have hrc : (tbSetSockOpt ret options).rc = 0 ∨
      (tbSetSockOpt ret options).rc = -1 ∧ options.protocol ≠ .utp ∧ options.protocol ≠ .audt :=
    tbSetSockOpt_rc options
  rcases hrc with hrc | ⟨hrc, hutp, -⟩
  · simp [Code.Call.valid, Code.Io.ret, hrc]
  · simp [Code.Call.valid, Code.Io.ret, hrc, h, hutp]

/-- The calls of `tb_set_bsd_sock_opts` apply the sizes that are asked for. -/
theorem bsd_applied (hudt : options.protocol ≠ .udt)
    (hrc : (tbSetBsdSockOpts ret options).rc = 0) {opt : Opt} {size : Int}
    (hmem : (opt, size) ∈ bufferSizes options) (value : Int) :
    (opt, value) ∈ (tbSetBsdSockOpts ret options).applied ↔ value = size := by
  have happlied : (tbSetBsdSockOpts ret options).applied =
      [(.soRcvbuf, options.l3RBSize), (.soSndbuf, options.l3SBSize), (.soReuseaddr, 1)] :=
    setEach_applied hrc
  have hsizes : bufferSizes options =
      [(.soRcvbuf, options.l3RBSize), (.soSndbuf, options.l3SBSize)] := by
    unfold bufferSizes
    cases hprot : options.protocol <;> first | rfl | exact absurd hprot hudt
  rw [happlied]
  rw [hsizes] at hmem
  simp only [List.mem_cons, Prod.mk.injEq, List.not_mem_nil, or_false] at hmem
  rcases hmem with ⟨rfl, rfl⟩ | ⟨rfl, rfl⟩ <;> simp

/-- The calls of `tb_set_udt_opts` do so where the sizes of layer 3 are the same. -/
theorem udt_applied_iff (hudt : options.protocol = .udt)
    (hrc : (tbSetUdtOpts ret options).rc = 0) :
    (∀ opt size, (opt, size) ∈ bufferSizes (filled options) →
      ∀ value, (opt, value) ∈ (tbSetUdtOpts ret options).applied ↔ value = size) ↔
      orDefault options.l3RBSize udpRcvBuff = orDefault options.l3SBSize udpSndBuff := by
  have hfilled : filled options = fillAll udtRcvBuff udtSndBuff options := by
    unfold filled
    rw [hudt]
  have happlied : (tbSetUdtOpts ret options).applied =
      [(.udtRcvbuf, (filled options).l4RBSize), (.udtSndbuf, (filled options).l4SBSize),
        (.udpRcvbuf, (filled options).l3RBSize), (.udpSndbuf, (filled options).l3RBSize)] := by
    rw [hfilled]
    exact setEach_applied hrc
  have hsizes : bufferSizes (filled options) =
      [(.udtRcvbuf, (filled options).l4RBSize), (.udtSndbuf, (filled options).l4SBSize),
        (.udpRcvbuf, (filled options).l3RBSize), (.udpSndbuf, (filled options).l3SBSize)] := by
    unfold bufferSizes
    rw [(filled_onlyZeros options).protocol, hudt]
  have hrcv : (filled options).l3RBSize = orDefault options.l3RBSize udpRcvBuff := by
    rw [hfilled]
    rfl
  have hsnd : (filled options).l3SBSize = orDefault options.l3SBSize udpSndBuff := by
    rw [hfilled]
    rfl
  rw [happlied, hsizes, ← hrcv, ← hsnd]
  constructor
  · intro h
    exact (h .udpSndbuf (filled options).l3SBSize (by simp) (filled options).l3RBSize).mp (by simp)
  · rintro heq opt size hmem value
    rw [← heq] at hmem
    simp only [List.mem_cons, Prod.mk.injEq, List.not_mem_nil, or_false] at hmem
    rcases hmem with ⟨rfl, rfl⟩ | ⟨rfl, rfl⟩ | ⟨rfl, rfl⟩ | ⟨rfl, rfl⟩ <;> simp

/-- When the calls of `tb_set_udt_opts` all succeed. -/
theorem udt_rc :
    (tbSetUdtOpts ret options).rc = 0 ↔
      ∀ opt ∈ [Opt.udtRcvbuf, .udtSndbuf, .udpRcvbuf, .udpSndbuf], ret opt ≠ -1 := by
  refine (setEach_rc _).trans ?_
  simp

/-- **When the requested sizes are the ones applied.** Among the protocols that set options, unless the
protocol is UDT, its calls all succeed, and the two sizes of layer 3 come out different. -/
theorem requested_iff (ret : Opt → Int) (options : Options) (haudt : options.protocol ≠ .audt)
    (hutp : options.protocol ≠ .utp) :
    Requested ret options ↔
      options.protocol ≠ .udt ∨
      (∃ opt ∈ [Opt.udtRcvbuf, .udtSndbuf, .udpRcvbuf, .udpSndbuf], ret opt = -1) ∨
      orDefault options.l3RBSize udpRcvBuff = orDefault options.l3SBSize udpSndBuff := by
  have hzeros := filled_onlyZeros options
  have hagain := filled_filled options
  rw [← tbSetSockOpt_options ret options] at hzeros hagain
  have hparts : Requested ret options ↔ ((tbSetSockOpt ret options).rc = 0 →
      ∀ opt size, (opt, size) ∈ bufferSizes (filled options) →
        ∀ value, (opt, value) ∈ (tbSetSockOpt ret options).applied ↔ value = size) := by
    rw [← tbSetSockOpt_options ret options]
    refine ⟨fun h => h.applied, fun h => ⟨hzeros, fun ret' => ?_, h⟩⟩
    rw [tbSetSockOpt_options ret' (tbSetSockOpt ret options).options]
    exact hagain
  rw [hparts]
  by_cases hudt : options.protocol = .udt
  · rw [tbSetSockOpt_udt hudt]
    constructor
    · intro h
      refine .inr ?_
      by_cases hrc : (tbSetUdtOpts ret options).rc = 0
      · exact .inr ((udt_applied_iff hudt hrc).mp (h hrc))
      · rw [udt_rc] at hrc
        refine .inl ?_
        by_contra hall
        exact hrc fun opt hopt hret => hall ⟨opt, hopt, hret⟩
    · rintro (hne | ⟨opt, hopt, hret⟩ | heq) hrc
      · exact absurd hudt hne
      · exact absurd hret (udt_rc.mp hrc opt hopt)
      · exact (udt_applied_iff hudt hrc).mpr heq
  · refine iff_of_true (fun hrc opt size hmem value => ?_) (.inl hudt)
    rw [tbSetSockOpt_bsd hudt haudt hutp] at hrc ⊢
    have hprot : (filled options).protocol ≠ .udt := by rwa [(filled_onlyZeros options).protocol]
    exact bsd_applied hprot hrc hmem value

/-- Four different sizes: all are applied over UDP, and over UDT, whose calls all succeed, those of layer
3 are not. Two equal sizes in layer 3 are applied over UDT as well. -/
theorem requested_iff_udp :
    Requested (fun _ => 0) ⟨.udp, 1024, 2048, 4096, 8192⟩ ∧
      ¬ Requested (fun _ => 0) ⟨.udt, 1024, 2048, 4096, 8192⟩ ∧
      Requested (fun _ => 0) ⟨.udt, 2048, 2048, 4096, 8192⟩ := by
  refine ⟨?_, ?_, ?_⟩
  · exact (requested_iff (fun _ => 0) ⟨.udp, 1024, 2048, 4096, 8192⟩ (by decide) (by decide)).mpr
      (.inl (by decide))
  · intro h
    have hwhen := (requested_iff (fun _ => 0) ⟨.udt, 1024, 2048, 4096, 8192⟩ (by decide)
      (by decide)).mp h
    rcases hwhen with hne | ⟨opt, -, hret⟩ | heq
    · exact hne rfl
    · cases hret
    · cases heq
  · exact (requested_iff (fun _ => 0) ⟨.udt, 2048, 2048, 4096, 8192⟩ (by decide) (by decide)).mpr
      (.inr (.inr rfl))

/-- UDT with a receive size of 64 KB and a send size of 32 KB in layer 3, every call succeeding: the send
buffer gets 64 KB. -/
theorem udt_sndbuf_swapped :
    (tbSetSockOpt (fun _ => 0) ⟨.udt, 65536, 32768, 0, 0⟩).rc = 0 ∧
      (.udpSndbuf, 65536) ∈ (tbSetSockOpt (fun _ => 0) ⟨.udt, 65536, 32768, 0, 0⟩).applied ∧
      ¬ Requested (fun _ => 0) ⟨.udt, 65536, 32768, 0, 0⟩ := by
  refine ⟨by decide, by decide, fun h => ?_⟩
  have hvalue := (h.applied (by decide) .udpSndbuf 32768 (by decide) 65536).mp (by decide)
  cases hvalue

end TestBed.SockOpt
