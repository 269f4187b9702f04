import TestBed.MServer
import TestBed.StreamClient
import Mathlib.Data.List.Count
import Mathlib.Algebra.BigOperators.Group.List.Basic

/-!
# The single-connection servers

`tb_stream_server` and `tb_udt_server`, cut at their calls: one session after another, each with a loop
that receives and adds what it got to the session's and the listener's total. The interrupt handler and
the monitor can run between any two steps.

A failing receive leaves -1 in `last_trans`. `tb_udt_server` never goes on to the additions with it.
`tb_stream_server` does where `f_error` says that the error is to be ignored, and then both totals
lose a byte (`received_exactly_iff`); `tb_send_data`, the sending twin of `tb_recv_data`, returns 0
there.
-/

namespace TestBed

open CInt Transition

inductive ReceiverPc
  | listen
  | test
  | receiving
  | looping
  | closing
  | returned
  | aborted
  deriving DecidableEq, Repr

/-- What follows a failing receive. -/
inductive OnError
  | abort
  | leave     -- the connection is over
  | count     -- on to the additions
  deriving DecidableEq, Repr

/-- A receiving function, as far as it is not the code that both have. -/
structure ReceiverProg where
  onError : Protocol → Int → OnError
  /-- The timer is started before the result of `accept` is looked at. -/
  startsEarly : Bool
  /-- The test of the inner loop is made before the first receive. -/
  testsFirst : Bool
  /-- The inner loop goes on after a receive with this result. -/
  goesOn : Int → Bool

/-- `tb_stream_server`, with the `f_error` of `tb_recv_data`. -/
def tbStreamServer : ReceiverProg where
  onError protocol code := if fError protocol (-1) code ≠ 0 then .abort else .count
  startsEarly := true
  testsFirst := false
  goesOn lastTrans := lastTrans ≠ 0

/-- `tb_udt_server`; the code 2001 says that the connection is broken. -/
def tbUdtServer : ReceiverProg where
  onError _ code := if code = 2001 then .leave else .abort
  startsEarly := false
  testsFirst := true
  goesOn _ := true

/-- A state of a receiving function, with what its current session has got: the listener's total when
the session was accepted, and the results of the receives since. -/
structure Receiver where
  listener : Listener
  session : Session
  pc : ReceiverPc
  before : Int
  results : List RecvRc
  deriving DecidableEq, Repr

inductive RLabel
  | listen (ok : Bool)
  | test
  | accept (sockD : Int)
  | recv (r : RecvRc)
  | loop
  | close
  | interrupt
  | tick (q : StatsQuery)

namespace ReceiverProg

variable (p : ReceiverProg)

def listenStep (s : Receiver) (ok : Bool) : Option Receiver :=
  if s.pc = .listen then
    if ok then some { s with listener := { s.listener with status := .listening }, pc := .test }
    else some { s with listener := tbAbort s.listener, pc := .aborted }
  else none

/-- The test of the outer loop; behind it the listening socket is closed. -/
def testStep (s : Receiver) : Option Receiver :=
  if s.pc = .test ∧ s.listener.command.eLoop = true then
    some { s with listener := { s.listener with sockD := -1 }, pc := .returned }
  else none

def acceptStep (s : Receiver) (sockD : Int) : Option Receiver :=
  if s.pc = .test ∧ s.listener.command.eLoop = false then
    let l := { s.listener with transferTime := tbStartTime s.listener.transferTime }
    if sockD = -1 then
      some { s with listener := tbAbort (if p.startsEarly then l else s.listener), pc := .aborted }
    else some {
      listener := { l with status := .connected }
      session := { tbCreateServerSession with sockD := sockD, dataSize := asSizeT l.bufsize }
      pc := if p.testsFirst then .looping else .receiving
      before := l.totalTxRx
      results := [] }
  else none

/-- `last_trans` is added to both totals. -/
def addTrans (s : Receiver) (lastTrans : Int) : Receiver :=
  { s with
    listener := { s.listener with totalTxRx := s.listener.totalTxRx + lastTrans }
    session := { s.session with
      lastTrans := lastTrans
      totalBytes := s.session.totalBytes + lastTrans }
    pc := .looping }

def recvStep (s : Receiver) (r : RecvRc) : Option Receiver :=
  if s.pc = .receiving then
    let s := { s with results := s.results ++ [r] }
    match r with
    | .count n => if (n : Int) ≤ s.session.dataSize then some (addTrans s n) else none
    | .error code =>
      match p.onError s.listener.protId code with
      | .abort => some { s with listener := tbAbort s.listener, pc := .aborted }
      | .leave => some { s with session := { s.session with lastTrans := -1 }, pc := .closing }
      | .count => some (addTrans s (-1))
  else none

/-- The test of the inner loop. -/
def loopStep (s : Receiver) : Option Receiver :=
  if s.pc = .looping then
    let goesOn := p.goesOn s.session.lastTrans && !s.listener.command.eLoop
    some { s with pc := if goesOn then .receiving else .closing }
  else none

def closeStep (s : Receiver) : Option Receiver :=
  if s.pc = .closing then
    some { s with
      listener := { s.listener with
        transferTime := tbFinishTime s.listener.transferTime
        status := .disconnected
        statLock := false
        command := s.listener.sTxEnd }
      pc := .test }
  else none

def step (s : Receiver) : RLabel → Option Receiver
  | .listen ok => listenStep s ok
  | .test => testStep s
  | .accept sockD => p.acceptStep s sockD
  | .recv r => p.recvStep s r
  | .loop => p.loopStep s
  | .close => closeStep s
  | .interrupt => some { s with listener := { s.listener with command := .tbExit } }
  | .tick q => some { s with listener := tbSetLStats q s.listener }

def init (l : Listener) : Receiver := ⟨l, tbCreateServerSession, .listen, l.totalTxRx, []⟩

end ReceiverProg

/-! ## What is counted -/

/-- The positive results: the bytes received. -/
def received (rs : List RecvRc) : Int :=
  (rs.map fun
    | .count n => (n : Int)
    | .error _ => 0).sum

/-- The failures that are counted. -/
def ReceiverProg.ignored (p : ReceiverProg) (protocol : Protocol) (rs : List RecvRc) : Nat :=
  rs.countP fun
    | .count _ => false
    | .error code => p.onError protocol code = .count

/-- Both totals are the bytes received in the session. -/
structure Receiver.Exact (s : Receiver) : Prop where
  session : s.session.totalBytes = received s.results
  listener : s.listener.totalTxRx - s.before = received s.results

@[simp] theorem received_nil : received [] = 0 := rfl

@[simp] theorem received_concat_count (rs : List RecvRc) (n : Nat) :
    received (rs ++ [.count n]) = received rs + n := by
  simp [received]

@[simp] theorem received_concat_error (rs : List RecvRc) (code : Int) :
    received (rs ++ [.error code]) = received rs := by
  simp [received]

section Ignored

variable {p : ReceiverProg} {protocol : Protocol} {rs : List RecvRc}

@[simp] theorem ReceiverProg.ignored_nil : p.ignored protocol [] = 0 := rfl

@[simp] theorem ReceiverProg.ignored_concat_count (n : Nat) :
    p.ignored protocol (rs ++ [.count n]) = p.ignored protocol rs := by
  simp [ReceiverProg.ignored]

@[simp] theorem ReceiverProg.ignored_concat_error (code : Int) :
    p.ignored protocol (rs ++ [.error code]) =
      p.ignored protocol rs + if p.onError protocol code = .count then 1 else 0 := by
  simp [ReceiverProg.ignored, List.countP_append, List.countP_singleton]

theorem ReceiverProg.ignored_eq_zero_iff :
    p.ignored protocol rs = 0 ↔ ∀ code, .error code ∈ rs → p.onError protocol code ≠ .count := by
  rw [ReceiverProg.ignored, List.countP_eq_zero]
  constructor
  · intro h code hmem
    simpa using h _ hmem
  · intro h r hmem
    cases r with
    | count n => simp
    | error code => simpa using h code hmem

end Ignored

/-- A run's invariant: each total is the bytes received less one for each failure that was
counted. -/
structure Counted (p : ReceiverProg) (protocol : Protocol) (s : Receiver) : Prop where
  protId : s.listener.protId = protocol
  session : s.pc ≠ .aborted →
    s.session.totalBytes = received s.results - p.ignored protocol s.results
  listener : s.pc ≠ .aborted →
    s.listener.totalTxRx - s.before = received s.results - p.ignored protocol s.results

section Step

variable {p : ReceiverProg} {protocol : Protocol} {s t : Receiver}

/-- A step that leaves the totals and the results alone. -/
theorem Counted.congr (h : Counted p protocol s) (hpc : t.pc ≠ .aborted → s.pc ≠ .aborted)
    (hprot : t.listener.protId = s.listener.protId)
    (hbytes : t.session.totalBytes = s.session.totalBytes)
    (htotal : t.listener.totalTxRx = s.listener.totalTxRx)
    (hsame : t.before = s.before ∧ t.results = s.results) : Counted p protocol t := by
  constructor
  · rw [hprot, h.protId]
  · intro hna
    rw [hbytes, hsame.2, h.session (hpc hna)]
  · intro hna
    rw [htotal, hsame.1, hsame.2, h.listener (hpc hna)]

/-- An aborted run is not looked at. -/
theorem Counted.of_aborted (h : Counted p protocol s)
    (hprot : t.listener.protId = s.listener.protId) (hpc : t.pc = .aborted) :
    Counted p protocol t :=
  ⟨hprot.trans h.protId, fun hna => absurd hpc hna, fun hna => absurd hpc hna⟩

theorem Counted.recv {r : RecvRc} (h : Counted p protocol s) (ht : p.recvStep s r = some t) :
    Counted p protocol t := by
  unfold ReceiverProg.recvStep at ht
  split at ht
  case isFalse => cases ht
  case isTrue hpc =>
    have hna : s.pc ≠ .aborted := by rw [hpc]; decide
    have hsession := h.session hna
    have hlistener := h.listener hna
    cases r with
    | count n =>
      simp only at ht
      split at ht <;> cases ht
      refine ⟨h.protId, fun _ => ?_, fun _ => ?_⟩ <;>
        simp only [ReceiverProg.addTrans, received_concat_count,
          ReceiverProg.ignored_concat_count] <;> omega
    | error code =>
      simp only [h.protId] at ht
      split at ht <;> cases ht
      · exact h.of_aborted rfl rfl
      · next hleave =>
        refine ⟨h.protId, fun _ => ?_, fun _ => ?_⟩ <;>
          simp only [received_concat_error, ReceiverProg.ignored_concat_error, hleave,
            reduceCtorEq, if_false] <;> omega
      · next hcount =>
        -- the failure is no byte received, and one is taken off
        refine ⟨h.protId, fun _ => ?_, fun _ => ?_⟩ <;>
          simp only [ReceiverProg.addTrans, received_concat_error,
            ReceiverProg.ignored_concat_error, hcount, if_true] <;> omega

theorem Counted.accept {sockD : Int} (h : Counted p protocol s)
    (ht : p.acceptStep s sockD = some t) : Counted p protocol t := by
  unfold ReceiverProg.acceptStep at ht
  split at ht
  case isFalse => cases ht
  case isTrue =>
    simp only at ht
    split at ht <;> cases ht
    · refine h.of_aborted ?_ rfl
      split <;> rfl
    · refine ⟨h.protId, fun _ => rfl, fun _ => ?_⟩
      simp

/-- **Step.** -/
theorem counted_step {l : RLabel} (h : Counted p protocol s) (ht : p.step s l = some t) :
    Counted p protocol t := by
  cases l with
  | listen ok =>
    simp only [ReceiverProg.step, ReceiverProg.listenStep] at ht
    split at ht
    · next hpc =>
      split at ht <;> cases ht
      · exact h.congr (fun _ => by rw [hpc]; decide) rfl rfl rfl ⟨rfl, rfl⟩
      · exact h.of_aborted rfl rfl
    · cases ht
  | test =>
    simp only [ReceiverProg.step, ReceiverProg.testStep] at ht
    split at ht <;> cases ht
    next hpc => exact h.congr (fun _ => by rw [hpc.1]; decide) rfl rfl rfl ⟨rfl, rfl⟩
  | accept sockD => exact h.accept ht
  | recv r => exact h.recv ht
  | loop =>
    simp only [ReceiverProg.step, ReceiverProg.loopStep] at ht
    split at ht <;> cases ht
    next hpc => exact h.congr (fun _ => by rw [hpc]; decide) rfl rfl rfl ⟨rfl, rfl⟩
  | close =>
    simp only [ReceiverProg.step, ReceiverProg.closeStep] at ht
    split at ht <;> cases ht
    next hpc => exact h.congr (fun _ => by rw [hpc]; decide) rfl rfl rfl ⟨rfl, rfl⟩
  | interrupt =>
    cases ht
    exact h.congr id rfl rfl rfl ⟨rfl, rfl⟩
  | tick q =>
    cases ht
    exact h.congr id rfl rfl rfl ⟨rfl, rfl⟩

end Step

theorem counted_run (p : ReceiverProg) (l : Listener) {ls : List RLabel} {s : Receiver}
    (h : run p.step (ReceiverProg.init l) ls = some s) : Counted p l.protId s := by
  refine run_invariant ⟨rfl, fun _ => rfl, fun _ => ?_⟩ (fun _ _ _ hs ht => counted_step hs ht) h
  simp [ReceiverProg.init]

/-- The totals are right exactly as long as no failure was counted. -/
theorem exact_iff (p : ReceiverProg) (l : Listener) {ls : List RLabel} {s : Receiver}
    (h : run p.step (ReceiverProg.init l) ls = some s) (hpc : s.pc ≠ .aborted) :
    s.Exact ↔ ∀ code, .error code ∈ s.results → p.onError l.protId code ≠ .count := by
  have hinv := counted_run p l h
  have hsession := hinv.session hpc
  have hlistener := hinv.listener hpc
  rw [← ReceiverProg.ignored_eq_zero_iff]
  constructor
  · intro hexact
    have := hexact.session
    omega
  · intro hzero
    constructor <;> omega

def receiver : SKind → ReceiverProg
  | .stream => tbStreamServer
  | .udt => tbUdtServer

/-- **A receiver counts what it received, less its tolerated failures.** `tb_udt_server` is always
right; `tb_stream_server` is exactly as long as no receive of the session has failed with an error that
`f_error` tolerates. -/
theorem received_exactly_iff (k : SKind) (l : Listener) (ls : List RLabel) (s : Receiver)
    (h : run (receiver k).step (ReceiverProg.init l) ls = some s) (hpc : s.pc ≠ .aborted) :
    s.Exact ↔
      k = .stream → ∀ code, .error code ∈ s.results → fError l.protId (-1) code ≠ 0 := by
  rw [exact_iff (receiver k) l h hpc]
  cases k with
  | stream =>
    simp only [receiver, tbStreamServer, forall_const]
    refine forall_congr' fun code => imp_congr_right fun _ => ?_
    split <;> simp_all
  | udt =>
    simp only [receiver, tbUdtServer, reduceCtorEq, false_implies, iff_true]
    intro code _
    split <;> decide

theorem received_exactly_two_bytes :
    ∃ s, run (receiver .stream).step
        (ReceiverProg.init (tbCreateListener .server .tcp 4))
        [.listen true, .accept 5, .recv (.count 2)] = some s ∧ s.Exact :=
  ⟨_, rfl, (received_exactly_iff .stream (tbCreateListener .server .tcp 4)
    [.listen true, .accept 5, .recv (.count 2)] _ rfl (by decide)).mpr
    fun _ _ _ => (by decide : (-1 : Int) ≠ 0)⟩

/-- The same receive after one that has failed with `EAGAIN`, over DCCP. -/
theorem received_one_of_two_bytes :
    ∃ s, run (receiver .stream).step
        (ReceiverProg.init (tbCreateListener .server .dccp 4))
        [.listen true, .accept 5, .recv (.error eagain), .loop, .recv (.count 2)] = some s ∧
      s.pc ≠ .aborted ∧ s.session.totalBytes = 1 ∧ s.listener.totalTxRx = 1 ∧ ¬ s.Exact :=
  ⟨_, rfl, by decide, rfl, rfl, fun h => absurd h.session (by decide)⟩

end TestBed
