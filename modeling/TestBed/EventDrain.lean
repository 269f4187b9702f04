import TestBed.UdpEvent
import TestBed.MServer
import TestBed.Lib.Drain

/-!
# What an event leaves on the socket

The callbacks of the edge-triggered epoll instances, over a queue of the results that their calls on
the socket find before `EWOULDBLOCK`. What a callback leaves in the queue raises no further event.

Each of the three loops leaves early in a way of its own (`eventDrains_iff`): `tb_stream_event` at any
failure of `accept`, `tb_udp_event` at any other error of `recvmsg`, and `tb_utp_event` at an empty
datagram, at one that libutp rejects, and at every error; its `continue` goes to the loop's test
`len > 0`, and `len` is negative there.

`UTP_IsIncomingUTP` is a parameter: what it makes of the library's state, and whether it accepts the
datagram.
-/

namespace TestBed

open CInt Drain

/-! ## TCP and DCCP -/

/-- A result of `accept`: the descriptor, or -1 with an error code other than `EWOULDBLOCK`. -/
inductive AcceptRc
  | conn (sockD : Nat)
  | error (code : Int)
  deriving DecidableEq, Repr

/-- One turn of the loop of `tb_stream_event`. -/
def streamTurn (l : Listener) : AcceptRc → Listener × Bool
  | .conn sockD => (MServerProg.addConn l sockD, true)
  | .error _ => (l, false)

/-- `tb_stream_event`: the listener and the results left on the socket. -/
def tbStreamEvent (queue : List AcceptRc) (l : Listener) : Listener × List AcceptRc :=
  drain streamTurn l queue

theorem streamEvent_drains_iff (l : Listener) (queue : List AcceptRc) :
    (tbStreamEvent queue l).2 = [] ↔
      ∀ pre code q, queue = pre ++ .error code :: q → q = [] := by
  unfold tbStreamEvent
  rw [drain_rest_eq_nil_iff]
  constructor
  · intro h pre code q hq
    by_contra hne
    have hgo := h pre (.error code) q hq hne
    cases hgo
  · intro h pre r q hq hne
    cases r with
    | conn sockD => rfl
    | error code => exact absurd (h pre code q hq) hne

/-! ## uTP -/

inductive UtpErr
  | connReset | msgSize | other (code : Int)
  deriving DecidableEq, Repr

/-- A result of `recvfrom` other than `EWOULDBLOCK`. -/
inductive UtpRecv
  | datagram (bytes : List UInt8)
  | error (err : UtpErr)
  deriving DecidableEq, Repr

/-- What `tb_utp_event` works on: the library, the datagrams passed to it so far, the resets of the
timer `last_rec`, and the value returned. -/
structure UtpEvent (β : Type) where
  lib : β
  passed : List (List UInt8)
  lastRec : Nat
  rc : Int
  deriving DecidableEq, Repr

def recBuffSize : Nat := 1024 * 2

/-- One turn of the loop of `tb_utp_event`, with the test `len > 0` at its end. -/
def utpTurn {β : Type} (isIncoming : β → List UInt8 → β × Bool) (s : UtpEvent β) :
    UtpRecv → UtpEvent β × Bool
  -- `continue` does not read again: `len` is -1 at the test
  | .error .connReset | .error .msgSize => ({ s with rc := 0 }, false)
  | .error (.other _) => ({ s with rc := -1 }, false)
  | .datagram d =>
    let bytes := d.take recBuffSize
    let r := isIncoming s.lib bytes
    let s := { s with lib := r.1, passed := s.passed ++ [bytes] }
    if r.2 then ({ s with lastRec := s.lastRec + 1 }, decide (bytes.length > 0))
    else ({ s with rc := -1 }, false)

def tbUtpEvent {β : Type} (isIncoming : β → List UInt8 → β × Bool) (queue : List UtpRecv)
    (s : UtpEvent β) : UtpEvent β × List UtpRecv :=
  drain (utpTurn isIncoming) { s with rc := 0 } queue

/-- The datagrams of a queue, as `recvfrom` returns them. -/
def utpDatagrams (queue : List UtpRecv) : List (List UInt8) :=
  queue.filterMap fun
    | .datagram d => some (d.take recBuffSize)
    | .error _ => none

/-- The library after it has been given the datagrams of a queue. -/
def libAfter {β : Type} (isIncoming : β → List UInt8 → β × Bool) (lib : β)
    (queue : List UtpRecv) : β :=
  (utpDatagrams queue).foldl (fun lib d => (isIncoming lib d).1) lib

section Utp

variable {β : Type} (isIncoming : β → List UInt8 → β × Bool)

/-- Every turn passes a datagram to the library, accepted or not. -/
theorem after_utpTurn (s : UtpEvent β) (queue : List UtpRecv) :
    (after (utpTurn isIncoming) s queue).lib = libAfter isIncoming s.lib queue ∧
      (after (utpTurn isIncoming) s queue).passed = s.passed ++ utpDatagrams queue := by
  induction queue generalizing s with
  | nil => simp [libAfter, utpDatagrams]
  | cons r queue ih =>
    rw [after_cons, (ih _).1, (ih _).2]
    cases r with
    | error err => cases err <;> exact ⟨rfl, rfl⟩
    | datagram d =>
      simp only [utpTurn, libAfter, utpDatagrams, List.filterMap_cons, List.foldl_cons]
      split <;> simp

theorem utpTurn_goes_on_iff (s : UtpEvent β) (r : UtpRecv) :
    (utpTurn isIncoming s r).2 = true ↔
      ∃ d, r = .datagram d ∧ d ≠ [] ∧ (isIncoming s.lib (d.take recBuffSize)).2 = true := by
  cases r with
  | error err => cases err <;> simp [utpTurn]
  | datagram d =>
    have hlen : (d.take recBuffSize).length > 0 ↔ d ≠ [] := by
      rw [← List.length_pos_iff, List.length_take, recBuffSize]
      omega
    simp only [utpTurn, UtpRecv.datagram.injEq, exists_eq_left']
    split
    · next hok => simp only [decide_eq_true_eq, hlen, hok, and_true]
    · next hno => simp [hno]

theorem utpEvent_drains_iff (s : UtpEvent β) (queue : List UtpRecv) :
    ((tbUtpEvent isIncoming queue s).2 = [] ∧
        (tbUtpEvent isIncoming queue s).1.passed = s.passed ++ utpDatagrams queue) ↔
      ∀ pre r q, queue = pre ++ r :: q → q ≠ [] → ∃ d, r = .datagram d ∧ d ≠ [] ∧
        (isIncoming (libAfter isIncoming s.lib pre) (d.take recBuffSize)).2 = true := by
  have hlib := fun pre => (after_utpTurn isIncoming { s with rc := 0 } pre).1
  have hdrain : (tbUtpEvent isIncoming queue s).2 = [] ↔ _ := drain_rest_eq_nil_iff _ queue
  simp only [utpTurn_goes_on_iff, hlib] at hdrain
  rw [← hdrain]
  constructor
  · exact And.left
  · intro h
    refine ⟨h, ?_⟩
    unfold tbUtpEvent at h ⊢
    rw [drain_state h]
    exact (after_utpTurn isIncoming _ queue).2

end Utp

/-! ## UDP -/

/-- The header buffers after the datagrams of a queue have been read into them. -/
def hdrsAfter (hdr : List UInt8) (queue : List Recv) : List UInt8 :=
  queue.foldl (fun hdr r => match r with
    | .datagram d => recvHdr hdr d
    | .error => hdr) hdr

/-- The datagram `d`, read after those of `pre`, leaves no positive size in the header. -/
def CallsForExit (hdr : List UInt8) (pre : List Recv) (d : List UInt8) : Prop :=
  ¬ hdrSz (recvHdr (hdrsAfter hdr pre) d) > 0

/-- Every error but the last element of the queue comes after a call for exit. -/
def ErrorsAfterExit (hdr : List UInt8) (queue : List Recv) : Prop :=
  ∀ pre q, queue = pre ++ .error :: q → q ≠ [] →
    ∃ pre₁ d pre₂, pre = pre₁ ++ .datagram d :: pre₂ ∧ CallsForExit hdr pre₁ d

theorem errorsAfterExit_error {hdr : List UInt8} {queue : List Recv} :
    ErrorsAfterExit hdr (.error :: queue) ↔ queue = [] := by
  constructor
  · intro h
    by_contra hne
    obtain ⟨pre₁, d, pre₂, hpre, -⟩ := h [] queue rfl hne
    simp at hpre
  · rintro rfl pre q hq hne
    cases pre with
    | nil => simp_all
    | cons x pre => simp at hq

theorem errorsAfterExit_exit {hdr d : List UInt8} {queue : List Recv}
    (h : CallsForExit hdr [] d) : ErrorsAfterExit hdr (.datagram d :: queue) := by
  intro pre q hq _
  cases pre with
  | nil => simp at hq
  | cons x pre =>
    obtain ⟨rfl, -⟩ := List.cons.inj hq
    exact ⟨[], d, pre, rfl, h⟩

theorem errorsAfterExit_data {hdr d : List UInt8} {queue : List Recv}
    (h : ¬ CallsForExit hdr [] d) :
    ErrorsAfterExit hdr (.datagram d :: queue) ↔ ErrorsAfterExit (recvHdr hdr d) queue := by
  constructor
  · intro hall pre q hq hne
    obtain ⟨pre₁, d', pre₂, hpre, hexit⟩ := hall (.datagram d :: pre) q (by simp [hq]) hne
    cases pre₁ with
    | nil =>
      obtain ⟨heq, -⟩ := List.cons.inj hpre
      cases heq
      exact absurd hexit h
    | cons x pre₁ =>
      obtain ⟨rfl, htail⟩ := List.cons.inj hpre
      exact ⟨pre₁, d', pre₂, htail, hexit⟩
  · intro hall pre q hq hne
    cases pre with
    | nil => simp at hq
    | cons x pre =>
      obtain ⟨rfl, htail⟩ := List.cons.inj hq
      obtain ⟨pre₁, d', pre₂, rfl, hexit⟩ := hall pre q htail hne
      exact ⟨.datagram d :: pre₁, d', pre₂, rfl, hexit⟩

/-- The call has answered a call for exit and set the exit command. -/
def SetsExit (s : UdpServer) (r : EventResult) : Prop :=
  r.server.acks = s.acks + 1 ∧ r.server.listener.command = .tbExit

theorem udpDrain_drains_iff (hdr : List UInt8) (queue : List Recv) (s : UdpServer) :
    ((udpDrain hdr queue s).queue = [] ∨ SetsExit s (udpDrain hdr queue s)) ↔
      ErrorsAfterExit hdr queue := by
  induction queue generalizing hdr s with
  | nil => simp [udpDrain, ErrorsAfterExit]
  | cons r queue ih =>
    cases r with
    | error => simp [udpDrain, SetsExit, errorsAfterExit_error]
    | datagram d =>
      by_cases hexit : CallsForExit hdr [] d
      · have hsz : ¬ hdrSz (recvHdr hdr d) > 0 := hexit
        have hset : SetsExit s ⟨s.callForExit, queue, 0⟩ := ⟨rfl, rfl⟩
        simp only [udpDrain, if_neg hsz, hset, or_true, true_iff]
        exact errorsAfterExit_exit hexit
      · have hsz : hdrSz (recvHdr hdr d) > 0 := not_not.mp hexit
        have hrec := ih (recvHdr hdr d) (s.recvData (hdrId (recvHdr hdr d)) (recvRc hdr d))
        rw [errorsAfterExit_data hexit, ← hrec]
        simp only [udpDrain, if_pos hsz]
        rfl

theorem udpEvent_drains_iff (s : UdpServer) (queue : List Recv) :
    ((tbUdpEvent queue s).queue = [] ∨ SetsExit s (tbUdpEvent queue s)) ↔
      ErrorsAfterExit (intBytes (-1) ++ intBytes 0) queue := by
  unfold tbUdpEvent
  exact udpDrain_drains_iff _ queue _

/-! ## The three callbacks -/

/-- Every callback, on every queue, consumes the queue or has set the exit command. -/
def EventsDrain : Prop :=
  (∀ l queue, (tbStreamEvent queue l).2 = []) ∧
  (∀ s queue, (tbUdpEvent queue s).queue = [] ∨ SetsExit s (tbUdpEvent queue s)) ∧
  ∀ (β : Type) (isIncoming : β → List UInt8 → β × Bool) (s : UtpEvent β) (queue : List UtpRecv),
    (tbUtpEvent isIncoming queue s).2 = [] ∧
      (tbUtpEvent isIncoming queue s).1.passed = s.passed ++ utpDatagrams queue

/-- **When an event drains its socket.** `tb_stream_event` if no failure of `accept` but the last result
is pending; `tb_udp_event` if every pending error but the last result comes after a call for exit;
`tb_utp_event` if every pending result but the last is a datagram, not empty, that libutp accepts. -/
theorem eventDrains_iff (l : Listener) (accepts : List AcceptRc) (u : UdpServer) (recvs : List Recv)
    {β : Type} (isIncoming : β → List UInt8 → β × Bool) (s : UtpEvent β) (queue : List UtpRecv) :
    ((tbStreamEvent accepts l).2 = [] ↔ ∀ pre code q, accepts = pre ++ .error code :: q → q = []) ∧
    (((tbUdpEvent recvs u).queue = [] ∨ SetsExit u (tbUdpEvent recvs u)) ↔
      ErrorsAfterExit (intBytes (-1) ++ intBytes 0) recvs) ∧
    (((tbUtpEvent isIncoming queue s).2 = [] ∧
        (tbUtpEvent isIncoming queue s).1.passed = s.passed ++ utpDatagrams queue) ↔
      ∀ pre r q, queue = pre ++ r :: q → q ≠ [] → ∃ d, r = .datagram d ∧ d ≠ [] ∧
        (isIncoming (libAfter isIncoming s.lib pre) (d.take recBuffSize)).2 = true) :=
  ⟨streamEvent_drains_iff l accepts, udpEvent_drains_iff u recvs,
    utpEvent_drains_iff isIncoming s queue⟩

/-- A connection reset is pending before a datagram that libutp would accept. -/
theorem utpEvent_leaves_datagram : ¬ EventsDrain := by
  rintro ⟨-, -, hutp⟩
  have h := hutp Unit (fun lib _ => (lib, true)) ⟨(), [], 0, 0⟩
    [.error .connReset, .datagram [65, 1]]
  exact absurd h.1 (by decide)

end TestBed
