import TestBed.Session
import TestBed.Lib.Slice

/-!
# The session threads of the multi-connection clients

One connection of a multi-connection client runs in a thread of its own. A `Thread` is such a thread
function cut at its system calls: a step takes the session and the thread's locals, and the outcome
of the call is part of the step's label.

* `tb_stream_connection` and `tb_udt_m_connection` are the same loop, `sendConn`, up to the value that
  their send reports a failure with. The calls made on the socket are kept in order.
* `tb_udp_m_client_conn` sends three-part messages; these are kept in order too.
* `tb_utp_m_client_conn` sends through `tb_utp_send`, whose count and whose effect on `utp->state` are
  up to the library.
-/

namespace TestBed

open CInt

/-- A thread function with its locals `τ` and the outcomes `ι` of its calls. -/
structure Thread (τ ι : Type) where
  start : τ
  step : Session → τ → ι → Option (Session × τ)
  /-- The outcomes that the calls can have. -/
  valid : ι → Bool
  /-- The value the thread has returned, if it has. -/
  retval : τ → Option Int
  /-- What a step adds to the session's `total_bytes`. -/
  progress : ι → Int

/-- The outcomes of the calls of a thread: the result of `connect`, the result of one send, and the
end of the function once its loop is over. -/
inductive ThreadIo
  | connect (rc : Int)
  | send (rc : Int)
  | finish
  deriving DecidableEq, Repr

def ThreadIo.valid : ThreadIo → Bool
  | .send rc => -1 ≤ rc
  | _ => true

/-- The bytes a send outcome adds: none for a failure. -/
def ThreadIo.progress : ThreadIo → Int
  | .send rc => max rc 0
  | _ => 0

inductive ConnPc
  | connecting | sending | ending | returned (retval : Int)
  deriving DecidableEq, Repr

def ConnPc.retval : ConnPc → Option Int
  | .returned r => some r
  | _ => none

/-! ## TCP, DCCP and UDT -/

/-- One `send(sock_d, buf, len, 0)`: the offset of `buf` in `listener->data`, the requested length and
the result. -/
structure SendCall where
  off : Int
  len : Int
  rc : Int
  deriving DecidableEq, Repr

/-- The piece of the data that the socket accepted from a call. -/
def SendCall.piece (c : SendCall) : Nat × Nat := (c.off.toNat, c.rc.toNat)

/-- The locals of `tb_stream_connection`, and the calls made on the session's socket. -/
structure SendConn where
  pc : ConnPc
  sz : Int
  calls : List SendCall
  deriving DecidableEq, Repr

def SendConn.accepted (mem : List UInt8) (c : SendConn) : List UInt8 :=
  (c.calls.map SendCall.piece).flatMap fun p => Slice.slice mem p.1 p.2

/-- `total_bytes < data_size`, compared as unsigned integers. -/
def bytesRemain (s : Session) : Bool := asSizeT s.totalBytes < asSizeT s.dataSize

def rmbytes (s : Session) : Int := asInt (asSizeT (s.dataSize - s.totalBytes))

/-- The value of `sz` that one turn of the loop requests. -/
def nextSz (s : Session) (sz : Int) : Int :=
  if rmbytes s < s.packSize then rmbytes s else sz

/-- The steps of `tb_stream_connection` and `tb_udt_m_connection`; `err` is what a failing send
returns. -/
def sendConnStep (err : Int) (s : Session) (c : SendConn) : ThreadIo → Option (Session × SendConn)
  | .connect rc =>
    if c.pc = .connecting then
      if rc = -1 then some (s, { c with pc := .returned (-1) })
      else some ({ s with status := .connected }, { c with pc := .sending, sz := s.packSize })
    else none
  | .send rc =>
    if c.pc = .sending ∧ bytesRemain s then
      let sz := nextSz s c.sz
      let calls := c.calls ++ [⟨s.data + s.totalBytes, asSizeT sz, rc⟩]
      if rc = err then some (s, { pc := .returned (-1), sz := sz, calls := calls })
      else if 0 ≤ rc ∧ rc ≤ asSizeT sz then
        some ({ s with totalBytes := s.totalBytes + rc }, { c with sz := sz, calls := calls })
      else none
    else none
  | .finish =>
    if c.pc = .sending ∧ ¬ bytesRemain s then
      some ({ s with status := .complete }, { c with pc := .returned 0 })
    else none

/-- What one step of the sending thread does. -/
inductive SendStep (err : Int) (s : Session) (c : SendConn) : ThreadIo → Session × SendConn → Prop
  | connectFails (hpc : c.pc = .connecting) :
    SendStep err s c (.connect (-1)) (s, { c with pc := .returned (-1) })
  | connects {rc : Int} (hpc : c.pc = .connecting) (hrc : rc ≠ -1) :
    SendStep err s c (.connect rc)
      ({ s with status := .connected }, { c with pc := .sending, sz := s.packSize })
  | sendFails (hpc : c.pc = .sending) (hleft : bytesRemain s = true) :
    SendStep err s c (.send err) (s, {
      pc := .returned (-1)
      sz := nextSz s c.sz
      calls := c.calls ++ [⟨s.data + s.totalBytes, asSizeT (nextSz s c.sz), err⟩] })
  | sends {rc : Int} (hpc : c.pc = .sending) (hleft : bytesRemain s = true) (herr : rc ≠ err)
      (hrc : 0 ≤ rc) (hrc' : rc ≤ asSizeT (nextSz s c.sz)) :
    SendStep err s c (.send rc) ({ s with totalBytes := s.totalBytes + rc }, { c with
      sz := nextSz s c.sz
      calls := c.calls ++ [⟨s.data + s.totalBytes, asSizeT (nextSz s c.sz), rc⟩] })
  | finishes (hpc : c.pc = .sending) (hleft : ¬ bytesRemain s = true) :
    SendStep err s c .finish ({ s with status := .complete }, { c with pc := .returned 0 })

theorem sendConnStep_cases {err : Int} {s : Session} {c : SendConn} {io : ThreadIo}
    {r : Session × SendConn} (h : sendConnStep err s c io = some r) : SendStep err s c io r := by
  cases io <;> simp only [sendConnStep] at h
  case connect rc =>
    split at h
    · next hpc =>
      split at h <;> cases h
      · next hrc =>
        subst hrc
        exact .connectFails hpc
      · next hrc => exact .connects hpc hrc
    · cases h
  case send rc =>
    split at h
    · next hpc =>
      split at h
      · next hrc =>
        cases h
        subst hrc
        exact .sendFails hpc.1 hpc.2
      · next herr =>
        split at h <;> cases h
        next hrc => exact .sends hpc.1 hpc.2 herr hrc.1 hrc.2
    · cases h
  case finish =>
    split at h <;> cases h
    next hpc => exact .finishes hpc.1 hpc.2

/-- The thread function shared by TCP, DCCP and UDT. -/
def sendConn (err : Int) : Thread SendConn ThreadIo where
  start := ⟨.connecting, 0, []⟩
  step := sendConnStep err
  valid := ThreadIo.valid
  retval c := c.pc.retval
  progress := ThreadIo.progress

def tbStreamConnection : Thread SendConn ThreadIo := sendConn (-1)

def udtError : Int := -1

def tbUdtMConnection : Thread SendConn ThreadIo := sendConn udtError

/-! ## UDP -/

/-- One message of `tb_udp_m_client_conn`: the two header fields, and the offset in `listener->data`
and the length of the payload. -/
structure UdpMsg where
  id : Int
  sz : Int
  off : Int
  len : Int
  deriving DecidableEq, Repr

def UdpMsg.payload (mem : List UInt8) (m : UdpMsg) : List UInt8 :=
  Slice.slice mem m.off.toNat m.len.toNat

/-- `sizeof(int)`, twice: the header of a message. -/
def headerLen : Int := 8

def UdpMsg.size (m : UdpMsg) : Int := headerLen + m.len

/-- The locals of `tb_udp_m_client_conn`: the message vector holds `msg` once the loop was entered;
`sentMsgs` are the messages sent from the loop, `exitMsg` the one sent after it. -/
structure UdpConn where
  pc : ConnPc
  sent : Int
  msg : UdpMsg
  sentMsgs : List UdpMsg
  exitMsg : List UdpMsg
  deriving DecidableEq, Repr

def udpNextMsg (s : Session) (c : UdpConn) : UdpMsg :=
  let left := asSizeT (s.dataSize - s.totalBytes)
  let len := if left < asSizeT s.packSize then left else asSizeT s.packSize
  { id := s.id, sz := asInt len, off := s.data + c.sent, len := len }

def udpConnStep (s : Session) (c : UdpConn) : ThreadIo → Option (Session × UdpConn)
  | .connect rc =>
    if c.pc = .connecting then
      if rc < 0 then some (s, { c with pc := .returned (-1) })
      else some ({ s with status := .connected }, { c with pc := .sending, sent := 0 })
    else none
  | .send rc =>
    if c.pc = .sending then
      let msg := udpNextMsg s c
      if rc = -1 then some (s, { c with pc := .returned (-1), sent := rc, msg := msg })
      else if rc ≤ msg.size then
        let s := { s with totalBytes := s.totalBytes + rc }
        some (s, { c with
          pc := if bytesRemain s then .sending else .ending
          sent := rc
          msg := msg
          sentMsgs := c.sentMsgs ++ [msg] })
      else none
    else none
  | .finish =>
    if c.pc = .ending then
      some ({ s with status := .complete }, { c with pc := .returned 0, exitMsg := [c.msg] })
    else none

/-- What one step of a UDP thread does. -/
inductive UdpStep (s : Session) (c : UdpConn) : ThreadIo → Session × UdpConn → Prop
  | connectFails {rc : Int} (hpc : c.pc = .connecting) (hrc : rc < 0) :
    UdpStep s c (.connect rc) (s, { c with pc := .returned (-1) })
  | connects {rc : Int} (hpc : c.pc = .connecting) (hrc : ¬ rc < 0) :
    UdpStep s c (.connect rc)
      ({ s with status := .connected }, { c with pc := .sending, sent := 0 })
  | sendFails (hpc : c.pc = .sending) :
    UdpStep s c (.send (-1))
      (s, { c with pc := .returned (-1), sent := -1, msg := udpNextMsg s c })
  | sends {rc : Int} (hpc : c.pc = .sending) (hrc : rc ≠ -1) (hrc' : rc ≤ (udpNextMsg s c).size) :
    UdpStep s c (.send rc) ({ s with totalBytes := s.totalBytes + rc }, { c with
      pc := if bytesRemain { s with totalBytes := s.totalBytes + rc } then .sending else .ending
      sent := rc
      msg := udpNextMsg s c
      sentMsgs := c.sentMsgs ++ [udpNextMsg s c] })
  | finishes (hpc : c.pc = .ending) :
    UdpStep s c .finish
      ({ s with status := .complete }, { c with pc := .returned 0, exitMsg := [c.msg] })

theorem udpConnStep_cases {s : Session} {c : UdpConn} {io : ThreadIo} {r : Session × UdpConn}
    (h : udpConnStep s c io = some r) : UdpStep s c io r := by
  cases io <;> simp only [udpConnStep] at h
  case connect rc =>
    split at h
    · next hpc =>
      split at h <;> cases h
      · next hrc => exact .connectFails hpc hrc
      · next hrc => exact .connects hpc hrc
    · cases h
  case send rc =>
    split at h
    · next hpc =>
      split at h
      · next hrc =>
        cases h
        subst hrc
        exact .sendFails hpc
      · next hrc =>
        split at h <;> cases h
        next hrc' => exact .sends hpc hrc hrc'
    · cases h
  case finish =>
    split at h <;> cases h
    next hpc => exact .finishes hpc

def tbUdpMClientConn : Thread UdpConn ThreadIo where
  start := ⟨.connecting, 0, ⟨0, 0, 0, 0⟩, [], []⟩
  step := udpConnStep
  valid := ThreadIo.valid
  retval c := c.pc.retval
  progress := ThreadIo.progress

/-! ## uTP -/

inductive UtpState
  | created | connect | writable | eof | destroying | error
  deriving DecidableEq, Repr

structure UtpConn where
  pc : ConnPc
  sz : Int
  deriving DecidableEq, Repr

/-- The outcomes of the calls of `tb_utp_m_client_conn`: `tb_utp_connect` returns 0; `tb_utp_send`
returns a count or -1 and leaves a state behind. -/
inductive UtpIo
  | connect
  | send (rc : Int) (state : UtpState)
  | finish
  deriving DecidableEq, Repr

def utpConnStep (s : Session) (c : UtpConn) : UtpIo → Option (Session × UtpConn)
  | .connect =>
    if c.pc = .connecting then
      some ({ s with status := .connected }, { pc := .sending, sz := s.packSize })
    else none
  | .send rc state =>
    if c.pc = .sending then
      let left := asSizeT (s.dataSize - s.totalBytes)
      let sz := if left < asSizeT s.packSize then asInt left else c.sz
      let s := { s with totalBytes := s.totalBytes + rc }
      if ¬ bytesRemain s then some (s, { pc := .ending, sz := sz })
      else
        match state with
        | .connect => some ({ s with status := .connected }, { c with sz := sz })
        | .error => some (s, { pc := .returned (-1), sz := sz })
        | _ => some (s, { c with sz := sz })
    else none
  | .finish =>
    if c.pc = .ending then
      some ({ s with status := .disconnected }, { c with pc := .returned 0 })
    else none

def tbUtpMClientConn : Thread UtpConn UtpIo where
  start := ⟨.connecting, 0⟩
  step := utpConnStep
  valid
    | .send rc _ => -1 ≤ rc
    | _ => true
  retval c := c.pc.retval
  progress
    | .send rc _ => rc
    | _ => 0

end TestBed
