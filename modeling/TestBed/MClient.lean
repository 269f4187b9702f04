import TestBed.ClientThread
import TestBed.Monitor
import TestBed.Lib.Transition

/-!
# Multi-connection clients

`tb_stream_m_client`, `tb_udt_m_client`, `tb_udp_m_client` and `tb_utp_m_client` as one transition
system: the parent (the function itself), the session threads it creates, and the ticks of the
monitor. The four parents are one family, `MClientProg`; each is its own values of the parameters.

The parent creates the sessions and their threads one by one, spins on the status of the first
session, declares the endpoint connected, joins the threads in list order, and runs a straight tail
of closing operations. It has reached its `return` when none of these is left.
-/

namespace TestBed

open CInt Transition

/-- The operations after the last join. -/
inductive CloseOp
  | finishTime     -- tb_finish_time(listener->transfer_time)
  | lock           -- pthread_mutex_lock(&listener->stat_lock)
  | unlock         -- pthread_mutex_unlock(&listener->stat_lock)
  | closeConn      -- tb_udp_m_close_conn(listener)
  | disconnected   -- listener->status = TB_DISCONNECTED
  deriving DecidableEq, Repr

structure MClientProg (τ ι : Type) where
  numConn : Nat
  /-- The socket type handed to `tb_create_session_full`. -/
  sockType : Protocol → Int
  /-- The function sets up a shared socket before it creates sessions. -/
  hasSetup : Bool
  /-- Every session gets a socket of its own. -/
  ownSocket : Bool
  /-- How a session is added to the list. -/
  add : SessionList → Session → SessionList
  /-- `transfer_time` is started with the connection. -/
  timed : Bool
  thread : Thread τ ι
  closing : List CloseOp

inductive ParentPc
  | setup
  | create (x : Nat)
  | wait
  | start
  | join (k : Nat)
  | closing (ops : List CloseOp)
  | failed
  | aborted
  deriving DecidableEq, Repr

def ParentPc.allCreated : ParentPc → Bool
  | .wait | .start | .join _ | .closing _ => true
  | _ => false

/-- A state of a multi-connection client: thread `k` runs the session at position `k`. -/
structure MClient (τ : Type) where
  listener : Listener
  threads : List τ
  parent : ParentPc
  deriving DecidableEq, Repr

def MClient.returned {τ : Type} (s : MClient τ) : Option Int :=
  match s.parent with
  | .closing [] => some s.listener.totalTxRx
  | .failed => some (-1)
  | _ => none

/-- Who moves, and what the environment answers. -/
inductive MLabel (ι : Type)
  | setup (ok : Bool)
  | create (resolved : Bool) (sockD : Int)
  | parent
  | eot (r : EotSend) (ack : Bool)
  | thread (k : Nat) (io : ι)
  | tick (q : Nat → StatsQuery)

variable {τ ι : Type}

namespace MClientProg

variable (p : MClientProg τ ι)

def newSession (l : Listener) (x : Nat) (s : Session) : Session :=
  { s with
    data := l.fileSize.tdiv p.numConn * x
    dataSize := asSizeT (l.fileSize.tdiv p.numConn)
    packSize := l.bufsize }

/-- The options of the shared socket are set; a failure makes the function return -1. -/
def setupStep (s : MClient τ) (ok : Bool) : Option (MClient τ) :=
  if s.parent = .setup then some { s with parent := if ok then .create 0 else .failed } else none

def createStep (s : MClient τ) (resolved : Bool) (sockD : Int) : Option (MClient τ) :=
  match s.parent with
  | .create x =>
    match tbCreateSessionFull (p.sockType s.listener.protId) resolved with
    | none => some { s with listener := tbAbort s.listener, parent := .aborted }
    | some session =>
      if p.ownSocket ∧ sockD = -1 then
        some { s with listener := tbAbort s.listener, parent := .aborted }
      else
        let session := if p.ownSocket then { session with sockD := sockD } else session
        some {
          listener := { s.listener with
            sessionList := p.add s.listener.sessionList (p.newSession s.listener x session) }
          threads := s.threads ++ [p.thread.start]
          parent := if x + 1 < p.numConn then .create (x + 1) else .wait }
  | _ => none

/-- One closing operation; `closeConn` ends once the exit command is set. -/
def closeStep (l : Listener) : CloseOp → Option Listener
  | .finishTime => some { l with transferTime := tbFinishTime l.transferTime }
  | .lock => if l.statLock then none else some { l with statLock := true }
  | .unlock => some { l with statLock := false }
  | .closeConn => if l.command = .tbExit then some l else none
  | .disconnected => some { l with status := .disconnected }

/-- A step of the parent that no call can fail. -/
def parentStep (s : MClient τ) : Option (MClient τ) :=
  match s.parent with
  | .wait =>
    match s.listener.session? 0 with
    | none => none
    | some first => some (if first.status = .created then s else { s with parent := .start })
  | .start =>
    some { s with
      listener := { s.listener with
        transferTime :=
          if p.timed then tbStartTime s.listener.transferTime else s.listener.transferTime
        status := .connected }
      parent := .join 0 }
  | .join k =>
    match s.threads[k]? with
    | none => some { s with parent := .closing p.closing }
    | some c => if (p.thread.retval c).isSome then some { s with parent := .join (k + 1) } else none
  | .closing (op :: ops) =>
    (closeStep s.listener op).map fun l => { s with listener := l, parent := .closing ops }
  | _ => none

/-- One turn of the loop of `tb_udp_m_close_conn`: send the empty message, then poll for the
acknowledgement, whose callback sets the exit command. -/
def eotStep (s : MClient τ) (r : EotSend) (ack : Bool) : Option (MClient τ) :=
  match s.parent with
  | .closing (.closeConn :: ops) =>
    if s.listener.command = .tbExit then none
    else if r = .error then some { s with parent := .closing ops }
    else if ack then some { s with listener := { s.listener with command := .tbExit } }
    else some s
  | _ => none

def threadStep (s : MClient τ) (k : Nat) (io : ι) : Option (MClient τ) :=
  match s.listener.session? k, s.threads[k]? with
  | some session, some c =>
    if p.thread.valid io then
      (p.thread.step session c io).map fun r =>
        { s with listener := s.listener.setSession k r.1, threads := s.threads.set k r.2 }
    else none
  | _, _ => none

def step (s : MClient τ) : MLabel ι → Option (MClient τ)
  | .setup ok => setupStep s ok
  | .create resolved sockD => p.createStep s resolved sockD
  | .parent => p.parentStep s
  | .eot r ack => eotStep s r ack
  | .thread k io => p.threadStep s k io
  | .tick q => some { s with listener := tbSetMStats q s.listener }

def init (l : Listener) : MClient τ where
  listener := l
  threads := []
  parent := if p.hasSetup then .setup else .create 0

end MClientProg

/-! ## The four clients -/

def sockStream : Int := 1
def sockDgram : Int := 2
def sockDccp : Int := 6

/-- `listener->protocol->type`, as `tb_create_protocol` sets it; it builds no aUDT. -/
def protocolType : Protocol → Int
  | .tcp | .udt | .audt => sockStream
  | .udp | .utp | .eudp => sockDgram
  | .dccp => sockDccp

def tbStreamMClient : MClientProg SendConn ThreadIo where
  numConn := 4
  sockType := protocolType
  hasSetup := false
  ownSocket := true
  add := tbSessionAdd
  timed := true
  thread := tbStreamConnection
  closing := [.finishTime, .disconnected]

def tbUdtMClient : MClientProg SendConn ThreadIo where
  numConn := 4
  sockType _ := sockStream
  hasSetup := false
  ownSocket := true
  add := tbSessionAdd
  timed := true
  thread := tbUdtMConnection
  closing := [.finishTime, .lock, .disconnected, .unlock]

/-- The copy of `tb_session_add` inside `tb_udp_m_client`, which does not count the session. -/
def udpSessionAdd (list : SessionList) (session : Session) : SessionList :=
  let id := list.currentMaxId + 1
  { list with
    currentMaxId := id
    sessions := list.sessions ++ [{ session with id := id }] }

def tbUdpMClient : MClientProg UdpConn ThreadIo where
  numConn := 4
  sockType _ := sockDgram
  hasSetup := false
  ownSocket := true
  add := udpSessionAdd
  timed := true
  thread := tbUdpMClientConn
  closing := [.finishTime, .lock, .closeConn, .disconnected, .lock]

def tbUtpMClient : MClientProg UtpConn UtpIo where
  numConn := 2
  sockType _ := sockStream
  hasSetup := true
  ownSocket := false
  add := tbSessionAdd
  timed := false
  thread := tbUtpMClientConn
  closing := [.disconnected]

inductive MKind
  | stream | udt | udp | utp
  deriving DecidableEq, Repr

abbrev MKind.Locals : MKind → Type
  | .stream | .udt => SendConn
  | .udp => UdpConn
  | .utp => UtpConn

abbrev MKind.Io : MKind → Type
  | .stream | .udt | .udp => ThreadIo
  | .utp => UtpIo

def mClient : (k : MKind) → MClientProg k.Locals k.Io
  | .stream => tbStreamMClient
  | .udt => tbUdtMClient
  | .udp => tbUdpMClient
  | .utp => tbUtpMClient

/-- The listener of a multi-connection client as its function finds it: `tb_client` has loaded the
data. -/
def mClientListener (protocol : Protocol) (bufsize fileSize sockD : Int)
    (data : Option (List UInt8)) : Listener :=
  { tbCreateListener .mClient protocol bufsize with
    fileSize := fileSize
    sockD := sockD
    data := data }

end TestBed
