import TestBed.Protocol
import TestBed.UdpEvent
import TestBed.Lib.Analysis
import TestBed.Lib.Descriptor

/-!
# The language of the endpoint functions

The endpoint functions are programs over the operations `Op` and the tests `Test`; a `World` is what
one thread sees. Assignments and conditions are Lean functions of the world. The outcome of a call is
the `Io` of its step; `Op.valid` says which outcomes the call can have. Locks, descriptors, function
pointers, the status and the signal handler are operations of their own, so that what a function does
with them can be read off its text.

A lock that the thread already holds blocks it (`blocked`), and a call through a pointer that is not
set has no defined effect (`crashed`); no step follows either. What the calls do to descriptors is kept
in `trace`. Output and logging, the timers of sessions, addresses and buffers are left out; memory that
was freed keeps its contents.
-/

namespace TestBed.Code

open CInt Program Descriptor

inductive LockId
  | listener     -- listener->stat_lock
  | session      -- session->stat_lock
  | utp          -- utp->lock
  deriving DecidableEq, Repr

/-- A lock: the lock of a session belongs to its position. -/
inductive Lock
  | listener
  | session (pos : Nat)
  | utp
  deriving DecidableEq, Repr

/-- The places that hold a descriptor: `listener->sock_d`, `session->sock_d` and `utp->sock_fd`. -/
inductive Slot
  | listener | session | utp
  deriving DecidableEq, Repr

inductive Timer
  | transfer | connect
  deriving DecidableEq, Repr

/-- The integer variables; `fileSize` to `dataSize` are fields of the listener and the session. -/
inductive Var
  | fileSize | totalTxRx | totalBytes | lastTrans | packSize | data | dataSize
  | sz | rmbytes | sent | numBytes | sndBuffSz | x | i | rNum | active | retval | hdrId | hdrSz
  | len | readBytes | writeBytes | nSec
  deriving DecidableEq, Repr

structure EpollEvent where
  epollin : Bool
  epollhup : Bool
  deriving DecidableEq, Repr

/-- A call that libutp makes back. -/
inductive UtpCallback
  | onRead (count : Nat)
  | onWrite (count : Nat)
  | onState (state : UtpState)
  | onError
  | incoming
  deriving DecidableEq, Repr

structure Utp where
  /-- `utp->socket` is not `NULL`. -/
  socket : Bool
  sockFd : Int
  state : UtpState
  readBytes : Int
  writeBytes : Int
  measureTime : Bool
  /-- `utp->last_rec->n_sec` -/
  nSec : Int
  deriving DecidableEq, Repr

structure Locals where
  sz : Int
  rmbytes : Int
  sent : Int
  numBytes : Int
  sndBuffSz : Int
  x : Int
  i : Int
  rNum : Int
  active : Int
  retval : Int
  hdrId : Int
  hdrSz : Int
  len : Int
  deriving DecidableEq, Repr

/-- `tb_global_l` -/
inductive GlobalL
  | null
  | listener
  | destroyed
  deriving DecidableEq, Repr

structure World where
  listener : Listener
  /-- `*listener->protocol` -/
  prot : TbProtocol
  /-- The session that the function works on. -/
  session : Session
  /-- `session->sock_d` was assigned. -/
  assigned : Bool
  /-- `listener->curr_session` points to the session, which is not so where the function has gone on to
  another one. -/
  curr : Bool
  /-- `listener->curr_session->n_session`, as a position in the session list. -/
  nSession : Option Nat
  /-- The position of the session in the session list. -/
  pos : Nat
  utp : Utp
  locals : Locals
  /-- The array of the epoll instance: `epoll_wait` writes the events it returns to its beginning. -/
  events : List EpollEvent
  /-- The result of the last call, and the error code after it. -/
  rc : Int
  errNo : Int
  files : Files
  random : Int → Option (List UInt8)
  /-- The locks that the thread holds. -/
  held : List Lock
  /-- The thread is between acquiring and releasing the listener's `stat_lock`. -/
  sect : Bool
  trace : List Event
  globalL : GlobalL
  /-- The signal handler has run. -/
  interrupted : Bool
  /-- The signal handler has found no listener. -/
  fault : Bool
  blocked : Bool
  crashed : Bool
  /-- `tb_abort` was called. -/
  aborting : Bool

/-- The outcome of a call: its result, the error code, what it stores through its pointer arguments,
the events it reports, and the calls that libutp makes back. -/
structure Io where
  rc : Int
  errNo : Int
  out : List Int
  events : List EpollEvent
  callbacks : List UtpCallback
  deriving DecidableEq, Repr

def Io.ret (rc : Int) : Io := ⟨rc, 0, [], [], []⟩

def Io.fail (errNo : Int) : Io := ⟨-1, errNo, [], [], []⟩

inductive Call
  | getaddrinfo
  | setSockOpt                  -- tb_set_sock_opt
  | bind | listen | connect
  | recv (len : World → Int)
  | send (len : World → Int)
  | recvfrom (len : World → Int)
  | sendto
  | sendmsg (len : World → Int)
  | recvmsg (a b : Var)
  | setsockopt | getsockopt (a : Var) | ioctl (a : Var)
  | epollCreate | epollAdd | epollWait
  | pthreadCreate | pthreadJoin
  | clock (a : Var)             -- tb_finish_time, which stores n_sec
  | cleanup                     -- udt_cleanup, also as f_exit
  | utpCreate | utpConnect | utpWrite (n : World → Int) | utpClose | utpCheckTimeouts
  | utpIsIncoming

inductive Op
  | lock (m : LockId)
  | tryLock (m : LockId)
  | unlock (m : LockId)
  /-- A call, directly or through a pointer of the protocol. -/
  | call (via : Option FPtr) (c : Call)
  /-- `rc = f_error(rc, errno)` -/
  | fError
  | socket (d : Slot) (via : Option FPtr)
  | accept (d : Slot)
  | close (d : Slot) (via : Option FPtr)
  /-- `sock_d = -1` -/
  | reset (d : Slot)
  | copy (dst src : Slot)
  | status (s : Status)
  | command (c : Command)
  /-- `listener->command = listener->s_tx_end` -/
  | txEnd
  | createSession
  | createServerSession
  /-- The result is -1 for `NULL`. -/
  | createSessionFull (type : World → Int)
  | sessStatus (s : SessionStatus)
  /-- `listener->curr_session = session`, or `NULL`. -/
  | curr (b : Bool)
  | addSession (add : SessionList → Session → SessionList)
  | listInc
  | listDec
  /-- Goes to the session at a position of the list. -/
  | visit (pos : World → Nat)
  /-- The session of a datagram is found or created, and counts it. -/
  | demux
  | set (a : Var) (e : World → Int)
  | start (t : Timer)
  | finish (t : Timer)
  | createTestFile
  | utpSetup
  | utpSocket (b : Bool)
  | utpState (s : UtpState)
  /-- `tb_abort` is entered. -/
  | abort
  /-- `tb_global_l = listener` -/
  | publish
  /-- The listener is freed. -/
  | destroy

inductive Test
  | always
  | data (p : World → Bool)
  /-- The last call returned -1. -/
  | failed
  /-- `sock_d != -1` -/
  | sockSet (d : Slot)
  | eType (t : EndpointType)
  | prot (p : Protocol)
  /-- The pointer is not `NULL`. -/
  | ptrSet (p : FPtr)
  /-- `listener->transfer_time->started` -/
  | started
  | not (b : Test)
  | or (b c : Test)

abbrev Stmt := Prog Op Test

/-! ## Places and variables -/

namespace World

variable (w : World)

def slot : Slot → Int
  | .listener => w.listener.sockD
  | .session => w.session.sockD
  | .utp => w.utp.sockFd

def setSlot (d : Slot) (v : Int) : World :=
  match d with
  | .listener => { w with listener := { w.listener with sockD := v } }
  | .session => { w with session := { w.session with sockD := v }, assigned := true }
  | .utp => { w with utp := { w.utp with sockFd := v } }

def setVar (a : Var) (v : Int) : World :=
  match a with
  | .fileSize => { w with listener := { w.listener with fileSize := v } }
  | .totalTxRx => { w with listener := { w.listener with totalTxRx := v } }
  | .totalBytes => { w with session := { w.session with totalBytes := v } }
  | .lastTrans => { w with session := { w.session with lastTrans := v } }
  | .packSize => { w with session := { w.session with packSize := v } }
  | .data => { w with session := { w.session with data := v } }
  | .dataSize => { w with session := { w.session with dataSize := v } }
  | .sz => { w with locals := { w.locals with sz := v } }
  | .rmbytes => { w with locals := { w.locals with rmbytes := v } }
  | .sent => { w with locals := { w.locals with sent := v } }
  | .numBytes => { w with locals := { w.locals with numBytes := v } }
  | .sndBuffSz => { w with locals := { w.locals with sndBuffSz := v } }
  | .x => { w with locals := { w.locals with x := v } }
  | .i => { w with locals := { w.locals with i := v } }
  | .rNum => { w with locals := { w.locals with rNum := v } }
  | .active => { w with locals := { w.locals with active := v } }
  | .retval => { w with locals := { w.locals with retval := v } }
  | .hdrId => { w with locals := { w.locals with hdrId := v } }
  | .hdrSz => { w with locals := { w.locals with hdrSz := v } }
  | .len => { w with locals := { w.locals with len := v } }
  | .readBytes => { w with utp := { w.utp with readBytes := v } }
  | .writeBytes => { w with utp := { w.utp with writeBytes := v } }
  | .nSec => { w with utp := { w.utp with nSec := v } }

def lockOf : LockId → Lock
  | .listener => .listener
  | .session => .session w.pos
  | .utp => .utp

/-- A section of the listener's `stat_lock` begins, whether a lock was acquired or not. -/
def enter (m : LockId) : World := { w with sect := w.sect || m == .listener }

def acquire (m : LockId) : World := { w.enter m with held := w.lockOf m :: w.held }

def release (m : LockId) : World :=
  { w with
    held := w.held.filter (· ≠ w.lockOf m)
    sect := w.sect && m != .listener }

/-- A direct call, or one through a pointer that is set. -/
def defined : Option FPtr → Bool
  | none => true
  | some p => (w.prot.ptr p).isFn

end World

/-! ## Calls -/

/-- `tb_utp_read`, `tb_utp_write`, `tb_utp_state_change`, `tb_utp_error` and `tb_utp_incoming` -/
def Utp.callback (u : Utp) : UtpCallback → Utp
  | .onRead count => { u with readBytes := u.readBytes + count }
  | .onWrite count => { u with writeBytes := u.writeBytes + count }
  | .onState state => { u with state := state }
  | .onError => { u with state := .error }
  | .incoming => { u with socket := true, state := .connect, measureTime := true }

/-- The outcomes that a call can have: -1 for a failure. -/
def Call.valid (w : World) (io : Io) : Call → Bool
  | .setSockOpt => io.rc = 0 || (io.rc = -1 && w.prot.protocol ≠ .utp)
  | .recv len | .send len | .recvfrom len | .sendmsg len =>
    io.rc = -1 || (0 ≤ io.rc && io.rc ≤ len w)
  | .epollWait => io.rc = io.events.length || (io.rc = -1 && io.events.isEmpty)
  | _ => -1 ≤ io.rc

/-- The variables that a call stores to. -/
def Call.stores : Call → List Var
  | .getsockopt a | .ioctl a | .clock a => [a]
  | .recvmsg a b => [a, b]
  | _ => []

/-- The calls into libutp, inside which its callbacks run. -/
def Call.isUtp : Call → Bool
  | .utpCreate | .utpConnect | .utpWrite _ | .utpClose | .utpCheckTimeouts | .utpIsIncoming => true
  | _ => false

def World.store (w : World) : List Var → List Int → World
  | a :: as, v :: vs => (w.setVar a v).store as vs
  | _, _ => w

def Call.isWait : Call → Bool
  | .epollWait => true
  | _ => false

def Call.result (c : Call) (w : World) (io : Io) : World :=
  let w := { w with
    rc := io.rc
    errNo := io.errNo
    events := if c.isWait then io.events ++ w.events.drop io.events.length else w.events }
  let w := if io.rc = -1 then w else w.store c.stores io.out
  if c.isUtp then { w with utp := io.callbacks.foldl Utp.callback w.utp } else w

namespace World

variable (w : World) (io : Io)

/-- The result of `socket` or `accept` is -1 or a descriptor that is not open. -/
def openSlot (d : Slot) : Option World :=
  if io.rc = -1 then some { w.setSlot d (-1) with rc := -1, errNo := io.errNo }
  else if 0 ≤ io.rc ∧ stateOf w.trace io.rc ≠ .live then
    some { w.setSlot d io.rc with rc := io.rc, trace := .opened io.rc :: w.trace }
  else none

def closeSlot (d : Slot) : World := { w with trace := .closed (w.slot d) :: w.trace }

def crash : World := { w with crashed := true }

end World

/-! ## Operations and tests -/

/-- One operation of a thread that is neither blocked nor without defined behaviour. -/
def Op.perform (w : World) (io : Io) : Op → Option World
  | .lock m => some (if w.lockOf m ∈ w.held then { w with blocked := true } else w.acquire m)
  | .tryLock m =>
    if io.rc = 0 then if w.lockOf m ∈ w.held then none else some (w.acquire m)
    else some (w.enter m)
  | .unlock m => some (w.release m)
  | .call via c =>
    if w.defined via then if c.valid w io then some (c.result w io) else none
    else some w.crash
  | .fError =>
    some (if w.defined (some .fError) then { w with rc := w.prot.error w.rc w.errNo } else w.crash)
  | .socket d via => if w.defined via then w.openSlot io d else some w.crash
  | .accept d => w.openSlot io d
  | .close d via => some (if w.defined via then w.closeSlot d else w.crash)
  | .reset d => some (w.setSlot d (-1))
  | .copy dst src => some (w.setSlot dst (w.slot src))
  | .status s => some { w with listener := { w.listener with status := s } }
  | .command c => some { w with listener := { w.listener with command := c } }
  | .txEnd => some { w with listener := { w.listener with command := w.listener.sTxEnd } }
  | .createSession => some { w with session := tbCreateSession, assigned := false, curr := false }
  | .createServerSession =>
    some { w with session := tbCreateServerSession, assigned := false, curr := false }
  | .createSessionFull type =>
    match tbCreateSessionFull (type w) (io.rc = 0) with
    | some s => some { w with session := s, assigned := false, curr := false, rc := 0 }
    | none => some { w with rc := -1 }
  | .sessStatus s => some { w with session := { w.session with status := s } }
  | .curr b => some { w with curr := b }
  | .addSession add =>
    let list := add w.listener.sessionList w.session
    some { w with
      listener := { w.listener with sessionList := list }
      session := list.sessions.getLast?.getD w.session
      pos := w.listener.sessionList.sessions.length }
  | .listInc =>
    let list := (tbSessionListInc w.listener.sessionList).1
    some { w with listener := { w.listener with sessionList := list } }
  | .listDec =>
    let (list, n) := tbSessionListDec w.listener.sessionList
    some ({ w with listener := { w.listener with sessionList := list } }.setVar .active n)
  | .visit pos =>
    some { w with
      pos := pos w
      session := (w.listener.session? (pos w)).getD w.session
      curr := false }
  | .demux =>
    let s := UdpServer.recvData ⟨w.listener, w.nSession, 0⟩ w.locals.hdrId w.rc
    some { w with listener := s.listener, nSession := s.nSession }
  | .set a e => some (w.setVar a (e w))
  | .start .transfer =>
    some { w with listener := { w.listener with
      transferTime := tbStartTime w.listener.transferTime } }
  | .start .connect =>
    some { w with listener := { w.listener with connectTime := tbStartTime w.listener.connectTime } }
  | .finish .transfer =>
    some { w with listener := { w.listener with
      transferTime := tbFinishTime w.listener.transferTime } }
  | .finish .connect =>
    some { w with listener := { w.listener with
      connectTime := tbFinishTime w.listener.connectTime } }
  | .createTestFile => some { w with listener := tbClientLoad w.files w.random w.listener }
  | .utpSetup => some { w with utp := ⟨false, -1, .created, 0, 0, false, 0⟩ }
  | .utpSocket b => some { w with utp := { w.utp with socket := b } }
  | .utpState s => some { w with utp := { w.utp with state := s } }
  | .abort => some { w with aborting := true }
  | .publish => some { w with globalL := .listener }
  | .destroy => some { w with globalL := .destroyed }

def Op.exec (o : Op) (w : World) (io : Io) : Option World :=
  if w.blocked || w.crashed then none else o.perform w io

def Test.eval (w : World) : Test → Bool
  | .always => true
  | .data p => p w
  | .failed => w.rc = -1
  | .sockSet d => w.slot d ≠ -1
  | .eType t => w.listener.eType = t
  | .prot p => w.prot.protocol = p
  | .ptrSet p => w.prot.ptr p ≠ .null
  | .started => w.listener.transferTime.started
  | .not b => !b.eval w
  | .or b c => b.eval w || c.eval w

/-! ## The other parties -/

inductive EnvStep
  /-- The handler of SIGINT, `sig_action`. -/
  | interrupt
  /-- A tick of the monitor. -/
  | tick (q : Nat → StatsQuery)
  /-- What the session threads make of their sessions, their number and the command. -/
  | threads (sessions : List Session) (active : Int) (exit : Bool)

def sigAction (w : World) : World :=
  if w.globalL = .listener then
    { w with listener := { w.listener with command := .tbExit }, interrupted := true }
  else { w with fault := true }

def tickStats (q : Nat → StatsQuery) (l : Listener) : Listener :=
  if l.eType = .client ∨ l.eType = .server then tbSetLStats (q 0) l else tbSetMStats q l

def EnvStep.perform (w : World) : EnvStep → World
  | .interrupt => sigAction w
  | .tick q => { w with listener := tickStats q w.listener }
  | .threads sessions active exit =>
    { w with listener := { w.listener with
      command := if exit then .tbExit else w.listener.command
      sessionList := { w.listener.sessionList with
        sessions := sessions
        numActiveConn := active } } }

def lang : Lang World Op Test Io EnvStep where
  exec := Op.exec
  eval b w := b.eval w
  env w e := some (e.perform w)

/-- The world of a thread that starts on a listener whose socket was handed out to it, if it has
one. -/
def World.ofListener (l : Listener) (p : TbProtocol) (files : Files)
    (random : Int → Option (List UInt8)) : World where
  listener := l
  prot := p
  session := tbCreateSession
  assigned := false
  curr := false
  nSession := none
  pos := 0
  utp := ⟨false, -1, .created, 0, 0, false, 0⟩
  locals := ⟨0, 0, 0, 0, 0, 0, 0, 0, 0, 0, 0, 0, 0⟩
  events := []
  rc := 0
  errNo := 0
  files := files
  random := random
  held := []
  sect := false
  trace := if l.sockD = -1 then [] else [.opened l.sockD]
  globalL := .null
  interrupted := false
  fault := false
  blocked := false
  crashed := false
  aborting := false

end TestBed.Code
