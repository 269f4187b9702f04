import TestBed.Lib.CInt

/-!
# The data of a test

The structs and enumerations of `tb_listener.h`, `tb_session.h`, `tb_protocol.h` and `tb_common.h`,
with the fields that the modelled functions use. Fields of C integer type are integers; where a
conversion between C types can matter the functions apply it (`CInt.asInt`, `CInt.asSizeT`).

A session list is the list of its sessions in `n_session` order from `start`. A pointer into
`listener->data` is an offset.
-/

namespace TestBed

inductive Protocol
  | tcp | udp | udt | audt | utp | eudp | dccp
  deriving DecidableEq, Repr

inductive EndpointType
  | server | client | mServer | mClient
  deriving DecidableEq, Repr

inductive Status
  | created | starting | connected | disconnected | listening | exiting | aborting | polling
  deriving DecidableEq, Repr

inductive Command
  | tbContinue | tbAbort | tbExit
  deriving DecidableEq, Repr

def Command.code : Command → Nat
  | .tbContinue => 1
  | .tbAbort => 2
  | .tbExit => 4

def tbELoop : Nat := Command.tbAbort.code ||| Command.tbExit.code

/-- `command & TB_E_LOOP` -/
def Command.eLoop (c : Command) : Bool := c.code &&& tbELoop != 0

@[simp] theorem Command.eLoop_tbContinue : Command.tbContinue.eLoop = false := rfl
@[simp] theorem Command.eLoop_tbAbort : Command.tbAbort.eLoop = true := rfl
@[simp] theorem Command.eLoop_tbExit : Command.tbExit.eLoop = true := rfl

inductive SessionStatus
  | created | addrRes | connected | complete | disconnected
  deriving DecidableEq, Repr

def SessionStatus.code : SessionStatus → Nat
  | .created => 0
  | .addrRes => 1
  | .connected => 2
  | .complete => 3
  | .disconnected => 4

/-- `SESSION_CONNECTED` or a later status. -/
def SessionStatus.hasConnected (st : SessionStatus) : Bool :=
  SessionStatus.connected.code ≤ st.code

structure TbTime where
  started : Bool
  stopped : Bool
  deriving DecidableEq, Repr

structure ProtStats where
  id : Int
  currentRead : Int
  sendPLoss : Int
  recvPLoss : Int
  deriving DecidableEq, Repr

structure Session where
  id : Int
  status : SessionStatus
  sockD : Int
  packSize : Int
  /-- Offset of the session's data in `listener->data`. -/
  data : Int
  dataSize : Int
  lastTrans : Int
  totalBytes : Int
  stats : ProtStats
  deriving DecidableEq, Repr

structure SessionList where
  currentMaxId : Int
  numSessions : Int
  /-- The sessions reached from `start`. -/
  sessions : List Session
  numActiveConn : Int
  deriving DecidableEq, Repr

structure Listener where
  protId : Protocol
  eType : EndpointType
  bufsize : Int
  sockD : Int
  fileSize : Int
  filename : Option String
  /-- The block `data` points to, `none` for `NULL`. -/
  data : Option (List UInt8)
  totalTxRx : Int
  transferTime : TbTime
  connectTime : TbTime
  stats : ProtStats
  read : Int
  status : Status
  command : Command
  sTxEnd : Command
  /-- `stat_lock` is held. -/
  statLock : Bool
  sessionList : SessionList
  deriving DecidableEq, Repr

/-- The result of sending the empty message that ends a UDP transfer. -/
inductive EotSend
  | sent | wouldBlock | error
  deriving DecidableEq, Repr

/-! ## Constructors and timers -/

def tbCreateTime : TbTime := ⟨false, false⟩

def tbStartTime (t : TbTime) : TbTime := { t with started := true }

def tbFinishTime (t : TbTime) : TbTime := { t with stopped := true }

/-- `memset(stats, 0, sizeof(tb_prot_stats_t))` -/
def zeroStats : ProtStats := ⟨0, 0, 0, 0⟩

/-- `tb_create_listener`, without the address, thread, processor and log fields. -/
def tbCreateListener (type : EndpointType) (protocol : Protocol) (bufsize : Int) : Listener where
  protId := protocol
  eType := type
  bufsize := bufsize
  sockD := -1
  fileSize := 0
  filename := none
  data := none
  totalTxRx := 0
  transferTime := tbCreateTime
  connectTime := tbCreateTime
  stats := { zeroStats with id := -1 }
  read := 0
  status := .created
  command := .tbContinue
  sTxEnd := .tbExit
  statLock := false
  sessionList := ⟨-1, 0, [], 0⟩

/-- `tb_abort` up to its `pthread_exit`; `stat_lock` is free. -/
def tbAbort (l : Listener) : Listener := { l with status := .aborting }

def Listener.session? (l : Listener) (k : Nat) : Option Session := l.sessionList.sessions[k]?

def Listener.setSession (l : Listener) (k : Nat) (s : Session) : Listener :=
  { l with sessionList := { l.sessionList with sessions := l.sessionList.sessions.set k s } }

end TestBed
