import TestBed.MClient
import TestBed.StreamClient

/-!
# The protocol table

`tb_create_protocol` fills the function pointers of a `tb_protocol_t`. A pointer is the function it
points to, `NULL`, or what `malloc` left in it.
-/

namespace TestBed

/-- The functions that the tables point to. -/
inductive CFun
  | socket | bind | connect | listen | recv | send | accept | close | recvfrom | sendto
  | udtSocket | udtBind | udtConnect | udtListen | udtRecv | udtSend | udtAccept | udtClose
  | udtCleanup
  | tbUtpSocket | tbUtpConnect | tbUtpSend
  | tbSocketError | tbDccpError | tbUdtError | tbUtpErrorHandle
  | tbUdpEvent
  deriving DecidableEq, Repr

inductive Ptr
  | unset
  | null
  | fn (f : CFun)
  deriving DecidableEq, Repr

/-- A call through the pointer is defined. -/
def Ptr.isFn : Ptr → Bool
  | .fn _ => true
  | _ => false

/-- The function pointers of `tb_protocol_t`. -/
inductive FPtr
  | fSock | fBind | fConnect | fListen | fRecv | fSend | fAccept | fClose | fRecfrom | fSendto
  | fError | fOpt | fExit | fSetup | fEpEvent
  deriving DecidableEq, Repr

structure TbProtocol where
  ptr : FPtr → Ptr
  type : Int
  eot : Int
  protocol : Protocol

def tcpPtr : FPtr → Ptr
  | .fSock => .fn .socket
  | .fBind => .fn .bind
  | .fConnect => .fn .connect
  | .fListen => .fn .listen
  | .fRecv => .fn .recv
  | .fSend => .fn .send
  | .fAccept => .fn .accept
  | .fClose => .fn .close
  | .fError => .fn .tbSocketError
  | .fRecfrom | .fSendto | .fOpt | .fExit | .fSetup | .fEpEvent => .null

def udpPtr : FPtr → Ptr
  | .fSock => .fn .socket
  | .fBind => .fn .bind
  | .fConnect => .fn .connect
  | .fSend => .fn .send
  | .fClose => .fn .close
  | .fRecfrom => .fn .recvfrom
  | .fSendto => .fn .sendto
  | .fError => .fn .tbSocketError
  | .fListen | .fRecv | .fOpt | .fExit | .fSetup | .fEpEvent => .null
  | .fAccept => .unset

def udtPtr : FPtr → Ptr
  | .fSock => .fn .udtSocket
  | .fBind => .fn .udtBind
  | .fConnect => .fn .udtConnect
  | .fListen => .fn .udtListen
  | .fRecv => .fn .udtRecv
  | .fSend => .fn .udtSend
  | .fAccept => .fn .udtAccept
  | .fClose => .fn .udtClose
  | .fExit => .fn .udtCleanup
  | .fError => .fn .tbUdtError
  | .fRecfrom | .fSendto | .fOpt | .fSetup | .fEpEvent => .null

def utpPtr : FPtr → Ptr
  | .fSock => .fn .tbUtpSocket
  | .fBind => .fn .bind
  | .fConnect => .fn .tbUtpConnect
  | .fSend => .fn .tbUtpSend
  | .fError => .fn .tbUtpErrorHandle
  | .fListen | .fRecv | .fClose | .fAccept | .fExit | .fRecfrom | .fSendto | .fOpt | .fSetup
  | .fEpEvent => .null

def eudpPtr : FPtr → Ptr
  | .fSock => .fn .socket
  | .fBind => .fn .bind
  | .fConnect => .fn .connect
  | .fListen => .fn .listen
  | .fClose => .fn .close
  | .fSendto => .fn .sendto
  | .fError => .fn .tbSocketError
  | .fEpEvent => .fn .tbUdpEvent
  | .fRecv | .fSend | .fAccept | .fExit | .fRecfrom | .fOpt | .fSetup => .null

/-- The table of TCP with the error function of DCCP. -/
def dccpPtr : FPtr → Ptr
  | .fError => .fn .tbDccpError
  | p => tcpPtr p

/-- `tb_create_protocol`; `none` is its `exit(-1)`. -/
def tbCreateProtocol : Protocol → Option TbProtocol
  | .tcp => some ⟨tcpPtr, sockStream, 0, .tcp⟩
  | .udp => some ⟨udpPtr, sockDgram, 0, .udp⟩
  | .udt => some ⟨udtPtr, sockStream, -1, .udt⟩
  | .audt => none
  | .utp => some ⟨utpPtr, sockDgram, -128, .utp⟩
  | .eudp => some ⟨eudpPtr, sockDgram, 0, .eudp⟩
  | .dccp => some ⟨dccpPtr, sockDccp, 0, .dccp⟩

/-- The function that a pointer to an error function stands for. -/
def errorFn : CFun → Int → Int → Int
  | .tbDccpError => tbDccpError
  | .tbUdtError => tbUdtError
  | .tbUtpErrorHandle => tbUtpErrorHandle
  | _ => tbSocketError

def TbProtocol.error (p : TbProtocol) (value errNo : Int) : Int :=
  match p.ptr .fError with
  | .fn f => errorFn f value errNo
  | _ => 0

/-- **The tables agree with the functions that the other models read from them**: the protocol, the
socket type and the error function. -/
theorem tbCreateProtocol_eq_some {prot : Protocol} {p : TbProtocol}
    (h : tbCreateProtocol prot = some p) :
    p.protocol = prot ∧ p.type = protocolType prot ∧ p.error = fError prot := by
  cases prot <;> cases h <;> exact ⟨rfl, rfl, rfl⟩

end TestBed
