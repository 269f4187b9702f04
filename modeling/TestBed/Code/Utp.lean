import TestBed.Code.Stream
import TestBed.EventDrain

/-!
# uTP

The functions of `tb_utp.c`. What libutp does inside a call is the list of callbacks of its outcome. A
failing `sendto` inside libutp ends the process; such a run is a prefix of another.
-/

namespace TestBed.Code

open Program CInt

def econnreset : Int := 104

def emsgsize : Int := 90

def utpStateIs (s : UtpState) : Test := .data fun w => w.utp.state = s

/-! ## The socket functions -/

def tbUtpEvent : Stmt := .call (.block [
  .dloop (.data fun w => w.locals.len > 0) (.block [
    .op (.call none (.recvfrom fun _ => recBuffSize)),
    .op (.set .len (·.rc)),
    cond .failed (.block [
      cond (.or (errNoIs econnreset) (errNoIs emsgsize)) .cont,
      cond (errNoIs ewouldblock) (ret fun _ => 0),
      ret fun _ => -1]),
    .op (.call none .utpIsIncoming),
    cond (.data fun w => w.rc = 0) (ret fun _ => -1)]),
  ret fun _ => 0])

/-- `tb_utp_socket`; its callers do not look at the value returned. -/
def tbUtpSocket : Stmt := .call (.block [
  .op (.socket .utp none),
  cond (.not (.sockSet .utp)) (ret fun _ => -1),
  .op (.call none .epollCreate),
  ret (·.utp.sockFd)])

def tbUtpConnect : Stmt := .call (.block [
  .op (.call none .utpCreate),
  .op (.utpSocket true),
  .op (.call none .utpConnect),
  tbPollForEvents tbUtpEvent,
  ret fun _ => 0])

/-- Two seconds, in nanoseconds. -/
def timeOut : Int := 2 * 1000000000

def tbUtpRecv : Stmt := .call (.block [
  .op (.set .readBytes fun _ => 0),
  tbPollForEvents tbUtpEvent,
  .op (.call none .utpCheckTimeouts),
  cond (.data (·.utp.measureTime)) (.block [
    .op (.call none (.clock .nSec)),
    cond (.data fun w => w.utp.nSec > timeOut) (.block [
      .op (.utpState .error),
      ret fun _ => 0])]),
  ret (·.utp.readBytes)])

def tbUtpSend (n : World → Int) : Stmt := .call (.block [
  .op (.set .writeBytes fun _ => 0),
  .ite (.or (utpStateIs .connect) (utpStateIs .writable))
    (.block [
      .op (.call none (.utpWrite fun w => asSizeT (n w))),
      cond (.data fun w => w.rc = 0) (.op (.utpState .created))])
    (.block [
      tbUtpRecv,
      cond (.data fun w => w.locals.retval < 0) (ret fun _ => -1)]),
  ret (·.utp.writeBytes)])

def tbUtpClose : Stmt := .call (.block [
  cond (.data (·.utp.socket)) (.block [
    .op (.call none .utpClose),
    .op (.call none .utpCheckTimeouts),
    .loop (.not (.or (utpStateIs .destroying) (utpStateIs .error))) (.block [
      tbUtpRecv,
      .op (.call none .utpCheckTimeouts)])]),
  cond (.sockSet .utp) (.op (.close .utp none)),
  ret fun _ => 0])

/-- The options of the UDP socket; a failure makes the caller return -1. -/
def utpSocketOptions : Stmt := .block [
  .op (.call none .setsockopt),
  cond (.data fun w => w.rc ≠ 0) (ret fun _ => -1),
  .op (.call none .setsockopt),
  cond (.data fun w => w.rc ≠ 0) (ret fun _ => -1)]

/-- What the client and the server do in `UTP_STATE_ERROR`. -/
def utpError : Stmt := .block [
  .op (.tryLock .listener),
  tbUtpClose,
  .op (.status .disconnected),
  .op (.reset .listener),
  .op (.unlock .listener),
  tbAbort]

/-! ## Clients -/

def tbUtpMClient : Stmt := .call (.block [
  .op .utpSetup,
  tbUtpSocket,
  utpSocketOptions,
  .op (.set .x fun _ => 0),
  .loop (.data fun w => w.locals.x < 2) (.block [
    .op (.createSessionFull fun _ => sockStream),
    cond .failed tbAbort,
    allocate 2,
    .op (.set .packSize (·.listener.bufsize)),
    .op (.addSession tbSessionAdd),
    .op (.call none .pthreadCreate),
    .op (.set .x (·.locals.x + 1))]),
  waitFirst,
  .op (.status .connected),
  joinAll .skip,
  .op (.status .disconnected),
  ret (·.listener.totalTxRx)])

/-- What is left of the session's data is less than `pack_size`, compared as unsigned integers. -/
def lastUtpSz : Stmt :=
  cond (.data fun w =>
      asSizeT (w.session.dataSize - w.session.totalBytes) < asSizeT w.session.packSize)
    (.op (.set .sz fun w => asInt (asSizeT (w.session.dataSize - w.session.totalBytes))))

def tbUtpMClientConn : Stmt := .call (.block [
  .op (.tryLock .utp),
  tbUtpConnect,
  cond (.data fun w => w.locals.retval < 0) (ret fun _ => -1),
  .op (.unlock .utp),
  .op (.sessStatus .connected),
  .op (.set .sz (·.session.packSize)),
  .loop .always (.block [
    lastUtpSz,
    .op (.tryLock .utp),
    tbUtpSend (·.locals.sz),
    addTotalBytes (·.locals.retval),
    .op (.unlock .utp),
    cond (.not (.data fun w => bytesRemain w.session)) .brk,
    cond (utpStateIs .connect) (.op (.sessStatus .connected)),
    cond (utpStateIs .error) (ret fun _ => -1)]),
  .op (.tryLock .session),
  .op (.sessStatus .disconnected),
  .op (.unlock .session),
  ret fun _ => 0])

def tbUtpClient : Stmt := .call (.block [
  .op .utpSetup,
  tbUtpSocket,
  utpSocketOptions,
  .op (.start .connect),
  tbUtpConnect,
  cond (.data fun w => w.locals.retval < 0) tbAbort,
  .op (.finish .connect),
  .op (.status .connected),
  .op (.copy .listener .utp),
  .op (.set .sz (·.listener.bufsize)),
  .op (.start .transfer),
  .loop (.not eLoop) (.block [
    cond (.data fun w => w.listener.fileSize - w.listener.totalTxRx < w.listener.bufsize)
      (.op (.set .sz fun w => asInt (w.listener.fileSize - w.listener.totalTxRx))),
    tbUtpSend (·.locals.sz),
    addTotalTxRx (·.locals.retval),
    cond (.data fun w => w.listener.totalTxRx ≥ w.listener.fileSize) .brk,
    cond (utpStateIs .connect) (.op (.status .connected)),
    cond (utpStateIs .error) utpError]),
  .op (.finish .transfer),
  .op (.tryLock .listener),
  .op (.status .disconnected),
  tbUtpClose,
  .op (.reset .listener),
  .op (.unlock .listener),
  ret (·.listener.totalTxRx)])

/-! ## Servers -/

def tbUtpMServer : Stmt := .call (ret fun _ => 0)

def tbUtpServer : Stmt := .call (.block [
  .op .utpSetup,
  tbUtpSocket,
  .op (.copy .listener .utp),
  .op .createSession,
  .op (.curr true),
  .op (.copy .session .listener),
  .op (.call none .bind),
  cond .failed tbAbort,
  utpSocketOptions,
  .op (.status .listening),
  .loop notCommanded (.block [
    tbUtpRecv,
    addTotalTxRx (·.locals.retval),
    cond (utpStateIs .connect) (.block [
      cond (.not .started) (.op (.start .transfer)),
      .op (.status .connected)]),
    cond (utpStateIs .eof) (.op (.command .tbExit)),
    cond (utpStateIs .error) utpError]),
  .op (.finish .transfer),
  .op (.tryLock .listener),
  tbUtpClose,
  .op (.status .disconnected),
  .op (.reset .listener),
  .op (.unlock .listener),
  ret (·.listener.totalTxRx)])

end TestBed.Code
