import TestBed.Code.Stream

/-!
# UDP

The functions of `tb_udp.c`.
-/

namespace TestBed.Code

open Program CInt

/-! ## Clients -/

def tbUdpAck : Stmt := .call (.block [
  .op (.command .tbExit),
  ret fun _ => 0])

/-- The loop that sends the empty message `msg` until it is acknowledged. -/
def sendEof (msg : Call) : Stmt :=
  .loop (.data fun w => w.listener.command ≠ .tbExit) (.block [
    .op (.call none msg),
    cond .failed (cond (.not (errNoIs ewouldblock)) .brk),
    tbPollForEvents tbUdpAck])

def tbUdpClient : Stmt := .call (.block [
  .op (.start .connect),
  tbConnect,
  .op (.finish .connect),
  .op (.status .connected),
  .op (.set .sz (·.listener.bufsize)),
  .op (.call none .epollCreate),
  .op (.call none (.getsockopt .sndBuffSz)),
  cond .failed tbAbort,
  .op (.start .transfer),
  .loop (.data fun w => w.listener.totalTxRx < w.listener.fileSize) (.block [
    .op (.call none (.ioctl .numBytes)),
    cond .failed tbAbort,
    cond (.data fun w => w.listener.fileSize - w.listener.totalTxRx < w.listener.bufsize)
      (.op (.set .sz fun w => asInt (w.listener.fileSize - w.listener.totalTxRx))),
    cond (.data fun w => w.locals.sndBuffSz - w.locals.numBytes > w.locals.sz) (.block [
      .op (.call none (.send fun w => asSizeT w.locals.sz)),
      .ite .failed tbAbort (addTotalTxRx (·.rc))])]),
  .op (.finish .transfer),
  sendEof (.send fun _ => 0),
  .op (.tryLock .listener),
  .op (.close .listener (some .fClose)),
  .op (.reset .listener),
  .op (.status .disconnected),
  .op (.unlock .listener),
  ret (·.listener.totalTxRx)])

def tbUdpMCloseConn : Stmt := .call (.block [
  .op (.call none .epollCreate),
  sendEof (.sendmsg fun _ => 0)])

def tbUdpMClient : Stmt := .call (.block [
  .op (.set .x fun _ => 0),
  .loop (.data fun w => w.locals.x < 4) (.block [
    .op (.createSessionFull fun _ => sockDgram),
    cond .failed tbAbort,
    .op (.socket .session none),
    cond (.not (.sockSet .session)) tbAbort,
    allocate 4,
    .op (.set .packSize (·.listener.bufsize)),
    .op (.addSession udpSessionAdd),
    .op (.call none .pthreadCreate),
    .op (.set .x (·.locals.x + 1))]),
  waitFirst,
  .op (.start .transfer),
  .op (.status .connected),
  joinAll (.op (.close .session none)),
  .op (.finish .transfer),
  .op (.lock .listener),
  tbUdpMCloseConn,
  .op (.status .disconnected),
  -- The lock is acquired again where its release stands in the other functions.
  .op (.lock .listener),
  ret (·.listener.totalTxRx)])

/-- The next value of `vec[2].iov_len`, which is kept in `len`. -/
def World.iovLen (w : World) : Int :=
  let left := asSizeT (w.session.dataSize - w.session.totalBytes)
  if left < asSizeT w.session.packSize then left else asSizeT w.session.packSize

def tbUdpMClientConn : Stmt := .call (.block [
  .op (.call none .connect),
  cond .failed (ret fun _ => -1),
  .op (.sessStatus .connected),
  .op (.set .sent fun _ => 0),
  .dloop (.data fun w => bytesRemain w.session) (.block [
    .op (.set .len (·.iovLen)),
    .op (.set .sz (asInt ·.locals.len)),
    .op (.call none (.sendmsg (headerLen + ·.locals.len))),
    .op (.set .sent (·.rc)),
    cond .failed (ret fun _ => -1),
    addTotalBytes (·.rc)]),
  .op (.call none (.sendmsg (headerLen + ·.locals.len))),
  .op (.sessStatus .complete),
  ret fun _ => 0])

/-! ## Servers -/

def tbUdpServer : Stmt := .call (.block [
  .op (.status .listening),
  .op .createServerSession,
  .op (.curr true),
  .op (.set .dataSize fun w => asSizeT w.listener.bufsize),
  tbRecvFrom,
  addTotalTxRx (·.session.lastTrans),
  .op (.status .connected),
  .op (.start .transfer),
  .loop notCommanded (.block [
    tbRecvFrom,
    .ite (.data fun w => w.session.lastTrans = w.prot.eot)
      (.block [tbSendTo, .brk])
      (addTotalTxRx (·.session.lastTrans))]),
  .op (.finish .transfer),
  .op (.lock .listener),
  .op (.close .listener none),
  .op (.reset .listener),
  .op (.status .disconnected),
  .op (.unlock .listener),
  ret (·.listener.totalTxRx)])

def tbUdpEvent : Stmt := .call (.block [
  cond (statusIs .listening) (.block [
    .op (.status .connected),
    .op (.start .transfer)]),
  .op (.set .hdrId fun _ => -1),
  .op (.set .hdrSz fun _ => 0),
  .loop .always (.block [
    .op (.call none (.recvmsg .hdrId .hdrSz)),
    .ite .failed
      (.ite (errNoIs ewouldblock) (ret fun _ => 0) (ret fun _ => -1))
      (.ite (.data fun w => w.locals.hdrSz > 0)
        (.op .demux)
        (.block [
          .op (.call none (.sendmsg fun _ => 0)),
          .op (.command .tbExit),
          .brk]))]),
  ret fun _ => 0])

def tbUdpMServer : Stmt := .call (.block [
  .op (.status .listening),
  .op (.call none .epollCreate),
  .op .createServerSession,
  .op (.curr true),
  .op (.set .dataSize fun w => asSizeT w.listener.bufsize),
  .loop (.not eLoop) (.block [
    tbPollForEvents tbUdpEvent,
    cond (.data fun w => w.locals.retval < 0) (ret fun _ => -1)]),
  .op (.finish .transfer),
  .op (.lock .listener),
  .op (.close .listener none),
  .op (.reset .listener),
  .op (.status .disconnected),
  -- As in `tb_udp_m_client`.
  .op (.lock .listener),
  ret fun _ => 0])

end TestBed.Code
