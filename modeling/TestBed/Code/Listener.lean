import TestBed.Code.World

/-!
# The listener's functions

`tb_abort` and `tb_exit`, the network functions of `tb_listener.c`, which call through the protocol's
pointers, and `tb_poll_for_events`. The callback `f_abort` is `tb_abort`, as `tb_parse` sets it.
-/

namespace TestBed.Code

open Program CInt

/-- `if(b) p` -/
def cond (b : Test) (p : Stmt) : Stmt := .ite b p .skip

/-- `return v` -/
def ret (v : World → Int) : Stmt := .seq (.op (.set .retval v)) .ret

/-- `listener->command & TB_E_LOOP` -/
def eLoop : Test := .data fun w => w.listener.command.eLoop

/-- `listener->command != TB_ABORT && listener->command != TB_EXIT` -/
def notCommanded : Test :=
  .data fun w => w.listener.command ≠ .tbAbort ∧ w.listener.command ≠ .tbExit

def statusIs (s : Status) : Test := .data fun w => w.listener.status = s

def errNoIs (e : Int) : Test := .data fun w => w.errNo = e

def ewouldblock : Int := eagain

/-! ## Abort and exit -/

def tbExit : Stmt := .call (.block [
  .op (.status .exiting),
  .halt])

def tbAbort : Stmt := .call (.block [
  .op .abort,
  cond (.sockSet .listener) (.block [
    .op (.lock .listener),
    .op (.close .listener (some .fClose)),
    .op (.status .disconnected),
    .op (.unlock .listener)]),
  .op (.status .aborting),
  .halt])

/-! ## Network functions -/

def tbListen : Stmt := .call (.block [
  .op (.call (some .fListen) .listen),
  cond .failed tbAbort])

def tbResolveAddress : Stmt := .call (.block [
  .op (.call none .getaddrinfo),
  cond .failed tbAbort])

def tbCreateSocket : Stmt := .call (.block [
  .op (.socket .listener (some .fSock)),
  cond (.not (.sockSet .listener)) tbAbort])

def tbConnect : Stmt := .call (.block [
  .op (.call (some .fConnect) .connect),
  cond .failed tbAbort])

def tbBind : Stmt := .call (.block [
  .op (.call (some .fBind) .bind),
  cond .failed tbAbort])

/-- `tb_send_data`; the value returned is left in `sent`. -/
def tbSendData (size : World → Int) : Stmt := .call (.block [
  .op (.call (some .fSend) (.send fun w => asSizeT (size w))),
  .op (.set .sent (·.rc)),
  cond .failed (.block [
    .op .fError,
    cond (.data fun w => w.rc ≠ 0) tbAbort,
    .op (.set .sent fun _ => 0)])])

def tbRecvData : Stmt := .call (.block [
  .op (.call (some .fRecv) (.recv (·.session.dataSize))),
  .op (.set .lastTrans (·.rc)),
  cond .failed (.block [
    .op .fError,
    cond (.data fun w => w.rc ≠ 0) tbAbort])])

def tbSendTo : Stmt := .call (.block [
  .op (.call (some .fSendto) .sendto),
  cond .failed tbAbort])

def tbRecvFrom : Stmt := .call (.block [
  .op (.call (some .fRecfrom) (.recvfrom (·.session.dataSize))),
  .op (.set .lastTrans (·.rc)),
  cond .failed tbAbort])

/-! ## Events -/

def World.event (w : World) (i : Int) : EpollEvent := w.events.getD i.toNat ⟨false, false⟩

/-- `tb_poll_for_events` on an instance whose callback is `fEvent`. -/
def tbPollForEvents (fEvent : Stmt) : Stmt := .call (.block [
  .op (.call none .epollWait),
  .op (.set .rNum (·.rc)),
  .op (.set .i fun _ => 0),
  .loop (.data fun w => w.locals.i < w.locals.rNum) (.block [
    .ite (.data fun w => (w.event w.locals.i).epollin)
      fEvent
      (.ite (.data fun w => (w.event 1).epollhup) (ret fun _ => 1) (ret fun _ => -1)),
    .op (.set .i fun w => w.locals.i + 1)]),
  ret fun _ => 0])

/-! ## Destruction -/

def tbDestroyProtocol : Stmt := .call (
  cond (.ptrSet .fExit) (.op (.call (some .fExit) .cleanup)))

def tbDestroyListener : Stmt := .call (.block [
  tbDestroyProtocol,
  .op .destroy])

end TestBed.Code
