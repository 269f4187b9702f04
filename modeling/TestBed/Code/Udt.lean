import TestBed.Code.Stream

/-!
# UDT

The functions of `tb_udt.c`. The error code 2001 says that the connection is broken.
-/

namespace TestBed.Code

open Program CInt

/-! ## Servers -/

def tbUdtServer : Stmt := .call (.block [
  .op (.call none .listen),
  cond .failed tbAbort,
  .op (.status .listening),
  .loop notCommanded (.block [
    .op .createServerSession,
    .op (.accept .session),
    cond (.not (.sockSet .session)) tbAbort,
    .op (.set .dataSize fun w => asSizeT w.listener.bufsize),
    .op (.curr true),
    .op (.status .connected),
    .op (.start .transfer),
    .loop (.not eLoop) (.block [
      .op (.call none (.recv fun w => asInt w.session.dataSize)),
      .op (.set .lastTrans (·.rc)),
      cond .failed (.ite (errNoIs 2001) .brk tbAbort),
      addTotalBytes (·.session.lastTrans),
      addTotalTxRx (·.session.lastTrans)]),
    .op (.finish .transfer),
    .op (.tryLock .listener),
    .op (.status .disconnected),
    .op (.curr false),
    .op (.close .session none),
    .op (.unlock .listener),
    .op .txEnd]),
  .op (.close .listener (some .fClose)),
  .op (.reset .listener),
  ret (·.listener.totalTxRx)])

def tbUdtEvent : Stmt := .call (.loop .always (.block [
  .op .createSession,
  .op (.accept .session),
  cond (.not (.sockSet .session)) (ret fun _ => 0),
  .op (.set .packSize (·.listener.bufsize)),
  .op (.call none .setsockopt),
  cond .failed tbAbort,
  .op (.addSession tbSessionAdd),
  .op .listInc,
  .op (.call none .pthreadCreate),
  cond (statusIs .listening) (.block [
    .op (.status .connected),
    .op (.start .transfer)])]))

def tbUdtMServer : Stmt := .call (.block [
  .op (.call none .listen),
  .op (.status .listening),
  .op (.call none .setsockopt),
  cond .failed tbAbort,
  .op (.call none .epollCreate),
  .op (.call none .epollAdd),
  cond .failed tbAbort,
  .loop (.not eLoop) (.block [
    .op (.call none .epollWait),
    .op (.set .rNum (·.rc)),
    cond (.data fun w => w.locals.rNum > 0) tbUdtEvent]),
  .op (.finish .transfer),
  .op (.tryLock .listener),
  .op (.close .listener none),
  .op (.status .disconnected),
  .op (.call none .cleanup),
  .op (.unlock .listener),
  ret (·.listener.totalTxRx)])

def tbUdtMServerConn : Stmt := .call (.block [
  .op (.sessStatus .connected),
  .dloop (.data fun w => w.rc ≠ 0) (.block [
    .op (.call none (.recv (·.session.packSize))),
    cond .failed (.ite (errNoIs 2001) .brk (.block [
      .op (.tryLock .session),
      .op (.close .session none),
      .op (.sessStatus .disconnected),
      .op (.unlock .session),
      ret fun _ => -1])),
    addTotalBytes (·.rc)]),
  .op (.tryLock .session),
  .op (.close .session none),
  .op (.sessStatus .disconnected),
  .op .listDec,
  cond (.data fun w => w.locals.active = 0) (.op (.command .tbExit)),
  .op (.unlock .session),
  -- What is returned was never set.
  .ret])

/-! ## Clients -/

def tbUdtClient : Stmt := .call (.block [
  .op (.start .connect),
  tbConnect,
  .op (.finish .connect),
  .op (.status .connected),
  .op (.set .sz (·.listener.bufsize)),
  .op (.start .transfer),
  .loop (.data fun w => w.listener.totalTxRx < w.listener.fileSize ∧
      w.listener.command ≠ .tbAbort ∧ w.listener.command ≠ .tbExit) (.block [
    nextListenerSz,
    .op (.call none (.send fun w => asSizeT w.locals.sz)),
    cond .failed tbAbort,
    addTotalTxRx (·.rc)]),
  .op (.finish .transfer),
  .op (.tryLock .listener),
  .op (.close .listener none),
  .op (.reset .listener),
  .op (.status .disconnected),
  .op (.call none .cleanup),
  .op (.unlock .listener),
  ret (·.listener.totalTxRx)])

def tbUdtMClient : Stmt := .call (.block [
  .op (.set .x fun _ => 0),
  .loop (.data fun w => w.locals.x < 4) (.block [
    .op (.createSessionFull fun _ => sockStream),
    cond .failed tbAbort,
    .op (.socket .session none),
    cond (.not (.sockSet .session)) tbAbort,
    allocate 4,
    .op (.set .packSize (·.listener.bufsize)),
    .op (.addSession tbSessionAdd),
    .op (.call none .pthreadCreate),
    .op (.set .x (·.locals.x + 1))]),
  waitFirst,
  .op (.start .transfer),
  .op (.status .connected),
  joinAll (.op (.close .session none)),
  .op (.finish .transfer),
  .op (.lock .listener),
  .op (.status .disconnected),
  .op (.call none .cleanup),
  .op (.unlock .listener),
  ret (·.listener.totalTxRx)])

def tbUdtMConnection : Stmt := sendConnection

end TestBed.Code
