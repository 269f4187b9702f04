import TestBed.Code.Listener

/-!
# TCP and DCCP

The functions of `tb_stream.c`.
-/

namespace TestBed.Code

open Program CInt

/-- `listener->total_tx_rx += e` -/
def addTotalTxRx (e : World → Int) : Stmt :=
  .op (.set .totalTxRx fun w => w.listener.totalTxRx + e w)

/-- `session->total_bytes += e` -/
def addTotalBytes (e : World → Int) : Stmt :=
  .op (.set .totalBytes fun w => w.session.totalBytes + e w)

/-! ## Servers -/

def tbStreamServer : Stmt := .call (.block [
  tbListen,
  .op (.status .listening),
  .loop (.not eLoop) (.block [
    .op .createServerSession,
    .op (.accept .session),
    .op (.start .transfer),
    cond (.not (.sockSet .session)) tbAbort,
    .op (.set .dataSize fun w => asSizeT w.listener.bufsize),
    .op (.curr true),
    .op (.status .connected),
    .dloop (.data fun w => w.session.lastTrans ≠ 0 ∧ ¬ w.listener.command.eLoop) (.block [
      tbRecvData,
      addTotalBytes (·.session.lastTrans),
      addTotalTxRx (·.session.lastTrans)]),
    .op (.finish .transfer),
    .op (.tryLock .listener),
    .op (.status .disconnected),
    .op (.close .session none),
    .op (.curr false),
    -- The session is destroyed here; its descriptor is read once more.
    .op (.close .session (some .fClose)),
    .op (.unlock .listener),
    .op .txEnd]),
  .op (.close .listener (some .fClose)),
  .op (.reset .listener),
  ret (·.listener.totalTxRx)])

def tbStreamEvent : Stmt := .call (.loop .always (.block [
  .op .createSession,
  .op (.accept .session),
  cond (.not (.sockSet .session)) (ret fun _ => 0),
  .op (.call none .setSockOpt),
  .op (.set .packSize (·.listener.bufsize)),
  .op (.addSession tbSessionAdd),
  .op .listInc,
  .op (.call none .pthreadCreate),
  cond (statusIs .listening) (.block [
    .op (.status .connected),
    .op (.start .transfer)])]))

def tbStreamMServer : Stmt := .call (.block [
  tbListen,
  .op (.status .listening),
  .op (.call none .epollCreate),
  .loop (.not eLoop) (tbPollForEvents tbStreamEvent),
  .op (.finish .transfer),
  .op (.tryLock .listener),
  .op (.close .listener none),
  .op (.reset .listener),
  .op (.status .disconnected),
  .op (.unlock .listener),
  ret (·.listener.totalTxRx)])

def tbStreamMServerConn : Stmt := .call (.block [
  .op (.sessStatus .connected),
  .dloop (.data fun w => w.rc ≠ 0) (.block [
    .op (.call none (.recv fun w => asSizeT w.session.packSize)),
    cond .failed (.block [
      .op (.tryLock .session),
      .op (.close .session none),
      .op (.sessStatus .disconnected),
      .op (.unlock .session),
      ret fun _ => -1]),
    addTotalBytes (·.rc)]),
  .op (.tryLock .session),
  .op (.close .session none),
  .op (.sessStatus .disconnected),
  .op .listDec,
  cond (.data fun w => w.locals.active = 0) (.op (.command .tbExit)),
  .op (.unlock .session),
  ret fun _ => 0])

/-! ## Clients -/

/-- The piece of the data that session `x` of `n` is allocated. -/
def allocate (n : Int) : Stmt := .block [
  .op (.set .data fun w => w.listener.fileSize.tdiv n * w.locals.x),
  .op (.set .dataSize fun w => asSizeT (w.listener.fileSize.tdiv n))]

/-- `while(listener->session_list->start->status == SESSION_CREATED);` -/
def waitFirst : Stmt :=
  .loop (.data fun w => (w.listener.session? 0).any (·.status = .created)) .skip

/-- The loop of the parents that joins the session threads; `p` is done under the session's lock. -/
def joinAll (p : Stmt) : Stmt := .block [
  .op (.visit fun _ => 0),
  .loop (.data fun w => (w.listener.session? w.pos).isSome) (.block [
    .op (.call none .pthreadJoin),
    .op (.lock .session),
    p,
    .op (.unlock .session),
    .op (.visit fun w => w.pos + 1)])]

def tbStreamMClient : Stmt := .call (.block [
  .op (.set .x fun _ => 0),
  .loop (.data fun w => w.locals.x < 4) (.block [
    .op (.createSessionFull (·.prot.type)),
    cond .failed tbAbort,
    .op (.socket .session none),
    cond (.not (.sockSet .session)) tbAbort,
    allocate 4,
    .op (.set .packSize (·.listener.bufsize)),
    .op (.addSession tbSessionAdd),
    .op (.call none .pthreadCreate),
    .op (.set .x (·.locals.x + 1))]),
  waitFirst,
  .op (.start .transfer),
  .op (.status .connected),
  joinAll (.op (.close .session none)),
  .op (.finish .transfer),
  .op (.status .disconnected),
  ret (·.listener.totalTxRx)])

/-- `sz` for the next message of a session thread. -/
def nextSz : Stmt := .block [
  .op (.set .rmbytes fun w => asInt (asSizeT (w.session.dataSize - w.session.totalBytes))),
  cond (.data fun w => w.locals.rmbytes < w.session.packSize) (.op (.set .sz (·.locals.rmbytes)))]

/-- `tb_stream_connection`, which `tb_udt_m_connection` copies. -/
def sendConnection : Stmt := .call (.block [
  .op (.call none .connect),
  cond .failed (ret fun _ => -1),
  .op (.sessStatus .connected),
  .op (.set .sz (·.session.packSize)),
  .loop (.data fun w => bytesRemain w.session) (.block [
    nextSz,
    .op (.call none (.send fun w => asSizeT w.locals.sz)),
    cond .failed (ret fun _ => -1),
    addTotalBytes (·.rc)]),
  .op (.sessStatus .complete),
  ret fun _ => 0])

def tbStreamConnection : Stmt := sendConnection

/-- `sz` for the next message of a client with one connection. -/
def nextListenerSz : Stmt := .block [
  .op (.set .rmbytes fun w => asInt (w.listener.fileSize - w.listener.totalTxRx)),
  cond (.data fun w => w.locals.rmbytes < w.listener.bufsize) (.op (.set .sz (·.locals.rmbytes)))]

def tbStreamClient : Stmt := .call (.block [
  .op (.start .connect),
  tbConnect,
  .op (.finish .connect),
  .op (.start .transfer),
  .op (.status .connected),
  .op (.set .sz (·.listener.bufsize)),
  .loop (.data fun w => w.listener.totalTxRx < w.listener.fileSize) (.block [
    nextListenerSz,
    tbSendData (·.locals.sz),
    addTotalTxRx (·.locals.sent)]),
  .op (.finish .transfer),
  .op (.tryLock .listener),
  .op (.close .listener (some .fClose)),
  .op (.reset .listener),
  .op (.status .disconnected),
  .op (.unlock .listener),
  ret (·.listener.totalTxRx)])

end TestBed.Code
