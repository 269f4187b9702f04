import TestBed.Monitor
import TestBed.Lib.Transition

/-!
# Multi-connection servers

`tb_stream_m_server` and `tb_udt_m_server` as one transition system: the main loop, which tests the
command, polls and accepts connections; one session thread for each connection; and the ticks of the
monitor. An accepted connection is added to the list and counted in one step. A session thread that
has received everything leaves the count in one step, and writes `TB_EXIT` in another if it was the
last.
-/

namespace TestBed

open Transition

inductive MainPc
  | setup
  | test
  | poll
  | accepting
  | left
  | returned
  | aborted
  deriving DecidableEq, Repr

def MainPc.out : MainPc → Bool
  | .left | .returned => true
  | _ => false

/-- Program points of a session thread: the loop is over in `closing`, and the connection has left the
count in `leaving`, where the exit command is about to be written. -/
inductive ServePc
  | created
  | receiving
  | closing
  | leaving
  | returned (retval : Option Int)
  deriving DecidableEq, Repr

/-- The thread has not ended its connection. -/
def ServePc.active : ServePc → Bool
  | .created | .receiving | .closing => true
  | _ => false

@[simp] theorem ServePc.active_created : ServePc.created.active = true := rfl
@[simp] theorem ServePc.active_leaving : ServePc.leaving.active = false := rfl
@[simp] theorem ServePc.active_returned (r : Option Int) : (ServePc.returned r).active = false := rfl

/-- The result of one `recv`: a count, or -1 with an error code. -/
inductive RecvRc
  | count (n : Nat)
  | error (code : Int)
  deriving DecidableEq, Repr

inductive ServeAct
  | start
  | recv (r : RecvRc)
  | countOut
  | leave
  deriving DecidableEq, Repr

structure MServerProg where
  /-- A socket option of an accepted connection can fail and abort. -/
  checksOption : Bool
  /-- The error codes of `recv` that end the transfer in order. -/
  endCode : Int → Bool
  /-- What a session thread returns in the end, if it is set. -/
  retval : Option Int
  /-- `sock_d` is reset when the server closes. -/
  resetsSock : Bool

def tbStreamMServer : MServerProg where
  checksOption := false
  endCode _ := false
  retval := some 0
  resetsSock := true

/-- `tb_udt_m_server`; the code 2001 says that the connection is broken. -/
def tbUdtMServer : MServerProg where
  checksOption := true
  endCode code := code == 2001
  retval := none
  resetsSock := false

/-- A state of a multi-connection server: thread `k` serves the session at position `k`. -/
structure MServer where
  listener : Listener
  conns : List ServePc
  main : MainPc
  deriving DecidableEq, Repr

/-- Who moves, and what the environment answers. -/
inductive SLabel
  | setup (ok : Bool)
  | test
  | poll (event : Bool)
  | accept (sockD : Int) (optionOk : Bool)
  | close
  | conn (k : Nat) (act : ServeAct)
  | tick (q : Nat → StatsQuery)

namespace MServerProg

variable (p : MServerProg)

/-- The calls before the main loop; a failure of one that the server checks aborts. -/
def setupStep (s : MServer) (ok : Bool) : Option MServer :=
  if s.main = .setup then
    if ok = false then
      some { s with listener := tbAbort s.listener, main := .aborted }
    else some { s with listener := { s.listener with status := .listening }, main := .test }
  else none

/-- `while(!(listener->command & TB_E_LOOP))` -/
def testStep (s : MServer) : Option MServer :=
  if s.main = .test then
    some { s with main := if s.listener.command.eLoop then .left else .poll }
  else none

def pollStep (s : MServer) (event : Bool) : Option MServer :=
  if s.main = .poll then some { s with main := if event then .accepting else .test } else none

def addConn (l : Listener) (sockD : Int) : Listener :=
  let session := { tbCreateSession with sockD := sockD, packSize := l.bufsize }
  let l := { l with
    sessionList := (tbSessionListInc (tbSessionAdd l.sessionList session)).1 }
  if l.status = .listening then
    { l with status := .connected, transferTime := tbStartTime l.transferTime }
  else l

/-- One turn of the loop of `tb_stream_event` and `tb_udt_event`. -/
def acceptStep (s : MServer) (sockD : Int) (optionOk : Bool) : Option MServer :=
  if s.main = .accepting then
    if sockD = -1 then some { s with main := .test }
    else if p.checksOption ∧ optionOk = false then
      some { s with listener := tbAbort s.listener, main := .aborted }
    else some { s with
      listener := addConn s.listener sockD
      conns := s.conns ++ [.created] }
  else none

def closeStep (s : MServer) : Option MServer :=
  if s.main = .left then
    some { s with
      listener := { s.listener with
        transferTime := tbFinishTime s.listener.transferTime
        sockD := if p.resetsSock then -1 else s.listener.sockD
        status := .disconnected
        statLock := false }
      main := .returned }
  else none

/-- The steps of `tb_stream_m_server_conn` and `tb_udt_m_server_conn`. -/
def serveStep (l : Listener) (session : Session) (pc : ServePc) :
    ServeAct → Option (Listener × Session × ServePc)
  | .start =>
    if pc = .created then some (l, { session with status := .connected }, .receiving) else none
  | .recv (.count n) =>
    if pc = .receiving ∧ n ≤ session.packSize then
      some (l, { session with totalBytes := session.totalBytes + n },
        if n = 0 then .closing else .receiving)
    else none
  | .recv (.error code) =>
    if pc = .receiving then
      if p.endCode code then some (l, session, .closing)
      else some (l, { session with status := .disconnected }, .returned (some (-1)))
    else none
  | .countOut =>
    if pc = .closing then
      let (list, n) := tbSessionListDec l.sessionList
      some ({ l with sessionList := list }, { session with status := .disconnected },
        if n = 0 then .leaving else .returned p.retval)
    else none
  | .leave =>
    if pc = .leaving then some ({ l with command := .tbExit }, session, .returned p.retval)
    else none

def connStep (s : MServer) (k : Nat) (act : ServeAct) : Option MServer :=
  match s.listener.session? k, s.conns[k]? with
  | some session, some pc =>
    (p.serveStep s.listener session pc act).map fun r =>
      { s with listener := r.1.setSession k r.2.1, conns := s.conns.set k r.2.2 }
  | _, _ => none

def step (s : MServer) : SLabel → Option MServer
  | .setup ok => setupStep s ok
  | .test => testStep s
  | .poll event => pollStep s event
  | .accept sockD optionOk => p.acceptStep s sockD optionOk
  | .close => p.closeStep s
  | .conn k act => p.connStep s k act
  | .tick q => some { s with listener := tbSetMStats q s.listener }

def init (l : Listener) : MServer where
  listener := l
  conns := []
  main := .setup

/-- What a step of a session thread does. -/
inductive ServeMoves (p : MServerProg) (l : Listener) (session : Session) :
    ServePc → ServeAct → Listener × Session × ServePc → Prop
  | starts : ServeMoves p l session .created .start
      (l, { session with status := .connected }, .receiving)
  | receives {n : Nat} (hn : n ≤ session.packSize) :
      ServeMoves p l session .receiving (.recv (.count n))
        (l, { session with totalBytes := session.totalBytes + n },
          if n = 0 then .closing else .receiving)
  | ends {code : Int} (hcode : p.endCode code = true) :
      ServeMoves p l session .receiving (.recv (.error code)) (l, session, .closing)
  | fails {code : Int} (hcode : p.endCode code = false) :
      ServeMoves p l session .receiving (.recv (.error code))
        (l, { session with status := .disconnected }, .returned (some (-1)))
  | countsOut : ServeMoves p l session .closing .countOut
      ({ l with sessionList := (tbSessionListDec l.sessionList).1 },
        { session with status := .disconnected },
        if (tbSessionListDec l.sessionList).2 = 0 then .leaving else .returned p.retval)
  | leaves : ServeMoves p l session .leaving .leave
      ({ l with command := .tbExit }, session, .returned p.retval)

theorem serveStep_moves {p : MServerProg} {l : Listener} {session : Session} {pc : ServePc}
    {act : ServeAct} {r : Listener × Session × ServePc}
    (h : p.serveStep l session pc act = some r) : ServeMoves p l session pc act r := by
  match act with
  | .start =>
    simp only [serveStep] at h
    split at h <;> cases h
    next hpc =>
    subst hpc
    exact .starts
  | .recv (.count n) =>
    simp only [serveStep] at h
    split at h <;> cases h
    next hrecv =>
    obtain ⟨rfl, hn⟩ := hrecv
    exact .receives hn
  | .recv (.error code) =>
    simp only [serveStep] at h
    split at h
    · next hpc =>
      subst hpc
      split at h <;> cases h
      · next hcode => exact .ends hcode
      · next hcode => exact .fails (Bool.not_eq_true _ ▸ hcode)
    · cases h
  | .countOut =>
    simp only [serveStep] at h
    split at h <;> cases h
    next hpc =>
    subst hpc
    exact .countsOut
  | .leave =>
    simp only [serveStep] at h
    split at h <;> cases h
    next hpc =>
    subst hpc
    exact .leaves

end MServerProg

inductive SKind
  | stream | udt
  deriving DecidableEq, Repr

def mServer : SKind → MServerProg
  | .stream => tbStreamMServer
  | .udt => tbUdtMServer

end TestBed
