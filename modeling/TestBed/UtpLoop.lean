import TestBed.ClientSend

/-!
# The uTP client and server among the callbacks of libutp

`tb_utp_client` and `tb_utp_server` from the point where the UDP socket is set up, cut at their calls
into libutp; each callback that the library makes inside a call is a step of its own. The sockets that
the library makes are numbered in order. What a step can do is said once, in its lemma `_cases`.

What `trace` and `fills` record is read by no step: the calls on sockets, the reports, the looks at
`utp->state`, and the buffers that `tb_utp_write` has filled.
-/

namespace TestBed

open CInt

/-! ## The library -/

/-- The states of `utp.h`. -/
inductive LibState
  | connect | writable | eof | destroying
  deriving DecidableEq, Repr

def LibState.state : LibState → UtpState
  | .connect => .connect
  | .writable => .writable
  | .eof => .eof
  | .destroying => .destroying

inductive LibCallback
  | onRead (count : Nat)
  | onWrite (count : Nat)
  | onState (sock : Nat) (state : LibState)
  | onError (sock : Nat)
  | incoming
  deriving DecidableEq, Repr

/-! ## The state of a run -/

/-- The fields of `tb_utp_t` that the callbacks and the functions share; `s_data` is an offset in
`listener->data`. -/
structure TbUtp where
  socket : Option Nat
  state : UtpState
  readBytes : Int
  writeBytes : Int
  sData : Int
  measureTime : Bool
  deriving DecidableEq, Repr

def tbUtpSetup : TbUtp := ⟨none, .created, 0, 0, 0, false⟩

/-- The loop that calls `tb_utp_recv`: of the client or server, or of `tb_utp_close`. -/
inductive UtpCaller
  | main | drain
  deriving DecidableEq, Repr

inductive UtpPc
  | start
  | connecting                -- in the poll of tb_utp_connect
  | test
  | writing                   -- in UTP_Write
  | polling (c : UtpCaller)   -- in the poll of tb_utp_recv
  | timeouts (c : UtpCaller)  -- in UTP_CheckTimeouts of tb_utp_recv
  | switch
  | closing                   -- in UTP_Close
  | closeTimeouts             -- in UTP_CheckTimeouts of tb_utp_close
  | returned
  | aborted
  deriving DecidableEq, Repr

/-- A call into libutp that can call back is running. -/
def UtpPc.inLib : UtpPc → Bool
  | .connecting | .writing | .polling _ | .timeouts _ | .closing | .closeTimeouts => true
  | _ => false

/-- In a call of `UTP_IsIncomingUTP`. -/
def UtpPc.inIncoming : UtpPc → Bool
  | .connecting | .polling _ => true
  | _ => false

/-- `UTP_Close` has been called, or there was no socket to close. -/
def UtpPc.over : UtpPc → Bool
  | .polling c | .timeouts c => c = .drain
  | .closing | .closeTimeouts | .returned | .aborted => true
  | _ => false

inductive UtpMade
  | write (sock : Nat) (n : Int)
  | close (sock : Nat)
  | state (sock : Nat) (state : LibState)
  | error (sock : Nat)
  | switch (state : UtpState)
  deriving DecidableEq, Repr

/-- A call of `tb_utp_write`: the offset that it copied from, the offset of the bytes that were due,
and their number. -/
structure Fill where
  src : Int
  pos : Int
  len : Nat
  deriving DecidableEq, Repr

structure UtpRun where
  listener : Listener
  utp : TbUtp
  sz : Int
  pc : UtpPc
  /-- The loop was left for `tb_abort`. -/
  aborting : Bool
  /-- The number of sockets made. -/
  socks : Nat
  /-- Latest first. -/
  trace : List UtpMade
  fills : List Fill
  deriving DecidableEq, Repr

inductive UtpKind
  | client | server
  deriving DecidableEq, Repr

inductive UtpLabel
  | start
  | test
  | callback (cb : LibCallback)
  | wrote (rc : Int)
  | polled
  | checked (late : Bool)
  | switch
  | closed
  | drained
  | env (e : ClientEnv)

namespace UtpRun

/-! ## The callbacks -/

/-- `tb_utp_read`, `tb_utp_write`, `tb_utp_state_change`, `tb_utp_error` and `tb_utp_incoming` -/
def callback (s : UtpRun) : LibCallback → UtpRun
  | .onRead count => { s with utp := { s.utp with readBytes := s.utp.readBytes + count } }
  | .onWrite count =>
    { s with
      utp := { s.utp with writeBytes := s.utp.writeBytes + count }
      -- every copy is made from the beginning of `s_data`
      fills := s.fills ++
        [⟨s.utp.sData, s.listener.totalTxRx + s.utp.writeBytes, count⟩] }
  | .onState sock state =>
    { s with utp := { s.utp with state := state.state }, trace := .state sock state :: s.trace }
  | .onError sock =>
    { s with utp := { s.utp with state := .error }, trace := .error sock :: s.trace }
  | .incoming =>
    { s with
      utp := { s.utp with socket := some s.socks, state := .connect, measureTime := true }
      socks := s.socks + 1 }

/-- The callbacks that a call can make: reports are about sockets that there are. -/
def allows (s : UtpRun) : LibCallback → Bool
  | .onState sock _ | .onError sock => s.pc.inLib && sock < s.socks
  | .incoming => s.pc.inIncoming
  | _ => s.pc.inLib

def callbackStep (s : UtpRun) (cb : LibCallback) : Option UtpRun :=
  if s.allows cb then some (s.callback cb) else none

/-! ## The functions -/

/-- Behind `tb_utp_close`. -/
def endClose (s : UtpRun) : UtpRun :=
  let l := { s.listener with status := .disconnected, sockD := -1, statLock := false }
  { s with
    listener := if s.aborting then tbAbort l else l
    pc := if s.aborting then .aborted else .returned }

/-- `tb_utp_close` up to `UTP_Close`, which is called on a socket in any state. -/
def tbUtpClose (s : UtpRun) : UtpRun :=
  match s.utp.socket with
  | some sock => { s with pc := .closing, trace := .close sock :: s.trace }
  | none => s.endClose

/-- `tb_utp_recv` up to its poll. -/
def tbUtpRecv (c : UtpCaller) (s : UtpRun) : UtpRun :=
  { s with utp := { s.utp with readBytes := 0 }, pc := .polling c }

/-- `tb_utp_send(utp, listener->data + total_tx_rx, sz)` up to its call. -/
def tbUtpSend (s : UtpRun) : UtpRun :=
  let s := { s with utp := { s.utp with writeBytes := 0, sData := s.listener.totalTxRx } }
  if s.utp.state = .connect ∨ s.utp.state = .writable then
    let made := s.utp.socket.toList.map fun sock => UtpMade.write sock (asSizeT s.sz)
    { s with pc := .writing, trace := made ++ s.trace }
  else tbUtpRecv .main s

/-- The value of `sz` that one turn of the client's loop passes on. -/
def nextSz (s : UtpRun) : Int :=
  if s.listener.fileSize - s.listener.totalTxRx < s.listener.bufsize then
    asInt (s.listener.fileSize - s.listener.totalTxRx)
  else s.sz

/-- Behind the loop. -/
def leave (k : UtpKind) (s : UtpRun) : UtpRun :=
  tbUtpClose { s with
    listener := { s.listener with
      transferTime := tbFinishTime s.listener.transferTime
      status := if k = .client then .disconnected else s.listener.status } }

/-- The client counts what was sent, and leaves at the end of the file. -/
def countSent (s : UtpRun) (sent : Int) : UtpRun :=
  let s := { s with
    listener := { s.listener with totalTxRx := s.listener.totalTxRx + sent } }
  if s.listener.totalTxRx ≥ s.listener.fileSize then leave .client s else { s with pc := .switch }

/-- The server counts what was received. -/
def countRecv (s : UtpRun) (recv : Int) : UtpRun :=
  { s with
    listener := { s.listener with totalTxRx := s.listener.totalTxRx + recv }
    pc := .switch }

/-! ## The steps -/

def startStep (k : UtpKind) (s : UtpRun) : Option UtpRun :=
  if s.pc = .start then
    match k with
    | .client => some { s with
        listener := { s.listener with connectTime := tbStartTime s.listener.connectTime }
        utp := { s.utp with socket := some s.socks }
        sz := s.listener.bufsize
        pc := .connecting
        socks := s.socks + 1 }
    | .server => some { s with
        listener := { s.listener with status := .listening }
        pc := .test }
  else none

def testStep (k : UtpKind) (s : UtpRun) : Option UtpRun :=
  if s.pc = .test then
    if s.listener.command.eLoop then some (leave k s)
    else
      match k with
      | .client => some (tbUtpSend { s with sz := s.nextSz })
      | .server => some (tbUtpRecv .main s)
  else none

/-- `UTP_Write` returns, and then `tb_utp_send`. -/
def wroteStep (s : UtpRun) (rc : Int) : Option UtpRun :=
  if s.pc = .writing then
    let s := if rc = 0 then { s with utp := { s.utp with state := .created } } else s
    some (countSent s s.utp.writeBytes)
  else none

/-- A poll is over. -/
def polledStep (s : UtpRun) : Option UtpRun :=
  match s.pc with
  | .connecting => some { s with
      listener := { s.listener with
        connectTime := tbFinishTime s.listener.connectTime
        transferTime := tbStartTime s.listener.transferTime
        status := .connected }
      pc := .test }
  | .polling c => some { s with pc := .timeouts c }
  | _ => none

/-- `UTP_CheckTimeouts` returns, and then `tb_utp_recv`; `late` says that the time-out has passed. -/
def checkedStep (k : UtpKind) (s : UtpRun) (late : Bool) : Option UtpRun :=
  let timedOut := s.utp.measureTime && late
  let recv := if timedOut then 0 else s.utp.readBytes
  let t := if timedOut then { s with utp := { s.utp with state := .error } } else s
  match s.pc with
  | .timeouts .main =>
    match k with
    -- `tb_utp_send` returns
    | .client => some (countSent t (if recv < 0 then -1 else s.utp.writeBytes))
    | .server => some (countRecv t recv)
  | .timeouts .drain => some { t with pc := .closeTimeouts }
  | _ => none

/-- The switch on `utp->state`. -/
def switchStep (k : UtpKind) (s : UtpRun) : Option UtpRun :=
  if s.pc = .switch then
    let s := { s with pc := .test, trace := .switch s.utp.state :: s.trace }
    match s.utp.state with
    | .connect =>
      let time := s.listener.transferTime
      some { s with listener := { s.listener with
        transferTime := if k = .server ∧ !time.started then tbStartTime time else time
        status := .connected } }
    | .eof =>
      some (if k = .server then
        { s with listener := { s.listener with command := .tbExit } } else s)
    | .error => some (tbUtpClose { s with aborting := true })
    | _ => some s
  else none

/-- `UTP_Close` returns. -/
def closedStep (s : UtpRun) : Option UtpRun :=
  if s.pc = .closing then some { s with pc := .closeTimeouts } else none

/-- The loop of `tb_utp_close`. -/
def drainedStep (s : UtpRun) : Option UtpRun :=
  if s.pc = .closeTimeouts then
    if s.utp.state = .destroying ∨ s.utp.state = .error then some s.endClose
    else some (tbUtpRecv .drain s)
  else none

def step (k : UtpKind) (s : UtpRun) : UtpLabel → Option UtpRun
  | .start => startStep k s
  | .test => testStep k s
  | .callback cb => s.callbackStep cb
  | .wrote rc => wroteStep s rc
  | .polled => polledStep s
  | .checked late => checkedStep k s late
  | .switch => switchStep k s
  | .closed => closedStep s
  | .drained => drainedStep s
  | .env e => some { s with listener := e.perform s.listener }

def init (l : Listener) : UtpRun := ⟨l, tbUtpSetup, 0, .start, false, 0, [], []⟩

/-! ## What a step does -/

section Cases

variable {k : UtpKind} {s t : UtpRun}

theorem startStep_cases (h : s.startStep k = some t) :
    s.pc = .start ∧
      (k = .client ∧ t = { s with
          listener := { s.listener with connectTime := tbStartTime s.listener.connectTime }
          utp := { s.utp with socket := some s.socks }
          sz := s.listener.bufsize
          pc := .connecting
          socks := s.socks + 1 } ∨
        k = .server ∧ t = { s with
          listener := { s.listener with status := .listening }
          pc := .test }) := by
  unfold startStep at h
  split at h
  · next hpc => cases k <;> cases h <;> simp [hpc]
  · cases h

theorem testStep_cases (h : s.testStep k = some t) :
    s.pc = .test ∧
      (s.listener.command.eLoop = true ∧ t = leave k s ∨
        k = .client ∧ t = tbUtpSend { s with sz := s.nextSz } ∨
        k = .server ∧ t = tbUtpRecv .main s) := by
  unfold testStep at h
  split at h
  · next hpc =>
    refine ⟨hpc, ?_⟩
    split at h
    · next hcmd =>
      cases h
      exact .inl ⟨hcmd, rfl⟩
    · cases k <;> cases h <;> simp
  · cases h

theorem wroteStep_cases {rc : Int} (h : s.wroteStep rc = some t) :
    s.pc = .writing ∧
      ∃ u, (u = s ∨ rc = 0 ∧ u = { s with utp := { s.utp with state := .created } }) ∧
        t = countSent u u.utp.writeBytes := by
  unfold wroteStep at h
  split at h
  · next hpc =>
    cases h
    refine ⟨hpc, _, ?_, rfl⟩
    split
    · next hrc => exact .inr ⟨hrc, rfl⟩
    · exact .inl rfl
  · cases h

theorem polledStep_cases (h : s.polledStep = some t) :
    (s.pc = .connecting ∧ t = { s with
        listener := { s.listener with
          connectTime := tbFinishTime s.listener.connectTime
          transferTime := tbStartTime s.listener.transferTime
          status := .connected }
        pc := .test }) ∨
      ∃ c, s.pc = .polling c ∧ t = { s with pc := .timeouts c } := by
  unfold polledStep at h
  split at h
  · next hpc =>
    cases h
    exact .inl ⟨hpc, rfl⟩
  · next c hpc =>
    cases h
    exact .inr ⟨c, hpc, rfl⟩
  · cases h

/-- A time-out changes nothing but the state and what `tb_utp_recv` returns. -/
theorem checkedStep_cases {late : Bool} (h : s.checkedStep k late = some t) :
    ∃ u recv,
      ((s.utp.measureTime && late) = true ∧ u = { s with utp := { s.utp with state := .error } } ∧
          recv = 0 ∨
        (s.utp.measureTime && late) = false ∧ u = s ∧ recv = s.utp.readBytes) ∧
      (s.pc = .timeouts .main ∧ k = .client ∧
          t = u.countSent (if recv < 0 then -1 else s.utp.writeBytes) ∨
        s.pc = .timeouts .main ∧ k = .server ∧ t = u.countRecv recv ∨
        s.pc = .timeouts .drain ∧ t = { u with pc := .closeTimeouts }) := by
  refine ⟨if s.utp.measureTime && late then { s with utp := { s.utp with state := .error } } else s,
    if s.utp.measureTime && late then 0 else s.utp.readBytes, ?_, ?_⟩
  · cases s.utp.measureTime && late with
    | true => exact .inl ⟨rfl, rfl, rfl⟩
    | false => exact .inr ⟨rfl, rfl, rfl⟩
  · unfold checkedStep at h
    split at h
    · next hpc =>
      cases k <;> cases h
      · exact .inl ⟨hpc, rfl, rfl⟩
      · exact .inr (.inl ⟨hpc, rfl, rfl⟩)
    · next hpc =>
      cases h
      exact .inr (.inr ⟨hpc, rfl⟩)
    · cases h

/-- What the switch leaves alone, whatever it finds but an error. -/
structure SwitchKeeps (l l' : Listener) : Prop where
  fileSize : l'.fileSize = l.fileSize
  bufsize : l'.bufsize = l.bufsize
  totalTxRx : l'.totalTxRx = l.totalTxRx

theorem switchStep_cases (h : s.switchStep k = some t) :
    s.pc = .switch ∧
      (t = tbUtpClose { s with
          pc := .test, trace := .switch s.utp.state :: s.trace, aborting := true } ∨
        ∃ l, SwitchKeeps s.listener l ∧ t = { s with
          pc := .test, trace := .switch s.utp.state :: s.trace, listener := l }) := by
  unfold switchStep at h
  split at h
  · next hpc =>
    refine ⟨hpc, ?_⟩
    simp only at h
    split at h
    · cases h
      refine .inr ⟨_, ?_, rfl⟩
      exact ⟨rfl, rfl, rfl⟩
    · -- the end of the stream commands the server to leave
      cases k <;> cases h <;> refine .inr ⟨_, ?_, rfl⟩ <;> exact ⟨rfl, rfl, rfl⟩
    · cases h
      exact .inl rfl
    · cases h
      refine .inr ⟨_, ?_, rfl⟩
      exact ⟨rfl, rfl, rfl⟩
  · cases h

theorem closedStep_cases (h : s.closedStep = some t) :
    s.pc = .closing ∧ t = { s with pc := .closeTimeouts } := by
  unfold closedStep at h
  split at h
  · next hpc =>
    cases h
    exact ⟨hpc, rfl⟩
  · cases h

theorem drainedStep_cases (h : s.drainedStep = some t) :
    s.pc = .closeTimeouts ∧ (t = s.endClose ∨ t = tbUtpRecv .drain s) := by
  unfold drainedStep at h
  split at h
  · next hpc =>
    refine ⟨hpc, ?_⟩
    split at h <;> cases h
    · exact .inl rfl
    · exact .inr rfl
  · cases h

end Cases

end UtpRun

/-- A client with two bytes to send. -/
def twoBytesToSend : Listener := { tbCreateListener .client .utp 1408 with fileSize := 2 }

end TestBed
