import TestBed.CloseOnce
import TestBed.Code.Flags

/-!
# Transfer times

A server takes `listener->transfer_time` from its first connection to the end of its main loop. Its run
is observed here with a record of what the timer read off the clock; the steps do not depend on it. All
the servers finish the timer without looking whether it was started, so one that leaves its loop in
`TB_LISTENING` reports a time calculated from memory that was never written. In every other run the
time is the difference of two readings (`transfer_measured_iff`).
-/

namespace TestBed.Code

open Program Lang Transition

/-! ## Readings of the clock -/

/-- What `listener->transfer_time` holds. -/
structure TimerLog where
  /-- The last reading of the monotonic clock. -/
  clock : Nat
  start : Option Nat
  finish : Option Nat
  /-- `none` where it was calculated from a start that was never read. -/
  nSec : Option Int
  deriving DecidableEq, Repr

namespace TimerLog

/-- `tb_create_time` -/
def create : TimerLog := ⟨0, none, none, some 0⟩

/-- `clock_gettime` on the monotonic clock, which has advanced by `d`. -/
def read (log : TimerLog) (d : Nat) : TimerLog := { log with clock := log.clock + d }

/-- `tb_calculate_time` -/
def calculate (log : TimerLog) : TimerLog :=
  { log with nSec := do some ((← log.finish : Int) - (← log.start)) }

/-- `tb_start_time` -/
def started (log : TimerLog) (d : Nat) : TimerLog :=
  { log.read d with start := some (log.clock + d) }

/-- `tb_finish_time` -/
def finished (log : TimerLog) (d : Nat) : TimerLog :=
  { log.read d with finish := some (log.clock + d) }.calculate

/-- Where the timer was finished it had been started, and `n_sec` is the time between. -/
def Measured (log : TimerLog) : Prop :=
  ∀ t', log.finish = some t' →
    ∃ t, log.start = some t ∧ log.nSec = some ((t' : Int) - t) ∧ 0 ≤ (t' : Int) - t

/-- The timer has not been finished. -/
structure Running (log : TimerLog) (started : Bool) : Prop where
  finish : log.finish = none
  isSome : log.start.isSome = started
  le : ∀ t, log.start = some t → t ≤ log.clock

theorem running_create : create.Running false := ⟨rfl, rfl, nofun⟩

variable {log : TimerLog}

theorem Running.measured {b : Bool} (h : log.Running b) : log.Measured := by
  intro t' ht'
  rw [h.finish] at ht'
  cases ht'

theorem Running.started {b : Bool} (h : log.Running b) (d : Nat) :
    (log.started d).Running true := by
  refine ⟨h.finish, rfl, ?_⟩
  intro t ht
  cases ht
  exact Nat.le_refl _

theorem Running.measured_finished (h : log.Running true) (d : Nat) :
    (log.finished d).Measured := by
  intro t' ht'
  obtain ⟨t, ht⟩ := Option.isSome_iff_exists.mp h.isSome
  have hle : t ≤ log.clock := h.le t ht
  cases ht'
  have hnSec : (log.finished d).nSec = some (((log.clock + d : Nat) : Int) - t) := by
    simp [finished, calculate, read, ht]
  exact ⟨t, ht, hnSec, by omega⟩

theorem Running.not_measured_finished (h : log.Running false) (d : Nat) :
    ¬ (log.finished d).Measured := by
  intro hm
  obtain ⟨t, ht, -⟩ := hm (log.clock + d) rfl
  have hnone : log.start = none := by simpa using h.isSome
  have hstart : (log.finished d).start = log.start := rfl
  rw [hstart, hnone] at ht
  cases ht

end TimerLog

/-- The result of `start` and `finish` is by how much the clock has advanced. -/
def timerNote (o : Op) (_ : World) (io : Io) (log : TimerLog) : TimerLog :=
  match o with
  | .start .transfer => log.started io.rc.toNat
  | .finish .transfer => log.finished io.rc.toNat
  | _ => log

/-- The main loop is not left in `TB_LISTENING`. -/
def endsConnected (o : Op) (w : World) (_ : Io) : Bool :=
  match o with
  | .finish .transfer => w.listener.status ≠ .listening
  | _ => true

/-! ## Facts about the timer -/

inductive TimeFact
  /-- The timer has not been finished. -/
  | going (listening started : Bool)
  | finished (measured : Bool)
  deriving DecidableEq, Repr

/-- The record of the timer, and whether the loop has been left as it should. -/
abbrev TimeRecord := TimerLog × Bool

def recordNote (o : Op) (w : World) (io : Io) (r : TimeRecord) : TimeRecord :=
  (timerNote o w io r.1, r.2 && endsConnected o w io)

structure TimeFact.Going (listening started : Bool) (w : World) (r : TimeRecord) : Prop where
  status : decide (w.listener.status = .listening) = listening
  flag : w.listener.transferTime.started = started
  running : r.1.Running started
  ok : r.2 = true

def TimeFact.Holds : TimeFact → World → TimeRecord → Prop
  | .going listening started, w, r => TimeFact.Going listening started w r
  | .finished measured, _, r => r.2 = measured ∧ (r.1.Measured ↔ measured = true)

theorem TimeFact.Holds.measured_iff {a : TimeFact} {w : World} {r : TimeRecord} (h : a.Holds w r) :
    r.1.Measured ↔ r.2 = true := by
  cases a with
  | going listening started => exact iff_of_true h.running.measured h.ok
  | finished measured => rw [h.2, h.1]

/-- The facts after an operation. A timer that was finished is not touched again. -/
def TimeFact.op (o : Op) : TimeFact → Option (List TimeFact)
  | .going listening started =>
    match o with
    | .status s => some [.going (s = .listening) started]
    | .start .transfer => some [.going listening true]
    | .finish .transfer => if listening = !started then some [.finished started] else none
    | _ => some [.going listening started]
  | .finished measured =>
    match o with
    | .start .transfer | .finish .transfer => none
    | _ => some [.finished measured]

def TimeFact.test (a : TimeFact) : Test → Bool → Bool
  | .started, b =>
    match a with
    | .going _ started => started = b
    | .finished _ => true
  | .not c, b => a.test c !b
  | _, _ => true

theorem TimeFact.test_sound {a : TimeFact} {w : World} {r : TimeRecord} (h : a.Holds w r)
    (b : Test) : a.test b (b.eval w) = true := by
  induction b with
  | started =>
    cases a with
    | going listening started => simp [TimeFact.test, Test.eval, h.flag]
    | finished => rfl
  | not c ih =>
    simp only [TimeFact.test, Test.eval, Bool.not_not]
    exact ih
  | _ => rfl

/-- An operation that leaves the timer alone. -/
theorem recordNote_eq {o : Op} {w : World} {io : Io} {r : TimeRecord}
    (hnote : timerNote o w io r.1 = r.1) (hends : endsConnected o w io = true) :
    recordNote o w io r = r := by
  simp [recordNote, hnote, hends]

theorem TimeFact.Going.keep {o : Op} {listening started : Bool} {w w' : World} {r : TimeRecord}
    {io : Io} (h : TimeFact.Going listening started w r) (hnote : timerNote o w io r.1 = r.1)
    (hends : endsConnected o w io = true) (hstatus : w'.listener.status = w.listener.status)
    (htime : w'.listener.transferTime = w.listener.transferTime) :
    TimeFact.Going listening started w' (recordNote o w io r) := by
  rw [recordNote_eq hnote hends]
  refine ⟨?_, ?_, h.running, h.ok⟩
  · rw [hstatus]
    exact h.status
  · rw [htime]
    exact h.flag

/-- The end of the main loop. -/
theorem TimeFact.Going.finish {listening started : Bool} {w w' : World} {r : TimeRecord} {io : Io}
    (h : TimeFact.Going listening started w r) (hl : listening = !started) :
    (TimeFact.finished started).Holds w' (recordNote (.finish .transfer) w io r) := by
  have hok : endsConnected (.finish .transfer) w io = started := by
    have hstatus := h.status
    rw [hl] at hstatus
    simp [endsConnected, hstatus]
  refine ⟨?_, ?_⟩
  · simp [recordNote, h.ok, hok]
  · cases started with
    | true => exact iff_of_true (h.running.measured_finished _) rfl
    | false => exact iff_of_false (h.running.not_measured_finished _) Bool.false_ne_true

theorem TimeFact.Going.op_sound {o : Op} {listening started : Bool} {as : List TimeFact}
    {w w' : World} {r : TimeRecord} {io : Io} (h : TimeFact.Going listening started w r)
    (has : (TimeFact.going listening started).op o = some as) (ht : o.exec w io = some w') :
    ∃ b ∈ as, b.Holds w' (recordNote o w io r) := by
  have hflags := flags_exec ht
  have hstatus : w'.listener.status = (o.onFlags w.flags).status := congrArg Flags.status hflags
  have htime : w'.listener.transferTime = (o.onFlags w.flags).transferTime :=
    congrArg Flags.transferTime hflags
  have hone : ∀ {b : TimeFact}, b.Holds w' (recordNote o w io r) →
      ∃ c ∈ [b], c.Holds w' (recordNote o w io r) := fun hb => ⟨_, List.mem_singleton_self _, hb⟩
  have hok : (r.2 && true) = true := by rw [h.ok, Bool.and_true]
  cases o with
  | status s =>
    cases has
    refine hone ⟨?_, ?_, h.running, hok⟩
    · rw [hstatus]
      rfl
    · rw [htime]
      exact h.flag
  | start t =>
    cases t with
    | connect =>
      cases has
      exact hone (h.keep rfl rfl hstatus htime)
    | transfer =>
      cases has
      refine hone ⟨?_, ?_, h.running.started _, hok⟩
      · rw [hstatus]
        exact h.status
      · rw [htime]
        rfl
  | finish t =>
    cases t with
    | connect =>
      cases has
      exact hone (h.keep rfl rfl hstatus htime)
    | transfer =>
      simp only [TimeFact.op] at has
      split at has
      · next hl =>
        cases has
        exact hone (h.finish hl)
      · cases has
  | _ =>
    cases has
    exact hone (h.keep rfl rfl hstatus htime)

theorem TimeFact.finished_sound {o : Op} {measured : Bool} {as : List TimeFact} {w w' : World}
    {r : TimeRecord} {io : Io} (h : (TimeFact.finished measured).Holds w r)
    (has : (TimeFact.finished measured).op o = some as) :
    ∃ b ∈ as, b.Holds w' (recordNote o w io r) := by
  have hkeep : timerNote o w io r.1 = r.1 → endsConnected o w io = true →
      ∃ b ∈ [TimeFact.finished measured], b.Holds w' (recordNote o w io r) := by
    intro hnote hends
    rw [recordNote_eq hnote hends]
    exact ⟨_, List.mem_singleton_self _, h⟩
  cases o with
  | start t | finish t =>
    cases t with
    | transfer => cases has
    | connect =>
      cases has
      exact hkeep rfl rfl
  | _ =>
    cases has
    exact hkeep rfl rfl

/-- The domain of these facts. -/
def timeFacts : Domain (lang.observe recordNote) TimeFact where
  γ a s := a.Holds s.1 s.2
  op o a := a.op o
  test b v a := a.test b v
  op_sound := by
    intro o a as s io s' h has ht
    have ht : (o.exec s.1 io).map (·, recordNote o s.1 io s.2) = some s' := ht
    obtain ⟨w', hw', rfl⟩ := Option.map_eq_some_iff.mp ht
    cases a with
    | going listening started => exact TimeFact.Going.op_sound h has hw'
    | finished measured => exact TimeFact.finished_sound h has
  test_sound h := TimeFact.test_sound h _
  env_sound := by
    intro a s e s' h ht
    cases ht
    obtain ⟨hstatus, htime⟩ := status_env e s.1
    cases a with
    | going listening started =>
      exact ⟨by rw [hstatus]; exact h.status, by rw [htime]; exact h.flag, h.running, h.ok⟩
    | finished measured => exact h

/-! ## Servers -/

/-- The servers that time a transfer over several connections, and the server of uTP. -/
def Fn.timed : Fn → Bool
  | .streamMServer | .udtMServer | .udpMServer | .utpServer => true
  | _ => false

theorem checks_timeFacts (f : Fn) (hf : f.timed = true) :
    timeFacts.checks 4 f.body [.going true false, .going false false] (fun _ => true) = true := by
  cases f with
  | streamMServer | udtMServer | udpMServer | utpServer => decide +kernel
  | _ => cases hf

theorem exists_timeFact (w : World) (hw : w.listener.transferTime.started = false) :
    timeFacts.In [.going true false, .going false false] (w, (.create, true)) := by
  refine ⟨.going (w.listener.status = .listening) false, ?_, rfl, hw, TimerLog.running_create, rfl⟩
  cases decide (w.listener.status = .listening) <;> simp

/-- **The transfer time is measured in exactly the runs that leave the main loop connected.** Whatever
the order of connections, data, ends of stream and exits, the timer is finished after a start in the
same run, and its time is the non-negative difference of two readings of the clock, if and only if the
status is no longer `TB_LISTENING` where the timer is finished. -/
theorem transfer_measured_iff (f : Fn) (hf : f.timed = true) (w : World)
    (hw : w.listener.transferTime.started = false) (ls : List (Label Io EnvStep))
    (c : Config World Op Test) (hrun : run lang.step (start f.body w) ls = some c) :
    ∃ log, run (lang.observe timerNote).step (start f.body (w, .create)) ls =
        some ⟨c.stack, (c.state, log)⟩ ∧
      (log.Measured ↔ Meets lang.step (GoodStep (.ofOp endsConnected)) (start f.body w) ls) := by
  obtain ⟨r, hr⟩ : ∃ r, run (lang.observe recordNote).step (start f.body (w, .create, true)) ls =
      some ⟨c.stack, (c.state, r)⟩ := exists_observe_run recordNote (.create, true) hrun
  have hmeets : r.2 = true ↔ _ :=
    observe_meets (c := start f.body w) Prod.snd endsConnected (fun _ _ _ _ => rfl) rfl hr
  have htimer := (lang.reread recordNote timerNote Prod.fst fun _ _ _ _ => rfl).run
    (start f.body (w, .create, true)) ls
  rw [hr] at htimer
  obtain ⟨⟨a, ha⟩, -⟩ :=
    Domain.checks_sound (checks_timeFacts f hf) (exists_timeFact w hw) hr
  exact ⟨r.1, htimer.symm, ha.measured_iff.trans hmeets⟩

/-- A server that `tb_start` has published. -/
def publishedWorld (l : Listener) (p : TbProtocol) : World :=
  { World.ofListener l p noFiles fun _ => none with globalL := .listener }

def tcpMServerWorld : World :=
  publishedWorld (readyListener .mServer .tcp) ⟨tcpPtr, sockStream, 0, .tcp⟩

def utpServerWorld : World :=
  publishedWorld (tbCreateListener .server .utp 1408) ⟨utpPtr, sockDgram, -128, .utp⟩

/-- There is one connection; the transfer takes 7 ns. -/
def oneAccept (o : Op) (w : World) : Io :=
  match o with
  | .call _ .epollWait => ⟨1, 0, [], [⟨true, false⟩], []⟩
  | .accept _ => if w.listener.sessionList.sessions = [] then .ret 4 else .fail ewouldblock
  | .finish _ => .ret 7
  | _ => .ret 0

/-- A client's first and last packets arrive in one `tb_utp_recv`. -/
def connectAndEof (o : Op) (w : World) : Io :=
  match o with
  | .socket _ _ => .ret 3
  | .call _ .epollWait => ⟨1, 0, [], [⟨true, false⟩], []⟩
  | .call _ (.recvfrom _) => if w.utp.state = .eof then .fail ewouldblock else .ret 20
  | .call _ .utpIsIncoming =>
    ⟨1, 0, [], [], if w.utp.state = .created then [.incoming] else [.onState .eof]⟩
  | _ => .ret 0

/-- The steps of the TCP server when SIGINT comes after `n` of its own and `m` follow. -/
def interruptedTransfer (n m : Nat) : List (Label Io EnvStep) :=
  let r := lang.drive oneAccept n (start tbStreamMServer tcpMServerWorld)
  r.1 ++ .env .interrupt ::
    (lang.drive oneAccept m ⟨r.2.stack, EnvStep.interrupt.perform r.2.state⟩).1

theorem transfer_measured_tcp :
    ∃ (k : List (Frame Op Test)) (w : World) (log : TimerLog),
      run (lang.observe timerNote).step (start tbStreamMServer (tcpMServerWorld, .create))
        (interruptedTransfer 75 37) = some ⟨k, (w, log)⟩ ∧ log.Measured := by
  have hrun := drive_env_run (L := lang) (e := .interrupt) oneAccept oneAccept 75 37
    (start tbStreamMServer tcpMServerWorld) rfl
  obtain ⟨log, hlog, hiff⟩ :=
    transfer_measured_iff .streamMServer rfl tcpMServerWorld rfl (interruptedTransfer 75 37) _ hrun
  exact ⟨_, _, log, hlog, hiff.mpr (by decide +kernel)⟩

theorem not_measured_run {p : Stmt} {w : World} {ls : List (Label Io EnvStep)}
    (h : (run (lang.observe timerNote).step (start p (w, .create)) ls).any
      (fun c => c.state.2.finish.isSome && c.state.2.start.isNone) = true) :
    ∃ c, run (lang.observe timerNote).step (start p (w, .create)) ls = some c ∧
      ¬ c.state.2.Measured := by
  obtain ⟨c, hc, hunstarted⟩ := (Option.any_eq_true _ _).mp h
  rw [Bool.and_eq_true, Option.isSome_iff_exists, Option.isNone_iff_eq_none] at hunstarted
  obtain ⟨⟨t', ht'⟩, hnone⟩ := hunstarted
  refine ⟨c, hc, fun hm => ?_⟩
  obtain ⟨t, ht, -⟩ := hm t' ht'
  rw [hnone] at ht
  cases ht

/-- Neither a TCP server that is interrupted before the first connection nor a uTP server that reads a
whole connection at once has started the timer that it finishes. -/
theorem transfer_not_measured :
    (∃ ls c, run (lang.observe timerNote).step
      (start tbStreamMServer (tcpMServerWorld, .create)) ls = some c ∧ ¬ c.state.2.Measured) ∧
    ∃ ls c, run (lang.observe timerNote).step
      (start tbUtpServer (utpServerWorld, .create)) ls = some c ∧ ¬ c.state.2.Measured :=
  ⟨⟨interruptedTransfer 12 24, not_measured_run (by decide +kernel)⟩,
    ⟨(lang.drive connectAndEof 160 (start tbUtpServer utpServerWorld)).1,
      not_measured_run (by decide +kernel)⟩⟩

end TestBed.Code
