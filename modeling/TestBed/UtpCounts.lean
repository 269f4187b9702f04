import TestBed.UtpLoop

/-!
# What the uTP server counts

`tb_utp_server` with the timer `utp->last_rec`: a connection and every packet that was processed start it,
and each `tb_utp_recv` that measures the time finishes it. What `tb_utp_read` is passed in one
`tb_utp_recv` of the main loop is counted when that returns (`CountInv`), except where the value is lost: the
call finds the time-out and returns 0, the sum is no longer an `int`, or the call is one of `tb_utp_close`
(`Kept`).
-/

namespace TestBed.UtpServer

open CInt Transition

/-- `utp->time_out`, in nanoseconds. -/
def timeOut : Int := 2 * 1000000000

structure State where
  run : UtpRun
  /-- The last reading of the clock. -/
  clock : Int
  /-- `utp->last_rec->start`, which is read only after it was set. -/
  lastRec : Int
  deriving DecidableEq, Repr

/-- The steps that read the clock say by how much it has advanced. -/
inductive Label
  | read (count : Nat)
  | incoming (d : Nat)
  | packet (d : Nat)
  | checked (d : Nat)
  | other (l : UtpLabel)

/-- The steps of `UtpRun` that have a label of their own. -/
def special : UtpLabel → Bool
  | .callback (.onRead _) | .callback .incoming | .checked _ => true
  | _ => false

namespace State

/-- `tb_start_time(utp->last_rec)` -/
def startLastRec (s : State) (d : Nat) : State :=
  { s with clock := s.clock + d, lastRec := s.clock + d }

/-- `tb_utp_read`; `read_bytes` is an `int`. -/
def readStep (s : State) (count : Nat) : Option State :=
  (s.run.callbackStep (.onRead count)).map fun r =>
    { s with run := { r with utp := { r.utp with readBytes := asInt r.utp.readBytes } } }

/-- `tb_utp_incoming` -/
def incomingStep (s : State) (d : Nat) : Option State :=
  (s.run.callbackStep .incoming).map fun r => { s with run := r }.startLastRec d

/-- The end of a turn in `tb_utp_event`. -/
def packetStep (s : State) (d : Nat) : Option State :=
  if s.run.pc.inIncoming then some (s.startLastRec d) else none

/-- The time since `last_rec` was started is past the time-out, by the reading in `tb_utp_recv`. -/
def late (s : State) (d : Nat) : Bool := s.clock + d - s.lastRec > timeOut

def checkedStep (s : State) (d : Nat) : Option State :=
  (s.run.checkedStep .server (s.late d)).map fun r =>
    { s with run := r, clock := if s.run.utp.measureTime then s.clock + d else s.clock }

def step (s : State) : Label → Option State
  | .read count => s.readStep count
  | .incoming d => s.incomingStep d
  | .packet d => s.packetStep d
  | .checked d => s.checkedStep d
  | .other l => if special l then none else (s.run.step .server l).map fun r => { s with run := r }

def init (l : Listener) : State := ⟨UtpRun.init l, 0, 0⟩

end State

/-- What `tb_utp_read` is passed. -/
def Label.bytes : Label → Int
  | .read count => count
  | _ => 0

def delivered (ls : List Label) : Int := (ls.map Label.bytes).sum

/-- A test of the main loop, what follows a `tb_utp_recv` of it, and the return. -/
def Observed (pc : UtpPc) : Prop := pc = .test ∨ pc = .switch ∨ pc = .returned

/-- Along the run `total_tx_rx` is what was delivered, whenever it is observed. -/
def Counted (l : Listener) (ls : List Label) : Prop :=
  ∀ pre s, pre <+: ls → run State.step (.init l) pre = some s → Observed s.run.pc →
    s.run.listener.totalTxRx = delivered pre

/-- The call finds the time-out. -/
def State.timedOut (s : State) (d : Nat) : Bool := s.run.utp.measureTime && s.late d

/-- No bytes are lost: those of one `tb_utp_recv` fit into an `int`, none are delivered to one that finds the
time-out, and none to a `tb_utp_close` that the function returns from. -/
def Kept (s : State) : Label → Prop
  | .read count =>
    (s.run.pc.over = false → s.run.utp.readBytes + count < 2 ^ 31) ∧
      (s.run.pc.over = true → s.run.aborting = false → count = 0)
  | .checked d => s.run.pc = .timeouts .main → s.timedOut d = true → s.run.utp.readBytes = 0
  | _ => True

instance (s : State) (l : Label) : Decidable (Kept s l) :=
  match l with
  | .read _ => inferInstanceAs (Decidable ((_ → _) ∧ (_ → _ → _)))
  | .checked _ => inferInstanceAs (Decidable (_ → _ → _))
  | .incoming _ | .packet _ | .other _ => .isTrue trivial

/-! ## The invariant -/

/-- What the current `tb_utp_recv` of the main loop has got. -/
def uncounted (s : UtpRun) : Int :=
  if s.pc = .polling .main ∨ s.pc = .timeouts .main then s.utp.readBytes else 0

structure CountInv (n : Int) (s : UtpRun) : Prop where
  place : s.pc ≠ .connecting ∧ s.pc ≠ .writing
  aborting : s.aborting = true → s.pc.over = true ∧ s.pc ≠ .returned
  read : s.pc.over = false → 0 ≤ s.utp.readBytes
  counted : s.aborting = false → s.listener.totalTxRx + uncounted s = n

section Step

variable {n : Int} {s t : UtpRun}

theorem CountInv.not_aborting (h : CountInv n s) (hover : s.pc.over = false) :
    s.aborting = false := by
  cases hab : s.aborting with
  | false => rfl
  | true => simp [(h.aborting hab).1] at hover

/-- Outside of the calls of the main loop nothing is uncounted. -/
theorem CountInv.total (h : CountInv n s) (hab : s.aborting = false)
    (hidle : s.pc ≠ .polling .main ∧ s.pc ≠ .timeouts .main) : s.listener.totalTxRx = n := by
  have hcounted := h.counted hab
  rwa [uncounted, if_neg (by simp [hidle]), Int.add_zero] at hcounted

theorem CountInv.of_idle (hplace : s.pc ≠ .connecting ∧ s.pc ≠ .writing)
    (hidle : s.pc ≠ .polling .main ∧ s.pc ≠ .timeouts .main)
    (hab : s.aborting = true → s.pc.over = true ∧ s.pc ≠ .returned)
    (hread : s.pc.over = false → 0 ≤ s.utp.readBytes)
    (htotal : s.aborting = false → s.listener.totalTxRx = n) : CountInv n s := by
  refine ⟨hplace, hab, hread, fun h => ?_⟩
  rw [uncounted, if_neg (by simp [hidle]), Int.add_zero]
  exact htotal h

/-- A step that neither reads nor counts. -/
theorem CountInv.congr (h : CountInv n s) (hpc : t.pc = s.pc) (hab : t.aborting = s.aborting)
    (hread : t.utp.readBytes = s.utp.readBytes)
    (htotal : t.listener.totalTxRx = s.listener.totalTxRx) : CountInv n t := by
  refine ⟨hpc ▸ h.place, ?_, ?_, ?_⟩
  · rw [hab, hpc]
    exact h.aborting
  · rw [hpc, hread]
    exact h.read
  · rw [hab, htotal, uncounted, hpc, hread]
    exact h.counted

theorem CountInv.endClose (htotal : s.aborting = false → s.listener.totalTxRx = n) :
    CountInv n s.endClose := by
  simp only [UtpRun.endClose]
  cases hab : s.aborting with
  | false => exact .of_idle (by simp) (by simp) (by simp) (by simp [UtpPc.over]) fun _ => htotal hab
  | true => exact .of_idle (by simp) (by simp) (by simp [UtpPc.over]) (by simp [UtpPc.over]) (by simp)

theorem CountInv.tbUtpClose (htotal : s.aborting = false → s.listener.totalTxRx = n) :
    CountInv n s.tbUtpClose := by
  unfold UtpRun.tbUtpClose
  split
  · exact .of_idle (by simp) (by simp) (by simp [UtpPc.over]) (by simp [UtpPc.over]) htotal
  · exact .endClose htotal

theorem CountInv.tbUtpRecv (hab : s.aborting = false) (htotal : s.listener.totalTxRx = n) :
    CountInv n (s.tbUtpRecv .main) := by
  refine ⟨by simp [UtpRun.tbUtpRecv], fun h => ?_, fun _ => Int.le_refl 0, fun _ => ?_⟩
  · simp [UtpRun.tbUtpRecv, hab] at h
  · simp [uncounted, UtpRun.tbUtpRecv, htotal]

/-! ## The steps -/

/-- `tb_utp_read` in a call of the main loop, or in one of `tb_utp_close`. -/
theorem CountInv.readBytes {count : Nat} (h : CountInv n s) (hlib : s.pc.inLib = true)
    (hint : s.pc.over = false → s.utp.readBytes + count < 2 ^ 31)
    (hclose : s.pc.over = true → s.aborting = false → count = 0) :
    CountInv (n + count)
      { s with utp := { s.utp with readBytes := asInt (s.utp.readBytes + count) } } := by
  cases hover : s.pc.over with
  | true =>
    have hidle : s.pc ≠ .polling .main ∧ s.pc ≠ .timeouts .main := by
      refine ⟨fun hpc => ?_, fun hpc => ?_⟩ <;> rw [hpc] at hover <;> cases hover
    refine .of_idle h.place hidle h.aborting (by simp [hover]) fun hab => ?_
    have htotal := h.total hab hidle
    simp [hclose hover hab, htotal]
  | false =>
    have hread := h.read hover
    have hsum : asInt (s.utp.readBytes + count) = s.utp.readBytes + count :=
      asInt_eq (by omega) (hint hover)
    -- the server is in a poll, or in the check behind it
    have hmain : s.pc = .polling .main ∨ s.pc = .timeouts .main := by
      obtain ⟨hconnecting, hwriting⟩ := h.place
      cases hpc : s.pc with
      | polling c | timeouts c =>
        cases c with
        | main => simp
        | drain => rw [hpc] at hover; cases hover
      | connecting => exact absurd hpc hconnecting
      | writing => exact absurd hpc hwriting
      | start | test | switch => rw [hpc] at hlib; cases hlib
      | closing | closeTimeouts | returned | aborted => rw [hpc] at hover; cases hover
    refine ⟨h.place, h.aborting, fun _ => ?_, fun hab => ?_⟩
    · dsimp only
      omega
    · have hcounted := h.counted hab
      rw [uncounted, if_pos hmain] at hcounted
      rw [uncounted, if_pos hmain]
      dsimp only
      omega

theorem CountInv.start (h : CountInv n s) (ht : s.startStep .server = some t) : CountInv n t := by
  obtain ⟨hpc, ⟨hclient, -⟩ | ⟨-, rfl⟩⟩ := UtpRun.startStep_cases ht
  case inl => cases hclient
  have hover : s.pc.over = false := by rw [hpc]; rfl
  have hab := h.not_aborting hover
  refine .of_idle (by simp) (by simp) (by simp [hab]) (fun _ => h.read hover) fun _ => ?_
  exact h.total hab (by simp [hpc])

theorem CountInv.test (h : CountInv n s) (ht : s.testStep .server = some t) : CountInv n t := by
  obtain ⟨hpc, hcases⟩ := UtpRun.testStep_cases ht
  have hab : s.aborting = false := h.not_aborting (by rw [hpc]; rfl)
  have htotal := h.total hab (by simp [hpc])
  rcases hcases with ⟨-, rfl⟩ | ⟨hclient, -⟩ | ⟨-, rfl⟩
  · exact CountInv.tbUtpClose fun _ => htotal
  · cases hclient
  · exact .tbUtpRecv hab htotal

theorem CountInv.polled (h : CountInv n s) (ht : s.polledStep = some t) : CountInv n t := by
  rcases UtpRun.polledStep_cases ht with ⟨hpc, -⟩ | ⟨c, hpc, rfl⟩
  · exact absurd hpc h.place.1
  cases c with
  | main =>
    have hover : s.pc.over = false := by rw [hpc]; rfl
    have hab := h.not_aborting hover
    have hcounted := h.counted hab
    rw [uncounted, if_pos (.inl hpc)] at hcounted
    refine ⟨by simp, by simp [hab], fun _ => h.read hover, fun _ => ?_⟩
    rw [uncounted, if_pos (.inr rfl)]
    exact hcounted
  | drain =>
    exact .of_idle (by simp) (by simp) (by simp [UtpPc.over]) (by simp [UtpPc.over])
      fun hab => h.total hab (by simp [hpc])

/-- A `tb_utp_recv` of the main loop returns what it got, or 0. -/
theorem CountInv.checked {late : Bool} (h : CountInv n s)
    (hkept : s.pc = .timeouts .main → (s.utp.measureTime && late) = true → s.utp.readBytes = 0)
    (ht : s.checkedStep .server late = some t) : CountInv n t := by
  obtain ⟨u, recv, hu, hcases⟩ := UtpRun.checkedStep_cases ht
  have habort : u.aborting = s.aborting := by rcases hu with ⟨-, rfl, -⟩ | ⟨-, rfl, -⟩ <;> rfl
  have htotal : u.listener.totalTxRx = s.listener.totalTxRx := by
    rcases hu with ⟨-, rfl, -⟩ | ⟨-, rfl, -⟩ <;> rfl
  rcases hcases with ⟨-, hclient, -⟩ | ⟨hpc, -, rfl⟩ | ⟨hpc, rfl⟩
  · cases hclient
  · have hover : s.pc.over = false := by rw [hpc]; rfl
    have hab := h.not_aborting hover
    have hread : 0 ≤ u.utp.readBytes := by
      rcases hu with ⟨-, rfl, -⟩ | ⟨-, rfl, -⟩ <;> exact h.read hover
    have hrecv : recv = s.utp.readBytes := by
      rcases hu with ⟨hlate, -, rfl⟩ | ⟨-, -, rfl⟩
      · exact (hkept hpc hlate).symm
      · rfl
    have hcounted := h.counted hab
    rw [uncounted, if_pos (.inr hpc), ← hrecv] at hcounted
    refine .of_idle (by simp [UtpRun.countRecv]) (by simp [UtpRun.countRecv])
      (by simp [UtpRun.countRecv, habort, hab]) (fun _ => hread) fun _ => ?_
    show u.listener.totalTxRx + recv = n
    rw [htotal]
    exact hcounted
  · refine .of_idle (by simp) (by simp) (by simp [UtpPc.over]) (by simp [UtpPc.over]) fun hnot => ?_
    exact htotal.trans (h.total (habort.symm.trans hnot) (by simp [hpc]))

theorem CountInv.switch (h : CountInv n s) (ht : s.switchStep .server = some t) :
    CountInv n t := by
  obtain ⟨hpc, hcases⟩ := UtpRun.switchStep_cases ht
  have hover : s.pc.over = false := by rw [hpc]; rfl
  have hab := h.not_aborting hover
  rcases hcases with rfl | ⟨l, hl, rfl⟩
  · exact CountInv.tbUtpClose (by simp)
  · refine .of_idle (by simp) (by simp) (by simp [hab]) (fun _ => h.read hover) fun _ => ?_
    exact hl.totalTxRx.trans (h.total hab (by simp [hpc]))

/-- The loop of `tb_utp_close` counts nothing. -/
theorem CountInv.closed (h : CountInv n s) (ht : s.closedStep = some t) : CountInv n t := by
  obtain ⟨hpc, rfl⟩ := UtpRun.closedStep_cases ht
  exact .of_idle (by simp) (by simp) (by simp [UtpPc.over]) (by simp [UtpPc.over])
    fun hab => h.total hab (by simp [hpc])

theorem CountInv.drained (h : CountInv n s) (ht : s.drainedStep = some t) : CountInv n t := by
  obtain ⟨hpc, hcases⟩ := UtpRun.drainedStep_cases ht
  have htotal : s.aborting = false → s.listener.totalTxRx = n :=
    fun hab => h.total hab (by simp [hpc])
  rcases hcases with rfl | rfl
  · exact .endClose htotal
  · exact .of_idle (by simp [UtpRun.tbUtpRecv]) (by simp [UtpRun.tbUtpRecv])
      (by simp [UtpRun.tbUtpRecv, UtpPc.over]) (by simp [UtpRun.tbUtpRecv, UtpPc.over]) htotal

theorem CountInv.other {l : UtpLabel} (h : CountInv n s) (hl : special l = false)
    (ht : s.step .server l = some t) : CountInv n t := by
  cases l with
  | start => exact h.start ht
  | test => exact h.test ht
  | callback cb =>
    obtain ⟨-, ht⟩ := Option.ite_none_right_eq_some.mp ht
    cases ht
    cases cb with
    | onRead count => cases hl
    | incoming => cases hl
    | onWrite count => exact h.congr rfl rfl rfl rfl
    | onState sock state => exact h.congr rfl rfl rfl rfl
    | onError sock => exact h.congr rfl rfl rfl rfl
  | wrote rc => exact absurd (UtpRun.wroteStep_cases ht).1 h.place.2
  | polled => exact h.polled ht
  | checked late => cases hl
  | switch => exact h.switch ht
  | closed => exact h.closed ht
  | drained => exact h.drained ht
  | env e =>
    cases ht
    cases e with
    | interrupt => exact h.congr rfl rfl rfl rfl
    | tick q => exact h.congr rfl rfl rfl rfl

end Step

/-- **Step.** -/
theorem countInv_step {n : Int} {s t : State} {l : Label} (h : CountInv n s.run) (hkept : Kept s l)
    (ht : s.step l = some t) : CountInv (n + l.bytes) t.run := by
  cases l with
  | read count =>
    obtain ⟨r, hr, rfl⟩ := Option.map_eq_some_iff.mp ht
    obtain ⟨hlib, hr⟩ := Option.ite_none_right_eq_some.mp hr
    cases hr
    exact h.readBytes hlib hkept.1 hkept.2
  | incoming d =>
    obtain ⟨r, hr, rfl⟩ := Option.map_eq_some_iff.mp ht
    obtain ⟨-, hr⟩ := Option.ite_none_right_eq_some.mp hr
    cases hr
    simp only [Label.bytes, Int.add_zero]
    exact h.congr rfl rfl rfl rfl
  | packet d =>
    obtain ⟨-, ht⟩ := Option.ite_none_right_eq_some.mp ht
    cases ht
    simp only [Label.bytes, Int.add_zero]
    exact h.congr rfl rfl rfl rfl
  | checked d =>
    obtain ⟨r, hr, rfl⟩ := Option.map_eq_some_iff.mp ht
    simp only [Label.bytes, Int.add_zero]
    exact h.checked hkept hr
  | other l =>
    obtain ⟨hl, ht⟩ := Option.ite_none_left_eq_some.mp ht
    obtain ⟨r, hr, rfl⟩ := Option.map_eq_some_iff.mp ht
    simp only [Label.bytes, Int.add_zero]
    exact h.other (by simpa using hl) hr

variable {l : Listener} {ls : List Label} {s : State}

theorem delivered_concat (ls : List Label) (l : Label) :
    delivered (ls ++ [l]) = delivered ls + l.bytes := by
  simp [delivered]

theorem countInv_init (htotal : l.totalTxRx = 0) : CountInv (delivered []) (State.init l).run :=
  .of_idle (by simp [State.init, UtpRun.init]) (by simp [State.init, UtpRun.init])
    (by simp [State.init, UtpRun.init]) (fun _ => Int.le_refl 0) fun _ => htotal

theorem countInv_run (htotal : l.totalTxRx = 0) (hkept : Meets State.step Kept (.init l) ls)
    (h : run State.step (.init l) ls = some s) : CountInv (delivered ls) s.run := by
  refine run_induction (P := fun ls (s : State) => Meets State.step Kept (.init l) ls →
    CountInv (delivered ls) s.run) (fun _ => countInv_init htotal) ?_ h hkept
  intro ls s lbl t hs ih ht hkept
  rw [delivered_concat]
  exact countInv_step (ih hkept.of_append) (hkept.last hs) ht

/-- Where `total_tx_rx` is observed nothing is uncounted. -/
theorem CountInv.observed {n : Int} {s : UtpRun} (h : CountInv n s) (hpc : Observed s.pc) :
    s.listener.totalTxRx = n := by
  have hab : s.aborting = false := by
    cases hab : s.aborting with
    | false => rfl
    | true =>
      obtain ⟨hover, hreturned⟩ := h.aborting hab
      rcases hpc with hpc | hpc | hpc
      · rw [hpc] at hover; cases hover
      · rw [hpc] at hover; cases hover
      · exact absurd hpc hreturned
  refine h.total hab ?_
  rcases hpc with hpc | hpc | hpc <;> simp [hpc]

/-- **When the server counts every byte once.** In every run in which no bytes are lost, `total_tx_rx` is
the sum of the counts that `tb_utp_read` was passed, at each test of the main loop, after each
`tb_utp_recv` of it, and when the function returns. -/
theorem deliveries_counted (l : Listener) (ls : List Label) (htotal : l.totalTxRx = 0)
    (hkept : Meets State.step Kept (.init l) ls) : Counted l ls := by
  rintro pre s ⟨rest, rfl⟩ hrun hobs
  exact (countInv_run htotal hkept.of_append hrun).observed hobs

/-! ## What is lost -/

/-- A connection, 100 bytes in its first packet, and the two seconds pass before the clock is read. -/
def timeOutRun : List Label :=
  [.other .start, .other .test, .incoming 0, .read 100, .packet 0, .other .polled, .checked 3000000000]

/-- A connection that ends at once, and 50 bytes that `tb_utp_close` gets. -/
def closeRun : List Label :=
  [.other .start, .other .test, .incoming 0, .packet 0, .other (.callback (.onState 0 .eof)),
    .other .polled, .checked 0, .other .switch, .other .test, .read 50, .other .closed,
    .other (.callback (.onState 0 .destroying)), .other .drained]

/-- A connection with 100 bytes in time. -/
def inTimeRun : List Label :=
  [.other .start, .other .test, .incoming 0, .read 100, .packet 0, .other .polled, .checked 5]

theorem deliveries_counted_inTime :
    Counted (tbCreateListener .server .utp 1408) inTimeRun :=
  deliveries_counted (tbCreateListener .server .utp 1408) inTimeRun rfl (by decide)

theorem deliveries_lost :
    (∃ s, run State.step (.init (tbCreateListener .server .utp 1408)) timeOutRun = some s ∧
      s.run.pc = .switch ∧ s.run.listener.totalTxRx = 0 ∧ delivered timeOutRun = 100) ∧
    (∃ s, run State.step (.init (tbCreateListener .server .utp 1408)) closeRun = some s ∧
      s.run.pc = .returned ∧ s.run.listener.totalTxRx = 0 ∧ delivered closeRun = 50) ∧
    ¬ ∀ (l : Listener) (ls : List Label), l.totalTxRx = 0 → Counted l ls := by
  refine ⟨⟨_, rfl, rfl, rfl, rfl⟩, ⟨_, rfl, rfl, rfl, rfl⟩, fun h => ?_⟩
  have hcounted := h (tbCreateListener .server .utp 1408) closeRun rfl closeRun _ (List.prefix_refl _) rfl
    (.inr (.inr rfl))
  cases hcounted

end TestBed.UtpServer
