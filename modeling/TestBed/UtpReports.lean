import TestBed.UtpLoop

/-!
# Terminal reports of libutp

What should follow from a report (`Respects`): nothing is called on a socket that was reported to be
destroyed, and an error is what the next look at `utp->state` sees. One field holds the last report,
whatever it was about, so it depends on what libutp reports when (`ReportsLast`): `tb_utp_close` closes
the socket in every state, a report that follows an error replaces it, and `tb_utp_send` sets the state
to 0 when `UTP_Write` returns 0.
-/

namespace TestBed

open CInt Transition

/-! ## What the reports ask for -/

/-- `tb_utp_error` has been called since the last switch. -/
def errored : List UtpMade → Bool
  | .error _ :: _ => true
  | .switch _ :: _ => false
  | _ :: t => errored t
  | [] => false

/-- What is made agrees with the reports before it. -/
def Agrees (earlier : List UtpMade) : UtpMade → Prop
  | .write sock _ | .close sock => .state sock .destroying ∉ earlier
  | .switch state => errored earlier = true → state = .error
  | _ => True

/-- Everything that was made agrees with the reports before it. -/
def Respects (trace : List UtpMade) : Prop :=
  ∀ later made earlier, trace = later ++ made :: earlier → Agrees earlier made

theorem respects_nil : Respects [] := by
  intro later made earlier h
  simp at h

theorem respects_cons {made : UtpMade} {trace : List UtpMade} :
    Respects (made :: trace) ↔ Agrees trace made ∧ Respects trace := by
  constructor
  · intro h
    refine ⟨h [] made trace rfl, fun later m earlier heq => ?_⟩
    exact h (made :: later) m earlier (by rw [heq, List.cons_append])
  · rintro ⟨hmade, htrace⟩ later m earlier heq
    cases later with
    | nil =>
      obtain ⟨rfl, rfl⟩ := List.cons.inj heq
      exact hmade
    | cons m' later => exact htrace later m earlier (List.cons.inj heq).2

/-- What libutp has to do: it reports the current socket destroyed only after `UTP_Close`, and neither
reports a state, nor brings a connection, nor returns 0 from `UTP_Write`, between an error and the
switch that is to see it. -/
def ReportsLast (s : UtpRun) : UtpLabel → Prop
  | .callback (.onState sock state) =>
    s.pc.over = false →
      errored s.trace = false ∧ (state = .destroying → s.utp.socket ≠ some sock)
  | .callback .incoming => s.pc.over = false → errored s.trace = false
  | .wrote rc => errored s.trace = true → rc ≠ 0
  | _ => True

instance (s : UtpRun) (l : UtpLabel) : Decidable (ReportsLast s l) :=
  match l with
  | .callback (.onState _ _) => inferInstanceAs (Decidable (_ → _ ∧ (_ → _)))
  | .callback .incoming => inferInstanceAs (Decidable (_ → _))
  | .wrote _ => inferInstanceAs (Decidable (_ → _))
  | .callback (.onRead _) | .callback (.onWrite _) | .callback (.onError _) => .isTrue trivial
  | .start | .test | .polled | .checked _ | .switch | .closed | .drained | .env _ => .isTrue trivial

/-! ## The invariant -/

structure ReportInv (s : UtpRun) : Prop where
  respects : Respects s.trace
  /-- Reports are about sockets that there are. -/
  known : ∀ sock state, .state sock state ∈ s.trace → sock < s.socks
  /-- The current socket can still be used. -/
  usable : s.pc.over = false → ∀ sock ∈ s.utp.socket, .state sock .destroying ∉ s.trace
  seen : s.pc.over = false → errored s.trace = true → s.utp.state = .error

section Step

variable {k : UtpKind} {s t : UtpRun}

/-- A step that makes nothing. -/
theorem ReportInv.congr (h : ReportInv s) (htrace : t.trace = s.trace) (hsocks : t.socks = s.socks)
    (hsock : t.utp.socket = s.utp.socket) (hover : t.pc.over = false → s.pc.over = false)
    (hstate : t.pc.over = false → errored s.trace = true → t.utp.state = .error) :
    ReportInv t := by
  constructor
  · rw [htrace]
    exact h.respects
  · rw [htrace, hsocks]
    exact h.known
  · intro ht
    rw [htrace, hsock]
    exact h.usable (hover ht)
  · rw [htrace]
    exact hstate

/-- Behind `UTP_Close` the rest of the run makes nothing that a report could forbid. -/
theorem ReportInv.of_over (htrace : Respects t.trace)
    (hknown : ∀ sock state, .state sock state ∈ t.trace → sock < t.socks)
    (hover : t.pc.over = true) : ReportInv t := by
  refine ⟨htrace, hknown, fun h => ?_, fun h => ?_⟩ <;> rw [hover] at h <;> cases h

theorem over_endClose (s : UtpRun) : s.endClose.pc.over = true := by
  simp only [UtpRun.endClose]
  split <;> rfl

theorem ReportInv.endClose (h : ReportInv s) : ReportInv s.endClose :=
  .of_over h.respects h.known (over_endClose s)

/-- `tb_utp_close` is called on a socket that can still be used. -/
theorem ReportInv.tbUtpClose (h : ReportInv s) (hover : s.pc.over = false) :
    ReportInv s.tbUtpClose := by
  unfold UtpRun.tbUtpClose
  split
  · next sock hsock =>
    refine .of_over (respects_cons.mpr ⟨h.usable hover sock hsock, h.respects⟩) ?_ rfl
    intro sock' state hmem
    exact h.known sock' state (by simpa using hmem)
  · exact h.endClose

theorem ReportInv.leave (h : ReportInv s) (hover : s.pc.over = false) :
    ReportInv (s.leave k) :=
  ReportInv.tbUtpClose (h.congr rfl rfl rfl id h.seen) hover

theorem ReportInv.tbUtpRecv (h : ReportInv s) (hover : s.pc.over = false) :
    ReportInv (s.tbUtpRecv .main) :=
  h.congr rfl rfl rfl (fun _ => hover) fun _ => h.seen hover

/-- `UTP_Write` is called on a socket that can still be used. -/
theorem ReportInv.tbUtpSend (h : ReportInv s) (hover : s.pc.over = false) :
    ReportInv s.tbUtpSend := by
  simp only [UtpRun.tbUtpSend]
  split
  · cases hsock : s.utp.socket with
    | none => exact h.congr (by simp) rfl hsock.symm (fun _ => hover) fun _ => h.seen hover
    | some sock =>
      have huse := h.usable hover sock hsock
      refine ⟨respects_cons.mpr ⟨huse, h.respects⟩, ?_, ?_, fun _ => h.seen hover⟩
      · intro sock' state hmem
        exact h.known sock' state (by simpa using hmem)
      · intro _ sock' hsock'
        have hmem : sock' ∈ s.utp.socket := by
          rw [hsock]
          exact hsock'
        simpa using h.usable hover sock' hmem
  · exact ReportInv.tbUtpRecv (h.congr rfl rfl rfl id h.seen) hover

theorem ReportInv.countSent (h : ReportInv s) (hover : s.pc.over = false) (sent : Int) :
    ReportInv (s.countSent sent) := by
  simp only [UtpRun.countSent]
  split
  · exact ReportInv.leave (h.congr rfl rfl rfl id h.seen) hover
  · exact h.congr rfl rfl rfl (fun _ => hover) fun _ => h.seen hover

theorem ReportInv.callback {cb : LibCallback} (h : ReportInv s)
    (hlast : ReportsLast s (.callback cb)) (ht : s.callbackStep cb = some t) : ReportInv t := by
  unfold UtpRun.callbackStep at ht
  split at ht <;> cases ht
  next hallow =>
  cases cb with
  | onRead count => exact h.congr rfl rfl rfl id h.seen
  | onWrite count => exact h.congr rfl rfl rfl id h.seen
  | onState sock state =>
    simp only [UtpRun.allows, Bool.and_eq_true, decide_eq_true_eq] at hallow
    refine ⟨respects_cons.mpr ⟨trivial, h.respects⟩, ?_, ?_, ?_⟩
    · intro sock' state' hmem
      rcases List.mem_cons.mp hmem with heq | hmem
      · cases heq
        exact hallow.2
      · exact h.known sock' state' hmem
    · intro hover sock' hsock' hmem
      rcases List.mem_cons.mp hmem with heq | hmem
      · cases heq
        exact (hlast hover).2 rfl hsock'
      · exact h.usable hover sock' hsock' hmem
    · intro hover herr
      have hnone : errored s.trace = false := (hlast hover).1
      exact absurd (hnone.symm.trans herr) (by decide)
  | onError sock =>
    refine ⟨respects_cons.mpr ⟨trivial, h.respects⟩, ?_, ?_, fun _ _ => rfl⟩
    · intro sock' state hmem
      exact h.known sock' state (by simpa [UtpRun.callback] using hmem)
    · intro hover sock' hsock'
      simpa [UtpRun.callback] using h.usable hover sock' hsock'
  | incoming =>
    refine ⟨h.respects, ?_, ?_, ?_⟩
    · intro sock state hmem
      exact Nat.lt_succ_of_lt (h.known sock state hmem)
    · -- the new socket has not been reported on
      intro _ sock hsock hmem
      have hlt := h.known sock .destroying hmem
      cases hsock
      exact absurd hlt (Nat.lt_irrefl _)
    · intro hover herr
      have hnone : errored s.trace = false := hlast hover
      exact absurd (hnone.symm.trans herr) (by decide)

theorem ReportInv.start (h : ReportInv s) (ht : s.startStep k = some t) : ReportInv t := by
  obtain ⟨hpc, ⟨-, rfl⟩ | ⟨-, rfl⟩⟩ := UtpRun.startStep_cases ht <;>
    have hover : s.pc.over = false := by rw [hpc]; rfl
  · refine ⟨h.respects, ?_, ?_, fun _ => h.seen hover⟩
    · intro sock state hmem
      exact Nat.lt_succ_of_lt (h.known sock state hmem)
    · intro _ sock hsock hmem
      have hlt := h.known sock .destroying hmem
      cases hsock
      exact absurd hlt (Nat.lt_irrefl _)
  · exact h.congr rfl rfl rfl (fun _ => hover) fun _ => h.seen hover

theorem ReportInv.test (h : ReportInv s) (ht : s.testStep k = some t) : ReportInv t := by
  obtain ⟨hpc, hcases⟩ := UtpRun.testStep_cases ht
  have hover : s.pc.over = false := by rw [hpc]; rfl
  rcases hcases with ⟨-, rfl⟩ | ⟨-, rfl⟩ | ⟨-, rfl⟩
  · exact h.leave hover
  · exact ReportInv.tbUtpSend (h.congr rfl rfl rfl id h.seen) hover
  · exact h.tbUtpRecv hover

theorem ReportInv.wrote {rc : Int} (h : ReportInv s) (hlast : ReportsLast s (.wrote rc))
    (ht : s.wroteStep rc = some t) : ReportInv t := by
  obtain ⟨hpc, u, hu, rfl⟩ := UtpRun.wroteStep_cases ht
  have hover : s.pc.over = false := by rw [hpc]; rfl
  rcases hu with rfl | ⟨hrc, rfl⟩
  · exact h.countSent hover _
  · have hinv : ReportInv { s with utp := { s.utp with state := .created } } :=
      h.congr rfl rfl rfl id fun _ herr => absurd hrc (hlast herr)
    exact hinv.countSent hover _

theorem ReportInv.polled (h : ReportInv s) (ht : s.polledStep = some t) : ReportInv t := by
  rcases UtpRun.polledStep_cases ht with ⟨hpc, rfl⟩ | ⟨c, hpc, rfl⟩
  · have hover : s.pc.over = false := by rw [hpc]; rfl
    exact h.congr rfl rfl rfl (fun _ => hover) fun _ => h.seen hover
  · have hover : s.pc.over = (UtpPc.timeouts c).over := by rw [hpc]; rfl
    exact h.congr rfl rfl rfl hover.trans fun ht => h.seen (hover.trans ht)

theorem ReportInv.checked {late : Bool} (h : ReportInv s) (ht : s.checkedStep k late = some t) :
    ReportInv t := by
  obtain ⟨u, recv, hu, hcases⟩ := UtpRun.checkedStep_cases ht
  have hpc : u.pc = s.pc := by rcases hu with ⟨-, rfl, -⟩ | ⟨-, rfl, -⟩ <;> rfl
  -- a time-out sets the state that an error asks for
  have hinv : ReportInv u := by
    rcases hu with ⟨-, rfl, -⟩ | ⟨-, rfl, -⟩
    · exact h.congr rfl rfl rfl id fun _ _ => rfl
    · exact h
  rcases hcases with ⟨hmain, -, rfl⟩ | ⟨hmain, -, rfl⟩ | ⟨-, rfl⟩
  · have hover : u.pc.over = false := by rw [hpc, hmain]; rfl
    exact hinv.countSent hover _
  · have hover : u.pc.over = false := by rw [hpc, hmain]; rfl
    exact hinv.congr rfl rfl rfl (fun _ => hover) fun _ => hinv.seen hover
  · exact .of_over hinv.respects hinv.known rfl

theorem ReportInv.switch (h : ReportInv s) (ht : s.switchStep k = some t) : ReportInv t := by
  obtain ⟨hpc, hcases⟩ := UtpRun.switchStep_cases ht
  have hover : s.pc.over = false := by rw [hpc]; rfl
  -- the switch sees an error, and behind it there is none
  have hnext : ReportInv { s with pc := .test, trace := .switch s.utp.state :: s.trace } := by
    refine ⟨respects_cons.mpr ⟨h.seen hover, h.respects⟩, ?_, ?_, fun _ herr => ?_⟩
    · intro sock state hmem
      exact h.known sock state (by simpa using hmem)
    · intro _ sock hsock
      simpa using h.usable hover sock hsock
    · cases herr
  rcases hcases with rfl | ⟨l, -, rfl⟩
  · exact ReportInv.tbUtpClose (hnext.congr rfl rfl rfl id hnext.seen) rfl
  · exact hnext.congr rfl rfl rfl id hnext.seen

/-- **Step.** -/
theorem reportInv_step {l : UtpLabel} (h : ReportInv s) (hlast : ReportsLast s l)
    (ht : s.step k l = some t) : ReportInv t := by
  cases l with
  | start => exact h.start ht
  | test => exact h.test ht
  | callback cb => exact h.callback hlast ht
  | wrote rc => exact h.wrote hlast ht
  | polled => exact h.polled ht
  | checked late => exact h.checked ht
  | switch => exact h.switch ht
  | closed =>
    obtain ⟨-, rfl⟩ := UtpRun.closedStep_cases ht
    exact .of_over h.respects h.known rfl
  | drained =>
    obtain ⟨-, rfl | rfl⟩ := UtpRun.drainedStep_cases ht
    · exact h.endClose
    · exact .of_over h.respects h.known rfl
  | env e =>
    cases ht
    exact h.congr rfl rfl rfl id h.seen

end Step

theorem reportInv_init (l : Listener) : ReportInv (UtpRun.init l) :=
  ⟨respects_nil, by simp [UtpRun.init], nofun, nofun⟩

/-- **Terminal reports are respected as long as libutp makes them last.** In every run of the client
or the server whose steps all meet `ReportsLast`, nothing is called on a socket that was reported
destroyed, and the switch after an error sees it. -/
theorem reports_respected (k : UtpKind) (l : Listener) (ls : List UtpLabel) (s : UtpRun)
    (hlast : Meets (UtpRun.step k) ReportsLast (UtpRun.init l) ls)
    (h : run (UtpRun.step k) (UtpRun.init l) ls = some s) : Respects s.trace :=
  (run_invariant_of_meets (reportInv_init l) (fun _ _ _ => reportInv_step) hlast h).respects

/-- An error inside a write that leaves the socket writable: the client closes and aborts. -/
theorem reports_respected_error :
    ∃ s, run (UtpRun.step .client) (UtpRun.init twoBytesToSend)
        [.start, .callback (.onState 0 .connect), .polled, .test, .callback (.onError 0), .wrote 1,
          .switch, .callback (.onState 0 .destroying), .closed, .drained] = some s ∧
      s.trace = [.state 0 .destroying, .close 0, .switch .error, .error 0, .write 0 2,
        .state 0 .connect] ∧ s.pc = .aborted ∧ Respects s.trace :=
  ⟨_, rfl, rfl, rfl, reports_respected .client twoBytesToSend
    [.start, .callback (.onState 0 .connect), .polled, .test, .callback (.onError 0), .wrote 1,
      .switch, .callback (.onState 0 .destroying), .closed, .drained] _ (by decide) rfl⟩

/-- The same error in a write that returns 0, and a socket that is destroyed before the client is
told to exit. -/
theorem reports_overwritten :
    (∃ s, run (UtpRun.step .client) (UtpRun.init twoBytesToSend)
        [.start, .callback (.onState 0 .connect), .polled, .test, .callback (.onError 0), .wrote 0,
          .switch] = some s ∧
      s.trace = [.switch .created, .error 0, .write 0 2, .state 0 .connect] ∧
        ¬ Respects s.trace) ∧
    ∃ s, run (UtpRun.step .client) (UtpRun.init twoBytesToSend)
        [.start, .callback (.onState 0 .destroying), .polled, .env .interrupt, .test] = some s ∧
      s.trace = [.close 0, .state 0 .destroying] ∧ ¬ Respects s.trace :=
  ⟨⟨_, rfl, rfl, fun h => absurd (h [] _ _ rfl rfl) (by decide)⟩,
    ⟨_, rfl, rfl, fun h => h [] (.close 0) [.state 0 .destroying] rfl (.head _)⟩⟩

end TestBed
