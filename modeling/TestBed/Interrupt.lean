import TestBed.AbortPaths
import TestBed.Code.Flags

/-!
# Interrupts

SIGINT can be delivered between any two steps of a run. Its handler writes through `tb_global_l`, which
`tb_start` assigns and nothing resets; and the command that it leaves is overwritten by a server whose
sessions end with `command = s_tx_end`. So an interrupt is fatal before `tb_start` has published the
listener and after the listener was freed, and is lost where a session ends with `TB_CONTINUE`;
otherwise it is kept (`interrupt_kept`).
-/

namespace TestBed.Code

open Program Lang Transition

/-- The handler has found a listener, and the command that it left has an exit bit. -/
structure InterruptKept (w : World) : Prop where
  found : w.fault = false
  kept : w.interrupted = true → w.listener.command.eLoop = true

/-! ## What the steps do to the command -/

/-- The part of a world that the handler writes. -/
def World.signal (w : World) : Bool × Bool × Command := (w.fault, w.interrupted, w.listener.command)

theorem InterruptKept.of_signal {w w' : World} (h : InterruptKept w) (hs : w'.signal = w.signal) :
    InterruptKept w' := by
  simp only [World.signal, Prod.mk.injEq] at hs
  obtain ⟨hfault, hinterrupted, hcommand⟩ := hs
  refine ⟨hfault.trans h.found, fun hi => ?_⟩
  rw [hcommand]
  exact h.kept (hinterrupted.symm.trans hi)

theorem InterruptKept.command {w : World} (h : InterruptKept w) {c : Command}
    (hc : w.interrupted = true → c.eLoop = true) :
    InterruptKept { w with listener := { w.listener with command := c } } :=
  ⟨h.found, hc⟩

/-- The operations that assign the command. -/
def Op.commands : Op → Bool
  | .command _ | .txEnd => true
  | _ => false

theorem signal_perform {o : Op} {w w' : World} {io : Io} (ho : o.commands = false)
    (h : o.perform w io = some w') : w'.signal = w.signal := by
  have hsignal : ∀ v : World, v.signal = (v.flags.fault, v.flags.interrupted, v.flags.command) :=
    fun _ => rfl
  rw [hsignal, flags_perform h, hsignal]
  cases o with
  | command | txEnd => cases ho
  | start t | finish t => cases t <;> rfl
  | _ => rfl

/-! ## Runs -/

/-- SIGINT is delivered while `tb_global_l` is the listener, and `command = s_tx_end` is not executed
with `TB_CONTINUE` after an interrupt. -/
def keepsExit : Guard World Op Io EnvStep where
  op o w _ :=
    match o with
    | .txEnd => !w.interrupted || w.listener.sTxEnd ≠ .tbContinue
    | _ => true
  env w s :=
    match s with
    | .interrupt => w.globalL = .listener
    | _ => true

theorem InterruptKept.perform {o : Op} {w w' : World} {io : Io} (h : InterruptKept w)
    (hcommand : ∀ c, o = .command c → c.eLoop = true) (hg : keepsExit.op o w io = true)
    (ht : o.perform w io = some w') : InterruptKept w' := by
  cases ho : o.commands with
  | false => exact h.of_signal (signal_perform ho ht)
  | true =>
    cases o with
    | command c =>
      cases ht
      exact h.command fun _ => hcommand c rfl
    | txEnd =>
      cases ht
      refine h.command fun hi => ?_
      simp only [keepsExit, hi, Bool.not_true, Bool.false_or, decide_eq_true_eq] at hg
      cases hend : w.listener.sTxEnd with
      | tbContinue => exact absurd hend hg
      | tbAbort | tbExit => rfl
    | _ => cases ho

theorem InterruptKept.env {w : World} {s : EnvStep} (h : InterruptKept w)
    (hg : keepsExit.env w s = true) : InterruptKept (s.perform w) := by
  cases s with
  | interrupt =>
    simp only [keepsExit, decide_eq_true_eq] at hg
    simp only [EnvStep.perform, sigAction, if_pos hg]
    exact ⟨h.found, fun _ => Command.eLoop_tbExit⟩
  | tick q =>
    have hflags := flags_tick w q
    refine h.of_signal ?_
    simp only [World.flags, Flags.mk.injEq] at hflags
    simp only [World.signal, hflags]
  | threads sessions active exit =>
    cases exit with
    | false => exact h.of_signal rfl
    | true => exact ⟨h.found, fun _ => Command.eLoop_tbExit⟩

/-- The domain of one fact: an interrupt is kept. Only exit commands are given. -/
def interruptFacts : Domain (lang.restrict keepsExit) Unit where
  γ _ w := InterruptKept w
  op o _ :=
    match o with
    | .command c => if c.eLoop then some [()] else none
    | _ => some [()]
  test _ _ _ := true
  op_sound := by
    intro o _ as w io w' h has ht
    have hcommand : ∀ c, o = .command c → c.eLoop = true := by
      rintro c rfl
      cases c <;> first | rfl | cases has
    have has' : as = [()] := by
      cases o <;> first | exact (Option.some.inj has).symm | skip
      next c => cases c <;> cases has <;> rfl
    subst has'
    refine ⟨(), List.mem_singleton_self (), ?_⟩
    simp only [Lang.restrict, lang, Op.exec] at ht
    split at ht
    · next hg =>
      split at ht
      · cases ht
      · exact h.perform hcommand hg ht
    · cases ht
  test_sound _ := rfl
  env_sound := by
    intro _ w s w' h ht
    simp only [Lang.restrict, lang] at ht
    split at ht
    · next hg =>
      cases ht
      exact h.env hg
    · cases ht

theorem checks_interruptFacts :
    interruptFacts.checks 2 tbStart [()] (fun _ => true) = true := by decide +kernel

/-- The signal has not been delivered. -/
structure Uninterrupted (w : World) : Prop where
  fault : w.fault = false
  interrupted : w.interrupted = false

/-- **An interrupt is neither lost nor fatal** in a run of an endpoint in which it comes while the
listener is published and not freed, and in which no session ends with `TB_CONTINUE` after it. -/
theorem interrupt_kept {w : World} (hw : Uninterrupted w) {ls : List (Label Io EnvStep)}
    {c : Config World Op Test} (hrun : run lang.step (start tbStart w) ls = some c)
    (hgood : Meets lang.step (GoodStep keepsExit) (start tbStart w) ls) :
    InterruptKept c.state := by
  have hkept : InterruptKept w := ⟨hw.fault, fun hi => Bool.noConfusion (hw.interrupted.symm.trans hi)⟩
  obtain ⟨⟨_, hc⟩, -⟩ :=
    Domain.checks_sound checks_interruptFacts ⟨(), List.mem_singleton_self (), hkept⟩
      (restrict_run hgood hrun)
  exact hc

/-- A TCP server with an end-of-session command. -/
def tcpWorld (sTxEnd : Command) : World :=
  .ofListener { tbCreateListener .server .tcp 1408 with sTxEnd := sTxEnd }
    ⟨tcpPtr, sockStream, 0, .tcp⟩ noFiles fun _ => none

/-- The server's socket is 3, its connections are 4; every message is one byte long. -/
def oneByte (o : Op) (_ : World) : Io :=
  match o with
  | .socket _ _ => .ret 3
  | .accept _ => .ret 4
  | .call _ (.recv _) => .ret 1
  | _ => .ret 0

/-- A run in which SIGINT comes after `n` steps of the thread, and `m` steps follow. -/
def interruptedRun (w : World) (n m : Nat) : List (Label Io EnvStep) × Config World Op Test :=
  let r := lang.drive oneByte n (start tbStart w)
  let r' := lang.drive oneByte m { r.2 with state := EnvStep.interrupt.perform r.2.state }
  (r.1 ++ .env .interrupt :: r'.1, r'.2)

theorem interruptedRun_run (w : World) (n m : Nat) :
    run lang.step (start tbStart w) (interruptedRun w n m).1 = some (interruptedRun w n m).2 :=
  drive_env_run oneByte oneByte n m (start tbStart w) rfl

theorem interrupt_kept_oneByte :
    let r := interruptedRun (tcpWorld .tbExit) 82 17
    r.2.state.interrupted = true ∧ InterruptKept r.2.state :=
  ⟨by decide +kernel,
    interrupt_kept ⟨rfl, rfl⟩ (interruptedRun_run _ 82 17) (by decide +kernel)⟩

/-- The thread is about to test the condition of a loop. -/
def atLoopTest (c : Config World Op Test) : Bool :=
  match c.stack with
  | .run (.loop _ _) :: _ => true
  | _ => false

/-- A TCP server that continues after a session accepts again although it was interrupted in that
session; and an interrupt before `tb_start` has run finds no listener. -/
theorem interrupt_lost_and_fatal :
    (∃ ls c, run lang.step (start tbStart (tcpWorld .tbContinue)) ls = some c ∧
      atLoopTest c = true ∧ c.state.fault = false ∧ ¬ InterruptKept c.state) ∧
    ∃ ls c, run lang.step (start tbStart (tcpWorld .tbExit)) ls = some c ∧
      ¬ InterruptKept c.state := by
  refine ⟨⟨_, _, interruptedRun_run _ 82 17, ?_, ?_, fun h => ?_⟩,
    ⟨_, _, interruptedRun_run _ 0 0, fun h => ?_⟩⟩
  · decide +kernel
  · decide +kernel
  · have hkept := h.kept (by decide +kernel)
    exact Bool.noConfusion (hkept.symm.trans (show _ = false by decide +kernel))
  · exact Bool.noConfusion (h.found.symm.trans (show _ = true by decide +kernel))

end TestBed.Code
