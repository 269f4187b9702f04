import TestBed.Code.World

/-!
# Status, command and timer

What the operations and the other parties do to the fields by which a thread is steered and timed:
the command, the status, the transfer timer and the marks that the signal handler leaves. Every
operation on them is a function of them alone (`flags_perform`).
-/

namespace TestBed.Code

structure Flags where
  fault : Bool
  interrupted : Bool
  command : Command
  sTxEnd : Command
  status : Status
  transferTime : TbTime

def World.flags (w : World) : Flags where
  fault := w.fault
  interrupted := w.interrupted
  command := w.listener.command
  sTxEnd := w.listener.sTxEnd
  status := w.listener.status
  transferTime := w.listener.transferTime

def Op.onFlags (f : Flags) : Op → Flags
  | .status s => { f with status := s }
  | .command c => { f with command := c }
  | .txEnd => { f with command := f.sTxEnd }
  | .start .transfer => { f with transferTime := tbStartTime f.transferTime }
  | .finish .transfer => { f with transferTime := tbFinishTime f.transferTime }
  | _ => f

theorem flags_setVar (w : World) (a : Var) (v : Int) : (w.setVar a v).flags = w.flags := by
  cases a <;> rfl

theorem flags_setSlot (w : World) (d : Slot) (v : Int) : (w.setSlot d v).flags = w.flags := by
  cases d <;> rfl

theorem flags_store (w : World) (as : List Var) (vs : List Int) :
    (w.store as vs).flags = w.flags := by
  induction as generalizing w vs with
  | nil => rfl
  | cons a as ih =>
    cases vs with
    | nil => rfl
    | cons v vs => exact (ih (w.setVar a v) vs).trans (flags_setVar w a v)

theorem flags_result (w : World) (c : Call) (io : Io) : (c.result w io).flags = w.flags := by
  have hstored : ∀ w' : World,
      (if io.rc = -1 then w' else w'.store c.stores io.out).flags = w'.flags := by
    intro w'
    split
    · rfl
    · exact flags_store w' c.stores io.out
  unfold Call.result
  dsimp only
  split <;> exact hstored _

theorem flags_openSlot {w w' : World} {io : Io} {d : Slot} (h : w.openSlot io d = some w') :
    w'.flags = w.flags := by
  simp only [World.openSlot] at h
  split at h
  · cases h
    exact flags_setSlot w d (-1)
  · split at h <;> cases h
    exact flags_setSlot w d io.rc

/-- One operation. -/
theorem flags_perform {o : Op} {w w' : World} {io : Io} (h : o.perform w io = some w') :
    w'.flags = o.onFlags w.flags := by
  cases o with
  | lock m =>
    simp only [Op.perform] at h
    split at h <;> cases h <;> rfl
  | tryLock m =>
    simp only [Op.perform] at h
    split at h
    · split at h <;> cases h
      rfl
    · cases h
      rfl
  | call via c =>
    simp only [Op.perform] at h
    split at h
    · split at h <;> cases h
      exact flags_result w c io
    · cases h
      rfl
  | fError =>
    simp only [Op.perform] at h
    split at h <;> cases h <;> rfl
  | socket d via =>
    simp only [Op.perform] at h
    split at h
    · exact flags_openSlot h
    · cases h
      rfl
  | accept d => exact flags_openSlot h
  | close d via =>
    simp only [Op.perform] at h
    split at h <;> cases h <;> rfl
  | reset d =>
    cases h
    exact flags_setSlot w d (-1)
  | copy dst src =>
    cases h
    exact flags_setSlot w dst _
  | createSessionFull type =>
    simp only [Op.perform] at h
    split at h <;> cases h <;> rfl
  | listDec =>
    cases h
    exact flags_setVar _ .active _
  | set a e =>
    cases h
    exact flags_setVar w a (e w)
  | start t | finish t => cases t <;> cases h <;> rfl
  | _ =>
    cases h
    rfl

theorem flags_exec {o : Op} {w w' : World} {io : Io} (h : o.exec w io = some w') :
    w'.flags = o.onFlags w.flags := by
  simp only [Op.exec] at h
  split at h
  · cases h
  · exact flags_perform h

theorem flags_tick (w : World) (q : Nat → StatsQuery) :
    ((EnvStep.tick q).perform w).flags = w.flags := by
  have htick : ∀ l : Listener, (tickStats q l).command = l.command ∧
      (tickStats q l).sTxEnd = l.sTxEnd ∧ (tickStats q l).status = l.status ∧
        (tickStats q l).transferTime = l.transferTime := by
    intro l
    unfold tickStats
    split <;> exact ⟨rfl, rfl, rfl, rfl⟩
  obtain ⟨hcommand, hend, hstatus, htime⟩ := htick w.listener
  simp only [EnvStep.perform, World.flags, hcommand, hend, hstatus, htime]

/-- The other parties write the command, and leave the status and the timer alone. -/
theorem status_env (s : EnvStep) (w : World) :
    (s.perform w).listener.status = w.listener.status ∧
      (s.perform w).listener.transferTime = w.listener.transferTime := by
  cases s with
  | interrupt =>
    simp only [EnvStep.perform, sigAction]
    split <;> exact ⟨rfl, rfl⟩
  | tick q =>
    have hflags := flags_tick w q
    exact ⟨congrArg Flags.status hflags, congrArg Flags.transferTime hflags⟩
  | threads sessions active exit => exact ⟨rfl, rfl⟩

end TestBed.Code
