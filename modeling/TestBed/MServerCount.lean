import TestBed.MServer

/-!
# The count of active connections

`num_active_conn` is raised when a connection is accepted and lowered when its thread ends in order. A
thread that ends on an error of `recv` does not lower it, so the count is the number of connections
still served plus the number of such errors (`run_count`).

The thread that lowers the count to zero orders the main loop to exit. A connection accepted after
that is still served when the main loop is left; without such a late connection the server leaves only
when all connections have ended (`mServer_exits_idle`).
-/

namespace TestBed

open Transition MServerProg

variable {p : MServerProg} {s t : MServer}

def MServer.activeConns (s : MServer) : Nat := s.conns.countP (·.active)

/-- A `recv` fails with a code that does not end the transfer in order. -/
def MServerProg.recvError (p : MServerProg) : SLabel → Bool
  | .conn _ (.recv (.error code)) => !p.endCode code
  | _ => false

theorem countP_set_add {α : Type} {xs : List α} {k : Nat} {x : α} (h : xs[k]? = some x) (y : α)
    (q : α → Bool) :
    (xs.set k y).countP q + (q x).toNat = xs.countP q + (q y).toNat := by
  obtain ⟨hk, rfl⟩ := List.getElem?_eq_some_iff.mp h
  have hle := List.boole_getElem_le_countP (p := q) hk
  rw [List.countP_set hk]
  cases hx : q xs[k] <;> cases q y <;>
    simp only [hx, Bool.toNat_true, Bool.toNat_false, if_true, if_false, Bool.false_eq_true]
      at hle ⊢ <;>
    omega

def MServer.numSessions (s : MServer) : Nat := s.listener.sessionList.sessions.length

/-- A step that changes neither the connections nor the count nor the command. -/
structure Idle (s t : MServer) : Prop where
  conns : t.conns = s.conns
  sessions : t.numSessions = s.numSessions
  count : t.listener.sessionList.numActiveConn = s.listener.sessionList.numActiveConn
  command : t.listener.command = s.listener.command

/-- The main thread has accepted a connection. -/
structure Accepted (s t : MServer) : Prop where
  main : t.main = .accepting
  conns : t.conns = s.conns ++ [.created]
  sessions : t.numSessions = s.numSessions + 1
  count : t.listener.sessionList.numActiveConn = s.listener.sessionList.numActiveConn + 1
  command : t.listener.command = s.listener.command

/-- Thread `k` has moved from `pc` to `pc'`. -/
structure Served (k : Nat) (pc pc' : ServePc) (s t : MServer) : Prop where
  thread : s.conns[k]? = some pc
  conns : t.conns = s.conns.set k pc'
  sessions : t.numSessions = s.numSessions
  main : t.main = s.main

/-- What a thread's step does to the count and the command. -/
inductive Counts (p : MServerProg) (l : SLabel) (pc pc' : ServePc) (s t : MServer) : Prop
  | goesOn (hl : p.recvError l = false) (hpc : pc.active = true) (hpc' : pc'.active = true)
      (count : t.listener.sessionList.numActiveConn = s.listener.sessionList.numActiveConn)
      (command : t.listener.command = s.listener.command)
  | fails (hl : p.recvError l = true) (hpc : pc.active = true) (hpc' : pc' = .returned (some (-1)))
      (count : t.listener.sessionList.numActiveConn = s.listener.sessionList.numActiveConn)
      (command : t.listener.command = s.listener.command)
  | countsOut (hl : p.recvError l = false) (hpc : pc.active = true)
      (hpc' : pc' = if t.listener.sessionList.numActiveConn = 0 then .leaving
        else .returned p.retval)
      (count : t.listener.sessionList.numActiveConn =
        s.listener.sessionList.numActiveConn - 1)
      (command : t.listener.command = s.listener.command)
  | leaves (hl : p.recvError l = false) (hpc : pc = .leaving) (hpc' : pc' = .returned p.retval)
      (count : t.listener.sessionList.numActiveConn = s.listener.sessionList.numActiveConn)
      (command : t.listener.command = .tbExit)

theorem serveStep_sessions {l l' : Listener} {session session' : Session} {pc pc' : ServePc}
    {act : ServeAct} (h : p.serveStep l session pc act = some (l', session', pc')) :
    l'.sessionList.sessions = l.sessionList.sessions := by
  cases serveStep_moves h <;> rfl

theorem connStep_cases {k : Nat} {act : ServeAct} (h : p.connStep s k act = some t) :
    ∃ pc pc', Served k pc pc' s t ∧ Counts p (.conn k act) pc pc' s t := by
  unfold connStep at h
  split at h
  · next session pc hsession hpc =>
    obtain ⟨⟨l, session', pc'⟩, hr, rfl⟩ := Option.map_eq_some_iff.mp h
    have hsessions := serveStep_sessions hr
    have hlen : MServer.numSessions
        { s with listener := l.setSession k session', conns := s.conns.set k pc' } =
        s.numSessions := by
      simp [MServer.numSessions, Listener.setSession, hsessions]
    refine ⟨pc, pc', ⟨hpc, rfl, hlen, rfl⟩, ?_⟩
    cases serveStep_moves hr with
    | starts => exact .goesOn rfl rfl rfl rfl rfl
    | receives hn => exact .goesOn rfl rfl (by split <;> rfl) rfl rfl
    | ends hcode => exact .goesOn (by simp [recvError, hcode]) rfl rfl rfl rfl
    | fails hcode => exact .fails (by simp [recvError, hcode]) rfl rfl rfl rfl
    | countsOut => exact .countsOut rfl rfl rfl rfl rfl
    | leaves => exact .leaves rfl rfl rfl rfl rfl
  · cases h

theorem acceptStep_cases {sockD : Int} {optionOk : Bool}
    (h : p.acceptStep s sockD optionOk = some t) :
    (Idle s t ∧ t.main.out = false) ∨ sockD ≠ -1 ∧ Accepted s t := by
  unfold acceptStep at h
  split at h
  · next hmain =>
    split at h
    · cases h
      exact .inl ⟨⟨rfl, rfl, rfl, rfl⟩, rfl⟩
    · next hsock =>
      split at h <;> cases h
      · exact .inl ⟨⟨rfl, rfl, rfl, rfl⟩, rfl⟩
      · right
        have hadd : (addConn s.listener sockD).sessionList.sessions.length =
            s.listener.sessionList.sessions.length + 1 := by
          unfold addConn
          dsimp only
          split <;> simp [tbSessionAdd, tbSessionAddTo]
        refine ⟨hsock, hmain, rfl, hadd, ?_, ?_⟩ <;> unfold addConn <;> dsimp only <;> split <;> rfl
  · cases h

/-- **What a step does to the count.** -/
theorem mServer_step_cases {l : SLabel} (h : p.step s l = some t) :
    (p.recvError l = false ∧ Idle s t ∧
      (t.main.out = true → s.main.out = true ∨ s.listener.command.eLoop = true)) ∨
      (∃ sockD optionOk, l = .accept sockD optionOk ∧ sockD ≠ -1 ∧ Accepted s t) ∨
      ∃ k pc pc', Served k pc pc' s t ∧ Counts p l pc pc' s t := by
  cases l with
  | setup ok =>
    simp only [MServerProg.step, setupStep] at h
    split at h
    · split at h <;> cases h <;> exact .inl ⟨rfl, ⟨rfl, rfl, rfl, rfl⟩, by simp [MainPc.out]⟩
    · cases h
  | test =>
    simp only [MServerProg.step, testStep] at h
    split at h <;> cases h
    refine .inl ⟨rfl, ⟨rfl, rfl, rfl, rfl⟩, ?_⟩
    dsimp only
    split
    · next hcommand => exact fun _ => .inr hcommand
    · simp [MainPc.out]
  | poll event =>
    simp only [MServerProg.step, pollStep] at h
    split at h <;> cases h
    refine .inl ⟨rfl, ⟨rfl, rfl, rfl, rfl⟩, ?_⟩
    cases event <;> simp [MainPc.out]
  | accept sockD optionOk =>
    rcases acceptStep_cases h with ⟨hidle, hmain⟩ | hacc
    · exact .inl ⟨rfl, hidle, by simp [hmain]⟩
    · exact .inr (.inl ⟨sockD, optionOk, rfl, hacc⟩)
  | close =>
    simp only [MServerProg.step, closeStep] at h
    split at h <;> cases h
    next hmain => exact .inl ⟨rfl, ⟨rfl, rfl, rfl, rfl⟩, fun _ => .inl (by rw [hmain]; rfl)⟩
  | conn k act =>
    obtain ⟨pc, pc', hserved, hcounts⟩ := connStep_cases h
    exact .inr (.inr ⟨k, pc, pc', hserved, hcounts⟩)
  | tick q =>
    cases h
    exact .inl ⟨rfl, ⟨rfl, tbSetMStats_length q _, rfl, rfl⟩, fun h => .inl h⟩

/-! ## The count -/

theorem Idle.activeConns (h : Idle s t) : t.activeConns = s.activeConns := by
  rw [MServer.activeConns, h.conns, MServer.activeConns]

theorem Accepted.activeConns (h : Accepted s t) : t.activeConns = s.activeConns + 1 := by
  simp [MServer.activeConns, h.conns]

theorem Served.activeConns {k : Nat} {pc pc' : ServePc} (h : Served k pc pc' s t) :
    t.activeConns + pc.active.toNat = s.activeConns + pc'.active.toNat := by
  simpa [MServer.activeConns, h.conns] using countP_set_add h.thread pc' (·.active)

/-- **The count in every state reached.** It exceeds the number of connections still served by the
number of sessions that ended on an error. -/
theorem run_count {l₀ : Listener} (h₀ : l₀.sessionList.numActiveConn = 0) {ls : List SLabel}
    (h : run p.step (MServerProg.init l₀) ls = some s) :
    s.listener.sessionList.numActiveConn = s.activeConns + ls.countP p.recvError := by
  refine run_induction (P := fun ls s => s.listener.sessionList.numActiveConn =
    (s.activeConns : Int) + (ls.countP p.recvError : Nat)) ?_ ?_ h
  · simp [MServerProg.init, MServer.activeConns, h₀]
  · intro ls s l t _ hs ht
    rw [List.countP_append, List.countP_singleton]
    rcases mServer_step_cases ht with ⟨hl, hidle, -⟩ | ⟨sockD, optionOk, rfl, -, hacc⟩ |
      ⟨k, pc, pc', hserved, hcounts⟩
    · rw [hidle.count, hs, hidle.activeConns, hl]
      simp
    · rw [hacc.count, hacc.activeConns, hs]
      simp [recvError]
      omega
    · have hactive := hserved.activeConns
      cases hcounts with
      | goesOn hl hpc hpc' hcount _ =>
        rw [hcount, hs, hl]
        simp [hpc, hpc'] at hactive ⊢
        omega
      | fails hl hpc hpc' hcount _ =>
        rw [hcount, hs, hl]
        simp [hpc, hpc'] at hactive ⊢
        omega
      | countsOut hl hpc hpc' hcount _ =>
        have hpc'' : pc'.active = false := by
          rw [hpc']
          split <;> rfl
        rw [hcount, hs, hl]
        simp [hpc, hpc''] at hactive ⊢
        omega
      | leaves hl hpc hpc' hcount _ =>
        rw [hcount, hs, hl]
        simp [hpc, hpc'] at hactive ⊢
        omega

/-- Every session of the list has its thread. -/
theorem run_conns_length {l₀ : Listener} (h₀ : l₀.sessionList.sessions = []) {ls : List SLabel}
    (h : run p.step (MServerProg.init l₀) ls = some s) : s.conns.length = s.numSessions := by
  refine run_invariant (I := fun s => s.conns.length = s.numSessions) ?_ ?_ h
  · simp [MServerProg.init, MServer.numSessions, h₀]
  · intro s l t hs ht
    rcases mServer_step_cases ht with ⟨-, hidle, -⟩ | ⟨_, _, -, -, hacc⟩ | ⟨k, pc, pc', hserved, -⟩
    · rw [hidle.conns, hidle.sessions, hs]
    · rw [hacc.conns, hacc.sessions, List.length_append, hs, List.length_singleton]
    · rw [hserved.conns, hserved.sessions, List.length_set, hs]

/-- **When the count is right.** In every state that a run of `tb_stream_m_server` or
`tb_udt_m_server` reaches, the threads are those of the sessions in the list, and `num_active_conn` is
the number of sessions whose thread has not ended its connection if and only if no `recv` has failed
so far. -/
theorem num_active_conn_iff (k : SKind) (protocol : Protocol) (bufsize : Int) (ls : List SLabel)
    (s : MServer)
    (hrun : run (mServer k).step
      (MServerProg.init (tbCreateListener .mServer protocol bufsize)) ls = some s) :
    s.conns.length = s.numSessions ∧
      (s.listener.sessionList.numActiveConn = s.activeConns ↔
        ∀ l ∈ ls, (mServer k).recvError l = false) := by
  have hcount := run_count rfl hrun
  have hzero := List.countP_eq_zero (p := (mServer k).recvError) (l := ls)
  refine ⟨run_conns_length rfl hrun, ?_, ?_⟩
  · intro heq l hl
    simpa using hzero.mp (by omega) l hl
  · intro hno
    have := hzero.mpr (by simpa using hno)
    omega

def oneConnRun (acts : List ServeAct) : List SLabel :=
  [.setup true, .test, .poll true, .accept 5 true, .conn 0 .start, .conn 0 (.recv (.count 8))] ++
    acts.map (.conn 0)

theorem num_active_conn_iff_orderly_end :
    ∃ s, run tbStreamMServer.step
        (MServerProg.init (tbCreateListener .mServer .tcp 1408))
        (oneConnRun [.recv (.count 0), .countOut, .leave]) = some s ∧
      s.listener.sessionList.numActiveConn = s.activeConns ∧ s.activeConns = 0 :=
  ⟨_, rfl, (num_active_conn_iff .stream .tcp 1408
    (oneConnRun [.recv (.count 0), .countOut, .leave]) _ rfl).2.mpr (by decide), rfl⟩

/-- The only connection ends on an error: it is counted for ever. -/
theorem num_active_conn_stuck :
    ∃ s, run tbStreamMServer.step
        (MServerProg.init (tbCreateListener .mServer .tcp 1408))
        (oneConnRun [.recv (.error 104)]) = some s ∧
      s.conns = [.returned (some (-1))] ∧ s.activeConns = 0 ∧
      s.listener.sessionList.numActiveConn = 1 :=
  ⟨_, rfl, rfl, rfl, rfl⟩

/-! ## The exit -/

/-- A session thread has seen the count fall to zero. -/
def MServer.exitPending (s : MServer) : Bool :=
  s.listener.command.eLoop || s.conns.any (· == .leaving)

/-- No `recv` fails, and no connection is accepted once the count has fallen to zero. -/
def NoLateAccept (p : MServerProg) (s : MServer) (l : SLabel) : Prop :=
  p.recvError l = false ∧
    match l with
    | .accept sockD _ => s.exitPending = true → sockD = -1
    | _ => True

instance (s : MServer) (l : SLabel) : Decidable (NoLateAccept p s l) := by
  cases l <;> unfold NoLateAccept <;> infer_instance

/-- The invariant of the runs without a late connection. -/
structure ExitInv (s : MServer) : Prop where
  count : s.listener.sessionList.numActiveConn = s.activeConns
  pending : s.exitPending = true → s.activeConns = 0
  out : s.main.out = true → s.exitPending = true

theorem Idle.exitPending (h : Idle s t) : t.exitPending = s.exitPending := by
  simp [MServer.exitPending, h.conns, h.command]

theorem exitPending_eq_false_iff :
    s.exitPending = false ↔ s.listener.command.eLoop = false ∧ ServePc.leaving ∉ s.conns := by
  simp only [MServer.exitPending, Bool.or_eq_false_iff, List.any_eq_false, beq_iff_eq]
  exact and_congr_right fun _ => ⟨fun h hmem => h _ hmem rfl, fun h pc hmem heq => h (heq ▸ hmem)⟩

/-- No exit is pending after a step of a thread that does not order it. -/
theorem Served.exitPending {k : Nat} {pc pc' : ServePc} (h : Served k pc pc' s t)
    (hs : s.exitPending = false) (hcommand : t.listener.command = s.listener.command)
    (hpc' : pc' ≠ .leaving) : t.exitPending = false := by
  rw [exitPending_eq_false_iff] at hs ⊢
  refine ⟨by rw [hcommand, hs.1], ?_⟩
  rw [h.conns]
  intro hmem
  rcases List.mem_or_eq_of_mem_set hmem with hmem | heq
  · exact hs.2 hmem
  · exact hpc' heq.symm

/-- While a connection is served, no exit is pending. -/
theorem ExitInv.exitPending {k : Nat} {pc : ServePc} (hs : ExitInv s) (hk : s.conns[k]? = some pc)
    (hpc : pc.active = true) : s.exitPending = false := by
  have hpos : 0 < s.activeConns := List.countP_pos_iff.mpr ⟨pc, List.mem_of_getElem? hk, hpc⟩
  by_contra hne
  have := hs.pending (by simpa using hne)
  omega

theorem ExitInv.of_idle (hs : ExitInv s) (hidle : Idle s t)
    (hout : t.main.out = true → s.main.out = true ∨ s.listener.command.eLoop = true) :
    ExitInv t := by
  have hconns := hidle.activeConns
  refine ⟨by rw [hidle.count, hconns, hs.count], ?_, ?_⟩
  · rw [hidle.exitPending, hconns]
    exact hs.pending
  · intro ht
    rw [hidle.exitPending]
    rcases hout ht with hs' | hcommand
    · exact hs.out hs'
    · simp [MServer.exitPending, hcommand]

/-- A connection is accepted while no exit is pending. -/
theorem ExitInv.of_accepted (hs : ExitInv s) (hacc : Accepted s t)
    (hpending : s.exitPending = false) : ExitInv t := by
  have hcount := hs.count
  have hpending' : t.exitPending = false := by
    rw [exitPending_eq_false_iff] at hpending ⊢
    simp [hacc.command, hacc.conns, hpending]
  refine ⟨by rw [hacc.count, hacc.activeConns]; omega, ?_, ?_⟩
  · simp [hpending']
  · simp [hacc.main, MainPc.out]

/-- A session thread that does not fail. -/
theorem ExitInv.of_served {l : SLabel} {k : Nat} {pc pc' : ServePc} (hs : ExitInv s)
    (hserved : Served k pc pc' s t) (hcounts : Counts p l pc pc' s t)
    (hfails : p.recvError l = false) : ExitInv t := by
  have hcount := hs.count
  have hactive := hserved.activeConns
  -- the main loop is not left while a connection is served
  have hmain : s.exitPending = false → t.main.out = true → t.exitPending = true := by
    rw [hserved.main]
    intro hpending hout
    rw [hs.out hout] at hpending
    cases hpending
  cases hcounts with
  | goesOn hl hpc hpc' hcount' hcommand =>
    have hpending := hs.exitPending hserved.thread hpc
    have hpending' := hserved.exitPending hpending hcommand (by rintro rfl; cases hpc')
    simp only [hpc, hpc'] at hactive
    exact ⟨by omega, by simp [hpending'], hmain hpending⟩
  | fails hl =>
    rw [hfails] at hl
    cases hl
  | countsOut hl hpc hpc' hcount' hcommand =>
    have hpending := hs.exitPending hserved.thread hpc
    by_cases hzero : t.listener.sessionList.numActiveConn = 0
    · -- the last connection: the exit is pending from now on
      rw [if_pos hzero] at hpc'
      simp [hpc, hpc'] at hactive
      exact ⟨by omega, fun _ => by omega, hmain hpending⟩
    · rw [if_neg hzero] at hpc'
      have hpending' := hserved.exitPending hpending hcommand (by simp [hpc'])
      simp [hpc, hpc'] at hactive
      exact ⟨by omega, by simp [hpending'], hmain hpending⟩
  | leaves hl hpc hpc' hcount' hcommand =>
    subst hpc hpc'
    have hpending : s.exitPending = true := by
      have hmem := List.mem_of_getElem? hserved.thread
      simp only [MServer.exitPending, Bool.or_eq_true, List.any_eq_true, beq_iff_eq]
      exact .inr ⟨.leaving, hmem, rfl⟩
    have hzero := hs.pending hpending
    simp at hactive
    refine ⟨by omega, fun _ => by omega, fun _ => ?_⟩
    simp [MServer.exitPending, hcommand]

theorem ExitInv.step {l : SLabel} (hs : ExitInv s) (hG : NoLateAccept p s l)
    (h : p.step s l = some t) : ExitInv t := by
  rcases mServer_step_cases h with ⟨-, hidle, hout⟩ | ⟨sockD, optionOk, rfl, hsock, hacc⟩ |
    ⟨k, pc, pc', hserved, hcounts⟩
  · exact hs.of_idle hidle hout
  · refine hs.of_accepted hacc ?_
    by_contra hne
    exact hsock (hG.2 (by simpa using hne))
  · exact hs.of_served hserved hcounts hG.1

/-- **A server without late connections leaves idle.** In every run of `tb_stream_m_server` or
`tb_udt_m_server` in which no `recv` fails and no connection is accepted after a session thread has
seen the count fall to zero: once the main loop is left, every session in the list has ended its
connection. -/
theorem mServer_exits_idle (k : SKind) (protocol : Protocol) (bufsize : Int) (ls : List SLabel)
    (s : MServer)
    (hrun : run (mServer k).step
      (MServerProg.init (tbCreateListener .mServer protocol bufsize)) ls = some s)
    (hlate : Meets (mServer k).step (NoLateAccept (mServer k))
      (MServerProg.init (tbCreateListener .mServer protocol bufsize)) ls) :
    s.main.out = true → ∀ k session, s.listener.session? k = some session →
      ∃ pc, s.conns[k]? = some pc ∧ pc.active = false := by
  have hinv : ExitInv s := by
    refine run_invariant_of_meets (I := ExitInv) ⟨rfl, ?_, ?_⟩ ?_ hlate hrun
    · intro h
      rfl
    · intro h
      cases h
    · intro s l t hs hG ht
      exact hs.step hG ht
  intro hout k session hk
  have hzero := hinv.pending (hinv.out hout)
  have hlt : k < s.conns.length := by
    rw [run_conns_length rfl hrun]
    exact (List.getElem?_eq_some_iff.mp hk).1
  refine ⟨s.conns[k], List.getElem?_eq_getElem hlt, ?_⟩
  simpa using List.countP_eq_zero.mp hzero _ (List.getElem_mem hlt)

/-- One connection is accepted, served and counted out; after the steps given the main loop tests the
command. -/
def exitRun (late : List SLabel) : List SLabel :=
  oneConnRun [.recv (.count 0), .countOut, .leave] ++ late ++ [.accept (-1) true, .test]

theorem mServer_exits_idle_one_conn :
    ∃ s, run tbStreamMServer.step
        (MServerProg.init (tbCreateListener .mServer .tcp 1408)) (exitRun []) = some s ∧
      s.main = .left ∧ ∃ pc, s.conns[0]? = some pc ∧ pc.active = false :=
  ⟨_, rfl, rfl, mServer_exits_idle .stream .tcp 1408 (exitRun []) _ rfl (by decide) rfl 0 _ rfl⟩

/-- A second connection is accepted after the first has ended and before the main loop tests the
command: the server leaves its loop while the second connection is not yet served. -/
theorem mServer_exits_under_connection :
    ∃ s, run tbStreamMServer.step
        (MServerProg.init (tbCreateListener .mServer .tcp 1408)) (exitRun [.accept 6 true]) =
          some s ∧
      s.main = .left ∧ s.listener.command = .tbExit ∧
      s.conns = [.returned (some 0), .created] :=
  ⟨_, rfl, rfl, rfl, rfl⟩

end TestBed
