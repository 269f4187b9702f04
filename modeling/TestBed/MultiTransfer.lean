import TestBed.MClientSend
import TestBed.MServerCount
import TestBed.Lib.Family
import TestBed.Lib.Pipe

/-!
# A transfer over several connections

`tb_stream_m_client` and `tb_stream_m_server`, or `tb_udt_m_client` and `tb_udt_m_server`, with a pipe
for each of the client's connections. A connection that a session thread of the client has made waits
in the server's backlog; the server accepts the waiting connections in any order and gives each a
thread of its own. The client's parent closes a connection when it joins the thread, and the end of
the process closes it at any time.

What the sessions of the server have counted is what was read from the pipes of their peers, and what
was written into a pipe is what the socket of its session has accepted (`MultiTransfer.Inv`).
-/

namespace TestBed

open CInt Transition Slice

structure MultiTransfer where
  client : MClient SendConn
  server : MServer
  /-- The connections that wait to be accepted. -/
  waiting : List Nat
  /-- The client's connection that each thread of the server serves. -/
  peers : List Nat
  pipes : Nat → Pipe UInt8

inductive MultiLabel
  | client (l : MLabel ThreadIo)
  /-- `i` is the place of an accepted connection in the backlog. -/
  | server (l : SLabel) (i : Nat)
  /-- The client's process is over. -/
  | hangup (k : Nat)
  | disturb (k : Nat) (xs : List UInt8)

def multiClient : SKind → MClientProg SendConn ThreadIo
  | .stream => tbStreamMClient
  | .udt => tbUdtMClient

/-- The server's socket is listening. -/
def MainPc.reachable : MainPc → Bool
  | .setup | .returned => false
  | _ => true

namespace MultiTransfer

/-- What the network can answer. -/
def allowed (s : MultiTransfer) : MultiLabel → Bool
  | .client (.thread _ (.connect rc)) => rc = -1 || s.server.main.reachable
  | .server (.accept sockD _) i => sockD = -1 || i < s.waiting.length
  | .server (.conn j (.recv (.count 0))) _ =>
    match s.peers[j]? with
    | some k => (s.pipes k).atEnd
    | none => false
  | _ => true

def waitingAfter (s : MultiTransfer) : MultiLabel → List Nat
  | .client (.thread k (.connect rc)) => if rc = -1 then s.waiting else s.waiting ++ [k]
  | .server (.accept sockD _) i => if sockD = -1 then s.waiting else s.waiting.eraseIdx i
  | _ => s.waiting

/-- An accepted connection gets a thread, unless its socket options fail. -/
def peersAfter (k : SKind) (s : MultiTransfer) : MultiLabel → List Nat
  | .server (.accept sockD optionOk) i =>
    if sockD = -1 ∨ (mServer k).checksOption ∧ optionOk = false then s.peers
    else s.peers ++ (s.waiting[i]?).toList
  | _ => s.peers

/-- What happens to the pipes. -/
def pipeActs (mem : List UInt8) (s : MultiTransfer) : MultiLabel → List (Nat × Pipe.Act UInt8)
  | .client (.thread k (.send rc)) =>
    match s.client.listener.session? k with
    | some session =>
      [(k, .write (slice mem (session.data + session.totalBytes).toNat rc.toNat))]
    | none => []
  | .client .parent =>
    match s.client.parent with
    | .join k => if k < s.client.threads.length then [(k, .finish)] else []
    | _ => []
  | .server (.conn j (.recv (.count n))) _ =>
    match s.peers[j]? with
    | some k => [(k, .read n)]
    | none => []
  | .hangup k => [(k, .finish)]
  | .disturb k xs => [(k, .disturb xs)]
  | _ => []

def clientAfter (k : SKind) (c : MClient SendConn) : MultiLabel → Option (MClient SendConn)
  | .client l => (multiClient k).step c l
  | _ => some c

def serverAfter (k : SKind) (r : MServer) : MultiLabel → Option MServer
  | .server l _ => (mServer k).step r l
  | _ => some r

/-- A step of the client, the server or the network. -/
def step (k : SKind) (cap : Nat) (mem : List UInt8) (s : MultiTransfer) (l : MultiLabel) :
    Option MultiTransfer :=
  if s.allowed l then
    (clientAfter k s.client l).bind fun client =>
      (serverAfter k s.server l).bind fun server =>
        (run (family (Pipe.step cap)) s.pipes (s.pipeActs mem l)).map fun pipes =>
          ⟨client, server, s.waitingAfter l, s.peersAfter k l, pipes⟩
  else none

def init (k : SKind) (l₀ l₁ : Listener) : MultiTransfer :=
  ⟨(multiClient k).init l₀, MServerProg.init l₁, [], [], fun _ => Pipe.empty⟩

variable {k : SKind} {cap : Nat} {mem : List UInt8} {l₀ l₁ : Listener} {s t : MultiTransfer}
  {l : MultiLabel}

theorem step_eq_some_iff : step k cap mem s l = some t ↔
    s.allowed l = true ∧ clientAfter k s.client l = some t.client ∧
      serverAfter k s.server l = some t.server ∧ t.waiting = s.waitingAfter l ∧
      t.peers = s.peersAfter k l ∧
      run (family (Pipe.step cap)) s.pipes (s.pipeActs mem l) = some t.pipes := by
  obtain ⟨client, server, waiting, peers, pipes⟩ := t
  simp only [step, Option.ite_none_right_eq_some, Option.bind_eq_some_iff, Option.map_eq_some_iff,
    MultiTransfer.mk.injEq]
  constructor
  · rintro ⟨hallowed, _, hclient, _, hserver, _, hpipes, rfl, rfl, rfl, rfl, rfl⟩
    exact ⟨hallowed, hclient, hserver, rfl, rfl, hpipes⟩
  · rintro ⟨hallowed, hclient, hserver, rfl, rfl, hpipes⟩
    exact ⟨hallowed, client, hclient, server, hserver, pipes, hpipes, rfl, rfl, rfl, rfl, rfl⟩

/-! ## The parts of a run -/

/-- The network loses and reorders nothing. -/
def Undisturbed (_ : MultiTransfer) : MultiLabel → Prop
  | .disturb _ _ => False
  | _ => True

theorem pipeActs_undisturbed (mem : List UInt8) (hl : Undisturbed s l) :
    ∀ a ∈ s.pipeActs mem l, ∀ p, Pipe.Undisturbed p a.2 := by
  intro a ha p
  unfold pipeActs at ha
  split at ha
  case h_5 => exact hl.elim
  case h_6 => exact absurd ha List.not_mem_nil
  case h_1 | h_3 =>
    split at ha
    · rw [List.mem_singleton.mp ha]
      trivial
    · exact absurd ha List.not_mem_nil
  case h_2 =>
    split at ha
    · split at ha
      · rw [List.mem_singleton.mp ha]
        trivial
      · exact absurd ha List.not_mem_nil
    · exact absurd ha List.not_mem_nil
  case h_4 =>
    rw [List.mem_singleton.mp ha]
    trivial

/-- **A run of the transfer is a run of its client, of its server, and of each of its pipes.** -/
theorem run_parts {ls : List MultiLabel}
    (h : run (step k cap mem) (init k l₀ l₁) ls = some s) :
    (∃ ms, run (multiClient k).step ((multiClient k).init l₀) ms = some s.client) ∧
      (∃ ms, run (mServer k).step (MServerProg.init l₁) ms = some s.server) ∧
      ∀ i, ∃ as, run (Pipe.step cap) Pipe.empty as = some (s.pipes i) ∧
        (Meets (step k cap mem) Undisturbed (init k l₀ l₁) ls →
          Meets (Pipe.step cap) Pipe.Undisturbed Pipe.empty as) := by
  refine ⟨?_, ?_, fun i => ?_⟩
  · refine run_invariant (I := fun s =>
      ∃ ms, run (multiClient k).step ((multiClient k).init l₀) ms = some s.client)
      ⟨[], rfl⟩ ?_ h
    intro s l t ⟨ms, hms⟩ ht
    obtain ⟨-, hclient, -⟩ := step_eq_some_iff.mp ht
    cases l with
    | client l => exact ⟨ms ++ [l], run_concat_eq_some.mpr ⟨s.client, hms, hclient⟩⟩
    | server | hangup | disturb => exact ⟨ms, hms.trans hclient⟩
  · refine run_invariant (I := fun s =>
      ∃ ms, run (mServer k).step (MServerProg.init l₁) ms = some s.server)
      ⟨[], rfl⟩ ?_ h
    intro s l t ⟨ms, hms⟩ ht
    obtain ⟨-, -, hserver, -⟩ := step_eq_some_iff.mp ht
    cases l with
    | server l i => exact ⟨ms ++ [l], run_concat_eq_some.mpr ⟨s.server, hms, hserver⟩⟩
    | client | hangup | disturb => exact ⟨ms, hms.trans hserver⟩
  · refine run_induction (P := fun ls s => ∃ as,
      run (Pipe.step cap) Pipe.empty as = some (s.pipes i) ∧
        (Meets (step k cap mem) Undisturbed (init k l₀ l₁) ls →
          Meets (Pipe.step cap) Pipe.Undisturbed Pipe.empty as))
      ⟨[], rfl, fun _ => meets_nil _ _⟩ ?_ h
    intro ls s l t hr ⟨as, has, hmeets⟩ ht
    obtain ⟨-, -, -, -, -, hpipes⟩ := step_eq_some_iff.mp ht
    have hone := run_family hpipes i
    refine ⟨as ++ ofCopy i (s.pipeActs mem l),
      run_append_eq_some.mpr ⟨s.pipes i, has, hone⟩, fun hG => ?_⟩
    refine meets_append_iff.mpr ⟨hmeets hG.of_append, fun p _ => meets_of_forall fun a ha q => ?_⟩
    exact pipeActs_undisturbed mem (hG.last hr) _ (mem_ofCopy.mp ha) q

end MultiTransfer

/-! ## What a step does to the totals and the threads -/

/-- The totals of the sessions, in list order. -/
def Listener.totals (l : Listener) : List Int := l.sessionList.sessions.map (·.totalBytes)

theorem Listener.totals_setSession (l : Listener) (j : Nat) (session : Session) :
    (l.setSession j session).totals = l.totals.set j session.totalBytes := List.map_set

theorem Listener.totals_getElem? {l : Listener} {j : Nat} {session : Session}
    (h : l.session? j = some session) : l.totals[j]? = some session.totalBytes := by
  rw [Listener.totals, List.getElem?_map]
  exact congrArg (Option.map Session.totalBytes) h

/-- A session written back with the total it had. -/
theorem Listener.totals_setSession_of_eq {l : Listener} {j : Nat} {session session' : Session}
    (h : l.session? j = some session) (heq : session'.totalBytes = session.totalBytes) :
    (l.setSession j session').totals = l.totals := by
  obtain ⟨hj, hval⟩ := List.getElem?_eq_some_iff.mp (totals_getElem? h)
  rw [totals_setSession, heq, ← hval, List.set_getElem_self]

theorem Listener.totals_tick (q : Nat → StatsQuery) (l : Listener) :
    (tbSetMStats q l).totals = l.totals := by
  apply List.ext_getElem?
  intro j
  have h := tbSetMStats_session? q l j
  simp only [Listener.session?] at h
  rw [totals, totals, List.getElem?_map, List.getElem?_map, h, Option.map_map]
  congr 1
  funext session
  exact mStatsSession_totalBytes (q j) session

/-- The steps of the main thread, accepting apart, and of the monitor. -/
def SLabel.byMain : SLabel → Bool
  | .accept _ _ | .conn _ _ => false
  | _ => true

namespace MServerProg

variable {p : MServerProg} {s t : MServer}

theorem connStep_moves {j : Nat} {act : ServeAct} (h : p.connStep s j act = some t) :
    ∃ session pc r, s.listener.session? j = some session ∧ s.conns[j]? = some pc ∧
      ServeMoves p s.listener session pc act r ∧
      t = { s with listener := r.1.setSession j r.2.1, conns := s.conns.set j r.2.2 } := by
  unfold connStep at h
  split at h
  · next session pc hsession hpc =>
    obtain ⟨r, hr, rfl⟩ := Option.map_eq_some_iff.mp h
    exact ⟨session, pc, r, hsession, hpc, serveStep_moves hr, rfl⟩
  · cases h

theorem mainStep_frame {l : SLabel} (hl : l.byMain = true) (h : p.step s l = some t) :
    t.conns = s.conns ∧ t.listener.totals = s.listener.totals ∧
      (t.listener.totalTxRx = s.listener.totalTxRx ∨
        t.listener.totalTxRx = s.listener.totals.sum) := by
  cases l with
  | accept | conn => cases hl
  | setup ok =>
    simp only [step, setupStep] at h
    split at h
    · split at h <;> cases h <;> exact ⟨rfl, rfl, .inl rfl⟩
    · cases h
  | test =>
    simp only [step, testStep] at h
    split at h <;> cases h
    exact ⟨rfl, rfl, .inl rfl⟩
  | poll event =>
    simp only [step, pollStep] at h
    split at h <;> cases h
    exact ⟨rfl, rfl, .inl rfl⟩
  | close =>
    simp only [step, closeStep] at h
    split at h <;> cases h
    exact ⟨rfl, rfl, .inl rfl⟩
  | tick q =>
    cases h
    exact ⟨rfl, Listener.totals_tick q _, .inr (tbSetMStats_totalTxRx q _)⟩

/-- The threads and totals that an accepted connection adds to. -/
theorem acceptStep_moves {sockD : Int} {optionOk : Bool} (h : p.acceptStep s sockD optionOk = some t) :
    t.listener.totalTxRx = s.listener.totalTxRx ∧
      ((sockD = -1 ∨ p.checksOption = true ∧ optionOk = false) ∧ t.conns = s.conns ∧
          t.listener.totals = s.listener.totals ∨
        ¬ (sockD = -1 ∨ p.checksOption = true ∧ optionOk = false) ∧
          t.conns = s.conns ++ [.created] ∧ t.listener.totals = s.listener.totals ++ [0]) := by
  unfold acceptStep at h
  split at h
  · split at h
    · next hsock =>
      cases h
      exact ⟨rfl, .inl ⟨.inl hsock, rfl, rfl⟩⟩
    · next hsock =>
      split at h <;> cases h
      · next hopt => exact ⟨rfl, .inl ⟨.inr hopt, rfl, rfl⟩⟩
      · next hopt =>
        refine ⟨?_, .inr ⟨not_or.mpr ⟨hsock, hopt⟩, rfl, ?_⟩⟩
        · unfold addConn
          dsimp only
          split <;> rfl
        · unfold addConn Listener.totals
          dsimp only
          split <;> simp [tbSessionAdd, tbSessionAddTo, tbCreateSession]
  · cases h

end MServerProg

/-! ## Safety -/

theorem SendConn.accepted_concat {mem : List UInt8} {c d : SendConn} {call : SendCall}
    (h : d.calls = c.calls ++ [call]) :
    d.accepted mem = c.accepted mem ++ slice mem call.off.toNat call.rc.toNat := by
  simp [SendConn.accepted, h, SendCall.piece]

theorem SendConn.accepted_congr {mem : List UInt8} {c d : SendConn} (h : d.calls = c.calls) :
    d.accepted mem = c.accepted mem := by rw [accepted, h, accepted]

theorem multiClient_sends (k : SKind) : Sends (multiClient k) := by
  cases k
  · exact tbStreamMClient_sends
  · exact tbUdtMClient_sends

theorem multiClient_regular (k : SKind) : (multiClient k).Regular := by
  cases k
  · exact mClient_regular .stream
  · exact mClient_regular .udt

namespace MultiTransfer

/-- What holds in every state of a transfer. -/
structure Inv (mem : List UInt8) (s : MultiTransfer) : Prop where
  sent : ∀ k c, s.client.threads[k]? = some c → (s.pipes k).sent = c.accepted mem
  unborn : ∀ k, s.client.threads.length ≤ k → (s.pipes k).sent = []
  nodup : (s.waiting ++ s.peers).Nodup
  connected : ∀ k ∈ s.waiting ++ s.peers,
    ∃ c, s.client.threads[k]? = some c ∧ c.pc ≠ .connecting
  unheard : ∀ k, k ∉ s.peers → (s.pipes k).got = []
  totals : s.server.listener.totals = s.peers.map fun k => ((s.pipes k).got.length : Int)
  conns : s.server.conns.length = s.peers.length
  published : s.server.listener.totalTxRx ≤ s.server.listener.totals.sum

variable {k : SKind} {cap : Nat} {mem : List UInt8} {l₀ l₁ : Listener} {s t : MultiTransfer}

/-- What the client's steps and the network's leave of the server's side. -/
structure SameServer (s t : MultiTransfer) : Prop where
  server : t.server = s.server
  peers : t.peers = s.peers
  got : ∀ k, (t.pipes k).got = (s.pipes k).got

theorem Inv.of_sameServer (h : Inv mem s) (hsame : SameServer s t)
    (hsent : ∀ k c, t.client.threads[k]? = some c → (t.pipes k).sent = c.accepted mem)
    (hunborn : ∀ k, t.client.threads.length ≤ k → (t.pipes k).sent = [])
    (hnodup : (t.waiting ++ t.peers).Nodup)
    (hconnected : ∀ k ∈ t.waiting ++ t.peers,
      ∃ c, t.client.threads[k]? = some c ∧ c.pc ≠ .connecting) : Inv mem t := by
  refine ⟨hsent, hunborn, hnodup, hconnected, ?_, ?_, ?_, ?_⟩
  · intro k hk
    rw [hsame.peers] at hk
    rw [hsame.got, h.unheard k hk]
  · simp only [hsame.server, hsame.peers, hsame.got, h.totals]
  · rw [hsame.server, hsame.peers, h.conns]
  · rw [hsame.server]
    exact h.published

/-- Ending a stream changes nothing about its bytes. -/
theorem run_finish {f g : Nat → Pipe UInt8} {i : Nat}
    (h : run (family (Pipe.step cap)) f [(i, .finish)] = some g) (j : Nat) :
    (g j).sent = (f j).sent ∧ (g j).got = (f j).got := by
  obtain ⟨hstep, hrest⟩ := run_family_single h
  by_cases hj : j = i
  · subst hj
    rw [← Option.some.inj hstep]
    exact ⟨rfl, rfl⟩
  · rw [hrest j hj]
    exact ⟨rfl, rfl⟩

/-- A step that changes neither the threads, nor the backlog, nor the bytes. -/
theorem Inv.of_still (h : Inv mem s) (hserver : t.server = s.server) (hpeers : t.peers = s.peers)
    (hthreads : t.client.threads = s.client.threads) (hwaiting : t.waiting = s.waiting)
    (hpipes : ∀ j, (t.pipes j).sent = (s.pipes j).sent ∧ (t.pipes j).got = (s.pipes j).got) :
    Inv mem t := by
  refine h.of_sameServer ⟨hserver, hpeers, fun j => (hpipes j).2⟩ ?_ ?_ ?_ ?_
  · intro j c hc
    rw [hthreads] at hc
    rw [(hpipes j).1, h.sent j c hc]
  · intro j hj
    rw [hthreads] at hj
    rw [(hpipes j).1, h.unborn j hj]
  · rw [hwaiting, hpeers]
    exact h.nodup
  · rw [hwaiting, hpeers, hthreads]
    exact h.connected

/-- Thread `i` has moved from `c` to `d`. -/
structure ThreadMoves (mem : List UInt8) (i : Nat) (c d : SendConn) (s t : MultiTransfer) : Prop where
  same : SameServer s t
  thread : s.client.threads[i]? = some c
  threads : t.client.threads = s.client.threads.set i d
  sent : (t.pipes i).sent = d.accepted mem
  others : ∀ j, j ≠ i → (t.pipes j).sent = (s.pipes j).sent
  connected : d.pc ≠ .connecting
  waiting : t.waiting = s.waiting ∨ c.pc = .connecting ∧ t.waiting = s.waiting ++ [i]

theorem Inv.of_thread (h : Inv mem s) {i : Nat} {c d : SendConn}
    (hm : ThreadMoves mem i c d s t) : Inv mem t := by
  have hlt : i < s.client.threads.length := (List.getElem?_eq_some_iff.mp hm.thread).1
  have hget (j : Nat) : t.client.threads[j]? = if i = j then some d else s.client.threads[j]? := by
    rw [hm.threads, List.getElem?_set]
    simp [hlt]
  have hconn : ∀ j ∈ s.waiting ++ s.peers,
      ∃ c, t.client.threads[j]? = some c ∧ c.pc ≠ .connecting := by
    intro j hj
    rw [hget]
    by_cases hij : i = j
    · exact ⟨d, if_pos hij, hm.connected⟩
    · rw [if_neg hij]
      exact h.connected j hj
  refine h.of_sameServer hm.same ?_ ?_ ?_ ?_
  · intro j e he
    rw [hget] at he
    by_cases hij : i = j
    · subst hij
      rw [if_pos rfl] at he
      cases he
      exact hm.sent
    · rw [if_neg hij] at he
      rw [hm.others j (Ne.symm hij), h.sent j e he]
  · intro j hj
    rw [hm.threads, List.length_set] at hj
    rw [hm.others j (by omega), h.unborn j hj]
  · rw [hm.same.peers]
    rcases hm.waiting with hw | ⟨hpc, hw⟩ <;> rw [hw]
    · exact h.nodup
    · -- a connection is made once
      have hnew : i ∉ s.waiting ++ s.peers := by
        intro hmem
        obtain ⟨c', hc', hpc'⟩ := h.connected i hmem
        rw [hm.thread] at hc'
        cases hc'
        exact hpc' hpc
      have hperm : (s.waiting ++ [i] ++ s.peers).Perm (i :: (s.waiting ++ s.peers)) := by
        rw [List.append_assoc]
        exact List.perm_middle
      exact hperm.nodup_iff.mpr (List.nodup_cons.mpr ⟨hnew, h.nodup⟩)
  · rw [hm.same.peers]
    rcases hm.waiting with hw | ⟨-, hw⟩ <;> rw [hw]
    · exact hconn
    · intro j hj
      simp only [List.mem_append, List.mem_singleton] at hj
      rcases hj with (hj | rfl) | hj
      · exact hconn j (List.mem_append_left _ hj)
      · exact ⟨d, by rw [hget, if_pos rfl], hm.connected⟩
      · exact hconn j (List.mem_append_right _ hj)

/-- A step of a thread of the client. -/
theorem Inv.thread_step (h : Inv mem s) {i : Nat} {io : ThreadIo}
    (ht : step k cap mem s (.client (.thread i io)) = some t) : Inv mem t := by
  obtain ⟨-, hclient, hserver, hwaiting, hpeers, hpipes⟩ := step_eq_some_iff.mp ht
  replace hserver : t.server = s.server := (Option.some.inj hserver).symm
  obtain ⟨err, -, hthread⟩ := multiClient_sends k
  obtain ⟨session, c, r, hm⟩ := MClientProg.threadStep_moved hclient
  have hstep := hm.step
  rw [hthread] at hstep
  have hthreads : t.client.threads = s.client.threads.set i r.2 := by rw [hm.eq]
  have hsent := h.sent i c hm.thread_eq
  -- a step that sends nothing
  have still (hpipes : t.pipes = s.pipes) (hcalls : r.2.calls = c.calls)
      (hpc : r.2.pc ≠ .connecting)
      (hw : t.waiting = s.waiting ∨ c.pc = .connecting ∧ t.waiting = s.waiting ++ [i]) :
      Inv mem t :=
    h.of_thread ⟨⟨hserver, hpeers, fun _ => by rw [hpipes]⟩, hm.thread_eq, hthreads,
      by rw [hpipes, hsent, SendConn.accepted_congr hcalls], fun _ _ => by rw [hpipes], hpc, hw⟩
  -- a call of `send`
  have calls {rc : Int} (hio : io = .send rc)
      (hcalls : ∃ len, r.2.calls = c.calls ++ [⟨session.data + session.totalBytes, len, rc⟩])
      (hpc : r.2.pc ≠ .connecting) : Inv mem t := by
    subst hio
    obtain ⟨len, hcalls⟩ := hcalls
    simp only [pipeActs, hm.session_eq] at hpipes
    obtain ⟨hwrite, hrest⟩ := run_family_single hpipes
    obtain ⟨-, hpipe⟩ := Pipe.write_eq_some hwrite
    refine h.of_thread ⟨⟨hserver, hpeers, fun j => ?_⟩, hm.thread_eq, hthreads, ?_,
      fun j hj => by rw [hrest j hj], hpc, .inl hwaiting⟩
    · by_cases hj : j = i
      · rw [hj, hpipe]
      · rw [hrest j hj]
    · rw [hpipe, SendConn.accepted_concat hcalls, hsent]
  cases sendConnStep_cases hstep with
  | connectFails hpc =>
    exact still (Option.some.inj hpipes).symm rfl (by rintro ⟨⟩) (.inl hwaiting)
  | connects hpc hrc =>
    refine still (Option.some.inj hpipes).symm rfl (by rintro ⟨⟩) (.inr ⟨hpc, ?_⟩)
    rw [hwaiting]
    exact if_neg hrc
  | sendFails hpc hleft => exact calls rfl ⟨_, rfl⟩ (by rintro ⟨⟩)
  | sends hpc hleft herr hrc => exact calls rfl ⟨_, rfl⟩ (by dsimp only; rw [hpc]; rintro ⟨⟩)
  | finishes hpc hleft => exact still (Option.some.inj hpipes).symm rfl (by rintro ⟨⟩) (.inl hwaiting)

/-- The parent closes connections and does nothing else to the pipes. -/
theorem parent_pipes {l : MLabel ThreadIo} (hl : l.byParent = true)
    (h : run (family (Pipe.step cap)) s.pipes (s.pipeActs mem (.client l)) = some t.pipes)
    (j : Nat) : (t.pipes j).sent = (s.pipes j).sent ∧ (t.pipes j).got = (s.pipes j).got := by
  have still (h : run (family (Pipe.step cap)) s.pipes [] = some t.pipes) :
      (t.pipes j).sent = (s.pipes j).sent ∧ (t.pipes j).got = (s.pipes j).got := by
    rw [← Option.some.inj h]
    exact ⟨rfl, rfl⟩
  cases l with
  | parent =>
    simp only [pipeActs] at h
    split at h
    · split at h
      · exact run_finish h j
      · exact still h
    · exact still h
  | thread i io => cases hl
  | tick q => cases hl
  | setup | create | eot => exact still h

/-- A step of the client. -/
theorem Inv.client_step (h : Inv mem s) {l : MLabel ThreadIo}
    (ht : step k cap mem s (.client l) = some t) : Inv mem t := by
  obtain ⟨-, hclient, hserver, hwaiting, hpeers, hpipes⟩ := step_eq_some_iff.mp ht
  replace hserver : t.server = s.server := (Option.some.inj hserver).symm
  rcases MClientProg.step_cases (multiClient_regular k) hclient with ⟨hby, hq⟩ |
    ⟨x, resolved, sockD, rfl, ha⟩ | ⟨i, io, session, c, r, rfl, hm⟩ | ⟨q, rfl, heq⟩
  · refine h.of_still hserver hpeers hq.threads ?_ (parent_pipes hby hpipes)
    cases l with
    | thread i io => cases hby
    | _ => exact hwaiting
  · obtain ⟨err, -, hthread⟩ := multiClient_sends k
    have hpipes := parent_pipes rfl hpipes
    have hget (j : Nat) (c : SendConn) (hc : s.client.threads[j]? = some c) :
        t.client.threads[j]? = some c := by
      rw [ha.threads, List.getElem?_append_left (List.getElem?_eq_some_iff.mp hc).1, hc]
    refine h.of_sameServer ⟨hserver, hpeers, fun j => (hpipes j).2⟩ ?_ ?_ ?_ ?_
    · intro j c hc
      rw [ha.threads, getElem?_concat_eq_some] at hc
      rcases hc with hc | ⟨rfl, rfl⟩
      · rw [(hpipes j).1, h.sent j c hc]
      · rw [(hpipes _).1, h.unborn _ (Nat.le_refl _), hthread]
        rfl
    · intro j hj
      rw [ha.threads, List.length_append] at hj
      rw [(hpipes j).1, h.unborn j (by omega)]
    · rw [hwaiting, hpeers]
      exact h.nodup
    · rw [hwaiting, hpeers]
      intro j hj
      obtain ⟨c, hc, hpc⟩ := h.connected j hj
      exact ⟨c, hget j c hc, hpc⟩
  · exact h.thread_step ht
  · refine h.of_still hserver hpeers (by rw [heq]) hwaiting fun j => ?_
    rw [← Option.some.inj hpipes]
    exact ⟨rfl, rfl⟩

/-! ### The server -/

/-- What the server's steps leave of the client's side. -/
structure SameClient (s t : MultiTransfer) : Prop where
  client : t.client = s.client
  sent : ∀ k, (t.pipes k).sent = (s.pipes k).sent

theorem Inv.of_sameClient (h : Inv mem s) (hsame : SameClient s t)
    (hperm : (t.waiting ++ t.peers).Subperm (s.waiting ++ s.peers))
    (hunheard : ∀ k, k ∉ t.peers → (t.pipes k).got = [])
    (htotals : t.server.listener.totals = t.peers.map fun k => ((t.pipes k).got.length : Int))
    (hconns : t.server.conns.length = t.peers.length)
    (hpublished : t.server.listener.totalTxRx ≤ t.server.listener.totals.sum) : Inv mem t := by
  refine ⟨?_, ?_, ?_, ?_, hunheard, htotals, hconns, hpublished⟩
  · rw [hsame.client]
    intro j c hc
    rw [hsame.sent, h.sent j c hc]
  · rw [hsame.client]
    intro j hj
    rw [hsame.sent, h.unborn j hj]
  · obtain ⟨js, hjs, hsub⟩ := hperm
    exact hjs.nodup_iff.mp (hsub.nodup h.nodup)
  · rw [hsame.client]
    exact fun j hj => h.connected j (hperm.subset hj)

/-- A step of the server that neither accepts nor receives. -/
theorem Inv.of_unheard (h : Inv mem s) (hclient : t.client = s.client) (hpipes : t.pipes = s.pipes)
    (hpeers : t.peers = s.peers) (hwaiting : t.waiting.Sublist s.waiting)
    (htotals : t.server.listener.totals = s.server.listener.totals)
    (hconns : t.server.conns.length = s.server.conns.length)
    (hpublished : t.server.listener.totalTxRx = s.server.listener.totalTxRx ∨
      t.server.listener.totalTxRx = s.server.listener.totals.sum) : Inv mem t := by
  refine h.of_sameClient ⟨hclient, fun _ => by rw [hpipes]⟩ ?_ ?_ ?_ ?_ ?_
  · rw [hpeers]
    exact (hwaiting.append_right s.peers).subperm
  · rw [hpeers, hpipes]
    exact h.unheard
  · rw [hpeers, hpipes, htotals, h.totals]
  · rw [hpeers, hconns, h.conns]
  · rw [htotals]
    rcases hpublished with hp | hp <;> rw [hp]
    exact h.published

/-- The server accepts a connection. -/
theorem Inv.accept_step (h : Inv mem s) {sockD : Int} {optionOk : Bool} {i : Nat}
    (ht : step k cap mem s (.server (.accept sockD optionOk) i) = some t) : Inv mem t := by
  obtain ⟨hallowed, hclient, hserver, hwaiting, hpeers, hpipes⟩ := step_eq_some_iff.mp ht
  replace hclient : t.client = s.client := (Option.some.inj hclient).symm
  replace hpipes : t.pipes = s.pipes := (Option.some.inj hpipes).symm
  obtain ⟨hpublished, ⟨hfails, hconns, htotals⟩ | ⟨hworks, hconns, htotals⟩⟩ :=
    MServerProg.acceptStep_moves hserver
  · refine h.of_unheard hclient hpipes (hpeers.trans (if_pos hfails)) ?_ htotals (by rw [hconns])
      (.inl hpublished)
    rw [hwaiting]
    dsimp only [waitingAfter]
    split
    · exact List.Sublist.refl _
    · exact List.eraseIdx_sublist _ _
  · have hsock : sockD ≠ -1 := fun hsock => hworks (.inl hsock)
    have hi : i < s.waiting.length := by simpa [allowed, hsock] using hallowed
    have hw : s.waiting[i]? = some s.waiting[i] := List.getElem?_eq_getElem hi
    have hnew : s.waiting[i] ∉ s.peers :=
      (List.disjoint_of_nodup_append h.nodup) (List.getElem_mem hi)
    replace hpeers : t.peers = s.peers ++ [s.waiting[i]] := by
      rw [hpeers, peersAfter, if_neg hworks, hw]
      rfl
    replace hwaiting : t.waiting = s.waiting.eraseIdx i := hwaiting.trans (if_neg hsock)
    refine h.of_sameClient ⟨hclient, fun _ => by rw [hpipes]⟩ ?_ ?_ ?_ ?_ ?_
    · rw [hwaiting, hpeers]
      have hperm := List.getElem_cons_eraseIdx_perm hi
      refine List.Perm.subperm ?_
      rw [← List.append_assoc]
      exact (List.perm_append_singleton _ _).trans (hperm.append_right s.peers)
    · intro j hj
      rw [hpeers, List.mem_append, not_or] at hj
      rw [hpipes, h.unheard j hj.1]
    · rw [htotals, hpeers, hpipes, List.map_append, h.totals, List.map_singleton,
        h.unheard _ hnew]
      rfl
    · rw [hconns, hpeers, List.length_append, List.length_append, h.conns]
      rfl
    · rw [hpublished, htotals, List.sum_append]
      simpa using h.published

/-- A session thread of the server receives `n` bytes from its peer. -/
theorem Inv.recv_step (h : Inv mem s) {j n i : Nat} {session : Session} {pc : ServePc}
    (hsession : s.server.listener.session? j = some session)
    (ht : step k cap mem s (.server (.conn j (.recv (.count n))) i) = some t)
    (hserver : t.server = { s.server with
      listener := s.server.listener.setSession j
        { session with totalBytes := session.totalBytes + n }
      conns := s.server.conns.set j pc }) : Inv mem t := by
  obtain ⟨-, hclient, -, hwaiting, hpeers, hpipes⟩ := step_eq_some_iff.mp ht
  replace hclient : t.client = s.client := (Option.some.inj hclient).symm
  replace hpeers : t.peers = s.peers := hpeers
  have hval := Listener.totals_getElem? hsession
  have hlt : j < s.peers.length := by
    have hlt := (List.getElem?_eq_some_iff.mp hval).1
    rw [h.totals, List.length_map] at hlt
    exact hlt
  have hpeer : s.peers[j]? = some s.peers[j] := List.getElem?_eq_getElem hlt
  simp only [pipeActs, hpeer] at hpipes
  obtain ⟨hread, hrest⟩ := run_family_single hpipes
  obtain ⟨hn, hpipe⟩ := Pipe.read_eq_some hread
  have hgot : (t.pipes s.peers[j]).got.length = (s.pipes s.peers[j]).got.length + n := by
    rw [hpipe, List.length_append, List.length_take, Nat.min_eq_left hn]
  have htotal : session.totalBytes = ((s.pipes s.peers[j]).got.length : Int) := by
    rw [h.totals, List.getElem?_map, hpeer] at hval
    exact (Option.some.inj hval).symm
  have htotals : t.server.listener.totals =
      s.server.listener.totals.set j (session.totalBytes + n) := by
    rw [hserver]
    exact Listener.totals_setSession _ _ _
  have hother (i : Nat) (hi : i ≠ s.peers[j]) : t.pipes i = s.pipes i := hrest i hi
  refine h.of_sameClient ⟨hclient, fun i => ?_⟩ ?_ ?_ ?_ ?_ ?_
  · by_cases hi : i = s.peers[j]
    · rw [hi, hpipe]
    · rw [hother i hi]
  · rw [hpeers, hwaiting]
    exact List.Subperm.refl _
  · intro i hi
    rw [hpeers] at hi
    rw [hother i fun heq => hi (heq ▸ List.getElem_mem hlt), h.unheard i hi]
  · rw [htotals, hpeers, h.totals]
    apply List.ext_getElem?
    intro x
    rw [List.getElem?_set, List.length_map, List.getElem?_map, List.getElem?_map]
    by_cases hx : j = x
    · subst hx
      rw [if_pos rfl, if_pos hlt, hpeer, htotal, Option.map_some, hgot]
      rfl
    · rw [if_neg hx]
      cases hpx : s.peers[x]? with
      | none => rfl
      | some y =>
        have hne : y ≠ s.peers[j] := by
          rintro rfl
          have hpeers := (List.nodup_append.mp h.nodup).2.1
          exact hx ((List.getElem?_inj hlt hpeers).mp (hpeer.trans hpx.symm))
        rw [Option.map_some, Option.map_some, hother y hne]
  · rw [hserver, hpeers]
    dsimp only
    rw [List.length_set, h.conns]
  · have hsum : s.server.listener.totals.sum ≤ t.server.listener.totals.sum := by
      obtain ⟨hj, hval⟩ := List.getElem?_eq_some_iff.mp hval
      rw [htotals, List.sum_set', dif_pos hj, hval]
      omega
    have hpublished := h.published
    rw [hserver] at hsum ⊢
    exact hpublished.trans hsum

/-- A step of the server. -/
theorem Inv.server_step (h : Inv mem s) {l : SLabel} {i : Nat}
    (ht : step k cap mem s (.server l i) = some t) : Inv mem t := by
  obtain ⟨-, hclient, hserver, hwaiting, hpeers, hpipes⟩ := step_eq_some_iff.mp ht
  replace hclient : t.client = s.client := (Option.some.inj hclient).symm
  have hstep : (mServer k).step s.server l = some t.server := hserver
  cases l with
  | accept sockD optionOk => exact h.accept_step ht
  | conn j act =>
    obtain ⟨session, pc, r, hsession, -, hmoves, hserver⟩ := MServerProg.connStep_moves hserver
    -- a step that receives nothing
    have still (hpipes : t.pipes = s.pipes) (hwaiting : t.waiting = s.waiting)
        (hpeers : t.peers = s.peers)
        (hsessions : r.1.sessionList.sessions = s.server.listener.sessionList.sessions)
        (hpublished : r.1.totalTxRx = s.server.listener.totalTxRx)
        (hbytes : r.2.1.totalBytes = session.totalBytes) : Inv mem t := by
      have hsession' : r.1.session? j = some session := by
        rw [Listener.session?, hsessions]
        exact hsession
      refine h.of_unheard hclient hpipes hpeers (hwaiting ▸ List.Sublist.refl _) ?_ ?_ ?_ <;>
        rw [hserver]
      · refine (Listener.totals_setSession_of_eq hsession' hbytes).trans ?_
        rw [Listener.totals, hsessions, Listener.totals]
      · exact List.length_set
      · exact .inl hpublished
    cases hmoves with
    | starts | ends | fails | countsOut | leaves =>
      exact still (Option.some.inj hpipes).symm hwaiting hpeers rfl rfl rfl
    | receives hn => exact h.recv_step hsession ht hserver
  | setup | test | poll | close | tick =>
    obtain ⟨hconns, htotals, hpublished⟩ := MServerProg.mainStep_frame rfl hstep
    exact h.of_unheard hclient (Option.some.inj hpipes).symm hpeers (hwaiting ▸ List.Sublist.refl _)
      htotals (by rw [hconns]) hpublished

/-- **Step.** -/
theorem inv_step {l : MultiLabel} (h : Inv mem s) (ht : step k cap mem s l = some t) :
    Inv mem t := by
  cases l with
  | client l => exact h.client_step ht
  | server l i => exact h.server_step ht
  | hangup i =>
    obtain ⟨-, hclient, hserver, hwaiting, hpeers, hpipes⟩ := step_eq_some_iff.mp ht
    replace hclient : t.client = s.client := (Option.some.inj hclient).symm
    exact h.of_still (Option.some.inj hserver).symm hpeers (by rw [hclient]) hwaiting
      (run_finish hpipes)
  | disturb i xs =>
    obtain ⟨-, hclient, hserver, hwaiting, hpeers, hpipes⟩ := step_eq_some_iff.mp ht
    replace hclient : t.client = s.client := (Option.some.inj hclient).symm
    obtain ⟨hdisturb, hrest⟩ := run_family_single hpipes
    obtain ⟨-, hpipe⟩ := Pipe.disturb_eq_some hdisturb
    refine h.of_still (Option.some.inj hserver).symm hpeers (by rw [hclient]) hwaiting fun j => ?_
    by_cases hj : j = i
    · rw [hj, hpipe]
      exact ⟨rfl, rfl⟩
    · rw [hrest j hj]
      exact ⟨rfl, rfl⟩

theorem inv_init (h₀ : l₁.sessionList.sessions = []) (h₁ : l₁.totalTxRx = 0) :
    Inv mem (init k l₀ l₁) := by
  have htotals : l₁.totals = [] := by rw [Listener.totals, h₀, List.map_nil]
  refine ⟨nofun, fun _ _ => rfl, List.nodup_nil, nofun, fun _ _ => rfl, htotals, rfl, ?_⟩
  have hinit : (init k l₀ l₁).server.listener = l₁ := rfl
  rw [hinit, htotals, h₁]
  rfl

theorem inv_run (h₀ : l₁.sessionList.sessions = []) (h₁ : l₁.totalTxRx = 0)
    {ls : List MultiLabel} (h : run (step k cap mem) (init k l₀ l₁) ls = some s) : Inv mem s :=
  run_invariant (inv_init h₀ h₁) (fun _ _ _ hs ht => inv_step hs ht) h

end MultiTransfer

end TestBed
