import TestBed.ClientSend
import TestBed.Receivers
import TestBed.Lib.Pipe

/-!
# One transfer over a connection

`tb_stream_client` and `tb_stream_server`, or `tb_udt_client` and `tb_udt_server`, with the connection
between them: a backlog of one and a pipe of bounded room. What a `send` accepts goes into the pipe, a
`recv` takes any number of the bytes that are there, and an end of the stream is only reported once the
client's socket is closed or shut down and the pipe is empty. An error can be reported at any time.

What the server has counted is never more than what the client has (`transfer_safe`), whatever is lost
or reordered on the way. If nothing is, a server that ends its session by itself has the whole file
(`transfer_complete`).
-/

namespace TestBed

open CInt Transition Slice

/-- The client's connection, as the server's kernel sees it. -/
inductive Backlog
  | none | pending | accepted
  deriving DecidableEq, Repr

structure StreamTransfer where
  client : StreamClient
  server : Receiver
  conn : Backlog
  pipe : Pipe UInt8
  deriving DecidableEq, Repr

inductive TransferLabel
  | client (l : CLabel ⊕ ClientEnv)
  | server (l : RLabel)
  /-- The socket of an aborted client is closed. -/
  | hangup
  /-- `sig_action` shuts the client's socket down. It need not: over UDT `sock_d` is no descriptor of
  the connection. -/
  | shutdown
  | disturb (xs : List UInt8)

/-- The server's socket is listening. -/
def ReceiverPc.reachable : ReceiverPc → Bool
  | .listen | .returned => false
  | _ => true

namespace StreamTransfer

/-- What the network can answer. -/
def allowed (s : StreamTransfer) : TransferLabel → Bool
  | .client (.inl (.connect true)) => s.conn = .none && s.server.pc.reachable
  | .server (.accept sockD) => sockD = -1 || s.conn = .pending
  | .server (.recv (.count 0)) => s.pipe.atEnd
  | .hangup => s.client.pc = .aborted
  | .shutdown => s.client.listener.command = .tbExit && s.conn ≠ .none
  | _ => true

def connAfter (s : StreamTransfer) : TransferLabel → Backlog
  | .client (.inl (.connect true)) => .pending
  | .server (.accept sockD) => if sockD = -1 then s.conn else .accepted
  | _ => s.conn

/-- What happens to the pipe. -/
def pipeActs (mem : List UInt8) (s : StreamTransfer) : TransferLabel → List (Pipe.Act UInt8)
  | .client (.inl (.send rc _)) =>
    if rc = -1 then [] else [.write (slice mem s.client.listener.totalTxRx.toNat rc.toNat)]
  | .client (.inl .close) => [.finish]
  | .server (.recv (.count n)) => [.read n]
  | .hangup | .shutdown => [.finish]
  | .disturb xs => [.disturb xs]
  | _ => []

def clientAfter (k : SKind) (c : StreamClient) : TransferLabel → Option StreamClient
  | .client l => clientStep k c l
  | _ => some c

def serverAfter (k : SKind) (r : Receiver) : TransferLabel → Option Receiver
  | .server l => (receiver k).step r l
  | _ => some r

/-- A step of the client, the server or the network. -/
def step (k : SKind) (cap : Nat) (mem : List UInt8) (s : StreamTransfer) (l : TransferLabel) :
    Option StreamTransfer :=
  if s.allowed l then
    (clientAfter k s.client l).bind fun client =>
      (serverAfter k s.server l).bind fun server =>
        (run (Pipe.step cap) s.pipe (s.pipeActs mem l)).map fun pipe =>
          ⟨client, server, s.connAfter l, pipe⟩
  else none

def init (l₀ l₁ : Listener) : StreamTransfer :=
  ⟨StreamClient.init l₀, ReceiverProg.init l₁, .none, Pipe.empty⟩

variable {k : SKind} {cap : Nat} {mem : List UInt8} {s t : StreamTransfer} {l : TransferLabel}

theorem step_eq_some_iff : step k cap mem s l = some t ↔
    s.allowed l = true ∧ clientAfter k s.client l = some t.client ∧
      serverAfter k s.server l = some t.server ∧ t.conn = s.connAfter l ∧
      run (Pipe.step cap) s.pipe (s.pipeActs mem l) = some t.pipe := by
  obtain ⟨client, server, conn, pipe⟩ := t
  simp only [step, Option.ite_none_right_eq_some, Option.bind_eq_some_iff, Option.map_eq_some_iff,
    StreamTransfer.mk.injEq]
  constructor
  · rintro ⟨hallowed, _, hclient, _, hserver, _, hpipe, rfl, rfl, rfl, rfl⟩
    exact ⟨hallowed, hclient, hserver, rfl, hpipe⟩
  · rintro ⟨hallowed, hclient, hserver, rfl, hpipe⟩
    exact ⟨hallowed, client, hclient, server, hserver, pipe, hpipe, rfl, rfl, rfl, rfl⟩

end StreamTransfer

/-! ## What a step of the server can be -/

/-- The steps of a receiving function, with what they do to the totals and the results. -/
inductive ReceiverMoves (p : ReceiverProg) (s : Receiver) : RLabel → Receiver → Prop
  | listens (hpc : s.pc = .listen) : ReceiverMoves p s (.listen true)
      { s with listener := { s.listener with status := .listening }, pc := .test }
  | listenFails (hpc : s.pc = .listen) : ReceiverMoves p s (.listen false)
      { s with listener := tbAbort s.listener, pc := .aborted }
  | leaves (hpc : s.pc = .test) (hcmd : s.listener.command.eLoop = true) : ReceiverMoves p s .test
      { s with listener := { s.listener with sockD := -1 }, pc := .returned }
  | acceptFails (hpc : s.pc = .test) (l : Listener) (htotal : l.totalTxRx = s.listener.totalTxRx)
      (hcmd : l.command = s.listener.command ∧ l.sTxEnd = s.listener.sTxEnd) :
      ReceiverMoves p s (.accept (-1)) { s with listener := tbAbort l, pc := .aborted }
  | accepts {sockD : Int} (hpc : s.pc = .test) (hcmd : s.listener.command.eLoop = false)
      (hsock : sockD ≠ -1) : ReceiverMoves p s (.accept sockD)
      { listener := { s.listener with
          transferTime := tbStartTime s.listener.transferTime
          status := .connected }
        session := { tbCreateServerSession with
          sockD := sockD
          dataSize := asSizeT s.listener.bufsize }
        pc := if p.testsFirst then .looping else .receiving
        before := s.listener.totalTxRx
        results := [] }
  | receives {n : Nat} (hpc : s.pc = .receiving) (hn : (n : Int) ≤ s.session.dataSize) :
      ReceiverMoves p s (.recv (.count n))
        (ReceiverProg.addTrans { s with results := s.results ++ [.count n] } n)
  | recvAborts {code : Int} (hpc : s.pc = .receiving)
      (herr : p.onError s.listener.protId code = .abort) : ReceiverMoves p s (.recv (.error code))
        { s with
          results := s.results ++ [.error code]
          listener := tbAbort s.listener
          pc := .aborted }
  | recvLeaves {code : Int} (hpc : s.pc = .receiving)
      (herr : p.onError s.listener.protId code = .leave) : ReceiverMoves p s (.recv (.error code))
        { s with
          results := s.results ++ [.error code]
          session := { s.session with lastTrans := -1 }
          pc := .closing }
  | recvCounted {code : Int} (hpc : s.pc = .receiving)
      (herr : p.onError s.listener.protId code = .count) : ReceiverMoves p s (.recv (.error code))
        (ReceiverProg.addTrans { s with results := s.results ++ [.error code] } (-1))
  | goesOn (hpc : s.pc = .looping) (hlast : p.goesOn s.session.lastTrans = true)
      (hcmd : s.listener.command.eLoop = false) :
      ReceiverMoves p s .loop { s with pc := .receiving }
  | ends (hpc : s.pc = .looping)
      (hend : p.goesOn s.session.lastTrans = false ∨ s.listener.command.eLoop = true) :
      ReceiverMoves p s .loop { s with pc := .closing }
  | closes (hpc : s.pc = .closing) : ReceiverMoves p s .close
      { s with
        listener := { s.listener with
          transferTime := tbFinishTime s.listener.transferTime
          status := .disconnected
          statLock := false
          command := s.listener.sTxEnd }
        pc := .test }
  | interrupted : ReceiverMoves p s .interrupt
      { s with listener := { s.listener with command := .tbExit } }
  | ticked (q : StatsQuery) : ReceiverMoves p s (.tick q)
      { s with listener := tbSetLStats q s.listener }

theorem receiver_step_moves {p : ReceiverProg} {s t : Receiver} {l : RLabel}
    (h : p.step s l = some t) : ReceiverMoves p s l t := by
  cases l with
  | listen ok =>
    simp only [ReceiverProg.step, ReceiverProg.listenStep] at h
    split at h
    · next hpc =>
      cases ok <;> cases h
      · exact .listenFails hpc
      · exact .listens hpc
    · cases h
  | test =>
    simp only [ReceiverProg.step, ReceiverProg.testStep] at h
    split at h <;> cases h
    next hpc => exact .leaves hpc.1 hpc.2
  | accept sockD =>
    simp only [ReceiverProg.step, ReceiverProg.acceptStep] at h
    split at h
    · next hpc =>
      split at h <;> cases h
      · next hsock =>
        subst hsock
        refine .acceptFails hpc.1 _ ?_ ⟨?_, ?_⟩ <;> split <;> rfl
      · next hsock => exact .accepts hpc.1 hpc.2 hsock
    · cases h
  | recv r =>
    simp only [ReceiverProg.step, ReceiverProg.recvStep] at h
    split at h
    · next hpc =>
      cases r with
      | count n =>
        dsimp only at h
        split at h <;> cases h
        next hn => exact .receives hpc hn
      | error code =>
        dsimp only at h
        split at h <;> cases h
        · next herr => exact .recvAborts hpc herr
        · next herr => exact .recvLeaves hpc herr
        · next herr => exact .recvCounted hpc herr
    · cases h
  | loop =>
    simp only [ReceiverProg.step, ReceiverProg.loopStep] at h
    split at h <;> cases h
    next hpc =>
    split
    · next hon =>
      rw [Bool.and_eq_true, Bool.not_eq_true'] at hon
      exact .goesOn hpc hon.1 hon.2
    · next hon =>
      rw [Bool.and_eq_true, Bool.not_eq_true', not_and_or, Bool.not_eq_true,
        Bool.not_eq_false] at hon
      exact .ends hpc hon
  | close =>
    simp only [ReceiverProg.step, ReceiverProg.closeStep] at h
    split at h <;> cases h
    next hpc => exact .closes hpc
  | interrupt =>
    cases h
    exact .interrupted
  | tick q =>
    cases h
    exact .ticked q

/-! ## What a step of the client can be -/

/-- The steps of a client, with what they do to its place in the function, its total and its
command. -/
inductive ClientMoves (k : SKind) (s t : StreamClient) : CLabel ⊕ ClientEnv → Prop
  | connects {ok : Bool} (hpc : s.pc = .connect) (hpc' : t.pc = if ok then .sending else .aborted)
      (hsz : ok = true → t.sz = s.listener.bufsize)
      (htotal : t.listener.totalTxRx = s.listener.totalTxRx)
      (hcmd : t.listener.command = s.listener.command) : ClientMoves k s t (.inl (.connect ok))
  | sends {rc errNo : Int} (hpc : s.pc = .sending)
      (hless : s.listener.totalTxRx < s.listener.fileSize) (hcall : Called rc s t)
      (hrc : rc ≠ -1 → t.pc = .sending)
      (hcmd : t.listener.command = s.listener.command) : ClientMoves k s t (.inl (.send rc errNo))
  | finishes (hpc : s.pc = .sending) (hpc' : t.pc = .closing)
      (htotal : t.listener.totalTxRx = s.listener.totalTxRx)
      (hcmd : t.listener.command = s.listener.command) : ClientMoves k s t (.inl .finish)
  | closes (hpc : s.pc = .closing) (hpc' : t.pc = .returned)
      (htotal : t.listener.totalTxRx = s.listener.totalTxRx)
      (hcmd : t.listener.command = s.listener.command) : ClientMoves k s t (.inl .close)
  | interrupted (hpc : t.pc = s.pc) (hsz : t.sz = s.sz)
      (htotal : t.listener.totalTxRx = s.listener.totalTxRx)
      (hcmd : t.listener.command = .tbExit) : ClientMoves k s t (.inr .interrupt)
  | ticked {q : StatsQuery} (hpc : t.pc = s.pc) (hsz : t.sz = s.sz)
      (htotal : t.listener.totalTxRx = s.listener.totalTxRx)
      (hcmd : t.listener.command = s.listener.command) : ClientMoves k s t (.inr (.tick q))

section ClientMoves

variable {k : SKind} {l₀ : Listener} {s t : StreamClient}

theorem connect_moves {ok : Bool} (h : s.step (.connect ok) = some t) :
    ClientMoves k s t (.inl (.connect ok)) := by
  simp only [StreamClient.step] at h
  split at h
  · next hpc =>
    cases ok <;> cases h
    · exact .connects hpc rfl (by rintro ⟨⟩) rfl rfl
    · exact .connects hpc rfl (fun _ => rfl) rfl rfl
  · cases h

theorem close_moves (h : s.step .close = some t) : ClientMoves k s t (.inl .close) := by
  simp only [StreamClient.step] at h
  split at h <;> cases h
  next hpc => exact .closes hpc rfl rfl rfl

theorem finish_moves (h : singleClient k s .finish = some t) :
    ClientMoves k s t (.inl .finish) := by
  cases k <;> simp only [singleClient, StreamClient.step, UdtClient.step] at h <;>
    split at h <;> cases h
  · next hpc => exact .finishes hpc.1 rfl rfl rfl
  · next hpc => exact .finishes hpc.1 rfl rfl rfl

theorem send_less {rc errNo : Int} (h : singleClient k s (.send rc errNo) = some t) :
    s.listener.totalTxRx < s.listener.fileSize ∧ (rc ≠ -1 → t.pc = .sending) ∧
      t.listener.command = s.listener.command := by
  cases k with
  | stream =>
    simp only [singleClient, StreamClient.step] at h
    split at h
    · next hpc =>
      refine ⟨hpc.2, ?_⟩
      split at h
      · next hrc =>
        split at h <;> cases h
        · exact ⟨fun hne => absurd hrc hne, rfl⟩
        · exact ⟨fun hne => absurd hrc hne, rfl⟩
      · split at h <;> cases h
        exact ⟨fun _ => hpc.1, rfl⟩
    · cases h
  | udt =>
    simp only [singleClient, UdtClient.step] at h
    split at h
    · next hpc =>
      have hless := hpc.2
      rw [UdtClient.goesOn, Bool.and_eq_true, decide_eq_true_eq] at hless
      refine ⟨hless.1, ?_⟩
      split at h
      · next hrc =>
        cases h
        exact ⟨fun hne => absurd hrc hne, rfl⟩
      · split at h <;> cases h
        exact ⟨fun _ => hpc.1, rfl⟩
    · cases h

theorem clientStep_moves (hl : Sizes l₀) (hinv : ClientInv k l₀ s) {l : CLabel ⊕ ClientEnv}
    (h : clientStep k s l = some t) : ClientMoves k s t l := by
  cases l with
  | inl l =>
    cases l with
    | connect ok => cases k <;> exact connect_moves h
    | finish => exact finish_moves h
    | close => cases k <;> exact close_moves h
    | send rc errNo =>
      obtain ⟨hpc, -, hcall⟩ := hinv.called hl h
      obtain ⟨hless, hrc, hcmd⟩ := send_less h
      exact .sends hpc hless hcall hrc hcmd
  | inr e =>
    cases h
    cases e with
    | interrupt => exact .interrupted rfl rfl rfl rfl
    | tick q => exact .ticked rfl rfl rfl rfl

end ClientMoves

/-! ## The pipe of a run -/

namespace StreamTransfer

variable {k : SKind} {cap : Nat} {mem : List UInt8} {l₀ l₁ : Listener} {s t : StreamTransfer}

/-- The network loses and reorders nothing. -/
def Undisturbed (_ : StreamTransfer) : TransferLabel → Prop
  | .disturb _ => False
  | _ => True

theorem pipeActs_undisturbed (mem : List UInt8) {l : TransferLabel} (hl : Undisturbed s l) :
    ∀ a ∈ s.pipeActs mem l, ∀ p, Pipe.Undisturbed p a := by
  intro a ha p
  unfold pipeActs at ha
  split at ha
  case h_1 =>
    split at ha
    · exact absurd ha List.not_mem_nil
    · rw [List.mem_singleton.mp ha]
      trivial
  case h_6 => exact hl.elim
  case h_7 => exact absurd ha List.not_mem_nil
  all_goals
    rw [List.mem_singleton.mp ha]
    trivial

/-- A failing `send` leaves the pipe alone; what another accepts is written. -/
theorem pipe_of_send {rc errNo : Int} {q : Pipe UInt8}
    (h : run (Pipe.step cap) s.pipe (s.pipeActs mem (.client (.inl (.send rc errNo)))) = some q) :
    rc = -1 ∧ q = s.pipe ∨ rc ≠ -1 ∧
      Pipe.step cap s.pipe (.write (slice mem s.client.listener.totalTxRx.toNat rc.toNat)) =
        some q := by
  by_cases hfail : rc = -1
  · simp only [pipeActs, if_pos hfail] at h
    exact .inl ⟨hfail, (Option.some.inj h).symm⟩
  · simp only [pipeActs, if_neg hfail, run_singleton] at h
    exact .inr ⟨hfail, h⟩

theorem pipe_of_recv {n : Nat} {q : Pipe UInt8}
    (h : run (Pipe.step cap) s.pipe (s.pipeActs mem (.server (.recv (.count n)))) = some q) :
    Pipe.step cap s.pipe (.read n) = some q := by
  rwa [pipeActs, run_singleton] at h

/-- **A run of the transfer is a run of its pipe.** -/
theorem run_pipe {ls : List TransferLabel} (h : run (step k cap mem) (init l₀ l₁) ls = some s) :
    ∃ as, run (Pipe.step cap) Pipe.empty as = some s.pipe ∧
      (Meets (step k cap mem) Undisturbed (init l₀ l₁) ls →
        Meets (Pipe.step cap) Pipe.Undisturbed Pipe.empty as) := by
  refine run_induction (P := fun ls s => ∃ as, run (Pipe.step cap) Pipe.empty as = some s.pipe ∧
    (Meets (step k cap mem) Undisturbed (init l₀ l₁) ls →
      Meets (Pipe.step cap) Pipe.Undisturbed Pipe.empty as))
    ⟨[], rfl, fun _ => meets_nil _ _⟩ ?_ h
  intro ls s l t hr ⟨as, has, hmeets⟩ ht
  obtain ⟨-, -, -, -, hpipe⟩ := step_eq_some_iff.mp ht
  refine ⟨as ++ s.pipeActs mem l, run_append_eq_some.mpr ⟨s.pipe, has, hpipe⟩, fun hG => ?_⟩
  refine meets_append_iff.mpr ⟨hmeets hG.of_append, fun p _ => meets_of_forall fun a ha q => ?_⟩
  exact pipeActs_undisturbed mem (hG.last hr) a ha q

end StreamTransfer

/-! ## Safety -/

/-- The accept has been and the session goes on. -/
def ReceiverPc.serving : ReceiverPc → Bool
  | .receiving | .looping | .closing => true
  | _ => false

namespace StreamTransfer

variable {k : SKind} {cap : Nat} {mem : List UInt8} {l₀ l₁ : Listener} {s t : StreamTransfer}

/-- What holds in every state of a transfer. -/
structure Inv (k : SKind) (mem : List UInt8) (l₀ l₁ : Listener) (s : StreamTransfer) : Prop where
  client : ClientInv k l₀ s.client
  server : Counted (receiver k) l₁.protId s.server
  sent : s.pipe.sent = slice mem 0 s.client.listener.totalTxRx.toNat
  got : received s.server.results = s.pipe.got.length
  ended : s.pipe.ended = true →
    s.client.pc = .returned ∨ s.client.pc = .aborted ∨ s.client.listener.command = .tbExit
  waiting : s.conn ≠ .accepted → s.server.results = [] ∧ s.server.listener.totalTxRx = 0
  serving : s.server.pc.serving = true → s.conn = .accepted
  before : s.server.before = 0
  total_le : s.server.listener.totalTxRx ≤ s.pipe.got.length

/-- What the client's steps and the network's leave of the server's side. -/
structure SameServer (s t : StreamTransfer) : Prop where
  server : t.server = s.server
  conn : t.conn = .accepted ↔ s.conn = .accepted
  got : t.pipe.got = s.pipe.got

theorem Inv.of_sameServer (h : Inv k mem l₀ l₁ s) (hsame : SameServer s t)
    (hclient : ClientInv k l₀ t.client)
    (hsent : t.pipe.sent = slice mem 0 t.client.listener.totalTxRx.toNat)
    (hended : t.pipe.ended = true →
      t.client.pc = .returned ∨ t.client.pc = .aborted ∨ t.client.listener.command = .tbExit) :
    Inv k mem l₀ l₁ t := by
  obtain ⟨hserver, hconn, hgot⟩ := hsame
  refine ⟨hclient, hserver ▸ h.server, hsent, ?_, hended, ?_, ?_, hserver ▸ h.before, ?_⟩
  · rw [hserver, hgot, h.got]
  · rw [hserver, ne_eq, hconn]
    exact h.waiting
  · rw [hserver, hconn]
    exact h.serving
  · rw [hserver, hgot]
    exact h.total_le

/-- Only a shutdown ends the stream of a client that still goes on. -/
theorem Inv.shut (h : Inv k mem l₀ l₁ s) (hgoes : s.client.pc = .connect ∨ s.client.pc = .sending)
    (hend : s.pipe.ended = true) : s.client.listener.command = .tbExit := by
  rcases h.ended hend with hret | habort | hcmd
  · rw [hret] at hgoes
    rcases hgoes with hgoes | hgoes <;> cases hgoes
  · rw [habort] at hgoes
    rcases hgoes with hgoes | hgoes <;> cases hgoes
  · exact hcmd

/-- A step of the client. -/
theorem Inv.client_step (hl : Sizes l₀) (h : Inv k mem l₀ l₁ s)
    {l : CLabel ⊕ ClientEnv} (ht : step k cap mem s (.client l) = some t) :
    Inv k mem l₀ l₁ t := by
  obtain ⟨hallowed, hclient, hserver, hconn, hpipe⟩ := step_eq_some_iff.mp ht
  have hinv : ClientInv k l₀ t.client := clientInv_step hl h.client hclient
  replace hserver : t.server = s.server := (Option.some.inj hserver).symm
  cases clientStep_moves hl h.client hclient with
  | @connects ok hpc hpc' _ htotal hcmd =>
    have hsame : t.conn = .accepted ↔ s.conn = .accepted := by
      cases ok
      · rw [hconn]
        rfl
      · simp only [allowed, Bool.and_eq_true, decide_eq_true_eq] at hallowed
        rw [hconn, hallowed.1]
        simp [connAfter]
    have hpipe : t.pipe = s.pipe := by
      cases ok <;> exact (Option.some.inj hpipe).symm
    refine h.of_sameServer ⟨hserver, hsame, by rw [hpipe]⟩ hinv ?_ ?_
    · rw [hpipe, htotal, h.sent]
    · rw [hpipe]
      exact fun hend => .inr (.inr (hcmd.trans (h.shut (.inl hpc) hend)))
  | @sends rc errNo hpc hless hcall hrc hcmd =>
    have htotal := h.client.total_nonneg
    rcases pipe_of_send hpipe with ⟨rfl, hq⟩ | ⟨-, hwrite⟩
    · refine h.of_sameServer ⟨hserver, by rw [hconn]; rfl, by rw [hq]⟩ hinv ?_ ?_
      · rw [hq, hcall.total, h.sent]
        exact congrArg (fun n => slice mem 0 (Int.toNat n)) (Int.add_zero _).symm
      · rw [hq]
        exact fun hend => .inr (.inr (hcmd.trans (h.shut (.inr hpc) hend)))
    · obtain ⟨⟨hopen, -⟩, hq⟩ := Pipe.write_eq_some hwrite
      refine h.of_sameServer ⟨hserver, by rw [hconn]; rfl, by rw [hq]⟩ hinv ?_ ?_
      · rw [hq, hcall.total, Int.toNat_add htotal (Int.natCast_nonneg _), Int.toNat_natCast,
          ← slice_append, Nat.zero_add, h.sent]
      · rw [hq]
        dsimp only
        rw [hopen]
        rintro ⟨⟩
  | finishes hpc hpc' htotal hcmd =>
    have hpipe : t.pipe = s.pipe := (Option.some.inj hpipe).symm
    refine h.of_sameServer ⟨hserver, by rw [hconn]; rfl, by rw [hpipe]⟩ hinv ?_ fun hend => ?_
    · rw [hpipe, htotal, h.sent]
    · rw [hpipe] at hend
      exact .inr (.inr (hcmd.trans (h.shut (.inr hpc) hend)))
  | closes hpc hpc' htotal =>
    have hpipe : t.pipe = { s.pipe with ended := true } := (Option.some.inj hpipe).symm
    refine h.of_sameServer ⟨hserver, by rw [hconn]; rfl, by rw [hpipe]⟩ hinv ?_
      fun _ => .inl hpc'
    rw [hpipe, htotal, h.sent]
  | interrupted hpc _ htotal hcmd =>
    have hpipe : t.pipe = s.pipe := (Option.some.inj hpipe).symm
    refine h.of_sameServer ⟨hserver, by rw [hconn]; rfl, by rw [hpipe]⟩ hinv ?_
      fun _ => .inr (.inr hcmd)
    rw [hpipe, htotal, h.sent]
  | ticked hpc _ htotal hcmd =>
    have hpipe : t.pipe = s.pipe := (Option.some.inj hpipe).symm
    refine h.of_sameServer ⟨hserver, by rw [hconn]; rfl, by rw [hpipe]⟩ hinv ?_ ?_
    · rw [hpipe, htotal, h.sent]
    · rw [hpipe, hpc, hcmd]
      exact h.ended

/-- What the server's steps leave of the client's side. -/
structure SameClient (s t : StreamTransfer) : Prop where
  client : t.client = s.client
  sent : t.pipe.sent = s.pipe.sent
  ended : t.pipe.ended = s.pipe.ended

/-- The server has neither accepted a connection nor received anything: a failure is all that can be
new. -/
structure Unheard (s t : StreamTransfer) : Prop where
  client : t.client = s.client
  pipe : t.pipe = s.pipe
  conn : t.conn = s.conn
  bytes : received t.server.results = received s.server.results
  results : s.conn ≠ .accepted → t.server.results = s.server.results
  serving : t.server.pc.serving = true → s.server.pc.serving = true
  before : t.server.before = s.server.before
  total : t.server.listener.totalTxRx = s.server.listener.totalTxRx ∨
    s.conn = .accepted ∧ t.server.listener.totalTxRx = s.server.listener.totalTxRx + -1

theorem Inv.of_unheard (h : Inv k mem l₀ l₁ s) (ht : Unheard s t)
    (hcounted : Counted (receiver k) l₁.protId t.server) : Inv k mem l₀ l₁ t := by
  have hle := h.total_le
  constructor
  · rw [ht.client]
    exact h.client
  · exact hcounted
  · rw [ht.pipe, ht.client, h.sent]
  · rw [ht.bytes, ht.pipe, h.got]
  · rw [ht.pipe, ht.client]
    exact h.ended
  · rw [ht.conn]
    intro hne
    rw [ht.results hne, ht.total.resolve_right fun hacc => hne hacc.1]
    exact h.waiting hne
  · rw [ht.conn]
    exact fun hpc => h.serving (ht.serving hpc)
  · rw [ht.before, h.before]
  · rw [ht.pipe]
    rcases ht.total with htotal | ⟨-, htotal⟩ <;> rw [htotal] <;> omega

/-- The connection is accepted, or bytes are received from it. -/
theorem Inv.of_accepted (h : Inv k mem l₀ l₁ s) (ht : SameClient s t) (hacc : t.conn = .accepted)
    (hcounted : Counted (receiver k) l₁.protId t.server)
    (hgot : received t.server.results = t.pipe.got.length) (hbefore : t.server.before = 0)
    (hle : t.server.listener.totalTxRx ≤ t.pipe.got.length) : Inv k mem l₀ l₁ t := by
  refine ⟨?_, hcounted, ?_, hgot, ?_, fun hne => absurd hacc hne, fun _ => hacc, hbefore, hle⟩
  · rw [ht.client]
    exact h.client
  · rw [ht.sent, ht.client, h.sent]
  · rw [ht.ended, ht.client]
    exact h.ended

/-- A step of the server. -/
theorem Inv.server_step (h : Inv k mem l₀ l₁ s) {l : RLabel}
    (ht : step k cap mem s (.server l) = some t) : Inv k mem l₀ l₁ t := by
  obtain ⟨hallowed, hclient, hserver, hconn, hpipe⟩ := step_eq_some_iff.mp ht
  have hcounted : Counted (receiver k) l₁.protId t.server := counted_step h.server hserver
  replace hclient : t.client = s.client := (Option.some.inj hclient).symm
  have hserving (hpc : s.server.pc.serving = true) := h.serving hpc
  generalize hr : t.server = r at hserver
  cases receiver_step_moves hserver with
  | listens hpc | listenFails hpc | leaves hpc | closes hpc =>
    refine h.of_unheard ⟨hclient, (Option.some.inj hpipe).symm, hconn, ?_, ?_, ?_, ?_, ?_⟩ hcounted
      <;> rw [hr]
    · exact fun _ => rfl
    · rintro ⟨⟩
    · exact .inl rfl
  | interrupted | ticked =>
    refine h.of_unheard ⟨hclient, (Option.some.inj hpipe).symm, hconn, ?_, ?_, ?_, ?_, ?_⟩ hcounted
      <;> rw [hr]
    · exact fun _ => rfl
    · exact id
    · exact .inl rfl
  | acceptFails hpc l htotal =>
    refine h.of_unheard ⟨hclient, (Option.some.inj hpipe).symm, hconn, ?_, ?_, ?_, ?_, ?_⟩ hcounted
      <;> rw [hr]
    · exact fun _ => rfl
    · rintro ⟨⟩
    · exact .inl htotal
  | goesOn hpc | ends hpc =>
    refine h.of_unheard ⟨hclient, (Option.some.inj hpipe).symm, hconn, ?_, ?_, ?_, ?_, ?_⟩ hcounted
      <;> rw [hr]
    · exact fun _ => rfl
    · exact fun _ => by rw [hpc]; rfl
    · exact .inl rfl
  | recvAborts hpc | recvLeaves hpc =>
    have hacc := hserving (by rw [hpc]; rfl)
    refine h.of_unheard ⟨hclient, (Option.some.inj hpipe).symm, hconn, ?_,
      fun hne => absurd hacc hne, fun _ => by rw [hpc]; rfl, ?_, ?_⟩ hcounted <;> rw [hr]
    · exact received_concat_error _ _
    · exact .inl rfl
  | recvCounted hpc =>
    have hacc := hserving (by rw [hpc]; rfl)
    refine h.of_unheard ⟨hclient, (Option.some.inj hpipe).symm, hconn, ?_,
      fun hne => absurd hacc hne, fun _ => by rw [hpc]; rfl, ?_, ?_⟩ hcounted <;> rw [hr]
    · exact received_concat_error _ _
    · rfl
    · exact .inr ⟨hacc, rfl⟩
  | @receives n hpc hn =>
    have hle := h.total_le
    obtain ⟨hn', hq⟩ := Pipe.read_eq_some (pipe_of_recv hpipe)
    have hlen : t.pipe.got.length = s.pipe.got.length + n := by
      rw [hq, List.length_append, List.length_take, Nat.min_eq_left hn']
    refine h.of_accepted ⟨hclient, by rw [hq], by rw [hq]⟩
      (hconn.trans (hserving (by rw [hpc]; rfl))) hcounted ?_ ?_ ?_ <;> rw [hr]
    · rw [hlen]
      simp [ReceiverProg.addTrans, h.got]
    · exact h.before
    · rw [hlen]
      simp only [ReceiverProg.addTrans]
      omega
  | @accepts sockD hpc hcmd hsock =>
    have hpending : s.conn = .pending := by
      simpa [allowed, hsock] using hallowed
    have hpipe : t.pipe = s.pipe := (Option.some.inj hpipe).symm
    obtain ⟨hres, htotal⟩ := h.waiting (by rw [hpending]; rintro ⟨⟩)
    have hgot := h.got
    rw [hres, received_nil] at hgot
    refine h.of_accepted ⟨hclient, by rw [hpipe], by rw [hpipe]⟩ ?_ hcounted ?_ ?_ ?_ <;>
      try rw [hr]
    · rw [hconn]
      simp [connAfter, hsock]
    · rw [hpipe, ← hgot]
      rfl
    · exact htotal
    · rw [hpipe, ← hgot]
      exact Int.le_of_eq htotal

/-- **Step.** -/
theorem inv_step (hl : Sizes l₀) {l : TransferLabel} (h : Inv k mem l₀ l₁ s)
    (ht : step k cap mem s l = some t) : Inv k mem l₀ l₁ t := by
  cases l with
  | client l => exact h.client_step hl ht
  | server l => exact h.server_step ht
  | hangup =>
    obtain ⟨hallowed, hclient, hserver, hconn, hpipe⟩ := step_eq_some_iff.mp ht
    replace hclient : t.client = s.client := (Option.some.inj hclient).symm
    replace hpipe : t.pipe = { s.pipe with ended := true } := (Option.some.inj hpipe).symm
    have haborted : s.client.pc = .aborted := by simpa [allowed] using hallowed
    refine h.of_sameServer ⟨(Option.some.inj hserver).symm, by rw [hconn]; rfl, by rw [hpipe]⟩
      (hclient ▸ h.client) ?_ fun _ => .inr (.inl (by rw [hclient, haborted]))
    rw [hpipe, hclient, h.sent]
  | shutdown =>
    obtain ⟨hallowed, hclient, hserver, hconn, hpipe⟩ := step_eq_some_iff.mp ht
    replace hclient : t.client = s.client := (Option.some.inj hclient).symm
    replace hpipe : t.pipe = { s.pipe with ended := true } := (Option.some.inj hpipe).symm
    have hcmd : s.client.listener.command = .tbExit := by
      simp only [allowed, Bool.and_eq_true, decide_eq_true_eq] at hallowed
      exact hallowed.1
    refine h.of_sameServer ⟨(Option.some.inj hserver).symm, by rw [hconn]; rfl, by rw [hpipe]⟩
      (hclient ▸ h.client) ?_ fun _ => .inr (.inr (by rw [hclient, hcmd]))
    rw [hpipe, hclient, h.sent]
  | disturb xs =>
    obtain ⟨-, hclient, hserver, hconn, hpipe⟩ := step_eq_some_iff.mp ht
    replace hclient : t.client = s.client := (Option.some.inj hclient).symm
    obtain ⟨q, hdisturb, hq⟩ := Option.bind_eq_some_iff.mp hpipe
    obtain rfl := Option.some.inj hq
    obtain ⟨-, hq⟩ := Pipe.disturb_eq_some hdisturb
    refine h.of_sameServer ⟨(Option.some.inj hserver).symm, by rw [hconn]; rfl, by rw [hq]⟩
      (hclient ▸ h.client) ?_ ?_
    · rw [hq, hclient, h.sent]
    · rw [hq, hclient]
      exact h.ended

theorem inv_init (hl : Sizes l₀) (h₀ : l₀.totalTxRx = 0) (h₁ : l₁.totalTxRx = 0) :
    Inv k mem l₀ l₁ (init l₀ l₁) := by
  refine ⟨ClientInv.init hl h₀, ⟨rfl, fun _ => rfl, fun _ => ?_⟩, ?_, rfl, nofun,
    fun _ => ⟨rfl, h₁⟩, nofun, h₁, Int.le_of_eq h₁⟩
  · simp [init, ReceiverProg.init]
  · simp [init, StreamClient.init, h₀, Pipe.empty]

theorem inv_run (hl : Sizes l₀) (h₀ : l₀.totalTxRx = 0) (h₁ : l₁.totalTxRx = 0)
    {ls : List TransferLabel} (h : run (step k cap mem) (init l₀ l₁) ls = some s) :
    Inv k mem l₀ l₁ s :=
  run_invariant (inv_init hl h₀ h₁) (fun _ _ _ hs ht => inv_step hl hs ht) h

/-- Without loss and reordering, what was received and what is in flight are the file up to the
client's total, in order. -/
theorem Inv.intact (h : Inv k mem l₀ l₁ s) {ls : List TransferLabel}
    (hrun : run (step k cap mem) (init l₀ l₁) ls = some s)
    (hG : Meets (step k cap mem) Undisturbed (init l₀ l₁) ls) :
    s.pipe.got ++ s.pipe.inFlight = slice mem 0 s.client.listener.totalTxRx.toNat := by
  obtain ⟨as, has, hmeets⟩ := run_pipe hrun
  rw [← h.sent]
  exact Pipe.run_intact has (hmeets hG)

/-- **The server never counts more than the client.** In every state of every run, with a network that
loses, reorders and fails as it likes, the server's total is at most the client's and that at most the
size of the file; the bytes received and in flight are bytes the client has sent, each at most once. A
network that loses and reorders nothing has them in the file's order. -/
theorem transfer_safe (k : SKind) (cap : Nat) (mem : List UInt8) (l₀ l₁ : Listener)
    (hl : Sizes l₀) (h₀ : l₀.totalTxRx = 0) (h₁ : l₁.totalTxRx = 0) (ls : List TransferLabel)
    (s : StreamTransfer) (h : run (step k cap mem) (init l₀ l₁) ls = some s) :
    s.server.listener.totalTxRx ≤ s.client.listener.totalTxRx ∧
      s.client.listener.totalTxRx ≤ l₀.fileSize ∧
      (s.pipe.got ++ s.pipe.inFlight).Subperm
        (slice mem 0 s.client.listener.totalTxRx.toNat) ∧
      (Meets (step k cap mem) Undisturbed (init l₀ l₁) ls →
        s.pipe.got ++ s.pipe.inFlight = slice mem 0 s.client.listener.totalTxRx.toNat) := by
  have hinv := inv_run hl h₀ h₁ h
  obtain ⟨as, has, -⟩ := run_pipe h
  have hsub := Pipe.run_subperm has
  rw [hinv.sent] at hsub
  refine ⟨?_, hinv.client.total_le, hsub, hinv.intact h⟩
  have htotal := hinv.client.total_nonneg
  have hle := hinv.total_le
  have hlen := hsub.length_le
  have hslice : (slice mem 0 s.client.listener.totalTxRx.toNat).length ≤
      s.client.listener.totalTxRx.toNat := List.length_take_le _ _
  rw [List.length_append] at hlen
  omega

/-- A byte is lost, a receive that fails with `EAGAIN` is counted as -1, and the client's socket is shut
down by an interrupt: its next `send` fails with `EPIPE`. -/
def lossyLabels : List TransferLabel :=
  [.server (.listen true), .client (.inl (.connect true)), .server (.accept 5),
    .client (.inl (.send 4 0)), .disturb [1, 3, 4], .server (.recv (.error eagain)),
    .server .loop, .server (.recv (.count 2)), .client (.inr .interrupt), .shutdown,
    .client (.inl (.send (-1) 32))]

/-- Four of six bytes over DCCP. -/
theorem transfer_safe_dccp :
    let l₀ := { tbCreateListener .client .dccp 4 with fileSize := 6 }
    ∃ s, run (step .stream 8 [1, 2, 3, 4, 5, 6])
        (init l₀ (tbCreateListener .server .dccp 4)) lossyLabels = some s ∧
      s.server.listener.totalTxRx = 1 ∧ s.client.listener.totalTxRx = 4 ∧
      s.server.listener.totalTxRx ≤ s.client.listener.totalTxRx :=
  ⟨_, rfl, rfl, rfl, (transfer_safe .stream 8 [1, 2, 3, 4, 5, 6]
    { tbCreateListener .client .dccp 4 with fileSize := 6 } (tbCreateListener .server .dccp 4)
    ⟨by decide, by decide, by decide, by decide⟩ rfl rfl lossyLabels _ rfl).1⟩

end StreamTransfer

end TestBed
