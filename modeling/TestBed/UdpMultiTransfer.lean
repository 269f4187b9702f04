import TestBed.ClientSockets
import TestBed.UdpAgree
import TestBed.UdpMServer
import TestBed.Lib.Family
import TestBed.Lib.Mailbox

/-!
# A UDP transfer over several sessions

`tb_udp_m_client`, `tb_udp_m_server` and the datagrams between them. The session threads of the client
send through sockets of their own, the parent ends the transfer through the listener's socket: it
repeats the empty message until `tb_udp_ack` is called. The network may hold, reorder and lose the
datagrams of either direction; it neither alters nor repeats them.

A turn of the loop of `tb_udp_m_close_conn` is two steps here, the message and the poll, so that the
server can answer in between. SIGINT can reach either side at any time; at the client it only sets the
command, which the loop tests at its next turn.
-/

namespace TestBed

open CInt Transition Demux

structure UdpMultiTransfer where
  client : MClient UdpConn
  /-- The parent has sent the empty message and polls. -/
  polling : Bool
  server : UdpMServer
  toServer : Mailbox (List UInt8)
  /-- The acknowledgements. -/
  toClient : Mailbox (List UInt8)

inductive UdpMultiLabel
  | client (l : MLabel ThreadIo)
  | eotSend (r : EotSend)
  | eotPoll (i : Option Nat)
  /-- SIGINT at the client. -/
  | interrupt
  | server (l : UdpMLabel)
  | deliver (i : Nat)
  | loseToServer (i : Nat)
  | loseToClient (i : Nat)

/-- `sig_action` at a client with several sessions, whose sockets it leaves alone. -/
def MClient.interrupted {τ : Type} (c : MClient τ) : MClient τ :=
  { c with listener := { c.listener with command := .tbExit } }

/-- The message that thread `k` of the client sends next. -/
def MClient.nextMsg? (c : MClient UdpConn) (k : Nat) : Option UdpMsg :=
  match c.listener.session? k, c.threads[k]? with
  | some session, some d => some (udpNextMsg session d)
  | _, _ => none

/-- The messages that a step of the client sends from its sessions' sockets. -/
def MClient.sends (c : MClient UdpConn) : MLabel ThreadIo → List UdpMsg
  | .thread k (.send rc) => if rc = -1 then [] else (c.nextMsg? k).toList
  | .thread k .finish => ((c.threads[k]?).map (·.msg)).toList
  | _ => []

namespace UdpMultiTransfer

/-- `sendmsg` takes a message whole. -/
def allowed (s : UdpMultiTransfer) : UdpMultiLabel → Bool
  | .client (.eot _ _) => false
  | .client .parent | .eotSend _ => !s.polling
  | .client (.thread k (.send rc)) =>
    rc = -1 || (s.client.nextMsg? k).all fun m => rc = asInt m.size
  | .eotPoll _ => s.polling
  | .server (.recv (some (.datagram _))) => false
  | _ => true

/-- A poll that SIGINT has found in flight ends and changes nothing. -/
def clientStep (s : UdpMultiTransfer) : UdpMultiLabel → Option (MClient UdpConn)
  | .client l => tbUdpMClient.step s.client l
  | .eotSend r => tbUdpMClient.step s.client (.eot r false)
  | .eotPoll i =>
    if s.client.listener.command = .tbExit then some s.client
    else tbUdpMClient.step s.client (.eot .sent i.isSome)
  | .interrupt => some s.client.interrupted
  | _ => some s.client

def pollingAfter (s : UdpMultiTransfer) : UdpMultiLabel → Bool
  | .eotSend r => r ≠ .error
  | .eotPoll _ => false
  | _ => s.polling

def serverActs (s : UdpMultiTransfer) : UdpMultiLabel → List UdpMLabel
  | .server l => [l]
  | .deliver i => ((s.toServer.inFlight[i]?).map fun d => .recv (some (.datagram d))).toList
  | _ => []

def toServerActs (mem : List UInt8) (s : UdpMultiTransfer) :
    UdpMultiLabel → List (Mailbox.Act (List UInt8))
  | .client l => ((s.client.sends l).map (·.wire mem)).map .send
  | .eotSend .sent => [.send []]
  | .deliver i => [.deliver i]
  | .loseToServer i => [.lose i]
  | _ => []

def toClientActs : UdpMultiLabel → List (Mailbox.Act (List UInt8))
  | .server .ack => [.send []]
  | .eotPoll (some i) => [.deliver i]
  | .loseToClient i => [.lose i]
  | _ => []

/-- A step of the client, the server or the network. -/
def step (mem : List UInt8) (s : UdpMultiTransfer) (l : UdpMultiLabel) : Option UdpMultiTransfer :=
  if s.allowed l then
    (s.clientStep l).bind fun client =>
      (run UdpMServer.step s.server (s.serverActs l)).bind fun server =>
        (run Mailbox.step s.toServer (s.toServerActs mem l)).bind fun toServer =>
          (run Mailbox.step s.toClient (toClientActs l)).map fun toClient =>
            ⟨client, s.pollingAfter l, server, toServer, toClient⟩
  else none

def init (l₀ l₁ : Listener) : UdpMultiTransfer :=
  ⟨tbUdpMClient.init l₀, false, UdpMServer.init l₁, Mailbox.empty, Mailbox.empty⟩

variable {mem : List UInt8} {l₀ l₁ : Listener} {s t : UdpMultiTransfer} {l : UdpMultiLabel}

theorem step_eq_some_iff : step mem s l = some t ↔
    s.allowed l = true ∧ s.clientStep l = some t.client ∧
      t.polling = s.pollingAfter l ∧ run UdpMServer.step s.server (s.serverActs l) = some t.server ∧
      run Mailbox.step s.toServer (s.toServerActs mem l) = some t.toServer ∧
      run Mailbox.step s.toClient (toClientActs l) = some t.toClient := by
  obtain ⟨client, polling, server, toServer, toClient⟩ := t
  simp only [step, Option.ite_none_right_eq_some, Option.bind_eq_some_iff, Option.map_eq_some_iff,
    UdpMultiTransfer.mk.injEq]
  constructor
  · rintro ⟨hallowed, _, hclient, _, hserver, _, hto, _, hback, rfl, rfl, rfl, rfl, rfl⟩
    exact ⟨hallowed, hclient, rfl, hserver, hto, hback⟩
  · rintro ⟨hallowed, hclient, rfl, hserver, hto, hback⟩
    exact ⟨hallowed, client, hclient, server, hserver, toServer, hto, toClient, hback, rfl, rfl, rfl,
      rfl, rfl⟩

/-! ## The parts of a run -/

/-- Data is lost on the way to the server. -/
def losesData (s : UdpMultiTransfer) : UdpMultiLabel → Bool
  | .loseToServer i => (s.toServer.inFlight[i]?).any (!·.isEmpty)
  | _ => false

def LosesNoData (s : UdpMultiTransfer) (l : UdpMultiLabel) : Prop := s.losesData l = false

theorem lose_mem_toServerActs {i : Nat} (h : .lose i ∈ s.toServerActs mem l) :
    l = .loseToServer i := by
  unfold toServerActs at h
  split at h
  case h_4 => rw [Mailbox.Act.lose.inj (List.mem_singleton.mp h)]
  all_goals simp at h

theorem toServerActs_keeps (mem : List UInt8) (hl : LosesNoData s l) :
    Meets Mailbox.step (Mailbox.Keeps fun d => !d.isEmpty) s.toServer (s.toServerActs mem l) := by
  cases l with
  | loseToServer i =>
    refine meets_cons_iff.mpr ⟨fun d hd => ?_, fun _ _ => meets_nil _ _⟩
    simpa [LosesNoData, losesData, hd] using hl
  | client | eotSend | eotPoll | interrupt | server | deliver | loseToClient =>
    refine meets_of_forall fun a ha m => ?_
    cases a with
    | send | deliver => trivial
    | lose i => cases lose_mem_toServerActs ha

/-- **The network of a run** is two networks, one for either direction. -/
theorem run_parts {ls : List UdpMultiLabel} (h : run (step mem) (init l₀ l₁) ls = some s) :
    (∃ as, run Mailbox.step Mailbox.empty as = some s.toServer ∧
      (Meets (step mem) LosesNoData (init l₀ l₁) ls →
        Meets Mailbox.step (Mailbox.Keeps fun d => !d.isEmpty) Mailbox.empty as)) ∧
      ∃ as, run Mailbox.step Mailbox.empty as = some s.toClient := by
  refine run_induction (P := fun ls s =>
    (∃ as, run Mailbox.step Mailbox.empty as = some s.toServer ∧
      (Meets (step mem) LosesNoData (init l₀ l₁) ls →
        Meets Mailbox.step (Mailbox.Keeps fun d => !d.isEmpty) Mailbox.empty as)) ∧
      ∃ as, run Mailbox.step Mailbox.empty as = some s.toClient)
    ⟨⟨[], rfl, fun _ => meets_nil _ _⟩, ⟨[], rfl⟩⟩ ?_ h
  rintro ls s l t hr ⟨⟨as, has, hmeets⟩, ⟨bs, hbs⟩⟩ ht
  obtain ⟨-, -, -, -, hto, hback⟩ := step_eq_some_iff.mp ht
  refine ⟨⟨_, run_append_eq_some.mpr ⟨_, has, hto⟩, fun hG => ?_⟩,
    ⟨_, run_append_eq_some.mpr ⟨_, hbs, hback⟩⟩⟩
  refine meets_append_iff.mpr ⟨hmeets hG.of_append, fun m hm => ?_⟩
  obtain rfl : s.toServer = m := Option.some.inj (has.symm.trans hm)
  exact toServerActs_keeps mem (hG.last hr)

/-- What the client does in a step: it moves, it is interrupted, or nothing. -/
theorem clientStep_cases {c : MClient UdpConn} (h : s.clientStep l = some c) :
    c = s.client ∨ c = s.client.interrupted ∨ ∃ ml, tbUdpMClient.step s.client ml = some c := by
  cases l with
  | client l => exact .inr (.inr ⟨l, h⟩)
  | eotSend r => exact .inr (.inr ⟨.eot r false, h⟩)
  | eotPoll i =>
    simp only [clientStep] at h
    split at h
    · exact .inl (Option.some.inj h).symm
    · exact .inr (.inr ⟨_, h⟩)
  | interrupt => exact .inr (.inl (Option.some.inj h).symm)
  | server | deliver | loseToServer | loseToClient => exact .inl (Option.some.inj h).symm

/-- What the client's steps keep and an interrupt does not touch holds in every run. -/
theorem run_client {I : MClient UdpConn → Prop} (hinit : I (tbUdpMClient.init l₀))
    (hstep : ∀ c ml c', I c → tbUdpMClient.step c ml = some c' → I c')
    (hinterrupted : ∀ c : MClient UdpConn, I c → I c.interrupted) {ls : List UdpMultiLabel}
    (h : run (step mem) (init l₀ l₁) ls = some s) : I s.client := by
  refine run_invariant (I := fun s => I s.client) hinit ?_ h
  intro s l t hs ht
  obtain ⟨-, hclient, -⟩ := step_eq_some_iff.mp ht
  rcases clientStep_cases hclient with heq | heq | ⟨ml, hml⟩
  · rw [heq]
    exact hs
  · rw [heq]
    exact hinterrupted _ hs
  · exact hstep _ ml _ hs hml

end UdpMultiTransfer

/-! ## The joined threads -/

namespace MClientProg

variable {τ ι : Type} {p : MClientProg τ ι} {s t : MClient τ}

/-- A thread that has returned takes no more steps. -/
def Final (p : MClientProg τ ι) : Prop :=
  ∀ session c io r, p.thread.step session c io = some r → p.thread.retval c = none

theorem tbUdpMClient_final : Final tbUdpMClient := by
  intro session c io r hr
  cases udpConnStep_cases hr with
  | connectFails hpc | connects hpc | sendFails hpc | sends hpc | finishes hpc =>
    show c.pc.retval = none
    rw [hpc]
    rfl

/-- The parent never takes a join back. -/
theorem joined_step (hp : p.Regular) {l : MLabel ι} (h : p.step s l = some t) {k : Nat}
    (hk : s.parent.joined k = true) : t.parent.joined k = true := by
  cases l with
  | setup ok =>
    rw [(setupStep_cases h).1] at hk
    cases hk
  | create resolved sockD =>
    rcases createStep_cases hp h with ⟨x, hx, -⟩ | ⟨x, hx, -⟩
    · rw [hx.parent] at hk
      cases hk
    · rw [hx] at hk
      cases hk
  | parent =>
    cases parentStep_moves h with
    | waits => exact hk
    | starts hpc | connects hpc =>
      rw [hpc] at hk
      cases hk
    | joins hpc =>
      rw [hpc] at hk
      exact ClientSockets.joined_join.mpr (.inr hk)
    | leaves | closes => rfl
  | eot r ack =>
    obtain ⟨ops, hpc, -, ⟨-, rfl⟩ | ⟨-, -, rfl⟩ | ⟨-, -, rfl⟩⟩ := eotStep_cases h
    · rfl
    · exact hk
    · exact hk
  | thread k io =>
    obtain ⟨session, c, r, hm⟩ := threadStep_moved h
    rw [hm.eq]
    exact hk
  | tick q =>
    cases h
    exact hk

/-- Every thread that the parent has joined has returned. -/
def JoinedReturned (p : MClientProg τ ι) (s : MClient τ) : Prop :=
  ∀ k c, s.parent.joined k = true → s.threads[k]? = some c → (p.thread.retval c).isSome = true

theorem JoinedReturned.step (hp : p.Regular) (hfinal : p.Final) (h : p.JoinedReturned s)
    {l : MLabel ι} (ht : p.step s l = some t) : p.JoinedReturned t := by
  intro k c hk hc
  cases l with
  | setup ok =>
    obtain ⟨-, rfl⟩ := setupStep_cases ht
    cases ok <;> cases hk
  | create resolved sockD =>
    rcases createStep_cases hp ht with ⟨x, hx, -⟩ | ⟨x, hx, -, rfl⟩
    · rw [hx.parent'] at hk
      split at hk <;> cases hk
    · cases hk
  | parent =>
    cases parentStep_moves ht with
    | waits => exact h k c hk hc
    | starts | connects => simp [ParentPc.joined] at hk
    | @joins j d hpc hd hret =>
      rcases ClientSockets.joined_join.mp hk with rfl | hk
      · obtain rfl := Option.some.inj (hd.symm.trans hc)
        exact hret
      · exact h k c (by rw [hpc]; exact hk) hc
    | @leaves j hpc hnone =>
      -- the joins have come to the end of the list
      refine h k c ?_ hc
      have hlt := (List.getElem?_eq_some_iff.mp hc).1
      have hend := List.getElem?_eq_none_iff.mp hnone
      rw [hpc]
      exact decide_eq_true (Nat.lt_of_lt_of_le hlt hend)
    | closes hpc => exact h k c (by rw [hpc]; rfl) hc
  | eot r ack =>
    obtain ⟨ops, hpc, -, ⟨-, rfl⟩ | ⟨-, -, rfl⟩ | ⟨-, -, rfl⟩⟩ := eotStep_cases ht
    · exact h k c (by rw [hpc]; rfl) hc
    · exact h k c hk hc
    · exact h k c hk hc
  | thread j io =>
    obtain ⟨session, d, r, hm⟩ := threadStep_moved ht
    rw [hm.eq] at hk hc
    dsimp only at hk hc
    rw [List.getElem?_set'] at hc
    split at hc
    · next hjk =>
      subst hjk
      have hret := h j d hk hm.thread_eq
      rw [hfinal _ _ _ _ hm.step] at hret
      cases hret
    · exact h k c hk hc
  | tick q =>
    cases ht
    exact h k c hk hc

/-- SIGINT leaves the connections and the parent's place alone. -/
theorem quiet_interrupted (s : MClient τ) : Quiet s s.interrupted := ⟨rfl, rfl, rfl, ⟨rfl, rfl, rfl⟩⟩

theorem Shape.interrupted {l₀ : Listener} (h : Shape p l₀ s) : Shape p l₀ s.interrupted :=
  h.of_contents ⟨rfl, rfl, rfl⟩ rfl rfl rfl

theorem joinedReturned_init (l₀ : Listener) : p.JoinedReturned (p.init l₀) := by
  intro k c _ hc
  exact absurd hc (by simp [MClientProg.init])

end MClientProg

/-! ## What the sessions send -/

/-- The sizes that make every datagram of the sessions carry data. -/
structure UdpSizes (l₀ : Listener) : Prop where
  four_le : 4 ≤ l₀.fileSize
  fileSize_lt : l₀.fileSize < 2 ^ 31
  bufsize_pos : 1 ≤ l₀.bufsize
  bufsize_lt : l₀.bufsize < 2 ^ 31

theorem UdpSizes.quarter {l₀ : Listener} (h : UdpSizes l₀) :
    1 ≤ l₀.fileSize.tdiv 4 ∧ l₀.fileSize.tdiv 4 < 2 ^ 31 := by
  have h1 := h.four_le
  have h2 := h.fileSize_lt
  rw [Int.tdiv_eq_ediv_of_nonneg (by omega)]
  omega

/-- A session with the slice size `q` and the packet size `b`, and what it has sent. -/
structure UdpConnInv (q b : Int) (k : Nat) (s : Session) (c : UdpConn) : Prop where
  id : s.id = k
  dataSize : s.dataSize = q
  packSize : s.packSize = b
  labelled : ∀ m ∈ c.messages, Labelled s m
  total : s.totalBytes = (c.sentMsgs.map UdpMsg.size).sum
  unsent : c.pc = .connecting → c.sentMsgs = []
  sending : c.pc = .sending → s.totalBytes < s.dataSize
  ending : c.pc = .ending → c.msg ∈ c.sentMsgs
  unfinished : c.pc ≠ .returned 0 → c.exitMsg = []
  finished : c.pc = .returned 0 → c.exitMsg.length = 1

namespace UdpConnInv

variable {q b : Int} {k : Nat} {s : Session} {c : UdpConn}

theorem size_pos (h : UdpConnInv q b k s c) {m : UdpMsg} (hm : m ∈ c.messages) : 9 ≤ m.size := by
  have := (h.labelled m hm).len_pos
  unfold UdpMsg.size headerLen
  omega

theorem total_nonneg (h : UdpConnInv q b k s c) : 0 ≤ s.totalBytes := by
  rw [h.total]
  refine List.sum_nonneg fun x hx => ?_
  obtain ⟨m, hm, rfl⟩ := List.mem_map.mp hx
  have := h.size_pos (List.mem_append_left _ hm)
  omega

/-- The next message carries data, and its header says how much. -/
theorem nextMsg (h : UdpConnInv q b k s c) (hq : q < 2 ^ 31) (hb : 1 ≤ b ∧ b < 2 ^ 31)
    (hpc : c.pc = .sending) : Labelled s (udpNextMsg s c) := by
  have hlt := h.sending hpc
  have hnonneg := h.total_nonneg
  have hdata := h.dataSize
  have hpack := h.packSize
  have hleft : asSizeT (s.dataSize - s.totalBytes) = s.dataSize - s.totalBytes :=
    asSizeT_eq (by omega) (by omega)
  have hsize : asSizeT s.packSize = s.packSize := asSizeT_eq (by omega) (by omega)
  have hlen : 1 ≤ (udpNextMsg s c).len ∧ (udpNextMsg s c).len ≤ s.packSize := by
    simp only [udpNextMsg, hleft, hsize]
    split <;> omega
  refine ⟨rfl, ?_, hlen.1, hlen.2⟩
  exact asInt_eq (by omega) (by omega)

theorem labelled_congr {s t : Session} {m : UdpMsg} (h : Labelled s m) (hid : t.id = s.id)
    (hpack : t.packSize = s.packSize) : Labelled t m :=
  ⟨h.id.trans hid.symm, h.sz, h.len_pos, by rw [hpack]; exact h.len_le⟩

/-- The messages of one step of a thread. -/
def sentBy (s : Session) (c : UdpConn) : ThreadIo → List UdpMsg
  | .send rc => if rc = -1 then [] else [udpNextMsg s c]
  | .finish => [c.msg]
  | .connect _ => []

/-- **A step of a session thread** sends what `sentBy` says and keeps its account. -/
theorem step (h : UdpConnInv q b k s c) (hq : 1 ≤ q ∧ q < 2 ^ 31) (hb : 1 ≤ b ∧ b < 2 ^ 31)
    {io : ThreadIo} {r : Session × UdpConn} (hvalid : io.valid = true)
    (hwhole : ∀ rc, io = .send rc → rc = -1 ∨ rc = asInt (udpNextMsg s c).size)
    (hr : udpConnStep s c io = some r) :
    UdpConnInv q b k r.1 r.2 ∧ r.2.messages = c.messages ++ sentBy s c io := by
  have hdata := h.dataSize
  cases udpConnStep_cases hr with
  | connectFails hpc hrc =>
    refine ⟨⟨h.id, hdata, h.packSize, h.labelled, h.total, by rintro ⟨⟩, by rintro ⟨⟩, by rintro ⟨⟩,
      fun _ => h.unfinished (by rw [hpc]; rintro ⟨⟩), by rintro ⟨⟩⟩, by simp [sentBy, UdpConn.messages]⟩
  | connects hpc hrc =>
    have hnone := h.unsent hpc
    refine ⟨⟨h.id, hdata, h.packSize, fun m hm => labelled_congr (h.labelled m hm) rfl rfl, h.total,
      by rintro ⟨⟩, fun _ => ?_, by rintro ⟨⟩, fun _ => h.unfinished (by rw [hpc]; rintro ⟨⟩),
      by rintro ⟨⟩⟩, by simp [sentBy, UdpConn.messages]⟩
    have htotal := h.total
    rw [hnone] at htotal
    dsimp only
    rw [htotal, hdata]
    exact hq.1
  | sendFails hpc =>
    refine ⟨⟨h.id, hdata, h.packSize, h.labelled, h.total, by rintro ⟨⟩, by rintro ⟨⟩, by rintro ⟨⟩,
      fun _ => h.unfinished (by rw [hpc]; rintro ⟨⟩), by rintro ⟨⟩⟩, by simp [sentBy, UdpConn.messages]⟩
  | @sends rc hpc hrc hrc' =>
    have hm := h.nextMsg hq.2 hb hpc
    have hexit : c.exitMsg = [] := h.unfinished (by rw [hpc]; rintro ⟨⟩)
    have hlt := h.sending hpc
    have hnonneg := h.total_nonneg
    have hpack := h.packSize
    have hlen := hm.len_le
    have hpos := hm.len_pos
    -- the count is the size of the message, which is not so large as to wrap
    have hsize : rc = (udpNextMsg s c).size := by
      have hrc := (hwhole rc rfl).resolve_left hrc
      have hrange : -1 ≤ rc := of_decide_eq_true hvalid
      unfold UdpMsg.size headerLen at hrc ⊢
      by_cases hwrap : 8 + (udpNextMsg s c).len < 2 ^ 31
      · rw [hrc, asInt_eq (by omega) hwrap]
      · rw [asInt_wrap (by omega) (by omega)] at hrc
        omega
    have hsize' : (udpNextMsg s c).size = 8 + (udpNextMsg s c).len := rfl
    have hmsgs (pc : ConnPc) (sent : Int) : UdpConn.messages { c with
        pc := pc, sent := sent, msg := udpNextMsg s c,
        sentMsgs := c.sentMsgs ++ [udpNextMsg s c] } = c.messages ++ [udpNextMsg s c] := by
      simp [UdpConn.messages, hexit]
    refine ⟨⟨h.id, hdata, hpack, fun m hmem => ?_, ?_, ?_, ?_, ?_, fun _ => hexit, ?_⟩, ?_⟩
    · rw [hmsgs, List.mem_append, List.mem_singleton] at hmem
      rcases hmem with hmem | rfl
      · exact labelled_congr (h.labelled m hmem) rfl rfl
      · exact labelled_congr hm rfl rfl
    · dsimp only
      rw [List.map_append, List.sum_append, ← h.total, hsize]
      simp
    · intro hpc'
      dsimp only at hpc'
      split at hpc' <;> cases hpc'
    · intro hpc'
      dsimp only at hpc' ⊢
      split at hpc'
      · next hmore =>
        simp only [bytesRemain, decide_eq_true_eq] at hmore
        rwa [asSizeT_eq (by omega) (by omega), asSizeT_eq (by omega) (by omega)] at hmore
      · cases hpc'
    · intro _
      exact List.mem_append_right _ (List.mem_singleton.mpr rfl)
    · intro hpc'
      dsimp only at hpc'
      split at hpc' <;> cases hpc'
    · rw [hmsgs, sentBy, if_neg hrc]
  | finishes hpc =>
    have hexit : c.exitMsg = [] := h.unfinished (by rw [hpc]; rintro ⟨⟩)
    have hmem := h.ending hpc
    have hmsgs : UdpConn.messages { c with pc := .returned 0, exitMsg := [c.msg] } =
        c.messages ++ [c.msg] := by simp [UdpConn.messages, hexit]
    refine ⟨⟨h.id, hdata, h.packSize, fun m hm => ?_, h.total, by rintro ⟨⟩, by rintro ⟨⟩,
      by rintro ⟨⟩, fun hpc' => absurd rfl hpc', fun _ => rfl⟩, hmsgs⟩
    rw [hmsgs, List.mem_append, List.mem_singleton] at hm
    refine labelled_congr (h.labelled m ?_) rfl rfl
    rcases hm with hm | rfl
    · exact hm
    · exact List.mem_append_left _ hmem

end UdpConnInv

/-- The client, and the datagrams that its sockets have sent. -/
structure UdpSends (mem : List UInt8) (q b : Int) (c : MClient UdpConn) (sent : List (List UInt8)) :
    Prop where
  conn : MClientProg.EachConn (UdpConnInv q b) c
  length : c.threads.length = c.listener.sessionList.sessions.length
  length_le : c.threads.length ≤ 4
  currentMaxId : c.listener.sessionList.currentMaxId = (c.threads.length : Int) - 1
  datagrams : (UdpMServer.data sent).Perm
    (c.threads.flatMap fun d => d.messages.map (·.wire mem))
  wellFormed : ∀ d ∈ sent, UdpMServer.WellFormed d

namespace UdpSends

variable {mem : List UInt8} {q b : Int} {l₀ : Listener} {c c' : MClient UdpConn}
  {sent : List (List UInt8)}

theorem dataDatagram (h : UdpSends mem q b c sent) (hb : b < 2 ^ 31) {k : Nat} {session : Session}
    {d : UdpConn} (hs : c.listener.session? k = some session) (hd : c.threads[k]? = some d)
    {m : UdpMsg} (hm : Labelled session m) :
    DataDatagram (m.wire mem) ∧ (hdrCount (m.wire mem)).1 = k := by
  have hconn := h.conn k session d hs hd
  have hlt := (List.getElem?_eq_some_iff.mp hd).1
  have hle := h.length_le
  have hid := hconn.id
  have hpack := hconn.packSize
  rw [← hid]
  exact hdr_wire hm (by omega) (by omega) (by omega)

/-- A step of the client that leaves its sessions alone; the parent may send an empty datagram. -/
theorem quiet (h : UdpSends mem q b c sent) (hq : MClientProg.Quiet c c') {es : List (List UInt8)}
    (hes : ∀ d ∈ es, d = []) : UdpSends mem q b c' (sent ++ es) := by
  have hdata : UdpMServer.data (sent ++ es) = UdpMServer.data sent := by
    have hnone : UdpMServer.data es = [] := by
      refine List.filter_eq_nil_iff.mpr fun d hd => ?_
      rw [hes d hd]
      decide
    rw [UdpMServer.data, List.filter_append]
    exact (congrArg _ hnone).trans (List.append_nil _)
  refine ⟨?_, by rw [hq.threads, hq.sessionList]; exact h.length,
    by rw [hq.threads]; exact h.length_le,
    by rw [hq.threads, hq.sessionList]; exact h.currentMaxId, ?_, fun d hd => ?_⟩
  · intro k session d hs hd
    rw [hq.threads] at hd
    rw [Listener.session?, hq.sessionList] at hs
    exact h.conn k session d hs hd
  · rw [hdata, hq.threads]
    exact h.datagrams
  · rcases List.mem_append.mp hd with hd | hd
    · exact h.wellFormed d hd
    · exact .inl (hes d hd)

/-- The parent creates a session, which gets the place in the list as its id. -/
theorem added (h : UdpSends mem q b c sent) {x : Nat} {sockD : Int} (hx : x < 4)
    (hlen : c.listener.sessionList.sessions.length = x)
    (ha : MClientProg.Added tbUdpMClient x sockD c c')
    (hmax : c'.listener.sessionList.currentMaxId = c.listener.sessionList.currentMaxId + 1)
    (hq : asSizeT (c.listener.fileSize.tdiv 4) = q ∧ 1 ≤ q) (hb : c.listener.bufsize = b) :
    UdpSends mem q b c' sent := by
  have hthreads : c'.threads = c.threads ++ [tbUdpMClientConn.start] := ha.threads
  have hlength := h.length
  have hid := h.currentMaxId
  refine ⟨?_, ?_, ?_, ?_, ?_, h.wellFormed⟩
  · intro k session d hs hd
    rw [hthreads] at hd
    rw [Listener.session?, ha.sessions] at hs
    rcases getElem?_concat_eq_some.mp hs with hs | ⟨hk, rfl⟩
    · have hlt := (List.getElem?_eq_some_iff.mp hs).1
      rw [List.getElem?_append_left (by rw [hlength]; exact hlt)] at hd
      exact h.conn k session d hs hd
    · rw [hk, ← hlength, List.getElem?_concat_length] at hd
      cases hd
      have hdata : ((tbUdpMClient.addedSession c.listener x sockD).dataSize : Int) = q := hq.1
      refine ⟨?_, hdata, hb, by rintro _ ⟨⟩, rfl, fun _ => rfl, by rintro ⟨⟩, by rintro ⟨⟩,
        fun _ => rfl, by rintro ⟨⟩⟩
      show c.listener.sessionList.currentMaxId + 1 = k
      omega
  · rw [hthreads, ha.sessions, List.length_append, List.length_append, hlength]
    rfl
  · rw [hthreads, List.length_append, hlength, hlen]
    exact hx
  · rw [hmax, hthreads, List.length_append, hid]
    simp
  · rw [hthreads, List.flatMap_append]
    simpa [tbUdpMClientConn, UdpConn.messages] using h.datagrams

/-- A thread sends a datagram, or none. -/
theorem moved (h : UdpSends mem q b c sent) (hq : 1 ≤ q ∧ q < 2 ^ 31) (hb : 1 ≤ b ∧ b < 2 ^ 31)
    {k : Nat} {io : ThreadIo} {session : Session} {d : UdpConn} {r : Session × UdpConn}
    (hm : MClientProg.Moved tbUdpMClient k io c c' session d r)
    (hwhole : ∀ rc, io = .send rc → rc = -1 ∨ rc = asInt (udpNextMsg session d).size) :
    UdpSends mem q b c' (sent ++ (UdpConnInv.sentBy session d io).map (·.wire mem)) := by
  have hconn := h.conn k session d hm.session_eq hm.thread_eq
  obtain ⟨hconn', hmsgs⟩ := hconn.step hq hb hm.valid hwhole hm.step
  have hthreads : c'.threads = c.threads.set k r.2 := by rw [hm.eq]
  have hsessions : c'.listener.sessionList.sessions = c.listener.sessionList.sessions.set k r.1 := by
    rw [hm.eq]
    rfl
  have hwell : ∀ e ∈ (UdpConnInv.sentBy session d io).map (·.wire mem), DataDatagram e := by
    intro e he
    obtain ⟨m, hmem, rfl⟩ := List.mem_map.mp he
    refine (h.dataDatagram hb.2 hm.session_eq hm.thread_eq ?_).1
    have hlab := hconn'.labelled m (by rw [hmsgs]; exact List.mem_append_right _ hmem)
    exact UdpConnInv.labelled_congr hlab (hconn.id.trans hconn'.id.symm)
      (hconn.packSize.trans hconn'.packSize.symm)
  refine ⟨?_, ?_, ?_, ?_, ?_, fun e he => ?_⟩
  · intro j session' d' hs' hd'
    rw [hthreads, List.getElem?_set'] at hd'
    rw [Listener.session?, hsessions, List.getElem?_set'] at hs'
    by_cases hkj : k = j
    · subst hkj
      rw [if_pos rfl, hm.thread_eq] at hd'
      have hsession : c.listener.sessionList.sessions[k]? = some session := hm.session_eq
      rw [if_pos rfl, hsession] at hs'
      cases hd'
      cases hs'
      exact hconn'
    · rw [if_neg hkj] at hd' hs'
      exact h.conn j session' d' hs' hd'
  · rw [hthreads, hsessions, List.length_set, List.length_set]
    exact h.length
  · rw [hthreads, List.length_set]
    exact h.length_le
  · have hmax : c'.listener.sessionList.currentMaxId = c.listener.sessionList.currentMaxId := by
      rw [hm.eq]
      rfl
    rw [hmax, hthreads, List.length_set]
    exact h.currentMaxId
  · have hdata : UdpMServer.data (sent ++ (UdpConnInv.sentBy session d io).map (·.wire mem)) =
        UdpMServer.data sent ++ (UdpConnInv.sentBy session d io).map (·.wire mem) := by
      rw [UdpMServer.data, List.filter_append]
      refine congrArg _ (List.filter_eq_self.mpr fun e he => ?_)
      simpa using (hwell e he).ne_nil
    rw [hdata, hthreads]
    refine (h.datagrams.append_right _).trans (Family.flatMap_set_perm hm.thread_eq ?_).symm
    rw [hmsgs, List.map_append]
  · rcases List.mem_append.mp he with he | he
    · exact h.wellFormed e he
    · exact .inr (hwell e he)

theorem ticked (h : UdpSends mem q b c sent) (f : Nat → StatsQuery) :
    UdpSends mem q b { c with listener := tbSetMStats f c.listener } sent := by
  refine ⟨?_, ?_, h.length_le, h.currentMaxId, h.datagrams, h.wellFormed⟩
  · intro k session d hs hd
    rw [tbSetMStats_session?] at hs
    obtain ⟨session, hsession, rfl⟩ := Option.map_eq_some_iff.mp hs
    have hconn := h.conn k session d hsession hd
    have hid := UdpMServer.mStatsSession_id (f k) session
    have hpack := mStatsSession_packSize (f k) session
    have hsize := mStatsSession_dataSize (f k) session
    have htotal := mStatsSession_totalBytes (f k) session
    refine ⟨hid.trans hconn.id, hsize.trans hconn.dataSize, hpack.trans hconn.packSize,
      fun m hm => UdpConnInv.labelled_congr (hconn.labelled m hm) hid hpack,
      htotal.trans hconn.total, hconn.unsent, fun hpc => ?_, hconn.ending, hconn.unfinished,
      hconn.finished⟩
    rw [htotal, hsize]
    exact hconn.sending hpc
  · rw [tbSetMStats_length]
    exact h.length

theorem currentMaxId_added {x : Nat} {resolved : Bool} {sockD : Int}
    (ha : MClientProg.Added tbUdpMClient x sockD c c')
    (h : tbUdpMClient.createStep c resolved sockD = some c') :
    c'.listener.sessionList.currentMaxId = c.listener.sessionList.currentMaxId + 1 := by
  unfold MClientProg.createStep at h
  rw [ha.parent] at h
  dsimp only at h
  have hnot : c'.parent ≠ .aborted := by
    rw [ha.parent']
    split <;> rintro ⟨⟩
  split at h
  · cases h
    exact absurd rfl hnot
  · split at h <;> cases h
    · exact absurd rfl hnot
    · rfl

/-- **A step of the client** adds the datagrams of its sessions to those sent. -/
theorem step (h : UdpSends mem (l₀.fileSize.tdiv 4) l₀.bufsize c sent) (hl : UdpSizes l₀)
    (hshape : MClientProg.Shape tbUdpMClient l₀ c) {l : MLabel ThreadIo}
    (hwhole : ∀ k rc, l = .thread k (.send rc) →
      rc = -1 ∨ ∀ m, c.nextMsg? k = some m → rc = asInt m.size)
    (ht : tbUdpMClient.step c l = some c') :
    UdpSends mem (l₀.fileSize.tdiv 4) l₀.bufsize c' (sent ++ (c.sends l).map (·.wire mem)) := by
  have hq := hl.quarter
  have hb : 1 ≤ l₀.bufsize ∧ l₀.bufsize < 2 ^ 31 := ⟨hl.bufsize_pos, hl.bufsize_lt⟩
  rcases MClientProg.step_cases (mClient_regular .udp) ht with ⟨hparent, hquiet⟩ |
    ⟨x, resolved, sockD, rfl, ha⟩ | ⟨k, io, session, d, r, rfl, hm⟩ | ⟨f, rfl, rfl⟩
  · have hnone : c.sends l = [] := by
      cases l with
      | thread | tick => cases hparent
      | setup | create | parent | eot => rfl
    rw [hnone]
    exact h.quiet hquiet (by simp)
  · simp only [MClient.sends, List.map_nil, List.append_nil]
    obtain ⟨hlen, hx⟩ := hshape.create x ha.parent
    refine h.added hx hlen ha (currentMaxId_added ha ht) ?_ hshape.sameData.bufsize
    rw [hshape.sameData.fileSize]
    exact ⟨asSizeT_eq (by omega) (by omega), hq.1⟩
  · have hnext : c.nextMsg? k = some (udpNextMsg session d) := by
      rw [MClient.nextMsg?, hm.session_eq, hm.thread_eq]
    have hsends : c.sends (.thread k io) = UdpConnInv.sentBy session d io := by
      cases io with
      | connect => rfl
      | send rc => simp only [MClient.sends, UdpConnInv.sentBy, hnext, Option.toList_some]
      | finish => simp only [MClient.sends, UdpConnInv.sentBy, hm.thread_eq, Option.map_some,
          Option.toList_some]
    rw [hsends]
    refine h.moved hq hb hm fun rc hrc => ?_
    exact (hwhole k rc (by rw [hrc])).imp_right fun hall => hall _ hnext
  · simp only [MClient.sends, List.map_nil, List.append_nil]
    exact h.ticked f

theorem init (h₀ : l₀.sessionList = ⟨-1, 0, [], 0⟩) :
    UdpSends mem q b (tbUdpMClient.init l₀) [] := by
  refine ⟨?_, ?_, Nat.zero_le 4, ?_, List.Perm.refl _, by simp⟩
  · intro k session d hs
    simp [MClientProg.init, Listener.session?, h₀] at hs
  · simp [MClientProg.init, h₀]
  · simp [MClientProg.init, h₀]

end UdpSends

end TestBed
