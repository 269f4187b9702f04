import TestBed.CloseOnce
import TestBed.Interrupt

/-!
# What the monitor queries

A tick queries `listener->curr_session->sock_d` for a server and `listener->sock_d` for a client while
the status is `TB_CONNECTED`, and for many connections the descriptor of every connected session. The
sections of `stat_lock` are taken as atomic, so the state is looked at outside them.

Every function sets the descriptor before the status and lowers the status in the section that closes
it, with two exceptions: `tb_udp_server` never sets the descriptor of its session, and
`tb_stream_m_client` closes the descriptors of sessions whose `send` has failed and which are still
connected (`query_live`).
-/

namespace TestBed.Code

open Program Lang Transition Descriptor

/-- The type of the endpoint that a function with one connection belongs to. -/
def Fn.single : Fn → Option EndpointType
  | .streamServer | .udtServer | .udpServer => some .server
  | .streamClient | .udpClient => some .client
  | _ => none

/-- The descriptor that a tick would query was handed out for the transfer and was not closed. -/
def QueryLive (w : World) : Prop :=
  w.sect = false → w.listener.status = .connected →
    if w.listener.eType = .server then
      w.curr = true ∧ w.assigned = true ∧ stateOf w.trace w.session.sockD = .live
    else stateOf w.trace w.listener.sockD = .live

/-- The fact implies that the query is live. -/
def queriesLive (t : EndpointType) (a : Fact) : Bool :=
  a.sect || a.status.any (· ≠ .connected) ||
    if t = .server then a.curr && a.sess == .live else a.sock == .live

theorem Fact.Holds.queryLive {p : Option Protocol} {t : EndpointType} {w : World}
    (h : ∃ a : Fact, queriesLive t a = true ∧ a.Holds p (some t) w.view) : QueryLive w := by
  obtain ⟨a, hok, ha⟩ := h
  intro hsect hstatus
  have hsect' : a.sect = false := Eq.trans ha.sect.symm hsect
  have htype : w.listener.eType = t := ha.eType t rfl
  have hconnected : a.status.any (· ≠ .connected) = false := by
    cases hst : a.status with
    | none => rfl
    | some s =>
      have heq : w.listener.status = s := ha.status s hst
      simp [← heq, hstatus]
  simp only [queriesLive, hsect', hconnected, Bool.false_or] at hok
  rw [htype]
  by_cases hserver : t = .server
  · rw [if_pos hserver] at hok ⊢
    rw [Bool.and_eq_true, beq_iff_eq] at hok
    have hsess := ha.sess
    rw [hok.2] at hsess
    exact ⟨ha.curr hok.1, ha.assigned (by rw [hok.2]; exact Desc.noConfusion), hsess.2⟩
  · rw [if_neg hserver] at hok ⊢
    have hsock := ha.sock
    rw [beq_iff_eq.mp hok] at hsock
    exact hsock.2

theorem HandedOver.typed {t : EndpointType} {w : World} (h : HandedOver t w) :
    Fact.handedOver.Holds none (some t) w.view :=
  { h.fact with eType := fun _ ht => Option.some.inj ht ▸ h.eType }

/-- Every operation but `listener->status = TB_CONNECTED`. -/
def notConnected : Op → Bool
  | .status .connected => false
  | _ => true

theorem checks_queriesLive {f : Fn} {t : EndpointType} (ht : f.single = some t)
    (hf : f ≠ .udpServer) :
    ((facts none (some t)).guarded (queriesLive t)).checks 6 f.body [.handedOver]
      (fun _ => true) = true := by
  cases f with
  | udpServer => exact absurd rfl hf
  | streamServer | udtServer | streamClient | udpClient =>
    cases ht
    decide +kernel
  | _ => cases ht

theorem checks_udpServer :
    (((facts none (some .server)).only notConnected).guarded (queriesLive .server)).checks 6
      tbUdpServer [.handedOver] (fun _ => true) = true := by decide +kernel

theorem single_queryLive {f : Fn} {t : EndpointType} (ht : f.single = some t) {w : World}
    (hw : HandedOver t w) {ls : List (Label Io EnvStep)} {c : Config World Op Test}
    (hrun : run lang.step (start f.body w) ls = some c)
    (hgood : f = .udpServer → Meets lang.step (GoodStep (.only notConnected)) (start f.body w) ls) :
    QueryLive c.state := by
  have hok : queriesLive t .handedOver = true := rfl
  by_cases hf : f = .udpServer
  · subst hf
    cases ht
    exact Fact.Holds.queryLive
      (Domain.checks_guarded checks_udpServer hok hw.typed (restrict_run (hgood rfl) hrun)).1
  · exact Fact.Holds.queryLive
      (Domain.checks_guarded (checks_queriesLive ht hf) hok hw.typed hrun).1

/-- **The monitor only queries live descriptors** in every run of the functions with one connection
and of `tb_stream_m_server`; of `tb_udp_server` before it is connected, and of `tb_stream_m_client` if
it joins no thread whose `send` has failed. -/
theorem query_live {l : Listener} (hl : l.Ready) :
    (∀ (f : Fn) (t : EndpointType), f.single = some t → ∀ w, HandedOver t w →
      w.listener = l → ∀ (ls : List (Label Io EnvStep)) c,
      run lang.step (start f.body w) ls = some c →
      (f = .udpServer → Meets lang.step (GoodStep (.only notConnected)) (start f.body w) ls) →
      QueryLive c.state) ∧
    (∀ (ls : List SLabel) s,
      run TestBed.tbStreamMServer.traced (MServerProg.tracedInit l) ls = some s →
      SessionsLive s.sys.listener s.trace) ∧
    ∀ (ls : List (MLabel ThreadIo)) s,
      run TestBed.tbStreamMClient.traced (TestBed.tbStreamMClient.tracedInit l) ls = some s →
      Meets TestBed.tbStreamMClient.traced JoinsSent (TestBed.tbStreamMClient.tracedInit l) ls →
      SessionsLive s.sys.listener s.trace := by
  refine ⟨fun f t ht w hw _ ls c hrun hgood => single_queryLive ht hw hrun hgood,
    fun ls s hrun => ?_, fun ls s hrun hgood => streamMClient_sessionsLive hl hrun hgood⟩
  exact (ServerSockets.run rfl hl hrun).sessionsLive

/-- A UDP server for one client that has its socket. -/
def udpServerWorld : World :=
  .ofListener (readyListener .server .udp) ⟨udpPtr, sockDgram, 0, .udp⟩ noFiles fun _ => none

theorem udpServerWorld_handedOver : HandedOver .server udpServerWorld :=
  ⟨⟨rfl, rfl, rfl, rfl, rfl⟩, rfl, rfl, Int.natCast_nonneg 3, rfl⟩

/-- Every datagram that the server receives is `n` bytes long; -1 for a failure. -/
def datagrams (n : Int) (o : Op) (_ : World) : Io :=
  match o with
  | .call _ (.recvfrom _) => .ret n
  | _ => .ret 0

/-- A client that has one byte to send on each of its connections. -/
def byteListener : Listener := mClientListener .tcp 1408 4 3 (some [1, 2, 3, 4])

theorem byteListener_ready : byteListener.Ready := ⟨Int.natCast_nonneg 3, rfl⟩

/-- The four sessions are created, and the first has connected when the parent waits for it. -/
def firstConnects : List (MLabel ThreadIo) :=
  [.create true 4, .create true 5, .create true 6, .create true 7, .thread 0 (.connect 0),
    .parent, .parent]

theorem query_live_runs :
    (let r := lang.drive oneByte 60 (start tbStreamServer (streamWorld .server))
     r.2.state.sect = false ∧ r.2.state.listener.status = .connected ∧ QueryLive r.2.state) ∧
    (let r := lang.drive (datagrams (-1)) 60 (start tbUdpServer udpServerWorld)
     r.2.stack = [] ∧ QueryLive r.2.state) ∧
    (∃ s, run TestBed.tbStreamMServer.traced (MServerProg.tracedInit (readyListener .mServer .tcp))
        (oneConnection.take 7) = some s ∧ s.trace = [.opened 4, .opened 3] ∧
      SessionsLive s.sys.listener s.trace) ∧
    ∃ s, run TestBed.tbStreamMClient.traced (TestBed.tbStreamMClient.tracedInit byteListener)
        (firstConnects ++ [.thread 0 (.send 1), .thread 0 .finish, .parent]) = some s ∧
      s.trace = [.closed 4, .opened 7, .opened 6, .opened 5, .opened 4, .opened 3] ∧
      SessionsLive s.sys.listener s.trace :=
  ⟨⟨by decide +kernel, by decide +kernel,
      (query_live (readyListener_ready .server .tcp)).1 .streamServer .server rfl _
        (streamWorld_handedOver .server) rfl _ _ (drive_run oneByte 60 _) nofun⟩,
    ⟨by decide +kernel,
      (query_live (readyListener_ready .server .udp)).1 .udpServer .server rfl _
        udpServerWorld_handedOver rfl _ _ (drive_run (datagrams (-1)) 60 _)
        fun _ => by decide +kernel⟩,
    ⟨_, rfl, rfl, (query_live (readyListener_ready .mServer .tcp)).2.1 (oneConnection.take 7) _ rfl⟩,
    ⟨_, rfl, rfl, (query_live byteListener_ready).2.2
      (firstConnects ++ [.thread 0 (.send 1), .thread 0 .finish, .parent]) _ rfl
      (by decide +kernel)⟩⟩

/-- `tb_udp_server` is connected when it has received a datagram, but its session has no descriptor;
and `tb_stream_m_client` closes the descriptor of a session that is still connected. -/
theorem queries_dead_descriptor :
    (¬ ∀ w : World, HandedOver .server w →
      ∀ (ls : List (Label Io EnvStep)) (c : Config World Op Test),
        run lang.step (start tbUdpServer w) ls = some c → QueryLive c.state) ∧
    ∃ ls s, run TestBed.tbStreamMClient.traced (TestBed.tbStreamMClient.tracedInit byteListener)
      ls = some s ∧ ¬ SessionsLive s.sys.listener s.trace := by
  refine ⟨fun h => ?_,
    ⟨firstConnects ++ [.thread 0 (.send (-1)), .parent], _, rfl, fun hlive => ?_⟩⟩
  · have hrun := drive_run (L := lang) (datagrams 1) 30 (start tbUdpServer udpServerWorld)
    have hquery := h _ udpServerWorld_handedOver _ _ hrun (by decide +kernel) (by decide +kernel)
    rw [if_pos (by decide +kernel)] at hquery
    exact absurd hquery.2.1 (by decide +kernel)
  · exact absurd (hlive 0 _ rfl rfl).2 (by decide)

end TestBed.Code
