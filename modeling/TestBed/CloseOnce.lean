import TestBed.LockDiscipline
import TestBed.ClientSockets

/-!
# Descriptors are closed once

Over the runs of the four functions of `tb_stream.c` that serve or open connections no descriptor is
closed twice, except by `tb_stream_server`, which closes the descriptor of every session that ends a
second time through `f_close`, after it has destroyed the session (`closed_once`).
-/

namespace TestBed.Code

open Program Lang Transition Descriptor

/-- A function of an endpoint of type `t` is entered; its listener's socket was handed out. -/
structure HandedOver (t : EndpointType) (w : World) : Prop where
  enters : Enters w
  eType : w.listener.eType = t
  status : w.listener.status = .created
  sock : 0 ≤ w.listener.sockD
  trace : w.trace = [.opened w.listener.sockD]

def Fact.handedOver : Fact :=
  { Fact.entry with status := some .created, sock := .live, reclosed := false }

theorem HandedOver.fact {t : EndpointType} {w : World} (h : HandedOver t w) :
    Fact.handedOver.Holds none none w.view := by
  have htrace : w.view.trace = [.opened w.view.sock] := h.trace
  refine { h.enters.entry with
    status := fun _ hs => Option.some.inj hs ▸ h.status
    sock := ⟨h.sock, ?_⟩
    apart := fun _ hl => Desc.noConfusion hl
    once := fun _ => ?_ }
  · rw [htrace]
    exact stateOf_opened_self [] _
  · rw [htrace]
    refine ⟨(closedOnce_opened _).mpr closedOnce_nil, fun u hu => ?_⟩
    cases hu with
    | head => exact h.sock
    | tail _ hu => cases hu

def notReclosed (a : Fact) : Bool := !a.reclosed

theorem Fact.Holds.closedOnce {p : Option Protocol} {e : Option EndpointType} {w : World}
    (h : ∃ a : Fact, notReclosed a = true ∧ a.Holds p e w.view) : ClosedOnce w.trace := by
  obtain ⟨a, hok, ha⟩ := h
  exact (ha.once (Bool.not_eq_true' _ ▸ hok)).1

/-! ## Single connections -/

theorem streamClient_closedOnce {w : World} (hw : HandedOver .client w)
    {ls : List (Label Io EnvStep)} {c : Config World Op Test}
    (hrun : run lang.step (start tbStreamClient w) ls = some c) : ClosedOnce c.state.trace := by
  have hchecks : ((facts none none).guarded notReclosed).checks 6 tbStreamClient [.handedOver]
      (fun _ => true) = true := by decide +kernel
  exact Fact.Holds.closedOnce (Domain.checks_guarded hchecks rfl hw.fact hrun).1

/-- Every operation but `f_close(session->sock_d)`. -/
def noSecondClose : Op → Bool
  | .close .session (some _) => false
  | _ => true

theorem streamServer_closedOnce {w : World} (hw : HandedOver .server w)
    {ls : List (Label Io EnvStep)} {c : Config World Op Test}
    (hrun : run lang.step (start tbStreamServer w) ls = some c)
    (hgood : Meets lang.step (GoodStep (.only noSecondClose)) (start tbStreamServer w) ls) :
    ClosedOnce c.state.trace := by
  have hchecks : (((facts none none).only noSecondClose).guarded notReclosed).checks 6
      tbStreamServer [.handedOver] (fun _ => true) = true := by decide +kernel
  exact Fact.Holds.closedOnce
    (Domain.checks_guarded hchecks rfl hw.fact (restrict_run hgood hrun)).1

/-! ## The four functions -/

/-- **Descriptors are closed at most once** in every run of `tb_stream_client`, of
`tb_stream_m_server` with its session threads and of `tb_stream_m_client` with its own; and in every
run of `tb_stream_server` that does not come to `f_close(session->sock_d)`. -/
theorem closed_once {l : Listener} (hl : l.Ready) :
    (∀ w, HandedOver .server w → w.listener = l → ∀ (ls : List (Label Io EnvStep)) c,
      run lang.step (start tbStreamServer w) ls = some c →
      Meets lang.step (GoodStep (.only noSecondClose)) (start tbStreamServer w) ls →
      ClosedOnce c.state.trace) ∧
    (∀ w, HandedOver .client w → w.listener = l → ∀ (ls : List (Label Io EnvStep)) c,
      run lang.step (start tbStreamClient w) ls = some c → ClosedOnce c.state.trace) ∧
    (∀ (ls : List SLabel) s,
      run TestBed.tbStreamMServer.traced (MServerProg.tracedInit l) ls = some s →
      ClosedOnce s.trace) ∧
    ∀ (ls : List (MLabel ThreadIo)) s,
      run TestBed.tbStreamMClient.traced (TestBed.tbStreamMClient.tracedInit l) ls = some s →
      ClosedOnce s.trace := by
  have hregular := mClient_regular .stream
  refine ⟨fun w hw _ ls c hrun hgood => streamServer_closedOnce hw hrun hgood,
    fun w hw _ ls c hrun => streamClient_closedOnce hw hrun, fun ls s hrun => ?_,
    fun ls s hrun => ?_⟩
  · exact (ServerSockets.run rfl hl hrun).owned.once
  · exact (ClientSockets.run hregular rfl tbStreamMClient_keepsSock hl hrun).owned.once

/-- The listener of an endpoint that has its socket. -/
def readyListener (t : EndpointType) (q : Protocol) : Listener :=
  { tbCreateListener t q 1408 with sockD := 3 }

theorem readyListener_ready (t : EndpointType) (q : Protocol) : (readyListener t q).Ready :=
  ⟨Int.natCast_nonneg 3, rfl⟩

def streamWorld (t : EndpointType) : World :=
  .ofListener (readyListener t .tcp) ⟨tcpPtr, sockStream, 0, .tcp⟩ noFiles fun _ => none

theorem streamWorld_handedOver (t : EndpointType) : HandedOver t (streamWorld t) :=
  ⟨⟨rfl, rfl, rfl, rfl, rfl⟩, rfl, rfl, Int.natCast_nonneg 3, rfl⟩

/-- A connection is accepted on the descriptor 4; its `recv` fails. -/
def recvFails (o : Op) (_ : World) : Io :=
  match o with
  | .accept _ => .ret 4
  | .call _ (.recv _) => .fail 104
  | _ => .ret 0

/-- A server that serves one connection. -/
def oneConnection : List SLabel :=
  [.setup true, .test, .poll true, .accept 4 true, .accept (-1) true, .conn 0 .start,
    .conn 0 (.recv (.count 5)), .conn 0 (.recv (.count 0)), .conn 0 .countOut, .conn 0 .leave,
    .test, .close]

/-- A client without data whose sessions connect and end. -/
def fourConnections : List (MLabel ThreadIo) :=
  [.create true 4, .create true 5, .create true 6, .create true 7, .parent, .parent,
    .thread 0 (.connect 0), .thread 1 (.connect 0), .thread 2 (.connect 0), .thread 3 (.connect 0),
    .thread 0 .finish, .thread 1 .finish, .thread 2 .finish, .thread 3 .finish,
    .parent, .parent, .parent, .parent, .parent, .parent, .parent]

theorem closed_once_runs :
    (let r := lang.drive recvFails 100 (start tbStreamServer (streamWorld .server))
     r.2.stack = [] ∧ r.2.state.aborting = true ∧ ClosedOnce r.2.state.trace) ∧
    (let r := lang.drive recvFails 100 (start tbStreamClient (streamWorld .client))
     r.2.stack = [] ∧ ClosedOnce r.2.state.trace) ∧
    (∃ s, run TestBed.tbStreamMServer.traced (MServerProg.tracedInit (readyListener .mServer .tcp))
        oneConnection = some s ∧ s.sys.main = .returned ∧ ClosedOnce s.trace) ∧
    ∃ s, run TestBed.tbStreamMClient.traced
        (TestBed.tbStreamMClient.tracedInit (readyListener .mClient .tcp)) fourConnections = some s ∧
      s.sys.parent = .closing [] ∧ ClosedOnce s.trace :=
  ⟨⟨by decide +kernel, by decide +kernel,
      (closed_once (readyListener_ready .server .tcp)).1 _ (streamWorld_handedOver .server) rfl _ _
        (drive_run recvFails 100 _) (by decide +kernel)⟩,
    ⟨by decide +kernel,
      (closed_once (readyListener_ready .client .tcp)).2.1 _ (streamWorld_handedOver .client) rfl _ _
        (drive_run recvFails 100 _)⟩,
    ⟨_, rfl, rfl, (closed_once (readyListener_ready .mServer .tcp)).2.2.1 oneConnection _ rfl⟩,
    ⟨_, rfl, rfl, (closed_once (readyListener_ready .mClient .tcp)).2.2.2 fourConnections _ rfl⟩⟩

/-- The peer of the connection 4 closes it. -/
def peerCloses (o : Op) (_ : World) : Io :=
  match o with
  | .accept _ => .ret 4
  | .call _ (.recv _) => .ret 0
  | _ => .ret 0

/-- `tb_stream_server` closes the descriptor of its session twice when the session ends. -/
theorem streamServer_closes_twice :
    ¬ ∀ (w : World), HandedOver .server w →
      ∀ (ls : List (Label Io EnvStep)) (c : Config World Op Test),
        run lang.step (start tbStreamServer w) ls = some c → ClosedOnce c.state.trace := by
  intro h
  have hrun := drive_run (L := lang) peerCloses 100 (start tbStreamServer (streamWorld .server))
  have honce := h _ (streamWorld_handedOver .server) _ _ hrun
  exact absurd honce (by decide +kernel)

end TestBed.Code
