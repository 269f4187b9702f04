import TestBed.UdpSessions
import TestBed.Lib.Transition

/-!
# The UDP multi-connection server

`tb_udp_m_server`, one system call at a time: its loop, the poll, the `recvmsg` calls of `tb_udp_event`
with the header buffers they share, the acknowledgement, and the tail of closing operations. A call of
`tb_udp_event` whose datagrams are all there when it begins does what `tbUdpEvent` says
(`event_run`).

Whatever arrives, the totals are those of the data datagrams received, in sessions that were created
in the order of first arrival (`Received.step`).
-/

namespace TestBed

open CInt Transition Demux

/-- What `tb_poll_for_events` does: it calls `tb_udp_event`, it finds nothing to do, or it returns a
negative number. -/
inductive UdpPoll
  | event | idle | broken
  deriving DecidableEq, Repr

/-- The operations behind the loop. -/
inductive UdpClosing
  | finishTime | lock | closeSock | disconnected
  deriving DecidableEq, Repr

inductive UdpMServerPc
  | test
  | polling
  /-- In the loop of `tb_udp_event`, with its header buffers. -/
  | draining (hdr : List UInt8)
  | acking
  | exiting
  | closing (ops : List UdpClosing)
  | failed
  deriving DecidableEq, Repr

/-- The loop is over: behind it, or out of the function where a poll has failed. -/
def UdpMServerPc.left : UdpMServerPc → Bool
  | .closing _ | .failed => true
  | _ => false

structure UdpMServer where
  server : UdpServer
  pc : UdpMServerPc
  deriving DecidableEq, Repr

/-- Who moves, and what the calls return. -/
inductive UdpMLabel
  | test
  | poll (p : UdpPoll)
  /-- One `recvmsg`; `none` is `EWOULDBLOCK`. -/
  | recv (r : Option Recv)
  | ack
  | exit
  | close
  | interrupt
  | tick (q : Nat → StatsQuery)

theorem DataDatagram.ne_nil {d : List UInt8} (h : DataDatagram d) : d ≠ [] := by
  rintro rfl
  exact absurd h.length (by decide)

theorem sum_totalBytes_modify {ss : List Session} {k : Nat} (hk : k < ss.length) (rc : Int) :
    ((ss.modify k (Session.addBytes rc)).map (·.totalBytes)).sum =
      (ss.map (·.totalBytes)).sum + rc := by
  induction ss generalizing k with
  | nil => cases hk
  | cons s ss ih =>
    cases k with
    | zero =>
      simp only [List.modify_zero_cons, List.map_cons, List.sum_cons, Session.addBytes]
      omega
    | succ k =>
      have hrest := ih (Nat.lt_of_succ_lt_succ hk)
      simp only [List.modify_succ_cons, List.map_cons, List.sum_cons]
      omega

/-- A datagram adds its count to the sum of the totals. -/
theorem recvData_totalBytes (s : UdpServer) (id rc : Int) :
    (s.recvData id rc).listener.sessionList.totalBytes =
      s.listener.sessionList.totalBytes + rc := by
  cases hk : tbSessionListSearch s.listener.sessionList id with
  | some k =>
    obtain ⟨hlt, -⟩ := List.findIdx?_eq_some_iff_getElem.mp hk
    simp only [UdpServer.recvData, findOrCreate, hk, SessionList.totalBytes]
    exact sum_totalBytes_modify hlt rc
  | none =>
    simp only [UdpServer.recvData, findOrCreate, hk, SessionList.totalBytes,
      tbSessionListInc_sessions, tbSessionAddTo, modify_length_concat]
    simp [Session.addBytes, tbCreateSession]

/-- An id that has arrived before changes nothing in the table. -/
theorem Demuxed.of_mem {s : UdpServer} {arrived : List Int} {id : Int}
    (h : Demuxed s (arrived ++ [id])) (hid : id ∈ arrived) : Demuxed s arrived := by
  have hdups : (arrived ++ [id]).eraseDups = arrived.eraseDups := by
    rw [eraseDups_concat, if_pos hid]
  refine ⟨by rw [← hdups, h.ids], by rw [← hdups, h.numSessions], by rw [← hdups, h.numActiveConn], ?_⟩
  rw [h.first, if_neg (by simp), if_neg (List.ne_nil_of_mem hid)]

namespace UdpMServer

/-- The mutex is locked twice at the end. -/
def tbUdpMServerTail : List UdpClosing := [.finishTime, .lock, .closeSock, .disconnected, .lock]

def testStep (s : UdpMServer) : Option UdpMServer :=
  if s.pc = .test then
    some { s with
      pc := if s.server.listener.command.eLoop then .closing tbUdpMServerTail else .polling }
  else none

def pollStep (s : UdpMServer) (p : UdpPoll) : Option UdpMServer :=
  if s.pc = .polling then
    match p with
    | .event => some ⟨s.server.noticed, .draining initHdr⟩
    | .idle => some { s with pc := .test }
    | .broken => some { s with pc := .failed }
  else none

/-- One turn of the loop of `tb_udp_event`, whose return value nobody reads. -/
def recvStep (s : UdpMServer) (r : Option Recv) : Option UdpMServer :=
  match s.pc with
  | .draining hdr =>
    match r with
    | some (.datagram d) =>
      let hdr' := recvHdr hdr d
      if hdrSz hdr' > 0 then
        some ⟨s.server.recvData (hdrId hdr') (recvRc hdr d), .draining hdr'⟩
      else some { s with pc := .acking }
    | _ => some { s with pc := .test }
  | _ => none

/-- The result of `sendmsg` is not looked at. -/
def ackStep (s : UdpMServer) : Option UdpMServer :=
  if s.pc = .acking then
    some ⟨{ s.server with acks := s.server.acks + 1 }, .exiting⟩
  else none

def command (s : UdpServer) (c : Command) : UdpServer :=
  { s with listener := { s.listener with command := c } }

def exitStep (s : UdpMServer) : Option UdpMServer :=
  if s.pc = .exiting then some ⟨command s.server .tbExit, .test⟩ else none

def closing (l : Listener) : UdpClosing → Option Listener
  | .finishTime => some { l with transferTime := tbFinishTime l.transferTime }
  | .lock => if l.statLock then none else some { l with statLock := true }
  | .closeSock => some { l with sockD := -1 }
  | .disconnected => some { l with status := .disconnected }

def closeStep (s : UdpMServer) : Option UdpMServer :=
  match s.pc with
  | .closing (op :: ops) =>
    (closing s.server.listener op).map fun l => ⟨{ s.server with listener := l }, .closing ops⟩
  | _ => none

def step (s : UdpMServer) : UdpMLabel → Option UdpMServer
  | .test => s.testStep
  | .poll p => s.pollStep p
  | .recv r => s.recvStep r
  | .ack => s.ackStep
  | .exit => s.exitStep
  | .close => s.closeStep
  | .interrupt => some { s with server := command s.server .tbExit }
  | .tick q => some { s with server :=
      { s.server with listener := tbSetMStats q s.server.listener } }

def init (l : Listener) : UdpMServer := ⟨udpServerStart l, .test⟩

variable {s t : UdpMServer}

/-! ## A call of `tb_udp_event` -/

/-- What a `recvmsg` has found. -/
def found : UdpMLabel → Option Recv
  | .recv r => r
  | _ => none

theorem recv_data {hdr d : List UInt8} (s : UdpServer) (hsz : hdrSz (recvHdr hdr d) > 0) :
    step ⟨s, .draining hdr⟩ (.recv (some (.datagram d))) =
      some ⟨s.recvData (hdrId (recvHdr hdr d)) (recvRc hdr d), .draining (recvHdr hdr d)⟩ := by
  unfold step recvStep
  dsimp only
  rw [if_pos hsz]

theorem recv_eot {hdr d : List UInt8} (s : UdpServer) (hsz : ¬ hdrSz (recvHdr hdr d) > 0) :
    step ⟨s, .draining hdr⟩ (.recv (some (.datagram d))) = some ⟨s, .acking⟩ := by
  unfold step recvStep
  dsimp only
  rw [if_neg hsz]

/-- The loop of `tb_udp_event` over what is there, one `recvmsg` at a time. -/
theorem drain_run (hdr : List UInt8) (queue : List Recv) (s : UdpServer) :
    ∃ ls, run step ⟨s, .draining hdr⟩ ls = some ⟨(udpDrain hdr queue s).server, .test⟩ ∧
      ls.filterMap found ++ (udpDrain hdr queue s).queue = queue := by
  induction queue generalizing hdr s with
  | nil => exact ⟨[.recv none], rfl, rfl⟩
  | cons r queue ih =>
    cases r with
    | error => exact ⟨[.recv (some .error)], rfl, rfl⟩
    | datagram d =>
      by_cases hsz : hdrSz (recvHdr hdr d) > 0
      · obtain ⟨ls, hls, hfound⟩ := ih (recvHdr hdr d)
          (s.recvData (hdrId (recvHdr hdr d)) (recvRc hdr d))
        refine ⟨.recv (some (.datagram d)) :: ls, ?_, ?_⟩ <;> rw [udpDrain, if_pos hsz]
        · rw [run_cons, recv_data s hsz]
          exact hls
        · simp only [List.filterMap_cons, found, List.cons_append, hfound]
      · refine ⟨[.recv (some (.datagram d)), .ack, .exit], ?_, ?_⟩ <;> rw [udpDrain, if_neg hsz]
        · rw [run_cons, recv_eot s hsz]
          rfl
        · rfl

/-- **A call of `tb_udp_event`, one system call at a time, does what `tbUdpEvent` says** to the
datagrams that are there when it begins. -/
theorem event_run (queue : List Recv) (s : UdpServer) :
    ∃ ls, run step ⟨s, .polling⟩ (.poll .event :: ls) =
        some ⟨(tbUdpEvent queue s).server, .test⟩ ∧
      ls.filterMap found ++ (tbUdpEvent queue s).queue = queue :=
  drain_run initHdr queue s.noticed

/-! ## What one step does -/

/-- The datagram of a `recvmsg` is data, also where the size left in the buffers makes it so. -/
def readsData (hdr d : List UInt8) : Prop := hdrSz (recvHdr hdr d) > 0

inductive Moves (s : UdpMServer) : UdpMLabel → UdpMServer → Prop
  | tests (hpc : s.pc = .test) (pc : UdpMServerPc) (hquiet : ∀ hdr, pc ≠ .draining hdr)
    (hpc' : pc = .polling ∨
      s.server.listener.command.eLoop = true ∧ pc = .closing tbUdpMServerTail) :
    Moves s .test ⟨s.server, pc⟩
  | begins (hpc : s.pc = .polling) : Moves s (.poll .event) ⟨s.server.noticed, .draining initHdr⟩
  | idles (hpc : s.pc = .polling) : Moves s (.poll .idle) ⟨s.server, .test⟩
  | breaks (hpc : s.pc = .polling) : Moves s (.poll .broken) ⟨s.server, .failed⟩
  | counts {hdr d : List UInt8} (hpc : s.pc = .draining hdr) (hsz : readsData hdr d) :
    Moves s (.recv (some (.datagram d)))
      ⟨s.server.recvData (hdrId (recvHdr hdr d)) (recvRc hdr d), .draining (recvHdr hdr d)⟩
  | notices {hdr d : List UInt8} (hpc : s.pc = .draining hdr) (hsz : ¬ readsData hdr d) :
    Moves s (.recv (some (.datagram d))) ⟨s.server, .acking⟩
  | drained {r : Option Recv} {hdr : List UInt8} (hpc : s.pc = .draining hdr)
    (hr : ∀ d, r ≠ some (.datagram d)) : Moves s (.recv r) ⟨s.server, .test⟩
  | acks (hpc : s.pc = .acking) :
    Moves s .ack ⟨{ s.server with acks := s.server.acks + 1 }, .exiting⟩
  | exits (hpc : s.pc = .exiting) : Moves s .exit ⟨command s.server .tbExit, .test⟩
  | closes {op : UdpClosing} {ops : List UdpClosing} {l : Listener}
    (hpc : s.pc = .closing (op :: ops)) (hl : closing s.server.listener op = some l) :
    Moves s .close ⟨{ s.server with listener := l }, .closing ops⟩
  | interrupts : Moves s .interrupt ⟨command s.server .tbExit, s.pc⟩
  | ticks (q : Nat → StatsQuery) :
    Moves s (.tick q) ⟨{ s.server with listener := tbSetMStats q s.server.listener }, s.pc⟩

theorem step_moves {l : UdpMLabel} (h : step s l = some t) : Moves s l t := by
  cases l with
  | test =>
    simp only [step, testStep] at h
    split at h <;> cases h
    next hpc =>
    cases hcmd : s.server.listener.command.eLoop with
    | true => exact .tests hpc _ (by simp) (.inr ⟨hcmd, rfl⟩)
    | false => exact .tests hpc _ (by simp) (.inl rfl)
  | poll p =>
    simp only [step, pollStep] at h
    split at h
    · next hpc =>
      cases p <;> cases h
      · exact .begins hpc
      · exact .idles hpc
      · exact .breaks hpc
    · cases h
  | recv r =>
    simp only [step, recvStep] at h
    split at h
    · next hdr hpc =>
      split at h
      · next d =>
        split at h <;> cases h
        · next hsz => exact .counts hpc hsz
        · next hsz => exact .notices hpc hsz
      · next hr =>
        cases h
        exact .drained hpc hr
    · cases h
  | ack =>
    simp only [step, ackStep] at h
    split at h <;> cases h
    next hpc => exact .acks hpc
  | exit =>
    simp only [step, exitStep] at h
    split at h <;> cases h
    next hpc => exact .exits hpc
  | close =>
    simp only [step, closeStep] at h
    split at h
    · next op ops hpc =>
      obtain ⟨l, hl, rfl⟩ := Option.map_eq_some_iff.mp h
      exact .closes hpc hl
    · cases h
  | interrupt =>
    cases h
    exact .interrupts
  | tick q =>
    cases h
    exact .ticks q

/-! ## What was received -/

/-- What the client's sockets send: data with a full header, or nothing. -/
def WellFormed (d : List UInt8) : Prop := d = [] ∨ DataDatagram d

/-- The datagrams that are not empty. -/
def data (rs : List (List UInt8)) : List (List UInt8) := rs.filter (!·.isEmpty)

theorem data_concat_nil (rs : List (List UInt8)) : data (rs ++ [[]]) = data rs := by
  simp [data]

theorem data_concat {d : List UInt8} (h : DataDatagram d) (rs : List (List UInt8)) :
    data (rs ++ [d]) = data rs ++ [d] := by
  simp [data, h.ne_nil]

theorem hdrCount_fst (d : List UInt8) : (hdrCount d).1 = hdrId (d.take 8) := by
  rw [hdrCount]

/-- The server after it has received the datagrams `rs`. -/
structure Received (rs : List (List UInt8)) (s : UdpMServer) : Prop where
  totals : s.server.listener.sessionList.totals = addAll (fun _ => none) ((data rs).map hdrCount)
  demuxed : Demuxed s.server ((data rs).map fun d => hdrId (d.take 8))
  hdr : ∀ hdr, s.pc = .draining hdr →
    hdr = initHdr ∨ ∃ d ∈ data rs, DataDatagram d ∧ hdr = d.take 8
  eot : s.pc = .acking ∨ s.pc = .exiting ∨ s.server.acks ≠ 0 → [] ∈ rs
  bytes : s.server.listener.sessionList.totalBytes = 8 * (data rs).length
  published : s.server.listener.totalTxRx ≤ s.server.listener.sessionList.totalBytes

/-- A step that receives nothing and leaves the table as it is. -/
theorem Received.frame {rs : List (List UInt8)} (h : Received rs s)
    (htotals : t.server.listener.sessionList.totals = s.server.listener.sessionList.totals)
    (hdemuxed : ∀ arrived, Demuxed s.server arrived → Demuxed t.server arrived)
    (hbytes : t.server.listener.sessionList.totalBytes = s.server.listener.sessionList.totalBytes)
    (hpublished : t.server.listener.totalTxRx = s.server.listener.totalTxRx ∨
      t.server.listener.totalTxRx = s.server.listener.sessionList.totalBytes)
    (hdraining : ∀ hdr, t.pc = .draining hdr → s.pc = .draining hdr ∨ hdr = initHdr)
    (heot : t.pc = .acking ∨ t.pc = .exiting ∨ t.server.acks ≠ 0 →
      s.pc = .acking ∨ s.pc = .exiting ∨ s.server.acks ≠ 0) : Received rs t := by
  refine ⟨htotals.trans h.totals, hdemuxed _ h.demuxed, fun hdr hpc => ?_, fun ht => h.eot (heot ht),
    hbytes.trans h.bytes, ?_⟩
  · rcases hdraining hdr hpc with hpc | rfl
    · exact h.hdr hdr hpc
    · exact .inl rfl
  · rw [hbytes]
    rcases hpublished with hp | hp
    · rw [hp]
      exact h.published
    · exact Int.le_of_eq hp

/-- The datagrams that a step receives. -/
def arrives : UdpMLabel → List (List UInt8)
  | .recv (some (.datagram d)) => [d]
  | _ => []

theorem noticed_sessionList (s : UdpServer) :
    s.noticed.listener.sessionList = s.listener.sessionList ∧
      s.noticed.listener.totalTxRx = s.listener.totalTxRx ∧ s.noticed.acks = s.acks := by
  unfold UdpServer.noticed
  split <;> exact ⟨rfl, rfl, rfl⟩

theorem demuxed_congr {s t : UdpServer} {arrived : List Int} (h : Demuxed s arrived)
    (hlist : t.listener.sessionList = s.listener.sessionList) (hfirst : t.nSession = s.nSession) :
    Demuxed t arrived := by
  refine ⟨?_, ?_, ?_, hfirst.trans h.first⟩
  · rw [UdpServer.ids, hlist]
    exact h.ids
  · rw [hlist]
    exact h.numSessions
  · rw [hlist]
    exact h.numActiveConn

theorem closing_frame {l l' : Listener} {op : UdpClosing} (h : closing l op = some l') :
    l'.sessionList = l.sessionList ∧ l'.totalTxRx = l.totalTxRx := by
  cases op <;> simp only [closing] at h
  case lock => split at h <;> cases h; exact ⟨rfl, rfl⟩
  all_goals cases h; exact ⟨rfl, rfl⟩

theorem mStatsSession_id (q : StatsQuery) (s : Session) : (mStatsSession q s).id = s.id := by
  unfold mStatsSession
  split <;> rfl

/-- Ids and totals stay what they are. -/
theorem keyed_tick (q : Nat → StatsQuery) (l : Listener) :
    (tbSetMStats q l).sessionList.sessions.map (fun s => (s.id, s.totalBytes)) =
      l.sessionList.sessions.map fun s => (s.id, s.totalBytes) := by
  apply List.ext_getElem?
  intro k
  have h := tbSetMStats_session? q l k
  simp only [Listener.session?] at h
  rw [List.getElem?_map, List.getElem?_map, h, Option.map_map]
  congr 1
  funext s
  exact Prod.ext (mStatsSession_id (q k) s) (mStatsSession_totalBytes (q k) s)

theorem totals_eq_keyed (list : SessionList) :
    list.totals = fun id =>
      ((list.sessions.map fun s => (s.id, s.totalBytes)).find? (·.1 == id)).map (·.2) := by
  funext id
  rw [SessionList.totals, List.find?_map, Option.map_map]
  rfl

theorem totals_tick (q : Nat → StatsQuery) (l : Listener) :
    (tbSetMStats q l).sessionList.totals = l.sessionList.totals := by
  rw [totals_eq_keyed, totals_eq_keyed, keyed_tick]

theorem demuxed_tick (q : Nat → StatsQuery) {s : UdpServer} {arrived : List Int}
    (h : Demuxed s arrived) :
    Demuxed { s with listener := tbSetMStats q s.listener } arrived := by
  refine ⟨?_, h.numSessions, h.numActiveConn, h.first⟩
  have hids := congrArg (List.map Prod.fst) (keyed_tick q s.listener)
  rw [List.map_map, List.map_map] at hids
  exact hids.trans h.ids

theorem Received.length_hdr {rs : List (List UInt8)} (h : Received rs s) {hdr : List UInt8}
    (hpc : s.pc = .draining hdr) : hdr.length = 8 := by
  rcases h.hdr hdr hpc with rfl | ⟨d, -, hd, rfl⟩
  · rfl
  · have := hd.length
    rw [List.length_take]
    omega

/-- **Step.** Whatever was in the header buffers, a datagram is counted for the id it carries, and an
empty one counts nothing. -/
theorem Received.step {rs : List (List UInt8)} (h : Received rs s) {l : UdpMLabel}
    (hl : ∀ d ∈ arrives l, WellFormed d) (ht : step s l = some t) : Received (rs ++ arrives l) t := by
  cases step_moves ht with
  | tests hpc pc hquiet hpc' =>
    simp only [arrives, List.append_nil]
    refine h.frame rfl (fun _ => id) rfl (.inl rfl) (fun hdr hd => absurd hd (hquiet hdr)) ?_
    rcases hpc' with rfl | ⟨-, rfl⟩ <;> rintro (hpc | hpc | hacks) <;>
      first | cases hpc | exact .inr (.inr hacks)
  | begins hpc =>
    obtain ⟨hlist, htotal, hacks⟩ := noticed_sessionList s.server
    simp only [arrives, List.append_nil]
    refine h.frame (by rw [hlist]) (fun _ => Demuxed.noticed) (by rw [hlist]) (.inl htotal)
      (fun hdr hd => .inr (by cases hd; rfl)) ?_
    rintro (hpc | hpc | hack)
    · cases hpc
    · cases hpc
    · exact .inr (.inr (hacks ▸ hack))
  | idles hpc | breaks hpc =>
    simp only [arrives, List.append_nil]
    refine h.frame rfl (fun _ => id) rfl (.inl rfl) (by rintro _ ⟨⟩) ?_
    rintro (hpc | hpc | hack)
    · cases hpc
    · cases hpc
    · exact .inr (.inr hack)
  | @drained r hdr hpc hr =>
    have hnone : arrives (.recv r) = [] := by
      rcases r with _ | (d | _)
      · rfl
      · exact absurd rfl (hr d)
      · rfl
    rw [hnone, List.append_nil]
    refine h.frame rfl (fun _ => id) rfl (.inl rfl) (by rintro _ ⟨⟩) ?_
    rintro (hpc | hpc | hack)
    · cases hpc
    · cases hpc
    · exact .inr (.inr hack)
  | acks hpc =>
    simp only [arrives, List.append_nil]
    exact h.frame rfl (fun _ hd => demuxed_congr hd rfl rfl) rfl (.inl rfl) (by rintro _ ⟨⟩)
      (fun _ => .inl hpc)
  | exits hpc =>
    simp only [arrives, List.append_nil]
    exact h.frame rfl (fun _ hd => demuxed_congr hd rfl rfl) rfl (.inl rfl) (by rintro _ ⟨⟩)
      (fun _ => .inr (.inl hpc))
  | closes hpc hop =>
    obtain ⟨hlist, htotal⟩ := closing_frame hop
    simp only [arrives, List.append_nil]
    refine h.frame (by rw [hlist]) (fun _ hd => demuxed_congr hd hlist rfl) (by rw [hlist]) (.inl htotal)
      (by rintro _ ⟨⟩) ?_
    rintro (hpc | hpc | hack)
    · cases hpc
    · cases hpc
    · exact .inr (.inr hack)
  | interrupts =>
    simp only [arrives, List.append_nil]
    exact h.frame rfl (fun _ hd => demuxed_congr hd rfl rfl) rfl (.inl rfl) (fun hdr hd => .inl hd) id
  | ticks q =>
    simp only [arrives, List.append_nil]
    exact h.frame (totals_tick q _) (fun _ => demuxed_tick q) (tbSetMStats_totalBytes q _)
      (.inr (tbSetMStats_totalTxRx q _)) (fun hdr hd => .inl hd) id
  | @counts hdr d hpc hsz =>
    have hwell := hl d (by simp [arrives])
    simp only [arrives]
    rcases hwell with rfl | hd
    · -- the size of an earlier datagram is still in the buffers
      rw [readsData, recvHdr_nil] at hsz
      obtain rfl | ⟨d, hmem, hd, rfl⟩ := h.hdr hdr hpc
      · exact absurd hsz (by decide)
      have hrc : recvRc (d.take 8) [] = 0 := by
        unfold recvRc
        rw [List.length_nil]
        omega
      rw [recvHdr_nil, hrc]
      have harrived : hdrId (d.take 8) ∈ (data rs).map fun d => hdrId (d.take 8) :=
        List.mem_map_of_mem hmem
      obtain ⟨n, hkey⟩ : ∃ n, s.server.listener.sessionList.totals (hdrId (d.take 8)) = some n := by
        rw [h.totals, ← hdrCount_fst]
        exact addAll_of_mem _ (List.mem_map_of_mem (f := hdrCount) hmem)
      refine ⟨?_, ?_, ?_, ?_, ?_, ?_⟩
      · rw [recvData_totals, data_concat_nil, ← h.totals]
        exact add_zero_of_some hkey
      · rw [data_concat_nil]
        exact (h.demuxed.recvData (hdrId (d.take 8)) 0).of_mem harrived
      · intro hdr hpc'
        cases hpc'
        exact .inr ⟨d, by rw [data_concat_nil]; exact hmem, hd, rfl⟩
      · rintro (hpc' | hpc' | hack)
        · cases hpc'
        · cases hpc'
        · exact List.mem_append_right _ (List.mem_singleton.mpr rfl)
      · rw [recvData_totalBytes, Int.add_zero, data_concat_nil]
        exact h.bytes
      · rw [recvData_totalBytes, Int.add_zero]
        exact h.published
    · have hlen := h.length_hdr hpc
      rw [hd.recvHdr_eq hlen, hd.recvRc_eq hlen]
      refine ⟨?_, ?_, ?_, ?_, ?_, ?_⟩
      · rw [recvData_totals, h.totals, data_concat hd, List.map_append, addAll_append]
        simp only [List.map_cons, List.map_nil, addAll_cons, addAll_nil, hdrCount]
      · simp only [data_concat hd, List.map_append, List.map_cons, List.map_nil]
        exact h.demuxed.recvData (hdrId (d.take 8)) 8
      · intro hdr' hpc'
        cases hpc'
        exact .inr ⟨d, by simp [data_concat hd], hd, rfl⟩
      · rintro (hpc' | hpc' | hack)
        · cases hpc'
        · cases hpc'
        · exact List.mem_append_left _ (h.eot (.inr (.inr hack)))
      · rw [recvData_totalBytes, h.bytes, data_concat hd, List.length_append, List.length_singleton]
        omega
      · rw [recvData_totalBytes]
        exact Int.le_trans h.published (Int.le_add_of_nonneg_right (by decide))
  | @notices hdr d hpc hsz =>
    have hnil : d = [] := by
      refine (hl d (by simp [arrives])).resolve_right fun hd => hsz ?_
      rw [readsData, hd.recvHdr_eq (h.length_hdr hpc)]
      exact hd.sz
    subst hnil
    simp only [arrives]
    refine ⟨?_, ?_, by rintro _ ⟨⟩, fun _ => by simp, ?_, h.published⟩ <;> rw [data_concat_nil]
    · exact h.totals
    · exact h.demuxed
    · exact h.bytes

theorem received_init {l : Listener} (h : l.totalTxRx = 0) : Received [] (init l) := by
  refine ⟨rfl, ⟨rfl, rfl, rfl, rfl⟩, by rintro _ ⟨⟩, ?_, rfl, Int.le_of_eq h⟩
  rintro (hpc | hpc | hack)
  · cases hpc
  · cases hpc
  · exact absurd rfl hack

/-! ## The end of transmission -/

/-- The server stops only after an acknowledgement. -/
structure Answered (s : UdpMServer) : Prop where
  command : s.server.listener.command.eLoop = true → s.server.acks ≠ 0
  exiting : s.pc = .exiting → s.server.acks ≠ 0
  left : s.pc.left = true → s.server.acks ≠ 0

theorem closing_command {l l' : Listener} {op : UdpClosing} (h : UdpMServer.closing l op = some l') :
    l'.command = l.command := by
  cases op <;> simp only [UdpMServer.closing] at h
  case lock => split at h <;> cases h; rfl
  all_goals cases h; rfl

theorem Answered.step (h : Answered s) {l : UdpMLabel} (hint : l ≠ .interrupt)
    (hpoll : l ≠ .poll .broken) (ht : step s l = some t) : Answered t := by
  cases step_moves ht with
  | tests hpc pc hquiet hpc' =>
    rcases hpc' with rfl | ⟨hcmd, rfl⟩
    · exact ⟨h.command, by rintro ⟨⟩, by rintro ⟨⟩⟩
    · exact ⟨h.command, by rintro ⟨⟩, fun _ => h.command hcmd⟩
  | begins hpc =>
    have hcmd : s.server.noticed.listener.command = s.server.listener.command := by
      unfold UdpServer.noticed
      dsimp only
      split <;> rfl
    refine ⟨?_, by rintro ⟨⟩, by rintro ⟨⟩⟩
    rw [hcmd]
    exact h.command
  | idles | counts | notices | drained => exact ⟨h.command, by rintro ⟨⟩, by rintro ⟨⟩⟩
  | breaks => exact absurd rfl hpoll
  | acks hpc =>
    exact ⟨fun _ => Nat.succ_ne_zero _, fun _ => Nat.succ_ne_zero _, fun _ => Nat.succ_ne_zero _⟩
  | exits hpc => exact ⟨fun _ => h.exiting hpc, by rintro ⟨⟩, by rintro ⟨⟩⟩
  | closes hpc hop =>
    refine ⟨?_, by rintro ⟨⟩, fun _ => h.left (by rw [hpc]; rfl)⟩
    dsimp only
    rw [closing_command hop]
    exact h.command
  | interrupts => exact absurd rfl hint
  | ticks q => exact ⟨h.command, h.exiting, h.left⟩

/-- The acknowledgements that a step sends. -/
def acknowledges : UdpMLabel → Nat
  | .ack => 1
  | _ => 0

theorem step_acks {l : UdpMLabel} (ht : step s l = some t) :
    t.server.acks = s.server.acks + acknowledges l := by
  cases step_moves ht with
  | begins => exact (noticed_sessionList s.server).2.2
  | _ => rfl

end UdpMServer

end TestBed
