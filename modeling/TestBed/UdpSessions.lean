import TestBed.UdpEvent

/-!
# The sessions of the UDP server

Over any number of calls of `tb_udp_event` the session list is a table of the ids that have arrived:
one session for each, in the order of first arrival (`Demuxed`). A datagram is searched for before a
session is created, so ids stay distinct, and it touches the session of its own id alone
(`recvData_session?`).
-/

namespace TestBed

open CInt Demux

/-- The header buffers as a call of `tb_udp_event` initialises them. -/
def initHdr : List UInt8 := intBytes (-1) ++ intBytes 0

/-- `*(int*)vec[0].iov_base` once a data datagram is read. -/
def datagramId (d : List UInt8) : Int := hdrId (recvHdr initHdr d)

/-- What `recvmsg` returns for a datagram. -/
def datagramRc (d : List UInt8) : Int := recvRc initHdr d

/-- Calls of `tb_udp_event` one after another, each on the datagrams then pending. -/
def udpEvents (calls : List (List (List UInt8))) (s : UdpServer) : UdpServer :=
  calls.foldl (fun s ds => (tbUdpEvent (ds.map .datagram) s).server) s

def UdpServer.ids (s : UdpServer) : List Int := s.listener.sessionList.sessions.map (·.id)

/-- The server once a call has begun. -/
def UdpServer.noticed (s : UdpServer) : UdpServer :=
  { s with listener :=
      if s.listener.status = .listening then
        { s.listener with
          status := .connected
          transferTime := tbStartTime s.listener.transferTime }
      else s.listener }

/-- The first session with an id. -/
def UdpServer.session? (s : UdpServer) (id : Int) : Option Session :=
  s.listener.sessionList.sessions.find? (·.id == id)

/-- The table after datagrams with the ids `arrived`. -/
structure Demuxed (s : UdpServer) (arrived : List Int) : Prop where
  ids : s.ids = arrived.eraseDups
  numSessions : s.listener.sessionList.numSessions = arrived.eraseDups.length
  numActiveConn : s.listener.sessionList.numActiveConn = arrived.eraseDups.length
  first : s.nSession = if arrived = [] then none else some 0

/-! ## One datagram -/

theorem eraseDups_concat (ids : List Int) (id : Int) :
    (ids ++ [id]).eraseDups = if id ∈ ids then ids.eraseDups else ids.eraseDups ++ [id] := by
  rw [List.eraseDups_append]
  split
  · next h => simp [List.removeAll, h]
  · next h => simp [List.removeAll, h, List.eraseDups_cons]

theorem search_isSome {list : SessionList} {id : Int} :
    (tbSessionListSearch list id).isSome = true ↔ id ∈ list.sessions.map (·.id) := by
  simp [tbSessionListSearch, List.findIdx?_isSome]

theorem map_id_modify (ss : List Session) (k : Nat) (rc : Int) :
    (ss.modify k (Session.addBytes rc)).map (·.id) = ss.map (·.id) := by
  induction ss generalizing k with
  | nil => cases k <;> rfl
  | cons s ss ih =>
    cases k with
    | zero => rfl
    | succ k => simp [ih]

theorem Demuxed.recvData {s : UdpServer} {arrived : List Int} (h : Demuxed s arrived) (id rc : Int) :
    Demuxed (s.recvData id rc) (arrived ++ [id]) := by
  have hmem : id ∈ s.listener.sessionList.sessions.map (·.id) ↔ id ∈ arrived := by
    have hids : s.listener.sessionList.sessions.map (·.id) = arrived.eraseDups := h.ids
    rw [hids, List.mem_eraseDups]
  have hlen : s.listener.sessionList.sessions.length = arrived.eraseDups.length := by
    rw [← h.ids, UdpServer.ids, List.length_map]
  cases hk : tbSessionListSearch s.listener.sessionList id with
  | some k =>
    have harrived : id ∈ arrived := hmem.mp (search_isSome.mp (by rw [hk]; rfl))
    have hdups : (arrived ++ [id]).eraseDups = arrived.eraseDups := by
      rw [eraseDups_concat, if_pos harrived]
    have hne : arrived ≠ [] := List.ne_nil_of_mem harrived
    refine ⟨?_, ?_, ?_, ?_⟩
    · simp only [UdpServer.ids, UdpServer.recvData, findOrCreate, hk, map_id_modify, hdups]
      exact h.ids
    · simp only [UdpServer.recvData, findOrCreate, hk, hdups, h.numSessions]
    · simp only [UdpServer.recvData, findOrCreate, hk, hdups, h.numActiveConn]
    · simp [UdpServer.recvData, findOrCreate, hk, h.first, hne]
  | none =>
    have hnew : id ∉ arrived := by
      intro harrived
      have hsome := search_isSome.mpr (hmem.mpr harrived)
      rw [hk] at hsome
      cases hsome
    have hdups : (arrived ++ [id]).eraseDups = arrived.eraseDups ++ [id] := by
      rw [eraseDups_concat, if_neg hnew]
    refine ⟨?_, ?_, ?_, ?_⟩
    · simp only [UdpServer.ids, UdpServer.recvData, findOrCreate, hk, map_id_modify, hdups,
        tbSessionListInc_sessions, tbSessionAddTo, List.map_append, List.map_cons, List.map_nil]
      exact congrArg (· ++ [id]) h.ids
    · simp [UdpServer.recvData, findOrCreate, hk, hdups, tbSessionListInc, tbSessionAddTo,
        h.numSessions]
    · simp [UdpServer.recvData, findOrCreate, hk, hdups, tbSessionListInc, tbSessionAddTo,
        h.numActiveConn]
    · -- the first session of all is at position 0
      by_cases hnil : arrived = []
      · subst hnil
        simp [UdpServer.recvData, findOrCreate, hk, h.first, hlen]
      · simp [UdpServer.recvData, findOrCreate, hk, h.first, hnil]

/-- A datagram counts for the session of its own id, which is created if need be, and leaves all
others as they are. -/
theorem recvData_session? (s : UdpServer) (id rc i : Int) :
    (s.recvData id rc).session? i =
      if i = id then
        some (((s.session? id).getD { tbCreateSession with id := id }).addBytes rc)
      else s.session? i := by
  cases hk : tbSessionListSearch s.listener.sessionList id with
  | some k =>
    have hid : ∃ session, s.session? id = some session := by
      rw [← Option.isSome_iff_exists, UdpServer.session?, List.find?_isSome]
      have hany := congrArg Option.isSome hk
      rw [tbSessionListSearch, List.findIdx?_isSome, Option.isSome_some, List.any_eq_true] at hany
      exact hany
    obtain ⟨session, hsession⟩ := hid
    simp only [UdpServer.session?, UdpServer.recvData, findOrCreate, hk] at hsession ⊢
    rw [find?_modify_findIdx? (f := Session.addBytes rc) (fun _ => rfl) hk, hsession]
    rfl
  | none =>
    have hid : s.session? id = none := by
      rw [UdpServer.session?, List.find?_eq_none]
      simpa [tbSessionListSearch] using hk
    rw [hid]
    simp only [UdpServer.session?, UdpServer.recvData, findOrCreate, hk,
      tbSessionListInc_sessions, tbSessionAddTo, modify_length_concat, List.find?_append]
    by_cases hi : i = id
    · subst hi
      have hnone : s.listener.sessionList.sessions.find? (·.id == i) = none := hid
      simp [hnone, Session.addBytes]
    · have hne : id ≠ i := fun h => hi h.symm
      simp [hi, hne, Session.addBytes]

/-! ## A call, and a run of calls -/

/-- What a call looks at when it begins: its effect on the session list is that of its datagrams. -/
theorem tbUdpEvent_data {ds : List (List UInt8)} (hds : ∀ d ∈ ds, DataDatagram d) (s : UdpServer) :
    (tbUdpEvent (ds.map .datagram) s).server = (s.noticed).recvAll ds := by
  have hhdr : (intBytes (-1) ++ intBytes 0).length = 8 := rfl
  have hdrain := udpDrain_data hhdr hds [] s.noticed
  simp only [List.append_nil] at hdrain
  exact congrArg EventResult.server hdrain

theorem Demuxed.noticed {s : UdpServer} {arrived : List Int} (h : Demuxed s arrived) :
    Demuxed s.noticed arrived := by
  have hlist : s.noticed.listener.sessionList = s.listener.sessionList := by
    unfold UdpServer.noticed
    split <;> rfl
  refine ⟨?_, ?_, ?_, h.first⟩
  · rw [UdpServer.ids, hlist]
    exact h.ids
  · rw [hlist]
    exact h.numSessions
  · rw [hlist]
    exact h.numActiveConn

theorem DataDatagram.hdrCount_eq {d : List UInt8} (h : DataDatagram d) :
    hdrCount d = (datagramId d, datagramRc d) := by
  have hhdr : initHdr.length = 8 := rfl
  rw [hdrCount, datagramId, datagramRc, h.recvHdr_eq hhdr, h.recvRc_eq hhdr]

theorem recvAll_cons {d : List UInt8} (h : DataDatagram d) (s : UdpServer)
    (ds : List (List UInt8)) :
    s.recvAll (d :: ds) = (s.recvData (datagramId d) (datagramRc d)).recvAll ds := by
  simp only [UdpServer.recvAll, List.foldl_cons, h.hdrCount_eq]

theorem recvAll_concat {d : List UInt8} (h : DataDatagram d) (s : UdpServer)
    (ds : List (List UInt8)) :
    s.recvAll (ds ++ [d]) = (s.recvAll ds).recvData (datagramId d) (datagramRc d) := by
  simp only [UdpServer.recvAll, List.foldl_append, List.foldl_cons, List.foldl_nil, h.hdrCount_eq]

theorem Demuxed.recvAll {s : UdpServer} {arrived : List Int} (h : Demuxed s arrived)
    {ds : List (List UInt8)} (hds : ∀ d ∈ ds, DataDatagram d) :
    Demuxed (s.recvAll ds) (arrived ++ ds.map datagramId) := by
  induction ds generalizing s arrived with
  | nil =>
    rw [List.map_nil, List.append_nil]
    exact h
  | cons d ds ih =>
    obtain ⟨hd, hds⟩ := List.forall_mem_cons.mp hds
    have hnext := ih (h.recvData (datagramId d) (datagramRc d)) hds
    rw [List.append_assoc] at hnext
    rw [recvAll_cons hd]
    exact hnext

/-- The list represents what has arrived after every run of calls. -/
theorem Demuxed.udpEvents {s : UdpServer} {arrived : List Int} (h : Demuxed s arrived)
    {calls : List (List (List UInt8))} (hdata : ∀ d ∈ calls.flatten, DataDatagram d) :
    Demuxed (udpEvents calls s) (arrived ++ calls.flatten.map datagramId) := by
  induction calls generalizing s arrived with
  | nil => simpa [TestBed.udpEvents] using h
  | cons ds calls ih =>
    rw [List.flatten_cons] at hdata
    have hds : ∀ d ∈ ds, DataDatagram d := fun d hd => hdata d (List.mem_append_left _ hd)
    have hcalls : ∀ d ∈ calls.flatten, DataDatagram d :=
      fun d hd => hdata d (List.mem_append_right _ hd)
    have hcall : Demuxed (tbUdpEvent (ds.map .datagram) s).server
        (arrived ++ ds.map datagramId) := by
      rw [tbUdpEvent_data hds]
      exact h.noticed.recvAll hds
    have hnext := ih hcall hcalls
    rw [List.append_assoc, ← List.map_append] at hnext
    exact hnext

/-- `listener->session_list` is as `tb_create_listener` makes it, and `listener->curr_session` is new. -/
structure NoSessions (s : UdpServer) : Prop where
  sessions : s.listener.sessionList.sessions = []
  numSessions : s.listener.sessionList.numSessions = 0
  numActiveConn : s.listener.sessionList.numActiveConn = 0
  nSession : s.nSession = none

theorem NoSessions.demuxed {s : UdpServer} (h : NoSessions s) : Demuxed s [] where
  ids := by rw [UdpServer.ids, h.sessions]; rfl
  numSessions := h.numSessions
  numActiveConn := h.numActiveConn
  first := h.nSession

/-- What the last datagram `d` of a run makes of the server `s`. -/
structure CountsFor (d : List UInt8) (s t : UdpServer) : Prop where
  own : (t.session? (datagramId d)).map (·.totalBytes) =
    some (((s.session? (datagramId d)).map (·.totalBytes)).getD 0 + datagramRc d)
  others : ∀ i, i ≠ datagramId d → t.session? i = s.session? i

theorem countsFor_recvData (d : List UInt8) (s : UdpServer) :
    CountsFor d s (s.recvData (datagramId d) (datagramRc d)) := by
  constructor
  · rw [recvData_session?, if_pos rfl]
    cases s.session? (datagramId d) with
    | none => rfl
    | some session => rfl
  · intro i hi
    rw [recvData_session?, if_neg hi]

/-- The total of a session is the sum of what `recvmsg` returned for its id. -/
theorem NoSessions.udpEvents_total {s : UdpServer} (hs : NoSessions s)
    {calls : List (List (List UInt8))} (hdata : ∀ d ∈ calls.flatten, DataDatagram d) {i : Int}
    (hi : i ∈ calls.flatten.map datagramId) :
    ((udpEvents calls s).session? i).map (·.totalBytes) =
      some (((calls.flatten.filter (datagramId · = i)).map datagramRc).sum) := by
  have hcounts : calls.flatten.map hdrCount =
      calls.flatten.map fun d => (datagramId d, datagramRc d) :=
    List.map_congr_left fun d hd => (hdata d hd).hdrCount_eq
  have hstart : s.listener.sessionList.totals = fun _ => none := by
    funext i
    simp [SessionList.totals, hs.sessions]
  have htotals := congrFun (udpEvents_totals calls hdata s) i
  have hfilter : (calls.flatten.map fun d => (datagramId d, datagramRc d)).filter (·.1 = i) =
      (calls.flatten.filter (datagramId · = i)).map fun d => (datagramId d, datagramRc d) := by
    simp only [List.filter_map, Function.comp_def]
  rw [hcounts, hstart, addAll_apply, hfilter] at htotals
  obtain ⟨d, hd, hdi⟩ := List.mem_map.mp hi
  have hne : ((calls.flatten.filter (datagramId · = i)).map
      fun d => (datagramId d, datagramRc d)) ≠ [] := by
    have hmem : d ∈ calls.flatten.filter (datagramId · = i) :=
      List.mem_filter.mpr ⟨hd, by simpa using hdi⟩
    exact List.ne_nil_of_mem (List.mem_map_of_mem hmem)
  rw [if_neg hne, List.map_map] at htotals
  refine htotals.trans ?_
  simp [Function.comp_def]

/-- **UDP demultiplexing is exact.** After any calls of `tb_udp_event` on data datagrams, starting with
no session, there is one session for each id, in the order of first arrival; both counters say how
many; `curr_session` leads to the first; the total of a session is the sum of what `recvmsg` returned
for its id. A datagram at the end of the last call adds its own to the session of its id and leaves
every other session alone. -/
theorem udp_demultiplexes (s : UdpServer) (hs : NoSessions s) (calls : List (List (List UInt8)))
    (hdata : ∀ d ∈ calls.flatten, DataDatagram d) :
    Demuxed (udpEvents calls s) (calls.flatten.map datagramId) ∧
    (∀ i ∈ calls.flatten.map datagramId,
      ((udpEvents calls s).session? i).map (·.totalBytes) =
        some (((calls.flatten.filter (datagramId · = i)).map datagramRc).sum)) ∧
    ∀ pre ds d, calls = pre ++ [ds ++ [d]] →
      CountsFor d (udpEvents (pre ++ [ds]) s) (udpEvents calls s) := by
  refine ⟨by simpa using hs.demuxed.udpEvents hdata, fun i hi => hs.udpEvents_total hdata hi, ?_⟩
  rintro pre ds d rfl
  have hlast : ∀ d' ∈ ds ++ [d], DataDatagram d' := fun d' hd' => hdata d' (by
    rw [List.flatten_append]
    exact List.mem_append_right _ (by simpa using hd'))
  have hds : ∀ d' ∈ ds, DataDatagram d' := fun d' hd' => hlast d' (List.mem_append_left _ hd')
  have hd : DataDatagram d := hlast d (by simp)
  simp only [udpEvents, List.foldl_append, List.foldl_cons, List.foldl_nil]
  rw [tbUdpEvent_data hlast, tbUdpEvent_data hds, recvAll_concat hd]
  exact countsFor_recvData d _

/-- A datagram of one byte. -/
def byteDatagram (id : Int) : List UInt8 := intBytes id ++ intBytes 1 ++ [0]

/-- Two calls bring two datagrams of session 7 and one of session 3; `recvmsg` returns the eight bytes of
their headers. -/
theorem udp_demultiplexes_seven_three :
    let s := udpServerStart (tbCreateListener .mServer .udp 1408)
    let t := udpEvents [[byteDatagram 7, byteDatagram 3], [byteDatagram 7]] s
    t.ids = [7, 3] ∧ t.listener.sessionList.numSessions = 2 ∧
      (t.session? 7).map (·.totalBytes) = some 16 ∧ (t.session? 3).map (·.totalBytes) = some 8 ∧
      CountsFor (byteDatagram 7) (udpEvents [[byteDatagram 7, byteDatagram 3], []] s) t := by
  intro s t
  have hdata : ∀ d ∈ [[byteDatagram 7, byteDatagram 3], [byteDatagram 7]].flatten,
      DataDatagram d := by
    have h7 : DataDatagram (byteDatagram 7) := by decide
    have h3 : DataDatagram (byteDatagram 3) := by decide
    simp [h7, h3]
  obtain ⟨hdemuxed, htotals, hlast⟩ := udp_demultiplexes s ⟨rfl, rfl, rfl, rfl⟩
    [[byteDatagram 7, byteDatagram 3], [byteDatagram 7]] hdata
  exact ⟨hdemuxed.ids.trans (by decide), hdemuxed.numSessions.trans (by decide),
    (htotals 7 (by decide)).trans (by decide), (htotals 3 (by decide)).trans (by decide),
    hlast [[byteDatagram 7, byteDatagram 3]] [] (byteDatagram 7) rfl⟩

end TestBed
