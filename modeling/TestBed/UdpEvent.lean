import TestBed.Monitor
import TestBed.Lib.Demux

/-!
# One event of the UDP multi-connection server

`tb_udp_event` drains the socket. It reads every datagram into the same two header buffers, which are
initialised once, and tells an empty datagram from a data datagram by the size field left there. The
session that a datagram belongs to is found by the id field; the receiver's totals are those of a
demultiplexer (`recvData_totals`).

The header buffers keep what an earlier datagram wrote, so an empty datagram is recognised only if no
data datagram came before it in the same event (`udpEvent_exit_iff`).
-/

namespace TestBed

open CInt Demux

/-- What a `recvmsg` finds: a datagram, or an error other than `EWOULDBLOCK`. -/
inductive Recv
  | datagram (bytes : List UInt8)
  | error
  deriving DecidableEq, Repr

structure UdpServer where
  listener : Listener
  /-- `listener->curr_session->n_session`, as a position in the session list. -/
  nSession : Option Nat
  acks : Nat
  deriving DecidableEq, Repr

/-- What a call leaves behind: the datagrams not read, and the value returned. -/
structure EventResult where
  server : UdpServer
  queue : List Recv
  rc : Int
  deriving DecidableEq, Repr

/-- `recvmsg` into the header buffers, of `hdr.length` bytes in all: bytes that the datagram does not
have are left alone, bytes that do not fit are discarded. -/
def recvHdr (hdr d : List UInt8) : List UInt8 := d.take hdr.length ++ hdr.drop d.length

def recvRc (hdr d : List UInt8) : Int := min hdr.length d.length

/-- `*(int*)vec[0].iov_base` -/
def hdrId (hdr : List UInt8) : Int := intOfBytes (hdr.take 4)

/-- `*(int*)vec[1].iov_base` -/
def hdrSz (hdr : List UInt8) : Int := intOfBytes (hdr.drop 4)

/-- The session with the id, which is created if there is none, and its position. -/
def findOrCreate (list : SessionList) (id : Int) : SessionList × Nat :=
  match tbSessionListSearch list id with
  | some k => (list, k)
  | none =>
    let list' := tbSessionAddTo list { tbCreateSession with id := id }
    ((tbSessionListInc list').1, list.sessions.length)

def Session.addBytes (rc : Int) (s : Session) : Session :=
  { s with totalBytes := s.totalBytes + rc }

def UdpServer.recvData (s : UdpServer) (id rc : Int) : UdpServer :=
  let (list, k) := findOrCreate s.listener.sessionList id
  let list := { list with sessions := list.sessions.modify k (Session.addBytes rc) }
  { s with
    listener := { s.listener with sessionList := list }
    nSession := some (s.nSession.getD k) }

def UdpServer.callForExit (s : UdpServer) : UdpServer :=
  { s with listener := { s.listener with command := .tbExit }, acks := s.acks + 1 }

/-- The loop of `tb_udp_event`. -/
def udpDrain (hdr : List UInt8) : List Recv → UdpServer → EventResult
  | [], s => ⟨s, [], 0⟩
  | .error :: q, s => ⟨s, q, -1⟩
  | .datagram d :: q, s =>
    let hdr' := recvHdr hdr d
    if hdrSz hdr' > 0 then udpDrain hdr' q (s.recvData (hdrId hdr') (recvRc hdr d))
    else ⟨s.callForExit, q, 0⟩

def tbUdpEvent (queue : List Recv) (s : UdpServer) : EventResult :=
  let l := s.listener
  let l := if l.status = .listening then
      { l with status := .connected, transferTime := tbStartTime l.transferTime }
    else l
  udpDrain (intBytes (-1) ++ intBytes 0) queue { s with listener := l }

/-! ## The header buffers -/

/-- A datagram with a full header whose size field is positive. -/
structure DataDatagram (d : List UInt8) : Prop where
  length : 8 ≤ d.length
  sz : 0 < hdrSz (d.take 8)

instance (d : List UInt8) : Decidable (DataDatagram d) :=
  decidable_of_iff (8 ≤ d.length ∧ 0 < hdrSz (d.take 8))
    ⟨fun ⟨h, h'⟩ => ⟨h, h'⟩, fun ⟨h, h'⟩ => ⟨h, h'⟩⟩

theorem DataDatagram.recvHdr_eq {d hdr : List UInt8} (hd : DataDatagram d) (h : hdr.length = 8) :
    recvHdr hdr d = d.take 8 := by
  have := hd.length
  rw [recvHdr, h, List.drop_eq_nil_of_le (by omega), List.append_nil]

theorem DataDatagram.recvRc_eq {d hdr : List UInt8} (hd : DataDatagram d) (h : hdr.length = 8) :
    recvRc hdr d = 8 := by
  have := hd.length
  unfold recvRc
  omega

@[simp] theorem recvHdr_nil (hdr : List UInt8) : recvHdr hdr [] = hdr := by
  simp [recvHdr]

/-! ## Draining data datagrams -/

/-- The id of a data datagram, and what it counts. -/
def hdrCount (d : List UInt8) : Int × Int := (hdrId (d.take 8), 8)

def UdpServer.recvAll (s : UdpServer) (ds : List (List UInt8)) : UdpServer :=
  ds.foldl (fun s d => s.recvData (hdrCount d).1 (hdrCount d).2) s

def hdrAfter (hdr : List UInt8) (ds : List (List UInt8)) : List UInt8 :=
  (ds.getLast?.map (·.take 8)).getD hdr

/-- Data datagrams are all received before the rest of the queue is looked at. -/
theorem udpDrain_data {hdr : List UInt8} (hhdr : hdr.length = 8) {ds : List (List UInt8)}
    (hds : ∀ d ∈ ds, DataDatagram d) (q : List Recv) (s : UdpServer) :
    udpDrain hdr (ds.map .datagram ++ q) s = udpDrain (hdrAfter hdr ds) q (s.recvAll ds) := by
  induction ds generalizing hdr s with
  | nil => rfl
  | cons d ds ih =>
    have hd := hds d (by simp)
    have hlast : hdrAfter (d.take 8) ds = hdrAfter hdr (d :: ds) := by
      cases ds <;> simp [hdrAfter, List.getLast?_cons]
    have hlen : (d.take 8).length = 8 := by
      have := hd.length
      simp
      omega
    rw [List.map_cons, List.cons_append, udpDrain]
    simp only [hd.recvHdr_eq hhdr, hd.recvRc_eq hhdr]
    rw [if_pos hd.sz, ih hlen (fun d' hd' => hds d' (List.mem_cons_of_mem d hd')), hlast]
    simp only [UdpServer.recvAll, List.foldl_cons, hdrCount]

@[simp] theorem recvData_acks (s : UdpServer) (id rc : Int) : (s.recvData id rc).acks = s.acks :=
  rfl

theorem recvAll_acks (s : UdpServer) (ds : List (List UInt8)) : (s.recvAll ds).acks = s.acks := by
  induction ds generalizing s with
  | nil => rfl
  | cons d ds ih => exact ih (s.recvData _ _)

/-- A call reads at least one datagram more than it leaves when it sends an acknowledgement. -/
theorem udpDrain_queue (hdr : List UInt8) (q : List Recv) (s : UdpServer) :
    (udpDrain hdr q s).server.acks ≠ s.acks → (udpDrain hdr q s).queue.length < q.length := by
  induction q generalizing hdr s with
  | nil => simp [udpDrain]
  | cons r q ih =>
    cases r with
    | error => simp [udpDrain]
    | datagram d =>
      intro h
      simp only [udpDrain] at h ⊢
      split at h
      · next hsz =>
        rw [if_pos hsz]
        have hlt := ih (recvHdr hdr d) (s.recvData (hdrId (recvHdr hdr d)) (recvRc hdr d)) h
        exact Nat.lt_succ_of_lt hlt
      · next hsz =>
        rw [if_neg hsz]
        simp

/-! ## The end of transmission -/

/-- The call sends the acknowledgement, sets the exit command and leaves `rest` unread. -/
structure RecognisesEot (s : UdpServer) (rest : List Recv) (r : EventResult) : Prop where
  ack : r.server.acks = s.acks + 1
  command : r.server.listener.command = .tbExit
  queue : r.queue = rest

/-- **When an empty datagram ends the transmission.** `tb_udp_event` recognises the empty datagram that
follows the data datagrams `ds` in its queue if and only if `ds` is empty. -/
theorem udpEvent_exit_iff (s : UdpServer) (ds : List (List UInt8)) (hds : ∀ d ∈ ds, DataDatagram d)
    (rest : List Recv) :
    RecognisesEot s rest (tbUdpEvent (ds.map .datagram ++ .datagram [] :: rest) s) ↔ ds = [] := by
  have hhdr : (intBytes (-1) ++ intBytes 0).length = 8 := rfl
  constructor
  · intro h
    by_contra hne
    -- the header of the last data datagram is still in the buffers
    obtain ⟨d, hlast⟩ : ∃ d, ds.getLast? = some d := ⟨_, List.getLast?_eq_some_getLast hne⟩
    have hd := hds d (List.mem_of_getLast? hlast)
    have hafter : hdrAfter (intBytes (-1) ++ intBytes 0) ds = d.take 8 := by
      simp [hdrAfter, hlast]
    unfold tbUdpEvent at h
    rw [udpDrain_data hhdr hds, hafter, udpDrain, recvHdr_nil] at h
    simp only [if_pos hd.sz] at h
    have hlt := udpDrain_queue _ _ _ (by
      rw [h.ack]
      simp only [recvData_acks, recvAll_acks]
      omega)
    rw [h.queue] at hlt
    omega
  · rintro rfl
    exact ⟨rfl, rfl, rfl⟩

def udpServerStart (l : Listener) : UdpServer where
  listener := { l with status := .listening, sessionList := ⟨-1, 0, [], 0⟩ }
  nSession := none
  acks := 0

theorem udpEvent_exit_iff_alone :
    RecognisesEot (udpServerStart (tbCreateListener .mServer .udp 1408)) [.datagram [1, 2]]
      (tbUdpEvent [.datagram [], .datagram [1, 2]]
        (udpServerStart (tbCreateListener .mServer .udp 1408))) :=
  (udpEvent_exit_iff _ [] (by simp) [.datagram [1, 2]]).mpr rfl

/-- Three bytes of data, then the empty datagram: it is taken for data of the same session. -/
theorem udpEvent_misses_exit :
    let d := intBytes 0 ++ intBytes 3 ++ [1, 2, 3]
    let r := tbUdpEvent [.datagram d, .datagram []]
      (udpServerStart (tbCreateListener .mServer .udp 1408))
    DataDatagram d ∧ r.server.acks = 0 ∧ r.server.listener.command = .tbContinue :=
  ⟨by decide, rfl, rfl⟩

/-! ## The totals of the sessions -/

/-- The total kept for an id: that of the first session with the id. -/
def SessionList.totals (list : SessionList) : Totals Int :=
  fun id => (list.sessions.find? (·.id == id)).map (·.totalBytes)

theorem find?_modify_findIdx? {ss : List Session} {id : Int} {k : Nat} {f : Session → Session}
    (hf : ∀ s, (f s).id = s.id) (hk : ss.findIdx? (·.id == id) = some k) (i : Int) :
    (ss.modify k f).find? (·.id == i) =
      if i = id then (ss.find? (·.id == id)).map f else ss.find? (·.id == i) := by
  induction ss generalizing k with
  | nil => cases hk
  | cons s ss ih =>
    rw [List.findIdx?_cons] at hk
    by_cases hs : s.id = id
    · simp only [hs, beq_self_eq_true, if_true, Option.some.injEq] at hk
      subst hk hs
      by_cases hi : i = s.id
      · simp [hf, hi]
      · have hne : s.id ≠ i := fun h => hi h.symm
        simp [hf, hi, hne]
    · simp only [beq_eq_false_iff_ne.mpr hs, Bool.false_eq_true, if_false,
        Option.map_eq_some_iff] at hk
      obtain ⟨j, hj, rfl⟩ := hk
      have := ih hj
      by_cases hi : s.id = i
      · have hne : i ≠ id := fun h => hs (hi.trans h)
        simp [hi, hne]
      · simp [hi, hs, this]

theorem modify_length_concat {α : Type} (xs : List α) (x : α) (f : α → α) :
    (xs ++ [x]).modify xs.length f = xs ++ [f x] := by
  induction xs with
  | nil => rfl
  | cons y xs ih => simp [ih]

/-- **The receiver demultiplexes.** A data datagram adds its count to the total of its id. -/
theorem recvData_totals (s : UdpServer) (id rc : Int) :
    (s.recvData id rc).listener.sessionList.totals =
      add s.listener.sessionList.totals id rc := by
  funext i
  cases hk : tbSessionListSearch s.listener.sessionList id with
  | some k =>
    have hid : ∃ session, s.listener.sessionList.sessions.find? (·.id == id) = some session := by
      rw [← Option.isSome_iff_exists, List.find?_isSome]
      have hany := congrArg Option.isSome hk
      rw [tbSessionListSearch, List.findIdx?_isSome, Option.isSome_some, List.any_eq_true] at hany
      exact hany
    obtain ⟨session, hsession⟩ := hid
    simp only [UdpServer.recvData, findOrCreate, hk, SessionList.totals, add]
    rw [find?_modify_findIdx? (f := Session.addBytes rc) (fun _ => rfl) hk]
    split
    · simp [hsession, Session.addBytes]
    · rfl
  | none =>
    have hid : s.listener.sessionList.sessions.find? (·.id == id) = none := by
      rw [List.find?_eq_none]
      simpa [tbSessionListSearch] using hk
    simp only [UdpServer.recvData, findOrCreate, hk, SessionList.totals, add,
      tbSessionListInc_sessions, tbSessionAddTo, modify_length_concat, List.find?_append]
    by_cases hi : i = id
    · subst hi
      simp [hid, tbCreateSession, Session.addBytes]
    · have hne : id ≠ i := fun h => hi h.symm
      simp [hi, hne, Session.addBytes]

theorem recvAll_totals (s : UdpServer) (ds : List (List UInt8)) :
    (s.recvAll ds).listener.sessionList.totals =
      addAll s.listener.sessionList.totals (ds.map hdrCount) := by
  induction ds generalizing s with
  | nil => rfl
  | cons d ds ih =>
    have hfirst := recvData_totals s (hdrCount d).1 (hdrCount d).2
    rw [List.map_cons, addAll_cons, ← hfirst, ← ih]
    rfl

/-- Data datagrams that are split over several events are demultiplexed all the same. -/
theorem udpEvents_totals (batches : List (List (List UInt8)))
    (hds : ∀ d ∈ batches.flatten, DataDatagram d) (s : UdpServer) :
    (batches.foldl (fun s ds => (tbUdpEvent (ds.map .datagram) s).server)
        s).listener.sessionList.totals =
      addAll s.listener.sessionList.totals
        (batches.flatten.map hdrCount) := by
  induction batches generalizing s with
  | nil => rfl
  | cons ds batches ih =>
    have hfirst : ∀ d ∈ ds, DataDatagram d := fun d hd => hds d (by simp [hd])
    have hrest : ∀ d ∈ batches.flatten, DataDatagram d := fun d hd => by
      rw [List.flatten_cons] at hds
      exact hds d (List.mem_append_right ds hd)
    rw [List.foldl_cons, ih hrest, List.flatten_cons, List.map_append, addAll_append]
    congr 1
    have hhdr : (intBytes (-1) ++ intBytes 0).length = 8 := rfl
    have hdrain := udpDrain_data hhdr hfirst []
    simp only [List.append_nil] at hdrain
    rw [tbUdpEvent, hdrain, udpDrain, recvAll_totals]
    split <;> rfl

end TestBed
