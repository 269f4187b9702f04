import TestBed.UdpSend
import TestBed.UdpEvent

/-!
# The totals of a UDP client and its server

A session of the client counts header and payload of the datagrams that its loop sends. The server
counts the header of every datagram, because `msg_iovlen` is 2, and it counts the session's final
message too. The two totals agree for very short slices only (`udp_totals_agree_iff`).
-/

namespace TestBed

open CInt Demux

def UdpMsg.wire (mem : List UInt8) (m : UdpMsg) : List UInt8 :=
  intBytes m.id ++ intBytes m.sz ++ m.payload mem

def UdpConn.messages (c : UdpConn) : List UdpMsg := c.sentMsgs ++ c.exitMsg

def udpConnRun (fuel : Nat) (s : Session) : Option (Session × UdpConn) :=
  (udpConnLoop fuel s).bind fun x => udpConnStep x.1 x.2 .finish

/-- The server after the events whose datagrams are given. -/
def udpServe (batches : List (List (List UInt8))) (s : UdpServer) : UdpServer :=
  batches.foldl (fun s ds => (tbUdpEvent (ds.map .datagram) s).server) s

/-- Packet and slice sizes for which both sides count the same: with `n` packets for eight bytes, the
slice is `8 * n` bytes long, or up to eight bytes longer if the packet size divides eight. -/
def TotalsAgree (packSize dataSize : Int) : Prop :=
  let n := (packSize + 7) / packSize
  dataSize = 8 * n ∨ (packSize ∣ 8 ∧ 8 * n ≤ dataSize ∧ dataSize ≤ 8 * n + 8)

instance (packSize dataSize : Int) : Decidable (TotalsAgree packSize dataSize) := by
  unfold TotalsAgree
  infer_instance

structure RunEnd (s : Session) (k : Nat) (x : Session × UdpConn) : Prop where
  total : x.1.totalBytes = k * (headerLen + s.packSize) + asInt (headerLen + lastLen s k)
  total_lt : k * (headerLen + s.packSize) < s.dataSize
  length : x.2.messages.length = k + 2
  labelled : ∀ m ∈ x.2.messages, Labelled s m
  ends : s.dataSize ≤ k * (headerLen + s.packSize) + headerLen + lastLen s k ∨
    2 ^ 31 ≤ headerLen + lastLen s k
  fits : 0 < k → headerLen + s.packSize < 2 ^ 31

theorem udpConnRun_runEnd {s : Session} (hs : UdpSized s) {fuel : Nat} {x : Session × UdpConn}
    (hx : udpConnRun fuel s = some x) : ∃ k, RunEnd s k x := by
  obtain ⟨y, hy, hfin⟩ := Option.bind_eq_some_iff.mp hx
  obtain ⟨k, ms, m, hend⟩ := udpConnLoop_loopEnd hs hy
  simp only [udpConnStep, if_pos hend.pc, Option.some.injEq] at hfin
  subst hfin
  refine ⟨k, by rw [hend.session], hend.total_lt, ?_, ?_, hend.ends, hend.fits⟩
  · simp [UdpConn.messages, hend.msgs, hend.length]
  · intro m' hm'
    apply hend.labelled
    simp only [UdpConn.messages, hend.msgs, hend.msg] at hm'
    simp at hm' ⊢
    tauto

/-! ## The arithmetic of the two totals -/

/-- Eight bytes take `k + 1` packets. -/
theorem packets_eq_iff {P : Int} (hP : 1 ≤ P) (k : Int) :
    (P + 7) / P = k + 1 ↔ k * P < 8 ∧ 8 ≤ k * P + P := by
  have hmul : (k + 1) * P = k * P + P := by ring
  have hmul' : (k + 1 + 1) * P = k * P + P + P := by ring
  have hle : k + 1 ≤ (P + 7) / P ↔ (k + 1) * P ≤ P + 7 := Int.le_ediv_iff_mul_le (by omega)
  have hlt : (P + 7) / P < k + 1 + 1 ↔ P + 7 < (k + 1 + 1) * P := Int.ediv_lt_iff_lt_mul (by omega)
  omega

/-- A session of `k` full datagrams and one more sends eight payload bytes. -/
theorem payload_eight_iff {P D k : Int} (hP : 1 ≤ P) (hk : 0 ≤ k) (hlt : 8 * k + k * P < D)
    (hends : D ≤ 8 * k + k * P + 8 + min (D - (8 * k + k * P)) P) :
    k * P + min (D - (8 * k + k * P)) P = 8 ↔ TotalsAgree P D := by
  have hkP : 0 ≤ k * P := Int.mul_nonneg hk (by omega)
  constructor
  · intro h
    have hn : (P + 7) / P = k + 1 := (packets_eq_iff hP k).mpr (by omega)
    simp only [TotalsAgree, hn]
    rcases Int.le_total P (D - (8 * k + k * P)) with hfull | hshort
    · right
      refine ⟨⟨k + 1, ?_⟩, by omega, by omega⟩
      have : P * (k + 1) = k * P + P := by ring
      omega
    · left
      omega
  · intro h
    obtain ⟨n, hn⟩ : ∃ n, (P + 7) / P = n + 1 := ⟨(P + 7) / P - 1, by omega⟩
    obtain ⟨hlo, hhi⟩ := (packets_eq_iff hP n).mp hn
    simp only [TotalsAgree, hn] at h
    -- the loop ends after `n` full datagrams
    have hge : k < n + 1 := by
      by_contra hgt
      have := Int.mul_le_mul_of_nonneg_right (by omega : n + 1 ≤ k) (by omega : 0 ≤ P)
      have hmul : (n + 1) * P = n * P + P := by ring
      omega
    have hle : n ≤ k := by
      by_contra hgt
      have := Int.mul_le_mul_of_nonneg_right (by omega : k + 1 ≤ n) (by omega : 0 ≤ P)
      have hmul : (k + 1) * P = k * P + P := by ring
      omega
    obtain rfl : k = n := by omega
    rcases h with h | ⟨⟨c, hc⟩, hD, hD'⟩
    · omega
    · -- `pack_size` divides eight, so the packets take exactly eight bytes
      have hck : c = k + 1 := by
        have hc' : 8 = c * P := by rw [hc]; ring
        by_contra hne
        rcases Int.lt_or_gt_of_ne hne with hlt' | hgt
        · have := Int.mul_le_mul_of_nonneg_right (by omega : c ≤ k) (by omega : 0 ≤ P)
          omega
        · have := Int.mul_le_mul_of_nonneg_right (by omega : k + 2 ≤ c) (by omega : 0 ≤ P)
          have hmul : (k + 2) * P = k * P + P + P := by ring
          omega
      have hmul : P * c = k * P + P := by rw [hck]; ring
      omega

theorem RunEnd.total_iff {s : Session} {k : Nat} {x : Session × UdpConn} (h : RunEnd s k x)
    (hs : UdpSized s) : x.1.totalBytes = 8 * (k + 2) ↔ TotalsAgree s.packSize s.dataSize := by
  have hmul : (k : Int) * (headerLen + s.packSize) = 8 * k + k * s.packSize := by
    unfold headerLen
    ring
  have hpack := hs.packSize_pos
  have hpack' := hs.packSize_lt
  have hlt := h.total_lt
  have hends := h.ends
  have hlast : lastLen s k = min (s.dataSize - (8 * k + k * s.packSize)) s.packSize := by
    rw [lastLen, hmul]
  rw [h.total, hmul]
  rw [hmul] at hlt hends
  by_cases hwrap : headerLen + lastLen s k < 2 ^ 31
  · have hiff := payload_eight_iff hpack (Int.natCast_nonneg k) hlt
      (by unfold headerLen at *; omega)
    rw [asInt_eq (by unfold headerLen; omega) hwrap, ← hiff, hlast]
    unfold headerLen
    omega
  · -- a datagram of two gigabytes: it is the only one, and its count is negative
    have hk : k = 0 := by
      have := h.fits
      omega
    subst hk
    have hn : (s.packSize + 7) / s.packSize = 0 + 1 :=
      (packets_eq_iff hpack 0).mpr (by unfold headerLen at *; omega)
    rw [asInt_wrap (by omega) (by unfold headerLen; omega)]
    simp only [TotalsAgree, hn]
    unfold headerLen at *
    omega

/-! ## Both sides -/

theorem hdr_wire {mem : List UInt8} {s : Session} {m : UdpMsg} (hm : Labelled s m)
    (hpack : s.packSize < 2 ^ 31) (hid : -2 ^ 31 ≤ s.id) (hid' : s.id < 2 ^ 31) :
    DataDatagram (m.wire mem) ∧ (hdrCount (m.wire mem)).1 = s.id := by
  have htake : (m.wire mem).take 8 = intBytes m.id ++ intBytes m.sz :=
    List.take_left' (by simp)
  have h1 := hm.len_pos
  have h2 := hm.len_le
  refine ⟨⟨?_, ?_⟩, ?_⟩
  · simp [UdpMsg.wire]
    omega
  · rw [htake, hdrSz, List.drop_left' (length_intBytes m.id), hm.sz,
      intOfBytes_intBytes (by omega) (by omega)]
    omega
  · simp only [hdrCount]
    rw [htake, hdrId, List.take_left' (length_intBytes m.id), hm.id,
      intOfBytes_intBytes hid hid']

/-- **When client and server agree.** Sessions with distinct ids send all their messages, which reach
the server in any interleaving and split over any calls of `tb_udp_event`. The server's total for each
session's id equals that of the session if and only if the sizes of every session are such that eight
payload bytes are sent. -/
theorem udp_totals_agree_iff (mem : List UInt8) (ss : List Session)
    (hs : ∀ s ∈ ss, UdpSized s ∧ -2 ^ 31 ≤ s.id ∧ s.id < 2 ^ 31) (hids : (ss.map (·.id)).Nodup)
    (client : Session → Session × UdpConn)
    (hclient : ∀ s ∈ ss, ∃ fuel, udpConnRun fuel s = some (client s))
    (batches : List (List (List UInt8)))
    (hnet : Interleaving (ss.map fun s => (client s).2.messages.map (·.wire mem)) batches.flatten)
    (l : Listener) :
    (∀ s ∈ ss, (udpServe batches (udpServerStart l)).listener.sessionList.totals s.id =
        some (client s).1.totalBytes) ↔
      ∀ s ∈ ss, TotalsAgree s.packSize s.dataSize := by
  have hrun : ∀ s ∈ ss, ∃ k, RunEnd s k (client s) := fun s hmem => by
    obtain ⟨fuel, hfuel⟩ := hclient s hmem
    exact udpConnRun_runEnd (hs s hmem).1 hfuel
  have hwire : ∀ s ∈ ss, ∀ d ∈ (client s).2.messages.map (·.wire mem),
      DataDatagram d ∧ (hdrCount d).1 = s.id := by
    intro s hmem d hd
    obtain ⟨m, hm, rfl⟩ := List.mem_map.mp hd
    obtain ⟨k, hend⟩ := hrun s hmem
    obtain ⟨hsized, hid, hid'⟩ := hs s hmem
    exact hdr_wire (hend.labelled m hm) hsized.packSize_lt hid hid'
  have hdata : ∀ d ∈ batches.flatten, DataDatagram d := by
    intro d hd
    obtain ⟨s, hmem, hd⟩ := List.mem_flatMap.mp (List.flatMap_def ▸ hnet.perm.mem_iff.mp hd)
    exact (hwire s hmem d hd).1
  have htotals : ∀ s ∈ ss, ∀ k, RunEnd s k (client s) →
      (udpServe batches (udpServerStart l)).listener.sessionList.totals s.id =
        some (8 * ((k : Int) + 2)) := by
    intro s hmem k hend
    have hne : (client s).2.messages.map (·.wire mem) ≠ [] := by
      intro hnil
      have hlen := hend.length
      rw [List.map_eq_nil_iff.mp hnil] at hlen
      simp at hlen
    have hkey : ∀ a ∈ ss, ∀ d ∈ (client a).2.messages.map (·.wire mem), (hdrCount d).1 = a.id :=
      fun a ha d hd => (hwire a ha d hd).2
    have hsum := addAll_interleaving hkey hids hnet hmem hne
      (udpServerStart l).listener.sessionList.totals
    rw [udpServe, udpEvents_totals batches hdata, hsum]
    simp [udpServerStart, SessionList.totals, hdrCount, Function.comp_def, hend.length]
    omega
  refine forall₂_congr fun s hmem => ?_
  obtain ⟨k, hend⟩ := hrun s hmem
  rw [htotals s hmem k hend, ← hend.total_iff (hs s hmem).1, Option.some.injEq]
  exact eq_comm

def udpClient (fuel : Nat) (s : Session) : Session × UdpConn :=
  (udpConnRun fuel s).getD (s, tbUdpMClientConn.start)

/-- Two sessions of eight bytes each, whose datagrams arrive one after the other in one event. -/
theorem udp_totals_agree_iff_eight_bytes :
    let ss := [udpSession 0 8 16, udpSession 1 8 16]
    let mem := List.replicate 8 7
    let sent := ss.flatMap fun s => (udpClient 2 s).2.messages.map (·.wire mem)
    ∀ s ∈ ss, (udpServe [sent] (udpServerStart (tbCreateListener .mServer .udp
      16))).listener.sessionList.totals s.id = some (udpClient 2 s).1.totalBytes :=
  (udp_totals_agree_iff (List.replicate 8 7) [udpSession 0 8 16, udpSession 1 8 16] (by decide)
    (by decide) (udpClient 2) (by
      intro s hs
      simp only [List.mem_cons, List.not_mem_nil, or_false] at hs
      rcases hs with rfl | rfl <;> exact ⟨2, rfl⟩) _ (by
      rw [List.flatten_singleton, List.flatMap_def]
      exact interleaving_flatten _) _).mpr (by decide)

/-- A session of 20 bytes in one packet: the client counts 28 bytes, the server 16. -/
theorem udp_totals_differ :
    let s := udpSession 0 20 1408
    let sent := (udpClient 2 s).2.messages.map (·.wire (List.replicate 20 7))
    (udpClient 2 s).1.totalBytes = 28 ∧
      (udpServe [sent] (udpServerStart (tbCreateListener .mServer .udp
        1408))).listener.sessionList.totals 0 = some 16 :=
  ⟨by decide, by decide⟩

end TestBed
