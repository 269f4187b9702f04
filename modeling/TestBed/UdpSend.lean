import TestBed.ClientThread
import Mathlib.Algebra.Order.BigOperators.Group.List
import Mathlib.Tactic.Ring
import Mathlib.Tactic.Linarith

/-!
# What a UDP session sends

The loop of `tb_udp_m_client_conn` over a `sendmsg` that accepts every message whole. Each turn adds
the header and the payload to `total_bytes`, so after `k` full datagrams the loop believes that
`k * (8 + pack_size)` bytes of the slice are gone (`LoopInv`). It ends after one more datagram
(`LoopEnd`), well before the slice is sent unless the slice fits into one datagram
(`udpSession_sends_once_iff`).
-/

namespace TestBed

open CInt Slice

def sendWhole (x : Session × UdpConn) : Option (Session × UdpConn) :=
  udpConnStep x.1 x.2 (.send (asInt (udpNextMsg x.1 x.2).size))

/-- The do/while loop; `none` when the fuel runs out. -/
def sendLoop : Nat → Session × UdpConn → Option (Session × UdpConn)
  | 0, _ => none
  | fuel + 1, x =>
    match sendWhole x with
    | none => none
    | some y => if y.2.pc = .sending then sendLoop fuel y else some y

/-- `tb_udp_m_client_conn` up to the end of its loop. -/
def udpConnLoop (fuel : Nat) (s : Session) : Option (Session × UdpConn) :=
  (udpConnStep s tbUdpMClientConn.start (.connect 0)).bind (sendLoop fuel)

/-- A session as `tb_udp_m_client` hands it to the thread. -/
structure UdpSized (s : Session) : Prop where
  data_nonneg : 0 ≤ s.data
  dataSize_pos : 1 ≤ s.dataSize
  dataSize_lt : s.dataSize < 2 ^ 63
  packSize_pos : 1 ≤ s.packSize
  packSize_lt : s.packSize < 2 ^ 31
  total : s.totalBytes = 0

instance (s : Session) : Decidable (UdpSized s) :=
  decidable_of_iff
    (0 ≤ s.data ∧ 1 ≤ s.dataSize ∧ s.dataSize < 2 ^ 63 ∧ 1 ≤ s.packSize ∧ s.packSize < 2 ^ 31 ∧
      s.totalBytes = 0)
    ⟨fun ⟨h1, h2, h3, h4, h5, h6⟩ => ⟨h1, h2, h3, h4, h5, h6⟩,
      fun ⟨h1, h2, h3, h4, h5, h6⟩ => ⟨h1, h2, h3, h4, h5, h6⟩⟩

/-- A datagram of session `s` whose header tells the length of its payload. -/
structure Labelled (s : Session) (m : UdpMsg) : Prop where
  id : m.id = s.id
  sz : m.sz = m.len
  len_pos : 1 ≤ m.len
  len_le : m.len ≤ s.packSize

/-- The length of the datagram that follows `k` full ones. -/
def lastLen (s : Session) (k : Nat) : Int :=
  min (s.dataSize - k * (headerLen + s.packSize)) s.packSize

/-- Where the loop is after `k` turns: it has sent `k` full datagrams and goes on. -/
structure LoopInv (s₀ : Session) (k : Nat) (x : Session × UdpConn) : Prop where
  pc : x.2.pc = .sending
  session : x.1 = { s₀ with
    status := .connected
    totalBytes := k * (headerLen + s₀.packSize) }
  total_lt : k * (headerLen + s₀.packSize) < s₀.dataSize
  length : x.2.sentMsgs.length = k
  labelled : ∀ m ∈ x.2.sentMsgs, Labelled s₀ m
  full : ∀ m ∈ x.2.sentMsgs, m.len = s₀.packSize
  sent : k = 0 → x.2.sent = 0
  fits : 0 < k → headerLen + s₀.packSize < 2 ^ 31

/-- Where the loop ends: after `k` full datagrams and the datagram `m`. -/
structure LoopEnd (s₀ : Session) (k : Nat) (ms : List UdpMsg) (m : UdpMsg)
    (x : Session × UdpConn) : Prop where
  pc : x.2.pc = .ending
  session : x.1 = { s₀ with
    status := .connected
    totalBytes := k * (headerLen + s₀.packSize) + asInt (headerLen + lastLen s₀ k) }
  total_lt : k * (headerLen + s₀.packSize) < s₀.dataSize
  msgs : x.2.sentMsgs = ms ++ [m]
  msg : x.2.msg = m
  length : ms.length = k
  labelled : ∀ m' ∈ ms ++ [m], Labelled s₀ m'
  full : ∀ m' ∈ ms, m'.len = s₀.packSize
  len : m.len = lastLen s₀ k
  off : k = 0 → m.off = s₀.data
  ends : s₀.dataSize ≤ k * (headerLen + s₀.packSize) + headerLen + lastLen s₀ k ∨
    2 ^ 31 ≤ headerLen + lastLen s₀ k
  fits : 0 < k → headerLen + s₀.packSize < 2 ^ 31

theorem LoopInv.lastLen_bounds {s₀ : Session} {k : Nat} {x : Session × UdpConn}
    (h : LoopInv s₀ k x) (hs : UdpSized s₀) :
    1 ≤ lastLen s₀ k ∧ lastLen s₀ k ≤ s₀.packSize := by
  have h1 := h.total_lt
  have h2 := hs.packSize_pos
  unfold lastLen
  omega

theorem LoopInv.nextMsg {s₀ : Session} {k : Nat} {x : Session × UdpConn} (h : LoopInv s₀ k x)
    (hs : UdpSized s₀) :
    udpNextMsg x.1 x.2 = ⟨s₀.id, lastLen s₀ k, s₀.data + x.2.sent, lastLen s₀ k⟩ := by
  have h1 := h.total_lt
  have h2 := hs.packSize_pos
  have h3 := hs.packSize_lt
  have h4 := hs.dataSize_lt
  have hk : 0 ≤ k * (headerLen + s₀.packSize) :=
    Int.mul_nonneg (Int.natCast_nonneg k) (by unfold headerLen; omega)
  have hlen : (if asSizeT (s₀.dataSize - k * (headerLen + s₀.packSize)) < asSizeT s₀.packSize
      then asSizeT (s₀.dataSize - k * (headerLen + s₀.packSize)) else asSizeT s₀.packSize) =
      lastLen s₀ k := by
    rw [asSizeT_eq (by omega) (by omega), asSizeT_eq (by omega) (by omega)]
    unfold lastLen
    split <;> omega
  obtain ⟨hlo, hhi⟩ := h.lastLen_bounds hs
  simp only [udpNextMsg, h.session, hlen]
  rw [asInt_eq (by omega) (by omega)]

theorem LoopInv.sendWhole_eq {s₀ : Session} {k : Nat} {x : Session × UdpConn} (h : LoopInv s₀ k x)
    (hs : UdpSized s₀) :
    let s := { x.1 with totalBytes := x.1.totalBytes + asInt (headerLen + lastLen s₀ k) }
    let m : UdpMsg := ⟨s₀.id, lastLen s₀ k, s₀.data + x.2.sent, lastLen s₀ k⟩
    sendWhole x = some (s, { x.2 with
      pc := if bytesRemain s then .sending else .ending
      sent := asInt (headerLen + lastLen s₀ k)
      msg := m
      sentMsgs := x.2.sentMsgs ++ [m] }) := by
  intro s m
  obtain ⟨hlo, hhi⟩ := h.lastLen_bounds hs
  have hpack := hs.packSize_lt
  have hrc : asInt (headerLen + lastLen s₀ k) ≠ -1 ∧
      asInt (headerLen + lastLen s₀ k) ≤ headerLen + lastLen s₀ k := by
    unfold headerLen
    by_cases hwrap : 8 + lastLen s₀ k < 2 ^ 31
    · rw [asInt_eq (by omega) hwrap]
      omega
    · rw [asInt_wrap (by omega) (by omega)]
      omega
  simp only [sendWhole, udpConnStep, h.nextMsg hs, UdpMsg.size]
  rw [if_pos h.pc, if_neg hrc.1, if_pos hrc.2]

theorem LoopInv.labelled_concat {s₀ : Session} {k : Nat} {x : Session × UdpConn}
    (h : LoopInv s₀ k x) (hs : UdpSized s₀) (off : Int) :
    ∀ m ∈ x.2.sentMsgs ++ [⟨s₀.id, lastLen s₀ k, off, lastLen s₀ k⟩], Labelled s₀ m := by
  intro m hm
  rcases List.mem_append.mp hm with hm | hm
  · exact h.labelled m hm
  · obtain ⟨hlo, hhi⟩ := h.lastLen_bounds hs
    rw [List.mem_singleton] at hm
    subst hm
    exact ⟨rfl, rfl, hlo, hhi⟩

/-- The loop goes on if bytes are left and the result of `sendmsg` was not negative as an `int`; that
can only happen to the first datagram, and makes `total_bytes` look larger than `data_size`. -/
theorem LoopInv.bytesRemain_iff {s₀ : Session} {k : Nat} {x : Session × UdpConn}
    (h : LoopInv s₀ k x) (hs : UdpSized s₀) :
    bytesRemain { x.1 with totalBytes := x.1.totalBytes + asInt (headerLen + lastLen s₀ k) } = true ↔
      headerLen + lastLen s₀ k < 2 ^ 31 ∧
        k * (headerLen + s₀.packSize) + headerLen + lastLen s₀ k < s₀.dataSize := by
  obtain ⟨hlo, hhi⟩ := h.lastLen_bounds hs
  have hlt := h.total_lt
  have hsize := hs.dataSize_lt
  have hpack := hs.packSize_lt
  have hk : 0 ≤ k * (headerLen + s₀.packSize) :=
    Int.mul_nonneg (Int.natCast_nonneg k) (by unfold headerLen; omega)
  simp only [bytesRemain, h.session, decide_eq_true_eq]
  rw [asSizeT_eq (by omega : 0 ≤ s₀.dataSize) (by omega)]
  by_cases hwrap : headerLen + lastLen s₀ k < 2 ^ 31
  · have hlast : lastLen s₀ k ≤ s₀.dataSize - k * (headerLen + s₀.packSize) := by
      unfold lastLen
      omega
    rw [asInt_eq (by unfold headerLen; omega) hwrap,
      asSizeT_eq (by unfold headerLen at *; omega) (by unfold headerLen at *; omega)]
    omega
  · have hzero : k = 0 := by
      have hfits := h.fits
      omega
    subst hzero
    rw [asInt_wrap (by omega) (by unfold headerLen; omega),
      asSizeT_neg (by unfold headerLen; omega) (by unfold headerLen; omega)]
    unfold headerLen at *
    omega

/-- **One turn of the loop.** It sends one more full datagram and goes on, or it is the last. -/
theorem LoopInv.step {s₀ : Session} {k : Nat} {x : Session × UdpConn} (h : LoopInv s₀ k x)
    (hs : UdpSized s₀) :
    ∃ y, sendWhole x = some y ∧
      (LoopInv s₀ (k + 1) y ∨ ∃ ms m, LoopEnd s₀ k ms m y) := by
  refine ⟨_, h.sendWhole_eq hs, ?_⟩
  have hiff := h.bytesRemain_iff hs
  have hlt := h.total_lt
  obtain ⟨hlo, hhi⟩ := h.lastLen_bounds hs
  have hsucc : ((k + 1 : Nat) : Int) * (headerLen + s₀.packSize) =
      k * (headerLen + s₀.packSize) + (headerLen + s₀.packSize) := by push_cast; ring
  by_cases hgo : headerLen + lastLen s₀ k < 2 ^ 31 ∧
      k * (headerLen + s₀.packSize) + headerLen + lastLen s₀ k < s₀.dataSize
  · -- bytes are left, so the datagram was a full one
    left
    have hfull : lastLen s₀ k = s₀.packSize := by
      unfold lastLen headerLen at *
      omega
    have hrc : asInt (headerLen + lastLen s₀ k) = headerLen + s₀.packSize := by
      rw [asInt_eq (by unfold headerLen; omega) hgo.1, hfull]
    refine ⟨by rw [if_pos (hiff.mpr hgo)], ?_, by omega, by simp [h.length],
      h.labelled_concat hs _, ?_, by omega, by omega⟩
    · rw [h.session, hrc, hsucc]
    · intro m hm
      rcases List.mem_append.mp hm with hm | hm
      · exact h.full m hm
      · rw [List.mem_singleton] at hm
        rw [hm]
        exact hfull
  · right
    refine ⟨x.2.sentMsgs, _, ⟨by rw [if_neg (hiff.not.mpr hgo)], by rw [h.session], hlt, rfl, rfl,
      h.length, h.labelled_concat hs _, h.full, rfl, ?_, by omega, h.fits⟩⟩
    intro hk
    simp [h.sent hk]

/-- What has been sent where the loop is left. -/
theorem LoopInv.loopEnd {s₀ : Session} (hs : UdpSized s₀) {fuel k : Nat} {x y : Session × UdpConn}
    (h : LoopInv s₀ k x) (hy : sendLoop fuel x = some y) : ∃ j ms m, LoopEnd s₀ j ms m y := by
  induction fuel generalizing k x with
  | zero => cases hy
  | succ fuel ih =>
    obtain ⟨z, hz, hgo | ⟨ms, m, hend⟩⟩ := h.step hs
    · simp only [sendLoop, hz, hgo.pc, if_true] at hy
      exact ih hgo hy
    · simp only [sendLoop, hz, hend.pc, reduceCtorEq, if_false, Option.some.injEq] at hy
      exact ⟨k, ms, m, hy ▸ hend⟩

/-- The loop is left: every turn adds at least nine bytes to `total_bytes`. -/
theorem LoopInv.ends {s₀ : Session} (hs : UdpSized s₀) {fuel k : Nat} {x : Session × UdpConn}
    (h : LoopInv s₀ k x) (hfuel : s₀.dataSize ≤ k * (headerLen + s₀.packSize) + fuel) :
    ∃ y, sendLoop fuel x = some y := by
  induction fuel generalizing k x with
  | zero =>
    have hlt := h.total_lt
    omega
  | succ fuel ih =>
    obtain ⟨y, hy, hgo | ⟨ms, m, hend⟩⟩ := h.step hs
    · have hsucc : ((k + 1 : Nat) : Int) * (headerLen + s₀.packSize) =
          k * (headerLen + s₀.packSize) + (headerLen + s₀.packSize) := by push_cast; ring
      have hpack := hs.packSize_pos
      obtain ⟨z, hz⟩ := ih hgo (by unfold headerLen at *; omega)
      exact ⟨z, by simp only [sendLoop, hy, hgo.pc, if_true, hz]⟩
    · exact ⟨y, by simp [sendLoop, hy, hend.pc]⟩

theorem loopInv_start {s : Session} (hs : UdpSized s) :
    LoopInv s 0 ({ s with status := .connected },
      { tbUdpMClientConn.start with pc := .sending, sent := 0 }) := by
  have hpos := hs.dataSize_pos
  refine ⟨rfl, ?_, by omega, rfl, ?_, ?_, fun _ => rfl, by omega⟩
  · simp [hs.total]
  · simp [tbUdpMClientConn]
  · simp [tbUdpMClientConn]

theorem udpConnLoop_ends {s : Session} (hs : UdpSized s) :
    ∃ fuel x, udpConnLoop fuel s = some x := by
  have hfuel : s.dataSize ≤ (0 : Nat) * (headerLen + s.packSize) + s.dataSize.toNat := by omega
  obtain ⟨x, hx⟩ := (loopInv_start hs).ends hs hfuel
  exact ⟨_, x, hx⟩

theorem udpConnLoop_loopEnd {s : Session} (hs : UdpSized s) {fuel : Nat}
    {x : Session × UdpConn} (hx : udpConnLoop fuel s = some x) :
    ∃ k ms m, LoopEnd s k ms m x :=
  (loopInv_start hs).loopEnd hs hx

/-! ## The payloads -/

theorem length_payloads_le (mem : List UInt8) (ms : List UdpMsg) {n : Nat}
    (h : ∀ m ∈ ms, m.len.toNat ≤ n) :
    (ms.flatMap (·.payload mem)).length ≤ ms.length * n := by
  have hlen : ∀ len ∈ ms.map (fun m => (m.payload mem).length), len ≤ n := by
    intro len hlen
    obtain ⟨m, hm, rfl⟩ := List.mem_map.mp hlen
    have : (m.payload mem).length ≤ m.len.toNat := by simp [UdpMsg.payload, slice]
    exact this.trans (h m hm)
  rw [List.length_flatMap]
  simpa using List.sum_le_card_nsmul _ n hlen

/-- After `k` full datagrams and the last one, at most `data_size - 8 * k` payload bytes are sent. -/
theorem LoopEnd.length_payloads {s : Session} {k : Nat} {ms : List UdpMsg} {m : UdpMsg}
    {x : Session × UdpConn} (h : LoopEnd s k ms m x) (mem : List UInt8) :
    (x.2.sentMsgs.flatMap (·.payload mem)).length ≤ k * s.packSize.toNat + (lastLen s k).toNat := by
  have hms := length_payloads_le mem ms fun m' hm' => Int.toNat_le_toNat (h.full m' hm').le
  have hm : (m.payload mem).length ≤ (lastLen s k).toNat := by
    simp [UdpMsg.payload, slice, h.len]
  rw [h.msgs, List.flatMap_append, List.length_append]
  rw [h.length] at hms
  simp only [List.flatMap_cons, List.flatMap_nil, List.append_nil]
  omega

/-- The datagrams of the loop are labelled and their payloads make up the slice. -/
structure SentOnce (mem : List UInt8) (s : Session) (x : Session × UdpConn) : Prop where
  labelled : ∀ m ∈ x.2.sentMsgs, Labelled s m
  payloads : x.2.sentMsgs.flatMap (·.payload mem) = slice mem s.data.toNat s.dataSize.toNat

theorem LoopEnd.sentOnce_iff {s : Session} {k : Nat} {ms : List UdpMsg} {m : UdpMsg}
    {x : Session × UdpConn} (h : LoopEnd s k ms m x) (hs : UdpSized s) {mem : List UInt8}
    (hmem : s.data + s.dataSize ≤ mem.length) : SentOnce mem s x ↔ s.dataSize ≤ s.packSize := by
  have hlt := h.total_lt
  have hpos := hs.dataSize_pos
  have hpack := hs.packSize_pos
  have hdata := hs.data_nonneg
  constructor
  · intro hsent
    -- the last datagram leaves out eight bytes for each one before it
    by_contra hgt
    have hlen := h.length_payloads mem
    rw [hsent.payloads, slice_length (by omega)] at hlen
    have hprod : (k : Int) * (headerLen + s.packSize) = 8 * k + k * s.packSize := by
      unfold headerLen
      ring
    have hcast : ((k * s.packSize.toNat : Nat) : Int) = k * s.packSize := by
      push_cast
      rw [Int.toNat_of_nonneg (by omega)]
    unfold lastLen at hlen
    cases k with
    | zero => simp at hlen; omega
    | succ k => omega
  · intro hle
    have hk : k = 0 := by
      rcases Nat.eq_zero_or_pos k with hk | hk
      · exact hk
      · have : 1 * (headerLen + s.packSize) ≤ k * (headerLen + s.packSize) :=
          Int.mul_le_mul_of_nonneg_right (by omega) (by unfold headerLen; omega)
        unfold headerLen at *
        omega
    subst hk
    have hnil : ms = [] := List.length_eq_zero_iff.mp h.length
    have hfull : lastLen s 0 = s.dataSize := by
      unfold lastLen
      omega
    refine ⟨fun m' hm' => h.labelled m' (h.msgs ▸ hm'), ?_⟩
    simp [h.msgs, hnil, UdpMsg.payload, h.off rfl, h.len, hfull]

/-- **When a UDP session sends its slice exactly once.** With a `sendmsg` that accepts every message
whole, the loop of `tb_udp_m_client_conn` ends, with every datagram labelled by the session's id and
its own length and with payloads that make up the slice, if and only if the slice fits into one
datagram. -/
theorem udpSession_sends_once_iff (mem : List UInt8) (s : Session) (hs : UdpSized s)
    (hmem : s.data + s.dataSize ≤ mem.length) :
    (∃ fuel x, udpConnLoop fuel s = some x ∧ SentOnce mem s x) ↔ s.dataSize ≤ s.packSize := by
  constructor
  · rintro ⟨fuel, x, hx, hsent⟩
    obtain ⟨k, ms, m, hend⟩ := udpConnLoop_loopEnd hs hx
    exact (hend.sentOnce_iff hs hmem).mp hsent
  · intro hle
    obtain ⟨fuel, x, hx⟩ := udpConnLoop_ends hs
    obtain ⟨k, ms, m, hend⟩ := udpConnLoop_loopEnd hs hx
    exact ⟨fuel, x, hx, (hend.sentOnce_iff hs hmem).mpr hle⟩

def udpSession (id dataSize packSize : Int) : Session :=
  { tbCreateSession with
    status := .addrRes
    id := id
    dataSize := dataSize
    packSize := packSize }

theorem udpSession_sends_once_iff_one_datagram :
    ∃ fuel x, udpConnLoop fuel (udpSession 0 20 32) = some x ∧
      SentOnce (List.replicate 20 7) (udpSession 0 20 32) x :=
  (udpSession_sends_once_iff (List.replicate 20 7) (udpSession 0 20 32) (by decide)
    (by decide)).mpr (by decide)

/-- Twenty bytes in packets of four: the loop sends the bytes 0 to 3 and 12 to 15 and ends. -/
theorem udpSession_skips_bytes :
    ∃ x, udpConnLoop 20 (udpSession 0 20 4) = some x ∧ x.2.pc = .ending ∧
      x.2.sentMsgs.flatMap (·.payload ((List.range 20).map UInt8.ofNat)) =
        [0, 1, 2, 3, 12, 13, 14, 15] ∧
      slice ((List.range 20).map UInt8.ofNat) 0 20 = (List.range 20).map UInt8.ofNat :=
  ⟨_, rfl, rfl, by decide, by decide⟩

end TestBed
