import TestBed.MClientRun
import Mathlib.Tactic.Ring
import Mathlib.Tactic.Linarith

/-!
# What the stream clients send

The loop shared by `tb_stream_connection` and `tb_udt_m_connection` keeps one invariant (`SendInv`):
the pieces that the socket has accepted tile the session's slice up to `total_bytes`, and every range
requested lies inside the slice. The request size is only ever lowered, so it stays between 0 and the
packet size; it is lowered exactly when less than a packet remains, so it never passes the end.

With it, the four slices that the parent cuts tile the file (`mClient_sends_file_once`).
-/

namespace TestBed

open CInt Transition Slice MClientProg

/-! ## One thread -/

/-- The invariant of one sending thread and its session. -/
structure SendInv (s : Session) (c : SendConn) : Prop where
  total_nonneg : 0 ≤ s.totalBytes
  total_le : s.totalBytes ≤ s.dataSize
  tiles : Tiles s.data.toNat (c.calls.map SendCall.piece) (s.data + s.totalBytes).toNat
  inside : ∀ call ∈ c.calls, s.data ≤ call.off ∧ call.off + call.len ≤ s.data + s.dataSize
  sz : c.pc = .sending → 0 ≤ c.sz ∧ c.sz ≤ s.packSize
  complete : c.pc = .returned 0 → s.totalBytes = s.dataSize

structure Sized (s : Session) : Prop where
  data_nonneg : 0 ≤ s.data
  dataSize_lt : s.dataSize < 2 ^ 31
  packSize_nonneg : 0 ≤ s.packSize
  packSize_lt : s.packSize < 2 ^ 31

theorem SendInv.bytesRemain_iff {s : Session} {c : SendConn} (h : SendInv s c) (hs : Sized s) :
    bytesRemain s = true ↔ s.totalBytes < s.dataSize := by
  have h1 := h.total_nonneg
  have h2 := h.total_le
  have h3 := hs.dataSize_lt
  unfold bytesRemain
  rw [asSizeT_eq h1 (by omega), asSizeT_eq (by omega) (by omega), decide_eq_true_iff]

/-- In the loop `rmbytes` is the number of bytes left. -/
theorem SendInv.rmbytes_eq {s : Session} {c : SendConn} (h : SendInv s c) (hs : Sized s) :
    rmbytes s = s.dataSize - s.totalBytes := by
  have h1 := h.total_nonneg
  have h2 := h.total_le
  have h3 := hs.dataSize_lt
  unfold rmbytes
  rw [asSizeT_eq (by omega) (by omega), asInt_eq (by omega) (by omega)]

/-- The requested size is at most what is left and at most a packet. -/
theorem SendInv.nextSz_bounds {s : Session} {c : SendConn} (h : SendInv s c) (hs : Sized s)
    (hpc : c.pc = .sending) :
    0 ≤ nextSz s c.sz ∧ nextSz s c.sz ≤ s.packSize ∧
      nextSz s c.sz ≤ s.dataSize - s.totalBytes := by
  obtain ⟨hsz, hsz'⟩ := h.sz hpc
  have htotal := h.total_le
  unfold nextSz
  rw [h.rmbytes_eq hs]
  split <;> omega

/-- One more call, which accepts `n` of the requested bytes. -/
theorem SendInv.call {s : Session} {c : SendConn} (h : SendInv s c) (hs : Sized s)
    (hpc : c.pc = .sending) (rc : Int) (n : Nat) (pc : ConnPc) (hn : rc.toNat = n)
    (hle : (n : Int) ≤ nextSz s c.sz) (hpc' : pc ≠ .returned 0) :
    SendInv { s with totalBytes := s.totalBytes + n }
      { pc := pc
        sz := nextSz s c.sz
        calls := c.calls ++ [⟨s.data + s.totalBytes, asSizeT (nextSz s c.sz), rc⟩] } := by
  obtain ⟨hsz, hpack, hleft⟩ := h.nextSz_bounds hs hpc
  have htotal := h.total_nonneg
  have hdata := hs.data_nonneg
  have hlt := hs.packSize_lt
  refine ⟨by simp; omega, by simp; omega, ?_, ?_, fun _ => ⟨hsz, hpack⟩, fun h => absurd h hpc'⟩
  · have htiles := h.tiles.concat n
    have hoff : (s.data + (s.totalBytes + n)).toNat = (s.data + s.totalBytes).toNat + n := by omega
    simp only [List.map_append, List.map_cons, List.map_nil, SendCall.piece, hn, hoff]
    exact htiles
  · intro call hcall
    rcases List.mem_append.mp hcall with hcall | hcall
    · exact h.inside call hcall
    · rw [List.mem_singleton] at hcall
      subst hcall
      rw [asSizeT_eq hsz (by omega)]
      dsimp only
      omega

/-- **Step of a sending thread.** -/
theorem SendInv.step {err : Int} (herr : err < 0) {s : Session} {c : SendConn} (h : SendInv s c)
    (hs : Sized s) {io : ThreadIo} {r : Session × SendConn}
    (hr : sendConnStep err s c io = some r) : SendInv r.1 r.2 := by
  cases sendConnStep_cases hr with
  | connectFails hpc =>
    exact ⟨h.total_nonneg, h.total_le, h.tiles, h.inside, by simp, by simp⟩
  | connects hpc =>
    exact ⟨h.total_nonneg, h.total_le, h.tiles, h.inside,
      fun _ => ⟨hs.packSize_nonneg, Int.le_refl _⟩, by simp⟩
  | sendFails hpc =>
    -- a failing send accepts nothing
    have hnext := h.nextSz_bounds hs hpc
    simpa using h.call hs hpc err 0 (.returned (-1)) (by omega) (by simpa using hnext.1) (by simp)
  | @sends rc hpc _ _ hrc hrc' =>
    have hnext := h.nextSz_bounds hs hpc
    have hlt := hs.packSize_lt
    rw [asSizeT_eq hnext.1 (by omega)] at hrc'
    have hcall := h.call hs hpc rc rc.toNat c.pc rfl (by omega) (by simp [hpc])
    rwa [Int.toNat_of_nonneg hrc] at hcall
  | finishes hpc hleft =>
    have hrem := (h.bytesRemain_iff hs).not.mp hleft
    have hle := h.total_le
    refine ⟨h.total_nonneg, h.total_le, h.tiles, h.inside, by simp, fun _ => ?_⟩
    dsimp only
    omega

/-- The bytes a socket has accepted are the first `total_bytes` bytes of the slice. -/
theorem SendInv.accepted_eq {s : Session} {c : SendConn} (h : SendInv s c) (hs : Sized s)
    (mem : List UInt8) :
    c.accepted mem = (slice mem s.data.toNat s.dataSize.toNat).take s.totalBytes.toNat := by
  have htotal := h.total_nonneg
  have hle := h.total_le
  have hdata := hs.data_nonneg
  rw [take_slice mem _ _ (by omega), SendConn.accepted, h.tiles.flatMap_slice]
  congr 1
  omega

/-! ## All threads -/

/-- The sizes that the parent hands to session `k`. -/
structure SliceOf (p : MClientProg SendConn ThreadIo) (l₀ : Listener) (k : Nat) (s : Session) :
    Prop where
  data : s.data = l₀.fileSize.tdiv p.numConn * k
  dataSize : s.dataSize = asSizeT (l₀.fileSize.tdiv p.numConn)
  packSize : s.packSize = l₀.bufsize

def Sends (p : MClientProg SendConn ThreadIo) : Prop := ∃ err < 0, p.thread = sendConn err

theorem tbStreamMClient_sends : Sends tbStreamMClient := ⟨-1, by decide, rfl⟩
theorem tbUdtMClient_sends : Sends tbUdtMClient := ⟨udtError, by decide, rfl⟩

section Slices

variable {p : MClientProg SendConn ThreadIo} {l₀ : Listener}

structure Sizes (l₀ : Listener) : Prop where
  fileSize_nonneg : 0 ≤ l₀.fileSize
  fileSize_lt : l₀.fileSize < 2 ^ 31
  bufsize_nonneg : 0 ≤ l₀.bufsize
  bufsize_lt : l₀.bufsize < 2 ^ 31

theorem Sizes.quotient (h : Sizes l₀) (n : Nat) :
    0 ≤ l₀.fileSize.tdiv n ∧ l₀.fileSize.tdiv n < 2 ^ 31 := by
  have h1 : 0 ≤ l₀.fileSize.tdiv n := Int.tdiv_nonneg h.fileSize_nonneg (Int.natCast_nonneg n)
  have h2 : l₀.fileSize.tdiv n ≤ l₀.fileSize := Int.tdiv_le_self n h.fileSize_nonneg
  have h3 := h.fileSize_lt
  omega

theorem SliceOf.sized {k : Nat} {s : Session} (h : SliceOf p l₀ k s) (hl : Sizes l₀) :
    Sized s := by
  obtain ⟨hq, hlt⟩ := hl.quotient p.numConn
  refine ⟨?_, ?_, ?_, ?_⟩
  · rw [h.data]
    exact Int.mul_nonneg hq (by omega)
  · rw [h.dataSize, asSizeT_eq hq (by omega)]
    exact hlt
  · rw [h.packSize]
    exact hl.bufsize_nonneg
  · rw [h.packSize]
    exact hl.bufsize_lt

theorem sendConnStep_sizes {err : Int} {s : Session} {c : SendConn} {io : ThreadIo}
    {r : Session × SendConn} (hr : sendConnStep err s c io = some r) :
    r.1.data = s.data ∧ r.1.dataSize = s.dataSize ∧ r.1.packSize = s.packSize := by
  cases sendConnStep_cases hr <;> exact ⟨rfl, rfl, rfl⟩

/-- Every connection keeps its slice and the invariant of its loop. -/
theorem sendInv_invariant (hsends : Sends p) (hl : Sizes l₀) :
    ConnInvariant p l₀ fun k s c => SliceOf p l₀ k s ∧ SendInv s c := by
  obtain ⟨err, herr, hthread⟩ := hsends
  refine ⟨?_, ?_, ?_⟩
  · intro l x sockD hsame hx
    have hsize := hsame.fileSize
    obtain ⟨hq, hlt⟩ := hl.quotient p.numConn
    have hslice : SliceOf p l₀ x (p.addedSession l x sockD) := by
      unfold addedSession newSession
      exact ⟨by simp [hsize], by simp [hsize], by simp [hsame.bufsize]⟩
    refine ⟨hslice, ?_⟩
    have htotal : (p.addedSession l x sockD).totalBytes = 0 := addedSession_totalBytes l x sockD
    rw [hthread]
    refine ⟨by omega, ?_, ?_, by simp [sendConn], by simp [sendConn], by simp [sendConn]⟩
    · rw [htotal, hslice.dataSize]
      exact asSizeT_nonneg _
    · simp [sendConn]
  · intro k s c io r ⟨hslice, hinv⟩ _ hr
    rw [hthread] at hr
    obtain ⟨h1, h2, h3⟩ := sendConnStep_sizes hr
    exact ⟨⟨h1.trans hslice.data, h2.trans hslice.dataSize, h3.trans hslice.packSize⟩,
      hinv.step herr (hslice.sized hl) hr⟩
  · intro k q s c ⟨hslice, hinv⟩
    refine ⟨⟨?_, ?_, ?_⟩, ⟨?_, ?_, ?_, ?_, ?_, ?_⟩⟩
    · simpa using hslice.data
    · simpa using hslice.dataSize
    · simpa using hslice.packSize
    · simpa using hinv.total_nonneg
    · simpa using hinv.total_le
    · simpa using hinv.tiles
    · simpa using hinv.inside
    · simpa using hinv.sz
    · simpa using hinv.complete

end Slices

/-- The pieces accepted by threads that have sent all of their slices make up the file. -/
theorem flatMap_accepted {cs : List SendConn} {mem : List UInt8} {q n : Nat}
    (hlen : cs.length = n) (hmem : mem.length = q * n)
    (hcs : ∀ (k : Nat) (c : SendConn), cs[k]? = some c → c.accepted mem = slice mem (q * k) q) :
    cs.flatMap (·.accepted mem) = mem := by
  have hmap : cs.map (·.accepted mem) =
      ((List.range n).map fun i => (q * i, q)).map fun pc => slice mem pc.1 pc.2 := by
    apply List.ext_getElem?
    intro k
    rw [List.map_map, List.getElem?_map, List.getElem?_map]
    by_cases hk : k < n
    · obtain ⟨c, hc⟩ : ∃ c, cs[k]? = some c := ⟨_, List.getElem?_eq_getElem (by omega)⟩
      rw [hc, List.getElem?_range hk]
      simp [hcs k c hc]
    · rw [List.getElem?_eq_none (by omega), List.getElem?_eq_none (by simp; omega)]
      rfl
  calc cs.flatMap (·.accepted mem)
      = ((List.range n).map fun i => (q * i, q)).flatMap fun pc => slice mem pc.1 pc.2 := by
        rw [List.flatMap_def, List.flatMap_def, hmap]
    _ = slice mem 0 (q * n) := (tiles_equal q n).flatMap_slice mem
    _ = mem := by rw [← hmem, slice_self]

/-- The slices of a generated file of `N` kilobytes, and what the threads keep of them. -/
theorem mClient_quarters {p : MClientProg SendConn ThreadIo}
    (hp : p = tbStreamMClient ∨ p = tbUdtMClient) {protocol : Protocol} {N : Nat}
    {bufsize sockD : Int} {data : Option (List UInt8)} (hint : 1024 * N < 2 ^ 31)
    (hbuf : 1 ≤ bufsize) (hbuf' : bufsize < 2 ^ 31) {ls : List (MLabel ThreadIo)}
    {s : MClient SendConn}
    (hrun : run p.step (p.init (mClientListener protocol bufsize (1024 * N) sockD data)) ls =
      some s) :
    s.threads.length = s.listener.sessionList.sessions.length ∧
      ∀ k session c, s.listener.session? k = some session → s.threads[k]? = some c →
        session.data = 256 * N * k ∧ session.dataSize = 256 * N ∧ Sized session ∧
          SendInv session c := by
  have hsends : Sends p ∧ p.Regular ∧ p.numConn = 4 := by
    rcases hp with rfl | rfl
    · exact ⟨tbStreamMClient_sends, mClient_regular .stream, rfl⟩
    · exact ⟨tbUdtMClient_sends, mClient_regular .udt, rfl⟩
  obtain ⟨hsends, hreg, hnum⟩ := hsends
  have hl : Sizes (mClientListener protocol bufsize (1024 * N) sockD data) :=
    ⟨by simp [mClientListener], by simp [mClientListener]; omega,
      by simp [mClientListener, tbCreateListener]; omega,
      by simpa [mClientListener, tbCreateListener] using hbuf'⟩
  obtain ⟨hshape, hinv⟩ := (sendInv_invariant hsends hl).run hreg rfl hrun
  have hq : (1024 * (N : Int)).tdiv (p.numConn : Int) = 256 * N := by
    rw [hnum, show (1024 * (N : Int)) = 256 * N * 4 by ring]
    exact Int.mul_tdiv_cancel _ (by decide)
  refine ⟨hshape.length, fun k session c hk hc => ?_⟩
  obtain ⟨hslice, hsend⟩ := hinv k session c hk hc
  have hdata := hslice.data
  have hsize := hslice.dataSize
  simp only [mClientListener, hq] at hdata hsize
  rw [asSizeT_eq (by omega) (by omega)] at hsize
  exact ⟨hdata, hsize, hslice.sized hl, hsend⟩

/-- **The stream clients send the file exactly once.** In every run of `tb_stream_m_client` or
`tb_udt_m_client` on a generated file of `N` kilobytes: the bytes accepted on the socket of session
`k` are the first `total_bytes` bytes of the `k`-th quarter of the data, every range requested lies in
that quarter, and once all four threads have returned 0 the sockets have together accepted the file. -/
theorem mClient_sends_file_once (p : MClientProg SendConn ThreadIo)
    (hp : p = tbStreamMClient ∨ p = tbUdtMClient) (protocol : Protocol) (N : Nat)
    (bufsize sockD : Int) (mem : List UInt8) (hN : 1 ≤ N) (hint : 1024 * N < 2 ^ 31)
    (hbuf : 1 ≤ bufsize) (hbuf' : bufsize < 2 ^ 31) (hmem : mem.length = 1024 * N)
    (ls : List (MLabel ThreadIo)) (s : MClient SendConn)
    (hrun : run p.step (p.init (mClientListener protocol bufsize (1024 * N) sockD (some mem))) ls =
      some s) :
    (∀ k session c, s.listener.session? k = some session → s.threads[k]? = some c →
      (0 ≤ session.totalBytes ∧ session.totalBytes ≤ 1024 * N / 4) ∧
      c.accepted mem =
        (slice mem (k * (1024 * N / 4)) (1024 * N / 4)).take session.totalBytes.toNat ∧
      ∀ call ∈ c.calls, (k * (1024 * N / 4) : Nat) ≤ call.off ∧
        call.off + call.len ≤ ((k + 1) * (1024 * N / 4) : Nat)) ∧
    (s.threads.length = 4 → (∀ c ∈ s.threads, c.pc.retval = some 0) →
      s.threads.flatMap (·.accepted mem) = mem) := by
  obtain ⟨hlength, hconn⟩ := mClient_quarters hp hint hbuf hbuf' hrun
  have hq' : 1024 * N / 4 = 256 * N := by omega
  refine ⟨?_, ?_⟩
  · intro k session c hk hc
    obtain ⟨hdata, hsize, hsized, hsend⟩ := hconn k session c hk hc
    have hle := hsend.total_le
    have hcast : (256 * (N : Int) * k).toNat = k * (256 * N) := by
      rw [show (256 * (N : Int) * k) = ((k * (256 * N) : Nat) : Int) by push_cast; ring]
      exact Int.toNat_natCast _
    refine ⟨⟨hsend.total_nonneg, by omega⟩, ?_, ?_⟩
    · rw [hsend.accepted_eq hsized, hdata, hsize, hq', hcast]
      congr 1
    · intro call hcall
      have hin := hsend.inside call hcall
      rw [hdata, hsize] at hin
      rw [hq']
      push_cast
      constructor
      · linarith [hin.1]
      · linarith [hin.2]
  · intro hlen hret
    refine flatMap_accepted (q := 256 * N) hlen (by omega) ?_
    intro k c hc
    obtain ⟨session, hk⟩ : ∃ session, s.listener.session? k = some session := by
      have hlt := (List.getElem?_eq_some_iff.mp hc).1
      exact ⟨_, List.getElem?_eq_getElem (by rw [← hlength]; exact hlt)⟩
    obtain ⟨hdata, hsize, hsized, hsend⟩ := hconn k session c hk hc
    have hpc : c.pc = .returned 0 := by
      have h := hret c (List.mem_of_getElem? hc)
      cases hpc : c.pc <;> simp_all [ConnPc.retval]
    have htotal := hsend.complete hpc
    rw [hsend.accepted_eq hsized, take_slice _ _ _ (by omega), hdata, htotal, hsize]
    congr 1

/-- A run on one kilobyte: every thread connects, sends its 256 bytes in two calls and returns. -/
def oneKilobyteRun : List (MLabel ThreadIo) :=
  List.replicate 4 (.create true 5) ++
    (List.range 4).flatMap fun k =>
      [.thread k (.connect 0), .thread k (.send 100), .thread k (.send 156), .thread k .finish]

theorem mClient_sends_file_once_one_kilobyte :
    (∃ s, run tbStreamMClient.step
        (tbStreamMClient.init (mClientListener .tcp 200 1024 3 (some (List.replicate 1024 7))))
        oneKilobyteRun = some s ∧
      s.threads.flatMap (·.accepted (List.replicate 1024 7)) = List.replicate 1024 7) ∧
    ∃ s, run tbUdtMClient.step
        (tbUdtMClient.init (mClientListener .udt 200 1024 3 (some (List.replicate 1024 7))))
        oneKilobyteRun = some s ∧
      s.threads.flatMap (·.accepted (List.replicate 1024 7)) = List.replicate 1024 7 :=
  ⟨⟨_, rfl, (mClient_sends_file_once tbStreamMClient (.inl rfl) .tcp 1 200 3
      (List.replicate 1024 7) (by decide) (by decide) (by decide) (by decide)
      List.length_replicate oneKilobyteRun _ rfl).2 (by decide) (by decide)⟩,
    _, rfl, (mClient_sends_file_once tbUdtMClient (.inr rfl) .udt 1 200 3
      (List.replicate 1024 7) (by decide) (by decide) (by decide) (by decide)
      List.length_replicate oneKilobyteRun _ rfl).2 (by decide) (by decide)⟩

end TestBed
