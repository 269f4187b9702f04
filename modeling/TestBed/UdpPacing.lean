import TestBed.Setup
import TestBed.UdpTransferSafe

/-!
# Pacing in the UDP client

The data loop of `tb_udp_client` sends while the room in the socket's buffer, by `SO_SNDBUF` and
`TIOCOUTQ`, is more than the next datagram. A datagram is at most the smaller of the packet size and the
file, so a turn with an empty queue sends if that is below `SO_SNDBUF`; the first turn fails to if it
is not, and then so does every other (`spins`).
-/

namespace TestBed.UdpPacing

open CInt Transition

/-- What `ioctl` and `send` do in one turn of the loop. -/
structure Turn where
  numBytes : Option Int
  ok : Bool
  deriving DecidableEq, Repr

def Turn.emptyQueue (t : Turn) : Bool := t.numBytes = some 0

def turnStep (c : UdpSender) (t : Turn) : Option UdpSender :=
  (c.dataStep t.numBytes t.ok).map Prod.fst

/-- `tb_udp_client` on the listener `l`, with a connected socket, after the given turns. -/
def Reached (l : Listener) (sndBuffSz : Int) (turns : List Turn) (c : UdpSender) : Prop :=
  ∃ c₀, UdpSender.connectStep ⟨l, .connect, 0, 0⟩ true (some sndBuffSz) = some c₀ ∧
    run turnStep c₀ turns = some c

def remaining (c : UdpSender) : Int := c.listener.fileSize - c.listener.totalTxRx

/-- With bytes remaining every turn with an empty queue sends, and a run has no more than a bounded
number of them. -/
structure NeverSpins (l : Listener) (sndBuffSz : Int) : Prop where
  sends : ∀ turns c, Reached l sndBuffSz turns c → c.pc = .data → 0 < remaining c →
    (∃ c', c.dataStep (some 0) true = some (c', [c.nextSz]) ∧ remaining c' < remaining c) ∧
      ∃ c', c.dataStep (some 0) false = some (c', []) ∧ c'.pc = .aborted
  ends : ∃ n, ∀ turns c, Reached l sndBuffSz turns c → turns.countP Turn.emptyQueue ≤ n

/-! ## The loop -/

/-- The state that the loop starts in. -/
def loopStart (l : Listener) (sndBuffSz : Int) : UdpSender where
  listener := { l with
    connectTime := tbFinishTime (tbStartTime l.connectTime)
    transferTime := tbStartTime l.transferTime
    status := .connected }
  pc := .data
  sz := l.bufsize
  sndBuffSz := sndBuffSz

variable {l : Listener} {sndBuffSz : Int} {c c' : UdpSender} {turns : List Turn} {t : Turn}

theorem reached_iff :
    Reached l sndBuffSz turns c ↔ run turnStep (loopStart l sndBuffSz) turns = some c := by
  constructor
  · rintro ⟨c₀, hc₀, hrun⟩
    cases hc₀
    exact hrun
  · exact fun hrun => ⟨_, rfl, hrun⟩

/-- The states of the loop: the next datagram is at most a packet, and what is left at most the file. -/
structure InLoop (B F S : Int) (c : UdpSender) : Prop where
  bufsize : c.listener.bufsize = B
  fileSize : c.listener.fileSize = F
  sndBuffSz : c.sndBuffSz = S
  sz : 1 ≤ c.sz ∧ c.sz ≤ B
  total : 0 ≤ c.listener.totalTxRx

variable {B F S : Int}

theorem remaining_pos : 0 < remaining c ↔ c.listener.totalTxRx < c.listener.fileSize := Int.sub_pos

theorem inLoop_start (hB : 1 ≤ l.bufsize) (htotal : l.totalTxRx = 0) :
    InLoop l.bufsize l.fileSize sndBuffSz (loopStart l sndBuffSz) :=
  ⟨rfl, rfl, rfl, ⟨hB, Int.le_refl _⟩, Int.le_of_eq htotal.symm⟩

theorem InLoop.nextSz (hc : InLoop B F S c) (hF : F < 2 ^ 31)
    (hlt : c.listener.totalTxRx < c.listener.fileSize) :
    1 ≤ c.nextSz ∧ c.nextSz ≤ B ∧ c.nextSz ≤ F - c.listener.totalTxRx := by
  have hsz := hc.sz
  rw [← hc.bufsize] at hsz ⊢
  rw [← hc.fileSize] at hF ⊢
  exact UdpSender.nextSz_bounds hsz hc.total hlt hF

/-! ## Where a full packet fits -/

/-- The turns that are left at most, if every one of them has an empty queue. -/
def turnsLeft (c : UdpSender) : Nat := if c.pc = .data then (remaining c).toNat + 1 else 0

theorem turnsLeft_data (hpc : c.pc = .data) : turnsLeft c = (remaining c).toNat + 1 := if_pos hpc

theorem turnsLeft_le (c : UdpSender) : turnsLeft c ≤ (remaining c).toNat + 1 := by
  unfold turnsLeft
  split <;> omega

theorem turnsLeft_out (hpc : c.pc ≠ .data) : turnsLeft c = 0 := if_neg hpc

/-- A turn keeps the loop's state, and one with an empty queue brings its end nearer. -/
theorem InLoop.turn (hF : F < 2 ^ 31) (hS : min B F < S) (hc : c.pc = .data → InLoop B F S c)
    (h : turnStep c t = some c') :
    (c'.pc = .data → InLoop B F S c') ∧
      turnsLeft c' + (if t.emptyQueue then 1 else 0) ≤ turnsLeft c := by
  have hone : (if t.emptyQueue then 1 else 0) ≤ 1 := by split <;> omega
  obtain ⟨numBytes, ok⟩ := t
  obtain ⟨⟨c₁, sent⟩, hdata, rfl⟩ := Option.map_eq_some_iff.mp h
  obtain ⟨hpc, hmoves⟩ := UdpSender.dataStep_cases hdata
  have hin := hc hpc
  have htotal := hin.total
  have hleft := turnsLeft_data hpc
  cases hmoves with
  | leaves =>
    refine ⟨by simp, ?_⟩
    rw [turnsLeft_out (by simp), hleft]
    omega
  | ioctlFails | sendFails =>
    refine ⟨by simp [UdpSender.abort], ?_⟩
    rw [turnsLeft_out (by simp [UdpSender.abort]), hleft]
    omega
  | @waits n _ hlt hfull =>
    have hnext := hin.nextSz hF hlt
    refine ⟨fun _ => ⟨hin.bufsize, hin.fileSize, hin.sndBuffSz, ⟨hnext.1, hnext.2.1⟩, htotal⟩, ?_⟩
    have hqueue : Turn.emptyQueue ⟨some n, ok⟩ = false := by
      -- an empty queue has room for the datagram
      have hne : n ≠ 0 := by
        intro hzero
        rw [hin.sndBuffSz] at hfull
        omega
      simpa [Turn.emptyQueue] using hne
    rw [hleft, hqueue]
    exact turnsLeft_le _
  | sends hlt =>
    have hnext := hin.nextSz hF hlt
    refine ⟨fun _ => ⟨hin.bufsize, hin.fileSize, hin.sndBuffSz, ⟨hnext.1, hnext.2.1⟩, ?_⟩, ?_⟩
    · show 0 ≤ c.listener.totalTxRx + c.nextSz
      omega
    · have hpos := remaining_pos.mpr hlt
      refine (Nat.add_le_add (turnsLeft_le _) hone).trans ?_
      rw [hleft]
      simp only [remaining] at hpos ⊢
      omega

theorem neverSpins_of_fits (htotal : l.totalTxRx = 0) (hB : 1 ≤ l.bufsize)
    (hF : l.fileSize < 2 ^ 31) (hS : min l.bufsize l.fileSize < sndBuffSz) :
    NeverSpins l sndBuffSz := by
  have hrun : ∀ turns c, Reached l sndBuffSz turns c →
      (c.pc = .data → InLoop l.bufsize l.fileSize sndBuffSz c) ∧
        turnsLeft c + turns.countP Turn.emptyQueue ≤ turnsLeft (loopStart l sndBuffSz) := by
    intro turns c hc
    exact run_countP_le (fun c t c' hc h => InLoop.turn hF hS hc h)
      (fun _ => inLoop_start hB htotal) (reached_iff.mp hc)
  refine ⟨fun turns c hc hpc hpos => ?_, turnsLeft (loopStart l sndBuffSz), fun turns c hc => ?_⟩
  · have hin := (hrun turns c hc).1 hpc
    have hlt := remaining_pos.mp hpos
    have hnext := hin.nextSz hF hlt
    have htotal' := hin.total
    have hroom : c.sndBuffSz - 0 > c.nextSz := by
      rw [hin.sndBuffSz]
      omega
    simp only [UdpSender.dataStep, hpc, hlt, hroom, if_true]
    refine ⟨⟨_, rfl, ?_⟩, _, rfl, rfl⟩
    simp only [remaining]
    omega
  · exact (Nat.le_add_left _ _).trans (hrun turns c hc).2

/-! ## Where it does not -/

theorem turn_stuck (hpc : c.pc = .data) (hpos : 0 < remaining c) (hfull : c.sndBuffSz ≤ c.nextSz)
    (ht : t.emptyQueue = true) : turnStep c t = some { c with sz := c.nextSz } := by
  have hn : t.numBytes = some 0 := by simpa [Turn.emptyQueue] using ht
  have hlt := remaining_pos.mp hpos
  have hroom : ¬ c.sndBuffSz - 0 > c.nextSz := by omega
  simp only [turnStep, UdpSender.dataStep, hpc, hn, hlt, hroom, if_true, if_false]
  rfl

/-- However often the loop turns with an empty queue, it is where it was. -/
theorem spins (hpc : c.pc = .data) (hpos : 0 < remaining c) (hfull : c.sndBuffSz ≤ c.nextSz)
    (hts : ∀ t ∈ turns, t.emptyQueue = true) :
    ∃ sz, run turnStep c turns = some { c with sz := sz } := by
  induction turns generalizing c with
  | nil => exact ⟨c.sz, rfl⟩
  | cons t turns ih =>
    obtain ⟨ht, hts⟩ := List.forall_mem_cons.mp hts
    have hagain : ({ c with sz := c.nextSz } : UdpSender).nextSz = c.nextSz := by
      simp only [UdpSender.nextSz]
      split <;> rfl
    obtain ⟨sz, hsz⟩ := ih (c := { c with sz := c.nextSz }) hpc hpos (by rwa [hagain]) hts
    refine ⟨sz, ?_⟩
    rw [run_cons, turn_stuck hpc hpos hfull ht]
    exact hsz

/-- The first datagram is the file or a packet, whichever is smaller. -/
theorem nextSz_start (htotal : l.totalTxRx = 0) (hF : 1 ≤ l.fileSize) (hF' : l.fileSize < 2 ^ 31) :
    (loopStart l sndBuffSz).nextSz = min l.bufsize l.fileSize := by
  simp only [UdpSender.nextSz, loopStart, htotal, Int.sub_zero]
  split
  · rw [asInt_eq (by omega) hF']
    omega
  · omega

/-- Any number of turns with an empty queue send nothing. -/
theorem reached_stuck (htotal : l.totalTxRx = 0) (hF : 1 ≤ l.fileSize) (hF' : l.fileSize < 2 ^ 31)
    (hfull : sndBuffSz ≤ min l.bufsize l.fileSize) (hts : ∀ t ∈ turns, t.emptyQueue = true) :
    ∃ c, Reached l sndBuffSz turns c ∧ c.pc = .data ∧ c.listener.totalTxRx = 0 := by
  have hpos : 0 < remaining (loopStart l sndBuffSz) := by
    simp only [remaining, loopStart, htotal]
    omega
  have hstuck : (loopStart l sndBuffSz).sndBuffSz ≤ (loopStart l sndBuffSz).nextSz := by
    rw [nextSz_start htotal hF hF']
    exact hfull
  obtain ⟨sz, hrun⟩ := spins (c := loopStart l sndBuffSz) rfl hpos hstuck hts
  exact ⟨_, reached_iff.mpr hrun, rfl, htotal⟩

theorem emptyQueue_replicate (n : Nat) :
    ∀ t ∈ List.replicate n (⟨some 0, true⟩ : Turn), t.emptyQueue = true := by
  intro t ht
  rw [List.eq_of_mem_replicate ht]
  rfl

theorem not_neverSpins (htotal : l.totalTxRx = 0) (hF : 1 ≤ l.fileSize) (hF' : l.fileSize < 2 ^ 31)
    (hfull : sndBuffSz ≤ min l.bufsize l.fileSize) : ¬ NeverSpins l sndBuffSz := by
  intro h
  obtain ⟨n, hn⟩ := h.ends
  have hempty := emptyQueue_replicate (n + 1)
  obtain ⟨c, hc, -, -⟩ := reached_stuck htotal hF hF' hfull hempty
  have hcount := hn _ _ hc
  rw [List.countP_eq_length.mpr hempty, List.length_replicate] at hcount
  omega

/-- **When the paced loop cannot spin.** On a listener with nothing sent yet, every turn with an empty
queue sends, and so the loop has only boundedly many of them, exactly if `SO_SNDBUF` is more than the
smaller of the packet size and the file size. -/
theorem neverSpins_iff (l : Listener) (sndBuffSz : Int) (htotal : l.totalTxRx = 0)
    (hbufsize : 1 ≤ l.bufsize) (hfileSize : 1 ≤ l.fileSize) (hint : l.fileSize < 2 ^ 31) :
    NeverSpins l sndBuffSz ↔ min l.bufsize l.fileSize < sndBuffSz := by
  refine ⟨fun h => ?_, neverSpins_of_fits htotal hbufsize hint⟩
  by_contra hfull
  exact not_neverSpins htotal hfileSize hint (Int.not_lt.mp hfull) h

/-- 4 KB in packets of 1408 bytes, with the default buffer of Linux. -/
theorem neverSpins_iff_packets :
    NeverSpins { tbCreateListener .client .udp 1408 with fileSize := 4096 } 212992 ↔
      min (1408 : Int) 4096 < 212992 :=
  neverSpins_iff { tbCreateListener .client .udp 1408 with fileSize := 4096 } 212992 rfl (by decide)
    (by decide) (by decide)

/-- A buffer size of 0 on the command line makes the packet as large as the file: 1 MB with the default
`SO_SNDBUF` of Linux. After any number of turns with an empty queue nothing has been sent. -/
theorem udp_client_spins :
    ∃ l, Setup.tbParse ["TestBed", "client", "127.0.0.1", "5000", "udp", "0", "size", "1024"] =
        some l ∧
      1 ≤ l.fileSize ∧ 1 ≤ l.bufsize ∧ ¬ NeverSpins l.toListener 212992 ∧
      ∀ n, ∃ c, Reached l.toListener 212992 (List.replicate n ⟨some 0, true⟩) c ∧ c.pc = .data ∧
        c.listener.totalTxRx = 0 := by
  refine ⟨_, rfl, by decide, by decide, ?_, fun n => ?_⟩
  · exact not_neverSpins rfl (by decide) (by decide) (by decide)
  · exact reached_stuck rfl (by decide) (by decide) (by decide) (emptyQueue_replicate n)

end TestBed.UdpPacing
