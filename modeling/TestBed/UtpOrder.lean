import TestBed.UtpLoop

/-!
# What the uTP client sends

The buffers that `tb_utp_write` fills. The counts are always right: the pieces that were due tile the
file up to `total_tx_rx` (`Filled`), and a loop that ends by itself has counted the whole file. Every
piece is copied from `s_data`, which is where the write began, so a piece is right exactly if no bytes of
the write came before it, or if the file repeats itself there (`sends_in_order_iff`).
-/

namespace TestBed

open CInt Transition Slice

/-! ## What is assumed and what is looked for -/

/-- libutp asks for bytes only inside `UTP_Write`, and for no more than were offered. -/
def SplitsWrites (s : UtpRun) : UtpLabel → Prop
  | .callback (.onWrite count) => s.pc = .writing ∧ s.utp.writeBytes + count ≤ s.sz
  | _ => True

/-- The bytes at `s_data` are those that are due: they are the same ones where the write has already
got `write_bytes` of them. -/
def CopiesDue (mem : List UInt8) (s : UtpRun) : UtpLabel → Prop
  | .callback (.onWrite count) =>
    slice mem s.utp.sData.toNat count = slice mem (s.utp.sData + s.utp.writeBytes).toNat count
  | _ => True

instance (s : UtpRun) (l : UtpLabel) : Decidable (SplitsWrites s l) :=
  match l with
  | .callback (.onWrite _) => inferInstanceAs (Decidable (_ ∧ _))
  | .callback (.onRead _) | .callback (.onState _ _) | .callback (.onError _)
  | .callback .incoming => .isTrue trivial
  | .start | .test | .wrote _ | .polled | .checked _ | .switch | .closed | .drained | .env _ =>
    .isTrue trivial

/-- What a callback has copied. -/
def Fill.bytes (mem : List UInt8) (f : Fill) : List UInt8 := slice mem f.src.toNat f.len

/-- What it should have copied. -/
def Fill.due (mem : List UInt8) (f : Fill) : List UInt8 := slice mem f.pos.toNat f.len

/-- The buffers filled so far, in the order of the callbacks. -/
def UtpRun.filled (mem : List UInt8) (s : UtpRun) : List UInt8 := s.fills.flatMap (Fill.bytes mem)

/-- The loop has ended, and neither for an error nor at a command. -/
def UtpRun.finished (s : UtpRun) : Prop :=
  s.pc.over = true ∧ s.aborting = false ∧ s.listener.command.eLoop = false

/-! ## The invariant -/

/-- The pieces that were due follow one another up to `total_tx_rx` and the `pend` bytes of a write
that is not yet counted. -/
structure Filled (l₀ : Listener) (pend : Int) (s : UtpRun) : Prop where
  fileSize : s.listener.fileSize = l₀.fileSize
  bufsize : s.listener.bufsize = l₀.bufsize
  total_nonneg : 0 ≤ s.listener.totalTxRx
  pend_nonneg : 0 ≤ pend
  room : s.listener.totalTxRx + pend ≤ l₀.fileSize
  tiles : Tiles 0 (s.fills.map fun f => (f.pos.toNat, f.len)) (s.listener.totalTxRx + pend).toNat
  inside : ∀ f ∈ s.fills, 0 ≤ f.src ∧ f.src ≤ f.pos ∧ f.pos + f.len ≤ l₀.fileSize
  sz : 0 ≤ s.sz ∧ s.sz ≤ l₀.bufsize
  read : 0 ≤ s.utp.readBytes

/-- The bytes of the current write. -/
def UtpRun.pending (s : UtpRun) : Int := if s.pc = .writing then s.utp.writeBytes else 0

structure OrderInv (l₀ : Listener) (s : UtpRun) : Prop where
  filled : Filled l₀ s.pending s
  writing : s.pc = .writing →
    s.utp.sData = s.listener.totalTxRx ∧ s.listener.totalTxRx + s.sz ≤ l₀.fileSize
  idle : s.pc = .polling .main ∨ s.pc = .timeouts .main → s.utp.writeBytes = 0
  finished : s.finished → s.listener.totalTxRx = l₀.fileSize

section Step

variable {l₀ : Listener} {pend : Int} {s t : UtpRun}

/-- A step that neither copies nor counts. -/
theorem Filled.congr (h : Filled l₀ pend s)
    (hl : t.listener.fileSize = s.listener.fileSize ∧ t.listener.bufsize = s.listener.bufsize ∧
      t.listener.totalTxRx = s.listener.totalTxRx)
    (hfills : t.fills = s.fills) (hsz : 0 ≤ t.sz ∧ t.sz ≤ l₀.bufsize)
    (hread : 0 ≤ t.utp.readBytes) : Filled l₀ pend t := by
  obtain ⟨hfile, hbuf, htotal⟩ := hl
  constructor
  · rw [hfile, h.fileSize]
  · rw [hbuf, h.bufsize]
  · rw [htotal]
    exact h.total_nonneg
  · exact h.pend_nonneg
  · rw [htotal]
    exact h.room
  · rw [htotal, hfills]
    exact h.tiles
  · rw [hfills]
    exact h.inside
  · exact hsz
  · exact hread

theorem Filled.of_eq {pend' : Int} (h : Filled l₀ pend s) (heq : pend = pend') :
    Filled l₀ pend' s := by
  subst heq
  exact h

/-- The bytes of a write are counted. -/
theorem Filled.count (h : Filled l₀ pend s) :
    Filled l₀ 0 { s with
      listener := { s.listener with totalTxRx := s.listener.totalTxRx + pend } } := by
  have htotal := h.total_nonneg
  have hpend := h.pend_nonneg
  refine ⟨h.fileSize, h.bufsize, ?_, Int.le_refl 0, ?_, ?_, h.inside, h.sz, h.read⟩
  · dsimp only
    omega
  · rw [Int.add_zero]
    exact h.room
  · rw [Int.add_zero]
    exact h.tiles

/-- One more piece of a write. -/
theorem Filled.copy (h : Filled l₀ s.utp.writeBytes s)
    (hsrc : s.utp.sData = s.listener.totalTxRx) {count : Nat}
    (hroom : s.listener.totalTxRx + (s.utp.writeBytes + count) ≤ l₀.fileSize) :
    Filled l₀ (s.utp.writeBytes + count) (s.callback (.onWrite count)) := by
  have htotal := h.total_nonneg
  have hpend := h.pend_nonneg
  refine ⟨h.fileSize, h.bufsize, htotal, by omega, hroom, ?_, ?_, h.sz, h.read⟩
  · have htiles := h.tiles.concat count
    have hnext : (s.listener.totalTxRx + (s.utp.writeBytes + count)).toNat =
        (s.listener.totalTxRx + s.utp.writeBytes).toNat + count := by omega
    simp only [UtpRun.callback, List.map_append, List.map_cons, List.map_nil, hnext]
    exact htiles
  · intro f hf
    simp only [UtpRun.callback, List.mem_append, List.mem_singleton] at hf
    rcases hf with hf | rfl
    · exact h.inside f hf
    · dsimp only
      omega

/-- Outside of a write there is nothing pending. -/
theorem OrderInv.of_filled (h : Filled l₀ 0 s) (hpc : s.pc ≠ .writing)
    (hidle : s.pc = .polling .main ∨ s.pc = .timeouts .main → s.utp.writeBytes = 0)
    (hfinished : s.finished → s.listener.totalTxRx = l₀.fileSize) : OrderInv l₀ s := by
  refine ⟨?_, fun h => absurd h hpc, hidle, hfinished⟩
  rw [UtpRun.pending, if_neg hpc]
  exact h

theorem OrderInv.filled_zero (h : OrderInv l₀ s) (hpc : s.pc ≠ .writing) : Filled l₀ 0 s := by
  have := h.filled
  rwa [UtpRun.pending, if_neg hpc] at this

/-- What is left alone behind `tb_utp_close`. -/
theorem endClose_listener (s : UtpRun) :
    s.endClose.listener.fileSize = s.listener.fileSize ∧
      s.endClose.listener.bufsize = s.listener.bufsize ∧
      s.endClose.listener.totalTxRx = s.listener.totalTxRx ∧
      s.endClose.listener.command = s.listener.command := by
  simp only [UtpRun.endClose]
  split <;> exact ⟨rfl, rfl, rfl, rfl⟩

theorem endClose_pc (s : UtpRun) : s.endClose.pc = .aborted ∨ s.endClose.pc = .returned := by
  simp only [UtpRun.endClose]
  split
  · exact .inl rfl
  · exact .inr rfl

theorem OrderInv.endClose (h : Filled l₀ 0 s)
    (hfinished : s.aborting = false → s.listener.command.eLoop = false →
      s.listener.totalTxRx = l₀.fileSize) : OrderInv l₀ s.endClose := by
  obtain ⟨hfile, hbuf, htotal, hcmd⟩ := endClose_listener s
  refine .of_filled (h.congr ⟨hfile, hbuf, htotal⟩ rfl h.sz h.read) ?_ ?_ ?_
  · rcases endClose_pc s with hpc | hpc <;> rw [hpc] <;> decide
  · rcases endClose_pc s with hpc | hpc <;> rw [hpc] <;> nofun
  · rintro ⟨-, hab, hcont⟩
    rw [hcmd] at hcont
    exact htotal.trans (hfinished hab hcont)

theorem OrderInv.tbUtpClose (h : Filled l₀ 0 s)
    (hfinished : s.aborting = false → s.listener.command.eLoop = false →
      s.listener.totalTxRx = l₀.fileSize) : OrderInv l₀ s.tbUtpClose := by
  unfold UtpRun.tbUtpClose
  split
  · refine .of_filled (h.congr ⟨rfl, rfl, rfl⟩ rfl h.sz h.read) nofun (by simp) ?_
    exact fun ⟨_, hab, hcmd⟩ => hfinished hab hcmd
  · exact OrderInv.endClose h hfinished

theorem OrderInv.leave (h : Filled l₀ 0 s)
    (hfinished : s.aborting = false → s.listener.command.eLoop = false →
      s.listener.totalTxRx = l₀.fileSize) : OrderInv l₀ (s.leave .client) :=
  OrderInv.tbUtpClose (h.congr ⟨rfl, rfl, rfl⟩ rfl h.sz h.read) hfinished

/-- The loop goes on unless everything is counted. -/
theorem OrderInv.countSent (h : Filled l₀ pend s) : OrderInv l₀ (s.countSent pend) := by
  have hroom := h.room
  simp only [UtpRun.countSent]
  split
  · next hend =>
    refine OrderInv.leave h.count fun _ _ => ?_
    rw [h.fileSize] at hend
    dsimp only
    omega
  · exact .of_filled (h.count.congr ⟨rfl, rfl, rfl⟩ rfl h.sz h.read) nofun (by simp)
      (by simp [UtpRun.finished, UtpPc.over])

theorem OrderInv.tbUtpRecv (h : Filled l₀ 0 s) (hwrite : s.utp.writeBytes = 0) :
    OrderInv l₀ (s.tbUtpRecv .main) :=
  .of_filled (h.congr ⟨rfl, rfl, rfl⟩ rfl h.sz (Int.le_refl 0)) (by simp [UtpRun.tbUtpRecv])
    (fun _ => hwrite) (by simp [UtpRun.finished, UtpRun.tbUtpRecv, UtpPc.over])

/-- The size that is passed on is at most what is left. -/
theorem Filled.nextSz_bounds (h : Filled l₀ 0 s) (hl : Sizes l₀) :
    0 ≤ s.nextSz ∧ s.nextSz ≤ l₀.bufsize ∧ s.listener.totalTxRx + s.nextSz ≤ l₀.fileSize := by
  obtain ⟨hsz, hsz'⟩ := h.sz
  have htotal := h.total_nonneg
  have hroom := h.room
  have hlt := hl.fileSize_lt
  rw [UtpRun.nextSz, h.fileSize, h.bufsize, asInt_eq (by omega) (by omega)]
  split <;> omega

theorem OrderInv.tbUtpSend (h : Filled l₀ 0 s)
    (hroom : s.listener.totalTxRx + s.sz ≤ l₀.fileSize) : OrderInv l₀ s.tbUtpSend := by
  simp only [UtpRun.tbUtpSend]
  split
  · refine ⟨?_, fun _ => ⟨rfl, hroom⟩, by simp, by simp [UtpRun.finished, UtpPc.over]⟩
    exact h.congr ⟨rfl, rfl, rfl⟩ rfl h.sz h.read
  · exact OrderInv.tbUtpRecv (h.congr ⟨rfl, rfl, rfl⟩ rfl h.sz h.read) rfl

/-- A step inside a call, or of another thread. -/
theorem OrderInv.same_pc (h : OrderInv l₀ s)
    (hl : t.listener.fileSize = s.listener.fileSize ∧ t.listener.bufsize = s.listener.bufsize ∧
      t.listener.totalTxRx = s.listener.totalTxRx)
    (hcmd : t.listener.command.eLoop = false → s.listener.command.eLoop = false)
    (hrun : t.pc = s.pc ∧ t.aborting = s.aborting ∧ t.sz = s.sz ∧ t.fills = s.fills)
    (hutp : t.utp.writeBytes = s.utp.writeBytes ∧ t.utp.sData = s.utp.sData)
    (hread : 0 ≤ t.utp.readBytes) : OrderInv l₀ t := by
  obtain ⟨hpc, hab, hsz, hfills⟩ := hrun
  have hpend : t.pending = s.pending := by rw [UtpRun.pending, UtpRun.pending, hpc, hutp.1]
  constructor
  · rw [hpend]
    exact h.filled.congr hl hfills (hsz ▸ h.filled.sz) hread
  · rw [hpc, hutp.2, hl.2.2, hsz]
    exact h.writing
  · rw [hpc, hutp.1]
    exact h.idle
  · rintro ⟨hover, hab', hcont⟩
    rw [hl.2.2]
    exact h.finished ⟨hpc ▸ hover, hab ▸ hab', hcmd hcont⟩

theorem OrderInv.callback {cb : LibCallback} (h : OrderInv l₀ s)
    (hsplit : SplitsWrites s (.callback cb)) (ht : s.callbackStep cb = some t) :
    OrderInv l₀ t := by
  have hread := h.filled.read
  unfold UtpRun.callbackStep at ht
  split at ht <;> cases ht
  cases cb with
  | onRead count =>
    refine h.same_pc ⟨rfl, rfl, rfl⟩ id ⟨rfl, rfl, rfl, rfl⟩ ⟨rfl, rfl⟩ ?_
    simp only [UtpRun.callback]
    omega
  | onWrite count =>
    obtain ⟨hpc, hcount⟩ := hsplit
    obtain ⟨hsrc, hroom⟩ := h.writing hpc
    have hfilled := h.filled
    rw [UtpRun.pending, if_pos hpc] at hfilled
    refine ⟨?_, fun _ => ⟨hsrc, hroom⟩, ?_, fun hfin => h.finished hfin⟩
    · have hpend : (s.callback (.onWrite count)).pending = s.utp.writeBytes + count := if_pos hpc
      rw [hpend]
      exact hfilled.copy hsrc (by omega)
    · simp [UtpRun.callback, hpc]
  | onState sock state => exact h.same_pc ⟨rfl, rfl, rfl⟩ id ⟨rfl, rfl, rfl, rfl⟩ ⟨rfl, rfl⟩ hread
  | onError sock => exact h.same_pc ⟨rfl, rfl, rfl⟩ id ⟨rfl, rfl, rfl, rfl⟩ ⟨rfl, rfl⟩ hread
  | incoming => exact h.same_pc ⟨rfl, rfl, rfl⟩ id ⟨rfl, rfl, rfl, rfl⟩ ⟨rfl, rfl⟩ hread

theorem OrderInv.start (h : OrderInv l₀ s) (hl : Sizes l₀)
    (ht : s.startStep .client = some t) : OrderInv l₀ t := by
  obtain ⟨hpc, ⟨-, rfl⟩ | ⟨hserver, -⟩⟩ := UtpRun.startStep_cases ht
  case inr => cases hserver
  have hfilled := h.filled_zero (by rw [hpc]; decide)
  refine .of_filled (hfilled.congr ⟨rfl, rfl, rfl⟩ rfl ?_ hfilled.read) nofun (by simp)
    (by simp [UtpRun.finished, UtpPc.over])
  exact ⟨hfilled.bufsize ▸ hl.bufsize_nonneg, hfilled.bufsize.le⟩

theorem OrderInv.test (h : OrderInv l₀ s) (hl : Sizes l₀) (ht : s.testStep .client = some t) :
    OrderInv l₀ t := by
  obtain ⟨hpc, hcases⟩ := UtpRun.testStep_cases ht
  have hfilled := h.filled_zero (by rw [hpc]; decide)
  rcases hcases with ⟨hcmd, rfl⟩ | ⟨-, rfl⟩ | ⟨hserver, -⟩
  · exact OrderInv.leave hfilled fun _ hcont => by simp [hcmd] at hcont
  · obtain ⟨hsz, hbuf, hroom⟩ := hfilled.nextSz_bounds hl
    exact OrderInv.tbUtpSend (hfilled.congr ⟨rfl, rfl, rfl⟩ rfl ⟨hsz, hbuf⟩ hfilled.read) hroom
  · cases hserver

theorem OrderInv.wrote {rc : Int} (h : OrderInv l₀ s) (ht : s.wroteStep rc = some t) :
    OrderInv l₀ t := by
  obtain ⟨hpc, u, hu, rfl⟩ := UtpRun.wroteStep_cases ht
  have hfilled := h.filled
  rw [UtpRun.pending, if_pos hpc] at hfilled
  rcases hu with rfl | ⟨-, rfl⟩
  · exact OrderInv.countSent hfilled
  · exact OrderInv.countSent (hfilled.congr ⟨rfl, rfl, rfl⟩ rfl hfilled.sz hfilled.read)

theorem OrderInv.polled (h : OrderInv l₀ s) (ht : s.polledStep = some t) : OrderInv l₀ t := by
  rcases UtpRun.polledStep_cases ht with ⟨hpc, rfl⟩ | ⟨c, hpc, rfl⟩
  · have hfilled := h.filled_zero (by rw [hpc]; decide)
    exact .of_filled (hfilled.congr ⟨rfl, rfl, rfl⟩ rfl hfilled.sz hfilled.read) nofun (by simp)
      (by simp [UtpRun.finished, UtpPc.over])
  · have hfilled := h.filled_zero (by rw [hpc]; nofun)
    refine .of_filled (hfilled.congr ⟨rfl, rfl, rfl⟩ rfl hfilled.sz hfilled.read) nofun ?_ ?_
    · intro hpc'
      cases c with
      | main => exact h.idle (.inl hpc)
      | drain => simp at hpc'
    · rintro ⟨hover, hab, hcmd⟩
      exact h.finished ⟨by rw [hpc]; exact hover, hab, hcmd⟩

theorem OrderInv.checked {late : Bool} (h : OrderInv l₀ s)
    (ht : s.checkedStep .client late = some t) : OrderInv l₀ t := by
  obtain ⟨u, recv, hu, hcases⟩ := UtpRun.checkedStep_cases ht
  have hpc : u.pc = s.pc := by rcases hu with ⟨-, rfl, -⟩ | ⟨-, rfl, -⟩ <;> rfl
  have hinv : OrderInv l₀ u := by
    rcases hu with ⟨-, rfl, -⟩ | ⟨-, rfl, -⟩
    · exact h.same_pc ⟨rfl, rfl, rfl⟩ id ⟨rfl, rfl, rfl, rfl⟩ ⟨rfl, rfl⟩ h.filled.read
    · exact h
  have hread := h.filled.read
  have hnonneg : ¬ recv < 0 := by
    rcases hu with ⟨-, -, hrecv⟩ | ⟨-, -, hrecv⟩ <;> omega
  rcases hcases with ⟨hmain, -, rfl⟩ | ⟨-, hserver, -⟩ | ⟨hdrain, rfl⟩
  · have hnone := h.idle (.inr hmain)
    have hfilled := hinv.filled_zero (by rw [hpc, hmain]; decide)
    rw [if_neg hnonneg]
    exact OrderInv.countSent (hfilled.of_eq hnone.symm)
  · cases hserver
  · have hfilled := hinv.filled_zero (by rw [hpc, hdrain]; decide)
    refine .of_filled (hfilled.congr ⟨rfl, rfl, rfl⟩ rfl hfilled.sz hfilled.read) nofun (by simp) ?_
    rintro ⟨-, hab, hcmd⟩
    exact hinv.finished ⟨by rw [hpc, hdrain]; rfl, hab, hcmd⟩

theorem OrderInv.switch (h : OrderInv l₀ s) (ht : s.switchStep .client = some t) :
    OrderInv l₀ t := by
  obtain ⟨hpc, hcases⟩ := UtpRun.switchStep_cases ht
  have hfilled := h.filled_zero (by rw [hpc]; decide)
  rcases hcases with rfl | ⟨l, hl, rfl⟩
  · exact OrderInv.tbUtpClose (hfilled.congr ⟨rfl, rfl, rfl⟩ rfl hfilled.sz hfilled.read) nofun
  · exact .of_filled (hfilled.congr ⟨hl.fileSize, hl.bufsize, hl.totalTxRx⟩ rfl hfilled.sz
      hfilled.read) nofun (by simp) (by simp [UtpRun.finished, UtpPc.over])

/-- The loop of `tb_utp_close` neither copies nor counts. -/
theorem OrderInv.closed (h : OrderInv l₀ s) (ht : s.closedStep = some t) : OrderInv l₀ t := by
  obtain ⟨hpc, rfl⟩ := UtpRun.closedStep_cases ht
  have hfilled := h.filled_zero (by rw [hpc]; decide)
  refine .of_filled (hfilled.congr ⟨rfl, rfl, rfl⟩ rfl hfilled.sz hfilled.read) nofun (by simp) ?_
  exact fun ⟨_, hab, hcmd⟩ => h.finished ⟨by rw [hpc]; rfl, hab, hcmd⟩

theorem OrderInv.drained (h : OrderInv l₀ s) (ht : s.drainedStep = some t) : OrderInv l₀ t := by
  obtain ⟨hpc, hcases⟩ := UtpRun.drainedStep_cases ht
  have hfilled := h.filled_zero (by rw [hpc]; decide)
  have hfin : s.aborting = false → s.listener.command.eLoop = false →
      s.listener.totalTxRx = l₀.fileSize :=
    fun hab hcmd => h.finished ⟨by rw [hpc]; rfl, hab, hcmd⟩
  rcases hcases with rfl | rfl
  · exact OrderInv.endClose hfilled hfin
  · exact .of_filled (hfilled.congr ⟨rfl, rfl, rfl⟩ rfl hfilled.sz (Int.le_refl 0)) nofun
      (by simp [UtpRun.tbUtpRecv]) fun ⟨_, hab, hcmd⟩ => hfin hab hcmd

/-- **Step.** -/
theorem orderInv_step (hl : Sizes l₀) {l : UtpLabel} (h : OrderInv l₀ s)
    (hsplit : SplitsWrites s l) (ht : s.step .client l = some t) : OrderInv l₀ t := by
  cases l with
  | start => exact h.start hl ht
  | test => exact h.test hl ht
  | callback cb => exact h.callback hsplit ht
  | wrote rc => exact h.wrote ht
  | polled => exact h.polled ht
  | checked late => exact h.checked ht
  | switch => exact h.switch ht
  | closed => exact h.closed ht
  | drained => exact h.drained ht
  | env e =>
    cases ht
    cases e with
    | interrupt =>
      exact h.same_pc ⟨rfl, rfl, rfl⟩ (by simp [ClientEnv.perform])
        ⟨rfl, rfl, rfl, rfl⟩ ⟨rfl, rfl⟩ h.filled.read
    | tick q => exact h.same_pc ⟨rfl, rfl, rfl⟩ id ⟨rfl, rfl, rfl, rfl⟩ ⟨rfl, rfl⟩ h.filled.read

end Step

theorem orderInv_init {l₀ : Listener} (hl : Sizes l₀) (htotal : l₀.totalTxRx = 0) :
    OrderInv l₀ (UtpRun.init l₀) := by
  have hfile := hl.fileSize_nonneg
  refine .of_filled ⟨rfl, rfl, htotal.symm.le, Int.le_refl 0, ?_, ?_, by simp [UtpRun.init],
    ⟨Int.le_refl 0, hl.bufsize_nonneg⟩, Int.le_refl 0⟩ nofun (by simp [UtpRun.init])
    (by simp [UtpRun.finished, UtpRun.init, UtpPc.over])
  · exact (Int.add_zero _).trans_le (htotal.trans_le hfile)
  · simp [UtpRun.init, htotal]

theorem orderInv_run {l₀ : Listener} (hl : Sizes l₀) (htotal : l₀.totalTxRx = 0)
    {ls : List UtpLabel} {s : UtpRun}
    (hsplit : Meets (UtpRun.step .client) SplitsWrites (UtpRun.init l₀) ls)
    (h : run (UtpRun.step .client) (UtpRun.init l₀) ls = some s) : OrderInv l₀ s :=
  run_invariant_of_meets (orderInv_init hl htotal) (fun _ _ _ => orderInv_step hl) hsplit h

/-! ## What was copied -/

/-- The pieces that a step adds. -/
def fillOf (s : UtpRun) : UtpLabel → List Fill
  | .callback (.onWrite count) =>
    [⟨s.utp.sData, s.listener.totalTxRx + s.utp.writeBytes, count⟩]
  | _ => []

theorem tbUtpClose_fills (s : UtpRun) : s.tbUtpClose.fills = s.fills := by
  unfold UtpRun.tbUtpClose
  split <;> rfl

theorem countSent_fills (s : UtpRun) (sent : Int) : (s.countSent sent).fills = s.fills := by
  simp only [UtpRun.countSent]
  split
  · exact tbUtpClose_fills _
  · rfl

theorem tbUtpSend_fills (s : UtpRun) : s.tbUtpSend.fills = s.fills := by
  simp only [UtpRun.tbUtpSend]
  split <;> rfl

/-- Only `tb_utp_write` fills a buffer. -/
theorem step_fills {s t : UtpRun} {l : UtpLabel} (h : s.step .client l = some t) :
    t.fills = s.fills ++ fillOf s l := by
  cases l <;> simp only [UtpRun.step] at h
  case callback cb =>
    unfold UtpRun.callbackStep at h
    split at h <;> cases h
    cases cb <;> simp [UtpRun.callback, fillOf]
  case env e =>
    cases h
    simp [fillOf]
  all_goals simp only [fillOf, List.append_nil]
  case start =>
    obtain ⟨-, ⟨-, rfl⟩ | ⟨-, rfl⟩⟩ := UtpRun.startStep_cases h <;> rfl
  case test =>
    obtain ⟨-, ⟨-, rfl⟩ | ⟨-, rfl⟩ | ⟨-, rfl⟩⟩ := UtpRun.testStep_cases h
    · exact tbUtpClose_fills _
    · exact tbUtpSend_fills _
    · rfl
  case wrote rc =>
    obtain ⟨-, u, hu, rfl⟩ := UtpRun.wroteStep_cases h
    rw [countSent_fills]
    rcases hu with rfl | ⟨-, rfl⟩ <;> rfl
  case polled =>
    rcases UtpRun.polledStep_cases h with ⟨-, rfl⟩ | ⟨c, -, rfl⟩ <;> rfl
  case checked late =>
    obtain ⟨u, recv, hu, hcases⟩ := UtpRun.checkedStep_cases h
    have hfills : u.fills = s.fills := by rcases hu with ⟨-, rfl, -⟩ | ⟨-, rfl, -⟩ <;> rfl
    rcases hcases with ⟨-, -, rfl⟩ | ⟨-, hserver, -⟩ | ⟨-, rfl⟩
    · rw [countSent_fills, hfills]
    · cases hserver
    · exact hfills
  case switch =>
    obtain ⟨-, rfl | ⟨l, -, rfl⟩⟩ := UtpRun.switchStep_cases h
    · exact tbUtpClose_fills _
    · rfl
  case closed =>
    obtain ⟨-, rfl⟩ := UtpRun.closedStep_cases h
    rfl
  case drained =>
    obtain ⟨-, rfl | rfl⟩ := UtpRun.drainedStep_cases h <;> rfl

/-- A piece that a step adds is right exactly if the step copies what is due. -/
theorem copiesDue_iff_fillOf {l₀ : Listener} {s : UtpRun} (h : OrderInv l₀ s) {l : UtpLabel}
    (hsplit : SplitsWrites s l) (mem : List UInt8) :
    CopiesDue mem s l ↔ ∀ f ∈ fillOf s l, f.bytes mem = f.due mem := by
  cases l with
  | callback cb =>
    cases cb with
    | onWrite count =>
      simp [CopiesDue, fillOf, Fill.bytes, Fill.due, ← (h.writing hsplit.1).1]
    | _ => simp [CopiesDue, fillOf]
  | _ => simp [CopiesDue, fillOf]

/-- Every step has copied what was due exactly if every piece is right. -/
theorem meets_copiesDue_iff {l₀ : Listener} (hl : Sizes l₀) (htotal : l₀.totalTxRx = 0)
    (mem : List UInt8) {ls : List UtpLabel} {s : UtpRun}
    (hsplit : Meets (UtpRun.step .client) SplitsWrites (UtpRun.init l₀) ls)
    (h : run (UtpRun.step .client) (UtpRun.init l₀) ls = some s) :
    Meets (UtpRun.step .client) (CopiesDue mem) (UtpRun.init l₀) ls ↔
      ∀ f ∈ s.fills, f.bytes mem = f.due mem := by
  refine run_induction (P := fun ls s =>
    Meets (UtpRun.step .client) SplitsWrites (UtpRun.init l₀) ls →
      (Meets (UtpRun.step .client) (CopiesDue mem) (UtpRun.init l₀) ls ↔
        ∀ f ∈ s.fills, f.bytes mem = f.due mem)) ?_ ?_ h hsplit
  · intro _
    simp [meets_nil, UtpRun.init]
  · intro ls s l t hr ih ht hsplit
    have hinv := orderInv_run hl htotal hsplit.of_append hr
    rw [meets_concat_iff hr, ih hsplit.of_append, step_fills ht, List.forall_mem_append,
      copiesDue_iff_fillOf hinv (hsplit.last hr)]

/-- Outside of a write, the buffers are the beginning of the file exactly if every piece is right. -/
theorem OrderInv.filled_eq_iff {l₀ : Listener} {s : UtpRun} (h : OrderInv l₀ s) {mem : List UInt8}
    (hmem : l₀.fileSize = mem.length) (hpc : s.pc ≠ .writing) :
    s.filled mem = slice mem 0 s.listener.totalTxRx.toNat ↔
      ∀ f ∈ s.fills, f.bytes mem = f.due mem := by
  have hfilled := h.filled_zero hpc
  have hdue : slice mem 0 s.listener.totalTxRx.toNat = s.fills.flatMap (Fill.due mem) := by
    have htiles := hfilled.tiles.flatMap_slice mem
    rw [List.flatMap_map, Int.add_zero, Nat.sub_zero] at htiles
    exact htiles.symm
  rw [UtpRun.filled, hdue]
  refine flatMap_eq_flatMap_iff fun f hf => ?_
  obtain ⟨hsrc, hle, hend⟩ := hfilled.inside f hf
  rw [Fill.bytes, Fill.due, slice_length (by omega), slice_length (by omega)]

/-- **The client sends the file in order exactly if every piece copies what is due.** At every test of
the loop the buffers are the file up to `total_tx_rx`, and behind a loop that ended by itself they are
the whole file, if and only if no callback so far has copied other bytes than those that were due; the
count is right in either case. -/
theorem sends_in_order_iff (l₀ : Listener) (hl : Sizes l₀) (htotal : l₀.totalTxRx = 0)
    (mem : List UInt8) (hmem : l₀.fileSize = mem.length) (ls : List UtpLabel) (s : UtpRun)
    (hsplit : Meets (UtpRun.step .client) SplitsWrites (UtpRun.init l₀) ls)
    (h : run (UtpRun.step .client) (UtpRun.init l₀) ls = some s) :
    (s.pc = .test →
      (s.filled mem = slice mem 0 s.listener.totalTxRx.toNat ↔
        Meets (UtpRun.step .client) (CopiesDue mem) (UtpRun.init l₀) ls)) ∧
    (s.finished →
      s.listener.totalTxRx = mem.length ∧
        (s.filled mem = mem ↔
          Meets (UtpRun.step .client) (CopiesDue mem) (UtpRun.init l₀) ls)) := by
  have hinv := orderInv_run hl htotal hsplit h
  rw [meets_copiesDue_iff hl htotal mem hsplit h]
  constructor
  · intro hpc
    exact hinv.filled_eq_iff hmem (by rw [hpc]; decide)
  · intro hfin
    have hall := (hinv.finished hfin).trans hmem
    have hpc : s.pc ≠ .writing := by
      intro hpc
      have hover := hfin.1
      rw [hpc] at hover
      cases hover
    refine ⟨hall, ?_⟩
    rw [← hinv.filled_eq_iff hmem hpc, hall, Int.toNat_natCast, slice_self]

/-- Two bytes in two writes, with one callback in each. -/
theorem sends_in_order_two_writes :
    ∃ s, run (UtpRun.step .client) (UtpRun.init twoBytesToSend)
        [.start, .callback (.onState 0 .connect), .polled, .test, .callback (.onWrite 1), .wrote 1,
          .switch, .test, .callback (.onWrite 1), .wrote 1] = some s ∧
      s.finished ∧ s.filled [1, 2] = [1, 2] ∧ s.listener.totalTxRx = 2 := by
  refine ⟨_, rfl, ⟨rfl, rfl, rfl⟩, rfl, ?_⟩
  exact ((sends_in_order_iff twoBytesToSend ⟨by decide, by decide, by decide, by decide⟩ rfl [1, 2]
    rfl [.start, .callback (.onState 0 .connect), .polled, .test, .callback (.onWrite 1), .wrote 1,
      .switch, .test, .callback (.onWrite 1), .wrote 1] _ (by decide) rfl).2 ⟨rfl, rfl, rfl⟩).1

/-- The same bytes in one write with two callbacks: the second is given the first byte again. -/
theorem sends_first_byte_twice :
    Meets (UtpRun.step .client) SplitsWrites (UtpRun.init twoBytesToSend)
        [.start, .callback (.onState 0 .connect), .polled, .test, .callback (.onWrite 1),
          .callback (.onWrite 1), .wrote 1] ∧
      ∃ s, run (UtpRun.step .client) (UtpRun.init twoBytesToSend)
          [.start, .callback (.onState 0 .connect), .polled, .test, .callback (.onWrite 1),
            .callback (.onWrite 1), .wrote 1] = some s ∧
        s.finished ∧ s.filled [1, 2] = [1, 1] ∧ s.filled [1, 2] ≠ slice [1, 2] 0 2 :=
  ⟨by decide, _, rfl, ⟨rfl, rfl, rfl⟩, rfl, by decide⟩

end TestBed
