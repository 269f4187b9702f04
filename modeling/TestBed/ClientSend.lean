import TestBed.MClientSend
import TestBed.MServer
import TestBed.StreamClient

/-!
# What the single-connection clients send

`tb_stream_client` and `tb_udt_client` with the steps of the interrupt handler and the monitor between
their own. Both keep the invariant of the session threads (`SendInv`), on the listener instead of a
session: the accepted pieces tile the file up to `total_tx_rx`, and the request size, which is only
ever lowered, never passes the end. A tolerated error is a piece of length 0.

The loop of `tb_udt_client` also ends at an exit command; that of `tb_stream_client` does not look at
the command.
-/

namespace TestBed

open CInt Transition Slice

/-! ## The clients -/

namespace UdtClient

/-- The test of the loop. -/
def goesOn (l : Listener) : Bool := l.totalTxRx < l.fileSize && !l.command.eLoop

/-- `tb_udt_client`, which calls `udt_send` itself and tolerates no error. -/
def step (s : StreamClient) : CLabel → Option StreamClient
  | .connect ok => s.step (.connect ok)
  | .send rc _ =>
    if s.pc = .sending ∧ goesOn s.listener then
      let sz := s.nextSz
      let s := { s with
        sz := sz
        calls := s.calls ++ [SendCall.mk s.listener.totalTxRx sz rc] }
      if rc = -1 then some { s with listener := tbAbort s.listener, pc := .aborted }
      else if 0 ≤ rc ∧ rc ≤ sz then
        some { s with
          listener := { s.listener with totalTxRx := s.listener.totalTxRx + rc } }
      else none
    else none
  | .finish =>
    if s.pc = .sending ∧ ¬ goesOn s.listener then
      some { s with
        listener := { s.listener with transferTime := tbFinishTime s.listener.transferTime }
        pc := .closing }
    else none
  | .close => s.step .close

end UdtClient

inductive ClientEnv
  | interrupt
  | tick (q : StatsQuery)

def ClientEnv.perform (l : Listener) : ClientEnv → Listener
  | .interrupt => { l with command := .tbExit }
  | .tick q => tbSetLStats q l

/-- The steps of one of the clients. -/
def singleClient : SKind → StreamClient → CLabel → Option StreamClient
  | .stream => StreamClient.step
  | .udt => UdtClient.step

/-- A client among the interrupt handler and the monitor. -/
def clientStep (k : SKind) (s : StreamClient) : CLabel ⊕ ClientEnv → Option StreamClient
  | .inl l => singleClient k s l
  | .inr e => some { s with listener := e.perform s.listener }

/-- The loop is over. -/
def StreamClientPc.out : StreamClientPc → Bool
  | .closing | .returned => true
  | _ => false

/-- The client has been commanded to leave its loop early. -/
def StreamClient.commanded (k : SKind) (s : StreamClient) : Prop :=
  k = .udt ∧ s.listener.command.eLoop = true

/-! ## The invariant -/

structure ClientInv (k : SKind) (l₀ : Listener) (s : StreamClient) : Prop where
  fileSize : s.listener.fileSize = l₀.fileSize
  bufsize : s.listener.bufsize = l₀.bufsize
  total_nonneg : 0 ≤ s.listener.totalTxRx
  total_le : s.listener.totalTxRx ≤ l₀.fileSize
  tiles : Tiles 0 (s.calls.map SendCall.piece) s.listener.totalTxRx.toNat
  inside : ∀ call ∈ s.calls, 0 ≤ call.off ∧ 0 ≤ call.len ∧ call.off + call.len ≤ l₀.fileSize
  sz : s.pc = .sending → 0 ≤ s.sz ∧ s.sz ≤ l₀.bufsize
  complete : s.pc.out = true → ¬ s.commanded k → s.listener.totalTxRx = l₀.fileSize

/-- What one call of `send` makes of the client. -/
structure Called (rc : Int) (s t : StreamClient) : Prop where
  fileSize : t.listener.fileSize = s.listener.fileSize
  bufsize : t.listener.bufsize = s.listener.bufsize
  total : t.listener.totalTxRx = s.listener.totalTxRx + rc.toNat
  calls : t.calls = s.calls ++ [⟨s.listener.totalTxRx, s.nextSz, rc⟩]
  sz : t.sz = s.nextSz
  pc : t.pc = .sending ∨ t.pc = .aborted

section Step

variable {k : SKind} {l₀ : Listener} {s t : StreamClient}

theorem ClientInv.init (hl : Sizes l₀) (htotal : l₀.totalTxRx = 0) :
    ClientInv k l₀ (StreamClient.init l₀) := by
  have := hl.fileSize_nonneg
  refine ⟨rfl, rfl, ?_, ?_, ?_, by simp [StreamClient.init], nofun, nofun⟩
  · exact Int.le_of_eq htotal.symm
  · exact htotal.trans_le this
  · simp [StreamClient.init, htotal]

/-- The requested size is at most what is left and at most the buffer. -/
theorem ClientInv.nextSz_bounds (h : ClientInv k l₀ s) (hl : Sizes l₀) (hpc : s.pc = .sending) :
    0 ≤ s.nextSz ∧ s.nextSz ≤ l₀.bufsize ∧ s.nextSz ≤ l₀.fileSize - s.listener.totalTxRx := by
  obtain ⟨hsz, hsz'⟩ := h.sz hpc
  have htotal := h.total_nonneg
  have htotal' := h.total_le
  have hlt := hl.fileSize_lt
  simp only [StreamClient.nextSz]
  rw [h.fileSize, h.bufsize, asInt_eq (by omega) (by omega)]
  split <;> omega

/-- A step that sends nothing. -/
theorem ClientInv.congr (h : ClientInv k l₀ s)
    (hl : t.listener.fileSize = s.listener.fileSize ∧ t.listener.bufsize = s.listener.bufsize ∧
      t.listener.totalTxRx = s.listener.totalTxRx)
    (hcalls : t.calls = s.calls) (hsz : t.pc = .sending → 0 ≤ t.sz ∧ t.sz ≤ l₀.bufsize)
    (hcomplete : t.pc.out = true → ¬ t.commanded k → s.listener.totalTxRx = l₀.fileSize) :
    ClientInv k l₀ t := by
  obtain ⟨hfile, hbuf, htotal⟩ := hl
  constructor
  · rw [hfile, h.fileSize]
  · rw [hbuf, h.bufsize]
  · rw [htotal]
    exact h.total_nonneg
  · rw [htotal]
    exact h.total_le
  · rw [hcalls, htotal]
    exact h.tiles
  · rw [hcalls]
    exact h.inside
  · exact hsz
  · rw [htotal]
    exact hcomplete

/-- One more call, which accepts as many of the requested bytes as it returns, and none where it
fails. -/
theorem ClientInv.call (h : ClientInv k l₀ s) (hl : Sizes l₀) (hpc : s.pc = .sending) {rc : Int}
    (hrc : (rc.toNat : Int) ≤ s.nextSz) (ht : Called rc s t) : ClientInv k l₀ t := by
  obtain ⟨hsz, hbuf, hleft⟩ := h.nextSz_bounds hl hpc
  have htotal := h.total_nonneg
  constructor
  · rw [ht.fileSize, h.fileSize]
  · rw [ht.bufsize, h.bufsize]
  · rw [ht.total]
    omega
  · rw [ht.total]
    omega
  · have htiles := h.tiles.concat rc.toNat
    rw [ht.calls, ht.total, Int.toNat_add htotal (Int.natCast_nonneg _), Int.toNat_natCast]
    simpa only [List.map_append, List.map_cons, List.map_nil, SendCall.piece] using htiles
  · intro call hcall
    rw [ht.calls, List.mem_append, List.mem_singleton] at hcall
    rcases hcall with hcall | rfl
    · exact h.inside call hcall
    · dsimp only
      omega
  · intro _
    rw [ht.sz]
    exact ⟨hsz, hbuf⟩
  · intro hout
    rcases ht.pc with hpc' | hpc' <;> rw [hpc'] at hout <;> cases hout

theorem StreamClient.send_called {rc errNo : Int} (hsz : asSizeT s.nextSz = s.nextSz)
    (h : s.step (.send rc errNo) = some t) :
    s.pc = .sending ∧ (0 ≤ s.nextSz → (rc.toNat : Int) ≤ s.nextSz) ∧ Called rc s t := by
  simp only [StreamClient.step, hsz] at h
  split at h
  case isFalse => cases h
  case isTrue hpc =>
    refine ⟨hpc.1, ?_⟩
    split at h
    · next hfail =>
      subst hfail
      split at h <;> cases h
      · exact ⟨id, rfl, rfl, by simp, rfl, rfl, .inl hpc.1⟩
      · exact ⟨id, rfl, rfl, by simp [tbAbort], rfl, rfl, .inr rfl⟩
    · split at h <;> cases h
      next hrc =>
      have hnat := Int.toNat_of_nonneg hrc.1
      exact ⟨fun _ => hnat.trans_le hrc.2, rfl, rfl, by simp [hnat], rfl, rfl, .inl hpc.1⟩

theorem UdtClient.send_called {rc : Int} (errNo : Int)
    (h : UdtClient.step s (.send rc errNo) = some t) :
    s.pc = .sending ∧ (0 ≤ s.nextSz → (rc.toNat : Int) ≤ s.nextSz) ∧ Called rc s t := by
  simp only [UdtClient.step] at h
  split at h
  case isFalse => cases h
  case isTrue hpc =>
    refine ⟨hpc.1, ?_⟩
    split at h
    · next hfail =>
      subst hfail
      cases h
      exact ⟨id, rfl, rfl, by simp [tbAbort], rfl, rfl, .inr rfl⟩
    · split at h <;> cases h
      next hrc =>
      have hnat := Int.toNat_of_nonneg hrc.1
      exact ⟨fun _ => hnat.trans_le hrc.2, rfl, rfl, by simp [hnat], rfl, rfl, .inl hpc.1⟩

theorem ClientInv.called (h : ClientInv k l₀ s) (hl : Sizes l₀) {rc errNo : Int}
    (ht : singleClient k s (.send rc errNo) = some t) :
    s.pc = .sending ∧ (rc.toNat : Int) ≤ s.nextSz ∧ Called rc s t := by
  have hcall : s.pc = .sending ∧ (0 ≤ s.nextSz → (rc.toNat : Int) ≤ s.nextSz) ∧ Called rc s t := by
    cases k with
    | udt => exact UdtClient.send_called errNo ht
    | stream =>
      have hpc : s.pc = .sending := by
        by_contra hpc
        simp [singleClient, StreamClient.step, hpc] at ht
      have hsz := h.nextSz_bounds hl hpc
      have hlt := hl.bufsize_lt
      exact StreamClient.send_called (asSizeT_eq hsz.1 (by omega)) ht
  exact ⟨hcall.1, hcall.2.1 (h.nextSz_bounds hl hcall.1).1, hcall.2.2⟩

theorem ClientInv.connect (h : ClientInv k l₀ s) (hl : Sizes l₀) {ok : Bool}
    (ht : s.step (.connect ok) = some t) : ClientInv k l₀ t := by
  simp only [StreamClient.step] at ht
  split at ht
  · split at ht <;> cases ht
    · refine h.congr ⟨rfl, rfl, rfl⟩ rfl (fun _ => ?_) (fun hout => ?_)
      · exact ⟨h.bufsize ▸ hl.bufsize_nonneg, h.bufsize.le⟩
      · cases hout
    · refine h.congr ⟨rfl, rfl, rfl⟩ rfl (fun hpc => ?_) (fun hout => ?_)
      · cases hpc
      · cases hout
  · cases ht

theorem ClientInv.close (h : ClientInv k l₀ s) (ht : s.step .close = some t) :
    ClientInv k l₀ t := by
  simp only [StreamClient.step] at ht
  split at ht <;> cases ht
  next hpc =>
  refine h.congr ⟨rfl, rfl, rfl⟩ rfl (fun hpc => ?_) fun _ => h.complete (by rw [hpc]; rfl)
  cases hpc

/-- The loop ends at the end of the file, or at a command. -/
theorem ClientInv.finish (h : ClientInv k l₀ s) (ht : singleClient k s .finish = some t) :
    ClientInv k l₀ t := by
  have hle := h.total_le
  cases k with
  | stream =>
    simp only [singleClient, StreamClient.step] at ht
    split at ht <;> cases ht
    next hend =>
    refine h.congr ⟨rfl, rfl, rfl⟩ rfl (fun hpc => ?_) fun _ _ => ?_
    · cases hpc
    · rw [h.fileSize] at hend
      omega
  | udt =>
    simp only [singleClient, UdtClient.step] at ht
    split at ht <;> cases ht
    next hend =>
    refine h.congr ⟨rfl, rfl, rfl⟩ rfl (fun hpc => ?_) fun _ hcmd => ?_
    · cases hpc
    · have hcmd : s.listener.command.eLoop = false := by simpa [StreamClient.commanded] using hcmd
      rw [UdtClient.goesOn, hcmd, h.fileSize] at hend
      simp only [Bool.not_false, Bool.and_true, decide_eq_true_eq] at hend
      omega

/-- **Step.** -/
theorem clientInv_step (hl : Sizes l₀) {l : CLabel ⊕ ClientEnv} (h : ClientInv k l₀ s)
    (ht : clientStep k s l = some t) : ClientInv k l₀ t := by
  cases l with
  | inl l =>
    cases l with
    | connect ok => cases k <;> exact h.connect hl ht
    | finish => exact h.finish ht
    | close => cases k <;> exact h.close ht
    | send rc errNo =>
      obtain ⟨hpc, hrc, hcall⟩ := h.called hl ht
      exact h.call hl hpc hrc hcall
  | inr e =>
    cases ht
    have hcmd : ∀ t : StreamClient, t.listener.command = s.listener.command ∨
        t.listener.command = .tbExit → ¬ t.commanded k → ¬ s.commanded k := by
      rintro t ht hnot ⟨hk, hexit⟩
      refine hnot ⟨hk, ?_⟩
      rcases ht with ht | ht <;> rw [ht]
      · exact hexit
      · rfl
    cases e with
    | interrupt =>
      exact h.congr ⟨rfl, rfl, rfl⟩ rfl h.sz
        fun hout hnot => h.complete hout (hcmd _ (.inr rfl) hnot)
    | tick q =>
      exact h.congr ⟨rfl, rfl, rfl⟩ rfl h.sz
        fun hout hnot => h.complete hout (hcmd _ (.inl rfl) hnot)

end Step

theorem clientInv_run {k : SKind} {l₀ : Listener} (hl : Sizes l₀) (htotal : l₀.totalTxRx = 0)
    {ls : List (CLabel ⊕ ClientEnv)} {s : StreamClient}
    (h : run (clientStep k) (StreamClient.init l₀) ls = some s) : ClientInv k l₀ s :=
  run_invariant (ClientInv.init hl htotal) (fun _ _ _ hs ht => clientInv_step hl hs ht) h

/-- The bytes accepted so far are the first bytes of the file. -/
theorem ClientInv.accepted_eq {k : SKind} {l₀ : Listener} {s : StreamClient}
    (h : ClientInv k l₀ s) (mem : List UInt8) :
    s.accepted mem = slice mem 0 s.listener.totalTxRx.toNat := by
  rw [StreamClient.accepted, h.tiles.flatMap_slice, Nat.sub_zero]

/-- **A client sends the file once and stays inside it.** Every range requested lies in the file; what
was accepted is the file up to `total_tx_rx`; a failing send changes neither; and a loop that was not
commanded to end has sent everything. -/
theorem clients_send_file_once (k : SKind) (l₀ : Listener) (hl : Sizes l₀)
    (htotal : l₀.totalTxRx = 0) (mem : List UInt8) (ls : List (CLabel ⊕ ClientEnv))
    (s : StreamClient) (h : run (clientStep k) (StreamClient.init l₀) ls = some s) :
    (∀ call ∈ s.calls, 0 ≤ call.off ∧ 0 ≤ call.len ∧ call.off + call.len ≤ l₀.fileSize) ∧
      s.accepted mem = slice mem 0 s.listener.totalTxRx.toNat ∧
      (∀ errNo t, singleClient k s (.send (-1) errNo) = some t →
        t.accepted mem = s.accepted mem ∧ t.listener.totalTxRx = s.listener.totalTxRx) ∧
      (s.pc.out = true → ¬ s.commanded k → s.listener.totalTxRx = l₀.fileSize) := by
  have hinv := clientInv_run hl htotal h
  refine ⟨hinv.inside, hinv.accepted_eq mem, ?_, hinv.complete⟩
  intro errNo t ht
  have hsame : t.listener.totalTxRx = s.listener.totalTxRx := by
    obtain ⟨-, -, hcall⟩ := hinv.called hl ht
    rw [hcall.total]
    exact Int.add_zero _
  have hinv' : ClientInv k l₀ t := clientInv_step hl (l := .inl (.send (-1) errNo)) hinv ht
  exact ⟨by rw [hinv'.accepted_eq, hinv.accepted_eq, hsame], hsame⟩

/-- A client that has generated six bytes, to be sent four at a time. -/
def sixByteListener (protocol : Protocol) : Listener :=
  { tbCreateListener .client protocol 4 with fileSize := 6 }

theorem sizes_sixByteListener (protocol : Protocol) : Sizes (sixByteListener protocol) :=
  ⟨by simp [sixByteListener], by simp [sixByteListener], by simp [sixByteListener, tbCreateListener],
    by simp [sixByteListener, tbCreateListener]⟩

/-- Six bytes over DCCP, with an error that is tolerated between two sends. -/
def sixBytesDccp : List (CLabel ⊕ ClientEnv) :=
  [.inl (.connect true), .inl (.send 3 0), .inl (.send (-1) eagain), .inr .interrupt,
    .inl (.send 3 0), .inl .finish]

/-- Six bytes over UDT, where the interrupt comes when all are sent. -/
def sixBytesUdt : List (CLabel ⊕ ClientEnv) :=
  [.inl (.connect true), .inl (.send 4 0), .inl (.send 2 0), .inl .finish, .inr .interrupt,
    .inl .close]

theorem clients_send_file_once_six_bytes :
    (∃ s, run (clientStep .stream) (StreamClient.init (sixByteListener .dccp)) sixBytesDccp =
        some s ∧
      s.accepted [1, 2, 3, 4, 5, 6] = slice [1, 2, 3, 4, 5, 6] 0 6 ∧
      s.listener.totalTxRx = 6) ∧
    ∃ s, run (clientStep .udt) (StreamClient.init (sixByteListener .udt)) sixBytesUdt = some s ∧
      s.accepted [1, 2, 3, 4, 5, 6] = slice [1, 2, 3, 4, 5, 6] 0 6 ∧
      s.listener.totalTxRx = 6 :=
  ⟨⟨_, rfl, (clients_send_file_once .stream (sixByteListener .dccp) (sizes_sixByteListener .dccp) rfl
      [1, 2, 3, 4, 5, 6] sixBytesDccp _ rfl).2.1, rfl⟩,
    _, rfl, (clients_send_file_once .udt (sixByteListener .udt) (sizes_sixByteListener .udt) rfl
      [1, 2, 3, 4, 5, 6] sixBytesUdt _ rfl).2.1, rfl⟩

end TestBed
