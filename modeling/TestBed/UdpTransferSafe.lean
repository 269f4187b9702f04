import TestBed.UdpTransfer

/-!
# Safety of the UDP transfer

What a step can do to the parties and to the datagrams in flight is said once, in `step_moves`. The
totals of the two parties and the datagrams in flight form an unreliable link: every step is a step of
the link or leaves it alone (`step_link`). So the server never counts more than the client, and misses
nothing if no data datagram is dropped.

The client sends empty datagrams only after all data, and the server acknowledges only an empty
datagram it has read in its loop (`TransferInv`).
-/

namespace TestBed

open CInt Transition

variable {B F : Int} {s t : UdpTransfer}

/-- The totals of the parties and the datagrams on their way to the server. -/
def UdpTransfer.link (s : UdpTransfer) : Link.State where
  sent := s.client.listener.totalTxRx
  inFlight := s.toServer
  received := s.server.listener.totalTxRx

/-- The invariant of a transfer with packet size `B` and file size `F`. -/
structure TransferInv (B F : Int) (s : UdpTransfer) : Prop where
  bufsize : s.client.listener.bufsize = B
  fileSize : s.client.listener.fileSize = F
  dataSize : s.server.currSession.dataSize = B
  sz : s.client.pc = .data → 1 ≤ s.client.sz ∧ s.client.sz ≤ B
  total : 0 ≤ s.client.listener.totalTxRx ∧ s.client.listener.totalTxRx ≤ F
  inFlight : ∀ n ∈ s.toServer, 0 ≤ n ∧ n ≤ B
  sent : s.client.pc.allSent = true ∨ 0 ∈ s.toServer → s.client.listener.totalTxRx = F
  acked : s.toClient ≠ [] ∨ s.client.listener.command = .tbExit → s.server.pc.out = true
  eot : s.server.pc = .ack ∨ s.server.pc.out = true → 0 ∈ s.server.received

namespace UdpSender

/-- A datagram is not empty, fits into a packet and is at most what is left of the file. -/
theorem nextSz_bounds {c : UdpSender} (hsz : 1 ≤ c.sz ∧ c.sz ≤ c.listener.bufsize)
    (htotal : 0 ≤ c.listener.totalTxRx) (hlt : c.listener.totalTxRx < c.listener.fileSize)
    (hF : c.listener.fileSize < 2 ^ 31) :
    1 ≤ c.nextSz ∧ c.nextSz ≤ c.listener.bufsize ∧
      c.nextSz ≤ c.listener.fileSize - c.listener.totalTxRx := by
  unfold nextSz
  split
  · rw [asInt_eq (by omega) (by omega)]
    omega
  · omega

/-- The client's sizes, its total and its command are as before. -/
structure Keeps (c c' : UdpSender) : Prop where
  bufsize : c'.listener.bufsize = c.listener.bufsize
  fileSize : c'.listener.fileSize = c.listener.fileSize
  totalTxRx : c'.listener.totalTxRx = c.listener.totalTxRx
  command : c'.listener.command = c.listener.command

/-- What a turn of the data loop does. -/
inductive DataMoves (c : UdpSender) : Option Int → Bool → UdpSender × List Int → Prop
  | leaves {numBytes : Option Int} {ok : Bool}
    (hge : c.listener.fileSize ≤ c.listener.totalTxRx) :
    DataMoves c numBytes ok ({ c with
      listener := { c.listener with transferTime := tbFinishTime c.listener.transferTime }
      pc := .eot }, [])
  | ioctlFails {ok : Bool} (hlt : c.listener.totalTxRx < c.listener.fileSize) :
    DataMoves c none ok (c.abort, [])
  | waits {n : Int} {ok : Bool} (hlt : c.listener.totalTxRx < c.listener.fileSize)
    (hfull : c.sndBuffSz - n ≤ c.nextSz) :
    DataMoves c (some n) ok ({ c with sz := c.nextSz }, [])
  | sends {n : Int} (hlt : c.listener.totalTxRx < c.listener.fileSize)
    (hroom : c.nextSz < c.sndBuffSz - n) :
    DataMoves c (some n) true ({ c with
      listener := { c.listener with totalTxRx := c.listener.totalTxRx + c.nextSz }
      sz := c.nextSz }, [c.nextSz])
  | sendFails {n : Int} (hlt : c.listener.totalTxRx < c.listener.fileSize)
    (hroom : c.nextSz < c.sndBuffSz - n) :
    DataMoves c (some n) false ({ c with sz := c.nextSz }.abort, [])

theorem dataStep_cases {c : UdpSender} {numBytes : Option Int} {ok : Bool}
    {r : UdpSender × List Int} (h : c.dataStep numBytes ok = some r) :
    c.pc = .data ∧ DataMoves c numBytes ok r := by
  unfold dataStep at h
  split at h
  case isFalse => cases h
  case isTrue hpc =>
  refine ⟨hpc, ?_⟩
  split at h
  · next hlt =>
    cases numBytes with
    | none =>
      cases h
      exact .ioctlFails hlt
    | some n =>
      dsimp only at h
      split at h
      · next hroom =>
        cases ok with
        | true =>
          cases h
          exact .sends hlt hroom
        | false =>
          cases h
          exact .sendFails hlt hroom
      · next hfull =>
        cases h
        exact .waits hlt (Int.not_lt.mp hfull)
  · next hge =>
    cases h
    exact .leaves (Int.not_lt.mp hge)

end UdpSender

namespace UdpReceiver

/-- What the server does with a datagram of `n` bytes that fits into its buffer. -/
theorem recvStep_cases {r r' : UdpReceiver} {n : Int} (h : r.recvStep n = some r')
    (hn : 0 ≤ n) (hn' : n ≤ r.currSession.dataSize) (hlt : n < 2 ^ 31) :
    r'.currSession.dataSize = r.currSession.dataSize ∧ r'.received = r.received ++ [n] ∧
      r'.listener.totalTxRx = r.listener.totalTxRx + n ∧
      ((r'.pc = .loop ∧ (r.pc = .loop → n ≠ 0) ∧ (r.pc = .first ∨ r.pc = .loop)) ∨
        (r.pc = .loop ∧ r'.pc = .ack ∧ n = 0)) := by
  have hrc : asInt (min n r.currSession.dataSize) = n := by
    rw [Int.min_eq_left hn', asInt_eq (by omega) hlt]
  unfold recvStep at h
  rw [hrc] at h
  dsimp only at h
  split at h
  · next hpc =>
    cases h
    exact ⟨rfl, rfl, rfl, .inl ⟨rfl, by simp [hpc], .inl hpc⟩⟩
  · next hpc =>
    split at h <;> cases h
    · next heot =>
      have hzero : n = 0 := heot
      exact ⟨rfl, rfl, by simp [hzero], .inr ⟨hpc, rfl, hzero⟩⟩
    · next heot => exact ⟨rfl, rfl, rfl, .inl ⟨hpc, fun _ => heot, .inr hpc⟩⟩
  · cases h

end UdpReceiver

/-- What a step of the transfer does. -/
inductive Moves (s : UdpTransfer) : ULabel → UdpTransfer → Prop
  | client {l : ULabel} {c : UdpSender} (keeps : s.client.Keeps c)
    (data : c.pc = .data → c.sz = s.client.listener.bufsize ∨
      (s.client.pc = .data ∧ s.client.listener.totalTxRx < s.client.listener.fileSize ∧
        c.sz = s.client.nextSz))
    (allSent : c.pc.allSent = true → s.client.pc.allSent = true ∨
      s.client.listener.fileSize ≤ s.client.listener.totalTxRx) :
    Moves s l { s with client := c }
  | sendsData {l : ULabel} (hpc : s.client.pc = .data)
    (hlt : s.client.listener.totalTxRx < s.client.listener.fileSize) :
    Moves s l { s with
      client := { s.client with
        listener := { s.client.listener with
          totalTxRx := s.client.listener.totalTxRx + s.client.nextSz }
        sz := s.client.nextSz }
      toServer := s.toServer ++ [s.client.nextSz] }
  | sendsEot {l : ULabel} (hpc : s.client.pc = .eot) :
    Moves s l { s with
      client := { s.client with pc := .poll }
      toServer := s.toServer ++ [0] }
  | acked {l : ULabel} {i : Nat} {n : Int} (hpc : s.client.pc = .poll)
    (hn : s.toClient[i]? = some n) :
    Moves s l { s with
      client := { s.client with
        listener := { s.client.listener with command := .tbExit }
        pc := .closing }
      toClient := s.toClient.eraseIdx i }
  | receives {i : Nat} {n : Int} {r : UdpReceiver} (hn : s.toServer[i]? = some n)
    (hr : s.server.recvStep n = some r) :
    Moves s (.recv (some i)) { s with server := r, toServer := s.toServer.eraseIdx i }
  | aborts {l : ULabel} (hpc : s.server.pc.out = false) :
    Moves s l { s with server := s.server.abort }
  | acks {l : ULabel} (hpc : s.server.pc = .ack) :
    Moves s l { s with
      server := { s.server with pc := .left }
      toClient := s.toClient ++ [s.server.currSession.dataSize] }
  | closes {l : ULabel} (hpc : s.server.pc = .left) :
    Moves s l { s with server := { s.server with
      listener := { s.server.listener with
        transferTime := tbFinishTime s.server.listener.transferTime
        sockD := -1
        status := .disconnected }
      pc := .returned } }
  | dropsToServer {i : Nat} {n : Int} (hn : s.toServer[i]? = some n) :
    Moves s (.dropToServer i) { s with toServer := s.toServer.eraseIdx i }
  | dropsToClient {l : ULabel} {i : Nat} {n : Int} (hn : s.toClient[i]? = some n) :
    Moves s l { s with toClient := s.toClient.eraseIdx i }

theorem UdpSender.abort_moves {l : ULabel} {c : UdpSender} (hc : s.client.Keeps c) :
    Moves s l { s with client := c.abort } :=
  .client ⟨hc.bufsize, hc.fileSize, hc.totalTxRx, hc.command⟩ (by simp [abort])
    (by simp [abort, UdpClientPc.allSent])

theorem connectStep_moves {l : ULabel} {ok : Bool} {sndBuffSz : Option Int} {c : UdpSender}
    (hc : s.client.connectStep ok sndBuffSz = some c) : Moves s l { s with client := c } := by
  unfold UdpSender.connectStep at hc
  split at hc
  · split at hc
    · cases hc
      exact UdpSender.abort_moves ⟨rfl, rfl, rfl, rfl⟩
    · split at hc <;> cases hc
      · exact UdpSender.abort_moves ⟨rfl, rfl, rfl, rfl⟩
      · exact .client ⟨rfl, rfl, rfl, rfl⟩ (fun _ => .inl rfl) (by simp [UdpClientPc.allSent])
  · cases hc

theorem dataStep_moves {l : ULabel} {numBytes : Option Int} {ok : Bool} {c : UdpSender}
    {ds : List Int} (hc : s.client.dataStep numBytes ok = some (c, ds)) :
    Moves s l { s with client := c, toServer := s.toServer ++ ds } := by
  obtain ⟨hpc, hmoves⟩ := UdpSender.dataStep_cases hc
  cases hmoves with
  | leaves hge =>
    rw [List.append_nil]
    exact .client ⟨rfl, rfl, rfl, rfl⟩ (by simp) fun _ => .inr hge
  | ioctlFails => simpa using UdpSender.abort_moves (s := s) ⟨rfl, rfl, rfl, rfl⟩
  | waits hlt =>
    simpa using Moves.client (s := s) (c := { s.client with sz := s.client.nextSz })
      ⟨rfl, rfl, rfl, rfl⟩ (fun _ => .inr ⟨hpc, hlt, rfl⟩) .inl
  | sends hlt => exact .sendsData hpc hlt
  | sendFails =>
    simpa using UdpSender.abort_moves (s := s) (c := { s.client with sz := s.client.nextSz })
      ⟨rfl, rfl, rfl, rfl⟩

theorem eotStep_moves {l : ULabel} {r : EotSend} {c : UdpSender} {ds : List Int}
    (hc : s.client.eotStep r = some (c, ds)) :
    Moves s l { s with client := c, toServer := s.toServer ++ ds } := by
  unfold UdpSender.eotStep at hc
  split at hc
  · next hpc =>
    have hsent : s.client.pc.allSent = true := by rw [hpc]; rfl
    cases r <;> cases hc
    · exact .sendsEot hpc
    · rw [List.append_nil]
      exact .client ⟨rfl, rfl, rfl, rfl⟩ (by simp) fun _ => .inl hsent
    · rw [List.append_nil]
      exact .client ⟨rfl, rfl, rfl, rfl⟩ (by simp) fun _ => .inl hsent
  · cases hc

/-- **What a step does to the parties and to the datagrams in flight.** -/
theorem step_moves {l : ULabel} (h : s.step l = some t) : Moves s l t := by
  cases l with
  | connect ok sndBuffSz =>
    obtain ⟨c, hc, rfl⟩ := Option.map_eq_some_iff.mp h
    exact connectStep_moves hc
  | data numBytes ok =>
    obtain ⟨⟨c, ds⟩, hc, rfl⟩ := Option.map_eq_some_iff.mp h
    exact dataStep_moves hc
  | eot r =>
    obtain ⟨⟨c, ds⟩, hc, rfl⟩ := Option.map_eq_some_iff.mp h
    exact eotStep_moves hc
  | poll ack =>
    cases ack with
    | none =>
      obtain ⟨c, hc, rfl⟩ := Option.map_eq_some_iff.mp h
      unfold UdpSender.pollStep at hc
      split at hc <;> cases hc
      next hpc =>
      exact .client ⟨rfl, rfl, rfl, rfl⟩ (by simp) fun _ => .inl (by rw [hpc]; rfl)
    | some i =>
      obtain ⟨n, hn, hc⟩ := Option.bind_eq_some_iff.mp h
      obtain ⟨c, hpoll, rfl⟩ := Option.map_eq_some_iff.mp hc
      unfold UdpSender.pollStep at hpoll
      split at hpoll <;> cases hpoll
      next hpc => exact .acked hpc hn
  | clientClose =>
    obtain ⟨c, hc, rfl⟩ := Option.map_eq_some_iff.mp h
    unfold UdpSender.closeStep at hc
    split at hc <;> cases hc
    next hpc =>
    exact .client ⟨rfl, rfl, rfl, rfl⟩ (by simp) fun _ => .inl (by rw [hpc]; rfl)
  | recv i =>
    cases i with
    | none =>
      obtain ⟨r, hr, rfl⟩ := Option.map_eq_some_iff.mp h
      unfold UdpReceiver.recvErrorStep at hr
      split at hr <;> cases hr
      · next hpc => exact .aborts (by rw [hpc]; rfl)
      · next hpc => exact .aborts (by rw [hpc]; rfl)
    | some i =>
      obtain ⟨n, hn, hrecv⟩ := Option.bind_eq_some_iff.mp h
      obtain ⟨r, hr, rfl⟩ := Option.map_eq_some_iff.mp hrecv
      exact .receives hn hr
  | ack ok =>
    obtain ⟨⟨r, ds⟩, hr, rfl⟩ := Option.map_eq_some_iff.mp h
    unfold UdpReceiver.ackStep at hr
    split at hr
    · next hpc =>
      split at hr <;> cases hr
      · exact .acks hpc
      · rw [List.append_nil]
        exact .aborts (by rw [hpc]; rfl)
    · cases hr
  | serverClose =>
    obtain ⟨r, hr, rfl⟩ := Option.map_eq_some_iff.mp h
    unfold UdpReceiver.closeStep at hr
    split at hr <;> cases hr
    next hpc => exact .closes hpc
  | dropToServer i =>
    obtain ⟨n, hn, rfl⟩ := Option.map_eq_some_iff.mp h
    exact .dropsToServer hn
  | dropToClient i =>
    obtain ⟨n, hn, rfl⟩ := Option.map_eq_some_iff.mp h
    exact .dropsToClient hn

/-! ## The invariant -/

theorem TransferInv.init (hF : 1 ≤ F) (data : Option (List UInt8)) :
    TransferInv B F (UdpTransfer.init B F data) := by
  refine ⟨rfl, rfl, rfl, ?_, ⟨Int.le_refl 0, ?_⟩, ?_, ?_, ?_, ?_⟩
  · simp [UdpTransfer.init]
  · simp only [UdpTransfer.init, tbCreateListener]
    omega
  · simp [UdpTransfer.init]
  · simp [UdpTransfer.init, UdpClientPc.allSent]
  · simp [UdpTransfer.init, tbCreateListener]
  · simp [UdpTransfer.init, UdpServerPc.out]

/-- The client moves without sending or counting. -/
theorem TransferInv.of_client {c : UdpSender} (hs : TransferInv B F s) (hc : s.client.Keeps c)
    (hsz : c.pc = .data → 1 ≤ c.sz ∧ c.sz ≤ B)
    (hsent : c.pc.allSent = true → s.client.listener.totalTxRx = F) :
    TransferInv B F { s with client := c } := by
  refine ⟨hc.bufsize.trans hs.bufsize, hc.fileSize.trans hs.fileSize, hs.dataSize, hsz, ?_,
    hs.inFlight, ?_, ?_, hs.eot⟩
  · dsimp only
    rw [hc.totalTxRx]
    exact hs.total
  · intro h
    dsimp only at h ⊢
    rw [hc.totalTxRx]
    exact h.elim hsent fun hmem => hs.sent (.inr hmem)
  · dsimp only
    rw [hc.command]
    exact hs.acked

/-- The client sends a datagram of `n` bytes and counts it. -/
theorem TransferInv.of_send {c : UdpSender} {n : Int} (hs : TransferInv B F s)
    (hlistener : c.listener.bufsize = s.client.listener.bufsize ∧
      c.listener.fileSize = s.client.listener.fileSize ∧
      c.listener.command = s.client.listener.command)
    (htotal : c.listener.totalTxRx = s.client.listener.totalTxRx + n)
    (hn : 0 ≤ n ∧ n ≤ B ∧ s.client.listener.totalTxRx + n ≤ F)
    (hsz : c.pc = .data → 1 ≤ c.sz ∧ c.sz ≤ B)
    (hsent : c.pc.allSent = true ∨ n = 0 ∨ 0 ∈ s.toServer →
      s.client.listener.totalTxRx + n = F) :
    TransferInv B F { s with client := c, toServer := s.toServer ++ [n] } := by
  obtain ⟨hbuf, hfile, hcommand⟩ := hlistener
  have hpos := hs.total.1
  refine ⟨hbuf.trans hs.bufsize, hfile.trans hs.fileSize, hs.dataSize, hsz, ?_, ?_, ?_, ?_, hs.eot⟩
  · dsimp only
    omega
  · intro m hm
    rcases List.mem_append.mp hm with hm | hm
    · exact hs.inFlight m hm
    · rw [List.mem_singleton.mp hm]
      exact ⟨hn.1, hn.2.1⟩
  · intro h
    dsimp only at h ⊢
    rw [htotal]
    rcases h with h | h
    · exact hsent (.inl h)
    · rcases List.mem_append.mp h with h | h
      · exact hsent (.inr (.inr h))
      · exact hsent (.inr (.inl (List.mem_singleton.mp h).symm))
  · dsimp only
    rw [hcommand]
    exact hs.acked

/-- The server has read a datagram. -/
theorem TransferInv.of_receive {i : Nat} {n : Int} {r : UdpReceiver} (hB' : B < 2 ^ 31)
    (hs : TransferInv B F s) (hn : s.toServer[i]? = some n) (hr : s.server.recvStep n = some r) :
    TransferInv B F { s with server := r, toServer := s.toServer.eraseIdx i } := by
  have hnB := hs.inFlight n (List.mem_of_getElem? hn)
  have hsize := hs.dataSize
  obtain ⟨hdata, hreceived, -, hpc⟩ := UdpReceiver.recvStep_cases hr hnB.1 (by omega) (by omega)
  have hin : s.server.pc.out = false := by
    rcases hpc with ⟨-, -, hpc | hpc⟩ | ⟨hpc, -⟩ <;> rw [hpc] <;> rfl
  refine ⟨hs.bufsize, hs.fileSize, hdata.trans hs.dataSize, hs.sz, hs.total,
    fun m hm => hs.inFlight m (List.mem_of_mem_eraseIdx hm), ?_, ?_, ?_⟩
  · rintro (hsent | hzero)
    · exact hs.sent (.inl hsent)
    · exact hs.sent (.inr (List.mem_of_mem_eraseIdx hzero))
  · intro hack
    rw [hs.acked hack] at hin
    cases hin
  · intro heot
    rcases hpc with ⟨hloop, -⟩ | ⟨-, -, rfl⟩
    · dsimp only at heot
      rw [hloop] at heot
      rcases heot with heot | heot <;> cases heot
    · simp [hreceived]

/-- **Step of the transfer.** -/
theorem TransferInv.step (hB : 1 ≤ B) (hB' : B < 2 ^ 31) (hF : F < 2 ^ 31) {l : ULabel}
    (hs : TransferInv B F s) (h : s.step l = some t) : TransferInv B F t := by
  have hbuf := hs.bufsize
  have hfile := hs.fileSize
  have htotal := hs.total
  have hbounds : s.client.pc = .data →
      s.client.listener.totalTxRx < s.client.listener.fileSize →
      1 ≤ s.client.nextSz ∧ s.client.nextSz ≤ B ∧
        s.client.nextSz ≤ F - s.client.listener.totalTxRx := fun hpc hlt => by
    have hsz := hs.sz hpc
    have := UdpSender.nextSz_bounds (by omega) htotal.1 hlt (by omega)
    omega
  cases step_moves h with
  | client keeps hdata hall =>
    refine hs.of_client keeps ?_ ?_
    · intro hpc
      rcases hdata hpc with hsz | ⟨hpc', hlt, hsz⟩
      · omega
      · have := hbounds hpc' hlt
        omega
    · intro hpc
      rcases hall hpc with hsent | hge
      · exact hs.sent (.inl hsent)
      · omega
  | sendsData hpc hlt =>
    -- the file was not yet sent, so no empty datagram is in flight
    have hn := hbounds hpc hlt
    refine hs.of_send ⟨rfl, rfl, rfl⟩ rfl (by omega) (fun _ => by dsimp only; omega) ?_
    rintro (hsent | hzero | hmem)
    · dsimp only at hsent
      rw [hpc] at hsent
      cases hsent
    · omega
    · have := hs.sent (.inr hmem)
      omega
  | sendsEot hpc =>
    have hsent := hs.sent (.inl (by rw [hpc]; rfl))
    exact hs.of_send ⟨rfl, rfl, rfl⟩ (by simp) (by omega) (by simp) (by omega)
  | acked hpc hn =>
    -- the acknowledgement was in flight, so the server has left its loop
    have hout := hs.acked (.inl (List.ne_nil_of_mem (List.mem_of_getElem? hn)))
    have hsent := hs.sent (.inl (by rw [hpc]; rfl))
    exact ⟨hbuf, hfile, hs.dataSize, by simp, htotal, hs.inFlight, fun _ => hsent,
      fun _ => hout, hs.eot⟩
  | receives hn hr => exact hs.of_receive hB' hn hr
  | aborts hpc =>
    refine ⟨hbuf, hfile, hs.dataSize, hs.sz, htotal, hs.inFlight, hs.sent, ?_, ?_⟩
    · intro hack
      rw [hs.acked hack] at hpc
      cases hpc
    · simp [UdpReceiver.abort, UdpServerPc.out]
  | acks hpc =>
    exact ⟨hbuf, hfile, hs.dataSize, hs.sz, htotal, hs.inFlight, hs.sent, fun _ => rfl,
      fun _ => hs.eot (.inl hpc)⟩
  | closes hpc =>
    exact ⟨hbuf, hfile, hs.dataSize, hs.sz, htotal, hs.inFlight, hs.sent, fun _ => rfl,
      fun _ => hs.eot (.inr (by rw [hpc]; rfl))⟩
  | dropsToServer hn =>
    refine ⟨hbuf, hfile, hs.dataSize, hs.sz, htotal,
      fun m hm => hs.inFlight m (List.mem_of_mem_eraseIdx hm), ?_, hs.acked, hs.eot⟩
    rintro (hsent | hzero)
    · exact hs.sent (.inl hsent)
    · exact hs.sent (.inr (List.mem_of_mem_eraseIdx hzero))
  | dropsToClient hn =>
    refine ⟨hbuf, hfile, hs.dataSize, hs.sz, htotal, hs.inFlight, hs.sent, ?_, hs.eot⟩
    rintro (hne | hcommand)
    · exact hs.acked (.inl (List.ne_nil_of_mem (List.mem_of_getElem? hn)))
    · exact hs.acked (.inr hcommand)

/-! ## The link between the parties -/

def NoDataDrop (s : UdpTransfer) : ULabel → Prop
  | .dropToServer i => s.toServer[i]? = some 0
  | _ => True

/-- When an empty datagram ends the server's loop, no data datagram is on its way. -/
def EotLast (s : UdpTransfer) : ULabel → Prop
  | .recv (some i) => s.server.pc = .loop → s.toServer[i]? = some 0 → ∀ n ∈ s.toServer, n = 0
  | _ => True

/-- **A step is a step of the link**, or leaves it alone. -/
theorem step_link (hB' : B < 2 ^ 31) (hF : F < 2 ^ 31) {l : ULabel} (hs : TransferInv B F s)
    (h : s.step l = some t) :
    t.link = s.link ∨ ∃ a, Link.step s.link a = some t.link ∧
      (NoDataDrop s l → Link.LosesNothing s.link a) := by
  cases step_moves h with
  | client keeps =>
    left
    simp only [UdpTransfer.link]
    rw [keeps.totalTxRx]
  | sendsData hpc hlt =>
    right
    have hsz := hs.sz hpc
    have hfile := hs.fileSize
    have hbounds := UdpSender.nextSz_bounds (by rw [hs.bufsize]; exact hsz) hs.total.1 hlt
      (by omega)
    refine ⟨.send s.client.nextSz, ?_, fun _ => trivial⟩
    simp only [Link.step, UdpTransfer.link]
    rw [if_pos (by omega)]
  | sendsEot => exact .inr ⟨.send 0, by simp [Link.step, UdpTransfer.link], fun _ => trivial⟩
  | @receives i n r hn hr =>
    right
    have hnB := hs.inFlight n (List.mem_of_getElem? hn)
    have hsize := hs.dataSize
    obtain ⟨-, -, htotal, -⟩ := UdpReceiver.recvStep_cases hr hnB.1 (by omega) (by omega)
    refine ⟨.deliver i, ?_, fun _ => trivial⟩
    simp only [Link.step, UdpTransfer.link, hn, Option.map_some, htotal]
  | @dropsToServer i n hn =>
    exact .inr ⟨.lose i, by simp [Link.step, UdpTransfer.link, hn], id⟩
  | acked | aborts | acks | closes | dropsToClient => exact .inl rfl

section Runs

variable (hB : 1 ≤ B) (hB' : B < 2 ^ 31) (hF : 1 ≤ F) (hF' : F < 2 ^ 31)
  {data : Option (List UInt8)} {ls : List ULabel}

include hB hB' hF hF'

theorem run_transferInv (h : run UdpTransfer.step (UdpTransfer.init B F data) ls = some s) :
    TransferInv B F s :=
  run_invariant (TransferInv.init hF data) (fun _ _ _ hs ht => hs.step hB hB' hF' ht) h

/-- **Runs of the link.** Every run of the transfer is a run of the link, without losses if no data
datagram is dropped. -/
theorem run_link {G : UdpTransfer → ULabel → Prop} {H : Link.State → Link.Act → Prop}
    (hGH : ∀ s l a, G s l → (NoDataDrop s l → Link.LosesNothing s.link a) → H s.link a)
    (h : run UdpTransfer.step (UdpTransfer.init B F data) ls = some s)
    (hG : Meets UdpTransfer.step G (UdpTransfer.init B F data) ls) :
    ∃ as, run Link.step Link.empty as = some s.link ∧ Meets Link.step H Link.empty as := by
  have hsim : ∀ s a l t, TransferInv B F s ∧ s.link = a → G s l → UdpTransfer.step s l = some t →
      ∃ as b, run Link.step a as = some b ∧ Meets Link.step H a as ∧
        TransferInv B F t ∧ t.link = b := by
    rintro s _ l t ⟨hs, rfl⟩ hl ht
    have ht' := hs.step hB hB' hF' ht
    rcases step_link hB' hF' hs ht with hlink | ⟨a, ha, hlose⟩
    · exact ⟨[], s.link, rfl, meets_nil H _, ht', hlink⟩
    · refine ⟨[a], t.link, by simp [ha], ?_, ht', rfl⟩
      exact meets_cons_iff.mpr ⟨hGH s l a hl hlose, fun _ _ => meets_nil H _⟩
  obtain ⟨as, b, hb, hH, -, rfl⟩ :=
    run_simulates hsim ⟨TransferInv.init hF data, rfl⟩ h hG
  exact ⟨as, hb, hH⟩

theorem run_total_le (h : run UdpTransfer.step (UdpTransfer.init B F data) ls = some s) :
    s.server.listener.totalTxRx ≤ s.client.listener.totalTxRx := by
  obtain ⟨as, has, -⟩ := run_link hB hB' hF hF' (G := fun _ _ => True) (H := fun _ _ => True)
    (fun _ _ _ _ _ => trivial) h (fun _ _ _ _ _ => trivial)
  exact Link.received_le_sent has

/-- Without dropped data, what the server has not counted is in flight. -/
theorem run_total_eq (h : run UdpTransfer.step (UdpTransfer.init B F data) ls = some s)
    (hdrop : Meets UdpTransfer.step NoDataDrop (UdpTransfer.init B F data) ls) :
    s.server.listener.totalTxRx + s.toServer.sum = s.client.listener.totalTxRx := by
  obtain ⟨as, has, hlose⟩ := run_link hB hB' hF hF' (H := Link.LosesNothing)
    (fun _ _ _ hl hlose => hlose hl) h hdrop
  exact Link.received_add_inFlight has hlose

/-- The server has the whole file when it has left its loop, if no data is dropped and none is
overtaken by the empty datagram that ends the loop. -/
theorem run_received_all (h : run UdpTransfer.step (UdpTransfer.init B F data) ls = some s)
    (hG : Meets UdpTransfer.step (fun s l => NoDataDrop s l ∧ EotLast s l)
      (UdpTransfer.init B F data) ls) :
    s.server.pc = .ack ∨ s.server.pc.out = true → s.server.listener.totalTxRx = F := by
  refine run_induction (P := fun ls s =>
    Meets UdpTransfer.step (fun s l => NoDataDrop s l ∧ EotLast s l)
      (UdpTransfer.init B F data) ls →
    (s.server.pc = .ack ∨ s.server.pc.out = true → s.server.listener.totalTxRx = F)) ?_ ?_ h hG
  · intro _ hpc
    simp [UdpTransfer.init, UdpServerPc.out] at hpc
  · intro ls s l t hr ih ht hG
    have hs := run_transferInv hB hB' hF hF' hr
    have ih := ih hG.of_append
    obtain ⟨-, hlast⟩ := hG.last hr
    have hdrop := hG.of_append.mono fun _ _ => And.left
    intro hpc
    cases step_moves ht with
    | client | sendsData | sendsEot | acked | dropsToServer | dropsToClient => exact ih hpc
    | aborts => simp [UdpReceiver.abort, UdpServerPc.out] at hpc
    | acks hpc' => exact ih (.inl hpc')
    | closes hpc' => exact ih (.inr (by rw [hpc']; rfl))
    | @receives i n r hn hr' =>
      have hmem := List.mem_of_getElem? hn
      have hnB := hs.inFlight n hmem
      have hsize := hs.dataSize
      obtain ⟨-, -, htotal, hcase⟩ := UdpReceiver.recvStep_cases hr' hnB.1 (by omega) (by omega)
      rcases hcase with ⟨hloop, -⟩ | ⟨hloop, -, rfl⟩
      · rw [hloop] at hpc
        rcases hpc with hpc | hpc <;> cases hpc
      · -- an empty datagram in the loop: nothing is in flight and all has been sent
        have hsum : s.toServer.sum = 0 := List.sum_eq_zero (hlast hloop hn)
        have heq := run_total_eq hB hB' hF hF' hr hdrop
        have hsent := hs.sent (.inr hmem)
        dsimp only
        omega

end Runs

/-- **Safety of the transfer.** In every run of `tb_udp_client` and `tb_udp_server` with the same packet
and file size: the server's total is at most the client's; the client has left its closing loop
through `tb_udp_ack` only if the server has read an empty datagram and left its loop; and if no data
datagram is dropped or overtaken by the empty datagram that ends the server's loop, the server has the
whole file when it returns. -/
theorem udp_transfer_safe (bufsize fileSize : Int) (data : Option (List UInt8))
    (hbuf : 1 ≤ bufsize) (hbuf' : bufsize < 2 ^ 31) (hfile : 1 ≤ fileSize)
    (hfile' : fileSize < 2 ^ 31) (ls : List ULabel) (s : UdpTransfer)
    (hrun : run UdpTransfer.step (UdpTransfer.init bufsize fileSize data) ls = some s) :
    s.server.listener.totalTxRx ≤ s.client.listener.totalTxRx ∧
      (s.client.listener.command = .tbExit →
        s.server.pc.out = true ∧ 0 ∈ s.server.received) ∧
      (Meets UdpTransfer.step (fun s l => NoDataDrop s l ∧ EotLast s l)
          (UdpTransfer.init bufsize fileSize data) ls →
        s.server.pc = .returned → s.server.listener.totalTxRx = fileSize) := by
  have hs := run_transferInv hbuf hbuf' hfile hfile' hrun
  refine ⟨run_total_le hbuf hbuf' hfile hfile' hrun, ?_, ?_⟩
  · intro hexit
    have hout := hs.acked (.inr hexit)
    exact ⟨hout, hs.eot (.inr hout)⟩
  · intro hG hpc
    exact run_received_all hbuf hbuf' hfile hfile' hrun hG (.inr (by rw [hpc]; rfl))

instance (s : UdpTransfer) (l : ULabel) : Decidable (NoDataDrop s l ∧ EotLast s l) := by
  cases l with
  | recv i => cases i <;> unfold NoDataDrop EotLast <;> infer_instance
  | _ => unfold NoDataDrop EotLast; infer_instance

/-- Five bytes in packets of four: the first empty datagram is dropped, the second one acknowledged. -/
def fiveByteTransfer : List ULabel :=
  [.connect true (some 100), .data (some 0) true, .data (some 0) true, .data none true, .eot .sent,
    .dropToServer 2, .poll none, .recv (some 1), .recv (some 0), .eot .sent, .recv (some 0),
    .ack true, .poll (some 0), .serverClose, .clientClose]

theorem udp_transfer_safe_five_bytes :
    ∃ s, run UdpTransfer.step (UdpTransfer.init 4 5 none) fiveByteTransfer = some s ∧
      s.client.listener.command = .tbExit ∧ 0 ∈ s.server.received ∧
      s.server.listener.totalTxRx = 5 :=
  ⟨_, rfl, rfl,
    ((udp_transfer_safe 4 5 none (by decide) (by decide) (by decide) (by decide) fiveByteTransfer _
      rfl).2.1 rfl).2,
    (udp_transfer_safe 4 5 none (by decide) (by decide) (by decide) (by decide) fiveByteTransfer _
      rfl).2.2 (by decide) rfl⟩

end TestBed
