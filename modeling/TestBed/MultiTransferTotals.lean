import TestBed.MultiTransfer

/-!
# What arrives over several connections

Every byte that a session of the server has counted is one that its peer has sent, whatever happens
to the network (`multi_safe`); where nothing is lost, a session that has ended in order has its peer's
whole slice, and four such sessions have the whole file (`multi_complete`).
-/

namespace TestBed

open CInt Transition Slice

namespace MultiTransfer

variable {k : SKind} {cap : Nat} {mem : List UInt8} {l₀ l₁ : Listener} {s t : MultiTransfer}

/-! ## The client's slices -/

/-- The client never has more sessions than connections to make. -/
theorem sessions_length_le {ls : List (MLabel ThreadIo)} {c : MClient SendConn}
    (h₀ : l₀.sessionList.sessions = [])
    (h : run (multiClient k).step ((multiClient k).init l₀) ls = some c) :
    c.listener.sessionList.sessions.length ≤ 4 := by
  have hreg := multiClient_regular k
  have hnum : (multiClient k).numConn = 4 := by cases k <;> rfl
  refine run_induction (P := fun _ c => c.listener.sessionList.sessions.length ≤ 4) ?_ ?_ h
  · simp [MClientProg.init, h₀]
  · intro ls c l d hr hle hd
    rcases MClientProg.step_cases hreg hd with ⟨-, hq⟩ | ⟨x, _, sockD, -, ha⟩ |
      ⟨j, io, session, c', r, -, hm⟩ | ⟨q, -, rfl⟩
    · rw [hq.sessionList]
      exact hle
    · have hx := (MClientProg.run_shape hreg h₀ hr).create x ha.parent
      rw [ha.sessions, List.length_append, hx.1, List.length_singleton]
      omega
    · rw [hm.eq]
      simpa using hle
    · simpa using hle

/-- Each session of the client with its slice and the bytes its socket has accepted. -/
structure Client (mem : List UInt8) (q : Int) (c : MClient SendConn) : Prop where
  length : c.threads.length = c.listener.sessionList.sessions.length
  length_le : c.threads.length ≤ 4
  conn : ∀ i session d, c.listener.session? i = some session → c.threads[i]? = some d →
    (0 ≤ session.totalBytes ∧ session.totalBytes ≤ q) ∧
      d.accepted mem = slice mem (q * i).toNat session.totalBytes.toNat ∧
      (d.pc = .returned 0 → session.totalBytes = q)

theorem client_run (hl : Sizes l₀) (h₀ : l₀.sessionList.sessions = [])
    {ls : List (MLabel ThreadIo)} {c : MClient SendConn}
    (h : run (multiClient k).step ((multiClient k).init l₀) ls = some c) :
    Client mem (l₀.fileSize.tdiv 4) c := by
  have hreg := multiClient_regular k
  have hnum : ((multiClient k).numConn : Int) = 4 := by cases k <;> rfl
  obtain ⟨hshape, hconns⟩ :=
    (sendInv_invariant (multiClient_sends k) hl).run hreg h₀ h
  refine ⟨hshape.length, hshape.length ▸ sessions_length_le h₀ h, fun i session d hsession hd => ?_⟩
  obtain ⟨hslice, hsend⟩ := hconns i session d hsession hd
  have hsized := hslice.sized hl
  obtain ⟨hq, hlt⟩ := hl.quotient (multiClient k).numConn
  have hdata := hslice.data
  have hsize := hslice.dataSize
  rw [asSizeT_eq hq (by omega)] at hsize
  rw [hnum] at hdata hsize
  have hle := hsend.total_le
  rw [hsize] at hle
  refine ⟨⟨hsend.total_nonneg, hle⟩, ?_, fun hpc => (hsend.complete hpc).trans hsize⟩
  rw [hsend.accepted_eq hsized, take_slice _ _ _ (by omega), hdata]

theorem Client.session? {q : Int} {c : MClient SendConn} (h : Client mem q c) {i : Nat}
    {d : SendConn} (hd : c.threads[i]? = some d) :
    ∃ session, c.listener.session? i = some session := by
  have hlt := (List.getElem?_eq_some_iff.mp hd).1
  exact ⟨_, List.getElem?_eq_getElem (by rw [← h.length]; exact hlt)⟩

/-! ## The totals of both sides -/

/-- What a session of the client has sent, in bytes. -/
def sentBytes (s : MultiTransfer) (i : Nat) : Nat := (s.client.listener.totals[i]?.getD 0).toNat

theorem Client.totals_nonneg {q : Int} {c : MClient SendConn} (h : Client mem q c) {x : Int}
    (hx : x ∈ c.listener.totals) : 0 ≤ x ∧ x ≤ q := by
  obtain ⟨i, hi, rfl⟩ := List.getElem_of_mem hx
  rw [Listener.totals, List.length_map] at hi
  obtain ⟨d, hd⟩ : ∃ d, c.threads[i]? = some d :=
    ⟨_, List.getElem?_eq_getElem (by rw [h.length]; exact hi)⟩
  have hsession : c.listener.session? i = some c.listener.sessionList.sessions[i] :=
    List.getElem?_eq_getElem hi
  simpa [Listener.totals] using (h.conn i _ d hsession hd).1

theorem Client.sum_totals {q : Int} (h : Client mem q s.client) :
    (((List.range s.client.threads.length).map s.sentBytes).sum : Int) =
      s.client.listener.totals.sum := by
  have hlen : s.client.threads.length = s.client.listener.totals.length := by
    rw [h.length, Listener.totals, List.length_map]
  rw [Family.natCast_sum_map, hlen]
  congr 1
  conv_rhs => rw [← Family.map_getElem?_range s.client.listener.totals 0]
  apply List.map_congr_left
  intro i hi
  rw [List.mem_range] at hi
  have hmem := h.totals_nonneg (List.getElem_mem hi)
  simp only [sentBytes, List.getElem?_eq_getElem hi, Option.getD_some]
  exact Int.toNat_of_nonneg hmem.1

theorem Client.sum_le {q : Int} (hq : 0 ≤ q) (h : Client mem q s.client) :
    s.client.listener.totals.sum ≤ 4 * q := by
  have hlen : s.client.listener.totals.length ≤ 4 := by
    rw [Listener.totals, List.length_map, ← h.length]
    exact h.length_le
  calc s.client.listener.totals.sum
      ≤ s.client.listener.totals.length • q :=
        List.sum_le_card_nsmul _ q fun x hx => (h.totals_nonneg hx).2
    _ ≤ 4 * q := by
        rw [nsmul_eq_mul]
        exact Int.mul_le_mul_of_nonneg_right (by omega) hq

/-- A pipe holds the bytes its session has sent. -/
theorem Inv.sent_length_le {q : Int} (h : Inv mem s) (hc : Client mem q s.client) (i : Nat) :
    (s.pipes i).sent.length ≤ s.sentBytes i := by
  by_cases hi : i < s.client.threads.length
  · have hd : s.client.threads[i]? = some s.client.threads[i] := List.getElem?_eq_getElem hi
    obtain ⟨session, hsession⟩ := hc.session? hd
    have hacc := (hc.conn i session _ hsession hd).2.1
    rw [h.sent i _ hd, hacc, sentBytes, Listener.totals_getElem? hsession]
    exact List.length_take_le _ _
  · rw [h.unborn i (by omega)]
    exact Nat.zero_le _

/-- The bytes received in all sessions of the server are no more than those sent in all sessions of the
client. -/
theorem Inv.totals_le {q : Int} (h : Inv mem s) (hc : Client mem q s.client)
    (hgot : ∀ i, (s.pipes i).got.length ≤ (s.pipes i).sent.length) :
    s.server.listener.totals.sum ≤ s.client.listener.totals.sum := by
  have hpeers := (List.nodup_append.mp h.nodup).2.1
  have hmem : ∀ i ∈ s.peers, i ∈ List.range s.client.threads.length := by
    intro i hi
    obtain ⟨c, hc, -⟩ := h.connected i (List.mem_append_right _ hi)
    exact List.mem_range.mpr (List.getElem?_eq_some_iff.mp hc).1
  have hle := Family.sum_map_le_of_nodup (f := fun i => (s.pipes i).got.length) hpeers hmem
  have hmono : ((List.range s.client.threads.length).map fun i => (s.pipes i).got.length).sum ≤
      ((List.range s.client.threads.length).map s.sentBytes).sum :=
    Family.sum_map_mono fun i _ => (hgot i).trans (h.sent_length_le hc i)
  have hcast : s.server.listener.totals.sum =
      ((s.peers.map fun i => (s.pipes i).got.length).sum : Nat) := by
    rw [h.totals, Family.natCast_sum_map]
  rw [hcast, ← hc.sum_totals]
  exact_mod_cast hle.trans hmono

/-! ## Safety -/

/-- What session `j` of the server and its peer `i` have to do with one another: the server has counted
no more than the client, and only bytes from the peer's slice. -/
structure Served (mem : List UInt8) (q : Int) (s : MultiTransfer) (j i : Nat) : Prop where
  counted : ∃ x y, s.server.listener.totals[j]? = some x ∧ s.client.listener.totals[i]? = some y ∧
    x ≤ y ∧ y ≤ q
  bytes : ∃ y : Int, s.client.listener.totals[i]? = some y ∧
    ((s.pipes i).got ++ (s.pipes i).inFlight).Subperm (slice mem (q * i).toNat y.toNat)

/-- **No connection counts more than its peer.** In every run, with a network that loses, reorders and
fails as it likes and accepts the connections in any order: every session of the server has a peer of
its own, and has counted at most what its peer has sent, in bytes of the peer's slice; the total that
the server's monitor publishes is at most what its sessions have counted, that at most what the client's
sessions have sent, and that at most four quarters of the file. -/
theorem multi_safe (k : SKind) (cap : Nat) (mem : List UInt8) (l₀ l₁ : Listener) (hl : Sizes l₀)
    (h₀ : l₀.sessionList.sessions = []) (h₁ : l₁.sessionList.sessions = [])
    (htotal : l₁.totalTxRx = 0) (ls : List MultiLabel) (s : MultiTransfer)
    (h : run (step k cap mem) (init k l₀ l₁) ls = some s) :
    (s.peers.Nodup ∧ s.peers.length = s.server.listener.sessionList.sessions.length) ∧
      (∀ j i, s.peers[j]? = some i → Served mem (l₀.fileSize.tdiv 4) s j i) ∧
      s.server.listener.totalTxRx ≤ s.server.listener.totals.sum ∧
      s.server.listener.totals.sum ≤ s.client.listener.totals.sum ∧
      s.client.listener.totals.sum ≤ 4 * l₀.fileSize.tdiv 4 ∧ 4 * l₀.fileSize.tdiv 4 ≤ l₀.fileSize := by
  have hinv := inv_run h₁ htotal h
  obtain ⟨⟨cs, hclient⟩, -, hpipes⟩ := run_parts h
  have hc : Client mem (l₀.fileSize.tdiv 4) s.client := client_run hl h₀ hclient
  have hpos := hl.fileSize_nonneg
  have hq : 0 ≤ l₀.fileSize.tdiv 4 := Int.tdiv_nonneg hpos (by decide)
  have hlength : s.peers.length = s.server.listener.sessionList.sessions.length := by
    have hmap := congrArg List.length hinv.totals
    rw [Listener.totals, List.length_map, List.length_map] at hmap
    exact hmap.symm
  refine ⟨⟨(List.nodup_append.mp hinv.nodup).2.1, hlength⟩, fun j i hpeer => ?_, hinv.published,
    hinv.totals_le hc fun i => ?_, hc.sum_le hq, ?_⟩
  · obtain ⟨d, hd, -⟩ := hinv.connected i (List.mem_append_right _ (List.mem_of_getElem? hpeer))
    obtain ⟨session, hsession⟩ := hc.session? hd
    obtain ⟨⟨hnonneg, hle⟩, hacc, -⟩ := hc.conn i session d hsession hd
    obtain ⟨as, has, -⟩ := hpipes i
    have hsub := Pipe.run_subperm has
    rw [hinv.sent i d hd, hacc] at hsub
    have hy := Listener.totals_getElem? hsession
    refine ⟨⟨((s.pipes i).got.length : Int), session.totalBytes, ?_, hy, ?_, hle⟩, _, hy, hsub⟩
    · rw [hinv.totals, List.getElem?_map, hpeer]
      rfl
    · have hlen := hsub.length_le
      have hslice : (slice mem (l₀.fileSize.tdiv 4 * i).toNat session.totalBytes.toNat).length ≤
          session.totalBytes.toNat := List.length_take_le _ _
      rw [List.length_append] at hlen
      omega
  · obtain ⟨as, has, -⟩ := hpipes i
    have hlen := Pipe.run_length_le has
    omega
  · rw [Int.tdiv_eq_ediv_of_nonneg hpos]
    omega

/-- Four connections of which one is accepted, whose peer has sent two bytes; one is lost. -/
def lossyLabels : List MultiLabel :=
  List.flatten [[.server (.setup true) 0, .server .test 0, .server (.poll true) 0],
    List.replicate 4 (.client (.create true 5)),
    (List.range 4).map fun i => .client (.thread i (.connect 0)),
    [.server (.accept 7 true) 2, .client (.thread 2 (.send 2)), .disturb 2 [6],
      .server (.conn 0 .start) 0, .server (.conn 0 (.recv (.count 1))) 0]]

def lossyRun : Option MultiTransfer :=
  run (step .stream 8 [1, 2, 3, 4, 5, 6, 7, 8])
    (init .stream { tbCreateListener .mClient .tcp 4 with fileSize := 8 }
      (tbCreateListener .mServer .tcp 4)) lossyLabels

theorem lossyRun_isSome : lossyRun.isSome = true := by decide +kernel

theorem multi_safe_lossy :
    ∃ s, lossyRun = some s ∧ s.server.listener.totals = [1] ∧
      s.client.listener.totals = [0, 0, 2, 0] ∧
      s.server.listener.totals.sum ≤ s.client.listener.totals.sum :=
  have hs : lossyRun = some (lossyRun.get lossyRun_isSome) := (Option.some_get _).symm
  ⟨_, hs, by decide +kernel, by decide +kernel, (multi_safe .stream 8 [1, 2, 3, 4, 5, 6, 7, 8]
    { tbCreateListener .mClient .tcp 4 with fileSize := 8 } (tbCreateListener .mServer .tcp 4)
    ⟨by decide, by decide, by decide, by decide⟩ rfl rfl rfl lossyLabels _ hs).2.2.2.1⟩

/-! ## Completion -/

end MultiTransfer

/-- The thread has seen the end of its connection, and not an error. -/
def ServePc.inOrder : ServePc → Bool
  | .closing | .leaving => true
  | .returned r => r ≠ some (-1)
  | _ => false

namespace MultiTransfer

/-- Nothing is lost, and a broken connection is only reported at the end of its stream. -/
def orderly (k : SKind) (s : MultiTransfer) : MultiLabel → Bool
  | .disturb _ _ => false
  | .server (.conn j (.recv (.error code))) _ =>
    !(mServer k).endCode code || (s.peers[j]?).all fun i => (s.pipes i).atEnd
  | _ => true

def Orderly (k : SKind) (s : MultiTransfer) (l : MultiLabel) : Prop := orderly k s l = true

instance (k : SKind) (s : MultiTransfer) (l : MultiLabel) : Decidable (Orderly k s l) :=
  inferInstanceAs (Decidable (_ = true))

theorem Orderly.undisturbed {l : MultiLabel} (h : Orderly k s l) : Undisturbed s l := by
  cases l with
  | disturb i xs => exact absurd h Bool.false_ne_true
  | _ => trivial

/-- The end of a stream is final in an orderly run. -/
theorem atEnd_step {l : MultiLabel} (hG : Orderly k s l) (ht : step k cap mem s l = some t) {i : Nat}
    (h : (s.pipes i).atEnd = true) : (t.pipes i).atEnd = true := by
  obtain ⟨-, -, -, -, -, hpipes⟩ := step_eq_some_iff.mp ht
  have hone := run_family hpipes i
  refine run_invariant_of_meets (I := fun p => p.atEnd = true) h
    (fun _ _ _ hp ha hq => Pipe.atEnd_step hp ha hq) (meets_of_forall fun a ha p => ?_) hone
  exact pipeActs_undisturbed mem hG.undisturbed _ (mem_ofCopy.mp ha) p

/-- A thread of the server that has ended in order has ended at the end of its stream. -/
def EndsAtEnd (s : MultiTransfer) : Prop :=
  ∀ (j i : Nat) (pc : ServePc), s.server.conns[j]? = some pc → s.peers[j]? = some i →
    pc.inOrder = true → (s.pipes i).atEnd = true

theorem endsAtEnd_init : EndsAtEnd (init k l₀ l₁) := nofun

theorem endsAtEnd_step {l : MultiLabel} (hinv : Inv mem s) (h : EndsAtEnd s) (hG : Orderly k s l)
    (ht : step k cap mem s l = some t) : EndsAtEnd t := by
  obtain ⟨hallowed, -, hserver, -, hpeers, -⟩ := step_eq_some_iff.mp ht
  have keep (hconns : t.server.conns = s.server.conns) (hpeers : t.peers = s.peers) :
      EndsAtEnd t := by
    intro j i pc hpc hi hord
    rw [hconns] at hpc
    rw [hpeers] at hi
    exact atEnd_step hG ht (h j i pc hpc hi hord)
  cases l with
  | client | hangup | disturb => exact keep (by rw [← Option.some.inj hserver]) hpeers
  | server l x =>
    have hstep : (mServer k).step s.server l = some t.server := hserver
    cases l with
    | setup | test | poll | close | tick =>
      exact keep (MServerProg.mainStep_frame rfl hstep).1 hpeers
    | accept sockD optionOk =>
      obtain ⟨-, ⟨hfails, hconns, -⟩ | ⟨hworks, hconns, -⟩⟩ := MServerProg.acceptStep_moves hstep
      · exact keep hconns (hpeers.trans (if_pos hfails))
      · intro j i pc hpc hi hord
        rw [hpeers, peersAfter, if_neg hworks] at hi
        rw [hconns, getElem?_concat_eq_some] at hpc
        rcases hpc with hpc | ⟨-, rfl⟩
        · have hlt := (List.getElem?_eq_some_iff.mp hpc).1
          rw [List.getElem?_append_left (by rw [← hinv.conns]; exact hlt)] at hi
          exact atEnd_step hG ht (h j i pc hpc hi hord)
        · cases hord
    | conn j act =>
      obtain ⟨session, pc, r, -, hpc, hmoves, hserver⟩ := MServerProg.connStep_moves hstep
      replace hpeers : t.peers = s.peers := hpeers
      -- the other threads stay as they are
      have moved (hnew : ∀ i, s.peers[j]? = some i → r.2.2.inOrder = true →
          (s.pipes i).atEnd = true) : EndsAtEnd t := by
        intro j' i pc' hpc' hi hord
        rw [hpeers] at hi
        rw [hserver] at hpc'
        dsimp only at hpc'
        rw [List.getElem?_set] at hpc'
        split at hpc'
        · next heq =>
          subst heq
          split at hpc' <;> cases hpc'
          exact atEnd_step hG ht (hnew i hi hord)
        · exact atEnd_step hG ht (h j' i pc' hpc' hi hord)
      cases hmoves with
      | starts => exact moved (by rintro _ - ⟨⟩)
      | @receives n hn =>
        refine moved fun i hi hord => ?_
        by_cases hzero : n = 0
        · subst hzero
          simpa [allowed, hi] using hallowed
        · rw [if_neg hzero] at hord
          cases hord
      | ends hcode =>
        refine moved fun i hi _ => ?_
        simpa [Orderly, orderly, hcode, hi] using hG
      | fails => exact moved (by rintro _ - ⟨⟩)
      | countsOut | leaves => exact moved fun i hi _ => h j i _ hpc hi rfl

/-- What a session of the server has received from a peer that has sent its slice. -/
theorem got_slice {q : Int} {ls : List MultiLabel}
    (h : run (step k cap mem) (init k l₀ l₁) ls = some s)
    (hG : Meets (step k cap mem) (Orderly k) (init k l₀ l₁) ls) (hinv : Inv mem s)
    (hc : Client mem q s.client) {i : Nat} {d : SendConn} (hd : s.client.threads[i]? = some d)
    (hret : d.pc = .returned 0) (hend : (s.pipes i).atEnd = true) :
    (s.pipes i).got = slice mem (q * i).toNat q.toNat := by
  obtain ⟨-, -, hpipes⟩ := run_parts h
  obtain ⟨as, has, hmeets⟩ := hpipes i
  obtain ⟨session, hsession⟩ := hc.session? hd
  obtain ⟨-, hacc, hcomplete⟩ := hc.conn i session d hsession hd
  have hintact := Pipe.run_intact has (hmeets (hG.mono fun _ _ hl => hl.undisturbed))
  rw [Pipe.got_eq_sent hintact hend, hinv.sent i d hd, hacc, hcomplete hret]

/-- **What arrives is the file.** In every run on a network that loses nothing and ends a stream only at
its end: a session of the server that has ended in order, and whose peer has returned 0, has received
exactly the peer's slice. Where this is so of four sessions, what they have received is the four
quarters of the file, and the server has counted as much. -/
theorem multi_complete (k : SKind) (cap : Nat) (mem : List UInt8) (l₀ l₁ : Listener) (hl : Sizes l₀)
    (hmem : l₀.fileSize ≤ mem.length) (h₀ : l₀.sessionList.sessions = [])
    (h₁ : l₁.sessionList.sessions = []) (htotal : l₁.totalTxRx = 0) (ls : List MultiLabel)
    (s : MultiTransfer) (h : run (step k cap mem) (init k l₀ l₁) ls = some s)
    (hG : Meets (step k cap mem) (Orderly k) (init k l₀ l₁) ls) :
    (∀ (j i : Nat) (pc : ServePc) (d : SendConn), s.server.conns[j]? = some pc →
      pc.inOrder = true → s.peers[j]? = some i → s.client.threads[i]? = some d →
      d.pc = .returned 0 →
      (s.pipes i).got = slice mem (l₀.fileSize.tdiv 4 * i).toNat (l₀.fileSize.tdiv 4).toNat) ∧
    (s.server.conns.length = 4 → (∀ pc ∈ s.server.conns, pc.inOrder = true) →
      (∀ d ∈ s.client.threads, d.pc = .returned 0) →
      (List.range 4).flatMap (fun i => (s.pipes i).got) =
          slice mem 0 ((l₀.fileSize.tdiv 4).toNat * 4) ∧
        s.server.listener.totals.sum = 4 * l₀.fileSize.tdiv 4) := by
  obtain ⟨hinv, hends⟩ : Inv mem s ∧ EndsAtEnd s := by
    refine run_invariant_of_meets (I := fun s => Inv mem s ∧ EndsAtEnd s)
      ⟨inv_init h₁ htotal, endsAtEnd_init⟩ ?_ hG h
    intro s l t ⟨hinv, hends⟩ hl ht
    exact ⟨inv_step hinv ht, endsAtEnd_step hinv hends hl ht⟩
  obtain ⟨⟨cs, hclient⟩, -, -⟩ := run_parts h
  have hc : Client mem (l₀.fileSize.tdiv 4) s.client := client_run hl h₀ hclient
  have hpos := hl.fileSize_nonneg
  have hq : 0 ≤ l₀.fileSize.tdiv 4 := Int.tdiv_nonneg hpos (by decide)
  have hfour : 4 * l₀.fileSize.tdiv 4 ≤ l₀.fileSize := by
    rw [Int.tdiv_eq_ediv_of_nonneg hpos]
    omega
  generalize l₀.fileSize.tdiv 4 = q at hc hq hfour ⊢
  constructor
  · intro j i pc d hpc hord hi hd hret
    exact got_slice h hG hinv hc hd hret (hends j i pc hpc hi hord)
  · intro hlen hord hret
    have hpeers := (List.nodup_append.mp hinv.nodup).2.1
    have hpeersLen : s.peers.length = 4 := by rw [← hinv.conns, hlen]
    -- every connection of the client is served and has arrived
    have hgot : ∀ i ∈ s.peers, (s.pipes i).got = slice mem (q * i).toNat q.toNat := by
      intro i hi
      obtain ⟨j, hj, rfl⟩ := List.getElem_of_mem hi
      obtain ⟨d, hd, -⟩ := hinv.connected _ (List.mem_append_right _ (List.getElem_mem hj))
      have hjc : j < s.server.conns.length := by rw [hinv.conns]; exact hj
      refine got_slice h hG hinv hc hd (hret d (List.mem_of_getElem? hd)) ?_
      exact hends j _ _ (List.getElem?_eq_getElem hjc) (List.getElem?_eq_getElem hj)
        (hord _ (List.getElem_mem hjc))
    have hmem4 : ∀ i ∈ s.peers, i ∈ List.range 4 := by
      intro i hi
      obtain ⟨d, hd, -⟩ := hinv.connected i (List.mem_append_right _ hi)
      have hlt := (List.getElem?_eq_some_iff.mp hd).1
      have hle := hc.length_le
      exact List.mem_range.mpr (by omega)
    have hperm : s.peers.Perm (List.range 4) :=
      (hpeers.subperm hmem4).perm_of_length_le (by rw [hpeersLen, List.length_range])
    have hall : ∀ i ∈ List.range 4, (s.pipes i).got = slice mem (q * i).toNat q.toNat :=
      fun i hi => hgot i (hperm.mem_iff.mpr hi)
    have hoff (i : Nat) : (q * i).toNat = q.toNat * i := by
      rw [Int.toNat_mul hq (Int.natCast_nonneg i), Int.toNat_natCast]
    refine ⟨?_, ?_⟩
    · have htiles := (tiles_equal q.toNat 4).flatMap_slice mem
      rw [List.flatMap_map, Nat.sub_zero] at htiles
      rw [← htiles]
      refine List.flatMap_congr fun i hi => ?_
      rw [hall i hi, hoff]
    · have hlen' : ∀ x ∈ s.server.listener.totals, x = q := by
        intro x hx
        rw [hinv.totals] at hx
        obtain ⟨i, hi, rfl⟩ := List.mem_map.mp hx
        have hlt := List.mem_range.mp (hmem4 i hi)
        rw [hgot i hi, slice_length, Int.toNat_of_nonneg hq]
        rw [hoff]
        have : q.toNat * i ≤ q.toNat * 3 := Nat.mul_le_mul_left _ (by omega)
        omega
      have hcount : s.server.listener.totals.length = 4 := by
        rw [hinv.totals, List.length_map, hpeersLen]
      rw [List.sum_eq_card_nsmul _ q hlen', hcount, nsmul_eq_mul]
      rfl

/-- The connection made last is accepted first. -/
def fourLabels : List MultiLabel :=
  List.flatten [[.server (.setup true) 0, .server .test 0, .server (.poll true) 0],
    List.replicate 4 (.client (.create true 5)),
    (List.range 4).map fun i => .client (.thread i (.connect 0)),
    .server (.accept 7 true) 3 :: List.replicate 3 (.server (.accept 8 true) 0),
    (List.range 4).flatMap fun i => [.client (.thread i (.send 2)), .client (.thread i .finish)],
    List.replicate 6 (.client .parent),
    (List.range 4).flatMap fun j =>
      [.server (.conn j .start) 0, .server (.conn j (.recv (.count 2))) 0,
        .server (.conn j (.recv (.count 0))) 0]]

def fourRun : Option MultiTransfer :=
  run (step .stream 8 [1, 2, 3, 4, 5, 6, 7, 8])
    (init .stream { tbCreateListener .mClient .tcp 4 with fileSize := 8 }
      (tbCreateListener .mServer .tcp 4)) fourLabels

theorem fourRun_isSome : fourRun.isSome = true := by decide +kernel

theorem multi_complete_eight_bytes :
    ∃ s, fourRun = some s ∧ s.peers = [3, 0, 1, 2] ∧
      (List.range 4).flatMap (fun i => (s.pipes i).got) =
        slice [1, 2, 3, 4, 5, 6, 7, 8] 0 (((8 : Int).tdiv 4).toNat * 4) ∧
      s.server.listener.totals.sum = 4 * (8 : Int).tdiv 4 :=
  have hs : fourRun = some (fourRun.get fourRun_isSome) := (Option.some_get _).symm
  ⟨_, hs, by decide +kernel, (multi_complete .stream 8 [1, 2, 3, 4, 5, 6, 7, 8]
    { tbCreateListener .mClient .tcp 4 with fileSize := 8 } (tbCreateListener .mServer .tcp 4)
    ⟨by decide, by decide, by decide, by decide⟩ (by decide) rfl rfl rfl fourLabels _ hs
    (by decide +kernel)).2 (by decide +kernel) (by decide +kernel) (by decide +kernel)⟩

end MultiTransfer

end TestBed
