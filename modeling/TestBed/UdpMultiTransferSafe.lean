import TestBed.UdpMultiTransfer

/-!
# What a UDP transfer over several sessions keeps

The server's table holds ids of sessions of the client, each with at most eight bytes for every datagram
that the session has sent (`udp_multi_safe`). The transfer ends in order: the server answers an empty
message only when every session thread of the client has returned, and unless it is broken off, both
sides leave their loops only when the server has answered (`udp_multi_handshake`). Where no data is lost
and the empty message comes last, the server has heard of everything when it answers
(`udp_multi_complete`).
-/

namespace TestBed

open CInt Transition Demux

namespace MClientProg

variable {τ ι : Type} {p : MClientProg τ ι} {s t : MClient τ}

/-- Of the client's own steps only the acknowledgement sets the exit command. -/
theorem command_step (hp : p.Regular) {l : MLabel ι} (hl : ∀ r, l ≠ .eot r true)
    (h : p.step s l = some t) : t.listener.command = s.listener.command := by
  cases l with
  | setup ok =>
    obtain ⟨-, rfl⟩ := setupStep_cases h
    rfl
  | create resolved sockD =>
    rcases createStep_cases hp h with ⟨x, hx, -⟩ | ⟨x, -, -, rfl⟩
    · rw [hx.listener]
    · rfl
  | parent =>
    cases parentStep_moves h with
    | @closes op ops l hpc hop =>
      cases op <;> simp only [closeStep] at hop
      case lock => split at hop <;> cases hop; rfl
      case closeConn => split at hop <;> cases hop; rfl
      all_goals cases hop; rfl
    | _ => rfl
  | eot r ack =>
    obtain ⟨ops, -, -, ⟨-, rfl⟩ | ⟨-, hack, rfl⟩ | ⟨-, -, rfl⟩⟩ := eotStep_cases h
    · rfl
    · exact absurd (by rw [hack]) (hl r)
    · rfl
  | thread k io =>
    obtain ⟨session, c, r, hm⟩ := threadStep_moved h
    rw [hm.eq]
    rfl
  | tick q =>
    cases h
    rfl

end MClientProg

theorem UdpMsg.wire_ne_nil {mem : List UInt8} (m : UdpMsg) : m.wire mem ≠ [] := by
  intro h
  have hlen := congrArg List.length h
  simp [UdpMsg.wire] at hlen

namespace UdpMultiTransfer

variable {mem : List UInt8} {l₀ l₁ : Listener} {s t : UdpMultiTransfer} {l : UdpMultiLabel}

/-! ## The network -/

/-- What a step puts into the network. -/
def sentNow (mem : List UInt8) (s : UdpMultiTransfer) : UdpMultiLabel → List (List UInt8)
  | .client l => (s.client.sends l).map (·.wire mem)
  | .eotSend .sent => [[]]
  | _ => []

/-- The network after a step: what was sent is added to, and what the server reads comes from it. -/
theorem toServer_step (ht : step mem s l = some t) :
    t.toServer.sent = s.toServer.sent ++ sentNow mem s l ∧
      t.toServer.received = s.toServer.received ++ (s.serverActs l).flatMap UdpMServer.arrives := by
  obtain ⟨hallowed, -, -, hserver, hto, -⟩ := step_eq_some_iff.mp ht
  cases l with
  | client l =>
    rw [Mailbox.run_send hto]
    exact ⟨rfl, (List.append_nil _).symm⟩
  | eotSend r =>
    cases r with
    | sent =>
      rw [← Option.some.inj hto]
      exact ⟨rfl, (List.append_nil _).symm⟩
    | wouldBlock | error =>
      rw [← Option.some.inj hto]
      exact ⟨(List.append_nil _).symm, (List.append_nil _).symm⟩
  | server l =>
    rw [← Option.some.inj hto]
    refine ⟨(List.append_nil _).symm, ?_⟩
    have hnone : UdpMServer.arrives l = [] := by
      cases l with
      | recv r =>
        rcases r with _ | (d | _)
        · rfl
        · exact absurd hallowed Bool.false_ne_true
        · rfl
      | _ => rfl
    rw [serverActs, List.flatMap_singleton, hnone, List.append_nil]
  | deliver i =>
    rw [toServerActs, run_singleton] at hto
    obtain ⟨d, hd, hto⟩ := Option.map_eq_some_iff.mp hto
    rw [← hto, serverActs, hd]
    exact ⟨(List.append_nil _).symm, rfl⟩
  | loseToServer i =>
    rw [toServerActs, run_singleton] at hto
    obtain ⟨d, -, hto⟩ := Option.map_eq_some_iff.mp hto
    rw [← hto]
    exact ⟨(List.append_nil _).symm, (List.append_nil _).symm⟩
  | eotPoll | interrupt | loseToClient =>
    rw [← Option.some.inj hto]
    exact ⟨(List.append_nil _).symm, (List.append_nil _).symm⟩

/-! ## The invariant -/

/-- What holds in every state of a transfer. -/
structure Inv (l₀ : Listener) (s : UdpMultiTransfer) : Prop where
  shape : MClientProg.Shape tbUdpMClient l₀ s.client
  joined : MClientProg.JoinedReturned tbUdpMClient s.client
  eot : [] ∈ s.toServer.sent → ∀ k, s.client.parent.joined k = true
  acks : s.toClient.sent.length = s.server.server.acks

/-- What holds besides where all datagrams of the sessions carry data. -/
structure Accounts (mem : List UInt8) (l₀ : Listener) (s : UdpMultiTransfer) : Prop where
  sends : UdpSends mem (l₀.fileSize.tdiv 4) l₀.bufsize s.client s.toServer.sent
  received : UdpMServer.Received s.toServer.received s.server

theorem sends_step (hl : UdpSizes l₀) (hshape : MClientProg.Shape tbUdpMClient l₀ s.client)
    (h : UdpSends mem (l₀.fileSize.tdiv 4) l₀.bufsize s.client s.toServer.sent)
    (ht : step mem s l = some t) :
    UdpSends mem (l₀.fileSize.tdiv 4) l₀.bufsize t.client t.toServer.sent := by
  obtain ⟨hallowed, hclient, -, -, -, -⟩ := step_eq_some_iff.mp ht
  rw [(toServer_step ht).1]
  cases l with
  | client l =>
    refine h.step hl hshape (fun k rc hrc => ?_) hclient
    subst hrc
    have hor : rc = -1 ∨ ((s.client.nextMsg? k).all fun m => rc = asInt m.size) = true := by
      simpa [allowed] using hallowed
    refine hor.imp_right fun hall m hm => ?_
    simpa [hm] using hall
  | eotSend r =>
    refine h.quiet (MClientProg.eotStep_quiet hclient) fun d hd => ?_
    cases r with
    | sent => exact List.mem_singleton.mp hd
    | wouldBlock | error => cases hd
  | eotPoll i =>
    simp only [clientStep] at hclient
    split at hclient
    · rw [← Option.some.inj hclient]
      simpa [sentNow] using h
    · exact h.quiet (MClientProg.eotStep_quiet hclient) (by simp [sentNow])
  | interrupt =>
    rw [← Option.some.inj hclient]
    exact h.quiet (MClientProg.quiet_interrupted _) (by simp [sentNow])
  | server | deliver | loseToServer | loseToClient =>
    rw [← Option.some.inj hclient]
    simpa [sentNow] using h

theorem received_step (h : UdpMServer.Received s.toServer.received s.server)
    (hwell : ∀ d ∈ s.toServer.inFlight, UdpMServer.WellFormed d) (ht : step mem s l = some t) :
    UdpMServer.Received t.toServer.received t.server := by
  obtain ⟨hallowed, -, -, hserver, -, -⟩ := step_eq_some_iff.mp ht
  rw [(toServer_step ht).2]
  cases l with
  | server l =>
    rw [serverActs, run_singleton] at hserver
    rw [serverActs, List.flatMap_singleton]
    refine h.step (fun d hd => ?_) hserver
    unfold UdpMServer.arrives at hd
    split at hd
    · exact absurd hallowed Bool.false_ne_true
    · cases hd
  | deliver i =>
    cases hd : s.toServer.inFlight[i]? with
    | none =>
      rw [serverActs, hd] at hserver ⊢
      rw [← Option.some.inj hserver]
      simpa using h
    | some d =>
      rw [serverActs, hd] at hserver ⊢
      have hone : UdpMServer.step s.server (.recv (some (.datagram d))) = some t.server := by
        simpa using hserver
      refine h.step (fun e he => ?_) hone
      rw [List.mem_singleton.mp he]
      exact hwell d (List.mem_of_getElem? hd)
  | client | eotSend | eotPoll | interrupt | loseToServer | loseToClient =>
    rw [← Option.some.inj hserver]
    simpa [serverActs] using h

theorem joined_of_step (ht : step mem s l = some t) {k : Nat}
    (hk : s.client.parent.joined k = true) : t.client.parent.joined k = true := by
  obtain ⟨-, hclient, -⟩ := step_eq_some_iff.mp ht
  rcases clientStep_cases hclient with heq | heq | ⟨ml, hml⟩
  · rw [heq]
    exact hk
  · rw [heq]
    exact hk
  · exact MClientProg.joined_step (mClient_regular .udp) hml hk

/-- The empty message is sent when all threads are joined. -/
theorem eot_step (h : [] ∈ s.toServer.sent → ∀ k, s.client.parent.joined k = true)
    (ht : step mem s l = some t) (heot : [] ∈ t.toServer.sent) (k : Nat) :
    t.client.parent.joined k = true := by
  refine joined_of_step ht ?_
  rw [(toServer_step ht).1, List.mem_append] at heot
  rcases heot with heot | heot
  · exact h heot k
  obtain ⟨-, hclient, -, -, -, -⟩ := step_eq_some_iff.mp ht
  unfold sentNow at heot
  split at heot
  · obtain ⟨m, -, hm⟩ := List.mem_map.mp heot
    exact absurd hm m.wire_ne_nil
  · obtain ⟨ops, hpc, -⟩ := MClientProg.eotStep_cases hclient
    rw [hpc]
    rfl
  · cases heot

/-- The network keeps an acknowledgement for every one that the server has sent. -/
theorem acks_step (h : s.toClient.sent.length = s.server.server.acks) (ht : step mem s l = some t) :
    t.toClient.sent.length = t.server.server.acks := by
  obtain ⟨-, -, -, hserver, -, hback⟩ := step_eq_some_iff.mp ht
  cases l with
  | server l =>
    rw [serverActs, run_singleton] at hserver
    rw [UdpMServer.step_acks hserver, ← h]
    cases l with
    | ack =>
      rw [← Option.some.inj hback]
      exact List.length_append
    | _ =>
      rw [← Option.some.inj hback]
      rfl
  | deliver i =>
    have hsame : t.server.server.acks = s.server.server.acks := by
      cases hd : s.toServer.inFlight[i]? with
      | none =>
        rw [serverActs, hd] at hserver
        rw [← Option.some.inj hserver]
      | some d =>
        rw [serverActs, hd, Option.map_some, Option.toList_some, run_singleton] at hserver
        exact UdpMServer.step_acks hserver
    rw [hsame, ← h, ← Option.some.inj hback]
  | eotPoll i =>
    rw [← Option.some.inj hserver, ← h]
    cases i with
    | none => rw [← Option.some.inj hback]
    | some i =>
      rw [toClientActs, run_singleton] at hback
      obtain ⟨d, -, hback⟩ := Option.map_eq_some_iff.mp hback
      rw [← hback]
  | loseToClient i =>
    rw [toClientActs, run_singleton] at hback
    obtain ⟨d, -, hback⟩ := Option.map_eq_some_iff.mp hback
    rw [← Option.some.inj hserver, ← h, ← hback]
  | client | eotSend | interrupt | loseToServer =>
    rw [← Option.some.inj hserver, ← h, ← Option.some.inj hback]

theorem inv_run (h₀ : l₀.sessionList.sessions = []) {ls : List UdpMultiLabel}
    (h : run (step mem) (init l₀ l₁) ls = some s) : Inv l₀ s := by
  have hreg : MClientProg.Regular tbUdpMClient := mClient_regular .udp
  have hshape : MClientProg.Shape tbUdpMClient l₀ s.client :=
    run_client (MClientProg.Shape.init hreg h₀) (fun _ _ _ hc ht => hc.step hreg ht)
      (fun _ hc => hc.interrupted) h
  have hjoined : MClientProg.JoinedReturned tbUdpMClient s.client :=
    run_client (MClientProg.joinedReturned_init l₀)
      (fun _ _ _ hc ht => hc.step hreg MClientProg.tbUdpMClient_final ht) (fun _ hc => hc) h
  have hsent : ([] ∈ s.toServer.sent → ∀ k, s.client.parent.joined k = true) ∧
      s.toClient.sent.length = s.server.server.acks := by
    refine run_invariant (I := fun s : UdpMultiTransfer =>
      ([] ∈ s.toServer.sent → ∀ k, s.client.parent.joined k = true) ∧
        s.toClient.sent.length = s.server.server.acks) ⟨by rintro ⟨⟩, rfl⟩ ?_ h
    rintro s l t ⟨heot, hacks⟩ ht
    exact ⟨eot_step heot ht, acks_step hacks ht⟩
  exact ⟨hshape, hjoined, hsent.1, hsent.2⟩

theorem accounts_run (hl : UdpSizes l₀) (h₀ : l₀.sessionList = ⟨-1, 0, [], 0⟩)
    (htotal : l₁.totalTxRx = 0) {ls : List UdpMultiLabel}
    (h : run (step mem) (init l₀ l₁) ls = some s) : Accounts mem l₀ s := by
  refine run_induction (P := fun _ s => Accounts mem l₀ s)
    ⟨UdpSends.init h₀, UdpMServer.received_init htotal⟩ ?_ h
  intro ls s l t hr hs ht
  obtain ⟨⟨as, has, -⟩, -⟩ := run_parts hr
  have hshape := (inv_run (by rw [h₀]) hr).shape
  have hwell : ∀ d ∈ s.toServer.inFlight, UdpMServer.WellFormed d := fun d hd =>
    hs.sends.wellFormed d ((Mailbox.run_subperm has).subset (List.mem_append_right _ hd))
  exact ⟨sends_step hl hshape hs.sends ht, received_step hs.received hwell ht⟩

/-! ## The totals -/

/-- How many datagrams of `ds` carry an id. -/
def countId (id : Int) (ds : List (List UInt8)) : Nat := ds.countP fun d => (hdrCount d).1 = id

/-- The total of an id is eight for each of its datagrams. -/
theorem totals_received {rs : List (List UInt8)} {u : UdpMServer} (h : u.Received rs) (id : Int) :
    u.server.listener.sessionList.totals id =
      if countId id (UdpMServer.data rs) = 0 then none
      else some (8 * (countId id (UdpMServer.data rs) : Int)) := by
  have hconst : ∀ m ∈ (UdpMServer.data rs).map hdrCount, m.2 = 8 := by
    intro m hm
    obtain ⟨d, -, rfl⟩ := List.mem_map.mp hm
    rfl
  have hcount : ((UdpMServer.data rs).map hdrCount).countP (·.1 = id) =
      countId id (UdpMServer.data rs) := by
    rw [List.countP_map]
    simp only [countId, Function.comp_def]
  rw [h.totals, addAll_const hconst, hcount]

section Sessions

variable {q b : Int} {c : MClient UdpConn} {sent : List (List UInt8)}

theorem session?_of_thread (h : UdpSends mem q b c sent) {k : Nat} {d : UdpConn}
    (hd : c.threads[k]? = some d) : ∃ session, c.listener.session? k = some session := by
  have hlt := (List.getElem?_eq_some_iff.mp hd).1
  rw [h.length] at hlt
  exact ⟨_, List.getElem?_eq_getElem hlt⟩

theorem keyed_messages (h : UdpSends mem q b c sent) (hb : b < 2 ^ 31) (k : Nat) (d : UdpConn)
    (hd : c.threads[k]? = some d) :
    ∀ e ∈ d.messages.map (·.wire mem), (hdrCount e).1 = k := by
  intro e he
  obtain ⟨m, hm, rfl⟩ := List.mem_map.mp he
  obtain ⟨session, hs⟩ := session?_of_thread h hd
  exact (h.dataDatagram hb hs hd ((h.conn k session d hs hd).labelled m hm)).2

/-- The datagrams with the id of a session are the session's. -/
theorem countId_sent (h : UdpSends mem q b c sent) (hb : b < 2 ^ 31) {k : Nat} {d : UdpConn}
    (hd : c.threads[k]? = some d) : countId k (UdpMServer.data sent) = d.messages.length := by
  rw [countId, h.datagrams.countP_eq, List.countP_eq_length_filter,
    filter_flatMap_place (keyed_messages h hb) hd, List.length_map]

/-- An id that was sent is the place of a session. -/
theorem session_of_sent (h : UdpSends mem q b c sent) (hb : b < 2 ^ 31) {e : List UInt8}
    (he : e ∈ UdpMServer.data sent) : ∃ (k : Nat) (d : UdpConn), c.threads[k]? = some d ∧
      (hdrCount e).1 = k := by
  obtain ⟨d, hmem, he⟩ := List.mem_flatMap.mp (h.datagrams.mem_iff.mp he)
  obtain ⟨k, hk⟩ := List.mem_iff_getElem?.mp hmem
  exact ⟨k, d, hk, keyed_messages h hb k d hk e he⟩

theorem length_sent (h : UdpSends mem q b c sent) :
    (UdpMServer.data sent).length = (c.threads.map fun d => d.messages.length).sum := by
  rw [h.datagrams.length_eq, List.length_flatMap]
  simp

end Sessions

theorem nodup_eraseDups (ids : List Int) : ids.eraseDups.Nodup := by
  induction ids using List.reverseRecOn with
  | nil => exact List.nodup_nil
  | append_singleton ids id ih =>
    rw [eraseDups_concat]
    split
    · exact ih
    · next hid =>
      rw [List.nodup_append]
      refine ⟨ih, List.nodup_singleton id, fun a ha b hb => ?_⟩
      rw [List.mem_singleton.mp hb]
      rintro rfl
      exact hid (List.mem_eraseDups.mp ha)

/-- The server has heard `n` bytes of a session of the client, no more than it has sent datagrams. -/
structure Heard (s : UdpMultiTransfer) (k : Nat) (n : Int) : Prop where
  pos : 0 < n
  le : ∃ d, s.client.threads[k]? = some d ∧ n ≤ 8 * d.messages.length

/-- **The server counts datagrams of the client's sessions.** In every run, with a network that holds,
reorders and loses datagrams as it likes: the server's sessions have ids of the client's, each id once,
so there are at most four; a session has at most eight bytes for each datagram that its peer has sent;
the published total is at most the sum over the sessions, and that at most eight bytes for each datagram
sent. -/
theorem udp_multi_safe (mem : List UInt8) (l₀ l₁ : Listener) (hl : UdpSizes l₀)
    (h₀ : l₀.sessionList = ⟨-1, 0, [], 0⟩) (htotal : l₁.totalTxRx = 0) (ls : List UdpMultiLabel)
    (s : UdpMultiTransfer)
    (h : run (step mem) (init l₀ l₁) ls = some s) :
    (∀ id n, s.server.server.listener.sessionList.totals id = some n →
      ∃ k : Nat, id = k ∧ s.Heard k n) ∧
    (s.server.server.ids.Nodup ∧ s.server.server.ids.length ≤ 4) ∧
    s.server.server.listener.totalTxRx ≤ s.server.server.listener.sessionList.totalBytes ∧
    s.server.server.listener.sessionList.totalBytes ≤
      8 * ((s.client.threads.map fun d => d.messages.length).sum : Nat) := by
  have hinv := accounts_run hl h₀ htotal h
  have hb := hl.bufsize_lt
  obtain ⟨⟨as, has, -⟩, -⟩ := run_parts h
  have hsub : (UdpMServer.data s.toServer.received).Subperm (UdpMServer.data s.toServer.sent) :=
    ((List.sublist_append_left _ _).subperm.trans (Mailbox.run_subperm has)).filter _
  have hids : ∀ id ∈ s.server.server.ids, ∃ (k : Nat) (d : UdpConn),
      s.client.threads[k]? = some d ∧ id = k := by
    intro id hid
    rw [hinv.received.demuxed.ids, List.mem_eraseDups] at hid
    obtain ⟨e, he, rfl⟩ := List.mem_map.mp hid
    obtain ⟨k, d, hd, hk⟩ := session_of_sent hinv.sends hb (hsub.subset he)
    exact ⟨k, d, hd, by rw [← UdpMServer.hdrCount_fst, hk]⟩
  have hnodup : s.server.server.ids.Nodup := by
    rw [hinv.received.demuxed.ids]
    exact nodup_eraseDups _
  refine ⟨fun id n hn => ?_, ⟨hnodup, ?_⟩, hinv.received.published, ?_⟩
  · rw [totals_received hinv.received] at hn
    split at hn
    · cases hn
    · next hpos =>
      cases hn
      obtain ⟨e, he, hid⟩ := List.countP_pos_iff.mp (Nat.pos_of_ne_zero hpos)
      obtain ⟨k, d, hd, hk⟩ := session_of_sent hinv.sends hb (hsub.subset he)
      have hid : id = k := by
        rw [← hk]
        exact (of_decide_eq_true hid).symm
      have hle : countId id (UdpMServer.data s.toServer.received) ≤ d.messages.length := by
        rw [← countId_sent hinv.sends hb hd, ← hid]
        exact hsub.countP_le _
      exact ⟨k, hid, by omega, d, hd, by omega⟩
  · have hfour : s.server.server.ids.Subperm ((List.range 4).map Nat.cast) := by
      refine hnodup.subperm fun id hid => ?_
      obtain ⟨k, d, hd, rfl⟩ := hids id hid
      have hlt := (List.getElem?_eq_some_iff.mp hd).1
      have hle := hinv.sends.length_le
      exact List.mem_map_of_mem (List.mem_range.mpr (by omega))
    exact hfour.length_le
  · rw [hinv.received.bytes, ← length_sent hinv.sends]
    have hle := hsub.length_le
    omega

/-- Eight bytes in four sessions, whose datagrams arrive out of order. -/
def eightByteDatagrams : List UdpMultiLabel :=
  List.flatten [List.replicate 4 (.client (.create true 5)),
    (List.range 4).map fun k => .client (.thread k (.connect 0)),
    List.replicate 2 (.client .parent),
    (List.range 4).map fun k => .client (.thread k (.send 10)),
    [.server .test, .server (.poll .event), .deliver 2, .deliver 0],
    (List.range 4).map fun k => .client (.thread k .finish),
    List.replicate 7 (.client .parent),
    [.eotSend .sent, .eotPoll none],
    List.replicate 6 (.deliver 0),
    [.server (.recv none), .server .test, .eotSend .sent, .server (.poll .event), .deliver 0,
      .server .ack, .server .exit, .server .test, .eotPoll (some 0), .client .parent]]

def eightByteStart : UdpMultiTransfer :=
  init { tbCreateListener .mClient .udp 4 with fileSize := 8 } (tbCreateListener .mServer .udp 4)

def eightByteRun : Option UdpMultiTransfer :=
  run (step [1, 2, 3, 4, 5, 6, 7, 8]) eightByteStart eightByteDatagrams

theorem eightByteRun_isSome : eightByteRun.isSome = true := by decide +kernel

theorem eightByteSizes :
    UdpSizes { tbCreateListener .mClient .udp 4 with fileSize := 8 } :=
  ⟨by decide, by decide, by decide, by decide⟩

theorem udp_multi_safe_eight_bytes :
    ∃ s, eightByteRun = some s ∧ s.server.server.listener.sessionList.totalBytes = 64 ∧
      s.server.server.ids.Nodup :=
  have hs : eightByteRun = some (eightByteRun.get eightByteRun_isSome) := (Option.some_get _).symm
  ⟨_, hs, by decide +kernel, (udp_multi_safe [1, 2, 3, 4, 5, 6, 7, 8] _
    (tbCreateListener .mServer .udp 4) eightByteSizes rfl rfl eightByteDatagrams _ hs).2.1.1⟩

/-! ## The end of the transfer -/

/-- SIGINT at the server, or a poll that fails there. -/
def breaksOff : UdpMultiLabel → Bool
  | .server .interrupt | .server (.poll .broken) => true
  | _ => false

/-- SIGINT at the client, or an empty message that cannot be sent. -/
def givesUp : UdpMultiLabel → Bool
  | .interrupt | .eotSend .error => true
  | _ => false

theorem answered_step (h : UdpMServer.Answered s.server) (hl : breaksOff l = false)
    (ht : step mem s l = some t) : UdpMServer.Answered t.server := by
  obtain ⟨-, -, -, hserver, -, -⟩ := step_eq_some_iff.mp ht
  cases l with
  | server l =>
    rw [serverActs, run_singleton] at hserver
    refine h.step ?_ ?_ hserver
    · rintro rfl
      cases hl
    · rintro rfl
      cases hl
  | deliver i =>
    cases hd : s.toServer.inFlight[i]? with
    | none =>
      rw [serverActs, hd] at hserver
      rw [← Option.some.inj hserver]
      exact h
    | some d =>
      rw [serverActs, hd, Option.map_some, Option.toList_some, run_singleton] at hserver
      exact h.step (by rintro ⟨⟩) (by rintro ⟨⟩) hserver
  | client | eotSend | eotPoll | interrupt | loseToServer | loseToClient =>
    rw [← Option.some.inj hserver]
    exact h

/-- Unless it is interrupted, the client is told to exit by an acknowledgement. -/
theorem command_step (h : s.client.listener.command = .tbExit → s.toClient.received ≠ [])
    (hl : givesUp l = false) (ht : step mem s l = some t)
    (hcmd : t.client.listener.command = .tbExit) : t.toClient.received ≠ [] := by
  obtain ⟨hallowed, hclient, -, -, -, hback⟩ := step_eq_some_iff.mp ht
  have hreg : MClientProg.Regular tbUdpMClient := mClient_regular .udp
  have keep (hsame : t.client.listener.command = s.client.listener.command)
      (hreceived : t.toClient.received = s.toClient.received) : t.toClient.received ≠ [] := by
    rw [hreceived]
    exact h (hsame.symm.trans hcmd)
  cases l with
  | interrupt => cases hl
  | client ml =>
    refine keep (MClientProg.command_step hreg ?_ hclient) (by rw [← Option.some.inj hback])
    rintro r rfl
    exact absurd hallowed Bool.false_ne_true
  | eotSend r =>
    exact keep (MClientProg.command_step hreg (l := .eot r false) (by rintro _ ⟨⟩) hclient)
      (by rw [← Option.some.inj hback])
  | eotPoll i =>
    cases i with
    | none =>
      refine keep ?_ (by rw [← Option.some.inj hback])
      simp only [clientStep] at hclient
      split at hclient
      · rw [Option.some.inj hclient]
      · exact MClientProg.command_step hreg (by rintro _ ⟨⟩) hclient
    | some i =>
      rw [toClientActs, run_singleton] at hback
      obtain ⟨d, -, hback⟩ := Option.map_eq_some_iff.mp hback
      rw [← hback]
      exact List.concat_ne_nil _ _
  | loseToClient i =>
    rw [toClientActs, run_singleton] at hback
    obtain ⟨d, -, hback⟩ := Option.map_eq_some_iff.mp hback
    exact keep (by rw [← Option.some.inj hclient]) (by rw [← hback])
  | server ml =>
    refine keep (by rw [← Option.some.inj hclient]) ?_
    cases ml with
    | ack => rw [← Option.some.inj hback]
    | _ => rw [← Option.some.inj hback]
  | deliver | loseToServer =>
    exact keep (by rw [← Option.some.inj hclient]) (by rw [← Option.some.inj hback])

/-- The parent is out of its closing loop only with the exit command. -/
def ClosedByExit (c : MClient UdpConn) : Prop :=
  ∀ ops, c.parent = .closing ops → .closeConn ∉ ops → c.listener.command = .tbExit

theorem ClosedByExit.clientStep {c c' : MClient UdpConn} (h : ClosedByExit c)
    {ml : MLabel ThreadIo} (hl : ∀ ack, ml ≠ .eot .error ack)
    (ht : tbUdpMClient.step c ml = some c') : ClosedByExit c' := by
  intro ops hpc hops
  have hreg : MClientProg.Regular tbUdpMClient := mClient_regular .udp
  cases ml with
  | setup ok =>
    obtain ⟨-, rfl⟩ := MClientProg.setupStep_cases ht
    cases ok <;> cases hpc
  | create resolved sockD =>
    rcases MClientProg.createStep_cases hreg ht with ⟨x, hx, -⟩ | ⟨x, -, -, rfl⟩
    · rw [hx.parent'] at hpc
      split at hpc <;> cases hpc
    · cases hpc
  | parent =>
    cases MClientProg.parentStep_moves ht with
    | waits hpc' => exact h ops hpc hops
    | starts | connects | joins => cases hpc
    | leaves =>
      cases hpc
      exact absurd (by decide) hops
    | @closes op ops' l hpc' hop =>
      cases hpc
      by_cases hconn : op = .closeConn
      · subst hconn
        simp only [MClientProg.closeStep] at hop
        split at hop <;> cases hop
        assumption
      · have hbefore := h _ hpc' fun hmem => by
          rcases List.mem_cons.mp hmem with heq | hmem
          · exact hconn heq.symm
          · exact hops hmem
        have hkeep := MClientProg.command_step hreg (l := .parent) (by rintro _ ⟨⟩) ht
        exact hkeep.trans hbefore
  | eot r ack =>
    obtain ⟨ops', -, -, ⟨rfl, -⟩ | ⟨-, -, rfl⟩ | ⟨-, -, rfl⟩⟩ := MClientProg.eotStep_cases ht
    · -- only a failed send leaves the loop
      exact absurd rfl (hl ack)
    · rfl
    · exact h ops hpc hops
  | thread k io =>
    obtain ⟨session, d, r, hm⟩ := MClientProg.threadStep_moved ht
    rw [hm.eq] at hpc ⊢
    exact h ops hpc hops
  | tick q =>
    cases ht
    exact h ops hpc hops

theorem closedByExit_step (h : ClosedByExit s.client) (hl : givesUp l = false)
    (ht : step mem s l = some t) : ClosedByExit t.client := by
  obtain ⟨hallowed, hclient, -⟩ := step_eq_some_iff.mp ht
  cases l with
  | client ml =>
    refine h.clientStep ?_ hclient
    rintro ack rfl
    exact absurd hallowed Bool.false_ne_true
  | eotSend r =>
    have hstep : tbUdpMClient.step s.client (.eot r false) = some t.client := hclient
    refine h.clientStep ?_ hstep
    rintro ack ⟨⟩
    cases hl
  | eotPoll i =>
    simp only [clientStep] at hclient
    split at hclient
    · rw [← Option.some.inj hclient]
      exact h
    · exact h.clientStep (by rintro _ ⟨⟩) hclient
  | interrupt => cases hl
  | server | deliver | loseToServer | loseToClient =>
    rw [← Option.some.inj hclient]
    exact h

/-- The server answers when all session threads have returned. -/
theorem returned_of_acks (hinv : Inv l₀ s) (hacc : Accounts mem l₀ s)
    {as : List (Mailbox.Act (List UInt8))} (has : run Mailbox.step Mailbox.empty as = some s.toServer)
    (hacks : s.server.server.acks ≠ 0) :
    s.client.threads.length = 4 ∧ ∀ d ∈ s.client.threads, d.pc.retval.isSome = true := by
  have hreceived : [] ∈ s.toServer.received := hacc.received.eot (.inr (.inr hacks))
  have hjoined := hinv.eot (Mailbox.mem_sent has hreceived)
  have hall : s.client.parent.allCreated = true := by
    -- no number of joins is all of them
    cases hpc : s.client.parent with
    | closing => rfl
    | join k =>
      have hk := hjoined k
      simp [hpc, ParentPc.joined] at hk
    | _ =>
      have hk := hjoined 0
      simp [hpc, ParentPc.joined] at hk
  refine ⟨hinv.shape.length.trans (hinv.shape.full hall), fun d hd => ?_⟩
  obtain ⟨k, hk⟩ := List.mem_iff_getElem?.mp hd
  exact hinv.joined k d (hjoined k) hk

/-- **The transfer ends in order.** In every run: where the sizes make every datagram carry data, all four
session threads of the client have returned when the server has acknowledged an empty message. Unless it
receives SIGINT or a poll fails, the server leaves its loop only after it has acknowledged. Unless it
receives SIGINT or the empty message cannot be sent, the client leaves its closing loop only after
that. -/
theorem udp_multi_handshake (mem : List UInt8) (l₀ l₁ : Listener)
    (h₀ : l₀.sessionList = ⟨-1, 0, [], 0⟩) (hcmd₀ : l₀.command = .tbContinue)
    (hcmd₁ : l₁.command = .tbContinue) (htotal : l₁.totalTxRx = 0) (ls : List UdpMultiLabel)
    (s : UdpMultiTransfer) (h : run (step mem) (init l₀ l₁) ls = some s) :
    (UdpSizes l₀ → s.server.server.acks ≠ 0 →
      s.client.threads.length = 4 ∧ ∀ d ∈ s.client.threads, d.pc.retval.isSome = true) ∧
    ((∀ l ∈ ls, breaksOff l = false) → s.server.pc.left = true → s.server.server.acks ≠ 0) ∧
    ((∀ l ∈ ls, givesUp l = false) → ∀ ops, s.client.parent = .closing ops →
      .closeConn ∉ ops → s.server.server.acks ≠ 0) := by
  have hinv := inv_run (by rw [h₀]) h
  obtain ⟨⟨as, has, -⟩, ⟨bs, hbs⟩⟩ := run_parts h
  refine ⟨fun hl hacks => ?_, fun hkeep hleft => ?_, fun hkeep ops hpc hops => ?_⟩
  · exact returned_of_acks hinv (accounts_run hl h₀ htotal h) has hacks
  · have hans : UdpMServer.Answered s.server := by
      refine run_invariant_of_meets (G := fun _ l => breaksOff l = false)
        (I := fun s => UdpMServer.Answered s.server) ?_ (fun _ _ _ hs hl ht => answered_step hs hl ht)
        (meets_of_forall fun l hl _ => hkeep l hl) h
      refine ⟨fun hcmd => ?_, by rintro ⟨⟩, by rintro ⟨⟩⟩
      have hcmd : l₁.command.eLoop = true := hcmd
      rw [hcmd₁] at hcmd
      cases hcmd
    exact hans.left hleft
  · have htold : ClosedByExit s.client ∧
        (s.client.listener.command = .tbExit → s.toClient.received ≠ []) := by
      refine run_invariant_of_meets (G := fun _ l => givesUp l = false)
        (I := fun s : UdpMultiTransfer => ClosedByExit s.client ∧
          (s.client.listener.command = .tbExit → s.toClient.received ≠ []))
        ⟨by rintro _ ⟨⟩, fun hcmd => ?_⟩ ?_ (meets_of_forall fun l hl _ => hkeep l hl) h
      · have hcmd : l₀.command = .tbExit := hcmd
        rw [hcmd₀] at hcmd
        cases hcmd
      · rintro s l t ⟨hclosed, htold⟩ hl ht
        exact ⟨closedByExit_step hclosed hl ht, command_step htold hl ht⟩
    have hreceived := htold.2 (htold.1 ops hpc hops)
    rw [← hinv.acks]
    intro hnone
    obtain ⟨d, hd⟩ := List.exists_mem_of_ne_nil _ hreceived
    have hsent := Mailbox.mem_sent hbs hd
    rw [List.length_eq_zero_iff.mp hnone] at hsent
    cases hsent

/-- Both sides have left their loops. -/
theorem udp_multi_handshake_eight_bytes :
    ∃ s, eightByteRun = some s ∧ s.client.parent = .closing [.disconnected, .lock] ∧
      s.server.pc.left = true ∧ s.server.server.acks ≠ 0 ∧ s.client.threads.length = 4 := by
  have hs : eightByteRun = some (eightByteRun.get eightByteRun_isSome) := (Option.some_get _).symm
  obtain ⟨hreturned, hserver, hclient⟩ := udp_multi_handshake [1, 2, 3, 4, 5, 6, 7, 8] _
    (tbCreateListener .mServer .udp 4) rfl rfl rfl rfl eightByteDatagrams _ hs
  have hparent : (eightByteRun.get eightByteRun_isSome).client.parent =
      .closing [.disconnected, .lock] := by decide +kernel
  have hleft : (eightByteRun.get eightByteRun_isSome).server.pc.left = true := by decide +kernel
  have hacks := hclient (by decide) [.disconnected, .lock] hparent (by decide)
  exact ⟨_, hs, hparent, hleft, hserver (by decide) hleft, (hreturned eightByteSizes hacks).1⟩

/-! ## A network that loses no data -/

/-- The empty message overtakes data. -/
def overtakes (s : UdpMultiTransfer) : UdpMultiLabel → Bool
  | .deliver i => s.toServer.inFlight[i]? = some [] && s.toServer.inFlight.any (!·.isEmpty)
  | _ => false

def Faithful (s : UdpMultiTransfer) (l : UdpMultiLabel) : Prop :=
  LosesNoData s l ∧ s.overtakes l = false

instance (s : UdpMultiTransfer) (l : UdpMultiLabel) : Decidable (Faithful s l) :=
  inferInstanceAs (Decidable (_ = false ∧ _ = false))

/-- Nothing is under way to a server that has received the empty message. -/
def HeardAll (s : UdpMultiTransfer) : Prop :=
  [] ∈ s.toServer.received → ∀ d ∈ s.toServer.inFlight, d = []

theorem heardAll_step (hinv : Inv l₀ s)
    (hsent : ∀ d ∈ s.toServer.received, d ∈ s.toServer.sent) (h : HeardAll s)
    (hlast : s.overtakes l = false) (ht : step mem s l = some t) : HeardAll t := by
  obtain ⟨-, hclient, -, -, hto, -⟩ := step_eq_some_iff.mp ht
  intro heot
  cases l with
  | client ml =>
    rw [Mailbox.run_send hto] at heot ⊢
    intro d hd
    rcases List.mem_append.mp hd with hd | hd
    · exact h heot d hd
    -- all threads have returned, and none of them sends
    have hjoined := hinv.eot (hsent [] heot)
    obtain ⟨m, hm, -⟩ := List.mem_map.mp hd
    cases ml with
    | thread k io =>
      obtain ⟨session, c, r, hmoved⟩ := MClientProg.threadStep_moved hclient
      have hsome := hinv.joined k c (hjoined k) hmoved.thread_eq
      rw [MClientProg.tbUdpMClient_final _ _ _ _ hmoved.step] at hsome
      cases hsome
    | setup | create | parent | eot | tick => cases hm
  | eotSend r =>
    cases r with
    | sent =>
      rw [← Option.some.inj hto] at heot ⊢
      intro d hd
      rcases List.mem_append.mp hd with hd | hd
      · exact h heot d hd
      · exact List.mem_singleton.mp hd
    | wouldBlock | error =>
      rw [← Option.some.inj hto] at heot ⊢
      exact h heot
  | deliver i =>
    rw [toServerActs, run_singleton] at hto
    obtain ⟨e, he, hto⟩ := Option.map_eq_some_iff.mp hto
    rw [← hto] at heot ⊢
    intro d hd
    rcases List.mem_append.mp heot with heot | heot
    · exact h heot d (List.mem_of_mem_eraseIdx hd)
    · rw [← List.mem_singleton.mp heot] at he
      have hempty : ∀ d ∈ s.toServer.inFlight, d = [] := by simpa [overtakes, he] using hlast
      exact hempty d (List.mem_of_mem_eraseIdx hd)
  | loseToServer i =>
    rw [toServerActs, run_singleton] at hto
    obtain ⟨e, he, hto⟩ := Option.map_eq_some_iff.mp hto
    rw [← hto] at heot ⊢
    exact fun d hd => h heot d (List.mem_of_mem_eraseIdx hd)
  | eotPoll | interrupt | server | loseToClient =>
    rw [← Option.some.inj hto] at heot ⊢
    exact h heot

theorem heardAll_run (h₀ : l₀.sessionList.sessions = []) {ls : List UdpMultiLabel}
    (h : run (step mem) (init l₀ l₁) ls = some s)
    (hG : Meets (step mem) Faithful (init l₀ l₁) ls) : HeardAll s := by
  refine run_induction (P := fun ls s => Meets (step mem) Faithful (init l₀ l₁) ls → HeardAll s)
    (fun _ => by rintro ⟨⟩) ?_ h hG
  intro ls s l t hr hs ht hG
  obtain ⟨⟨as, has, -⟩, -⟩ := run_parts hr
  exact heardAll_step (inv_run h₀ hr) (fun d hd => Mailbox.mem_sent has hd) (hs hG.of_append)
    (hG.last hr).2 ht

theorem sum_size (ms : List UdpMsg) :
    (ms.map UdpMsg.size).sum = 8 * ms.length + (ms.map (·.len)).sum := by
  induction ms with
  | nil => rfl
  | cons m ms ih =>
    simp only [List.map_cons, List.sum_cons, List.length_cons, ih, UdpMsg.size, headerLen]
    push_cast
    omega

/-- **The server has heard everything when it answers.** In every run on a network that loses no data and
delivers the empty message last: once the server has acknowledged, its total for each session of the
client is eight bytes for each datagram the session has sent. If the session has returned 0, this differs
from what the session itself has counted by the payload, less the eight bytes of the final message; if all
four have, the server has four sessions. -/
theorem udp_multi_complete (mem : List UInt8) (l₀ l₁ : Listener) (hl : UdpSizes l₀)
    (h₀ : l₀.sessionList = ⟨-1, 0, [], 0⟩) (htotal : l₁.totalTxRx = 0) (ls : List UdpMultiLabel)
    (s : UdpMultiTransfer) (h : run (step mem) (init l₀ l₁) ls = some s)
    (hG : Meets (step mem) Faithful (init l₀ l₁) ls) (hacks : s.server.server.acks ≠ 0) :
    (∀ (k : Nat) (session : Session) (d : UdpConn), s.client.listener.session? k = some session →
      s.client.threads[k]? = some d →
      s.server.server.listener.sessionList.totals k =
          (if d.messages = [] then none else some (8 * (d.messages.length : Int))) ∧
        (d.pc = .returned 0 → s.server.server.listener.sessionList.totals k =
          some (session.totalBytes + 8 - (d.sentMsgs.map (·.len)).sum))) ∧
    ((∀ d ∈ s.client.threads, d.pc = .returned 0) →
      s.server.server.listener.sessionList.numSessions = 4) := by
  have hinv := accounts_run hl h₀ htotal h
  have hb := hl.bufsize_lt
  have hheard := heardAll_run (by rw [h₀]) h hG (hinv.received.eot (.inr (.inr hacks)))
  obtain ⟨⟨as, has, hmeets⟩, -⟩ := run_parts h
  have hperm : (UdpMServer.data s.toServer.received).Perm (UdpMServer.data s.toServer.sent) := by
    have hall := Mailbox.run_perm_filter has (hmeets (hG.mono fun _ _ hl => hl.1))
    have hnone : s.toServer.inFlight.filter (fun d => !d.isEmpty) = [] :=
      List.filter_eq_nil_iff.mpr fun d hd => by simp [hheard d hd]
    rw [List.filter_append, hnone, List.append_nil] at hall
    exact hall
  have htotals (k : Nat) (d : UdpConn) (hd : s.client.threads[k]? = some d) :
      s.server.server.listener.sessionList.totals k =
        if d.messages = [] then none else some (8 * (d.messages.length : Int)) := by
    rw [totals_received hinv.received, countId, hperm.countP_eq]
    have hcount := countId_sent hinv.sends hb hd
    rw [countId] at hcount
    simp only [hcount, List.length_eq_zero_iff]
  refine ⟨fun k session d hs hd => ⟨htotals k d hd, fun hpc => ?_⟩, fun hret => ?_⟩
  · have hconn := hinv.sends.conn k session d hs hd
    have hlen : d.messages.length = d.sentMsgs.length + 1 := by
      rw [UdpConn.messages, List.length_append, hconn.finished hpc]
    rw [htotals k d hd, if_neg (List.ne_nil_of_length_eq_add_one hlen), hconn.total, sum_size, hlen]
    congr 1
    push_cast
    omega
  · obtain ⟨hfour, -⟩ := returned_of_acks (inv_run (by rw [h₀]) h) hinv has hacks
    rw [hinv.received.demuxed.numSessions]
    have hids : ((List.range 4).map (Nat.cast : Nat → Int)).Perm
        ((UdpMServer.data s.toServer.received).map fun d => hdrId (d.take 8)).eraseDups := by
      refine (List.perm_ext_iff_of_nodup ?_ (nodup_eraseDups _)).mpr fun id => ?_
      · exact List.nodup_range.map fun _ _ h => Int.ofNat.inj h
      rw [List.mem_eraseDups, List.mem_map, List.mem_map]
      constructor
      · rintro ⟨k, hk, rfl⟩
        have hlt : k < s.client.threads.length := by
          rw [hfour]
          exact List.mem_range.mp hk
        have hd : s.client.threads[k]? = some s.client.threads[k] := List.getElem?_eq_getElem hlt
        obtain ⟨session, hs⟩ := session?_of_thread hinv.sends hd
        have hexit := (hinv.sends.conn k session _ hs hd).finished (hret _ (List.mem_of_getElem? hd))
        obtain ⟨m, hm⟩ := List.length_eq_one_iff.mp hexit
        have hmem : m ∈ s.client.threads[k].messages :=
          List.mem_append_right _ (by rw [hm]; exact List.mem_singleton_self m)
        have hwire := List.mem_map_of_mem (f := (·.wire mem)) hmem
        refine ⟨m.wire mem, hperm.symm.subset ?_, ?_⟩
        · refine hinv.sends.datagrams.symm.subset ?_
          exact List.mem_flatMap.mpr ⟨_, List.mem_of_getElem? hd, hwire⟩
        · rw [← UdpMServer.hdrCount_fst]
          exact keyed_messages hinv.sends hb k _ hd _ hwire
      · rintro ⟨e, he, rfl⟩
        obtain ⟨k, d, hd, hk⟩ := session_of_sent hinv.sends hb (hperm.subset he)
        have hlt := (List.getElem?_eq_some_iff.mp hd).1
        rw [hfour] at hlt
        exact ⟨k, List.mem_range.mpr hlt, by rw [← UdpMServer.hdrCount_fst, hk]⟩
    rw [← hids.length_eq]
    rfl

theorem udp_multi_complete_eight_bytes :
    ∃ s, eightByteRun = some s ∧ s.server.server.listener.totalTxRx = 0 ∧
      s.server.server.listener.sessionList.numSessions = 4 :=
  have hs : eightByteRun = some (eightByteRun.get eightByteRun_isSome) := (Option.some_get _).symm
  ⟨_, hs, by decide +kernel, (udp_multi_complete [1, 2, 3, 4, 5, 6, 7, 8] _
    (tbCreateListener .mServer .udp 4) eightByteSizes rfl rfl eightByteDatagrams _ hs
    (by decide +kernel) (by decide +kernel)).2 (by decide +kernel)⟩

end UdpMultiTransfer

end TestBed
