import TestBed.StreamTransfer

/-!
# The end of a transfer

Where nobody is interrupted and the network reports no end of the stream before its time, a server
returns only when it has the whole file (`transfer_complete`). Where moreover nothing fails, every run
has a bounded number of steps and can only stop when client and server have both returned
(`transfer_ends`): no combination of buffer sizes, room in the pipe and sizes of the pieces sent and
received makes the two wait for each other.
-/

namespace TestBed

open CInt Transition Slice

namespace StreamTransfer

/-- Nobody is interrupted, nothing is lost, and a broken connection is only reported at the end. An
interrupt that shuts nothing down passes `tb_stream_client` by. -/
def orderly (k : SKind) (s : StreamTransfer) : TransferLabel → Bool
  | .disturb _ | .shutdown => false
  | .server .interrupt => false
  | .client (.inr .interrupt) => k = .stream
  | .server (.recv (.error code)) =>
    (receiver k).onError s.server.listener.protId code ≠ .leave || s.pipe.atEnd
  | _ => true

def Orderly (k : SKind) (s : StreamTransfer) (l : TransferLabel) : Prop := orderly k s l = true

instance (k : SKind) (s : StreamTransfer) (l : TransferLabel) : Decidable (Orderly k s l) :=
  inferInstanceAs (Decidable (_ = true))

/-- The session is over. -/
def ReceiverPc.isOver : ReceiverPc → Bool
  | .closing | .test | .returned => true
  | _ => false

/-- The stream has not been ended before the client was done. -/
def Finished (s : StreamTransfer) : Prop :=
  s.pipe.ended = true → s.client.pc = .returned ∨ s.client.pc = .aborted

/-- What holds besides `Inv` in an orderly run. -/
structure Ordered (k : SKind) (s : StreamTransfer) : Prop where
  intact : s.pipe.got ++ s.pipe.inFlight = s.pipe.sent
  finished : Finished s
  clientGoesOn : k = .udt → s.client.listener.command.eLoop = false
  serverGoesOn : s.server.pc.serving = true ∨ s.conn ≠ .accepted →
    s.server.listener.command.eLoop = false
  listening : s.server.pc = .listen → s.conn ≠ .accepted
  returned : s.server.pc = .returned → s.conn = .accepted
  ended : s.conn = .accepted → ReceiverPc.isOver s.server.pc = true → s.pipe.atEnd = true
  ends : s.server.pc = .looping → (receiver k).goesOn s.server.session.lastTrans = false →
    s.pipe.atEnd = true

section Orderly

variable {k : SKind} {cap : Nat} {mem : List UInt8} {l₀ l₁ : Listener} {s t : StreamTransfer}
  {l : TransferLabel}

theorem Orderly.undisturbed (h : Orderly k s l) : Undisturbed s l := by
  cases l with
  | disturb xs => exact absurd h Bool.false_ne_true
  | _ => trivial

/-- Every step of an orderly run leaves the pipe intact and at its end, if it is there. -/
theorem pipe_step (hG : Orderly k s l) (ht : step k cap mem s l = some t) :
    (s.pipe.got ++ s.pipe.inFlight = s.pipe.sent →
      t.pipe.got ++ t.pipe.inFlight = t.pipe.sent) ∧
      (s.pipe.atEnd = true → t.pipe.atEnd = true) := by
  obtain ⟨-, -, -, -, hpipe⟩ := step_eq_some_iff.mp ht
  have hacts := pipeActs_undisturbed mem hG.undisturbed
  have hmeets : Meets (Pipe.step cap) Pipe.Undisturbed s.pipe (s.pipeActs mem l) :=
    meets_of_forall hacts
  constructor <;> intro hp
  · exact run_invariant_of_meets (I := fun p => p.got ++ p.inFlight = p.sent) hp
      (fun _ _ _ hp ha hq => Pipe.intact_step hp ha hq) hmeets hpipe
  · exact run_invariant_of_meets (I := fun p => p.atEnd = true) hp
      (fun _ _ _ hp ha hq => Pipe.atEnd_step hp ha hq) hmeets hpipe

theorem Finished.open (h : Finished s) (hgoes : s.client.pc = .connect ∨ s.client.pc = .sending) :
    s.pipe.ended = false := by
  by_contra hend
  rcases h (by simpa using hend) with hdone | hdone <;> rw [hdone] at hgoes <;>
    rcases hgoes with hgoes | hgoes <;> cases hgoes

/-- Only the client, and the closing of its socket, end the stream of an orderly run. -/
theorem finished_step (hl : Sizes l₀) (hinv : ClientInv k l₀ s.client) (h : Finished s)
    (hG : Orderly k s l) (ht : step k cap mem s l = some t) : Finished t := by
  obtain ⟨hallowed, hclient, -, -, hpipe⟩ := step_eq_some_iff.mp ht
  intro hend
  cases l with
  | client l =>
    cases clientStep_moves hl hinv hclient with
    | @connects ok hpc =>
      have hpipe : t.pipe = s.pipe := by cases ok <;> exact (Option.some.inj hpipe).symm
      rw [hpipe, h.open (.inl hpc)] at hend
      cases hend
    | sends hpc =>
      have hsame : t.pipe.ended = s.pipe.ended := by
        rcases pipe_of_send hpipe with ⟨-, hq⟩ | ⟨-, hwrite⟩
        · rw [hq]
        · rw [(Pipe.write_eq_some hwrite).2]
      rw [hsame, h.open (.inr hpc)] at hend
      cases hend
    | finishes hpc =>
      rw [← Option.some.inj hpipe, h.open (.inr hpc)] at hend
      cases hend
    | closes hpc hpc' => exact .inl hpc'
    | interrupted hpc | ticked hpc =>
      rw [← Option.some.inj hpipe] at hend
      rw [hpc]
      exact h hend
  | server l =>
    rw [← Option.some.inj hclient]
    refine h ?_
    cases l with
    | recv r =>
      cases r with
      | count n =>
        rw [(Pipe.read_eq_some (pipe_of_recv hpipe)).2] at hend
        exact hend
      | error code =>
        rw [← Option.some.inj hpipe] at hend
        exact hend
    | _ =>
      rw [← Option.some.inj hpipe] at hend
      exact hend
  | hangup =>
    rw [← Option.some.inj hclient]
    exact .inr (of_decide_eq_true hallowed)
  | shutdown | disturb xs => exact absurd hG Bool.false_ne_true

/-- A step that is not the server's. -/
theorem Ordered.of_sameServer (h : Ordered k s) (hG : Orderly k s l)
    (ht : step k cap mem s l = some t) (hfinished : Finished t) (hserver : t.server = s.server)
    (hconn : t.conn = .accepted ↔ s.conn = .accepted)
    (hcmd : k = .udt → t.client.listener.command = s.client.listener.command) : Ordered k t := by
  obtain ⟨hintact, hend⟩ := pipe_step hG ht
  constructor
  · exact hintact h.intact
  · exact hfinished
  · intro hk
    rw [hcmd hk]
    exact h.clientGoesOn hk
  · rw [hserver, ne_eq, hconn]
    exact h.serverGoesOn
  · rw [hserver, ne_eq, hconn]
    exact h.listening
  · rw [hserver, hconn]
    exact h.returned
  · rw [hserver, hconn]
    exact fun hacc hover => hend (h.ended hacc hover)
  · rw [hserver]
    exact fun hpc hlast => hend (h.ends hpc hlast)

theorem Ordered.client_step (hl : Sizes l₀) (hinv : Inv k mem l₀ l₁ s) (h : Ordered k s)
    {l : CLabel ⊕ ClientEnv} (hG : Orderly k s (.client l))
    (ht : step k cap mem s (.client l) = some t) : Ordered k t := by
  obtain ⟨hallowed, hclient, hserver, hconn, -⟩ := step_eq_some_iff.mp ht
  replace hserver : t.server = s.server := (Option.some.inj hserver).symm
  have hfinished := finished_step hl hinv.client h.finished hG ht
  cases clientStep_moves hl hinv.client hclient with
  | @connects ok _ _ _ _ hcmd =>
    refine h.of_sameServer hG ht hfinished hserver ?_ fun _ => hcmd
    cases ok
    · rw [hconn]
      rfl
    · simp only [allowed, Bool.and_eq_true, decide_eq_true_eq] at hallowed
      rw [hconn, hallowed.1]
      simp [connAfter]
  | sends _ _ _ _ hcmd | finishes _ _ _ hcmd | closes _ _ _ hcmd | ticked _ _ _ hcmd =>
    exact h.of_sameServer hG ht hfinished hserver (by rw [hconn]; rfl) fun _ => hcmd
  | interrupted =>
    refine h.of_sameServer hG ht hfinished hserver (by rw [hconn]; rfl) fun hk => ?_
    have hstream : k = .stream := of_decide_eq_true hG
    rw [hstream] at hk
    cases hk

/-- The inner loop of `tb_stream_server` ends after a receive of nothing, that of `tb_udt_server`
does not look at the result. -/
theorem goesOn_eq_false {lastTrans : Int} (h : (receiver k).goesOn lastTrans = false) :
    k = .stream ∧ lastTrans = 0 := by
  cases k with
  | stream => exact ⟨rfl, by simpa [receiver, tbStreamServer] using h⟩
  | udt => cases h

theorem Ordered.server_step (hl : Sizes l₀) (hinv : Inv k mem l₀ l₁ s) (h : Ordered k s) {l : RLabel}
    (hG : Orderly k s (.server l)) (ht : step k cap mem s (.server l) = some t) : Ordered k t := by
  obtain ⟨hallowed, hclient, hserver, hconn, hpipe⟩ := step_eq_some_iff.mp ht
  obtain ⟨hintact, hend⟩ := pipe_step hG ht
  have hfinished := finished_step hl hinv.client h.finished hG ht
  replace hclient : t.client = s.client := (Option.some.inj hclient).symm
  have hserving (hpc : s.server.pc.serving = true) := hinv.serving hpc
  have hclientGoesOn : k = .udt → t.client.listener.command.eLoop = false := by
    rw [hclient]
    exact h.clientGoesOn
  generalize hr : t.server = r at hserver
  cases receiver_step_moves hserver with
  | listens hpc | listenFails hpc =>
    have hnot : t.conn ≠ .accepted := by
      rw [hconn]
      exact h.listening hpc
    refine ⟨hintact h.intact, hfinished, hclientGoesOn, fun _ => ?_, fun _ => hnot, ?_,
      fun hacc => absurd hacc hnot, ?_⟩ <;> rw [hr]
    · exact h.serverGoesOn (.inr (h.listening hpc))
    · rintro ⟨⟩
    · rintro ⟨⟩
  | leaves hpc hcmd =>
    have hacc : s.conn = .accepted := by
      by_contra hne
      rw [h.serverGoesOn (.inr hne)] at hcmd
      cases hcmd
    have hacc' : t.conn = .accepted := hconn.trans hacc
    refine ⟨hintact h.intact, hfinished, hclientGoesOn, ?_, ?_, fun _ => hacc',
      fun _ _ => hend (h.ended hacc (by rw [hpc]; rfl)), ?_⟩ <;> rw [hr]
    · rintro (hpc' | hne)
      · cases hpc'
      · exact absurd hacc' hne
    · rintro ⟨⟩
    · rintro ⟨⟩
  | acceptFails hpc l htotal hcmd =>
    have hconn : t.conn = s.conn := hconn
    refine ⟨hintact h.intact, hfinished, hclientGoesOn, ?_, ?_, ?_, ?_, ?_⟩ <;> rw [hr]
    · rintro (hpc' | hne)
      · cases hpc'
      · rw [hconn] at hne
        exact (congrArg Command.eLoop hcmd.1).trans (h.serverGoesOn (.inr hne))
    · rintro ⟨⟩
    · rintro ⟨⟩
    · rintro _ ⟨⟩
    · rintro ⟨⟩
  | @accepts sockD hpc hcmd hsock =>
    have hacc : t.conn = .accepted := by
      rw [hconn]
      simp [connAfter, hsock]
    refine ⟨hintact h.intact, hfinished, hclientGoesOn, ?_, ?_, ?_, ?_, ?_⟩ <;> rw [hr]
    · exact fun _ => hcmd
    · cases k <;> rintro ⟨⟩
    · cases k <;> rintro ⟨⟩
    · cases k <;> rintro _ ⟨⟩
    · intro hpc'
      cases k <;> cases hpc'
      rintro ⟨⟩
  | @receives n hpc hn =>
    have hacc := hserving (by rw [hpc]; rfl)
    have hcmd := h.serverGoesOn (.inl (by rw [hpc]; rfl))
    refine ⟨hintact h.intact, hfinished, hclientGoesOn, ?_, ?_, ?_, ?_, ?_⟩ <;> rw [hr]
    · exact fun _ => hcmd
    · rintro ⟨⟩
    · rintro ⟨⟩
    · rintro _ ⟨⟩
    · intro _ hlast
      -- nothing is received only at the end
      obtain ⟨-, hzero⟩ := goesOn_eq_false hlast
      obtain rfl : n = 0 := by simpa [ReceiverProg.addTrans] using hzero
      exact hend hallowed
  | recvAborts hpc =>
    have hcmd := h.serverGoesOn (.inl (by rw [hpc]; rfl))
    refine ⟨hintact h.intact, hfinished, hclientGoesOn, ?_, ?_, ?_, ?_, ?_⟩ <;> rw [hr]
    · exact fun _ => hcmd
    · rintro ⟨⟩
    · rintro ⟨⟩
    · rintro _ ⟨⟩
    · rintro ⟨⟩
  | recvLeaves hpc herr =>
    have hcmd := h.serverGoesOn (.inl (by rw [hpc]; rfl))
    have hatEnd : s.pipe.atEnd = true := by simpa [Orderly, orderly, herr] using hG
    refine ⟨hintact h.intact, hfinished, hclientGoesOn, ?_, ?_, ?_, fun _ _ => hend hatEnd, ?_⟩ <;> rw [hr]
    · exact fun _ => hcmd
    · rintro ⟨⟩
    · rintro ⟨⟩
    · rintro ⟨⟩
  | recvCounted hpc =>
    have hcmd := h.serverGoesOn (.inl (by rw [hpc]; rfl))
    refine ⟨hintact h.intact, hfinished, hclientGoesOn, ?_, ?_, ?_, ?_, ?_⟩ <;> rw [hr]
    · exact fun _ => hcmd
    · rintro ⟨⟩
    · rintro ⟨⟩
    · rintro _ ⟨⟩
    · intro _ hlast
      obtain ⟨-, hzero⟩ := goesOn_eq_false hlast
      cases hzero
  | goesOn hpc hlast hcmd =>
    refine ⟨hintact h.intact, hfinished, hclientGoesOn, ?_, ?_, ?_, ?_, ?_⟩ <;> rw [hr]
    · exact fun _ => hcmd
    · rintro ⟨⟩
    · rintro ⟨⟩
    · rintro _ ⟨⟩
    · rintro ⟨⟩
  | ends hpc hlast =>
    have hcmd := h.serverGoesOn (.inl (by rw [hpc]; rfl))
    have hatEnd : s.pipe.atEnd = true := by
      refine h.ends hpc (hlast.resolve_right fun hexit => ?_)
      rw [hcmd] at hexit
      cases hexit
    refine ⟨hintact h.intact, hfinished, hclientGoesOn, ?_, ?_, ?_, fun _ _ => hend hatEnd, ?_⟩ <;> rw [hr]
    · exact fun _ => hcmd
    · rintro ⟨⟩
    · rintro ⟨⟩
    · rintro ⟨⟩
  | closes hpc =>
    have hacc : s.conn = .accepted := hserving (by rw [hpc]; rfl)
    have hacc' : t.conn = .accepted := hconn.trans hacc
    refine ⟨hintact h.intact, hfinished, hclientGoesOn, ?_, ?_, fun _ => hacc',
      fun _ _ => hend (h.ended hacc (by rw [hpc]; rfl)), ?_⟩ <;> rw [hr]
    · rintro (hpc' | hne)
      · cases hpc'
      · exact absurd hacc' hne
    · rintro ⟨⟩
    · rintro ⟨⟩
  | interrupted => exact absurd hG Bool.false_ne_true
  | ticked =>
    have hconn : t.conn = s.conn := hconn
    refine ⟨hintact h.intact, hfinished, hclientGoesOn, ?_, ?_, ?_, ?_, ?_⟩ <;> rw [hr]
    · rw [hconn]
      exact h.serverGoesOn
    · rw [hconn]
      exact h.listening
    · rw [hconn]
      exact h.returned
    · rw [hconn]
      exact fun hacc hover => hend (h.ended hacc hover)
    · exact fun hpc hlast => hend (h.ends hpc hlast)

theorem ordered_step (hl : Sizes l₀) (hinv : Inv k mem l₀ l₁ s) (h : Ordered k s)
    (hG : Orderly k s l) (ht : step k cap mem s l = some t) : Ordered k t := by
  cases l with
  | client l => exact h.client_step hl hinv hG ht
  | server l => exact h.server_step hl hinv hG ht
  | hangup =>
    obtain ⟨-, hclient, hserver, hconn, -⟩ := step_eq_some_iff.mp ht
    refine h.of_sameServer hG ht (finished_step hl hinv.client h.finished hG ht)
      (Option.some.inj hserver).symm (by rw [hconn]; rfl) fun _ => ?_
    rw [← Option.some.inj hclient]
  | shutdown | disturb xs => exact absurd hG Bool.false_ne_true

theorem ordered_init (h₀ : l₀.command.eLoop = false) (h₁ : l₁.command.eLoop = false) :
    Ordered k (init l₀ l₁) :=
  ⟨rfl, nofun, fun _ => h₀, fun _ => h₁, fun _ => nofun, nofun, nofun, nofun⟩

end Orderly

/-- The two listeners that a transfer starts with. -/
structure Ready (mem : List UInt8) (l₀ l₁ : Listener) : Prop where
  sizes : Sizes l₀
  loaded : l₀.fileSize ≤ mem.length
  clientTotal : l₀.totalTxRx = 0
  serverTotal : l₁.totalTxRx = 0
  clientCommand : l₀.command.eLoop = false
  serverCommand : l₁.command.eLoop = false

/-- The whole file has been counted on both sides and is what the server has received; the failures
that `tb_stream_server` has counted are missing from its total. -/
structure Complete (k : SKind) (mem : List UInt8) (l₀ l₁ : Listener) (s : StreamTransfer) :
    Prop where
  client : s.client.listener.totalTxRx = l₀.fileSize
  got : s.pipe.got = slice mem 0 l₀.fileSize.toNat
  server : s.server.listener.totalTxRx +
    (receiver k).ignored l₁.protId s.server.results = l₀.fileSize

section Complete

variable {k : SKind} {cap : Nat} {mem : List UInt8} {l₀ l₁ : Listener} {s : StreamTransfer}
  {ls : List TransferLabel}

theorem ordered_run (hready : Ready mem l₀ l₁)
    (h : run (step k cap mem) (init l₀ l₁) ls = some s)
    (hG : Meets (step k cap mem) (Orderly k) (init l₀ l₁) ls) :
    Inv k mem l₀ l₁ s ∧ Ordered k s := by
  refine run_invariant_of_meets (I := fun s => Inv k mem l₀ l₁ s ∧ Ordered k s) ⟨?_, ?_⟩ ?_ hG h
  · exact inv_init hready.sizes hready.clientTotal hready.serverTotal
  · exact ordered_init hready.clientCommand hready.serverCommand
  · intro s l t ⟨hinv, hord⟩ hl ht
    exact ⟨inv_step hready.sizes hinv ht, ordered_step hready.sizes hinv hord hl ht⟩

/-- At the end of the stream of a client that has returned the transfer is complete. -/
theorem Ordered.complete (hready : Ready mem l₀ l₁) (hinv : Inv k mem l₀ l₁ s)
    (h : Ordered k s) (hclient : s.client.pc = .returned) (hend : s.pipe.atEnd = true)
    (halive : s.server.pc ≠ .aborted) : Complete k mem l₀ l₁ s := by
  have htotal : s.client.listener.totalTxRx = l₀.fileSize := by
    refine hinv.client.complete (by rw [hclient]; rfl) fun ⟨hk, hcmd⟩ => ?_
    rw [h.clientGoesOn hk] at hcmd
    cases hcmd
  have hgot : s.pipe.got = slice mem 0 l₀.fileSize.toNat := by
    rw [Pipe.got_eq_sent h.intact hend, hinv.sent, htotal]
  refine ⟨htotal, hgot, ?_⟩
  have hlen : s.pipe.got.length = l₀.fileSize.toNat := by
    have hloaded := hready.loaded
    rw [hgot, slice_length (by omega)]
  have hcount := hinv.server.listener halive
  have hbytes := hinv.got
  have hpos := hready.sizes.fileSize_nonneg
  have hbefore := hinv.before
  omega

/-- **A server that returns has the file.** In a run without interrupts on a network that loses
nothing and ends the stream only at its end, the server returns only after an aborted client, or when
client and server have both counted the whole file and the server has received its bytes in order. -/
theorem transfer_complete (k : SKind) (cap : Nat) (mem : List UInt8) (l₀ l₁ : Listener)
    (hready : Ready mem l₀ l₁) (ls : List TransferLabel) (s : StreamTransfer)
    (h : run (step k cap mem) (init l₀ l₁) ls = some s)
    (hG : Meets (step k cap mem) (Orderly k) (init l₀ l₁) ls) (hret : s.server.pc = .returned) :
    s.client.pc = .aborted ∨ s.client.pc = .returned ∧ Complete k mem l₀ l₁ s := by
  obtain ⟨hinv, hord⟩ := ordered_run hready h hG
  have hend := hord.ended (hord.returned hret) (by rw [hret]; rfl)
  rcases hord.finished (Pipe.atEnd_iff.mp hend).1 with hclient | hclient
  · exact .inr ⟨hclient, hord.complete hready hinv hclient hend (by rw [hret]; rintro ⟨⟩)⟩
  · exact .inl hclient

/-- Three bytes over UDT, sent in two pieces and received in one. -/
def udtLabels : List TransferLabel :=
  [.server (.listen true), .client (.inl (.connect true)), .client (.inl (.send 2 0)),
    .server (.accept 5), .server .loop, .client (.inl (.send 1 0)), .client (.inl .finish),
    .client (.inl .close), .server (.recv (.count 3)), .server .loop,
    .server (.recv (.error 2001)), .server .close, .server .test]

theorem transfer_complete_three_bytes :
    let l₀ := { tbCreateListener .client .udt 4 with fileSize := 3 }
    ∃ s, run (step .udt 8 [1, 2, 3]) (init l₀ (tbCreateListener .server .udt 4)) udtLabels =
        some s ∧
      (s.client.pc = .aborted ∨ s.client.pc = .returned ∧
        Complete .udt [1, 2, 3] l₀ (tbCreateListener .server .udt 4) s) ∧
      s.pipe.got = [1, 2, 3] :=
  ⟨_, rfl, transfer_complete .udt 8 [1, 2, 3]
    { tbCreateListener .client .udt 4 with fileSize := 3 } (tbCreateListener .server .udt 4)
    ⟨⟨by decide, by decide, by decide, by decide⟩, by decide, rfl, rfl, rfl, rfl⟩ udtLabels _ rfl
    (by decide) rfl, rfl⟩

end Complete

/-! ## Every run ends -/

/-- The outcome is no failure, and at least a byte is moved where one is to be moved: a receive of
nothing is the end of the stream over TCP, an error the end of a UDT connection. -/
def succeeds (k : SKind) (s : StreamTransfer) : TransferLabel → Bool
  | .client (.inl (.connect ok)) => ok
  | .client (.inl (.send rc _)) => 0 < rc
  | .server (.listen ok) => ok
  | .server (.accept sockD) => sockD ≠ -1
  | .server (.recv (.count n)) => 0 < n || k = .stream
  | .server (.recv (.error code)) => (receiver k).onError s.server.listener.protId code = .leave
  | _ => true

def Fair (k : SKind) (s : StreamTransfer) (l : TransferLabel) : Prop :=
  Orderly k s l ∧ succeeds k s l = true

instance (k : SKind) (s : StreamTransfer) (l : TransferLabel) : Decidable (Fair k s l) :=
  inferInstanceAs (Decidable (_ ∧ _))

/-- The steps of client and server themselves. -/
def isOwn : TransferLabel → Bool
  | .client (.inl _) => true
  | .server (.tick _) => false
  | .server .interrupt => false
  | .server _ => true
  | _ => false

def clientLeft : StreamClientPc → Nat
  | .connect => 3
  | .sending => 2
  | .closing => 1
  | .returned | .aborted => 0

def serverLeft (k : SKind) (r : Receiver) (conn : Backlog) : Nat :=
  match r.pc with
  | .listen => 7
  | .test => if conn = .accepted then 1 else 6
  | .looping => if (receiver k).goesOn r.session.lastTrans then 5 else 3
  | .receiving => 4
  | .closing => 2
  | .returned | .aborted => 0

/-- What is left to do: three steps for a byte to be sent (its `send`, its `recv` and the test of the
server's loop) and two for one in flight. -/
def left (k : SKind) (l₀ : Listener) (s : StreamTransfer) : Nat :=
  clientLeft s.client.pc + serverLeft k s.server s.conn +
    3 * (l₀.fileSize - s.client.listener.totalTxRx).toNat + 2 * s.pipe.inFlight.length

/-- What holds besides in a fair run. -/
structure Lively (l₀ l₁ : Listener) (s : StreamTransfer) : Prop where
  client : s.client.pc ≠ .aborted
  server : s.server.pc ≠ .aborted
  sz : s.client.pc = .sending → 0 < s.client.sz
  connecting : s.client.pc = .connect ↔ s.conn = .none
  closed : s.client.pc = .returned → s.pipe.ended = true
  txEnd : s.server.listener.sTxEnd = l₁.sTxEnd
  bufsize : s.server.listener.bufsize = l₁.bufsize
  dataSize : s.server.pc.serving = true → s.server.session.dataSize = asSizeT l₁.bufsize
  exits : s.server.pc = .test → s.conn = .accepted → s.server.listener.command = l₁.sTxEnd

section Ends

variable {k : SKind} {cap : Nat} {mem : List UInt8} {l₀ l₁ : Listener} {s t : StreamTransfer}

/-- The request of a fair send is positive. -/
theorem nextSz_pos (hl : Sizes l₀) (hinv : ClientInv k l₀ s.client) (hlive : Lively l₀ l₁ s)
    (hpc : s.client.pc = .sending)
    (hless : s.client.listener.totalTxRx < s.client.listener.fileSize) :
    0 < s.client.nextSz := by
  have hsz := hlive.sz hpc
  have htotal := hinv.total_nonneg
  have hlt := hl.fileSize_lt
  rw [hinv.fileSize] at hless
  simp only [StreamClient.nextSz]
  rw [hinv.fileSize, hinv.bufsize, asInt_eq (by omega) (by omega)]
  split <;> omega

theorem serverLeft_congr (hserver : t.server = s.server)
    (hconn : t.conn = .accepted ↔ s.conn = .accepted) :
    serverLeft k t.server t.conn = serverLeft k s.server s.conn := by
  simp only [serverLeft, hserver, hconn]

theorem Lively.of_sameServer (h : Lively l₀ l₁ s) (hserver : t.server = s.server)
    (hconn : t.conn = .accepted ↔ s.conn = .accepted) (hclient : t.client.pc ≠ .aborted)
    (hsz : t.client.pc = .sending → 0 < t.client.sz)
    (hconnecting : t.client.pc = .connect ↔ t.conn = .none)
    (hclosed : t.client.pc = .returned → t.pipe.ended = true) : Lively l₀ l₁ t := by
  refine ⟨hclient, ?_, hsz, hconnecting, hclosed, ?_, ?_, ?_, ?_⟩ <;> rw [hserver]
  · exact h.server
  · exact h.txEnd
  · exact h.bufsize
  · exact h.dataSize
  · rw [hconn]
    exact h.exits

/-- A fair step of the client does something of what is left. -/
theorem Lively.client_step (hready : Ready mem l₀ l₁) (hbuf : 0 < l₀.bufsize)
    (hinv : Inv k mem l₀ l₁ s) (h : Lively l₀ l₁ s) {l : CLabel ⊕ ClientEnv}
    (hG : Fair k s (.client l)) (ht : step k cap mem s (.client l) = some t) :
    Lively l₀ l₁ t ∧ left k l₀ t + (if isOwn (.client l) then 1 else 0) ≤ left k l₀ s := by
  have hl := hready.sizes
  obtain ⟨hallowed, hclient, hserver, hconn, hpipe⟩ := step_eq_some_iff.mp ht
  replace hserver : t.server = s.server := (Option.some.inj hserver).symm
  cases clientStep_moves hl hinv.client hclient with
  | @connects ok hpc hpc' hsz htotal =>
    obtain rfl : ok = true := hG.2
    replace hpipe : t.pipe = s.pipe := (Option.some.inj hpipe).symm
    replace hpc' : t.client.pc = .sending := hpc'
    replace hconn : t.conn = .pending := hconn
    have hnone : s.conn = .none := h.connecting.mp hpc
    have hsame : t.conn = .accepted ↔ s.conn = .accepted := by simp [hconn, hnone]
    refine ⟨h.of_sameServer hserver hsame ?_ (fun _ => ?_) ?_ ?_, ?_⟩
    · rw [hpc']
      rintro ⟨⟩
    · rw [hsz rfl, hinv.client.bufsize]
      exact hbuf
    · simp [hpc', hconn]
    · rw [hpc']
      rintro ⟨⟩
    · simp only [left, serverLeft_congr hserver hsame, hpipe, htotal, hpc, hpc', clientLeft, isOwn,
        if_true]
      omega
  | @sends rc errNo hpc hless hcall hrc =>
    have hrc' : 0 < rc := of_decide_eq_true hG.2
    have hnext := nextSz_pos hl hinv.client h hpc hless
    have htotal := hcall.total
    have hworks : rc ≠ -1 := by omega
    obtain ⟨-, hwrite⟩ := (pipe_of_send hpipe).resolve_left fun hfail => hworks hfail.1
    obtain ⟨-, hq⟩ := Pipe.write_eq_some hwrite
    replace hconn : t.conn = s.conn := hconn
    replace hrc : t.client.pc = .sending := hrc hworks
    have hsame : t.conn = .accepted ↔ s.conn = .accepted := by rw [hconn]
    have hlen : t.pipe.inFlight.length ≤ s.pipe.inFlight.length + rc.toNat := by
      rw [hq, List.length_append]
      exact Nat.add_le_add_left (List.length_take_le _ _) _
    refine ⟨h.of_sameServer hserver hsame ?_ (fun _ => ?_) ?_ ?_, ?_⟩
    · rw [hrc]
      rintro ⟨⟩
    · rw [hcall.sz]
      exact hnext
    · rw [hconn, ← h.connecting, hpc, hrc]
    · rw [hrc]
      rintro ⟨⟩
    · have hle := (hinv.client.called hl hclient).2.1
      have hbounds := hinv.client.nextSz_bounds hl hpc
      simp only [left, serverLeft_congr hserver hsame, hpc, hrc, isOwn, if_true]
      omega
  | finishes hpc hpc' htotal =>
    replace hpipe : t.pipe = s.pipe := (Option.some.inj hpipe).symm
    replace hconn : t.conn = s.conn := hconn
    have hsame : t.conn = .accepted ↔ s.conn = .accepted := by rw [hconn]
    refine ⟨h.of_sameServer hserver hsame ?_ ?_ ?_ ?_, ?_⟩
    · rw [hpc']
      rintro ⟨⟩
    · rw [hpc']
      rintro ⟨⟩
    · rw [hconn, ← h.connecting, hpc, hpc']
      simp
    · rw [hpc']
      rintro ⟨⟩
    · simp only [left, serverLeft_congr hserver hsame, hpipe, htotal, hpc, hpc', clientLeft, isOwn,
        if_true]
      omega
  | closes hpc hpc' htotal =>
    replace hpipe : t.pipe = { s.pipe with ended := true } := (Option.some.inj hpipe).symm
    replace hconn : t.conn = s.conn := hconn
    have hsame : t.conn = .accepted ↔ s.conn = .accepted := by rw [hconn]
    refine ⟨h.of_sameServer hserver hsame ?_ ?_ ?_ fun _ => by rw [hpipe], ?_⟩
    · rw [hpc']
      rintro ⟨⟩
    · rw [hpc']
      rintro ⟨⟩
    · rw [hconn, ← h.connecting, hpc, hpc']
      simp
    · simp only [left, serverLeft_congr hserver hsame, hpipe, htotal, hpc, hpc', clientLeft, isOwn,
        if_true]
      omega
  | interrupted hpc hsz htotal | ticked hpc hsz htotal =>
    replace hpipe : t.pipe = s.pipe := (Option.some.inj hpipe).symm
    replace hconn : t.conn = s.conn := hconn
    have hsame : t.conn = .accepted ↔ s.conn = .accepted := by rw [hconn]
    refine ⟨h.of_sameServer hserver hsame ?_ ?_ ?_ ?_, ?_⟩
    · rw [hpc]
      exact h.client
    · rw [hpc, hsz]
      exact h.sz
    · rw [hpc, hconn]
      exact h.connecting
    · rw [hpc, hpipe]
      exact h.closed
    · simp only [left, serverLeft_congr hserver hsame, hpipe, htotal, hpc, isOwn,
        Bool.false_eq_true, if_false]
      omega

/-- A step of the server that leaves no more to do. -/
structure Serves (k : SKind) (n : Nat) (l₁ : Listener) (s t : StreamTransfer) : Prop where
  alive : t.server.pc ≠ .aborted
  txEnd : t.server.listener.sTxEnd = s.server.listener.sTxEnd
  bufsize : t.server.listener.bufsize = s.server.listener.bufsize
  dataSize : t.server.pc.serving = true → t.server.session.dataSize = asSizeT l₁.bufsize
  exits : t.server.pc = .test → t.conn = .accepted → t.server.listener.command = l₁.sTxEnd
  left : serverLeft k t.server t.conn + 2 * t.pipe.inFlight.length + n ≤
    serverLeft k s.server s.conn + 2 * s.pipe.inFlight.length

theorem Lively.of_serves {n : Nat} (h : Lively l₀ l₁ s) (ht : Serves k n l₁ s t)
    (hclient : t.client = s.client) (hconn : t.conn = .none ↔ s.conn = .none)
    (hended : t.pipe.ended = s.pipe.ended) : Lively l₀ l₁ t ∧ left k l₀ t + n ≤ left k l₀ s := by
  have hleft := ht.left
  constructor
  · refine ⟨?_, ht.alive, ?_, ?_, ?_, ht.txEnd.trans h.txEnd, ht.bufsize.trans h.bufsize,
      ht.dataSize, ht.exits⟩ <;> rw [hclient]
    · exact h.client
    · exact h.sz
    · rw [hconn]
      exact h.connecting
    · rw [hended]
      exact h.closed
  · simp only [StreamTransfer.left, hclient]
    omega

/-- A fair step of the server does something of what is left. -/
theorem Lively.server_step (hinv : Inv k mem l₀ l₁ s) (hord : Ordered k s) (h : Lively l₀ l₁ s)
    {l : RLabel} (hG : Fair k s (.server l)) (ht : step k cap mem s (.server l) = some t) :
    Lively l₀ l₁ t ∧ left k l₀ t + (if isOwn (.server l) then 1 else 0) ≤ left k l₀ s := by
  obtain ⟨hallowed, hclient, hserver, hconn, hpipe⟩ := step_eq_some_iff.mp ht
  replace hclient : t.client = s.client := (Option.some.inj hclient).symm
  have hdata := h.dataSize
  generalize hr : t.server = r at hserver
  -- what the steps have in common that neither accept nor receive
  have still (hpipe : t.pipe = s.pipe) (hconn : t.conn = s.conn)
      (hserves : Serves k (if isOwn (.server l) then 1 else 0) l₁ s
        ⟨s.client, r, s.conn, s.pipe⟩) :
      Lively l₀ l₁ t ∧ left k l₀ t + (if isOwn (.server l) then 1 else 0) ≤ left k l₀ s := by
    obtain ⟨client, server, conn, pipe⟩ := t
    subst hr hconn hpipe hclient
    exact h.of_serves hserves rfl Iff.rfl rfl
  cases receiver_step_moves hserver with
  | listens hpc =>
    have hnot := hord.listening hpc
    refine still (Option.some.inj hpipe).symm hconn ⟨by rintro ⟨⟩, rfl, rfl, by rintro ⟨⟩, ?_, ?_⟩
    · exact fun _ hacc => absurd hacc hnot
    · simp only [serverLeft, hpc, hnot, isOwn, if_true, if_false]
      omega
  | listenFails hpc => exact absurd hG.2 Bool.false_ne_true
  | leaves hpc hcmd =>
    have hacc : s.conn = .accepted := by
      by_contra hne
      rw [hord.serverGoesOn (.inr hne)] at hcmd
      cases hcmd
    refine still (Option.some.inj hpipe).symm hconn ⟨by rintro ⟨⟩, rfl, rfl, by rintro ⟨⟩, by rintro ⟨⟩, ?_⟩
    simp only [serverLeft, hpc, hacc, isOwn, if_true]
    omega
  | acceptFails hpc l htotal hcmd => exact absurd hG.2 Bool.false_ne_true
  | @accepts sockD hpc hcmd hsock =>
    have hpending : s.conn = .pending := by
      simpa [allowed, hsock] using hallowed
    have hacc : t.conn = .accepted := by
      rw [hconn]
      simp [connAfter, hsock]
    replace hpipe : t.pipe = s.pipe := (Option.some.inj hpipe).symm
    refine h.of_serves ⟨?_, ?_, ?_, ?_, ?_, ?_⟩ hclient (by simp [hacc, hpending]) (by rw [hpipe])
      <;> rw [hr]
    · cases k <;> rintro ⟨⟩
    · exact fun _ => congrArg asSizeT h.bufsize
    · cases k <;> rintro ⟨⟩
    · rw [hpipe, hacc, hpending]
      cases k with
      | stream =>
        simp only [serverLeft, hpc, receiver, tbStreamServer, isOwn, Bool.false_eq_true, reduceCtorEq,
          if_true, if_false]
        omega
      | udt =>
        simp only [serverLeft, hpc, receiver, tbUdtServer, isOwn, reduceCtorEq, if_true, if_false]
        omega
  | @receives n hpc hn =>
    obtain ⟨hn', hq⟩ := Pipe.read_eq_some (pipe_of_recv hpipe)
    replace hconn : t.conn = s.conn := hconn
    refine h.of_serves ⟨?_, ?_, ?_, ?_, ?_, ?_⟩ hclient (by rw [hconn]) (by rw [hq]) <;> rw [hr]
    · rintro ⟨⟩
    · rfl
    · rfl
    · exact fun _ => hdata (by rw [hpc]; rfl)
    · rintro ⟨⟩
    · have hfair : 0 < n ∨ k = .stream := by simpa [succeeds] using hG.2
      have hlen : t.pipe.inFlight.length = s.pipe.inFlight.length - n := by
        rw [hq, List.length_drop]
      rw [hlen]
      by_cases hzero : n = 0
      · obtain rfl := hfair.resolve_left (by omega)
        have hstops : (receiver .stream).goesOn ((n : Nat) : Int) = false := by rw [hzero]; rfl
        simp only [serverLeft, hpc, hstops, ReceiverProg.addTrans, isOwn, Bool.false_eq_true, if_true,
          if_false]
        omega
      · have hon : serverLeft k t.server t.conn ≤ 5 := by
          rw [hr]
          dsimp only [serverLeft, ReceiverProg.addTrans]
          cases (receiver k).goesOn n <;> decide
        rw [hr] at hon
        have hpos : serverLeft k s.server s.conn = 4 := by simp [serverLeft, hpc]
        simp only [isOwn, if_true]
        omega
  | recvAborts hpc herr =>
    rw [of_decide_eq_true hG.2] at herr
    cases herr
  | recvLeaves hpc herr =>
    refine still (Option.some.inj hpipe).symm hconn ⟨by rintro ⟨⟩, rfl, rfl, ?_, by rintro ⟨⟩, ?_⟩
    · exact fun _ => hdata (by rw [hpc]; rfl)
    · simp only [serverLeft, hpc, isOwn, if_true]
      omega
  | recvCounted hpc herr =>
    rw [of_decide_eq_true hG.2] at herr
    cases herr
  | goesOn hpc hlast hcmd =>
    refine still (Option.some.inj hpipe).symm hconn ⟨by rintro ⟨⟩, rfl, rfl, ?_, by rintro ⟨⟩, ?_⟩
    · exact fun _ => hdata (by rw [hpc]; rfl)
    · simp only [serverLeft, hpc, hlast, isOwn, if_true]
      omega
  | ends hpc hlast =>
    refine still (Option.some.inj hpipe).symm hconn ⟨by rintro ⟨⟩, rfl, rfl, ?_, by rintro ⟨⟩, ?_⟩
    · exact fun _ => hdata (by rw [hpc]; rfl)
    · have hcmd := hord.serverGoesOn (.inl (by rw [hpc]; rfl))
      have hlast : (receiver k).goesOn s.server.session.lastTrans = false := by
        refine hlast.resolve_right fun hexit => ?_
        rw [hcmd] at hexit
        cases hexit
      simp only [serverLeft, hpc, hlast, isOwn, Bool.false_eq_true, if_true, if_false]
      omega
  | closes hpc =>
    have hacc : s.conn = .accepted := hinv.serving (by rw [hpc]; rfl)
    refine still (Option.some.inj hpipe).symm hconn ⟨by rintro ⟨⟩, rfl, rfl, by rintro ⟨⟩, ?_, ?_⟩
    · exact fun _ _ => h.txEnd
    · simp only [serverLeft, hpc, hacc, isOwn, if_true]
      omega
  | interrupted => exact absurd hG.1 Bool.false_ne_true
  | ticked =>
    refine still (Option.some.inj hpipe).symm hconn ⟨h.server, rfl, rfl, hdata, h.exits, ?_⟩
    simp [serverLeft, isOwn]

/-- **Step.** -/
theorem lively_step (hready : Ready mem l₀ l₁) (hbuf : 0 < l₀.bufsize)
    (hinv : Inv k mem l₀ l₁ s) (hord : Ordered k s) (h : Lively l₀ l₁ s) {l : TransferLabel}
    (hG : Fair k s l) (ht : step k cap mem s l = some t) :
    Lively l₀ l₁ t ∧ left k l₀ t + (if isOwn l then 1 else 0) ≤ left k l₀ s := by
  cases l with
  | client l => exact h.client_step hready hbuf hinv hG ht
  | server l => exact h.server_step hinv hord hG ht
  | hangup =>
    obtain ⟨hallowed, -⟩ := step_eq_some_iff.mp ht
    exact absurd (by simpa [allowed] using hallowed) h.client
  | shutdown | disturb xs => exact absurd hG.1 Bool.false_ne_true

/-! ### Nobody waits for ever -/

theorem exists_send (hl : Sizes l₀) (hinv : ClientInv k l₀ s.client) (h : Lively l₀ l₁ s)
    (hcmd : k = .udt → s.client.listener.command.eLoop = false) (hpc : s.client.pc = .sending)
    (hless : s.client.listener.totalTxRx < s.client.listener.fileSize) :
    ∃ c, singleClient k s.client (.send 1 0) = some c := by
  have hpos := nextSz_pos hl hinv h hpc hless
  have hbounds := hinv.nextSz_bounds hl hpc
  have hlt := hl.bufsize_lt
  cases k with
  | stream =>
    have hsz : asSizeT s.client.nextSz = s.client.nextSz := asSizeT_eq (by omega) (by omega)
    have hone : (1 : Int) ≤ s.client.nextSz := hpos
    simp [singleClient, StreamClient.step, hpc, hless, hsz, hone]
  | udt =>
    have hon : UdtClient.goesOn s.client.listener = true := by
      simp [UdtClient.goesOn, hless, hcmd rfl]
    have hone : (1 : Int) ≤ s.client.nextSz := hpos
    simp [singleClient, UdtClient.step, hpc, hon, hone]

theorem exists_finish (hpc : s.client.pc = .sending)
    (hdone : ¬ s.client.listener.totalTxRx < s.client.listener.fileSize) :
    ∃ c, singleClient k s.client .finish = some c := by
  cases k with
  | stream => simp [singleClient, StreamClient.step, hpc, hdone]
  | udt => simp [singleClient, UdtClient.step, UdtClient.goesOn, hpc, hdone]

theorem exists_close (hpc : s.client.pc = .closing) :
    ∃ c, singleClient k s.client .close = some c := by
  cases k <;> simp [singleClient, StreamClient.step, UdtClient.step, hpc]

/-- A client that has connected and not returned can do something, if there is room in the pipe. -/
theorem client_goes (hready : Ready mem l₀ l₁) (hinv : Inv k mem l₀ l₁ s) (hord : Ordered k s)
    (h : Lively l₀ l₁ s) (hroom : s.pipe.inFlight.length < cap) (hconn : s.conn ≠ .none)
    (hpc : s.client.pc ≠ .returned) : ¬ Stuck (step k cap mem) (Fair k) isOwn s := by
  intro hstuck
  have goes {l : CLabel} {c : StreamClient} {p : Pipe UInt8}
      (hc : singleClient k s.client l = some c) (hG : Fair k s (.client (.inl l)))
      (hallowed : s.allowed (.client (.inl l)) = true)
      (hp : run (Pipe.step cap) s.pipe (s.pipeActs mem (.client (.inl l))) = some p) : False :=
    hstuck.absurd rfl hG (step_eq_some_iff (t := ⟨c, s.server, _, p⟩).mpr
      ⟨hallowed, hc, rfl, rfl, hp⟩)
  cases hclient : s.client.pc with
  | connect => exact hconn (h.connecting.mp hclient)
  | sending =>
    by_cases hless : s.client.listener.totalTxRx < s.client.listener.fileSize
    · obtain ⟨c, hc⟩ := exists_send hready.sizes hinv.client h hord.clientGoesOn hclient hless
      have hopen : s.pipe.ended = false := hord.finished.open (.inr hclient)
      have hpiece : (slice mem s.client.listener.totalTxRx.toNat 1).length ≤ 1 :=
        List.length_take_le _ _
      refine goes hc ⟨rfl, rfl⟩ rfl (p := ?_) ?_
      · exact { s.pipe with
          sent := s.pipe.sent ++ slice mem s.client.listener.totalTxRx.toNat 1
          inFlight := s.pipe.inFlight ++ slice mem s.client.listener.totalTxRx.toNat 1 }
      · have hfits : s.pipe.inFlight.length +
            (slice mem s.client.listener.totalTxRx.toNat 1).length ≤ cap := by omega
        simp [pipeActs, Pipe.step, hopen, hfits]
    · obtain ⟨c, hc⟩ := exists_finish (k := k) hclient hless
      exact goes hc ⟨rfl, rfl⟩ rfl rfl
  | closing =>
    obtain ⟨c, hc⟩ := exists_close (k := k) hclient
    exact goes hc ⟨rfl, rfl⟩ rfl rfl
  | returned => exact hpc hclient
  | aborted => exact h.client hclient

/-- A server that is not waiting for the client can do something. -/
theorem server_goes (hbuf : 0 < l₁.bufsize) (hlt : l₁.bufsize < 2 ^ 31)
    (htx : l₁.sTxEnd.eLoop = true) (hinv : Inv k mem l₀ l₁ s) (hord : Ordered k s)
    (h : Lively l₀ l₁ s) (hstuck : Stuck (step k cap mem) (Fair k) isOwn s) :
    s.server.pc = .returned ∨ (s.server.pc = .test ∧ s.conn = .none) ∨
      s.server.pc = .receiving ∧ s.pipe.inFlight = [] ∧ s.pipe.ended = false := by
  have goes {l : RLabel} {r : Receiver} {p : Pipe UInt8}
      (hr : (receiver k).step s.server l = some r) (hG : Fair k s (.server l))
      (hown : isOwn (.server l) = true) (hallowed : s.allowed (.server l) = true)
      (hp : run (Pipe.step cap) s.pipe (s.pipeActs mem (.server l)) = some p) : False :=
    hstuck.absurd hown hG (step_eq_some_iff (t := ⟨s.client, r, _, p⟩).mpr
      ⟨hallowed, rfl, hr, rfl, hp⟩)
  cases hpc : s.server.pc with
  | listen =>
    obtain ⟨r, hr⟩ : ∃ r, (receiver k).step s.server (.listen true) = some r := by
      simp [ReceiverProg.step, ReceiverProg.listenStep, hpc]
    exact (goes hr ⟨rfl, rfl⟩ rfl rfl rfl).elim
  | test =>
    cases hconn : s.conn with
    | none => exact .inr (.inl ⟨rfl, rfl⟩)
    | pending =>
      have hcmd := hord.serverGoesOn (.inr (by rw [hconn]; rintro ⟨⟩))
      obtain ⟨r, hr⟩ : ∃ r, (receiver k).step s.server (.accept 0) = some r := by
        simp [ReceiverProg.step, ReceiverProg.acceptStep, hpc, hcmd]
      exact (goes hr ⟨rfl, rfl⟩ rfl (by simp [allowed, hconn])
        rfl).elim
    | accepted =>
      have hcmd : s.server.listener.command.eLoop = true := by rwa [h.exits hpc hconn]
      obtain ⟨r, hr⟩ : ∃ r, (receiver k).step s.server .test = some r := by
        simp [ReceiverProg.step, ReceiverProg.testStep, hpc, hcmd]
      exact (goes hr ⟨rfl, rfl⟩ rfl rfl rfl).elim
  | receiving =>
    have hdata := h.dataSize (by rw [hpc]; rfl)
    rw [asSizeT_eq (by omega) (by omega)] at hdata
    cases hin : s.pipe.inFlight with
    | cons x xs =>
      have hone : ((1 : Nat) : Int) ≤ s.server.session.dataSize := by omega
      obtain ⟨r, hr⟩ : ∃ r, (receiver k).step s.server (.recv (.count 1)) = some r := by
        simp [ReceiverProg.step, ReceiverProg.recvStep, hpc, hdata]
        omega
      refine (goes hr ⟨rfl, rfl⟩ rfl rfl (p := ?_) ?_).elim
      · exact { s.pipe with got := s.pipe.got ++ [x], inFlight := xs }
      · simp [pipeActs, Pipe.step, hin]
    | nil =>
      refine .inr (.inr ⟨rfl, rfl, ?_⟩)
      by_contra hended
      have hatEnd : s.pipe.atEnd = true :=
        Pipe.atEnd_iff.mpr ⟨by simpa using hended, hin⟩
      -- the end of the stream is reported
      cases k with
      | stream =>
        obtain ⟨r, hr⟩ : ∃ r, (receiver .stream).step s.server (.recv (.count 0)) = some r := by
          simp [ReceiverProg.step, ReceiverProg.recvStep, hpc, hdata]
          omega
        refine goes hr ⟨rfl, rfl⟩ rfl hatEnd (p := ?_) ?_
        · exact { s.pipe with got := s.pipe.got ++ [] }
        · simp [pipeActs, Pipe.step, hin]
      | udt =>
        obtain ⟨r, hr⟩ : ∃ r, (receiver .udt).step s.server (.recv (.error 2001)) = some r := by
          simp [ReceiverProg.step, ReceiverProg.recvStep, hpc, receiver, tbUdtServer]
        exact goes hr ⟨hatEnd, rfl⟩ rfl rfl rfl
  | looping =>
    obtain ⟨r, hr⟩ : ∃ r, (receiver k).step s.server .loop = some r := by
      simp [ReceiverProg.step, ReceiverProg.loopStep, hpc]
    exact (goes hr ⟨rfl, rfl⟩ rfl rfl rfl).elim
  | closing =>
    obtain ⟨r, hr⟩ : ∃ r, (receiver k).step s.server .close = some r := by
      simp [ReceiverProg.step, ReceiverProg.closeStep, hpc]
    exact (goes hr ⟨rfl, rfl⟩ rfl rfl rfl).elim
  | returned => exact .inl rfl
  | aborted => exact absurd hpc h.server

/-- A client that has not connected yet can do so once the server listens. -/
theorem connect_goes (h : Lively l₀ l₁ s) (hconn : s.conn = .none) (hpc : s.server.pc = .test) :
    ¬ Stuck (step k cap mem) (Fair k) isOwn s := by
  intro hstuck
  have hclient := h.connecting.mpr hconn
  obtain ⟨c, hc⟩ : ∃ c, singleClient k s.client (.connect true) = some c := by
    cases k <;> simp [singleClient, StreamClient.step, UdtClient.step, hclient]
  have hfair : Fair k s (.client (.inl (.connect true))) := ⟨rfl, rfl⟩
  refine hstuck.absurd (t := ⟨c, s.server, .pending, s.pipe⟩) rfl hfair (step_eq_some_iff.mpr ?_)
  exact ⟨by simp [allowed, hconn, hpc, ReceiverPc.reachable], hc, rfl, rfl, rfl⟩

theorem stuck_returned (hready : Ready mem l₀ l₁) (hcap : 0 < cap) (hbuf : 0 < l₁.bufsize)
    (hlt : l₁.bufsize < 2 ^ 31) (htx : l₁.sTxEnd.eLoop = true) (hinv : Inv k mem l₀ l₁ s)
    (hord : Ordered k s) (h : Lively l₀ l₁ s) (hstuck : Stuck (step k cap mem) (Fair k) isOwn s) :
    s.client.pc = .returned ∧ s.server.pc = .returned := by
  rcases server_goes hbuf hlt htx hinv hord h hstuck with hret | ⟨hpc, hconn⟩ | ⟨hpc, hin, hopen⟩
  · have hend := hord.ended (hord.returned hret) (by rw [hret]; rfl)
    have hclient := hord.finished (Pipe.atEnd_iff.mp hend).1
    exact ⟨hclient.resolve_right h.client, hret⟩
  · exact absurd hstuck (connect_goes h hconn hpc)
  · have hacc := hinv.serving (by rw [hpc]; rfl)
    refine absurd hstuck (client_goes hready hinv hord h ?_ (by rw [hacc]; rintro ⟨⟩) fun hclient => ?_)
    · rw [hin]
      exact hcap
    · rw [h.closed hclient] at hopen
      cases hopen

/-- Who has returned takes no more steps. -/
theorem returned_stuck (hclient : s.client.pc = .returned) (hserver : s.server.pc = .returned) :
    Stuck (step k cap mem) (Fair k) isOwn s := by
  intro l hown _
  by_contra hne
  obtain ⟨t, ht⟩ := Option.ne_none_iff_exists'.mp hne
  obtain ⟨-, hc, hr, -, -⟩ := step_eq_some_iff.mp ht
  cases l with
  | client l =>
    cases l with
    | inl l =>
      replace hc : singleClient k s.client l = some t.client := hc
      cases l <;> cases k <;>
        simp [singleClient, StreamClient.step, UdtClient.step, hclient] at hc
    | inr e => cases hown
  | server l =>
    generalize t.server = r at hr
    cases receiver_step_moves hr with
    | interrupted | ticked => cases hown
    | _ hpc =>
      rw [hserver] at hpc
      cases hpc
  | hangup | shutdown | disturb xs => cases hown

/-- No failure is counted in a fair run. -/
theorem ignored_step (hinv : Inv k mem l₀ l₁ s)
    (h : (receiver k).ignored l₁.protId s.server.results = 0) {l : TransferLabel}
    (hG : Fair k s l) (ht : step k cap mem s l = some t) :
    (receiver k).ignored l₁.protId t.server.results = 0 := by
  obtain ⟨-, -, hserver, -, -⟩ := step_eq_some_iff.mp ht
  cases l with
  | server l =>
    generalize t.server = r at hserver
    cases receiver_step_moves hserver with
    | accepts => rfl
    | @receives n => exact (ReceiverProg.ignored_concat_count n).trans h
    | recvAborts _ herr | recvLeaves _ herr =>
      rw [hinv.server.protId] at herr
      simp [ReceiverProg.ignored_concat_error, herr, h]
    | recvCounted _ herr =>
      rw [of_decide_eq_true hG.2] at herr
      cases herr
    | _ => exact h
  | client | hangup | shutdown | disturb =>
    rw [← Option.some.inj hserver]
    exact h

theorem lively_init : Lively l₀ l₁ (init l₀ l₁) :=
  ⟨nofun, nofun, nofun, ⟨fun _ => rfl, fun _ => rfl⟩, nofun, rfl, rfl, nofun, nofun⟩

end Ends

/-- **Every transfer comes to its end.** In a run where nobody is interrupted and nothing fails, client
and server take at most ten steps and three for each byte of the file, however the bytes are cut and
however little room there is on the way. They can always take another step until both have returned,
and then the whole file is received, and counted on both sides. -/
theorem transfer_ends (k : SKind) (cap : Nat) (mem : List UInt8) (l₀ l₁ : Listener)
    (hready : Ready mem l₀ l₁) (hcap : 0 < cap) (hbuf₀ : 0 < l₀.bufsize) (hbuf₁ : 0 < l₁.bufsize)
    (hlt : l₁.bufsize < 2 ^ 31) (htx : l₁.sTxEnd.eLoop = true) (ls : List TransferLabel)
    (s : StreamTransfer) (h : run (step k cap mem) (init l₀ l₁) ls = some s)
    (hG : Meets (step k cap mem) (Fair k) (init l₀ l₁) ls) :
    ls.countP isOwn ≤ 10 + 3 * l₀.fileSize.toNat ∧
      (Stuck (step k cap mem) (Fair k) isOwn s ↔
        s.client.pc = .returned ∧ s.server.pc = .returned) ∧
      (s.server.pc = .returned →
        Complete k mem l₀ l₁ s ∧ s.server.listener.totalTxRx = l₀.fileSize) := by
  have hrun := run_countP_le_of_meets
    (I := fun s => ((Inv k mem l₀ l₁ s ∧ Ordered k s) ∧ Lively l₀ l₁ s) ∧
      (receiver k).ignored l₁.protId s.server.results = 0) (μ := left k l₀) (q := isOwn)
    ?_ ⟨⟨⟨inv_init hready.sizes hready.clientTotal hready.serverTotal,
      ordered_init hready.clientCommand hready.serverCommand⟩, lively_init⟩, rfl⟩ hG h
  · obtain ⟨⟨⟨⟨hinv, hord⟩, hlive⟩, hignored⟩, hle⟩ := hrun
    have hleft : left k l₀ (init l₀ l₁) = 10 + 3 * l₀.fileSize.toNat := by
      simp [left, clientLeft, serverLeft, init, StreamClient.init, ReceiverProg.init, Pipe.empty,
        hready.clientTotal]
    refine ⟨by omega, ⟨?_, fun hret => returned_stuck hret.1 hret.2⟩, fun hserver => ?_⟩
    · exact stuck_returned hready hcap hbuf₁ hlt htx hinv hord hlive
    · have hend := hord.ended (hord.returned hserver) (by rw [hserver]; rfl)
      have hclient := (hord.finished (Pipe.atEnd_iff.mp hend).1).resolve_right hlive.client
      have hcomplete := hord.complete hready hinv hclient hend (by rw [hserver]; rintro ⟨⟩)
      have hcount := hcomplete.server
      rw [hignored] at hcount
      exact ⟨hcomplete, by omega⟩
  · rintro s l t ⟨⟨⟨hinv, hord⟩, hlive⟩, hignored⟩ hl ht
    obtain ⟨hlive', hle⟩ := lively_step hready hbuf₀ hinv hord hlive hl ht
    exact ⟨⟨⟨⟨inv_step hready.sizes hinv ht, ordered_step hready.sizes hinv hord hl.1 ht⟩, hlive'⟩,
      ignored_step hinv hignored hl ht⟩, hle⟩

def udtRun : Option StreamTransfer :=
  run (step .udt 8 [1, 2, 3]) (init { tbCreateListener .client .udt 4 with fileSize := 3 }
    (tbCreateListener .server .udt 4)) udtLabels

theorem udtRun_isSome : udtRun.isSome = true := by decide +kernel

/-- The same three bytes: both sides have returned, and the server has counted all of them. -/
theorem transfer_ends_three_bytes :
    ∃ s, udtRun = some s ∧ udtLabels.countP isOwn ≤ 19 ∧
      Stuck (step .udt 8 [1, 2, 3]) (Fair .udt) isOwn s ∧
      s.pipe.got = [1, 2, 3] ∧ s.server.listener.totalTxRx = 3 := by
  have hs : udtRun = some (udtRun.get udtRun_isSome) := (Option.some_get _).symm
  have hclient : (udtRun.get udtRun_isSome).client.pc = .returned := by decide +kernel
  have hserver : (udtRun.get udtRun_isSome).server.pc = .returned := by decide +kernel
  obtain ⟨hsteps, hstuck, hdone⟩ := transfer_ends .udt 8 [1, 2, 3]
    { tbCreateListener .client .udt 4 with fileSize := 3 } (tbCreateListener .server .udt 4)
    ⟨⟨by decide, by decide, by decide, by decide⟩, by decide, rfl, rfl, rfl, rfl⟩ (by decide)
    (by decide) (by decide) (by decide) rfl udtLabels _ hs (by decide)
  obtain ⟨hcomplete, htotal⟩ := hdone hserver
  exact ⟨_, hs, hsteps.trans (by decide), hstuck.mpr ⟨hclient, hserver⟩,
    hcomplete.got.trans (by decide), htotal⟩

end StreamTransfer

end TestBed
