import TestBed.MClientRun
import TestBed.ServerSockets

/-!
# The descriptors of a multi-connection client

The parent gives every session a socket of its own, and closes it when it has joined with the
session's thread, whatever the thread has returned; the listener's socket is closed by `tb_abort`
alone. A session thread of `tb_stream_m_client` whose `send` has failed leaves its session in the
status `SESSION_CONNECTED`, so the monitor goes on to query the closed descriptor. If the parent joins
no such thread, the sockets of connected sessions are open (`streamMClient_sessionsLive`).
-/

namespace TestBed

open Transition Descriptor

variable {τ ι : Type}

/-! ## Calls -/

namespace MClientProg

variable (p : MClientProg τ ι)

/-- The calls on descriptors that a step makes. -/
def calls (s : MClient τ) : MLabel ι → List Event
  | .create resolved v =>
    match tbCreateSessionFull (p.sockType s.listener.protId) resolved with
    | none => s.listener.abortCalls
    | some _ =>
      if p.ownSocket then if v = -1 then s.listener.abortCalls else [.opened v] else []
  | .parent =>
    match s.parent with
    | .join k =>
      match s.threads[k]?, s.listener.session? k with
      | some _, some session => if p.ownSocket then [.closed session.sockD] else []
      | _, _ => []
    | _ => []
  | .setup _ | .eot .. | .thread .. | .tick _ => []

/-- The client with the trace of its calls. -/
def traced : Traced (MClient τ) → MLabel ι → Option (Traced (MClient τ)) :=
  tracedStep p.step p.calls

/-- The client at its start; its listener's socket was handed out. -/
def tracedInit (l : Listener) : Traced (MClient τ) := ⟨p.init l, [.opened l.sockD]⟩

/-- A thread leaves the descriptor of its session alone. -/
def KeepsSock : Prop :=
  ∀ session c io r, p.thread.step session c io = some r → r.1.sockD = session.sockD

end MClientProg

/-! ## Ownership -/

/-- The parent has joined with thread `k`. -/
def ParentPc.joined : ParentPc → Nat → Bool
  | .join j, k => k < j
  | .closing _, _ => true
  | _, _ => false

/-- What is still to be closed: the listener's socket, and the sockets of the sessions. -/
def MClient.own (s : MClient τ) : Option Nat → Option Int
  | none => if s.parent = .aborted then none else some s.listener.sockD
  | some k => if s.parent.joined k then none else s.listener.socks[k]?.map (·.1)

/-- The invariant of a client that started on `l₀`. -/
structure ClientSockets (l₀ : Listener) (s : Traced (MClient τ)) : Prop where
  owned : Owned s.trace s.sys.own
  opens : opens s.trace = l₀.sockD :: s.sys.listener.socks.map (·.1)

namespace ClientSockets

open MClientProg

variable {p : MClientProg τ ι} {l₀ : Listener} {s t : MClient τ} {tr tr' : List Event}

theorem init {l : Listener} (hl : l.Ready) : ClientSockets l (p.tracedInit l) := by
  have hsocks : l.socks = [] := by simp [Listener.socks, hl.sessions]
  have hparent : (p.init l).parent ≠ .aborted := by
    unfold MClientProg.init
    dsimp only
    split <;> exact ParentPc.noConfusion
  refine ⟨owned_first none fun i v hi => ?_, ?_⟩
  · cases i with
    | none =>
      have hown : some l.sockD = some v := Eq.trans (if_neg hparent).symm hi
      exact ⟨rfl, (Option.some.inj hown).symm⟩
    | some k => simp [tracedInit, MClient.own, MClientProg.init, hsocks] at hi
  · simp [tracedInit, MClientProg.init, Descriptor.opens, hsocks]

/-- A step that makes no call: the parent can only have come further. -/
theorem of_quiet (hs : ClientSockets l₀ ⟨s, tr⟩) (hsock : t.listener.sockD = s.listener.sockD)
    (hsocks : t.listener.socks.map (·.1) = s.listener.socks.map (·.1))
    (haborted : s.parent = .aborted → t.parent = .aborted)
    (hjoined : ∀ k, s.parent.joined k = true → t.parent.joined k = true) :
    ClientSockets l₀ ⟨t, tr⟩ := by
  have hlookup : ∀ k : Nat, t.listener.socks[k]?.map (·.1) = s.listener.socks[k]?.map (·.1) := by
    intro k
    rw [← List.getElem?_map, hsocks, List.getElem?_map]
  refine ⟨hs.owned.mono fun i v hi => ?_, by rw [hsocks]; exact hs.opens⟩
  cases i with
  | none =>
    simp only [MClient.own] at hi ⊢
    split at hi
    · cases hi
    · next hgo =>
      rw [if_neg fun h => hgo (haborted h), ← hsock]
      exact hi
  | some k =>
    simp only [MClient.own] at hi ⊢
    split at hi
    · cases hi
    · next hgo =>
      rw [if_neg fun h => hgo (hjoined k h), ← hlookup]
      exact hi

theorem of_aborts (hs : ClientSockets l₀ ⟨s, tr⟩) (hparent : s.parent ≠ .aborted)
    (hjoined : ∀ k, s.parent.joined k = false)
    (htr : follow tr s.listener.abortCalls = some tr') :
    ClientSockets l₀ ⟨{ s with listener := tbAbort s.listener, parent := .aborted }, tr'⟩ := by
  unfold Listener.abortCalls at htr
  split at htr
  · cases htr
    refine ⟨hs.owned.mono fun i v hi => ?_, hs.opens⟩
    cases i with
    | none => cases hi
    | some k =>
      simp only [MClient.own, hjoined, Bool.false_eq_true, if_false]
      exact hi
  · cases htr
    refine ⟨hs.owned.closed (i := none) (by simp [MClient.own, hparent]) fun i v hi => ?_, hs.opens⟩
    cases i with
    | none => cases hi
    | some k =>
      refine ⟨Option.some_ne_none k, ?_⟩
      simp only [MClient.own, hjoined, Bool.false_eq_true, if_false]
      exact hi

/-- A session is created on the descriptor `v`. -/
theorem of_added (hown : p.ownSocket = true) {x : Nat} {v : Int} (hs : ClientSockets l₀ ⟨s, tr⟩)
    (ha : p.Added x v s t) (hv : stateOf tr v ≠ .live) :
    ClientSockets l₀ ⟨t, .opened v :: tr⟩ := by
  have hsocks : t.listener.socks = s.listener.socks ++ [(v, .addrRes)] := by
    simp [Listener.socks, ha.sessions, addedSession, newSession, hown]
  have hsock : t.listener.sockD = s.listener.sockD := by rw [ha.listener]
  have hparent : s.parent ≠ .aborted := by
    rw [ha.parent]
    exact ParentPc.noConfusion
  have hjoined : ∀ k, s.parent.joined k = false := by
    intro k
    rw [ha.parent]
    rfl
  refine ⟨hs.owned.opened hv (some s.listener.socks.length) fun i w hi => ?_, ?_⟩
  · cases i with
    | none =>
      right
      simp only [MClient.own] at hi ⊢
      split at hi
      · cases hi
      · rw [if_neg hparent, ← hsock]
        exact hi
    | some k =>
      simp only [MClient.own, hsocks] at hi
      split at hi
      · cases hi
      · obtain ⟨y, hy, rfl⟩ := Option.map_eq_some_iff.mp hi
        rw [getElem?_concat_eq_some] at hy
        rcases hy with hy | ⟨rfl, rfl⟩
        · exact .inr (by simp [MClient.own, hjoined, hy])
        · exact .inl ⟨rfl, rfl⟩
  · have hopens : Descriptor.opens tr = _ := hs.opens
    simp [Descriptor.opens, hopens, hsocks]

theorem setup {ok : Bool} (hs : ClientSockets l₀ ⟨s, tr⟩) (h : setupStep s ok = some t) :
    ClientSockets l₀ ⟨t, tr⟩ := by
  obtain ⟨hpc, rfl⟩ := setupStep_cases h
  exact hs.of_quiet rfl rfl (by simp [hpc]) (by simp [hpc, ParentPc.joined])

theorem create (hp : p.Regular) (hown : p.ownSocket = true) {resolved : Bool} {v : Int}
    (hs : ClientSockets l₀ ⟨s, tr⟩) (h : p.createStep s resolved v = some t)
    (htr : follow tr (p.calls s (.create resolved v)) = some tr') : ClientSockets l₀ ⟨t, tr'⟩ := by
  rcases createStep_cases hp h with ⟨x, ha, hsome, hsock⟩ | ⟨x, hx, hfail, rfl⟩
  · obtain ⟨session, hfull⟩ := Option.isSome_iff_exists.mp hsome
    have hv : v ≠ -1 := fun heq => hsock ⟨hown, heq⟩
    simp only [calls, hfull, hown, if_true, if_neg hv] at htr
    obtain ⟨⟨-, hfresh⟩, htr⟩ := follow_opened htr
    cases htr
    exact hs.of_added hown ha hfresh
  · have hcalls : p.calls s (.create resolved v) = s.listener.abortCalls := by
      rcases hfail with hnone | ⟨-, hv⟩
      · simp only [calls, hnone]
      · simp only [calls, hown, hv, if_true]
        split <;> rfl
    rw [hcalls] at htr
    have hnot : s.parent ≠ .aborted := by
      rw [hx]
      exact ParentPc.noConfusion
    exact hs.of_aborts hnot (fun k => by rw [hx]; rfl) htr

theorem joined_join {k j : Nat} : (ParentPc.join (k + 1)).joined j = true ↔
    j = k ∨ (ParentPc.join k).joined j = true := by
  simp only [ParentPc.joined, decide_eq_true_eq]
  omega

/-- The parent joins with thread `k` and closes the socket of its session. -/
theorem of_joins {k : Nat} {session : Session} (hs : ClientSockets l₀ ⟨s, tr⟩)
    (hparent : s.parent = .join k) (hk : s.listener.session? k = some session) :
    ClientSockets l₀ ⟨{ s with parent := .join (k + 1) }, .closed session.sockD :: tr⟩ := by
  have hopen : s.own (some k) = some session.sockD := by
    simp [MClient.own, hparent, ParentPc.joined, Listener.socks_getElem?, hk]
  refine ⟨hs.owned.closed hopen fun i v hi => ?_, hs.opens⟩
  cases i with
  | none => exact ⟨(Option.some_ne_none k).symm, by simpa [MClient.own, hparent] using hi⟩
  | some j =>
    simp only [MClient.own] at hi ⊢
    split at hi
    · cases hi
    · next hgo =>
      rw [joined_join, not_or] at hgo
      refine ⟨fun heq => hgo.1 (Option.some.inj heq), ?_⟩
      rw [hparent, if_neg hgo.2]
      exact hi

theorem parent (hown : p.ownSocket = true) (hs : ClientSockets l₀ ⟨s, tr⟩)
    (hlen : s.threads.length = s.listener.sessionList.sessions.length)
    (h : p.parentStep s = some t) (htr : follow tr (p.calls s .parent) = some tr') :
    ClientSockets l₀ ⟨t, tr'⟩ := by
  simp only [calls] at htr
  cases parentStep_moves h with
  | waits hpc =>
    simp only [hpc] at htr
    cases htr
    exact hs
  | starts hpc | connects hpc =>
    simp only [hpc] at htr
    cases htr
    exact hs.of_quiet rfl rfl (by simp [hpc]) (by simp [hpc, ParentPc.joined])
  | joins hpc hc =>
    -- there is a session for the thread
    have hlt := hlen ▸ (List.getElem?_eq_some_iff.mp hc).1
    have hsession := List.getElem?_eq_getElem hlt
    simp only [hpc, hc, Listener.session?, hsession, hown, if_true] at htr
    cases htr
    exact hs.of_joins hpc hsession
  | leaves hpc hnone =>
    simp only [hpc, hnone] at htr
    cases htr
    exact hs.of_quiet rfl rfl (by simp [hpc]) (by simp [ParentPc.joined])
  | closes hpc hl =>
    simp only [hpc] at htr
    cases htr
    obtain ⟨hsock, hlist, -⟩ := closeStep_frame hl
    refine hs.of_quiet hsock ?_ (by simp [hpc]) (by simp [ParentPc.joined])
    simp only [Listener.socks, hlist]

theorem eot {r : EotSend} {ack : Bool} (hs : ClientSockets l₀ ⟨s, tr⟩)
    (h : eotStep s r ack = some t) : ClientSockets l₀ ⟨t, tr⟩ := by
  obtain ⟨ops, hpc, -, ⟨-, rfl⟩ | ⟨-, -, rfl⟩ | ⟨-, -, rfl⟩⟩ := eotStep_cases h
  · exact hs.of_quiet rfl rfl (by simp [hpc]) (by simp [ParentPc.joined])
  · exact hs.of_quiet rfl rfl id fun _ => id
  · exact hs

theorem thread (hkeeps : p.KeepsSock) {k : Nat} {io : ι} (hs : ClientSockets l₀ ⟨s, tr⟩)
    (h : p.threadStep s k io = some t) : ClientSockets l₀ ⟨t, tr⟩ := by
  obtain ⟨session, c, r, hm⟩ := threadStep_moved h
  rw [hm.eq]
  refine hs.of_quiet rfl ?_ id fun _ => id
  rw [Listener.socks_setSession]
  refine map_fst_set (x := (session.sockD, session.status)) ?_ (hkeeps _ _ _ _ hm.step)
  rw [Listener.socks_getElem?, hm.session_eq]
  rfl

/-- **The invariant holds in every reachable state.** -/
theorem run (hp : p.Regular) (hown : p.ownSocket = true) (hkeeps : p.KeepsSock) {l : Listener}
    (hl : l.Ready) {ls : List (MLabel ι)} {s : Traced (MClient τ)}
    (h : Transition.run p.traced (p.tracedInit l) ls = some s) : ClientSockets l s := by
  refine run_induction (P := fun _ s => ClientSockets l s) (init hl) ?_ h
  rintro ls ⟨s, tr⟩ l' ⟨t, tr'⟩ hr hs hstep
  obtain ⟨hsys, htr⟩ := tracedStep_eq_some.mp hstep
  have hshape := run_shape hp hl.sessions (run_sys hr)
  cases l' with
  | setup ok =>
    cases htr
    exact hs.setup hsys
  | create resolved v => exact hs.create hp hown hsys htr
  | parent => exact hs.parent hown hshape.length hsys htr
  | eot r ack =>
    cases htr
    exact hs.eot hsys
  | thread k io =>
    cases htr
    exact hs.thread hkeeps hsys
  | tick q =>
    cases htr
    cases hsys
    refine hs.of_quiet rfl ?_ id fun _ => id
    rw [tbSetMStats_socks]

end ClientSockets

/-! ## TCP and DCCP -/

/-- The thread's last `send` has failed. -/
def SendConn.sendFailed (c : SendConn) : Bool := c.calls.getLast?.any (·.rc == -1)

/-- The thread that the parent is about to join with. -/
def MClient.joining (s : MClient τ) : Option τ :=
  match s.parent with
  | .join k => s.threads[k]?
  | _ => none

/-- The parent joins no thread whose `send` has failed. -/
def JoinsSent (s : Traced (MClient SendConn)) : MLabel ThreadIo → Prop
  | .parent => ∀ c, s.sys.joining = some c → c.sendFailed = false
  | _ => True

instance (s : Traced (MClient SendConn)) (l : MLabel ThreadIo) : Decidable (JoinsSent s l) := by
  cases l <;> unfold JoinsSent <;> infer_instance

/-- A session stays connected while its thread sends, and where its `send` has failed. -/
def ConnectedSends (_ : Nat) (session : Session) (c : SendConn) : Prop :=
  session.status = .connected → c.pc = .sending ∨ c.sendFailed = true

theorem connectedSends (l₀ : Listener) : tbStreamMClient.ConnInvariant l₀ ConnectedSends where
  added := fun _ _ _ _ _ => nofun
  thread := by
    intro k session c io r hI _ hr
    cases sendConnStep_cases hr with
    | connectFails hpc =>
      intro hst
      rcases hI hst with hsending | hfailed
      · rw [hpc] at hsending
        cases hsending
      · exact .inr hfailed
    | connects => exact fun _ => .inl rfl
    | sendFails => exact fun _ => .inr (by simp [SendConn.sendFailed])
    | sends hpc => exact fun _ => .inl hpc
    | finishes => exact nofun
  tick := by
    intro k q session c hI hst
    exact hI (by simpa using hst)

theorem tbStreamMClient_keepsSock : tbStreamMClient.KeepsSock := by
  intro session c io r hr
  cases sendConnStep_cases hr <;> rfl

/-- The threads that were joined with have returned, and their last `send` has not failed. -/
def JoinedSent (s : MClient SendConn) : Prop :=
  ∀ k c, s.parent.joined k = true → s.threads[k]? = some c →
    c.pc.retval.isSome = true ∧ c.sendFailed = false

namespace JoinedSent

open MClientProg

variable {s t : MClient SendConn}

theorem of_notJoined (h : ∀ k, t.parent.joined k = false) : JoinedSent t :=
  fun k _ hk => Bool.noConfusion ((h k).symm.trans hk)

theorem parent (hs : JoinedSent s) (h : tbStreamMClient.parentStep s = some t)
    (hg : ∀ k c, s.parent = .join k → s.threads[k]? = some c → c.sendFailed = false) :
    JoinedSent t := by
  cases parentStep_moves h with
  | waits => exact hs
  | starts => exact of_notJoined fun _ => rfl
  | connects => exact of_notJoined fun k => by simp [ParentPc.joined]
  | @joins k c hpc hc hret =>
    intro j d hj hd
    rw [ClientSockets.joined_join] at hj
    rcases hj with rfl | hj
    · rw [hc] at hd
      cases hd
      exact ⟨hret, hg j c hpc hc⟩
    · exact hs j d (hpc ▸ hj) hd
  | @leaves k hpc hnone =>
    intro j c _ hc
    -- the parent has joined with every thread
    have hlt : j < k := by
      have hj : j < s.threads.length := (List.getElem?_eq_some_iff.mp hc).1
      have hlen := List.getElem?_eq_none_iff.mp hnone
      omega
    exact hs j c (by rw [hpc]; exact decide_eq_true hlt) hc
  | closes hpc => exact fun j c _ hc => hs j c (by rw [hpc]; rfl) hc

theorem step {s : Traced (MClient SendConn)} {l : MLabel ThreadIo} (hs : JoinedSent s.sys)
    (h : tbStreamMClient.step s.sys l = some t) (hg : JoinsSent s l) : JoinedSent t := by
  cases l with
  | setup ok =>
    obtain ⟨-, rfl⟩ := setupStep_cases h
    exact of_notJoined fun _ => by cases ok <;> rfl
  | create resolved v =>
    rcases createStep_cases (mClient_regular .stream) h with ⟨x, ha, -⟩ | ⟨x, -, -, rfl⟩
    · refine of_notJoined fun k => ?_
      rw [ha.parent']
      split <;> rfl
    · exact of_notJoined fun _ => rfl
  | parent =>
    refine hs.parent h fun k c hk hc => hg c ?_
    rw [MClient.joining, hk]
    exact hc
  | eot r ack =>
    obtain ⟨ops, hpc, -, ⟨-, rfl⟩ | ⟨-, -, rfl⟩ | ⟨-, -, rfl⟩⟩ := eotStep_cases h
    · exact fun j c _ hc => hs j c (by rw [hpc]; rfl) hc
    · exact hs
    · exact hs
  | thread k io =>
    obtain ⟨session, c, r, hm⟩ := threadStep_moved h
    rw [hm.eq]
    intro j d hj hd
    rw [List.getElem?_set'] at hd
    by_cases hkj : k = j
    · -- the thread that has moved had not returned
      subst hkj
      have hret := (hs k c hj hm.thread_eq).1
      cases sendConnStep_cases hm.step with
      | connectFails hpc | connects hpc | sendFails hpc | sends hpc | finishes hpc =>
        rw [hpc] at hret
        cases hret
    · rw [if_neg hkj] at hd
      exact hs j d hj hd
  | tick q =>
    cases h
    exact hs

end JoinedSent

/-- The sockets of connected sessions are open in every state of a run in which the parent joins no
thread whose `send` has failed. -/
theorem streamMClient_sessionsLive {l : Listener} (hl : l.Ready) {ls : List (MLabel ThreadIo)}
    {s : Traced (MClient SendConn)}
    (h : run tbStreamMClient.traced (tbStreamMClient.tracedInit l) ls = some s)
    (hgood : Meets tbStreamMClient.traced JoinsSent (tbStreamMClient.tracedInit l) ls) :
    SessionsLive s.sys.listener s.trace := by
  have hreg := mClient_regular .stream
  have hsocks := ClientSockets.run hreg rfl tbStreamMClient_keepsSock hl h
  obtain ⟨hshape, heach⟩ := (connectedSends l).run hreg hl.sessions (run_sys h)
  have hjoined : JoinedSent s.sys := by
    refine run_invariant_of_meets (I := fun s => JoinedSent s.sys) ?_ ?_ hgood h
    · exact JoinedSent.of_notJoined fun _ => rfl
    · exact fun _ _ _ hs hg ht => hs.step (tracedStep_eq_some.mp ht).1 hg
  intro k session hk hstatus
  have hlookup : s.sys.listener.socks[k]? = some (session.sockD, .connected) := by
    rw [Listener.socks_getElem?, hk, ← hstatus]
    rfl
  refine ⟨by simp [hsocks.opens, hlookup], hsocks.owned.live (some k) session.sockD ?_⟩
  have hopen : s.sys.parent.joined k = false := by
    by_contra hne
    rw [Bool.not_eq_false] at hne
    have hlt : k < s.sys.threads.length := by
      rw [hshape.length]
      exact (List.getElem?_eq_some_iff.mp hk).1
    have hc := List.getElem?_eq_getElem hlt
    obtain ⟨hret, hsent⟩ := hjoined k _ hne hc
    rcases heach k session _ hk hc hstatus with hpc | hfailed
    · rw [hpc] at hret
      cases hret
    · exact Bool.noConfusion (hsent.symm.trans hfailed)
  simp [MClient.own, hopen, hlookup]

end TestBed
