import TestBed.MClientRun

/-!
# When a multi-connection client declares itself connected

The parent waits while the first session's status is `SESSION_CREATED`. `tb_create_session_full` has
moved it on to `SESSION_ADDR_RES` before the session is in the list, so the wait can end before the
session's thread has connected (`connected_before_connect`). It ends in time when the wait's test does
not read the status `SESSION_ADDR_RES` (`connected_status_truthful`).
-/

namespace TestBed

open Transition MClientProg

variable {τ ι : Type} {p : MClientProg τ ι} {s t : MClient τ}

/-- The session at position `k` has reached `SESSION_CONNECTED`. -/
def HasConnected (k : Nat) (s : MClient τ) : Prop :=
  ∃ session, s.listener.session? k = some session ∧ session.status.hasConnected = true

def ParentPc.waited : ParentPc → Bool
  | .start | .join _ | .closing _ => true
  | _ => false

/-- The parent's wait does not read the status `SESSION_ADDR_RES`. -/
def WaitPastAddrRes (s : MClient τ) : MLabel ι → Prop
  | .parent => s.parent = .wait → (s.listener.session? 0).map (·.status) ≠ some .addrRes
  | _ => True

instance (s : MClient τ) (l : MLabel ι) : Decidable (WaitPastAddrRes s l) := by
  cases l <;> unfold WaitPastAddrRes <;> infer_instance

/-- A thread never takes its session back before `SESSION_CONNECTED`. -/
def KeepsConnected (p : MClientProg τ ι) : Prop :=
  ∀ session c io r, p.thread.step session c io = some r → session.status.hasConnected = true →
    r.1.status.hasConnected = true

theorem sendConnStep_connected {err : Int} {session : Session} {c : SendConn} {io : ThreadIo}
    {r : Session × SendConn} (hr : sendConnStep err session c io = some r)
    (h : session.status.hasConnected = true) : r.1.status.hasConnected = true := by
  cases sendConnStep_cases hr with
  | connectFails | sendFails | sends => exact h
  | connects | finishes => rfl

theorem udpConnStep_connected {session : Session} {c : UdpConn} {io : ThreadIo}
    {r : Session × UdpConn} (hr : udpConnStep session c io = some r)
    (h : session.status.hasConnected = true) : r.1.status.hasConnected = true := by
  cases udpConnStep_cases hr with
  | connectFails | sendFails | sends => exact h
  | connects | finishes => rfl

theorem utpConnStep_connected {session : Session} {c : UtpConn} {io : UtpIo}
    {r : Session × UtpConn} (hr : utpConnStep session c io = some r)
    (h : session.status.hasConnected = true) : r.1.status.hasConnected = true := by
  cases io <;> simp only [utpConnStep] at hr
  case connect =>
    split at hr <;> cases hr
    rfl
  case send rc state =>
    split at hr
    · split at hr
      · cases hr
        exact h
      · cases state <;> cases hr <;> first | exact h | rfl
    · cases hr
  case finish =>
    split at hr <;> cases hr
    rfl

theorem mClient_keepsConnected (k : MKind) : KeepsConnected (mClient k) := by
  cases k <;> intro session c io r hr
  · exact sendConnStep_connected hr
  · exact sendConnStep_connected hr
  · exact udpConnStep_connected hr
  · exact utpConnStep_connected hr

/-- A session that has connected stays so in every step of the system. -/
theorem HasConnected.step (hp : p.Regular) (hk : KeepsConnected p) {k : Nat}
    (hs : HasConnected k s) {l : MLabel ι} (h : p.step s l = some t) : HasConnected k t := by
  obtain ⟨session, hsession, hst⟩ := hs
  rcases step_cases hp h with ⟨-, hq⟩ | ⟨x, _, sockD, -, ha⟩ | ⟨j, io, session', c, r, -, hm⟩ |
    ⟨q, -, rfl⟩
  · exact ⟨session, by simpa only [Listener.session?, hq.sessionList] using hsession, hst⟩
  · refine ⟨session, ?_, hst⟩
    simp only [Listener.session?, ha.sessions] at hsession ⊢
    rwa [List.getElem?_append_left (List.getElem?_eq_some_iff.mp hsession).1]
  · rw [hm.eq]
    by_cases hjk : j = k
    · subst hjk
      refine ⟨r.1, ?_, ?_⟩
      · rw [Listener.session?_setSession, if_pos rfl, hm.session_eq]
        rfl
      · have heq : session = session' := Option.some.inj (hsession.symm.trans hm.session_eq)
        exact hk session' c io r hm.step (heq ▸ hst)
    · refine ⟨session, ?_, hst⟩
      rw [Listener.session?_setSession, if_neg hjk]
      exact hsession
  · refine ⟨mStatsSession (q k) session, ?_, by simpa using hst⟩
    rw [tbSetMStats_session?, hsession]
    rfl

/-- Neither does the parent leave its wait nor does the status become `TB_CONNECTED`, except at the
wait's own test. -/
theorem step_waited (hp : p.Regular) {l : MLabel ι} (h : p.step s l = some t)
    (hw : s.parent.waited = false) (hst : s.listener.status ≠ .connected) :
    (t.parent.waited = false ∧ t.listener.status ≠ .connected) ∨
      (l = .parent ∧ s.parent = .wait ∧
        ∃ first, s.listener.session? 0 = some first ∧ first.status ≠ .created ∧
          t = { s with parent := .start }) := by
  cases l with
  | setup ok =>
    obtain ⟨-, rfl⟩ := setupStep_cases h
    exact .inl ⟨by cases ok <;> rfl, hst⟩
  | create resolved sockD =>
    left
    rcases createStep_cases hp h with ⟨x, ha, -⟩ | ⟨x, -, -, rfl⟩
    · refine ⟨?_, ?_⟩
      · rw [ha.parent']
        split <;> rfl
      · rw [ha.listener]
        exact hst
    · exact ⟨rfl, by simp [tbAbort]⟩
  | parent =>
    cases parentStep_moves h with
    | waits => exact .inl ⟨hw, hst⟩
    | starts hpc hfirst hne => exact .inr ⟨rfl, hpc, _, hfirst, hne, rfl⟩
    | connects hpc | joins hpc | leaves hpc | closes hpc => simp [hpc, ParentPc.waited] at hw
  | eot r ack =>
    obtain ⟨ops, hpc, -⟩ := eotStep_cases h
    simp [hpc, ParentPc.waited] at hw
  | thread k io =>
    obtain ⟨session, c, r, hm⟩ := threadStep_moved h
    rw [hm.eq]
    exact .inl ⟨hw, hst⟩
  | tick q =>
    cases h
    exact .inl ⟨hw, hst⟩

/-- A status that is past the two of a new session has reached `SESSION_CONNECTED`. -/
theorem hasConnected_of_ne {st : SessionStatus} (h : st ≠ .created) (h' : st ≠ .addrRes) :
    st.hasConnected = true := by
  cases st <;> first | rfl | contradiction

/-- **The connected status is truthful where the wait works.** In every run of a multi-connection
client in which no test of the parent's wait reads `SESSION_ADDR_RES`, the listener's status is
`TB_CONNECTED` only if the first session has reached `SESSION_CONNECTED`. -/
theorem connected_status_truthful (k : MKind) (protocol : Protocol) (bufsize fileSize sockD : Int)
    (data : Option (List UInt8)) (ls : List (MLabel k.Io)) (s : MClient k.Locals)
    (hrun : run (mClient k).step
      ((mClient k).init (mClientListener protocol bufsize fileSize sockD data)) ls = some s)
    (hwait : Meets (mClient k).step WaitPastAddrRes
      ((mClient k).init (mClientListener protocol bufsize fileSize sockD data)) ls) :
    s.listener.status = .connected → HasConnected 0 s := by
  have hp := mClient_regular k
  have hkeep := mClient_keepsConnected k
  have hinv : (s.parent.waited = false ∧ s.listener.status ≠ .connected) ∨ HasConnected 0 s := by
    refine run_invariant_of_meets
      (I := fun s => (s.parent.waited = false ∧ s.listener.status ≠ .connected) ∨ HasConnected 0 s)
      (.inl ?_) ?_ hwait hrun
    · refine ⟨?_, by simp [MClientProg.init, mClientListener, tbCreateListener]⟩
      unfold MClientProg.init
      dsimp only
      split <;> rfl
    · intro s l t hs hG ht
      rcases hs with ⟨hw, hst⟩ | hconn
      · rcases step_waited hp ht hw hst with h | ⟨rfl, hpc, first, hfirst, hne, rfl⟩
        · exact .inl h
        · -- the test that ends the wait
          have hne' := hG hpc
          rw [hfirst] at hne'
          exact .inr ⟨first, hfirst, hasConnected_of_ne hne (by simpa using hne')⟩
      · exact .inr (hconn.step hp hkeep ht)
  intro hst
  rcases hinv with ⟨-, hne⟩ | h
  · exact absurd hst hne
  · exact h

/-- The first session's thread connects before the parent tests its status. -/
def connectFirstRun : List (MLabel ThreadIo) :=
  List.replicate 4 (.create true 5) ++ [.thread 0 (.connect 0), .parent, .parent]

theorem connected_status_truthful_connect_first :
    ∃ s, run tbStreamMClient.step
        (tbStreamMClient.init (mClientListener .tcp 1408 1024 3 none)) connectFirstRun = some s ∧
      s.listener.status = .connected ∧ HasConnected 0 s :=
  ⟨_, rfl, rfl, connected_status_truthful .stream .tcp 1408 1024 3 none connectFirstRun _ rfl
    (by decide) rfl⟩

/-- The parent tests the status of the first session before the session's thread has run. -/
theorem connected_before_connect :
    ∃ s, run tbStreamMClient.step
        (tbStreamMClient.init (mClientListener .tcp 1408 1024 3 none))
        (List.replicate 4 (.create true 5) ++ [.parent, .parent]) = some s ∧
      s.listener.status = .connected ∧ s.listener.transferTime.started = true ∧
      ¬ ∃ first, s.listener.session? 0 = some first ∧ first.status.hasConnected = true :=
  ⟨_, rfl, rfl, rfl, by decide⟩

end TestBed
