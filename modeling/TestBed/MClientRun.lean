import TestBed.MClient

/-!
# Runs of a multi-connection client

What one step of the system can do to the sessions and their threads is said once, in `step_cases`:
the parent adds one session with its thread, one thread moves, the monitor renews the statistics, or
nothing about the connections changes. From it follow the shape of every reachable state (`Shape`)
and the rule for invariants of single connections (`ConnInvariant`): what holds of a new session and
is preserved by the steps of its own thread and by the monitor holds of it in every reachable state.
-/

namespace TestBed

open CInt Transition

variable {τ ι : Type}

def MLabel.byParent : MLabel ι → Bool
  | .thread .. | .tick _ => false
  | _ => true

structure Listener.SameData (l l' : Listener) : Prop where
  fileSize : l'.fileSize = l.fileSize
  bufsize : l'.bufsize = l.bufsize
  data : l'.data = l.data

namespace Listener

theorem SameData.refl (l : Listener) : l.SameData l := ⟨rfl, rfl, rfl⟩

theorem SameData.trans {l l' l'' : Listener} (h : l.SameData l') (h' : l'.SameData l'') :
    l.SameData l'' :=
  ⟨h'.fileSize.trans h.fileSize, h'.bufsize.trans h.bufsize, h'.data.trans h.data⟩

@[simp] theorem setSession_sessions (l : Listener) (k : Nat) (s : Session) :
    (l.setSession k s).sessionList.sessions = l.sessionList.sessions.set k s := rfl

theorem session?_setSession (l : Listener) (k i : Nat) (s : Session) :
    (l.setSession k s).session? i =
      if k = i then (l.session? k).map (fun _ => s) else l.session? i := by
  simp only [session?, setSession_sessions, List.getElem?_set']
  split
  · next h =>
    subst h
    rfl
  · rfl

end Listener

namespace MClientProg

variable {p : MClientProg τ ι} {s t : MClient τ}

/-- The session that iteration `x` of the parent's loop adds to the list. -/
def addedSession (p : MClientProg τ ι) (l : Listener) (x : Nat) (sockD : Int) : Session :=
  let session : Session := { tbCreateSession with status := .addrRes }
  let session := if p.ownSocket then { session with sockD := sockD } else session
  { p.newSession l x session with id := l.sessionList.currentMaxId + 1 }

@[simp] theorem addedSession_totalBytes (l : Listener) (x : Nat) (sockD : Int) :
    (p.addedSession l x sockD).totalBytes = 0 := by
  unfold addedSession newSession
  dsimp only
  split <;> rfl

/-- What the parents have in common: some sessions are created, and each is added at the end of the
list. -/
structure Regular (p : MClientProg τ ι) : Prop where
  numConn_pos : 0 < p.numConn
  add_sessions : ∀ list s, (p.add list s).sessions =
    list.sessions ++ [{ s with id := list.currentMaxId + 1 }]

/-- A step that leaves the connections alone. -/
structure Quiet (s t : MClient τ) : Prop where
  sessionList : t.listener.sessionList = s.listener.sessionList
  threads : t.threads = s.threads
  totalTxRx : t.listener.totalTxRx = s.listener.totalTxRx
  sameData : s.listener.SameData t.listener

/-- Iteration `x` of the parent's loop has added a session and its thread. -/
structure Added (p : MClientProg τ ι) (x : Nat) (sockD : Int) (s t : MClient τ) : Prop where
  parent : s.parent = .create x
  parent' : t.parent = if x + 1 < p.numConn then .create (x + 1) else .wait
  sessions : t.listener.sessionList.sessions =
    s.listener.sessionList.sessions ++ [p.addedSession s.listener x sockD]
  threads : t.threads = s.threads ++ [p.thread.start]
  listener : t.listener = { s.listener with sessionList := t.listener.sessionList }

/-- Thread `k` has taken the step `io`. -/
structure Moved (p : MClientProg τ ι) (k : Nat) (io : ι) (s t : MClient τ) (session : Session)
    (c : τ) (r : Session × τ) : Prop where
  session_eq : s.listener.session? k = some session
  thread_eq : s.threads[k]? = some c
  valid : p.thread.valid io = true
  step : p.thread.step session c io = some r
  eq : t = { s with listener := s.listener.setSession k r.1, threads := s.threads.set k r.2 }

theorem setupStep_cases {ok : Bool} (h : setupStep s ok = some t) :
    s.parent = .setup ∧ t = { s with parent := if ok then .create 0 else .failed } := by
  unfold setupStep at h
  split at h
  · next hpc =>
    cases h
    exact ⟨hpc, rfl⟩
  · cases h

theorem setupStep_quiet {ok : Bool} (h : setupStep s ok = some t) : Quiet s t := by
  obtain ⟨-, rfl⟩ := setupStep_cases h
  exact ⟨rfl, rfl, rfl, .refl _⟩

theorem createStep_cases (hp : p.Regular) {resolved : Bool} {sockD : Int}
    (h : p.createStep s resolved sockD = some t) :
    (∃ x, p.Added x sockD s t ∧
        (tbCreateSessionFull (p.sockType s.listener.protId) resolved).isSome = true ∧
        ¬ (p.ownSocket = true ∧ sockD = -1)) ∨
      ∃ x, s.parent = .create x ∧
        (tbCreateSessionFull (p.sockType s.listener.protId) resolved = none ∨
          p.ownSocket = true ∧ sockD = -1) ∧
        t = { s with listener := tbAbort s.listener, parent := .aborted } := by
  unfold createStep at h
  split at h
  · next x hx =>
    split at h
    · next hnone =>
      cases h
      exact .inr ⟨x, hx, .inl hnone, rfl⟩
    · next session hfull =>
      split at h
      · next hsock =>
        cases h
        exact .inr ⟨x, hx, .inr hsock, rfl⟩
      · next hsock =>
        cases h
        refine .inl ⟨x, ?_, by rw [hfull]; rfl, hsock⟩
        obtain rfl := tbCreateSessionFull_eq_some hfull
        exact ⟨hx, rfl, hp.add_sessions _ _, rfl, rfl⟩
  · cases h

theorem closeStep_frame {l l' : Listener} {op : CloseOp} (h : closeStep l op = some l') :
    l'.sockD = l.sockD ∧ l'.sessionList = l.sessionList ∧ l'.totalTxRx = l.totalTxRx ∧
      l.SameData l' := by
  cases op <;> simp only [closeStep] at h
  case lock => split at h <;> cases h; exact ⟨rfl, rfl, rfl, rfl, rfl, rfl⟩
  case closeConn => split at h <;> cases h; exact ⟨rfl, rfl, rfl, rfl, rfl, rfl⟩
  all_goals cases h; exact ⟨rfl, rfl, rfl, rfl, rfl, rfl⟩

/-- What a step of the parent does. -/
inductive ParentMoves (p : MClientProg τ ι) (s : MClient τ) : MClient τ → Prop
  | waits {first : Session} (hpc : s.parent = .wait)
    (hfirst : s.listener.session? 0 = some first) (hst : first.status = .created) :
    ParentMoves p s s
  | starts {first : Session} (hpc : s.parent = .wait)
    (hfirst : s.listener.session? 0 = some first) (hst : first.status ≠ .created) :
    ParentMoves p s { s with parent := .start }
  | connects (hpc : s.parent = .start) :
    ParentMoves p s { s with
      listener := { s.listener with
        transferTime :=
          if p.timed then tbStartTime s.listener.transferTime else s.listener.transferTime
        status := .connected }
      parent := .join 0 }
  | joins {k : Nat} {c : τ} (hpc : s.parent = .join k) (hc : s.threads[k]? = some c)
    (hret : (p.thread.retval c).isSome = true) :
    ParentMoves p s { s with parent := .join (k + 1) }
  | leaves {k : Nat} (hpc : s.parent = .join k) (hnone : s.threads[k]? = none) :
    ParentMoves p s { s with parent := .closing p.closing }
  | closes {op : CloseOp} {ops : List CloseOp} {l : Listener}
    (hpc : s.parent = .closing (op :: ops)) (hl : closeStep s.listener op = some l) :
    ParentMoves p s { s with listener := l, parent := .closing ops }

theorem parentStep_moves (h : p.parentStep s = some t) : ParentMoves p s t := by
  unfold parentStep at h
  split at h
  · next hpc =>
    split at h
    · cases h
    · next first hfirst =>
      cases h
      split
      · next hst => exact .waits hpc hfirst hst
      · next hst => exact .starts hpc hfirst hst
  · next hpc =>
    cases h
    exact .connects hpc
  · next k hpc =>
    split at h
    · next hnone =>
      cases h
      exact .leaves hpc hnone
    · next c hc =>
      split at h <;> cases h
      next hret => exact .joins hpc hc hret
  · next op ops hpc =>
    obtain ⟨l, hl, rfl⟩ := Option.map_eq_some_iff.mp h
    exact .closes hpc hl
  · cases h

theorem parentStep_quiet (h : p.parentStep s = some t) : Quiet s t := by
  cases parentStep_moves h with
  | waits | starts | joins | leaves => exact ⟨rfl, rfl, rfl, .refl _⟩
  | connects => exact ⟨rfl, rfl, rfl, rfl, rfl, rfl⟩
  | closes _ hl =>
    obtain ⟨-, hlist, htotal, hsame⟩ := closeStep_frame hl
    exact ⟨hlist, rfl, htotal, hsame⟩

/-- The empty message fails, is acknowledged, or is sent once more. -/
theorem eotStep_cases {r : EotSend} {ack : Bool} (h : eotStep s r ack = some t) :
    ∃ ops, s.parent = .closing (.closeConn :: ops) ∧ s.listener.command ≠ .tbExit ∧
      (r = .error ∧ t = { s with parent := .closing ops } ∨
        r ≠ .error ∧ ack = true ∧
          t = { s with listener := { s.listener with command := .tbExit } } ∨
        r ≠ .error ∧ ack = false ∧ t = s) := by
  unfold eotStep at h
  split at h
  · next ops hpc =>
    refine ⟨ops, hpc, ?_⟩
    split at h
    · cases h
    · next hcmd =>
      refine ⟨hcmd, ?_⟩
      split at h
      · next hr =>
        cases h
        exact .inl ⟨hr, rfl⟩
      · next hr =>
        cases ack with
        | true =>
          cases h
          exact .inr (.inl ⟨hr, rfl, rfl⟩)
        | false =>
          cases h
          exact .inr (.inr ⟨hr, rfl, rfl⟩)
  · cases h

theorem eotStep_quiet {r : EotSend} {ack : Bool} (h : eotStep s r ack = some t) : Quiet s t := by
  obtain ⟨ops, -, -, ⟨-, rfl⟩ | ⟨-, -, rfl⟩ | ⟨-, -, rfl⟩⟩ := eotStep_cases h
  · exact ⟨rfl, rfl, rfl, .refl _⟩
  · exact ⟨rfl, rfl, rfl, rfl, rfl, rfl⟩
  · exact ⟨rfl, rfl, rfl, .refl _⟩

theorem threadStep_moved {k : Nat} {io : ι} (h : p.threadStep s k io = some t) :
    ∃ session c r, p.Moved k io s t session c r := by
  unfold threadStep at h
  split at h
  · next session c hs hc =>
    split at h
    · next hv =>
      obtain ⟨r, hr, rfl⟩ := Option.map_eq_some_iff.mp h
      exact ⟨session, c, r, hs, hc, hv, hr, rfl⟩
    · cases h
  · cases h

/-- **What a step does to the connections.** -/
theorem step_cases (hp : p.Regular) {l : MLabel ι} (h : p.step s l = some t) :
    (l.byParent = true ∧ Quiet s t) ∨
      (∃ x resolved sockD, l = .create resolved sockD ∧ p.Added x sockD s t) ∨
      (∃ k io session c r, l = .thread k io ∧ p.Moved k io s t session c r) ∨
      ∃ q, l = .tick q ∧ t = { s with listener := tbSetMStats q s.listener } := by
  cases l with
  | setup ok => exact .inl ⟨rfl, setupStep_quiet h⟩
  | create resolved sockD =>
    rcases createStep_cases hp h with ⟨x, hx, -⟩ | ⟨x, -, -, rfl⟩
    · exact .inr (.inl ⟨x, resolved, sockD, rfl, hx⟩)
    · exact .inl ⟨rfl, rfl, rfl, rfl, rfl, rfl, rfl⟩
  | parent => exact .inl ⟨rfl, parentStep_quiet h⟩
  | eot r ack => exact .inl ⟨rfl, eotStep_quiet h⟩
  | thread k io =>
    obtain ⟨session, c, r, hm⟩ := threadStep_moved h
    exact .inr (.inr (.inl ⟨k, io, session, c, r, rfl, hm⟩))
  | tick q => exact .inr (.inr (.inr ⟨q, rfl, (Option.some.inj h).symm⟩))

/-! ## The shape of the reachable states -/

/-- The facts that every reachable state keeps: the listener's file, one thread for each session, and
as many sessions as the parent's program point says. -/
structure Shape (p : MClientProg τ ι) (l₀ : Listener) (s : MClient τ) : Prop where
  sameData : l₀.SameData s.listener
  length : s.threads.length = s.listener.sessionList.sessions.length
  create : ∀ x, s.parent = .create x →
    s.listener.sessionList.sessions.length = x ∧ x < p.numConn
  setup : s.parent = .setup → s.listener.sessionList.sessions = []
  full : s.parent.allCreated = true → s.listener.sessionList.sessions.length = p.numConn

theorem parentStep_allCreated (h : p.parentStep s = some t) :
    s.parent.allCreated = true ∧ t.parent.allCreated = true := by
  cases parentStep_moves h with
  | waits hpc | starts hpc | connects hpc | joins hpc | leaves hpc | closes hpc =>
    simp [hpc, ParentPc.allCreated]

theorem eotStep_allCreated {r : EotSend} {ack : Bool} (h : eotStep s r ack = some t) :
    s.parent.allCreated = true ∧ t.parent.allCreated = true := by
  obtain ⟨ops, hpc, -, ⟨-, rfl⟩ | ⟨-, -, rfl⟩ | ⟨-, -, rfl⟩⟩ := eotStep_cases h <;>
    simp [hpc, ParentPc.allCreated]

/-- A quiet step that stays among the phases after the creation keeps the shape. -/
theorem Shape.of_quiet {l₀ : Listener} (hs : Shape p l₀ s) (hq : Quiet s t)
    (hpc : s.parent.allCreated = true ∧ t.parent.allCreated = true) : Shape p l₀ t := by
  obtain ⟨hp, hp'⟩ := hpc
  refine ⟨hs.sameData.trans hq.sameData, ?_, ?_, ?_, ?_⟩
  · rw [hq.threads, hq.sessionList]
    exact hs.length
  · intro x hx
    simp [hx, ParentPc.allCreated] at hp'
  · intro hset
    simp [hset, ParentPc.allCreated] at hp'
  · intro _
    rw [hq.sessionList]
    exact hs.full hp

theorem Shape.of_contents {l₀ : Listener} (hs : Shape p l₀ s)
    (hsame : s.listener.SameData t.listener) (hth : t.threads.length = s.threads.length)
    (hlen : t.listener.sessionList.sessions.length = s.listener.sessionList.sessions.length)
    (hpc : t.parent = s.parent) : Shape p l₀ t := by
  refine ⟨hs.sameData.trans hsame, ?_, ?_, ?_, ?_⟩
  · rw [hth, hlen, hs.length]
  · rw [hpc, hlen]
    exact hs.create
  · rw [hpc, ← List.length_eq_zero_iff, hlen]
    exact fun h => List.length_eq_zero_iff.mpr (hs.setup h)
  · rw [hpc, hlen]
    exact hs.full

theorem Shape.init (hp : p.Regular) {l₀ : Listener} (h₀ : l₀.sessionList.sessions = []) :
    Shape p l₀ (p.init l₀) := by
  refine ⟨.refl _, ?_, ?_, fun _ => h₀, ?_⟩
  · simp [MClientProg.init, h₀]
  · intro x hx
    unfold MClientProg.init at hx ⊢
    dsimp only at hx ⊢
    split at hx <;> cases hx
    exact ⟨by rw [h₀]; rfl, hp.numConn_pos⟩
  · unfold MClientProg.init
    dsimp only
    split <;> intro h <;> simp [ParentPc.allCreated] at h

theorem Shape.of_added {l₀ : Listener} (hs : Shape p l₀ s) {x : Nat} {sockD : Int}
    (ha : p.Added x sockD s t) : Shape p l₀ t := by
  obtain ⟨hlen, hx⟩ := hs.create x ha.parent
  have hlen' : t.listener.sessionList.sessions.length = x + 1 := by
    rw [ha.sessions, List.length_append, hlen, List.length_singleton]
  refine ⟨?_, ?_, ?_, ?_, ?_⟩
  · refine hs.sameData.trans ?_
    rw [ha.listener]
    exact ⟨rfl, rfl, rfl⟩
  · rw [ha.threads, List.length_append, hs.length, hlen, hlen', List.length_singleton]
  · intro y hy
    rw [ha.parent'] at hy
    split at hy <;> cases hy
    exact ⟨hlen', by assumption⟩
  · intro hset
    rw [ha.parent'] at hset
    split at hset <;> cases hset
  · intro hall
    rw [ha.parent'] at hall
    split at hall
    · simp [ParentPc.allCreated] at hall
    · omega

theorem Shape.step (hp : p.Regular) {l₀ : Listener} {l : MLabel ι} (hs : Shape p l₀ s)
    (h : p.step s l = some t) : Shape p l₀ t := by
  cases l with
  | setup ok =>
    obtain ⟨hset, rfl⟩ := setupStep_cases h
    have hnil := hs.setup hset
    cases ok with
    | false =>
      exact ⟨hs.sameData, hs.length, by simp, fun _ => hnil, by simp [ParentPc.allCreated]⟩
    | true =>
      refine ⟨hs.sameData, hs.length, ?_, fun _ => hnil, by simp [ParentPc.allCreated]⟩
      intro x hx
      cases hx
      exact ⟨by rw [hnil]; rfl, hp.numConn_pos⟩
  | create resolved sockD =>
    rcases createStep_cases hp h with ⟨x, hx, -⟩ | ⟨x, -, -, rfl⟩
    · exact hs.of_added hx
    · exact ⟨hs.sameData.trans ⟨rfl, rfl, rfl⟩, hs.length, by simp, by simp,
        by simp [ParentPc.allCreated]⟩
  | parent => exact hs.of_quiet (parentStep_quiet h) (parentStep_allCreated h)
  | eot r ack => exact hs.of_quiet (eotStep_quiet h) (eotStep_allCreated h)
  | thread k io =>
    obtain ⟨session, c, r, hm⟩ := threadStep_moved h
    rw [hm.eq]
    exact hs.of_contents ⟨rfl, rfl, rfl⟩ (by simp) (by simp) rfl
  | tick q =>
    cases h
    exact hs.of_contents ⟨rfl, rfl, rfl⟩ rfl (by simp) rfl

theorem run_shape (hp : p.Regular) {l₀ : Listener} (h₀ : l₀.sessionList.sessions = [])
    {ls : List (MLabel ι)} (h : run p.step (p.init l₀) ls = some s) : Shape p l₀ s :=
  run_invariant (Shape.init hp h₀) (fun _ _ _ hs ht => hs.step hp ht) h

/-! ## Invariants of single connections -/

/-- `I` holds of every session and its thread. -/
def EachConn (I : Nat → Session → τ → Prop) (s : MClient τ) : Prop :=
  ∀ k session c, s.listener.session? k = some session → s.threads[k]? = some c → I k session c

/-- An invariant of single connections: it holds of a new session, and the steps of the session's own
thread and of the monitor preserve it. -/
structure ConnInvariant (p : MClientProg τ ι) (l₀ : Listener) (I : Nat → Session → τ → Prop) :
    Prop where
  added : ∀ l x sockD, l₀.SameData l → x < p.numConn →
    I x (p.addedSession l x sockD) p.thread.start
  thread : ∀ k session c io r, I k session c → p.thread.valid io = true →
    p.thread.step session c io = some r → I k r.1 r.2
  tick : ∀ k q session c, I k session c → I k (mStatsSession q session) c

theorem ConnInvariant.step {l₀ : Listener} {I : Nat → Session → τ → Prop}
    (hI : ConnInvariant p l₀ I) (hp : p.Regular) (hsh : Shape p l₀ s) (hs : EachConn I s)
    {l : MLabel ι} (h : p.step s l = some t) : EachConn I t := by
  rcases step_cases hp h with ⟨-, hq⟩ | ⟨x, _, sockD, -, ha⟩ | ⟨j, io, session, c, r, -, hm⟩ |
    ⟨q, -, rfl⟩
  · intro k session c hk hc
    rw [hq.threads] at hc
    simp only [Listener.session?, hq.sessionList] at hk
    exact hs k session c hk hc
  · intro k session c hk hc
    obtain ⟨hlen, hx⟩ := hsh.create x ha.parent
    have hlength := hsh.length
    simp only [Listener.session?, ha.sessions, getElem?_concat_eq_some] at hk
    rw [ha.threads, getElem?_concat_eq_some] at hc
    rcases hk with hk | ⟨rfl, rfl⟩
    · have hlt := (List.getElem?_eq_some_iff.mp hk).1
      rcases hc with hc | ⟨rfl, -⟩
      · exact hs k session c hk hc
      · omega
    · rcases hc with hc | ⟨-, rfl⟩
      · have hlt := (List.getElem?_eq_some_iff.mp hc).1
        omega
      · -- the new session is the one at position `x`
        rw [hlen]
        exact hI.added _ _ _ hsh.sameData hx
  · intro k session' c' hk hc
    rw [hm.eq] at hk hc
    simp only [Listener.session?_setSession, List.getElem?_set'] at hk hc
    by_cases hjk : j = k
    · subst hjk
      rw [if_pos rfl, hm.session_eq] at hk
      rw [if_pos rfl, hm.thread_eq] at hc
      cases hk
      cases hc
      exact hI.thread j session c io r (hs j session c hm.session_eq hm.thread_eq) hm.valid hm.step
    · rw [if_neg hjk] at hk hc
      exact hs k session' c' hk hc
  · intro k session c hk hc
    rw [tbSetMStats_session?] at hk
    obtain ⟨session', hk', rfl⟩ := Option.map_eq_some_iff.mp hk
    exact hI.tick k (q k) session' c (hs k session' c hk' hc)

/-- **Invariants of connections** hold of every connection in every reachable state. -/
theorem ConnInvariant.run {l₀ : Listener} {I : Nat → Session → τ → Prop}
    (hI : ConnInvariant p l₀ I) (hp : p.Regular) (h₀ : l₀.sessionList.sessions = [])
    {ls : List (MLabel ι)} (h : run p.step (p.init l₀) ls = some s) :
    Shape p l₀ s ∧ EachConn I s := by
  refine ⟨run_shape hp h₀ h, ?_⟩
  refine run_induction (P := fun _ s => EachConn I s) ?_ ?_ h
  · intro k session c hk
    simp [MClientProg.init, Listener.session?, h₀] at hk
  · intro ls s l t hr hs ht
    exact hI.step hp (run_shape hp h₀ hr) hs ht

end MClientProg

theorem mClient_regular (k : MKind) : (mClient k).Regular := by
  cases k <;> exact ⟨by decide, fun _ _ => rfl⟩

end TestBed
