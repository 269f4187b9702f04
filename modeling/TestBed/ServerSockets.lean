import TestBed.MServer
import TestBed.Lib.Descriptor

/-!
# The descriptors of a multi-connection server

The calls that a step of `MServerProg` makes on descriptors, and who has to close what (`MServer.own`):
the main thread the listener's socket, and every session thread the socket of its connection, for as
long as it is active. The session of a thread that is not active is not connected, so the sockets of
connected sessions are open (`ServerSockets`).
-/

namespace TestBed

open Transition Descriptor

/-! ## The sockets of the sessions -/

/-- The descriptors of the sessions and their statuses. -/
def Listener.socks (l : Listener) : List (Int × SessionStatus) :=
  l.sessionList.sessions.map fun s => (s.sockD, s.status)

theorem Listener.socks_getElem? (l : Listener) (k : Nat) :
    l.socks[k]? = (l.session? k).map fun s => (s.sockD, s.status) := by
  simp [socks, session?]

theorem Listener.socks_setSession (l : Listener) (k : Nat) (s : Session) :
    (l.setSession k s).socks = l.socks.set k (s.sockD, s.status) := by
  simp [socks, setSession, List.map_set]

theorem set_self {α : Type} {xs : List α} {k : Nat} {x : α} (h : xs[k]? = some x) :
    xs.set k x = xs := by
  obtain ⟨hk, rfl⟩ := List.getElem?_eq_some_iff.mp h
  exact List.set_getElem_self hk

/-- A session that keeps its socket is put back. -/
theorem map_fst_set {xs : List (Int × SessionStatus)} {k : Nat} {x y : Int × SessionStatus}
    (h : xs[k]? = some x) (hy : y.1 = x.1) : (xs.set k y).map (·.1) = xs.map (·.1) := by
  rw [List.map_set]
  exact set_self (by simp [h, hy])

theorem tbSetMStats_socks (q : Nat → StatsQuery) (l : Listener) :
    (tbSetMStats q l).socks = l.socks := by
  apply List.ext_getElem?
  intro k
  rw [Listener.socks_getElem?, Listener.socks_getElem?, tbSetMStats_session?, Option.map_map]
  congr 1
  funext s
  simp

/-- What `tb_abort` closes. -/
def Listener.abortCalls (l : Listener) : List Event :=
  if l.sockD = -1 then [] else [.closed l.sockD]

/-- A listener that is handed to its endpoint's function: it has its socket and no sessions. -/
structure Listener.Ready (l : Listener) : Prop where
  sock : 0 ≤ l.sockD
  sessions : l.sessionList.sessions = []

/-- What the monitor queries is open: a session with the status `SESSION_CONNECTED` has the descriptor
that was handed out for it, and it was not closed. The first descriptor of the trace is the
listener's. -/
def SessionsLive (l : Listener) (t : List Event) : Prop :=
  ∀ k s, l.session? k = some s → s.status = .connected →
    (opens t)[k + 1]? = some s.sockD ∧ stateOf t s.sockD = .live

/-! ## Calls -/

namespace MServerProg

variable (p : MServerProg)

/-- The session thread closes its socket in the step. -/
def closes : ServeAct → Bool
  | .recv (.error code) => !p.endCode code
  | .countOut => true
  | _ => false

/-- The calls on descriptors that a step makes. -/
def calls (s : MServer) : SLabel → List Event
  | .setup ok => if ok then [] else s.listener.abortCalls
  | .accept v optionOk =>
    if v = -1 then []
    else .opened v :: if p.checksOption ∧ optionOk = false then s.listener.abortCalls else []
  | .close => [.closed s.listener.sockD]
  | .conn k act =>
    match s.listener.session? k with
    | some session => if p.closes act then [.closed session.sockD] else []
    | none => []
  | .test | .poll _ | .tick _ => []

/-- The server with the trace of its calls. -/
def traced : Traced MServer → SLabel → Option (Traced MServer) := tracedStep p.step p.calls

/-- The server at its start; its listener's socket was handed out. -/
def tracedInit (l : Listener) : Traced MServer := ⟨init l, [.opened l.sockD]⟩

end MServerProg

/-! ## Ownership -/

/-- The main thread has closed the listener's socket. -/
def MainPc.closed : MainPc → Bool
  | .returned | .aborted => true
  | _ => false

def MServer.serving (s : MServer) (k : Nat) : Bool := s.conns[k]?.any (·.active)

/-- What is still to be closed: by the main thread, and by the session threads. -/
def MServer.own (s : MServer) : Option Nat → Option Int
  | none => if s.main.closed then none else some s.listener.sockD
  | some k => if s.serving k then s.listener.socks[k]?.map (·.1) else none

/-- The invariant of a server that started on `l₀`. -/
structure ServerSockets (l₀ : Listener) (s : Traced MServer) : Prop where
  owned : Owned s.trace s.sys.own
  opens : opens s.trace = l₀.sockD :: s.sys.listener.socks.map (·.1)
  length : s.sys.conns.length = s.sys.listener.socks.length
  serves : ∀ k v, s.sys.listener.socks[k]? = some (v, .connected) → s.sys.serving k = true

theorem MServer.serving_eq {s t : MServer} (h : t.conns = s.conns) : t.serving = s.serving := by
  funext k
  rw [serving, serving, h]

namespace ServerSockets

open MServerProg

variable {p : MServerProg} {l₀ : Listener} {s t : MServer} {tr tr' : List Event}

theorem init {l : Listener} (hl : l.Ready) : ServerSockets l (tracedInit l) := by
  have hsocks : l.socks = [] := by simp [Listener.socks, hl.sessions]
  refine ⟨owned_first none fun i v hi => ?_, ?_, ?_, ?_⟩
  · cases i with
    | none => exact ⟨rfl, (Option.some.inj hi).symm⟩
    | some k => cases hi
  · simp [tracedInit, MServerProg.init, Descriptor.opens, hsocks]
  · simp [tracedInit, MServerProg.init, hsocks]
  · simp [tracedInit, MServerProg.init, hsocks]

/-- A step that changes no socket and no session thread. -/
theorem of_idle (hs : ServerSockets l₀ ⟨s, tr⟩) (hmain : t.main.closed = s.main.closed)
    (hsock : t.listener.sockD = s.listener.sockD) (hsocks : t.listener.socks = s.listener.socks)
    (hconns : t.conns = s.conns) : ServerSockets l₀ ⟨t, tr⟩ := by
  have hserving := MServer.serving_eq hconns
  have hown : t.own = s.own := by
    funext i
    cases i with
    | none => simp only [MServer.own, hmain, hsock]
    | some k => simp only [MServer.own, hserving, hsocks]
  obtain ⟨howned, hopens, hlength, hserves⟩ := hs
  refine ⟨?_, ?_, ?_, ?_⟩
  · rw [hown]
    exact howned
  · rw [hsocks]
    exact hopens
  · rw [hconns, hsocks]
    exact hlength
  · rw [hsocks, hserving]
    exact hserves

/-- The main thread closes the listener's socket. -/
theorem of_mainCloses (hs : ServerSockets l₀ ⟨s, tr⟩) (hmain : s.main.closed = false)
    (hmain' : t.main.closed = true) (hsocks : t.listener.socks = s.listener.socks)
    (hconns : t.conns = s.conns) :
    ServerSockets l₀ ⟨t, .closed s.listener.sockD :: tr⟩ := by
  have hserving := MServer.serving_eq hconns
  refine ⟨?_, ?_, ?_, ?_⟩
  · refine hs.owned.closed (i := none) (by simp [MServer.own, hmain]) ?_
    intro j v hj
    cases j with
    | none => simp [MServer.own, hmain'] at hj
    | some k =>
      refine ⟨Option.some_ne_none k, ?_⟩
      simp only [MServer.own, hserving, hsocks] at hj
      exact hj
  · rw [hsocks]
    exact hs.opens
  · rw [hconns, hsocks]
    exact hs.length
  · rw [hsocks, hserving]
    exact hs.serves

/-- `tb_abort` has been called by the main thread. -/
theorem of_aborts (hs : ServerSockets l₀ ⟨s, tr⟩) (hmain : s.main.closed = false)
    (htr : follow tr s.listener.abortCalls = some tr') :
    ServerSockets l₀ ⟨{ s with listener := tbAbort s.listener, main := .aborted }, tr'⟩ := by
  unfold Listener.abortCalls at htr
  split at htr
  · cases htr
    obtain ⟨howned, hopens, hlength, hserves⟩ := hs
    refine ⟨howned.mono fun j v hj => ?_, hopens, hlength, hserves⟩
    cases j with
    | none => cases hj
    | some k => exact hj
  · cases htr
    exact hs.of_mainCloses hmain rfl rfl rfl

theorem setup {ok : Bool} (hs : ServerSockets l₀ ⟨s, tr⟩) (h : setupStep s ok = some t)
    (htr : follow tr (p.calls s (.setup ok)) = some tr') : ServerSockets l₀ ⟨t, tr'⟩ := by
  unfold setupStep at h
  split at h
  · next hmain =>
    split at h
    · next hok =>
      cases h
      subst hok
      exact hs.of_aborts (by rw [hmain]; rfl) htr
    · next hok =>
      cases h
      rw [Bool.not_eq_false] at hok
      subst hok
      cases htr
      exact hs.of_idle (by rw [hmain]; rfl) rfl rfl rfl
  · cases h

theorem addConn_socks (l : Listener) (v : Int) :
    (addConn l v).socks = l.socks ++ [(v, .created)] ∧ (addConn l v).sockD = l.sockD := by
  unfold addConn
  dsimp only
  split <;> simp [Listener.socks, tbSessionAdd, tbSessionAddTo, tbCreateSession]

theorem serving_concat {pc : ServePc} {k : Nat} (hk : k < s.conns.length) :
    MServer.serving { s with conns := s.conns ++ [pc] } k = s.serving k := by
  rw [MServer.serving, MServer.serving, List.getElem?_append_left hk]

/-- A connection is accepted on the descriptor `v`. -/
theorem of_accepts {v : Int} (hs : ServerSockets l₀ ⟨s, tr⟩) (hv : stateOf tr v ≠ .live) :
    ServerSockets l₀ ⟨{ s with
      listener := addConn s.listener v
      conns := s.conns ++ [.created] }, .opened v :: tr⟩ := by
  obtain ⟨hsocks, hsock⟩ := addConn_socks s.listener v
  have hlength : s.conns.length = s.listener.socks.length := hs.length
  refine ⟨hs.owned.opened hv (some s.conns.length) fun j w hj => ?_, ?_, ?_, fun k w hk => ?_⟩
  · cases j with
    | none =>
      right
      simp only [MServer.own, hsock] at hj
      exact hj
    | some k =>
      simp only [MServer.own] at hj
      split at hj
      · next hserving =>
        obtain ⟨x, hx, rfl⟩ := Option.map_eq_some_iff.mp hj
        rw [hsocks, getElem?_concat_eq_some] at hx
        rcases hx with hx | ⟨rfl, rfl⟩
        · have hlt : k < s.conns.length := hlength ▸ (List.getElem?_eq_some_iff.mp hx).1
          have hold : s.serving k = true := (serving_concat hlt).symm.trans hserving
          exact .inr (by simp [MServer.own, hold, hx])
        · exact .inl ⟨congrArg some hlength.symm, rfl⟩
      · cases hj
  · have hopens : Descriptor.opens tr = _ := hs.opens
    simp [Descriptor.opens, hopens, hsocks]
  · simp [hsocks, hlength]
  · rw [hsocks, getElem?_concat_eq_some] at hk
    rcases hk with hk | ⟨-, heq⟩
    · have hlt : k < s.conns.length := hlength ▸ (List.getElem?_eq_some_iff.mp hk).1
      exact (serving_concat hlt).trans (hs.serves k w hk)
    · cases heq

theorem accept (hp : p.checksOption = false) {v : Int} {optionOk : Bool}
    (hs : ServerSockets l₀ ⟨s, tr⟩) (h : p.acceptStep s v optionOk = some t)
    (htr : follow tr (p.calls s (.accept v optionOk)) = some tr') : ServerSockets l₀ ⟨t, tr'⟩ := by
  unfold acceptStep at h
  simp only [calls] at htr
  split at h
  · next hmain =>
    split at h
    · next hv =>
      rw [if_pos hv] at htr
      cases h
      cases htr
      exact hs.of_idle (by rw [hmain]; rfl) rfl rfl rfl
    · next hv =>
      rw [if_neg hv] at htr
      simp only [hp, Bool.false_eq_true, false_and, if_false] at h htr
      cases h
      obtain ⟨⟨-, hfresh⟩, htr⟩ := follow_opened htr
      cases htr
      exact hs.of_accepts hfresh
  · cases h

/-! ### Session threads -/

/-- What the step of a session thread does to its socket. -/
structure ServesSock (p : MServerProg) (act : ServeAct) (session session' : Session)
    (pc pc' : ServePc) : Prop where
  sock : session'.sockD = session.sockD
  closes : p.closes act = true → pc.active = true ∧ pc'.active = false
  keeps : p.closes act = false → pc'.active = pc.active
  serves : (session.status = .connected → pc.active = true) → session'.status = .connected →
    pc'.active = true

theorem serveStep_sock {l l' : Listener} {session session' : Session} {pc pc' : ServePc}
    {act : ServeAct} (h : p.serveStep l session pc act = some (l', session', pc')) :
    ServesSock p act session session' pc pc' ∧ l'.sockD = l.sockD ∧ l'.socks = l.socks := by
  cases serveStep_moves h with
  | starts => exact ⟨⟨rfl, nofun, fun _ => rfl, fun _ _ => rfl⟩, rfl, rfl⟩
  | @receives n hn =>
    have hactive : (if n = 0 then ServePc.closing else .receiving).active = true := by
      split <;> rfl
    exact ⟨⟨rfl, nofun, fun _ => hactive, fun _ _ => hactive⟩, rfl, rfl⟩
  | ends hcode =>
    refine ⟨⟨rfl, fun hc => ?_, fun _ => rfl, fun _ _ => rfl⟩, rfl, rfl⟩
    simp [closes, hcode] at hc
  | fails hcode =>
    refine ⟨⟨rfl, fun _ => ⟨rfl, rfl⟩, fun hc => ?_, fun _ => nofun⟩, rfl, rfl⟩
    simp [closes, hcode] at hc
  | countsOut =>
    refine ⟨⟨rfl, fun _ => ⟨rfl, ?_⟩, nofun, fun _ => nofun⟩, rfl, rfl⟩
    split <;> rfl
  | leaves =>
    refine ⟨⟨rfl, nofun, fun _ => rfl, fun hs hc => ?_⟩, rfl, rfl⟩
    -- a connected session is served by an active thread
    cases hs hc

/-- Session thread `k` has moved from `pc` to `pc'`. -/
theorem own_conn {k : Nat} {session session' : Session} {pc : ServePc} (pc' : ServePc)
    {l : Listener} (hsession : s.listener.session? k = some session) (hpc : s.conns[k]? = some pc)
    (hsock : session'.sockD = session.sockD) (hl : l.sockD = s.listener.sockD)
    (hsocks : l.socks = s.listener.socks) (i : Option Nat) :
    MServer.own { s with listener := l.setSession k session', conns := s.conns.set k pc' } i =
      if i = some k then (if pc'.active then some session.sockD else none) else s.own i := by
  have hk : s.listener.socks[k]? = some (session.sockD, session.status) := by
    rw [Listener.socks_getElem?, hsession]
    rfl
  cases i with
  | none =>
    have hset : (l.setSession k session').sockD = s.listener.sockD := hl
    simp [MServer.own, hset]
  | some j =>
    simp only [MServer.own, MServer.serving, Listener.socks_setSession, hsocks,
      List.getElem?_set']
    by_cases hjk : k = j
    · subst hjk
      simp [hpc, hk, hsock]
    · have hne : some j ≠ some k := fun heq => hjk (Option.some.inj heq).symm
      rw [if_neg hjk, if_neg hjk, if_neg hne]
      rfl

theorem conn {k : Nat} {act : ServeAct} (hs : ServerSockets l₀ ⟨s, tr⟩)
    (h : p.connStep s k act = some t) (htr : follow tr (p.calls s (.conn k act)) = some tr') :
    ServerSockets l₀ ⟨t, tr'⟩ := by
  unfold connStep at h
  split at h
  · next session pc hsession hpc =>
    obtain ⟨⟨l, session', pc'⟩, hr, rfl⟩ := Option.map_eq_some_iff.mp h
    obtain ⟨hserves, hl, hsocks⟩ := serveStep_sock hr
    have hown := own_conn pc' hsession hpc hserves.sock hl hsocks
    have hlookup : s.listener.socks[k]? = some (session.sockD, session.status) := by
      rw [Listener.socks_getElem?, hsession]
      rfl
    have hk : s.own (some k) = if pc.active then some session.sockD else none := by
      simp [MServer.own, MServer.serving, hpc, hlookup]
    simp only [calls, hsession] at htr
    have howned : Owned tr' (MServer.own
        { s with listener := l.setSession k session', conns := s.conns.set k pc' }) := by
      cases hcloses : p.closes act with
      | true =>
        obtain ⟨hactive, hactive'⟩ := hserves.closes hcloses
        rw [if_pos hcloses] at htr
        cases htr
        refine hs.owned.closed (i := some k) (by rw [hk, if_pos hactive]) fun j v hj => ?_
        rw [hown, hactive'] at hj
        split at hj
        · cases hj
        · next hne => exact ⟨hne, hj⟩
      | false =>
        rw [hcloses] at htr
        cases htr
        refine hs.owned.mono fun j v hj => ?_
        rw [hown] at hj
        split at hj
        · next heq =>
          rw [heq]
          exact hk.trans (hserves.keeps hcloses ▸ hj)
        · exact hj
    have hopens : Descriptor.opens tr' = Descriptor.opens tr := by
      split at htr <;> cases htr <;> rfl
    refine ⟨howned, ?_, ?_, fun j v hj => ?_⟩
    · have hold : Descriptor.opens tr = _ := hs.opens
      have hsame := map_fst_set hlookup (y := (session'.sockD, session'.status)) hserves.sock
      simp only [Listener.socks_setSession, hsocks, hopens, hold, hsame]
    · simp [Listener.socks_setSession, hsocks, hs.length]
    · simp only [Listener.socks_setSession, hsocks, List.getElem?_set'] at hj
      simp only [MServer.serving, List.getElem?_set']
      by_cases hjk : k = j
      · subst hjk
        simp only [if_true, hlookup, Option.map_eq_map, Option.map_some, Option.some.injEq,
          Function.const_apply, Prod.mk.injEq] at hj
        simp only [if_true, hpc, Option.map_eq_map, Option.map_some, Option.any_some]
        refine hserves.serves (fun hst => ?_) hj.2
        have hserving := hs.serves k session.sockD (by rw [hlookup, hst])
        simpa [MServer.serving, hpc] using hserving
      · rw [if_neg hjk] at hj ⊢
        exact hs.serves j v hj
  · cases h

/-! ### Runs -/

/-- **The invariant holds in every reachable state.** -/
theorem run (hp : p.checksOption = false) {l : Listener} (hl : l.Ready) {ls : List SLabel}
    {s : Traced MServer} (h : Transition.run p.traced (tracedInit l) ls = some s) :
    ServerSockets l s := by
  refine run_invariant (init hl) ?_ h
  rintro ⟨s, tr⟩ l ⟨t, tr'⟩ hs hstep
  obtain ⟨hsys, htr⟩ := tracedStep_eq_some.mp hstep
  cases l with
  | setup ok => exact hs.setup hsys htr
  | test =>
    cases htr
    simp only [step, testStep] at hsys
    split at hsys <;> cases hsys
    next hmain => exact hs.of_idle (by rw [hmain]; split <;> rfl) rfl rfl rfl
  | poll event =>
    cases htr
    simp only [step, pollStep] at hsys
    split at hsys <;> cases hsys
    next hmain => exact hs.of_idle (by rw [hmain]; split <;> rfl) rfl rfl rfl
  | accept v optionOk => exact hs.accept hp hsys htr
  | close =>
    cases htr
    simp only [step, closeStep] at hsys
    split at hsys <;> cases hsys
    next hmain => exact hs.of_mainCloses (by rw [hmain]; rfl) rfl rfl rfl
  | conn k act => exact hs.conn hsys htr
  | tick q =>
    cases htr
    cases hsys
    exact hs.of_idle rfl rfl (tbSetMStats_socks q s.listener) rfl

theorem sessionsLive {l₀ : Listener} {s : Traced MServer} (hs : ServerSockets l₀ s) :
    SessionsLive s.sys.listener s.trace := by
  intro k session hk hstatus
  have hlookup : s.sys.listener.socks[k]? = some (session.sockD, .connected) := by
    rw [Listener.socks_getElem?, hk, ← hstatus]
    rfl
  refine ⟨by simp [hs.opens, hlookup], hs.owned.live (some k) session.sockD ?_⟩
  simp [MServer.own, hs.serves k _ hlookup, hlookup]

end ServerSockets

end TestBed
