import TestBed.Session

/-!
# The statistics of an endpoint

`tb_set_l_stats` copies the listener's own count. `tb_set_m_stats` walks over the session list, adds
up the totals of all sessions and averages the statistics of the connected ones. What `tb_get_stats`
finds out about a descriptor is a `StatsQuery`. The statistics of type `double` are left out.

The whole call is one step. `stat_lock` is only tried for at its beginning and is unlocked at its end
whoever holds it, so the lock is free afterwards.
-/

namespace TestBed

open CInt

/-- What a statistics query finds: the sender's and the receiver's loss, where the protocol reports
them and the query succeeds. -/
structure StatsQuery where
  sendPLoss : Option Int
  recvPLoss : Option Int

/-- The losses are stored as `int`. -/
def tbGetStats (q : StatsQuery) (stats : ProtStats) : ProtStats :=
  { stats with
    id := stats.id + 1
    sendPLoss := (q.sendPLoss.map asInt).getD stats.sendPLoss
    recvPLoss := (q.recvPLoss.map asInt).getD stats.recvPLoss }

def tbSetLStats (q : StatsQuery) (l : Listener) : Listener :=
  let stats := { l.stats with currentRead := l.totalTxRx }
  { l with
    stats := if l.status = .connected then tbGetStats q stats else stats
    read := 0
    statLock := false }

structure MStats where
  currentRead : Int
  totalTxRx : Int
  numSessions : Int
  sendPLoss : Int
  recvPLoss : Int
  deriving DecidableEq, Repr

/-- The session as one turn of the loop leaves it. -/
def mStatsSession (q : StatsQuery) (s : Session) : Session :=
  if s.status = .connected then { s with stats := tbGetStats q s.stats } else s

/-- The number of connected sessions and the sums of their losses are `int`s, which wrap. -/
def mStatsTurn (q : StatsQuery) (a : MStats) (s : Session) : MStats :=
  let a := { a with
    currentRead := a.currentRead + s.totalBytes
    totalTxRx := a.totalTxRx + s.totalBytes }
  if s.status = .connected then
    let stats := tbGetStats q s.stats
    { a with
      numSessions := asInt (a.numSessions + 1)
      sendPLoss := asInt (a.sendPLoss + stats.sendPLoss)
      recvPLoss := asInt (a.recvPLoss + stats.recvPLoss) }
  else a

/-- The loop over the sessions from position `k` on. -/
def mStatsLoop (q : Nat → StatsQuery) : Nat → MStats → List Session → MStats × List Session
  | _, a, [] => (a, [])
  | k, a, s :: ss =>
    let r := mStatsLoop q (k + 1) (mStatsTurn (q k) a s) ss
    (r.1, mStatsSession (q k) s :: r.2)

def tbSetMStats (q : Nat → StatsQuery) (l : Listener) : Listener :=
  let r := mStatsLoop q 0 ⟨0, 0, 0, 0, 0⟩ l.sessionList.sessions
  let average (x : Int) : Int := if r.1.numSessions ≠ 0 then x.tdiv r.1.numSessions else x
  { l with
    totalTxRx := r.1.totalTxRx
    stats := { l.stats with
      currentRead := r.1.currentRead
      sendPLoss := average r.1.sendPLoss
      recvPLoss := average r.1.recvPLoss }
    read := 0
    sessionList := { l.sessionList with sessions := r.2 }
    statLock := false }

/-- The sum of `total_bytes` over the sessions of the list. -/
def SessionList.totalBytes (list : SessionList) : Int :=
  (list.sessions.map (·.totalBytes)).sum

/-! ## What one call does -/

section Frame

variable (q : StatsQuery) (s : Session)

@[simp] theorem mStatsSession_status : (mStatsSession q s).status = s.status := by
  unfold mStatsSession; split <;> rfl

@[simp] theorem mStatsSession_sockD : (mStatsSession q s).sockD = s.sockD := by
  unfold mStatsSession; split <;> rfl

@[simp] theorem mStatsSession_packSize : (mStatsSession q s).packSize = s.packSize := by
  unfold mStatsSession; split <;> rfl

@[simp] theorem mStatsSession_data : (mStatsSession q s).data = s.data := by
  unfold mStatsSession; split <;> rfl

@[simp] theorem mStatsSession_dataSize : (mStatsSession q s).dataSize = s.dataSize := by
  unfold mStatsSession; split <;> rfl

@[simp] theorem mStatsSession_totalBytes : (mStatsSession q s).totalBytes = s.totalBytes := by
  unfold mStatsSession; split <;> rfl

end Frame

/-- The loop leaves every session at its place, with its statistics renewed if it is connected. -/
theorem mStatsLoop_sessions (q : Nat → StatsQuery) (k : Nat) (a : MStats) (ss : List Session)
    (i : Nat) : (mStatsLoop q k a ss).2[i]? = ss[i]?.map (mStatsSession (q (k + i))) := by
  induction ss generalizing k a i with
  | nil => simp [mStatsLoop]
  | cons s ss ih =>
    cases i with
    | zero => simp [mStatsLoop]
    | succ i =>
      simp only [mStatsLoop, List.getElem?_cons_succ, ih]
      congr 3
      omega

/-- The loop adds up the totals of all sessions, connected or not. -/
theorem mStatsLoop_totals (q : Nat → StatsQuery) (k : Nat) (a : MStats) (ss : List Session) :
    (mStatsLoop q k a ss).1.totalTxRx = a.totalTxRx + (ss.map (·.totalBytes)).sum ∧
      (mStatsLoop q k a ss).1.currentRead = a.currentRead + (ss.map (·.totalBytes)).sum := by
  induction ss generalizing k a with
  | nil => simp [mStatsLoop]
  | cons s ss ih =>
    have hturn : (mStatsTurn (q k) a s).totalTxRx = a.totalTxRx + s.totalBytes ∧
        (mStatsTurn (q k) a s).currentRead = a.currentRead + s.totalBytes := by
      unfold mStatsTurn
      split <;> exact ⟨rfl, rfl⟩
    obtain ⟨ht, hr⟩ := ih (k + 1) (mStatsTurn (q k) a s)
    simp only [mStatsLoop, List.map_cons, List.sum_cons]
    rw [ht, hr, hturn.1, hturn.2]
    constructor <;> omega

theorem tbSetMStats_session? (q : Nat → StatsQuery) (l : Listener) (k : Nat) :
    (tbSetMStats q l).session? k = (l.session? k).map (mStatsSession (q k)) := by
  simpa [tbSetMStats, Listener.session?] using
    mStatsLoop_sessions q 0 ⟨0, 0, 0, 0, 0⟩ l.sessionList.sessions k

/-- A call sets the listener's total to the sum over the sessions of the list. -/
theorem tbSetMStats_totalTxRx (q : Nat → StatsQuery) (l : Listener) :
    (tbSetMStats q l).totalTxRx = l.sessionList.totalBytes := by
  simpa [tbSetMStats, SessionList.totalBytes] using
    (mStatsLoop_totals q 0 ⟨0, 0, 0, 0, 0⟩ l.sessionList.sessions).1

theorem tbSetMStats_currentRead (q : Nat → StatsQuery) (l : Listener) :
    (tbSetMStats q l).stats.currentRead = l.sessionList.totalBytes := by
  simpa [tbSetMStats, SessionList.totalBytes] using
    (mStatsLoop_totals q 0 ⟨0, 0, 0, 0, 0⟩ l.sessionList.sessions).2

theorem tbSetLStats_currentRead (q : StatsQuery) (l : Listener) :
    (tbSetLStats q l).stats.currentRead = l.totalTxRx := by
  simp only [tbSetLStats]
  split <;> rfl

/-- A call changes no session's total. -/
theorem tbSetMStats_totalBytes (q : Nat → StatsQuery) (l : Listener) :
    (tbSetMStats q l).sessionList.totalBytes = l.sessionList.totalBytes := by
  unfold SessionList.totalBytes
  congr 1
  apply List.ext_getElem?
  intro k
  have h := tbSetMStats_session? q l k
  simp only [Listener.session?] at h
  rw [List.getElem?_map, List.getElem?_map, h, Option.map_map]
  congr 1
  funext s
  exact mStatsSession_totalBytes (q k) s

@[simp] theorem tbSetMStats_length (q : Nat → StatsQuery) (l : Listener) :
    (tbSetMStats q l).sessionList.sessions.length = l.sessionList.sessions.length := by
  have h : ∀ (k : Nat) (a : MStats) (ss : List Session),
      (mStatsLoop q k a ss).2.length = ss.length := by
    intro k a ss
    induction ss generalizing k a with
    | nil => rfl
    | cons s ss ih => simp [mStatsLoop, ih]
  exact h 0 _ _

end TestBed
