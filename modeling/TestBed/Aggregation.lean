import TestBed.MonitorRates
import Mathlib.Algebra.Order.BigOperators.Group.List
import Mathlib.Algebra.Order.Ring.Int

/-!
# Statistics of all sessions

`tb_set_m_stats` starts from nothing at every call, so what it reports is a function of the session
list alone: the totals of all sessions, and the averages over those that are connected at the call
(`Aggregates`). The averages are only those of the sessions if the sums of their losses fit an `int`,
in which the loop adds them up (`LossesFit`). The totals of sessions that have disconnected stay in the
sum, so `current_read` never decreases as long as the list is only appended to and totals only grow.
-/

namespace TestBed

open CInt Transition

/-- The sessions that the loop collects statistics of. -/
def SessionList.connected (list : SessionList) : List Session :=
  list.sessions.filter (·.status = .connected)

/-- The truncating average; there is no division where there is nothing to average. -/
def average (xs : List Int) : Int := if xs = [] then 0 else xs.sum.tdiv xs.length

/-! ## One call -/

/-- The loop counts the connected sessions and adds up their renewed statistics, in `int`s. -/
theorem mStatsLoop_losses (q : Nat → StatsQuery) (k : Nat) (read total x y z : Int)
    (ss : List Session) :
    let r := mStatsLoop q k ⟨read, total, asInt x, asInt y, asInt z⟩ ss
    let connected := r.2.filter (·.status = .connected)
    r.1.numSessions = asInt (x + connected.length) ∧
      r.1.sendPLoss = asInt (y + (connected.map (·.stats.sendPLoss)).sum) ∧
      r.1.recvPLoss = asInt (z + (connected.map (·.stats.recvPLoss)).sum) := by
  induction ss generalizing k read total x y z with
  | nil => simp [mStatsLoop]
  | cons s ss ih =>
    have hstatus := mStatsSession_status (q k) s
    by_cases hs : s.status = .connected
    · have hturn : mStatsTurn (q k) ⟨read, total, asInt x, asInt y, asInt z⟩ s =
          ⟨read + s.totalBytes, total + s.totalBytes, asInt (x + 1),
            asInt (y + (mStatsSession (q k) s).stats.sendPLoss),
            asInt (z + (mStatsSession (q k) s).stats.recvPLoss)⟩ := by
        simp only [mStatsTurn, mStatsSession, hs, if_true, asInt_asInt_add]
      obtain ⟨hnum, hsend, hrecv⟩ := ih (k + 1) (read + s.totalBytes) (total + s.totalBytes) (x + 1)
        (y + (mStatsSession (q k) s).stats.sendPLoss) (z + (mStatsSession (q k) s).stats.recvPLoss)
      rw [hs] at hstatus
      simp only [mStatsLoop, hturn, List.filter_cons, hstatus, decide_true, if_true, List.map_cons,
        List.sum_cons, List.length_cons]
      refine ⟨hnum.trans ?_, hsend.trans ?_, hrecv.trans ?_⟩ <;> congr 1 <;> push_cast <;> omega
    · have hturn : mStatsTurn (q k) ⟨read, total, asInt x, asInt y, asInt z⟩ s =
          ⟨read + s.totalBytes, total + s.totalBytes, asInt x, asInt y, asInt z⟩ := by
        simp only [mStatsTurn, hs, if_false]
      rw [← hstatus] at hs
      simp only [mStatsLoop, hturn, List.filter_cons, hs, decide_false, Bool.false_eq_true, if_false]
      exact ih (k + 1) (read + s.totalBytes) (total + s.totalBytes) x y z

/-- What a call of `tb_set_m_stats` makes of the listener `l`. -/
structure Aggregates (q : Nat → StatsQuery) (l l' : Listener) : Prop where
  currentRead : l'.stats.currentRead = l.sessionList.totalBytes
  totalTxRx : l'.totalTxRx = l.sessionList.totalBytes
  /-- The connected sessions, and no others, have their statistics renewed. -/
  sessions : ∀ k, l'.session? k = (l.session? k).map (mStatsSession (q k))
  /-- The sums are divided by the number of the connected sessions. -/
  numSessions : (mStatsLoop q 0 ⟨0, 0, 0, 0, 0⟩ l.sessionList.sessions).1.numSessions =
    l'.sessionList.connected.length
  sendPLoss : l'.stats.sendPLoss = average (l'.sessionList.connected.map (·.stats.sendPLoss))
  recvPLoss : l'.stats.recvPLoss = average (l'.sessionList.connected.map (·.stats.recvPLoss))

/-- The statistics that a call finds at the connected sessions. -/
def SessionList.renewed (list : SessionList) (q : Nat → StatsQuery) : List ProtStats :=
  ((list.sessions.mapIdx fun k s => mStatsSession (q k) s).filter (·.status = .connected)).map
    (·.stats)

/-- The connected sessions can be counted, and their losses added up, in an `int`. -/
structure LossesFit (q : Nat → StatsQuery) (l : Listener) : Prop where
  numSessions : FitsInt (l.sessionList.renewed q).length
  sendPLoss : FitsInt ((l.sessionList.renewed q).map (·.sendPLoss)).sum
  recvPLoss : FitsInt ((l.sessionList.renewed q).map (·.recvPLoss)).sum

theorem connected_tbSetMStats (q : Nat → StatsQuery) (l : Listener) :
    (tbSetMStats q l).sessionList.connected.map (·.stats) = l.sessionList.renewed q := by
  have hsessions : (tbSetMStats q l).sessionList.sessions =
      l.sessionList.sessions.mapIdx fun k s => mStatsSession (q k) s := by
    apply List.ext_getElem?
    intro k
    rw [List.getElem?_mapIdx]
    exact tbSetMStats_session? q l k
  rw [SessionList.connected, SessionList.renewed, hsessions]

/-- The division of `int`s gives the average exactly of a sum that fits. -/
theorem average_asInt_iff {xs : List Int} (hlen : FitsInt xs.length) :
    (if asInt xs.length ≠ 0 then (asInt xs.sum).tdiv (asInt xs.length) else asInt xs.sum) =
      average xs ↔ FitsInt xs.sum := by
  rw [asInt_eq_iff.mpr hlen]
  by_cases hxs : xs = []
  · subst hxs
    decide
  · have hpos : 0 < xs.length := List.length_pos_iff.mpr hxs
    rw [if_pos (by omega), average, if_neg hxs]
    exact asInt_tdiv_eq_iff (by omega) hlen.2

/-- **One call.** The statistics are those of the sessions exactly when an `int` holds what is added
up. -/
theorem tbSetMStats_aggregates_iff (q : Nat → StatsQuery) (l : Listener) :
    Aggregates q l (tbSetMStats q l) ↔ LossesFit q l := by
  obtain ⟨hnum, hsend, hrecv⟩ := mStatsLoop_losses q 0 0 0 0 0 0 l.sessionList.sessions
  simp only [Int.zero_add] at hnum hsend hrecv
  have hlosses (f : ProtStats → Int) : (l.sessionList.renewed q).map f =
      (tbSetMStats q l).sessionList.connected.map fun s => f s.stats := by
    rw [← connected_tbSetMStats, List.map_map]
    rfl
  have hlength : (l.sessionList.renewed q).length =
      (tbSetMStats q l).sessionList.connected.length := by
    rw [← connected_tbSetMStats, List.length_map]
  -- each field of `Aggregates` against the field of `LossesFit`
  have hcount : (mStatsLoop q 0 ⟨0, 0, 0, 0, 0⟩ l.sessionList.sessions).1.numSessions =
        (tbSetMStats q l).sessionList.connected.length ↔
      FitsInt (l.sessionList.renewed q).length := by
    rw [hlength, ← asInt_eq_iff]
    exact hnum ▸ Iff.rfl
  have haverage (hfit : FitsInt (l.sessionList.renewed q).length) {x : Int} (f : ProtStats → Int)
      (hx : x = asInt ((tbSetMStats q l).sessionList.connected.map fun s => f s.stats).sum) :
      (if (mStatsLoop q 0 ⟨0, 0, 0, 0, 0⟩ l.sessionList.sessions).1.numSessions ≠ 0 then
        x.tdiv (mStatsLoop q 0 ⟨0, 0, 0, 0, 0⟩ l.sessionList.sessions).1.numSessions else x) =
          average ((tbSetMStats q l).sessionList.connected.map fun s => f s.stats) ↔
        FitsInt ((l.sessionList.renewed q).map f).sum := by
    have hnum' : (mStatsLoop q 0 ⟨0, 0, 0, 0, 0⟩ l.sessionList.sessions).1.numSessions =
        asInt ((l.sessionList.renewed q).map f).length := by
      rw [List.length_map, hlength]
      exact hnum
    rw [hx, hnum', ← hlosses]
    exact average_asInt_iff (by rw [List.length_map]; exact hfit)
  constructor
  · intro h
    have hfit := hcount.mp h.numSessions
    exact ⟨hfit, (haverage hfit (·.sendPLoss) hsend).mp h.sendPLoss,
      (haverage hfit (·.recvPLoss) hrecv).mp h.recvPLoss⟩
  · intro h
    exact ⟨tbSetMStats_currentRead q l, tbSetMStats_totalTxRx q l, tbSetMStats_session? q l,
      hcount.mpr h.numSessions, (haverage h.numSessions (·.sendPLoss) hsend).mpr h.sendPLoss,
      (haverage h.numSessions (·.recvPLoss) hrecv).mpr h.recvPLoss⟩

/-! ## A run of the monitor -/

/-- The other threads append sessions and count bytes; only the monitor writes `current_read`. -/
structure SessionsGrow (l l' : Listener) : Prop where
  eType : l'.eType = l.eType
  currentRead : l'.stats.currentRead = l.stats.currentRead
  kept : List.Forall₂ (fun s s' => s.totalBytes ≤ s'.totalBytes) l.sessionList.sessions
    (l'.sessionList.sessions.take l.sessionList.sessions.length)
  added : ∀ s ∈ l'.sessionList.sessions.drop l.sessionList.sessions.length, 0 ≤ s.totalBytes

instance (l l' : Listener) : Decidable (SessionsGrow l l') :=
  decidable_of_iff (l'.eType = l.eType ∧ l'.stats.currentRead = l.stats.currentRead ∧
      List.Forall₂ (fun s s' => s.totalBytes ≤ s'.totalBytes) l.sessionList.sessions
        (l'.sessionList.sessions.take l.sessionList.sessions.length) ∧
      ∀ s ∈ l'.sessionList.sessions.drop l.sessionList.sessions.length, 0 ≤ s.totalBytes)
    ⟨fun ⟨h₁, h₂, h₃, h₄⟩ => ⟨h₁, h₂, h₃, h₄⟩, fun ⟨h₁, h₂, h₃, h₄⟩ => ⟨h₁, h₂, h₃, h₄⟩⟩

/-- What a run assumes of a step of the other threads. -/
def OnlyGrow (s : MonitorState) : MLoopLabel → Prop
  | .env l => SessionsGrow s.listener l
  | .step _ => True

instance (s : MonitorState) (l : MLoopLabel) : Decidable (OnlyGrow s l) := by
  cases l <;> unfold OnlyGrow <;> infer_instance

theorem SessionsGrow.totalBytes_le {l l' : Listener} (h : SessionsGrow l l') :
    l.sessionList.totalBytes ≤ l'.sessionList.totalBytes := by
  have hadded : 0 ≤ ((l'.sessionList.sessions.drop l.sessionList.sessions.length).map
      (·.totalBytes)).sum := List.sum_nonneg (List.forall_mem_map.mpr h.added)
  have hkept : (l.sessionList.sessions.map (·.totalBytes)).sum ≤
      ((l'.sessionList.sessions.take l.sessionList.sessions.length).map (·.totalBytes)).sum := by
    apply List.Forall₂.sum_le_sum
    rw [List.forall₂_map_left_iff, List.forall₂_map_right_iff]
    exact h.kept
  unfold SessionList.totalBytes
  rw [← List.take_append_drop l.sessionList.sessions.length l'.sessionList.sessions,
    List.map_append, List.sum_append]
  omega

/-- `current_read` is not ahead of the sessions of a listener with several connections. -/
structure NotAhead (s : MonitorState) : Prop where
  eType : s.listener.eType ≠ .client ∧ s.listener.eType ≠ .server
  read_le : s.listener.stats.currentRead ≤ s.listener.sessionList.totalBytes

theorem NotAhead.byteCount_eq {s : MonitorState} (h : NotAhead s) :
    byteCount s.listener = s.listener.sessionList.totalBytes := by
  obtain ⟨hclient, hserver⟩ := h.eType
  simp [byteCount, hclient, hserver]

/-- What a refresh reads is the new `current_read`, and at least the old one. -/
theorem NotAhead.refresh {s t : MonitorState} (h : NotAhead s) (q : Nat → StatsQuery)
    (ht : t.listener = refresh q s.listener) :
    NotAhead t ∧ s.listener.stats.currentRead ≤ t.listener.stats.currentRead := by
  have hcount := h.byteCount_eq
  have hread : t.listener.stats.currentRead = byteCount s.listener := by
    rw [ht]
    exact refresh_currentRead q s.listener
  have htype : t.listener.eType = s.listener.eType := by rw [ht, refresh_eType]
  have hafter : byteCount t.listener = byteCount s.listener := by rw [ht, byteCount_refresh]
  have hle := h.read_le
  refine ⟨⟨htype ▸ h.eType, ?_⟩, by omega⟩
  obtain ⟨hclient, hserver⟩ := h.eType
  have htotal : byteCount t.listener = t.listener.sessionList.totalBytes := by
    simp [byteCount, htype, hclient, hserver]
  omega

/-- **Step.** No step of the monitor or of the other threads takes `current_read` back. -/
theorem NotAhead.step {s t : MonitorState} (h : NotAhead s) {l : MLoopLabel} (hl : OnlyGrow s l)
    (ht : tbMonitorFree s l = some t) :
    NotAhead t ∧ s.listener.stats.currentRead ≤ t.listener.stats.currentRead := by
  cases l with
  | env l =>
    have hgrow : SessionsGrow s.listener l := hl
    cases ht
    have hread := hgrow.currentRead
    have htotal := hgrow.totalBytes_le
    have hle := h.read_le
    refine ⟨⟨?_, ?_⟩, Int.le_of_eq hread.symm⟩
    · exact hgrow.eType ▸ h.eType
    · dsimp only
      omega
  | step q =>
    simp only [tbMonitorFree, tbMonitorStep] at ht
    have quiet : ∀ {u : MonitorState}, u.listener = s.listener →
        NotAhead u ∧ s.listener.stats.currentRead ≤ u.listener.stats.currentRead := by
      intro u hu
      exact ⟨⟨hu ▸ h.eType, hu ▸ h.read_le⟩, Int.le_of_eq (by rw [hu])⟩
    split at ht
    · cases ht
      split <;> exact quiet rfl
    · cases ht
      split <;> exact quiet rfl
    · cases ht
      split <;> exact quiet rfl
    · cases ht
      exact h.refresh q rfl
    · cases ht
      exact h.refresh q rfl
    · cases ht
      exact h.refresh q rfl
    · cases ht

/-- **Statistics of all sessions.** A call of `tb_set_m_stats` makes both totals the sum over all
sessions and both losses the average over the connected ones exactly when the losses can be added up in
an `int`. In a run of the monitor of an endpoint with several connections, among threads that only
append sessions and count bytes, `current_read` never decreases. -/
theorem sessions_aggregated (q : Nat → StatsQuery) (l : Listener) :
    (Aggregates q l (tbSetMStats q l) ↔ LossesFit q l) ∧
    ∀ (type : EndpointType) (protocol : Protocol) (bufsize : Int) (ls ls' : List MLoopLabel)
      (s t : MonitorState), type = .mServer ∨ type = .mClient →
      run tbMonitorFree (.init (tbCreateListener type protocol bufsize)) ls = some s →
      run tbMonitorFree s ls' = some t →
      Meets tbMonitorFree OnlyGrow (.init (tbCreateListener type protocol bufsize)) (ls ++ ls') →
      s.listener.stats.currentRead ≤ t.listener.stats.currentRead := by
  refine ⟨tbSetMStats_aggregates_iff q l, ?_⟩
  intro type protocol bufsize ls ls' s t htype hs ht hgrow
  have hmulti : type ≠ .client ∧ type ≠ .server := by rcases htype with rfl | rfl <;> decide
  have hinit : NotAhead (.init (tbCreateListener type protocol bufsize)) := ⟨hmulti, Int.le_refl 0⟩
  obtain ⟨hgrow, hgrow'⟩ := meets_append_iff.mp hgrow
  have hnotAhead : NotAhead s :=
    run_invariant_of_meets hinit (fun _ _ _ hi hG ht => (hi.step hG ht).1) hgrow hs
  have hrun : NotAhead t ∧ s.listener.stats.currentRead ≤ t.listener.stats.currentRead := by
    refine run_invariant_of_meets
      (I := fun t => NotAhead t ∧ s.listener.stats.currentRead ≤ t.listener.stats.currentRead)
      ⟨hnotAhead, Int.le_refl _⟩ ?_ (hgrow' s hs) ht
    rintro r l u ⟨hi, hle⟩ hG hu
    obtain ⟨hi', hle'⟩ := hi.step hG hu
    exact ⟨hi', Int.le_trans hle hle'⟩
  exact hrun.2

/-- A server with one session, which has received `n` bytes. -/
def oneSessionListener (status : SessionStatus) (n : Int) : Listener :=
  { tbCreateListener .mServer .tcp 1408 with
    sockD := 3
    status := .connected
    sessionList := ⟨0, 1, [{ tbCreateSession with status := status, totalBytes := n }], 1⟩ }

/-- Five bytes are read at a tick; then the session ends. -/
theorem sessions_aggregated_disconnect :
    let step := .step fun _ => ⟨none, some 2⟩
    let ls := [.env (oneSessionListener .connected 5), step, step, step, step]
    let l : Listener := { oneSessionListener .disconnected 7 with stats := ⟨-1, 5, 0, 2⟩ }
    ∃ s t, run tbMonitorFree (.init (tbCreateListener .mServer .tcp 1408)) ls = some s ∧
      run tbMonitorFree s [.env l, step, step, step] = some t ∧
      s.listener.stats.currentRead = 5 ∧ t.listener.stats.currentRead = 7 ∧
      t.listener.stats.recvPLoss = 0 ∧
      s.listener.stats.currentRead ≤ t.listener.stats.currentRead := by
  intro step ls l
  refine ⟨_, _, rfl, rfl, rfl, rfl, rfl, ?_⟩
  refine (sessions_aggregated (fun _ => ⟨none, some 2⟩) l).2 .mServer .tcp 1408 ls
    [.env l, step, step, step] _ _ (.inl rfl) rfl rfl (by decide)

/-- A server with two connected sessions. -/
def twoSessionsListener : Listener :=
  let session : Session := { tbCreateSession with status := .connected }
  { tbCreateListener .mServer .udt 1408 with sessionList := ⟨1, 2, [session, session], 2⟩ }

/-- Each session has lost 1500000000 packets: the sum wraps around, and the average is negative. -/
theorem sessions_aggregated_overflow :
    let q := fun _ => ⟨some 1500000000, none⟩
    (tbSetMStats q twoSessionsListener).stats.sendPLoss = -647483648 ∧
      ¬ Aggregates q twoSessionsListener (tbSetMStats q twoSessionsListener) := by
  refine ⟨by decide, ?_⟩
  intro haggr
  exact absurd haggr.sendPLoss (by decide)

end TestBed
