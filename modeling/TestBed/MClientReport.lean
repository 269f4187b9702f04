import TestBed.MClientRun
import Mathlib.Algebra.BigOperators.Group.List.Basic

/-!
# What a multi-connection client reports

The session threads count in `session->total_bytes` only; the listener's `total_tx_rx`, which the
function returns, is written by the monitor. So the returned number lags behind the sessions by what
was sent since the last tick (`run_totals`), and is their sum exactly when every send that moved bytes
was followed by a tick (`returned_total_iff`).
-/

namespace TestBed

open Transition MClientProg

variable {τ ι : Type} {p : MClientProg τ ι} {s t : MClient τ}

def MLabel.isTick : MLabel ι → Bool
  | .tick _ => true
  | _ => false

/-- What a step adds to the total of a session. -/
def MLabel.progress (p : MClientProg τ ι) : MLabel ι → Int
  | .thread _ io => p.thread.progress io
  | _ => 0

/-- Every send that moved bytes is followed by a tick. -/
def SendsReported (p : MClientProg τ ι) : List (MLabel ι) → Prop
  | [] => True
  | l :: ls => (0 < l.progress p → ∃ m ∈ ls, m.isTick = true) ∧ SendsReported p ls

theorem sendsReported_concat (ls : List (MLabel ι)) (l : MLabel ι) :
    SendsReported p (ls ++ [l]) ↔
      l.isTick = true ∨ SendsReported p ls ∧ ¬ 0 < l.progress p := by
  induction ls with
  | nil =>
    cases l <;> simp [SendsReported, MLabel.isTick, MLabel.progress]
  | cons k ls ih =>
    by_cases hl : l.isTick = true
    · simp only [List.cons_append, SendsReported, ih, hl, true_or, iff_true, and_true]
      exact fun _ => ⟨l, by simp, hl⟩
    · have hmem : (∃ m ∈ ls ++ [l], m.isTick = true) ↔ ∃ m ∈ ls, m.isTick = true := by
        simp [or_and_right, exists_or, hl]
      simp only [List.cons_append, SendsReported, ih, hl, hmem, Bool.false_eq_true, false_or]
      exact and_assoc.symm

/-- A thread adds the progress of its calls to its session's total. -/
def CountsProgress (p : MClientProg τ ι) : Prop :=
  ∀ session c io r, p.thread.valid io = true → p.thread.step session c io = some r →
    0 ≤ p.thread.progress io ∧ r.1.totalBytes = session.totalBytes + p.thread.progress io

theorem sendConn_countsProgress (p : MClientProg SendConn ThreadIo) {err : Int}
    (hp : p.thread = sendConn err) (herr : err < 0) : CountsProgress p := by
  intro session c io r _ hr
  rw [hp] at hr ⊢
  cases sendConnStep_cases hr with
  | connectFails | connects | finishes => simp [sendConn, ThreadIo.progress]
  | sendFails =>
    simp only [sendConn, ThreadIo.progress]
    omega
  | sends =>
    simp only [sendConn, ThreadIo.progress]
    omega

theorem tbUdpMClient_countsProgress : CountsProgress tbUdpMClient := by
  intro session c io r hv hr
  cases udpConnStep_cases hr with
  | connectFails | connects | finishes => simp [tbUdpMClient, tbUdpMClientConn, ThreadIo.progress]
  | sendFails =>
    simp only [tbUdpMClient, tbUdpMClientConn, ThreadIo.progress]
    omega
  | sends =>
    simp only [tbUdpMClient, tbUdpMClientConn, ThreadIo.valid, decide_eq_true_eq] at hv
    simp only [tbUdpMClient, tbUdpMClientConn, ThreadIo.progress]
    omega

theorem mClient_countsProgress {k : MKind} (hk : k ≠ .utp) : CountsProgress (mClient k) := by
  cases k with
  | stream => exact sendConn_countsProgress tbStreamMClient rfl (by decide)
  | udt => exact sendConn_countsProgress tbUdtMClient rfl (by decide)
  | udp => exact tbUdpMClient_countsProgress
  | utp => exact absurd rfl hk

theorem sum_totalBytes_set {ss : List Session} {k : Nat} {s : Session} (h : ss[k]? = some s)
    (s' : Session) :
    ((ss.set k s').map (·.totalBytes)).sum =
      (ss.map (·.totalBytes)).sum + (s'.totalBytes - s.totalBytes) := by
  obtain ⟨hk, rfl⟩ := List.getElem?_eq_some_iff.mp h
  rw [List.map_set, List.sum_set', dif_pos (by simpa using hk), List.getElem_map]
  omega

/-- **What a step does to the totals.** A tick makes them agree; any other step leaves the listener's
total alone and adds its progress to the sessions. -/
theorem step_totals (hp : p.Regular) (hc : CountsProgress p) {l : MLabel ι}
    (h : p.step s l = some t) :
    (l.isTick = true ∧ t.listener.totalTxRx = t.listener.sessionList.totalBytes) ∨
      (l.isTick = false ∧ 0 ≤ l.progress p ∧ t.listener.totalTxRx = s.listener.totalTxRx ∧
        t.listener.sessionList.totalBytes =
          s.listener.sessionList.totalBytes + l.progress p) := by
  rcases step_cases hp h with ⟨hl, hq⟩ | ⟨x, resolved, sockD, rfl, ha⟩ |
    ⟨k, io, session, c, r, rfl, hm⟩ | ⟨q, rfl, rfl⟩
  · right
    have hquiet : l.isTick = false ∧ l.progress p = 0 := by
      cases l <;> first | exact ⟨rfl, rfl⟩ | cases hl
    rw [hquiet.2]
    refine ⟨hquiet.1, Int.le_refl 0, hq.totalTxRx, ?_⟩
    rw [hq.sessionList, Int.add_zero]
  · right
    refine ⟨rfl, Int.le_refl 0, by rw [ha.listener], ?_⟩
    simp [SessionList.totalBytes, ha.sessions, MLabel.progress]
  · right
    obtain ⟨hpos, htotal⟩ := hc session c io r hm.valid hm.step
    refine ⟨rfl, hpos, by rw [hm.eq]; rfl, ?_⟩
    rw [hm.eq]
    simp only [SessionList.totalBytes, Listener.setSession_sessions, MLabel.progress,
      sum_totalBytes_set hm.session_eq, htotal]
    omega
  · left
    exact ⟨rfl, by rw [tbSetMStats_totalTxRx, tbSetMStats_totalBytes]⟩

/-- The listener's total never exceeds the sum over the sessions, and reaches it when every send that
moved bytes was followed by a tick. -/
theorem run_totals (hp : p.Regular) (hc : CountsProgress p) {l₀ : Listener}
    (h₀ : l₀.totalTxRx = l₀.sessionList.totalBytes) {ls : List (MLabel ι)}
    (h : run p.step (p.init l₀) ls = some s) :
    s.listener.totalTxRx ≤ s.listener.sessionList.totalBytes ∧
      (s.listener.totalTxRx = s.listener.sessionList.totalBytes ↔ SendsReported p ls) := by
  refine run_induction (P := fun ls s =>
    s.listener.totalTxRx ≤ s.listener.sessionList.totalBytes ∧
      (s.listener.totalTxRx = s.listener.sessionList.totalBytes ↔ SendsReported p ls)) ?_ ?_ h
  · exact ⟨Int.le_of_eq h₀, by simpa [SendsReported, MClientProg.init] using h₀⟩
  · intro ls s l t _ hs ht
    obtain ⟨hle, hiff⟩ := hs
    rw [sendsReported_concat, ← hiff]
    rcases step_totals hp hc ht with ⟨hl, heq⟩ | ⟨hl, hpos, htotal, hsum⟩
    · exact ⟨Int.le_of_eq heq, by simp [hl, heq]⟩
    · rw [htotal, hsum, hl]
      refine ⟨by omega, ?_⟩
      simp only [Bool.false_eq_true, false_or]
      omega

/-- A client without a shared socket does not fail before it creates its sessions. -/
theorem run_not_failed (hp : p.Regular) (hset : p.hasSetup = false) {l₀ : Listener}
    {ls : List (MLabel ι)} (h : run p.step (p.init l₀) ls = some s) :
    s.parent ≠ .setup ∧ s.parent ≠ .failed := by
  refine run_invariant (I := fun s => s.parent ≠ .setup ∧ s.parent ≠ .failed) ?_ ?_ h
  · simp [MClientProg.init, hset]
  · intro s l t hs ht
    cases l with
    | setup ok =>
      exact absurd (setupStep_cases ht).1 hs.1
    | create resolved sockD =>
      rcases createStep_cases hp ht with ⟨x, hx, -⟩ | ⟨x, -, -, rfl⟩
      · rw [hx.parent']
        split <;> simp
      · simp
    | parent =>
      have hall := (parentStep_allCreated ht).2
      constructor <;> intro hpc <;> simp [hpc, ParentPc.allCreated] at hall
    | eot r ack =>
      have hall := (eotStep_allCreated ht).2
      constructor <;> intro hpc <;> simp [hpc, ParentPc.allCreated] at hall
    | thread k io =>
      obtain ⟨session, c, r, hm⟩ := threadStep_moved ht
      rw [hm.eq]
      exact hs
    | tick q =>
      cases ht
      exact hs

/-- **When the returned number is the number of bytes sent.** In every run of `tb_stream_m_client`,
`tb_udt_m_client` or `tb_udp_m_client`, the value it returns equals the sum of `total_bytes` over the
sessions of the list if and only if every send that moved bytes was followed by a tick of the
monitor. -/
theorem returned_total_iff (k : MKind) (hk : k ≠ .utp) (protocol : Protocol)
    (bufsize fileSize sockD : Int) (data : Option (List UInt8)) (ls : List (MLabel k.Io))
    (s : MClient k.Locals) (n : Int)
    (hrun : run (mClient k).step
      ((mClient k).init (mClientListener protocol bufsize fileSize sockD data)) ls = some s)
    (hret : s.returned = some n) :
    n = s.listener.sessionList.totalBytes ↔ SendsReported (mClient k) ls := by
  have hset : (mClient k).hasSetup = false := by cases k <;> first | rfl | exact absurd rfl hk
  have hfailed := (run_not_failed (mClient_regular k) hset hrun).2
  have hn : n = s.listener.totalTxRx := by
    unfold MClient.returned at hret
    split at hret
    · exact (Option.some.inj hret).symm
    · contradiction
    · cases hret
  rw [hn]
  exact (run_totals (mClient_regular k) (mClient_countsProgress hk) rfl hrun).2

/-- A run of one kilobyte with the given ticks before the threads are joined. -/
def reportRun (ticks : List (MLabel ThreadIo)) : List (MLabel ThreadIo) :=
  List.replicate 4 (.create true 5) ++
    (List.range 4).flatMap (fun k =>
      [.thread k (.connect 0), .thread k (.send 256), .thread k .finish]) ++
    ticks ++ List.replicate 9 .parent

theorem returned_total_iff_one_tick :
    ∃ s, run tbStreamMClient.step
        (tbStreamMClient.init (mClientListener .tcp 512 1024 3 none))
        (reportRun [.tick fun _ => ⟨none, none⟩]) = some s ∧
      s.returned = some 1024 ∧ 1024 = s.listener.sessionList.totalBytes :=
  ⟨_, rfl, rfl, (returned_total_iff .stream (by decide) .tcp 512 1024 3 none
    (reportRun [.tick fun _ => ⟨none, none⟩]) _ 1024 rfl rfl).mpr (by
      simp [reportRun, SendsReported, MLabel.isTick, MLabel.progress, List.range_succ])⟩

/-- Without a tick the client returns 0, although its sessions have sent the file. -/
theorem returned_zero_without_tick :
    ∃ s, run tbStreamMClient.step
        (tbStreamMClient.init (mClientListener .tcp 512 1024 3 none)) (reportRun []) = some s ∧
      s.returned = some 0 ∧ s.listener.sessionList.totalBytes = 1024 :=
  ⟨_, rfl, rfl, by decide⟩

end TestBed
