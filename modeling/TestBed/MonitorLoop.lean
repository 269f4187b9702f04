import TestBed.Monitor
import TestBed.Lib.Transition

/-!
# The monitor

`tb_monitor`, which runs in the main thread: it waits for the socket, then refreshes the statistics
once in every interval until the listener is exiting or aborting, and once more at the end. A step is
one access to what the other threads write: a test of `status`, or a refresh together with the
arithmetic on the monitor's own fields that follows it. Between two steps the other threads do
anything that leaves the type, the monitor's statistics and the bytes counted so far in place
(`MLoopLabel.env`).

`ticks` and `found` record the bytes that the listener had counted when a refresh read them. The
accumulated total is the last count only if no byte is counted after the last tick of the connected
branch (`monitor_total_iff`): the waiting branch and the final read refresh `current_read` alone.
-/

namespace TestBed

open CInt Transition

/-- The bytes the endpoint has counted, as a refresh finds them. -/
def byteCount (l : Listener) : Int :=
  if l.eType = .client ∨ l.eType = .server then l.totalTxRx else l.sessionList.totalBytes

/-- The refresh of either kind of endpoint. -/
def refresh (q : Nat → StatsQuery) (l : Listener) : Listener :=
  if l.eType = .client ∨ l.eType = .server then tbSetLStats (q 0) l else tbSetMStats q l

/-- The fields of `listener->stats` that only the monitor uses, less the average of type `double`. -/
structure RateStats where
  byteSec : Int
  totalBytes : Int
  numMSeconds : Int
  peakByteSec : Int
  deriving DecidableEq, Repr

inductive MonitorPc
  | waitSock | test | branch | connected | waiting | final | returned
  deriving DecidableEq, Repr

structure MonitorState where
  pc : MonitorPc
  listener : Listener
  rates : RateStats
  prevBytes : Int
  peakBytes : Int
  /-- The next character of `animate`. -/
  index : Nat
  /-- What the refreshes of the connected branch found, latest first. -/
  ticks : List Int
  /-- What the latest refresh found. -/
  found : Int
  deriving DecidableEq, Repr

inductive MLoopLabel
  /-- The other threads leave the listener as `l`. -/
  | env (l : Listener)
  | step (q : Nat → StatsQuery)

def MonitorState.init (l : Listener) : MonitorState where
  pc := .waitSock
  listener := l
  rates := ⟨0, 0, 0, 0⟩
  prevBytes := 0
  peakBytes := 0
  index := 0
  ticks := []
  found := 0

/-- What the other threads keep: they count bytes and take none back. -/
def Grows (l l' : Listener) : Prop :=
  l'.eType = l.eType ∧ l'.stats.currentRead = l.stats.currentRead ∧ byteCount l ≤ byteCount l'

instance (l l' : Listener) : Decidable (Grows l l') := inferInstanceAs (Decidable (_ ∧ _ ∧ _))

/-- The refresh of the connected branch and the rates computed from it. -/
def connectedTick (q : Nat → StatsQuery) (s : MonitorState) : MonitorState :=
  let l := refresh q s.listener
  let delta := asInt (l.stats.currentRead - s.prevBytes)
  -- `byte_sec` is the bytes of the interval first, and then ten times that
  let byteSec := asInt (delta * 10)
  let peak := byteSec > s.peakBytes
  { s with
    pc := .test
    listener := l
    rates := {
      byteSec := byteSec
      totalBytes := s.rates.totalBytes + delta
      numMSeconds := s.rates.numMSeconds + 1
      peakByteSec := if peak then byteSec else s.rates.peakByteSec }
    prevBytes := asInt l.stats.currentRead
    peakBytes := if peak then byteSec else s.peakBytes
    ticks := byteCount s.listener :: s.ticks
    found := byteCount s.listener }

def waitingTick (q : Nat → StatsQuery) (s : MonitorState) : MonitorState :=
  { s with
    pc := .test
    listener := refresh q s.listener
    index := if s.index + 1 = 8 then 0 else s.index + 1
    found := byteCount s.listener }

def finalRead (q : Nat → StatsQuery) (s : MonitorState) : MonitorState :=
  { s with
    pc := .returned
    listener := refresh q s.listener
    found := byteCount s.listener }

/-- The next step of `tb_monitor`. -/
def tbMonitorStep (q : Nat → StatsQuery) (s : MonitorState) : Option MonitorState :=
  match s.pc with
  | .waitSock =>
    some (if s.listener.sockD = -1 then { s with pc := .waitSock } else { s with pc := .test })
  | .test =>
    some (if s.listener.status ≠ .exiting ∧ s.listener.status ≠ .aborting then
      { s with pc := .branch } else { s with pc := .final })
  | .branch =>
    some (if s.listener.status = .connected then
      { s with pc := .connected } else { s with pc := .waiting })
  | .connected => some (connectedTick q s)
  | .waiting => some (waitingTick q s)
  | .final => some (finalRead q s)
  | .returned => none

def tbMonitor (s : MonitorState) : MLoopLabel → Option MonitorState
  | .env l => if Grows s.listener l then some { s with listener := l } else none
  | .step q => tbMonitorStep q s

/-! ## A refresh -/

@[simp] theorem refresh_eType (q : Nat → StatsQuery) (l : Listener) :
    (refresh q l).eType = l.eType := by
  unfold refresh
  split <;> rfl

/-- A refresh makes `current_read` the count it finds. -/
theorem refresh_currentRead (q : Nat → StatsQuery) (l : Listener) :
    (refresh q l).stats.currentRead = byteCount l := by
  unfold refresh byteCount
  split
  · exact tbSetLStats_currentRead (q 0) l
  · exact tbSetMStats_currentRead q l

@[simp] theorem byteCount_refresh (q : Nat → StatsQuery) (l : Listener) :
    byteCount (refresh q l) = byteCount l := by
  unfold byteCount
  rw [refresh_eType]
  by_cases h : l.eType = .client ∨ l.eType = .server
  · simp only [h, if_true, refresh]
    rfl
  · simp only [h, if_false, refresh]
    exact tbSetMStats_totalBytes q l

/-! ## What a step can do -/

/-- The kinds of steps, by what they do to the monitor's arithmetic. -/
inductive MonitorMove (s : MonitorState) : MonitorState → Prop
  /-- The other threads, and the tests. -/
  | quiet (pc : MonitorPc) (l : Listener) (hpc : pc ≠ .returned ∨ s.pc = .returned)
      (hl : Grows s.listener l) : MonitorMove s { s with pc := pc, listener := l }
  | tick (q : Nat → StatsQuery) : MonitorMove s (connectedTick q s)
  | wait (q : Nat → StatsQuery) : MonitorMove s (waitingTick q s)
  | last (q : Nat → StatsQuery) : MonitorMove s (finalRead q s)

theorem grows_refl (l : Listener) : Grows l l := ⟨rfl, rfl, Int.le_refl _⟩

theorem tbMonitor_move {s t : MonitorState} {l : MLoopLabel} (h : tbMonitor s l = some t) :
    MonitorMove s t := by
  have quiet : ∀ pc, pc ≠ .returned → MonitorMove s { s with pc := pc } := by
    intro pc hpc
    exact .quiet pc s.listener (.inl hpc) (grows_refl _)
  cases l with
  | env l =>
    simp only [tbMonitor, Option.ite_none_right_eq_some, Option.some.injEq] at h
    obtain ⟨hl, rfl⟩ := h
    refine .quiet s.pc l ?_ hl
    by_cases hr : s.pc = .returned
    · exact .inr hr
    · exact .inl hr
  | step q =>
    simp only [tbMonitor, tbMonitorStep] at h
    split at h
    · cases h
      split
      · exact quiet .waitSock (by decide)
      · exact quiet .test (by decide)
    · cases h
      split
      · exact quiet .branch (by decide)
      · exact quiet .final (by decide)
    · cases h
      split
      · exact quiet .connected (by decide)
      · exact quiet .waiting (by decide)
    · cases h
      exact .tick q
    · cases h
      exact .wait q
    · cases h
      exact .last q
    · cases h

/-! ## The accumulated total -/

/-- The bytes of each interval between two connected ticks, latest first; the first interval starts
from zero. -/
def growths : List Int → List Int
  | [] => []
  | n :: ns => (n - ns.headD 0) :: growths ns

theorem sum_growths (ns : List Int) : (growths ns).sum = ns.headD 0 := by
  induction ns with
  | nil => rfl
  | cons n ns ih => simp [growths, ih]

/-- Conversion to `int` loses bytes of an interval exactly when one is too large. -/
theorem sum_asInt_eq_iff {ds : List Int} (h : ∀ d ∈ ds, 0 ≤ d) :
    (ds.map asInt).sum ≤ ds.sum ∧ ((ds.map asInt).sum = ds.sum ↔ ∀ d ∈ ds, d < 2 ^ 31) := by
  induction ds with
  | nil => simp
  | cons d ds ih =>
    obtain ⟨hd, hds⟩ := List.forall_mem_cons.mp h
    obtain ⟨ihle, iheq⟩ := ih hds
    have hle := asInt_le hd
    have heq := asInt_eq_self_iff hd
    simp only [List.map_cons, List.sum_cons, List.forall_mem_cons]
    refine ⟨by omega, ⟨fun hsum => ?_, fun hall => ?_⟩⟩
    · have htail : (ds.map asInt).sum = ds.sum := by omega
      have hhead : asInt d = d := by omega
      exact ⟨heq.mp hhead, iheq.mp htail⟩
    · rw [heq.mpr hall.1, iheq.mpr hall.2]

/-- The monitor's fields in terms of the counts it has found. -/
structure Accounted (s : MonitorState) : Prop where
  total : s.rates.totalBytes = ((growths s.ticks).map asInt).sum
  prev : s.prevBytes = asInt (s.ticks.headD 0)
  grown : ∀ d ∈ growths s.ticks, 0 ≤ d
  read : s.listener.stats.currentRead = s.found
  last_le : s.ticks.headD 0 ≤ s.found
  found_le : s.found ≤ byteCount s.listener

theorem accounted_init (type : EndpointType) (protocol : Protocol) (bufsize : Int) :
    Accounted (.init (tbCreateListener type protocol bufsize)) where
  total := rfl
  prev := rfl
  grown := by simp [MonitorState.init, growths]
  read := rfl
  last_le := Int.le_refl 0
  found_le := by cases type <;> exact Int.le_refl 0

theorem Accounted.connectedTick {s : MonitorState} (h : Accounted s) (q : Nat → StatsQuery) :
    Accounted (connectedTick q s) := by
  have hle : s.ticks.headD 0 ≤ byteCount s.listener := Int.le_trans h.last_le h.found_le
  -- the previous count may have been truncated, the difference is the same modulo `2 ^ 32`
  have hdelta : asInt (byteCount s.listener - s.prevBytes) =
      asInt (byteCount s.listener - s.ticks.headD 0) := by
    rw [h.prev]
    exact Int.sub_bmod_bmod
  refine ⟨?_, ?_, ?_, ?_, ?_, ?_⟩
  · simp only [TestBed.connectedTick, refresh_currentRead, growths, List.map_cons, List.sum_cons]
    rw [hdelta, h.total, Int.add_comm]
  · simp [TestBed.connectedTick, refresh_currentRead]
  · simp only [TestBed.connectedTick, growths, List.forall_mem_cons]
    exact ⟨by omega, h.grown⟩
  · exact refresh_currentRead q s.listener
  · exact Int.le_refl _
  · simp [TestBed.connectedTick]

theorem Accounted.step {s t : MonitorState} {l : MLoopLabel} (h : Accounted s)
    (ht : tbMonitor s l = some t) : Accounted t := by
  cases tbMonitor_move ht with
  | quiet pc l hpc hl =>
    obtain ⟨-, hread, hcount⟩ := hl
    exact ⟨h.total, h.prev, h.grown, hread.trans h.read, h.last_le, Int.le_trans h.found_le hcount⟩
  | tick q => exact h.connectedTick q
  | wait q | last q =>
    refine ⟨h.total, h.prev, h.grown, refresh_currentRead q _, ?_, ?_⟩
    · exact Int.le_trans h.last_le h.found_le
    · simp [waitingTick, finalRead]

/-- At every point of every run, its return included, the accumulated total is what the last refresh
read exactly when that refresh found nothing new since the last tick of the connected branch and the
growth of every interval between such ticks fits an `int`. -/
theorem monitor_total_iff (type : EndpointType) (protocol : Protocol) (bufsize : Int)
    (ls : List MLoopLabel) (s : MonitorState)
    (h : run tbMonitor (.init (tbCreateListener type protocol bufsize)) ls = some s) :
    s.rates.totalBytes = s.listener.stats.currentRead ↔
      s.found = s.ticks.headD 0 ∧ ∀ d ∈ growths s.ticks, d < 2 ^ 31 := by
  have hs : Accounted s :=
    run_invariant (accounted_init type protocol bufsize) (fun _ _ _ hi ht => hi.step ht) h
  obtain ⟨hle, heq⟩ := sum_asInt_eq_iff hs.grown
  have hsum := sum_growths s.ticks
  have hlast := hs.last_le
  rw [hs.total, hs.read]
  constructor
  · intro htotal
    have hall : ((growths s.ticks).map asInt).sum = (growths s.ticks).sum := by omega
    exact ⟨by omega, heq.mp hall⟩
  · rintro ⟨hfound, hall⟩
    rw [heq.mpr hall, hsum, hfound]

/-- A server's listener with its socket open, in the status `status` and with `n` bytes counted. -/
def servedListener (status : Status) (n : Int) : Listener :=
  { tbCreateListener .server .tcp 1024 with sockD := 3, status := status, totalTxRx := n }

/-- A transfer of five bytes that begins and ends between two ticks. -/
def shortTransfer : List MLoopLabel :=
  let step := .step fun _ => ⟨none, none⟩
  [.env (servedListener .listening 0), step, step, step, .env (servedListener .connected 0),
    .env (servedListener .connected 5), .env (servedListener .disconnected 5), step,
    .env { servedListener .exiting 5 with stats := ⟨-1, 5, 0, 0⟩ }, step, step]

/-- A transfer of five bytes that a tick sees. -/
def seenTransfer : List MLoopLabel :=
  let step := .step fun _ => ⟨none, none⟩
  [.env (servedListener .listening 0), step, .env (servedListener .connected 5), step, step, step,
    .env { servedListener .exiting 5 with stats := ⟨0, 5, 0, 0⟩ }, step, step]

theorem monitor_total_seenTransfer :
    ∃ s, run tbMonitor (.init (tbCreateListener .server .tcp 1024)) seenTransfer = some s ∧
      s.pc = .returned ∧
      (s.rates.totalBytes = s.listener.stats.currentRead ↔
        s.found = s.ticks.headD 0 ∧ ∀ d ∈ growths s.ticks, d < 2 ^ 31) :=
  ⟨_, rfl, rfl, monitor_total_iff .server .tcp 1024 seenTransfer _ rfl⟩

theorem monitor_total_shortTransfer :
    ¬ ∀ (type : EndpointType) (protocol : Protocol) (bufsize : Int) (ls : List MLoopLabel)
      (s : MonitorState),
      run tbMonitor (.init (tbCreateListener type protocol bufsize)) ls = some s →
      s.pc = .returned → s.rates.totalBytes = s.listener.stats.currentRead := by
  intro h
  have hshort := h .server .tcp 1024 shortTransfer _ rfl rfl
  exact absurd hshort (by decide)

end TestBed
