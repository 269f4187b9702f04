import TestBed.MonitorLoop

/-!
# The rates of a long transfer

`tb_monitor` keeps the previous count in an `int` while the count itself is a `long long`. The
difference of the two and its conversion to `int` are right all the same: what the truncation of the
previous count takes away is a multiple of `2 ^ 32` (`Rated.tick`). Beyond `2 ^ 63 - 2 ^ 31`
bytes the difference wraps around in 64 bits, which changes it by another such multiple.

Nothing is assumed here of what the other threads do to the listener between two steps.
-/

namespace TestBed

open CInt Transition

/-- `tb_monitor` among threads that leave the listener in any state. -/
def tbMonitorFree (s : MonitorState) : MLoopLabel → Option MonitorState
  | .env l => some { s with listener := l }
  | .step q => tbMonitorStep q s

/-- The counts grow by little enough for ten times the growth to fit an `int`. -/
def SmallGrowths (ticks : List Int) : Prop := ∀ d ∈ growths ticks, 0 ≤ d ∧ 10 * d < 2 ^ 31

/-- The monitor's fields after the connected ticks that found the counts `ticks`. -/
structure Rated (s : MonitorState) : Prop where
  prev : s.prevBytes = asInt (s.ticks.headD 0)
  total : s.rates.totalBytes = s.ticks.headD 0
  byteSec : s.rates.byteSec = 10 * (growths s.ticks).headD 0
  seconds : s.rates.numMSeconds = s.ticks.length
  peak : s.rates.peakByteSec = s.peakBytes
  max : s.peakBytes = ((growths s.ticks).map (10 * ·)).foldr max 0

theorem rated_init (l : Listener) : Rated (.init l) := ⟨rfl, rfl, rfl, rfl, rfl, rfl⟩

/-- The difference to a truncated count. -/
theorem asInt_sub_asInt (n m : Int) : asInt (n - asInt m) = asInt (n - m) := Int.sub_bmod_bmod

theorem Rated.tick {s : MonitorState} (h : Rated s) (q : Nat → StatsQuery)
    (hsmall : SmallGrowths (connectedTick q s).ticks) : Rated (connectedTick q s) := by
  have hticks : (connectedTick q s).ticks = byteCount s.listener :: s.ticks := rfl
  rw [hticks] at hsmall
  obtain ⟨hd, hd'⟩ := hsmall (byteCount s.listener - s.ticks.headD 0) List.mem_cons_self
  have hdelta : asInt (byteCount s.listener - s.prevBytes) =
      byteCount s.listener - s.ticks.headD 0 := by
    rw [h.prev, asInt_sub_asInt]
    exact asInt_eq (by omega) (by omega)
  have hrate : asInt ((byteCount s.listener - s.ticks.headD 0) * 10) =
      10 * (byteCount s.listener - s.ticks.headD 0) := by
    rw [asInt_eq (by omega) (by omega), Int.mul_comm]
  refine ⟨?_, ?_, ?_, ?_, ?_, ?_⟩
  · simp only [connectedTick, refresh_currentRead, List.headD_cons]
  · simp only [connectedTick, refresh_currentRead, List.headD_cons, hdelta, h.total]
    omega
  · simp only [connectedTick, refresh_currentRead, growths, List.headD_cons, hdelta, hrate]
  · simp only [connectedTick, h.seconds, List.length_cons]
    omega
  · simp only [connectedTick, h.peak]
  · simp only [connectedTick, refresh_currentRead, growths, List.map_cons,
      List.foldr_cons, hdelta, hrate, ← h.max]
    split <;> omega

theorem SmallGrowths.tail {n : Int} {ticks : List Int} (h : SmallGrowths (n :: ticks)) :
    SmallGrowths ticks :=
  fun d hd => h d (List.mem_cons_of_mem _ hd)

/-- The steps of the monitor but the connected tick leave its arithmetic alone. -/
theorem tbMonitorStep_rates {s t : MonitorState} {q : Nat → StatsQuery}
    (h : tbMonitorStep q s = some t) (hpc : s.pc ≠ .connected) :
    t.ticks = s.ticks ∧ t.rates = s.rates ∧ t.prevBytes = s.prevBytes ∧
      t.peakBytes = s.peakBytes := by
  simp only [tbMonitorStep] at h
  split at h
  · cases h
    split <;> exact ⟨rfl, rfl, rfl, rfl⟩
  · cases h
    split <;> exact ⟨rfl, rfl, rfl, rfl⟩
  · cases h
    split <;> exact ⟨rfl, rfl, rfl, rfl⟩
  · next hconn => exact absurd hconn hpc
  · cases h
    exact ⟨rfl, rfl, rfl, rfl⟩
  · cases h
    exact ⟨rfl, rfl, rfl, rfl⟩
  · cases h

theorem Rated.congr {s t : MonitorState} (h : Rated s)
    (ht : t.ticks = s.ticks ∧ t.rates = s.rates ∧ t.prevBytes = s.prevBytes ∧
      t.peakBytes = s.peakBytes) : Rated t := by
  obtain ⟨hticks, hrates, hprev, hpeak⟩ := ht
  constructor
  · rw [hprev, hticks, h.prev]
  · rw [hrates, hticks, h.total]
  · rw [hrates, hticks, h.byteSec]
  · rw [hrates, hticks, h.seconds]
  · rw [hrates, hpeak, h.peak]
  · rw [hpeak, hticks, h.max]

/-- **Step.** The fields stay right as long as the growths are small. -/
theorem rated_step {s t : MonitorState} {l : MLoopLabel}
    (h : SmallGrowths s.ticks → Rated s) (ht : tbMonitorFree s l = some t)
    (hsmall : SmallGrowths t.ticks) : Rated t := by
  cases l with
  | env l =>
    cases ht
    exact (h hsmall).congr ⟨rfl, rfl, rfl, rfl⟩
  | step q =>
    by_cases hpc : s.pc = .connected
    · simp only [tbMonitorFree, tbMonitorStep, hpc, Option.some.injEq] at ht
      subst ht
      exact (h hsmall.tail).tick q hsmall
    · have hsame := tbMonitorStep_rates ht hpc
      rw [hsame.1] at hsmall
      exact (h hsmall).congr hsame

/-- What a connected tick reports: `d` is the growth since the last one, `ds` are all growths so
far. -/
structure TickReport (t : MonitorState) (d : Int) (ds : List Int) : Prop where
  totalBytes : t.rates.totalBytes = t.listener.stats.currentRead
  byteSec : t.rates.byteSec = 10 * d
  numMSeconds : t.rates.numMSeconds = ds.length
  peak_mem : ∃ d ∈ ds, t.rates.peakByteSec = 10 * d
  peak_le : ∀ d ∈ ds, 10 * d ≤ t.rates.peakByteSec

@[simp] theorem length_growths (ns : List Int) : (growths ns).length = ns.length := by
  induction ns with
  | nil => rfl
  | cons n ns ih => simp [growths, ih]

theorem foldr_max_spec {ds : List Int} (hne : ds ≠ []) (h : ∀ d ∈ ds, 0 ≤ d) :
    (∃ d ∈ ds, (ds.map (10 * ·)).foldr max 0 = 10 * d) ∧
      ∀ d ∈ ds, 10 * d ≤ (ds.map (10 * ·)).foldr max 0 := by
  induction ds with
  | nil => exact absurd rfl hne
  | cons d ds ih =>
    obtain ⟨hd, hds⟩ := List.forall_mem_cons.mp h
    simp only [List.map_cons, List.foldr_cons, List.forall_mem_cons]
    by_cases hnil : ds = []
    · subst hnil
      simp
      omega
    · obtain ⟨⟨m, hm, hmax⟩, hle⟩ := ih hnil hds
      rw [hmax] at hle ⊢
      refine ⟨?_, by omega, fun d' hd' => ?_⟩
      · by_cases hdm : m ≤ d
        · exact ⟨d, List.mem_cons_self, by omega⟩
        · exact ⟨m, List.mem_cons_of_mem d hm, by omega⟩
      · have := hle d' hd'
        omega

/-- **The rates survive long transfers.** Whatever the other threads do, a connected tick of the
monitor leaves `total_bytes` at `current_read`, ten times the growth in `byte_sec`, the number of
connected ticks in `num_m_seconds`, and the largest rate in `peak_byte_sec`, as long as ten times each
growth of `current_read` from one connected tick to the next fits an `int`. -/
theorem monitor_rates (l₀ : Listener) (ls : List MLoopLabel) (s t : MonitorState)
    (q : Nat → StatsQuery) (hrun : run tbMonitorFree (.init l₀) ls = some s)
    (hpc : s.pc = .connected) (ht : tbMonitorStep q s = some t)
    (hsmall : ∀ d ∈ growths t.ticks, 0 ≤ d ∧ 10 * d < 2 ^ 31) :
    t.ticks = t.listener.stats.currentRead :: s.ticks ∧
      TickReport t (t.listener.stats.currentRead - s.ticks.headD 0) (growths t.ticks) := by
  have hrun' : run tbMonitorFree (.init l₀) (ls ++ [.step q]) = some t :=
    run_concat_eq_some.mpr ⟨s, hrun, ht⟩
  have hinv : SmallGrowths t.ticks → Rated t := by
    refine run_invariant (I := fun s => SmallGrowths s.ticks → Rated s) ?_ ?_ hrun'
    · exact fun _ => rated_init l₀
    · exact fun _ _ _ hi ht hsmall => rated_step hi ht hsmall
  have hrated : Rated t := hinv hsmall
  simp only [tbMonitorStep, hpc, Option.some.injEq] at ht
  have hticks : t.ticks = t.listener.stats.currentRead :: s.ticks := by
    subst ht
    simp [connectedTick, refresh_currentRead]
  refine ⟨hticks, ?_⟩
  have hne : growths t.ticks ≠ [] := by simp [hticks, growths]
  have hpeak := foldr_max_spec hne
    fun d hd => (hsmall d hd).1
  rw [← hrated.max, ← hrated.peak] at hpeak
  refine ⟨?_, ?_, ?_, hpeak.1, hpeak.2⟩
  · rw [hrated.total, hticks, List.headD_cons]
  · rw [hrated.byteSec, hticks, growths, List.headD_cons]
  · rw [hrated.seconds, length_growths]

/-- The steps of a server's monitor through `n` connected ticks, between which 200000000 bytes are
received, and on to the next tick. -/
def longTransfer (n : Nat) : List MLoopLabel :=
  let step := .step fun _ => ⟨none, none⟩
  let toTick (i : Nat) := [.env (servedListener .connected (200000000 * i)), step, step]
  .env (servedListener .connected 0) :: step ::
    (List.range n).flatMap (fun i => toTick (i + 1) ++ [step]) ++ toTick (n + 1)

theorem monitor_rates_longTransfer :
    ∃ s t, run tbMonitorFree (.init (tbCreateListener .server .tcp 1408)) (longTransfer 11) = some s ∧
      tbMonitorStep (fun _ => ⟨none, none⟩) s = some t ∧
      t.listener.stats.currentRead = 2400000000 ∧
      TickReport t (t.listener.stats.currentRead - s.ticks.headD 0) (growths t.ticks) :=
  ⟨_, _, rfl, rfl, rfl, (monitor_rates (tbCreateListener .server .tcp 1408) (longTransfer 11) _ _
    (fun _ => ⟨none, none⟩) rfl rfl rfl (by decide)).2⟩

end TestBed
