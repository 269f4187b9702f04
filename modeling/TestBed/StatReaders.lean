import TestBed.MonitorLoop

/-!
# Readers of the statistics

Any number of threads call `tb_ex_get_stat_cpy` while the monitor refreshes the statistics. `stat_lock`
is taken as a working lock, so that a section under it is one step. A reader that finds the sample
already read waits on `stat_cond`, which gives the lock back; it is woken by a refresh or for no reason
(`wake`), and takes the lock again some time later (`resume`).

The flag is tested before the wait and not after it. The samples handed out are separated by refreshes
as long as every reader that resumes finds an unread sample (`samples_separated`).
-/

namespace TestBed

open Transition

inductive ReaderPc
  | outside
  | waiting
  /-- Woken, but without the lock. -/
  | woken
  deriving DecidableEq, Repr

inductive StatEvent
  | update
  /-- The reader's call returns with a copy of the statistics. -/
  | ret (reader : Nat) (stats : ProtStats)
  deriving DecidableEq, Repr

structure StatSystem where
  listener : Listener
  /-- `listener->stats->stat_time` -/
  statTime : TbTime
  readers : List ReaderPc
  /-- The refreshes and the returns, latest first. -/
  log : List StatEvent
  deriving DecidableEq, Repr

inductive StatLabel
  /-- A reader calls `tb_ex_get_stat_cpy` and takes the lock. -/
  | enter (k : Nat)
  | wake (k : Nat)
  | resume (k : Nat)
  /-- `tb_set_l_stats` or `tb_set_m_stats`, whose signal wakes the reader `k`. -/
  | update (q : Nat → StatsQuery) (k : Option Nat)
  /-- The other threads leave the listener as `l`. -/
  | env (l : Listener)

def StatSystem.init (l : Listener) (n : Nat) : StatSystem :=
  ⟨l, tbCreateTime, List.replicate n .outside, []⟩

def StatSystem.setReader (s : StatSystem) (k : Nat) (pc : ReaderPc) : StatSystem :=
  { s with readers := s.readers.set k pc }

/-- The status is neither `TB_EXITING` nor `TB_ABORTING`. -/
def Running (l : Listener) : Prop := l.status ≠ .aborting ∧ l.status ≠ .exiting

instance (l : Listener) : Decidable (Running l) := inferInstanceAs (Decidable (_ ∧ _))

/-- The rest of `tb_ex_get_stat_cpy` after the wait. -/
def takeSample (s : StatSystem) (k : Nat) : StatSystem :=
  let stats := { s.listener.stats with id := s.listener.stats.id + 1 }
  { s.setReader k .outside with
    listener := { s.listener with stats := stats, read := 1, statLock := false }
    statTime := if ¬ s.statTime.started then tbStartTime s.statTime else tbFinishTime s.statTime
    log := .ret k stats :: s.log }

/-- `pthread_cond_signal`: one of the waiting readers, if there are any. -/
def signal (s : StatSystem) : Option Nat → Option StatSystem
  | none => if .waiting ∈ s.readers then none else some s
  | some k => if s.readers[k]? = some .waiting then some (s.setReader k .woken) else none

def statStep (s : StatSystem) : StatLabel → Option StatSystem
  | .enter k =>
    if s.readers[k]? = some .outside then
      some (if s.listener.read = 1 ∧ Running s.listener then s.setReader k .waiting
        else takeSample s k)
    else none
  | .wake k => if s.readers[k]? = some .waiting then some (s.setReader k .woken) else none
  | .resume k => if s.readers[k]? = some .woken then some (takeSample s k) else none
  | .update q k =>
    (signal s k).map fun t =>
      { t with listener := refresh q t.listener, log := .update :: t.log }
  | .env l => if l.read = s.listener.read then some { s with listener := l } else none

/-! ## Histories -/

/-- No sample has been handed out since the last refresh. -/
def Unread (log : List StatEvent) : Prop :=
  ∀ mid k a post, log = mid ++ .ret k a :: post → .update ∈ mid

/-- There is a refresh between any two returns. -/
def Separated (log : List StatEvent) : Prop :=
  ∀ pre k a post, log = pre ++ .ret k a :: post → Unread post

theorem unread_update (log : List StatEvent) : Unread (.update :: log) := by
  intro mid k a post h
  cases mid with
  | nil => simp at h
  | cons e mid =>
    obtain ⟨rfl, -⟩ := List.cons.inj h
    exact List.mem_cons_self

theorem Separated.update {log : List StatEvent} (h : Separated log) :
    Separated (.update :: log) := by
  intro pre k a post hlog
  cases pre with
  | nil => simp at hlog
  | cons e pre =>
    obtain ⟨-, htail⟩ := List.cons.inj hlog
    exact h pre k a post htail

theorem Separated.ret {log : List StatEvent} (h : Separated log) (hu : Unread log) (k : Nat)
    (a : ProtStats) : Separated (.ret k a :: log) := by
  intro pre k' a' post hlog
  cases pre with
  | nil =>
    obtain ⟨-, rfl⟩ := List.cons.inj hlog
    exact hu
  | cons e pre =>
    obtain ⟨-, htail⟩ := List.cons.inj hlog
    exact h pre k' a' post htail

/-! ## Runs -/

/-- The handshake: the flag says whether the sample has been handed out. -/
structure Handshake (s : StatSystem) : Prop where
  separated : Separated s.log
  flag : s.listener.read ≠ 1 → Unread s.log

theorem handshake_init (l : Listener) (n : Nat) : Handshake (.init l n) := by
  refine ⟨?_, fun _ => ?_⟩
  · intro pre k a post h
    simp [StatSystem.init] at h
  · intro mid k a post h
    simp [StatSystem.init] at h

theorem Handshake.takeSample {s : StatSystem} (h : Handshake s) (hread : s.listener.read ≠ 1)
    (k : Nat) : Handshake (takeSample s k) :=
  ⟨h.separated.ret (h.flag hread) k _, fun hne => absurd rfl hne⟩

theorem signal_eq_some {s t : StatSystem} {k : Option Nat} (h : signal s k = some t) :
    t.listener = s.listener ∧ t.log = s.log := by
  cases k with
  | none =>
    simp only [signal, Option.ite_none_left_eq_some, Option.some.injEq] at h
    obtain ⟨-, rfl⟩ := h
    exact ⟨rfl, rfl⟩
  | some k =>
    simp only [signal, Option.ite_none_right_eq_some, Option.some.injEq] at h
    obtain ⟨-, rfl⟩ := h
    exact ⟨rfl, rfl⟩

/-- The listener is running, and a reader that takes the lock again finds an unread sample. -/
def FindsUnread (s : StatSystem) : StatLabel → Prop
  | .resume _ => Running s.listener ∧ s.listener.read ≠ 1
  | _ => Running s.listener

instance (s : StatSystem) (l : StatLabel) : Decidable (FindsUnread s l) := by
  cases l <;> unfold FindsUnread <;> infer_instance

theorem Handshake.step {s t : StatSystem} {l : StatLabel} (hs : Handshake s)
    (hl : FindsUnread s l) (h : statStep s l = some t) : Handshake t := by
  cases l with
  | enter k =>
    simp only [statStep, Option.ite_none_right_eq_some, Option.some.injEq] at h
    obtain ⟨-, rfl⟩ := h
    by_cases hread : s.listener.read = 1
    · rw [if_pos ⟨hread, hl⟩]
      exact ⟨hs.separated, hs.flag⟩
    · rw [if_neg (fun hc => hread hc.1)]
      exact hs.takeSample hread k
  | wake k =>
    simp only [statStep, Option.ite_none_right_eq_some, Option.some.injEq] at h
    obtain ⟨-, rfl⟩ := h
    exact ⟨hs.separated, hs.flag⟩
  | resume k =>
    simp only [statStep, Option.ite_none_right_eq_some, Option.some.injEq] at h
    obtain ⟨-, rfl⟩ := h
    exact hs.takeSample hl.2 k
  | update q k =>
    simp only [statStep, Option.map_eq_some_iff] at h
    obtain ⟨r, hr, rfl⟩ := h
    obtain ⟨-, hlog⟩ := signal_eq_some hr
    refine ⟨?_, fun _ => unread_update r.log⟩
    simp only [hlog]
    exact hs.separated.update
  | env l =>
    simp only [statStep, Option.ite_none_right_eq_some, Option.some.injEq] at h
    obtain ⟨hread, rfl⟩ := h
    exact ⟨hs.separated, fun hne => hs.flag (hread ▸ hne)⟩

/-- **Samples are handed out once.** In every run of a running listener whose readers all find an
unread sample when they resume, a refresh stands between any two returns. -/
theorem samples_separated (l : Listener) (n : Nat) (ls : List StatLabel) (s : StatSystem)
    (hm : Meets statStep FindsUnread (.init l n) ls)
    (h : run statStep (.init l n) ls = some s) : Separated s.log :=
  (run_invariant_of_meets (handshake_init l n) (fun _ _ _ hi hl ht => hi.step hl ht) hm h).separated

/-- One reader waits, is woken by the refresh and resumes. -/
def readerWaits : List StatLabel :=
  [.enter 0, .enter 0, .update (fun _ => ⟨none, none⟩) (some 0), .resume 0]

/-- A second reader takes the sample before the woken reader has the lock again. -/
def readerLate : List StatLabel :=
  [.enter 0, .enter 0, .update (fun _ => ⟨none, none⟩) (some 0), .enter 1, .resume 0]

theorem samples_separated_readerWaits :
    ∃ s, run statStep (.init (servedListener .connected 5) 2) readerWaits = some s ∧
      s.log.length = 3 ∧ Separated s.log :=
  ⟨_, rfl, rfl,
    samples_separated (servedListener .connected 5) 2 readerWaits _ (by decide) rfl⟩

theorem samples_repeated :
    ¬ ∀ (l : Listener) (n : Nat) (ls : List StatLabel) (s : StatSystem),
      Meets statStep (fun s _ => Running s.listener) (.init l n) ls →
      run statStep (.init l n) ls = some s → Separated s.log := by
  intro h
  have hsep := h (servedListener .connected 5) 2 readerLate _ (by decide) rfl
  have hupdate := hsep [] 0 _ _ rfl [] 1 _ _ rfl
  cases hupdate

end TestBed
