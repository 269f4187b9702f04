import TestBed.Session
import TestBed.Lib.TryLock
import Mathlib.Algebra.Ring.Int.Defs

/-!
# The lock of the connection count

`tb_session_list_inc` and `tb_session_list_dec` without the assumption that a call is one step: each
tries for `nac_lock`, reads `*num_active_conn`, writes it and unlocks. Neither looks at the result of
`pthread_mutex_trylock`, so two threads can be between `trylock` and `unlock` at once, and one of two
updates is then lost. Where every `trylock` finds the lock free the calls are the atomic ones of
`TestBed.Session` (`countLock_replay`).
-/

namespace TestBed

open Transition TryLock

inductive CountOp
  | inc | dec
  deriving DecidableEq, Repr

/-- `++(*num_active_conn)` and `--(*num_active_conn)` -/
def CountOp.apply : CountOp → Int → Int
  | .inc, n => n + 1
  | .dec, n => n - 1

abbrev CountSys := Sys Int CountOp

/-- Threads that call `tb_session_list_inc` and `tb_session_list_dec` on one list. -/
def sessionListCalls : CountSys → Nat → Option CountSys := TryLock.step CountOp.apply

/-- The same call as one atomic step. -/
def CountOp.call : CountOp → SessionList → SessionList × Int
  | .inc => tbSessionListInc
  | .dec => tbSessionListDec

theorem CountOp.call_eq (op : CountOp) (list : SessionList) :
    op.call list =
      ({ list with numActiveConn := op.apply list.numActiveConn },
        op.apply list.numActiveConn) := by
  cases op <;> rfl

/-- The atomic calls `ops`, latest first, and what they return. -/
def replay (list : SessionList) : List CountOp → SessionList × List Int
  | [] => (list, [])
  | op :: ops =>
    let r := replay list ops
    let c := op.call r.1
    (c.1, c.2 :: r.2)

/-- Sequential updates are atomic calls. -/
theorem replay_of_sequential {list : SessionList} {calls : List (Call Int CountOp)} {v : Int}
    (h : Sequential CountOp.apply list.numActiveConn calls v) :
    replay list (calls.map (·.op)) = ({ list with numActiveConn := v }, calls.map (·.ret)) := by
  induction calls generalizing v with
  | nil =>
    cases h
    rfl
  | cons c cs ih =>
    obtain ⟨rfl, hret, hcs⟩ := h
    simp only [List.map_cons, replay, ih hcs, CountOp.call_eq, ← hret]

/-- **Atomicity.** With every `trylock` on a free lock, the list's count and the values the calls
return are those of the atomic calls, made in the order of the writes. -/
theorem countLock_replay {list : SessionList} {progs : List (List CountOp)} {ls : List Nat}
    {s : CountSys} (hm : Meets sessionListCalls Unlocked (Sys.init list.numActiveConn progs) ls)
    (h : run sessionListCalls (Sys.init list.numActiveConn progs) ls = some s) :
    replay list (s.calls.map (·.op)) =
      ({ list with numActiveConn := s.val }, s.calls.map (·.ret)) :=
  replay_of_sequential (run_guarded hm h).sequential

theorem sequential_counts {n v : Int} {calls : List (Call Int CountOp)}
    (h : Sequential CountOp.apply n calls v) :
    v = n + (calls.map (·.op)).count .inc - (calls.map (·.op)).count .dec := by
  induction calls generalizing v with
  | nil =>
    cases h
    simp
  | cons c cs ih =>
    obtain ⟨rfl, hret, hcs⟩ := h
    have hbefore := ih hcs
    rw [hret]
    cases hop : c.op with
    | inc =>
      simp only [CountOp.apply, List.map_cons, hop, List.count_cons_self, Nat.cast_add]
      rw [List.count_cons_of_ne (by decide)]
      omega
    | dec =>
      simp only [CountOp.apply, List.map_cons, hop, List.count_cons_self, Nat.cast_add]
      rw [List.count_cons_of_ne (by decide)]
      omega

/-- The lock excludes, no update is lost, and only the call that brought the count to zero has
returned zero. -/
structure CountLockHolds (n : Int) (progs : List (List CountOp)) (s : CountSys) : Prop where
  excludes : ∀ (i j : Nat) (t u : TryLock.Thread Int CountOp), s.threads[i]? = some t →
    s.threads[j]? = some u → t.Inside → u.Inside → i = j
  counter : s.Finished → s.val = n + progs.flatten.count .inc - progs.flatten.count .dec
  zero : ∀ c ∈ s.calls, c.ret = 0 → c.before ≠ 0 ∧ c.op.apply c.before = 0

/-- In every run whose `trylock`s all find the lock free, the lock keeps its promises. -/
theorem countLock_holds (n : Int) (progs : List (List CountOp)) (ls : List Nat) (s : CountSys)
    (hm : Meets sessionListCalls Unlocked (Sys.init n progs) ls)
    (h : run sessionListCalls (Sys.init n progs) ls = some s) : CountLockHolds n progs s := by
  have hg := run_guarded hm h
  refine ⟨hg.inside_eq, fun hf => ?_, fun c hc hret => ?_⟩
  · have hperm := (run_complete h).perm hf
    rw [← hperm.count_eq, ← hperm.count_eq]
    exact sequential_counts hg.sequential
  · have happly : c.op.apply c.before = 0 := (hg.sequential.mem hc).symm.trans hret
    refine ⟨fun hzero => ?_, happly⟩
    rw [hzero] at happly
    cases hop : c.op <;> simp [hop, CountOp.apply] at happly

/-- Two calls one after the other. -/
theorem countLock_holds_two :
    ∃ s, run sessionListCalls (Sys.init 0 [[.inc], [.dec]]) [0, 0, 0, 0, 1, 1, 1, 1] = some s ∧
      s.Finished ∧ CountLockHolds 0 [[.inc], [.dec]] s :=
  ⟨_, rfl, by decide,
    countLock_holds 0 [[.inc], [.dec]] [0, 0, 0, 0, 1, 1, 1, 1] _ (by decide) rfl⟩

/-- Two increments, each of which reads the count before the other writes it: the count ends at one. -/
theorem countLock_lost_update :
    ¬ ∀ (n : Int) (progs : List (List CountOp)) (ls : List Nat) (s : CountSys),
      run sessionListCalls (Sys.init n progs) ls = some s → CountLockHolds n progs s := by
  intro h
  have hlost := (h 0 [[.inc], [.inc]] [0, 1, 0, 1, 0, 1, 0, 1] _ rfl).counter (by decide)
  exact absurd hlost (by decide)

end TestBed
