import TestBed.Lib.Transition
import Mathlib.Data.List.Perm.Basic

/-!
# Threads that update a variable between `trylock` and `unlock`

Any number of threads each make a sequence of calls. A call tries for the mutex, reads the variable,
writes it and unlocks the mutex, and returns the value it wrote. A failed `trylock` returns at once
and the call goes on without the mutex; `unlock` frees the mutex whoever holds it. Every label is the
position of the thread that takes its next step.

Every write is recorded with the value it overwrites. As long as every `trylock` finds the mutex free
(`Unlocked`), at most one thread is inside a call (`Guarded.inside_eq`) and the record is a sequential
history of the calls (`run_sequential`).
-/

namespace TryLock

open Transition

variable {α ω : Type}

/-- The point of a thread: `idle` is between two calls. -/
inductive Pc (α ω : Type)
  | idle
  | read (op : ω)
  | write (op : ω) (v : α)
  | unlock
  deriving DecidableEq, Repr

structure Thread (α ω : Type) where
  pc : Pc α ω
  /-- The calls not yet begun. -/
  todo : List ω
  deriving DecidableEq, Repr

/-- A write: the value it overwrote and the value it wrote, which the call returns. -/
structure Call (α ω : Type) where
  op : ω
  before : α
  ret : α
  deriving DecidableEq, Repr

structure Sys (α ω : Type) where
  locked : Bool
  val : α
  threads : List (Thread α ω)
  /-- The writes so far, latest first. -/
  calls : List (Call α ω)
  deriving DecidableEq, Repr

def Sys.init (v : α) (progs : List (List ω)) : Sys α ω :=
  ⟨false, v, progs.map (Thread.mk .idle), []⟩

def Thread.Inside (t : Thread α ω) : Prop := t.pc ≠ .idle

def Sys.Finished (s : Sys α ω) : Prop := ∀ t ∈ s.threads, t.pc = .idle ∧ t.todo = []

instance [DecidableEq α] [DecidableEq ω] (s : Sys α ω) : Decidable s.Finished :=
  inferInstanceAs (Decidable (∀ t ∈ s.threads, t.pc = .idle ∧ t.todo = []))

instance [DecidableEq α] [DecidableEq ω] (t : Thread α ω) : Decidable t.Inside :=
  inferInstanceAs (Decidable (t.pc ≠ .idle))

def Sys.setThread (s : Sys α ω) (i : Nat) (t : Thread α ω) : Sys α ω :=
  { s with threads := s.threads.set i t }

/-- The next step of thread `i`. -/
def step (apply : ω → α → α) (s : Sys α ω) (i : Nat) : Option (Sys α ω) :=
  match s.threads[i]? with
  | none => none
  | some t =>
    match t.pc, t.todo with
    | .idle, [] => none
    -- the result of `trylock` is not looked at: the call goes on in either case
    | .idle, op :: ops => some { s.setThread i ⟨.read op, ops⟩ with locked := true }
    | .read op, ops => some (s.setThread i ⟨.write op s.val, ops⟩)
    | .write op v, ops =>
      some { s.setThread i ⟨.unlock, ops⟩ with
        val := apply op v
        calls := ⟨op, s.val, apply op v⟩ :: s.calls }
    | .unlock, ops => some { s.setThread i ⟨.idle, ops⟩ with locked := false }

/-- The step is not a `trylock`, or it finds the mutex free. -/
def Unlocked (s : Sys α ω) (i : Nat) : Prop :=
  ∀ t, s.threads[i]? = some t → t.pc = .idle → s.locked = false

instance [DecidableEq α] [DecidableEq ω] (s : Sys α ω) (i : Nat) : Decidable (Unlocked s i) :=
  match h : s.threads[i]? with
  | none => isTrue (by simp [Unlocked, h])
  | some t => decidable_of_iff (t.pc = .idle → s.locked = false) (by simp [Unlocked, h])

/-- The calls, latest first, take the variable from `v₀` to `v` one after the other. -/
def Sequential (apply : ω → α → α) (v₀ : α) : List (Call α ω) → α → Prop
  | [], v => v = v₀
  | c :: cs, v => v = c.ret ∧ c.ret = apply c.op c.before ∧ Sequential apply v₀ cs c.before

theorem Sequential.mem {apply : ω → α → α} {v₀ v : α} {cs : List (Call α ω)}
    (h : Sequential apply v₀ cs v) {c : Call α ω} (hc : c ∈ cs) :
    c.ret = apply c.op c.before := by
  induction cs generalizing v with
  | nil => cases hc
  | cons d ds ih =>
    obtain ⟨-, hd, hds⟩ := h
    cases hc with
    | head => exact hd
    | tail _ hc => exact ih hds hc

/-! ## Steps -/

variable {apply : ω → α → α} {s s' : Sys α ω} {i : Nat}

/-- The four steps of a call. -/
inductive Move (apply : ω → α → α) (s : Sys α ω) (i : Nat) : Sys α ω → Prop
  | tries (op : ω) (ops : List ω) (h : s.threads[i]? = some ⟨.idle, op :: ops⟩) :
    Move apply s i { s.setThread i ⟨.read op, ops⟩ with locked := true }
  | reads (op : ω) (ops : List ω) (h : s.threads[i]? = some ⟨.read op, ops⟩) :
    Move apply s i (s.setThread i ⟨.write op s.val, ops⟩)
  | writes (op : ω) (v : α) (ops : List ω) (h : s.threads[i]? = some ⟨.write op v, ops⟩) :
    Move apply s i { s.setThread i ⟨.unlock, ops⟩ with
      val := apply op v
      calls := ⟨op, s.val, apply op v⟩ :: s.calls }
  | unlocks (ops : List ω) (h : s.threads[i]? = some ⟨.unlock, ops⟩) :
    Move apply s i { s.setThread i ⟨.idle, ops⟩ with locked := false }

theorem step_move (h : step apply s i = some s') : Move apply s i s' := by
  unfold step at h
  split at h
  · cases h
  · next t ht =>
    obtain ⟨pc, todo⟩ := t
    cases pc with
    | idle =>
      cases todo with
      | nil => cases h
      | cons op ops =>
        cases h
        exact .tries op ops ht
    | read op =>
      cases h
      exact .reads op todo ht
    | write op v =>
      cases h
      exact .writes op v todo ht
    | unlock =>
      cases h
      exact .unlocks todo ht

/-! ## The calls made and to be made -/

/-- The calls of a thread that have not written yet. -/
def Thread.pending (t : Thread α ω) : List ω :=
  match t.pc with
  | .read op | .write op _ => op :: t.todo
  | .idle | .unlock => t.todo

theorem flatMap_set_eq {β γ : Type} {f : β → List γ} {xs : List β} {i : Nat} {x y : β}
    (h : xs[i]? = some x) (hf : f y = f x) : (xs.set i y).flatMap f = xs.flatMap f := by
  induction xs generalizing i with
  | nil => simp at h
  | cons z zs ih =>
    cases i with
    | zero =>
      obtain rfl : z = x := by simpa using h
      simp [hf]
    | succ i => simpa using ih (by simpa using h)

theorem flatMap_set_perm {β γ : Type} {f : β → List γ} {xs : List β} {i : Nat} {x y : β} {a : γ}
    (h : xs[i]? = some x) (hf : f x = a :: f y) :
    (xs.flatMap f).Perm (a :: (xs.set i y).flatMap f) := by
  induction xs generalizing i with
  | nil => simp at h
  | cons z zs ih =>
    cases i with
    | zero =>
      obtain rfl : z = x := by simpa using h
      simp [hf]
    | succ i =>
      have hzs := ih (i := i) (by simpa using h)
      calc (z :: zs).flatMap f
        _ = f z ++ zs.flatMap f := List.flatMap_cons
        _ |>.Perm (f z ++ a :: (zs.set i y).flatMap f) := hzs.append_left (f z)
        _ |>.Perm (a :: (f z ++ (zs.set i y).flatMap f)) := List.perm_middle
        _ = a :: ((z :: zs).set (i + 1) y).flatMap f := by simp

/-- The calls that have written and those that have not are all the calls of the programs. -/
def Complete (progs : List (List ω)) (s : Sys α ω) : Prop :=
  (s.calls.map (·.op) ++ s.threads.flatMap Thread.pending).Perm progs.flatten

theorem complete_init (v : α) (progs : List (List ω)) : Complete progs (Sys.init v progs) := by
  have h : (progs.map (Thread.mk (.idle : Pc α ω))).flatMap Thread.pending = progs.flatten := by
    induction progs with
    | nil => rfl
    | cons ops progs ih => simpa [Thread.pending] using ih
  simp [Complete, Sys.init, h]

theorem Complete.step {progs : List (List ω)} (hc : Complete progs s)
    (h : step apply s i = some s') : Complete progs s' := by
  unfold Complete at *
  cases step_move h with
  | tries op ops ht | reads op ops ht | unlocks ops ht =>
    simp only [Sys.setThread]
    rwa [flatMap_set_eq (f := Thread.pending) ht]
    rfl
  | writes op v ops ht =>
    have hpend := flatMap_set_perm (f := Thread.pending) (y := ⟨.unlock, ops⟩) (a := op) ht rfl
    refine List.Perm.trans ?_ hc
    simp only [Sys.setThread, List.map_cons, List.cons_append]
    exact List.perm_middle.symm.trans (hpend.symm.append_left _)

/-! ## Exclusion -/

/-- What holds while no `trylock` has failed. -/
structure Guarded (apply : ω → α → α) (v₀ : α) (s : Sys α ω) : Prop where
  free : s.locked = false → ∀ t ∈ s.threads, t.pc = .idle
  inside_eq : ∀ (i j : Nat) (t u : Thread α ω), s.threads[i]? = some t → s.threads[j]? = some u →
    t.Inside → u.Inside → i = j
  current : ∀ t ∈ s.threads, ∀ op v, t.pc = .write op v → v = s.val
  sequential : Sequential apply v₀ s.calls s.val

theorem guarded_init (v : α) (progs : List (List ω)) :
    Guarded apply v (Sys.init v progs) := by
  have hidle : ∀ t ∈ (Sys.init v progs).threads, t.pc = .idle := by
    intro t ht
    obtain ⟨ops, -, rfl⟩ := List.mem_map.mp ht
    rfl
  refine ⟨fun _ => hidle, fun i j t u ht _ hin _ => ?_, fun t ht op v hpc => ?_, rfl⟩
  · exact absurd (hidle t (List.mem_of_getElem? ht)) hin
  · rw [hidle t ht] at hpc
    cases hpc

/-- The thread that is inside a call is the only one. -/
theorem Guarded.others_idle {v₀ : α} (hs : Guarded apply v₀ s) {t : Thread α ω}
    (ht : s.threads[i]? = some t) (hin : t.Inside) {j : Nat} {u : Thread α ω} (hij : i ≠ j)
    (hu : s.threads[j]? = some u) : u.pc = .idle := by
  by_contra hne
  exact hij (hs.inside_eq i j t u ht hu hin hne)

/-- A thread that moves while the others are idle keeps the exclusion. -/
theorem guarded_set {v₀ : α} {t : Thread α ω}
    (hothers : ∀ j u, i ≠ j → s.threads[j]? = some u → u.pc = .idle)
    (hfree : s.locked = false → t.pc = .idle)
    (hcurrent : ∀ op v, t.pc = .write op v → v = s.val)
    (hseq : Sequential apply v₀ s.calls s.val) : Guarded apply v₀ (s.setThread i t) := by
  have hset : ∀ j u, (s.threads.set i t)[j]? = some u → u.pc = .idle ∨ i = j ∧ u = t := by
    intro j u hu
    by_cases hij : i = j
    · subst hij
      rw [List.getElem?_set_self'] at hu
      cases hi : s.threads[i]? <;> simp_all
    · rw [List.getElem?_set_ne hij] at hu
      exact .inl (hothers j u hij hu)
  have hmem : ∀ u ∈ s.threads.set i t, u.pc = .idle ∨ u = t := by
    intro u hu
    obtain ⟨j, hj⟩ := List.mem_iff_getElem?.mp hu
    exact (hset j u hj).imp_right And.right
  refine ⟨fun hl u hu => ?_, fun j k u w hu hw hin hin' => ?_, fun u hu op v hpc => ?_, hseq⟩
  · rcases hmem u hu with h | rfl
    · exact h
    · exact hfree hl
  · obtain ⟨rfl, -⟩ := (hset j u hu).resolve_left hin
    obtain ⟨rfl, -⟩ := (hset k w hw).resolve_left hin'
    rfl
  · rcases hmem u hu with h | rfl
    · rw [h] at hpc
      cases hpc
    · exact hcurrent op v hpc

theorem Guarded.step {v₀ : α} (hs : Guarded apply v₀ s) (hu : Unlocked s i)
    (h : step apply s i = some s') : Guarded apply v₀ s' := by
  cases step_move h with
  | tries op ops ht =>
    have hfree := hs.free (hu _ ht rfl)
    refine guarded_set (s := { s with locked := true }) ?_ nofun nofun hs.sequential
    exact fun j u _ hj => hfree u (List.mem_of_getElem? hj)
  | reads op ops ht =>
    have hothers := fun j u => hs.others_idle ht (by simp [Thread.Inside]) (j := j) (u := u)
    refine guarded_set hothers ?_ ?_ hs.sequential
    · intro hl
      have hidle := hs.free hl _ (List.mem_of_getElem? ht)
      cases hidle
    · rintro _ v ⟨⟩
      rfl
  | writes op v ops ht =>
    have hothers := fun j u => hs.others_idle ht (by simp [Thread.Inside]) (j := j) (u := u)
    -- the value read is still the value of the variable
    obtain rfl : v = s.val := hs.current _ (List.mem_of_getElem? ht) op v rfl
    refine guarded_set (s := { s with val := apply op s.val, calls := _ }) hothers ?_ nofun ?_
    · intro hl
      have hidle := hs.free hl _ (List.mem_of_getElem? ht)
      cases hidle
    · exact ⟨rfl, rfl, hs.sequential⟩
  | unlocks ops ht =>
    have hothers := fun j u => hs.others_idle ht (by simp [Thread.Inside]) (j := j) (u := u)
    exact guarded_set (s := { s with locked := false }) hothers (fun _ => rfl) nofun hs.sequential

/-! ## Runs -/

theorem run_complete {v : α} {progs : List (List ω)} {ls : List Nat}
    (h : run (step apply) (Sys.init v progs) ls = some s) : Complete progs s :=
  run_invariant (complete_init v progs) (fun _ _ _ hi ht => hi.step ht) h

/-- In a run whose `trylock`s all find the mutex free the calls are atomic. -/
theorem run_guarded {v : α} {progs : List (List ω)} {ls : List Nat}
    (hm : Meets (step apply) Unlocked (Sys.init v progs) ls)
    (h : run (step apply) (Sys.init v progs) ls = some s) : Guarded apply v s :=
  run_invariant_of_meets (guarded_init v progs) (fun _ _ _ hi hu ht => hi.step hu ht) hm h

/-- Once every call has returned, the calls made are those of the programs, in some order. -/
theorem Complete.perm {progs : List (List ω)} (hc : Complete progs s) (hf : s.Finished) :
    (s.calls.map (·.op)).Perm progs.flatten := by
  have hnil : s.threads.flatMap Thread.pending = [] := by
    rw [List.flatMap_eq_nil_iff]
    intro t ht
    obtain ⟨hpc, htodo⟩ := hf t ht
    simp [Thread.pending, hpc, htodo]
  unfold Complete at hc
  rwa [hnil, List.append_nil] at hc

end TryLock
