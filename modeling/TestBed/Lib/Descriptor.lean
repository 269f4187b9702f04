import TestBed.Lib.Transition
import Mathlib.Data.List.Basic

/-!
# Traces of descriptor calls

A process gets integers from the system that stand for open descriptors, and gives them back. A trace
is the list of these calls, the latest first. `stateOf` is what the system knows of a value after a
trace. `ClosedOnce` says that no value is given back a second time without having been handed out
again. A program shows it by its ownership: `Owned t own` says that each of its parts `i` still has to
give back the descriptor `own i`. `tracedStep` keeps the trace of a system whose steps make such calls.
-/

namespace Descriptor

inductive Event
  | opened (v : Int)
  | closed (v : Int)
  deriving DecidableEq, Repr

inductive State
  | never
  | live
  | dead
  deriving DecidableEq, Repr

/-- The state of a value after a trace. Closing a value that was never handed out does nothing. -/
def stateOf : List Event → Int → State
  | [], _ => .never
  | .opened u :: t, v => if u = v then .live else stateOf t v
  | .closed u :: t, v => if u = v ∧ stateOf t v ≠ .never then .dead else stateOf t v

/-- No value that was handed out is closed twice without having been handed out in between. -/
def ClosedOnce (t : List Event) : Prop :=
  ∀ post mid pre v, t = post ++ .closed v :: (mid ++ .closed v :: pre) → .opened v ∈ pre →
    .opened v ∈ mid

variable {t : List Event} {v : Int}

theorem stateOf_opened (t : List Event) (u v : Int) :
    stateOf (.opened u :: t) v = if u = v then .live else stateOf t v := rfl

@[simp] theorem stateOf_opened_self (t : List Event) (v : Int) :
    stateOf (.opened v :: t) v = .live := by simp [stateOf]

theorem stateOf_closed_ne {u : Int} (h : u ≠ v) : stateOf (.closed u :: t) v = stateOf t v := by
  simp [stateOf, h]

theorem stateOf_closed_self (h : stateOf t v = .live) : stateOf (.closed v :: t) v = .dead := by
  simp [stateOf, h]

theorem stateOf_never_iff : stateOf t v = .never ↔ .opened v ∉ t := by
  induction t with
  | nil => simp [stateOf]
  | cons e t ih =>
    cases e with
    | opened u =>
      by_cases h : u = v
      · simp [stateOf, h]
      · simp [stateOf, h, ih, Ne.symm h]
    | closed u =>
      by_cases h : u = v ∧ stateOf t v ≠ .never
      · rw [stateOf, if_pos h]
        simpa [ih] using h.2
      · rw [stateOf, if_neg h]
        simpa using ih

/-- A value is dead if it was handed out, then closed, and not handed out since. -/
theorem stateOf_dead_iff : stateOf t v = .dead ↔
    ∃ mid pre, t = mid ++ .closed v :: pre ∧ .opened v ∈ pre ∧ .opened v ∉ mid := by
  induction t with
  | nil => simp [stateOf]
  | cons e t ih =>
    have hskip : (∃ mid pre, e :: t = mid ++ .closed v :: pre ∧ .opened v ∈ pre ∧ .opened v ∉ mid) ↔
        (e = .closed v ∧ .opened v ∈ t) ∨ (e ≠ .opened v ∧ stateOf t v = .dead) := by
      rw [ih]
      constructor
      · rintro ⟨mid, pre, heq, hpre, hmid⟩
        cases mid with
        | nil =>
          rw [List.nil_append, List.cons.injEq] at heq
          obtain ⟨rfl, rfl⟩ := heq
          exact .inl ⟨rfl, hpre⟩
        | cons e' mid =>
          rw [List.cons_append, List.cons.injEq] at heq
          obtain ⟨rfl, rfl⟩ := heq
          rw [List.mem_cons, not_or] at hmid
          exact .inr ⟨Ne.symm hmid.1, mid, pre, rfl, hpre, hmid.2⟩
      · rintro (⟨rfl, hpre⟩ | ⟨hne, mid, pre, rfl, hpre, hmid⟩)
        · exact ⟨[], t, rfl, hpre, List.not_mem_nil⟩
        · refine ⟨e :: mid, pre, rfl, hpre, ?_⟩
          rw [List.mem_cons, not_or]
          exact ⟨Ne.symm hne, hmid⟩
    rw [hskip]
    cases e with
    | opened u =>
      by_cases h : u = v
      · simp [stateOf, h]
      · simp [stateOf, h]
    | closed u =>
      have hopen : Event.opened v ∈ t ↔ stateOf t v ≠ .never := by
        rw [Ne, stateOf_never_iff, not_not]
      by_cases h : u = v
      · by_cases hn : stateOf t v = .never
        · simp [stateOf, h, hn, hopen]
        · simp [stateOf, h, hn, hopen]
      · simp [stateOf, h]

/-! ## Closing once -/

theorem closedOnce_nil : ClosedOnce [] := by
  intro post mid pre v h
  simp at h

theorem closedOnce_opened (u : Int) : ClosedOnce (.opened u :: t) ↔ ClosedOnce t := by
  constructor
  · rintro h post mid pre v rfl hpre
    exact h (.opened u :: post) mid pre v rfl hpre
  · intro h post mid pre v heq hpre
    cases post with
    | nil => cases heq
    | cons e post =>
      rw [List.cons_append, List.cons.injEq] at heq
      exact h post mid pre v heq.2 hpre

/-- A close is the first since the value was handed out if the value is not dead. -/
theorem closedOnce_closed : ClosedOnce (.closed v :: t) ↔ stateOf t v ≠ .dead ∧ ClosedOnce t := by
  rw [Ne, stateOf_dead_iff]
  constructor
  · refine fun h => ⟨?_, fun post mid pre w heq hpre => ?_⟩
    · rintro ⟨mid, pre, rfl, hpre, hmid⟩
      exact hmid (h [] mid pre v rfl hpre)
    · subst heq
      exact h (.closed v :: post) mid pre w rfl hpre
  · rintro ⟨hdead, h⟩ post mid pre w heq hpre
    cases post with
    | nil =>
      rw [List.nil_append, List.cons.injEq, Event.closed.injEq] at heq
      obtain ⟨rfl, rfl⟩ := heq
      by_contra hmid
      exact hdead ⟨mid, pre, rfl, hpre, hmid⟩
    | cons e post =>
      rw [List.cons_append, List.cons.injEq] at heq
      exact h post mid pre w heq.2 hpre

/-- The definition that can be evaluated. -/
def closedOnce : List Event → Bool
  | [] => true
  | .opened _ :: t => closedOnce t
  | .closed v :: t => stateOf t v ≠ .dead && closedOnce t

theorem closedOnce_iff : closedOnce t = true ↔ ClosedOnce t := by
  induction t with
  | nil => simp [closedOnce, closedOnce_nil]
  | cons e t ih =>
    cases e with
    | opened u => rw [closedOnce_opened, ← ih, closedOnce]
    | closed v => simp [closedOnce_closed, ← ih, closedOnce]

instance : Decidable (ClosedOnce t) := decidable_of_iff _ closedOnce_iff

/-- The values handed out, in order. -/
def opens : List Event → List Int
  | [] => []
  | .opened v :: t => opens t ++ [v]
  | .closed _ :: t => opens t

/-! ## Ownership -/

section Owned

variable {ι : Type} {own own' : ι → Option Int} {i : ι}

/-- After the trace `t` the program still has to close the descriptors `own i`, each once. -/
structure Owned (t : List Event) (own : ι → Option Int) : Prop where
  once : ClosedOnce t
  live : ∀ i v, own i = some v → stateOf t v = .live
  inj : ∀ i j v, own i = some v → own j = some v → i = j

theorem Owned.mono (h : Owned t own) (hle : ∀ j w, own' j = some w → own j = some w) :
    Owned t own' :=
  ⟨h.once, fun j w hj => h.live j w (hle j w hj),
    fun j k w hj hk => h.inj j k w (hle j w hj) (hle k w hk)⟩

/-- The system hands out a value that is not open, to the owner `i`. -/
theorem Owned.opened (h : Owned t own) (hv : stateOf t v ≠ .live) (i : ι)
    (hown : ∀ j w, own' j = some w → (j = i ∧ w = v) ∨ own j = some w) :
    Owned (.opened v :: t) own' := by
  refine ⟨(closedOnce_opened v).mpr h.once, fun j w hj => ?_, fun j k w hj hk => ?_⟩
  · rcases hown j w hj with ⟨-, rfl⟩ | hold
    · exact stateOf_opened_self t w
    · rw [stateOf_opened, h.live j w hold]
      exact ite_self _
  · rcases hown j w hj with ⟨rfl, rfl⟩ | hold
    · rcases hown k w hk with ⟨rfl, -⟩ | hold'
      · rfl
      · exact absurd (h.live k w hold') hv
    · rcases hown k w hk with ⟨rfl, rfl⟩ | hold'
      · exact absurd (h.live j w hold) hv
      · exact h.inj j k w hold hold'

theorem owned_nil : Owned [] fun _ : ι => none := ⟨closedOnce_nil, nofun, nofun⟩

/-- At first there is one descriptor, which `i` owns. -/
theorem owned_first (i : ι) (hown : ∀ j w, own j = some w → j = i ∧ w = v) :
    Owned [.opened v] own :=
  owned_nil.opened State.noConfusion i fun j w hj => .inl (hown j w hj)

/-- The owner `i` closes its descriptor. -/
theorem Owned.closed (h : Owned t own) (hi : own i = some v)
    (hown : ∀ j w, own' j = some w → j ≠ i ∧ own j = some w) :
    Owned (.closed v :: t) own' := by
  have hlive := h.live i v hi
  refine ⟨closedOnce_closed.mpr ⟨?_, h.once⟩, fun j w hj => ?_, fun j k w hj hk => ?_⟩
  · rw [hlive]
    exact State.noConfusion
  · obtain ⟨hne, hold⟩ := hown j w hj
    have hvw : v ≠ w := by
      rintro rfl
      exact hne (h.inj j i v hold hi)
    rw [stateOf_closed_ne hvw]
    exact h.live j w hold
  · exact h.inj j k w (hown j w hj).2 (hown k w hk).2

end Owned

/-! ## Systems with their trace -/

/-- The trace that further calls lead to; what is handed out must not be open. -/
def follow : List Event → List Event → Option (List Event)
  | t, [] => some t
  | t, .opened v :: es =>
    if 0 ≤ v ∧ stateOf t v ≠ .live then follow (.opened v :: t) es else none
  | t, .closed v :: es => follow (.closed v :: t) es

structure Traced (σ : Type) where
  sys : σ
  trace : List Event
  deriving DecidableEq, Repr

/-- The steps of a system that makes the calls `calls s l` in its step `l` from `s`. -/
def tracedStep {σ ℓ : Type} (step : σ → ℓ → Option σ) (calls : σ → ℓ → List Event) (s : Traced σ)
    (l : ℓ) : Option (Traced σ) :=
  match step s.sys l, follow s.trace (calls s.sys l) with
  | some sys, some trace => some ⟨sys, trace⟩
  | _, _ => none

theorem tracedStep_eq_some {σ ℓ : Type} {step : σ → ℓ → Option σ} {calls : σ → ℓ → List Event}
    {s s' : Traced σ} {l : ℓ} : tracedStep step calls s l = some s' ↔
      step s.sys l = some s'.sys ∧ follow s.trace (calls s.sys l) = some s'.trace := by
  unfold tracedStep
  split
  · next sys trace hsys htrace =>
    rw [hsys, htrace, Option.some.injEq, Option.some.injEq, Option.some.injEq]
    constructor
    · rintro rfl
      exact ⟨rfl, rfl⟩
    · rintro ⟨rfl, rfl⟩
      rfl
  · next hnone =>
    constructor
    · intro h
      cases h
    · rintro ⟨hsys, htrace⟩
      exact (hnone _ _ hsys htrace).elim

/-- A run of the system with its trace is a run of the system. -/
theorem run_sys {σ ℓ : Type} {step : σ → ℓ → Option σ} {calls : σ → ℓ → List Event}
    {s t : Traced σ} {ls : List ℓ} (h : Transition.run (tracedStep step calls) s ls = some t) :
    Transition.run step s.sys ls = some t.sys := by
  refine Transition.run_induction (P := fun ls t => Transition.run step s.sys ls = some t.sys) rfl
    ?_ h
  intro ls s l t _ hs ht
  exact Transition.run_concat_eq_some.mpr ⟨s.sys, hs, (tracedStep_eq_some.mp ht).1⟩

theorem follow_opened {t' es : List Event} (h : follow t (.opened v :: es) = some t') :
    (0 ≤ v ∧ stateOf t v ≠ .live) ∧ follow (.opened v :: t) es = some t' := by
  simp only [follow] at h
  split at h
  · next hfresh => exact ⟨hfresh, h⟩
  · cases h

end Descriptor
