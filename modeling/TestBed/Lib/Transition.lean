import Mathlib.Data.List.Basic
import Mathlib.Data.List.Induction
import Mathlib.Data.Option.Basic

/-!
# Partial labelled transitions and their runs

A system is a partial step function `σ → ℓ → Option σ`: the label carries every choice that the
system does not make itself (which party moves, what the environment answers), and `none` says that
the label is not enabled. `run` folds a list of labels. The induction rules below grow a run at its
end, so an invariant may speak about the labels taken so far (`run_induction`), about the state alone
(`run_invariant`), or assume a condition met at every step (`run_invariant_of_meets`).
`run_simulates` carries a forward simulation from one step to whole runs.
-/

namespace Transition

universe u v w

variable {σ : Type u} {ℓ : Type v} {τ : Type u} {m : Type w}

def run (step : σ → ℓ → Option σ) (s : σ) (ls : List ℓ) : Option σ :=
  ls.foldlM step s

/-- Every step of the run along `ls` meets `G` in the state it is taken from. -/
def Meets (step : σ → ℓ → Option σ) (G : σ → ℓ → Prop) (s : σ) (ls : List ℓ) : Prop :=
  ∀ pre l t, pre ++ [l] <+: ls → run step s pre = some t → G t l

variable {step : σ → ℓ → Option σ}

@[simp] theorem run_nil (s : σ) : run step s [] = some s := rfl

@[simp] theorem run_cons (s : σ) (l : ℓ) (ls : List ℓ) :
    run step s (l :: ls) = (step s l).bind (run step · ls) := rfl

theorem run_singleton (s : σ) (l : ℓ) : run step s [l] = step s l := by
  simp

theorem run_append (s : σ) (ls ls' : List ℓ) :
    run step s (ls ++ ls') = (run step s ls).bind (run step · ls') := by
  simp only [run, List.foldlM_append]
  rfl

theorem run_append_eq_some {s t : σ} {ls ls' : List ℓ} :
    run step s (ls ++ ls') = some t ↔ ∃ r, run step s ls = some r ∧ run step r ls' = some t := by
  rw [run_append, Option.bind_eq_some_iff]

theorem run_concat_eq_some {s t : σ} {ls : List ℓ} {l : ℓ} :
    run step s (ls ++ [l]) = some t ↔ ∃ r, run step s ls = some r ∧ step r l = some t := by
  rw [run_append_eq_some]
  simp

/-! ## Induction along a run -/

/-- Induction along a run, with the labels taken so far in view. -/
theorem run_induction {P : List ℓ → σ → Prop} {s₀ : σ} (h0 : P [] s₀)
    (hstep : ∀ ls s l t, run step s₀ ls = some s → P ls s → step s l = some t → P (ls ++ [l]) t)
    {ls : List ℓ} {s : σ} (h : run step s₀ ls = some s) : P ls s := by
  induction ls using List.reverseRecOn generalizing s with
  | nil =>
    simp only [run_nil, Option.some.injEq] at h
    exact h ▸ h0
  | append_singleton ls l ih =>
    obtain ⟨r, hr, hl⟩ := run_concat_eq_some.mp h
    exact hstep ls r l s hr (ih hr) hl

/-- An inductive invariant holds at the end of every run. -/
theorem run_invariant {I : σ → Prop} {s₀ : σ} (h0 : I s₀)
    (hstep : ∀ s l t, I s → step s l = some t → I t)
    {ls : List ℓ} {s : σ} (h : run step s₀ ls = some s) : I s :=
  run_induction (P := fun _ s => I s) h0 (fun _ s l t _ hs ht => hstep s l t hs ht) h

theorem meets_nil (G : σ → ℓ → Prop) (s : σ) : Meets step G s [] := by
  intro pre l t hpre
  simp at hpre

theorem meets_of_forall {G : σ → ℓ → Prop} {s : σ} {ls : List ℓ} (h : ∀ l ∈ ls, ∀ t, G t l) :
    Meets step G s ls :=
  fun _ l t hpre _ => h l (hpre.subset (by simp)) t

theorem Meets.of_append {G : σ → ℓ → Prop} {s : σ} {ls ls' : List ℓ}
    (h : Meets step G s (ls ++ ls')) : Meets step G s ls :=
  fun pre l t hpre => h pre l t (hpre.trans (List.prefix_append ls ls'))

theorem Meets.last {G : σ → ℓ → Prop} {s t : σ} {ls : List ℓ} {l : ℓ}
    (h : Meets step G s (ls ++ [l])) (ht : run step s ls = some t) : G t l :=
  h ls l t (List.prefix_refl _) ht

theorem meets_cons_iff {G : σ → ℓ → Prop} {s : σ} {l : ℓ} {ls : List ℓ} :
    Meets step G s (l :: ls) ↔ G s l ∧ ∀ t, step s l = some t → Meets step G t ls := by
  refine ⟨fun h => ⟨?_, fun t ht pre k u hpre hrun => ?_⟩, fun ⟨hl, h⟩ pre k u hpre hrun => ?_⟩
  · exact h [] l s (by simp) rfl
  · exact h (l :: pre) k u (by simpa using hpre) (by simp [ht, hrun])
  · cases pre with
    | nil =>
      simp only [List.nil_append, List.cons_prefix_cons, List.nil_prefix, and_true] at hpre
      cases hrun
      exact hpre ▸ hl
    | cons j pre =>
      rw [List.cons_append, List.cons_prefix_cons] at hpre
      obtain ⟨rfl, hpre⟩ := hpre
      obtain ⟨t, ht, hrun⟩ := Option.bind_eq_some_iff.mp hrun
      exact h t ht pre k u hpre hrun

instance decidableMeets {G : σ → ℓ → Prop} [∀ s l, Decidable (G s l)] :
    ∀ (s : σ) (ls : List ℓ), Decidable (Meets step G s ls)
  | s, [] => isTrue (meets_nil G s)
  | s, l :: ls =>
    match h : step s l with
    | none => decidable_of_iff (G s l) (by simp [meets_cons_iff, h])
    | some t =>
      have : Decidable (Meets step G t ls) := decidableMeets t ls
      decidable_of_iff (G s l ∧ Meets step G t ls) (by simp [meets_cons_iff, h])

theorem Meets.mono {G H : σ → ℓ → Prop} {s : σ} {ls : List ℓ} (hGH : ∀ t l, G t l → H t l)
    (h : Meets step G s ls) : Meets step H s ls :=
  fun pre l t hpre hrun => hGH t l (h pre l t hpre hrun)

/-- An invariant of the steps that meet `G` holds at the end of every run whose steps all meet it. -/
theorem run_invariant_of_meets {G : σ → ℓ → Prop} {I : σ → Prop} {s₀ : σ} (h0 : I s₀)
    (hstep : ∀ s l t, I s → G s l → step s l = some t → I t)
    {ls : List ℓ} {s : σ} (hG : Meets step G s₀ ls) (h : run step s₀ ls = some s) : I s := by
  refine run_induction (P := fun ls s => Meets step G s₀ ls → I s) (fun _ => h0) ?_ h hG
  intro ls s l t hr hs ht hG
  exact hstep s l t (hs hG.of_append) (hG.last hr) ht

/-- A measure that no step raises, and that the labels with `q` lower, bounds how often they occur. -/
theorem run_countP_le {I : σ → Prop} {μ : σ → Nat} {q : ℓ → Bool}
    (hstep : ∀ s l t, I s → step s l = some t → I t ∧ μ t + (if q l then 1 else 0) ≤ μ s)
    {ls : List ℓ} {s t : σ} (hs : I s) (h : run step s ls = some t) :
    I t ∧ μ t + ls.countP q ≤ μ s := by
  refine run_induction (P := fun ls t => I t ∧ μ t + ls.countP q ≤ μ s) ⟨hs, Nat.le_refl _⟩ ?_ h
  intro ls t l u _ ⟨ht, hle⟩ hl
  obtain ⟨hu, hlow⟩ := hstep t l u ht hl
  refine ⟨hu, ?_⟩
  rw [List.countP_append, List.countP_singleton]
  omega

/-- The bound for a run whose steps all meet `G`. -/
theorem run_countP_le_of_meets {G : σ → ℓ → Prop} {I : σ → Prop} {μ : σ → Nat} {q : ℓ → Bool}
    (hstep : ∀ s l t, I s → G s l → step s l = some t →
      I t ∧ μ t + (if q l then 1 else 0) ≤ μ s)
    {ls : List ℓ} {s t : σ} (hs : I s) (hG : Meets step G s ls) (h : run step s ls = some t) :
    I t ∧ μ t + ls.countP q ≤ μ s := by
  refine run_induction (P := fun ls t => Meets step G s ls → I t ∧ μ t + ls.countP q ≤ μ s)
    (fun _ => ⟨hs, Nat.le_refl _⟩) ?_ h hG
  intro ls t l u hr ih hl hG
  obtain ⟨ht, hle⟩ := ih hG.of_append
  obtain ⟨hu, hlow⟩ := hstep t l u ht (hG.last hr) hl
  refine ⟨hu, ?_⟩
  rw [List.countP_append, List.countP_singleton]
  omega

/-- No step with `q` that meets `G` is left. -/
def Stuck (step : σ → ℓ → Option σ) (G : σ → ℓ → Prop) (q : ℓ → Bool) (s : σ) : Prop :=
  ∀ l, q l = true → G s l → step s l = none

theorem Stuck.absurd {G : σ → ℓ → Prop} {q : ℓ → Bool} {s t : σ} {l : ℓ} (h : Stuck step G q s)
    (hq : q l = true) (hG : G s l) (ht : step s l = some t) : False := by
  rw [h l hq hG] at ht
  cases ht

/-! ## Simulation -/

theorem meets_append_iff {G : σ → ℓ → Prop} {s : σ} {ls ls' : List ℓ} :
    Meets step G s (ls ++ ls') ↔
      Meets step G s ls ∧ ∀ t, run step s ls = some t → Meets step G t ls' := by
  induction ls generalizing s with
  | nil => simp [meets_nil]
  | cons l ls ih =>
    rw [List.cons_append, meets_cons_iff, meets_cons_iff]
    constructor
    · rintro ⟨hl, h⟩
      refine ⟨⟨hl, fun t ht => (ih.mp (h t ht)).1⟩, fun u hu => ?_⟩
      obtain ⟨t, ht, hu⟩ := Option.bind_eq_some_iff.mp hu
      exact (ih.mp (h t ht)).2 u hu
    · rintro ⟨⟨hl, h⟩, h'⟩
      refine ⟨hl, fun t ht => ih.mpr ⟨h t ht, fun u hu => h' u ?_⟩⟩
      rw [run_cons, ht]
      exact hu

theorem meets_concat_iff {G : σ → ℓ → Prop} {s t : σ} {ls : List ℓ} {l : ℓ}
    (ht : run step s ls = some t) :
    Meets step G s (ls ++ [l]) ↔ Meets step G s ls ∧ G t l := by
  have hlast : Meets step G t [l] ↔ G t l := by
    simp [meets_cons_iff, meets_nil]
  rw [meets_append_iff, ht, ← hlast]
  simp

/-- **Forward simulation.** If every step that meets `G` is matched by a run that meets `H`, then every
run that meets `G` is matched by one that meets `H`. -/
theorem run_simulates {astep : τ → m → Option τ} {R : σ → τ → Prop} {G : σ → ℓ → Prop}
    {H : τ → m → Prop}
    (hsim : ∀ s a l t, R s a → G s l → step s l = some t →
      ∃ ms b, run astep a ms = some b ∧ Meets astep H a ms ∧ R t b)
    {s : σ} {a : τ} (hR : R s a) {ls : List ℓ} {t : σ} (h : run step s ls = some t)
    (hG : Meets step G s ls) :
    ∃ ms b, run astep a ms = some b ∧ Meets astep H a ms ∧ R t b := by
  refine run_induction (P := fun ls t => Meets step G s ls →
    ∃ ms b, run astep a ms = some b ∧ Meets astep H a ms ∧ R t b)
    (fun _ => ⟨[], a, rfl, meets_nil H a, hR⟩) ?_ h hG
  intro ls s l t hr hs ht hG
  obtain ⟨ms, b, hb, hH, hRb⟩ := hs hG.of_append
  obtain ⟨ms', c, hc, hH', hRc⟩ := hsim s b l t hRb (hG.last hr) ht
  refine ⟨ms ++ ms', c, run_append_eq_some.mpr ⟨b, hb, hc⟩, meets_append_iff.mpr ⟨hH, ?_⟩, hRc⟩
  intro b' hb'
  rw [hb] at hb'
  exact Option.some.inj hb' ▸ hH'

end Transition
