import TestBed.Lib.Program
import Mathlib.Data.List.Lattice

/-!
# A checker for structured programs

An abstract domain describes states by finitely many facts `α`. `analyze` runs a program on a list of
facts: it gives the facts that can hold at each kind of exit, or nothing where an operation is not
allowed. A loop is iterated until its facts are closed. What the checker accepts is a weakest
precondition (`analyze_sound`), so it holds of every run (`checks_sound`), and a function is verified
by evaluating the checker on it.
-/

namespace Program

open Transition Lang

variable {σ ω τ ι ε α : Type}

structure Domain (L : Lang σ ω τ ι ε) (α : Type) where
  /-- The states that a fact describes. -/
  γ : α → σ → Prop
  /-- The facts after an operation, one for each kind of outcome; `none` where it is not allowed. -/
  op : ω → α → Option (List α)
  /-- The test can evaluate to the value. -/
  test : τ → Bool → α → Bool
  op_sound : ∀ {o a as s i t}, γ a s → op o a = some as → L.exec o s i = some t → ∃ b ∈ as, γ b t
  test_sound : ∀ {b a s}, γ a s → test b (L.eval b s) a = true
  env_sound : ∀ {a s e t}, γ a s → L.env s e = some t → γ a t

/-- The facts that can hold at each kind of exit. -/
structure Exits (α : Type) where
  next : List α
  brk : List α
  cont : List α
  ret : List α
  halt : List α

def Exits.join [DecidableEq α] (r r' : Exits α) : Exits α :=
  ⟨r.next ∪ r'.next, r.brk ∪ r'.brk, r.cont ∪ r'.cont, r.ret ∪ r'.ret, r.halt ∪ r'.halt⟩

namespace Domain

variable {L : Lang σ ω τ ι ε} (D : Domain L α)

section Refine

/-- The domain of the facts that are `ok`. -/
def guarded (ok : α → Bool) : Domain L α where
  γ a s := ok a = true ∧ D.γ a s
  op o a :=
    match D.op o a with
    | some as => if as.all ok then some as else none
    | none => none
  test := D.test
  op_sound := by
    intro o a as s i t ha has ht
    split at has
    · next bs hbs =>
      split at has
      · next hok =>
        cases has
        obtain ⟨b, hb, hγ⟩ := D.op_sound ha.2 hbs ht
        exact ⟨b, hb, List.all_eq_true.mp hok b hb, hγ⟩
      · cases has
    · cases has
  test_sound ha := D.test_sound ha.2
  env_sound ha ht := ⟨ha.1, D.env_sound ha.2 ht⟩

/-- The domain for the steps that meet a guard: `keep` are the facts that such a step can lead to. -/
def restrict (g : Guard σ ω ι ε) (keep : ω → α → α → Bool)
    (hkeep : ∀ {o a b s i t}, D.γ a s → D.γ b t → L.exec o s i = some t → g.op o s i = true →
      keep o a b = true) : Domain (L.restrict g) α where
  γ := D.γ
  op o a := (D.op o a).map fun as => as.filter (keep o a)
  test := D.test
  op_sound := by
    intro o a as s i t ha has ht
    obtain ⟨bs, hbs, rfl⟩ := Option.map_eq_some_iff.mp has
    simp only [Lang.restrict] at ht
    split at ht
    · next hg =>
      obtain ⟨b, hb, hγ⟩ := D.op_sound ha hbs ht
      exact ⟨b, List.mem_filter.mpr ⟨hb, hkeep ha hγ ht hg⟩, hγ⟩
    · cases ht
  test_sound := D.test_sound
  env_sound := by
    intro a s e t ha ht
    simp only [Lang.restrict] at ht
    split at ht
    · exact D.env_sound ha ht
    · cases ht

/-- The domain for the runs without the operations that are not `ok`. -/
def only (ok : ω → Bool) : Domain (L.restrict (.only ok)) α :=
  D.restrict (.only ok) (fun o _ _ => ok o) fun _ _ _ hg => hg

end Refine

section Checker

variable [DecidableEq α]

/-- The facts after an operation from any of the facts `A`. -/
def opAll (o : ω) : List α → Option (List α)
  | [] => some []
  | a :: A =>
    match D.op o a, opAll o A with
    | some as, some bs => some (as ∪ bs)
    | _, _ => none

/-- The exits of `while(b)`, from the facts `A` at its test. -/
def loopFrom (b : τ) (body : List α → Option (Exits α)) : Nat → List α → Option (Exits α)
  | 0, _ => none
  | n + 1, A =>
    match body (A.filter (D.test b true)) with
    | none => none
    | some r =>
      if ∀ a ∈ r.next ∪ r.cont, a ∈ A then
        some ⟨A.filter (D.test b false) ∪ r.brk, [], [], r.ret, r.halt⟩
      else loopFrom b body n (A ∪ (r.next ∪ r.cont))

/-- `fuel` bounds the iterations of every loop. -/
def analyze (fuel : Nat) : Prog ω τ → List α → Option (Exits α)
  | .skip, A => some ⟨A, [], [], [], []⟩
  | .op o, A => (D.opAll o A).map fun B => ⟨B, [], [], [], []⟩
  | .seq p q, A =>
    match analyze fuel p A with
    | none => none
    | some r =>
      match analyze fuel q r.next with
      | none => none
      | some r' => some { r.join r' with next := r'.next }
  | .ite b p q, A =>
    match analyze fuel p (A.filter (D.test b true)), analyze fuel q (A.filter (D.test b false)) with
    | some r, some r' => some (r.join r')
    | _, _ => none
  | .loop b p, A => D.loopFrom b (fun A => analyze fuel p A) fuel A
  | .dloop b p, A =>
    match analyze fuel p A with
    | none => none
    | some r =>
      match D.loopFrom b (fun A => analyze fuel p A) fuel (r.next ∪ r.cont) with
      | none => none
      | some r' =>
        some { r.join r' with next := r'.next ∪ r.brk, brk := r'.brk, cont := r'.cont }
  | .brk, A => some ⟨[], A, [], [], []⟩
  | .cont, A => some ⟨[], [], A, [], []⟩
  | .ret, A => some ⟨[], [], [], A, []⟩
  | .halt, A => some ⟨[], [], [], [], A⟩
  | .call p, A =>
    match analyze fuel p A with
    | none => none
    | some r => if r.brk = [] ∧ r.cont = [] then some ⟨r.next ∪ r.ret, [], [], [], r.halt⟩ else none
  | .thread p, A =>
    match analyze fuel p A with
    | none => none
    | some r =>
      if r.brk = [] ∧ r.cont = [] then some ⟨r.next ∪ (r.ret ∪ r.halt), [], [], [], []⟩ else none

/-- The checker: `p` is allowed from the facts `A`, and the thread ends in facts that meet `fin`. -/
def checks (fuel : Nat) (p : Prog ω τ) (A : List α) (fin : α → Bool) : Bool :=
  match D.analyze fuel p A with
  | none => false
  | some r => r.brk.isEmpty && r.cont.isEmpty && (r.next ++ (r.ret ++ r.halt)).all fin

end Checker

/-! ## Soundness -/

/-- The states that one of the facts describes. -/
def In (A : List α) (s : σ) : Prop := ∃ a ∈ A, D.γ a s

/-- The states that some fact describes. -/
def Inv (s : σ) : Prop := ∃ a, D.γ a s

variable {D} {A B : List α} {s t : σ}

theorem In.inv (h : D.In A s) : D.Inv s := by
  obtain ⟨a, -, ha⟩ := h
  exact ⟨a, ha⟩

theorem In.subset (h : D.In A s) (hAB : ∀ a ∈ A, a ∈ B) : D.In B s := by
  obtain ⟨a, hA, ha⟩ := h
  exact ⟨a, hAB a hA, ha⟩

theorem In.drift (h : D.In A s) (hst : L.Drift s t) : D.In A t := by
  obtain ⟨a, hA, ha⟩ := h
  exact ⟨a, hA, stable_of_env (fun _ _ _ hγ he => D.env_sound hγ he) s t ha hst⟩

theorem In.filter {b : τ} (h : D.In A s) : D.In (A.filter (D.test b (L.eval b s))) s := by
  obtain ⟨a, hA, ha⟩ := h
  exact ⟨a, List.mem_filter.mpr ⟨hA, D.test_sound ha⟩, ha⟩

theorem not_in_of_nil (h : A = []) : ¬ D.In A s := by
  rintro ⟨a, ha, -⟩
  rw [h] at ha
  cases ha

/-- The postcondition that a result of the checker stands for. -/
def post (D : Domain L α) (r : Exits α) : Post σ :=
  ⟨D.In r.next, D.In r.brk, D.In r.cont, D.In r.ret, D.In r.halt⟩

variable [DecidableEq α]

theorem In.left (h : D.In A s) : D.In (A ∪ B) s :=
  h.subset fun _ ha => List.mem_union_left ha B

theorem In.right (h : D.In B s) : D.In (A ∪ B) s :=
  h.subset fun _ ha => List.mem_union_right A ha

theorem post_join_left (r r' : Exits α) : (D.post r).Le (D.post (r.join r')) :=
  ⟨fun _ => In.left, fun _ => In.left, fun _ => In.left, fun _ => In.left, fun _ => In.left⟩

theorem post_join_right (r r' : Exits α) : (D.post r').Le (D.post (r.join r')) :=
  ⟨fun _ => In.right, fun _ => In.right, fun _ => In.right, fun _ => In.right, fun _ => In.right⟩

theorem In.op {o : ω} {i : ι} (h : D.In A s) (hB : D.opAll o A = some B)
    (ht : L.exec o s i = some t) : D.In B t := by
  induction A generalizing B with
  | nil =>
    obtain ⟨a, hA, -⟩ := h
    cases hA
  | cons a A ih =>
    simp only [opAll] at hB
    split at hB
    · next as bs has hbs =>
      cases hB
      obtain ⟨a', ha', hγ⟩ := h
      cases ha' with
      | head =>
        obtain ⟨b, hb, hγb⟩ := D.op_sound hγ has ht
        exact In.left ⟨b, hb, hγb⟩
      | tail _ ha' => exact In.right (ih ⟨a', ha', hγ⟩ hbs)
    · cases hB

theorem loopFrom_sound {b : τ} {p : Prog ω τ} {body : List α → Option (Exits α)}
    (hbody : ∀ {A r s}, body A = some r → D.In A s → wp L D.Inv p (D.post r) s) {n : Nat}
    {r : Exits α} (h : D.loopFrom b body n A = some r) (hs : D.In A s) :
    wp L D.Inv (.loop b p) (D.post r) s := by
  induction n generalizing A s with
  | zero => cases h
  | succ n ih =>
    simp only [loopFrom] at h
    split at h
    · cases h
    · next r₁ hr₁ =>
      split at h
      · next hclosed =>
        cases h
        refine ⟨D.In A, hs, fun t ht u htu => ?_⟩
        have hu := (ht.drift htu).filter (b := b)
        by_cases hb : L.eval b u = true
        · rw [if_pos hb]
          rw [hb] at hu
          refine wp_mono p ?_ u (hbody hr₁ hu)
          refine ⟨fun v hv => ?_, fun v hv => hv.right, fun v hv => ?_, fun _ => id, fun _ => id⟩
          · exact hv.subset fun a ha => hclosed a (List.mem_union_left ha _)
          · exact hv.subset fun a ha => hclosed a (List.mem_union_right _ ha)
        · rw [if_neg hb]
          rw [Bool.not_eq_true] at hb
          rw [hb] at hu
          exact hu.left
      · exact ih h hs.left

/-- What the checker accepts is a weakest precondition. -/
theorem analyze_sound {fuel : Nat} (p : Prog ω τ) {r : Exits α}
    (h : D.analyze fuel p A = some r) (hs : D.In A s) : wp L D.Inv p (D.post r) s := by
  induction p generalizing A r s with
  | skip | brk | cont | ret | halt =>
    cases h
    exact hs
  | op o =>
    obtain ⟨B, hB, rfl⟩ := Option.map_eq_some_iff.mp h
    intro t ht i u hu
    have hin : D.In B u := (hs.drift ht).op hB hu
    exact ⟨hin.inv, hin⟩
  | seq p q ihp ihq =>
    simp only [analyze] at h
    split at h
    · cases h
    · next r₁ hr₁ =>
      split at h
      · cases h
      · next r₂ hr₂ =>
        cases h
        have hright := post_join_right (D := D) r₁ r₂
        have hq : ∀ t, D.In r₁.next t →
            wp L D.Inv q (D.post { r₁.join r₂ with next := r₂.next }) t := by
          intro t ht
          have hle : (D.post r₂).Le (D.post { r₁.join r₂ with next := r₂.next }) :=
            ⟨fun _ => id, hright.brk, hright.cont, hright.ret, hright.halt⟩
          exact wp_mono q hle t (ihq hr₂ ht)
        have hleft := post_join_left (D := D) r₁ r₂
        refine wp_mono p ?_ s (ihp hr₁ hs)
        exact ⟨hq, hleft.brk, hleft.cont, hleft.ret, hleft.halt⟩
  | ite b p q ihp ihq =>
    simp only [analyze] at h
    split at h
    · next r₁ r₂ hr₁ hr₂ =>
      cases h
      intro t ht
      have hin := (hs.drift ht).filter (b := b)
      by_cases hb : L.eval b t = true
      · rw [if_pos hb]
        rw [hb] at hin
        exact wp_mono p (post_join_left r₁ r₂) t (ihp hr₁ hin)
      · rw [if_neg hb]
        rw [Bool.not_eq_true] at hb
        rw [hb] at hin
        exact wp_mono q (post_join_right r₁ r₂) t (ihq hr₂ hin)
    · cases h
  | loop b p ih => exact loopFrom_sound (fun h hs => ih h hs) h hs
  | dloop b p ih =>
    simp only [analyze] at h
    split at h
    · cases h
    · next r₁ hr₁ =>
      split at h
      · cases h
      · next r₂ hr₂ =>
        cases h
        have hright := post_join_right (D := D) r₁ r₂
        have hleft := post_join_left (D := D) r₁ r₂
        have hloop : ∀ t, D.In (r₁.next ∪ r₁.cont) t → wp L D.Inv (.loop b p)
            (D.post { r₁.join r₂ with next := r₂.next ∪ r₁.brk, brk := r₂.brk, cont := r₂.cont })
            t := by
          intro t ht
          refine wp_mono (.loop b p) ?_ t (loopFrom_sound (fun h hs => ih h hs) hr₂ ht)
          exact ⟨fun _ => In.left, fun _ => id, fun _ => id, hright.ret, hright.halt⟩
        refine wp_mono p ?_ s (ih hr₁ hs)
        exact ⟨fun t ht => hloop t (In.left ht), fun _ => In.right,
          fun t ht => hloop t (In.right ht), hleft.ret, hleft.halt⟩
  | call p ih =>
    simp only [analyze] at h
    split at h
    · cases h
    · next r₁ hr₁ =>
      split at h
      · next hnil =>
        cases h
        refine wp_mono p ?_ s (ih hr₁ hs)
        exact ⟨fun _ => In.left, fun t => not_in_of_nil hnil.1, fun t => not_in_of_nil hnil.2,
          fun _ => In.right, fun _ => id⟩
      · cases h
  | thread p ih =>
    simp only [analyze] at h
    split at h
    · cases h
    · next r₁ hr₁ =>
      split at h
      · next hnil =>
        cases h
        refine wp_mono p ?_ s (ih hr₁ hs)
        exact ⟨fun _ => In.left, fun t => not_in_of_nil hnil.1, fun t => not_in_of_nil hnil.2,
          fun t ht => In.right (In.left ht), fun t ht => In.right (In.right ht)⟩
      · cases h

/-- **What the checker accepts holds of every run**: some fact describes every state, and where the
thread has ended one that meets `fin` does. -/
theorem checks_sound {fuel : Nat} {p : Prog ω τ} {fin : α → Bool}
    (h : D.checks fuel p A fin = true) (hs : D.In A s) {ls : List (Label ι ε)}
    {c : Config σ ω τ} (hr : run L.step (start p s) ls = some c) :
    D.Inv c.state ∧ (c.stack = [] → ∃ a, fin a = true ∧ D.γ a c.state) := by
  unfold checks at h
  split at h
  · cases h
  · next r hr₁ =>
    simp only [Bool.and_eq_true, List.isEmpty_iff, List.all_append, List.all_eq_true] at h
    obtain ⟨⟨hbrk, hcont⟩, hnext, hret, hhalt⟩ := h
    have hJ : Stable L D.Inv := by
      rintro s t ⟨a, ha⟩ hst
      exact ⟨a, stable_of_env (fun _ _ _ hγ he => D.env_sound hγ he) s t ha hst⟩
    have hF : Stable L fun s => ∃ a, fin a = true ∧ D.γ a s := by
      rintro s t ⟨a, hfin, ha⟩ hst
      exact ⟨a, hfin, stable_of_env (fun _ _ _ hγ he => D.env_sound hγ he) s t ha hst⟩
    refine wp_sound hJ hF hs.inv (wp_mono p ?_ s (analyze_sound p hr₁ hs)) hr
    refine ⟨?_, fun t => not_in_of_nil hbrk, fun t => not_in_of_nil hcont, ?_, ?_⟩
    · rintro t ⟨a, ha, hγ⟩
      exact ⟨a, hnext a ha, hγ⟩
    · rintro t ⟨a, ha, hγ⟩
      exact ⟨a, hret a ha, hγ⟩
    · rintro t ⟨a, ha, hγ⟩
      exact ⟨a, hhalt a ha, hγ⟩

/-- What the checker accepts of the facts that are `ok`. -/
theorem checks_guarded {ok : α → Bool} {fuel : Nat} {p : Prog ω τ} {a : α} {fin : α → Bool}
    (h : (D.guarded ok).checks fuel p [a] fin = true) (hok : ok a = true) (ha : D.γ a s)
    {ls : List (Label ι ε)} {c : Config σ ω τ} (hr : run L.step (start p s) ls = some c) :
    (∃ b, ok b = true ∧ D.γ b c.state) ∧ (c.stack = [] → ∃ b, fin b = true ∧ D.γ b c.state) := by
  have hin : (D.guarded ok).In [a] s := ⟨a, List.mem_singleton_self a, hok, ha⟩
  obtain ⟨hinv, hfin⟩ := checks_sound h hin hr
  refine ⟨hinv, fun hnil => ?_⟩
  obtain ⟨b, hb, -, hγ⟩ := hfin hnil
  exact ⟨b, hb, hγ⟩

end Domain

end Program
