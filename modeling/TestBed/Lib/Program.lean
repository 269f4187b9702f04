import TestBed.Lib.Transition

/-!
# Structured programs and their weakest preconditions

A thread runs a structured program `Prog` over operations `ω` and tests `τ`: sequences, branches,
loops with `break` and `continue`, calls with `return`, and `halt`, which ends the thread. A thread can
start another and wait for its end. A language `Lang` says what an operation does to the state, given
the outcome `ι` of the call that it makes, what a test evaluates to, and what the other parties can do
to the state between any two steps.

A configuration is a stack of what is still to run, and the state. `wp J p Q` are the states from
which `p` keeps the invariant `J` at every step and leaves with the postcondition of its kind of exit.
`wp_sound` carries it to every run.
-/

namespace Program

open Transition

inductive Prog (ω τ : Type)
  | skip
  | op (o : ω)
  | seq (p q : Prog ω τ)
  | ite (b : τ) (p q : Prog ω τ)
  /-- `while(b) p` -/
  | loop (b : τ) (p : Prog ω τ)
  /-- `do p while(b)` -/
  | dloop (b : τ) (p : Prog ω τ)
  | brk
  | cont
  | ret
  | halt
  /-- A function body, which `ret` leaves. -/
  | call (p : Prog ω τ)
  /-- A thread of its own, which `ret` and `halt` leave, and the wait for its end. -/
  | thread (p : Prog ω τ)

/-- A sequence of statements. -/
def Prog.block {ω τ : Type} : List (Prog ω τ) → Prog ω τ
  | [] => .skip
  | [p] => p
  | p :: ps => .seq p (block ps)

structure Lang (σ ω τ ι ε : Type) where
  exec : ω → σ → ι → Option σ
  eval : τ → σ → Bool
  env : σ → ε → Option σ

inductive Frame (ω τ : Type)
  | run (p : Prog ω τ)
  | loopEnd (b : τ) (p : Prog ω τ)
  | callEnd
  | threadEnd

inductive Label (ι ε : Type)
  /-- A step of control: a test, the end of a statement. -/
  | ctl
  /-- An operation with its outcome. -/
  | op (i : ι)
  | env (e : ε)
  deriving DecidableEq, Repr

structure Config (σ ω τ : Type) where
  stack : List (Frame ω τ)
  state : σ

variable {σ ω τ ι ε : Type}

/-- What follows the innermost loop. -/
def popBrk : List (Frame ω τ) → List (Frame ω τ)
  | [] => []
  | .run _ :: k => popBrk k
  | .loopEnd _ _ :: k => k
  | .callEnd :: _ | .threadEnd :: _ => []

/-- The next turn of the innermost loop and what follows it. -/
def popCont : List (Frame ω τ) → List (Frame ω τ)
  | [] => []
  | .run _ :: k => popCont k
  | .loopEnd b p :: k => .run (.loop b p) :: k
  | .callEnd :: _ | .threadEnd :: _ => []

/-- What follows the innermost call. -/
def popRet : List (Frame ω τ) → List (Frame ω τ)
  | [] => []
  | .run _ :: k | .loopEnd _ _ :: k => popRet k
  | .callEnd :: k | .threadEnd :: k => k

/-- What follows the innermost thread. -/
def popHalt : List (Frame ω τ) → List (Frame ω τ)
  | [] => []
  | .run _ :: k | .loopEnd _ _ :: k | .callEnd :: k => popHalt k
  | .threadEnd :: k => k

namespace Lang

variable (L : Lang σ ω τ ι ε)

/-- The step of control that a configuration makes; `none` before an operation and at the end. -/
def control (c : Config σ ω τ) : Option (List (Frame ω τ)) :=
  match c.stack with
  | [] => none
  | .callEnd :: k | .threadEnd :: k => some k
  | .loopEnd b p :: k => some (.run (.loop b p) :: k)
  | .run p :: k =>
    match p with
    | .skip => some k
    | .op _ => none
    | .seq p q => some (.run p :: .run q :: k)
    | .ite b p q => some (.run (if L.eval b c.state then p else q) :: k)
    | .loop b p => some (if L.eval b c.state then .run p :: .loopEnd b p :: k else k)
    | .dloop b p => some (.run p :: .loopEnd b p :: k)
    | .brk => some (popBrk k)
    | .cont => some (popCont k)
    | .ret => some (popRet k)
    | .halt => some (popHalt k)
    | .call p => some (.run p :: .callEnd :: k)
    | .thread p => some (.run p :: .threadEnd :: k)

/-- The operation that a configuration is about to perform, and what follows it. -/
def pending : List (Frame ω τ) → Option (ω × List (Frame ω τ))
  | .run (.op o) :: k => some (o, k)
  | _ => none

def step (c : Config σ ω τ) : Label ι ε → Option (Config σ ω τ)
  | .ctl => (L.control c).map fun k => { c with stack := k }
  | .op i =>
    match pending c.stack with
    | some (o, k) => (L.exec o c.state i).map fun s => ⟨k, s⟩
    | none => none
  | .env e => (L.env c.state e).map fun s => { c with state := s }

def start (p : Prog ω τ) (s : σ) : Config σ ω τ := ⟨[.run p], s⟩

/-- What the other parties make of a state. -/
def Drift (s t : σ) : Prop := ∃ es, run L.env s es = some t

theorem Drift.refl (s : σ) : L.Drift s s := ⟨[], rfl⟩

variable {L}

theorem Drift.trans {s t u : σ} (h : L.Drift s t) (h' : L.Drift t u) : L.Drift s u := by
  obtain ⟨es, hes⟩ := h
  obtain ⟨es', hes'⟩ := h'
  exact ⟨es ++ es', run_append_eq_some.mpr ⟨t, hes, hes'⟩⟩

theorem Drift.single {s t : σ} {e : ε} (h : L.env s e = some t) : L.Drift s t :=
  ⟨[e], by simp [h]⟩

/-! ## A thread that moves alone -/

/-- The labels of at most `n` steps in which the thread moves alone and the outcomes are chosen by `f`,
and the configuration that they lead to. -/
def drive (L : Lang σ ω τ ι ε) (f : ω → σ → ι) :
    Nat → Config σ ω τ → List (Label ι ε) × Config σ ω τ
  | 0, c => ([], c)
  | n + 1, c =>
    match L.control c with
    | some k =>
      let r := drive L f n { c with stack := k }
      (.ctl :: r.1, r.2)
    | none =>
      match pending c.stack with
      | none => ([], c)
      | some (o, k) =>
        match L.exec o c.state (f o c.state) with
        | none => ([], c)
        | some s =>
          let r := drive L f n ⟨k, s⟩
          (.op (f o c.state) :: r.1, r.2)

theorem drive_run (f : ω → σ → ι) (n : Nat) (c : Config σ ω τ) :
    run L.step c (L.drive f n c).1 = some (L.drive f n c).2 := by
  induction n generalizing c with
  | zero => rfl
  | succ n ih =>
    unfold drive
    split
    · next k hk => simp [Lang.step, hk, ih]
    · split
      · rfl
      · next o k hpend =>
        split
        · rfl
        · next s hs => simp [Lang.step, hpend, hs, ih]

/-- A run in which another party moves once. -/
theorem drive_env_run (f f' : ω → σ → ι) (n m : Nat) (c : Config σ ω τ) {e : ε} {s : σ}
    (h : L.env (L.drive f n c).2.state e = some s) :
    let r := L.drive f' m ⟨(L.drive f n c).2.stack, s⟩
    run L.step c ((L.drive f n c).1 ++ .env e :: r.1) = some r.2 := by
  refine run_append_eq_some.mpr ⟨_, drive_run f n c, ?_⟩
  rw [run_cons]
  simp only [Lang.step, h, Option.map_some, Option.bind_some]
  exact drive_run f' m _

/-! ## Maps between languages -/

/-- A map of states that every operation, every test and every step of the others respects. -/
structure Hom {σ' : Type} (L : Lang σ ω τ ι ε) (L' : Lang σ' ω τ ι ε) where
  map : σ → σ'
  exec : ∀ o s i, (L.exec o s i).map map = L'.exec o (map s) i
  eval : ∀ b s, L.eval b s = L'.eval b (map s)
  env : ∀ s e, (L.env s e).map map = L'.env (map s) e

namespace Hom

variable {σ' : Type} {L' : Lang σ' ω τ ι ε} (φ : L.Hom L')

def config (c : Config σ ω τ) : Config σ' ω τ := ⟨c.stack, φ.map c.state⟩

theorem control (c : Config σ ω τ) : L.control c = L'.control (φ.config c) := by
  obtain ⟨stack, s⟩ := c
  cases stack with
  | nil => rfl
  | cons f k =>
    cases f with
    | loopEnd b p | callEnd | threadEnd => rfl
    | run p =>
      cases p with
      | ite b p q | loop b p =>
        have heval : L'.eval b (φ.map s) = L.eval b s := (φ.eval b s).symm
        simp only [Lang.control, config, heval]
      | _ => rfl

theorem step (c : Config σ ω τ) (l : Label ι ε) :
    (L.step c l).map φ.config = L'.step (φ.config c) l := by
  cases l with
  | ctl =>
    simp only [Lang.step, φ.control, Option.map_map]
    rfl
  | env e =>
    have henv : L'.env (φ.config c).state e = (L.env c.state e).map φ.map := (φ.env c.state e).symm
    simp only [Lang.step, henv, Option.map_map]
    rfl
  | op i =>
    have hpend : pending (φ.config c).stack = pending c.stack := rfl
    simp only [Lang.step, hpend]
    cases pending c.stack with
    | none => rfl
    | some ok =>
      have hexec : L'.exec ok.1 (φ.config c).state i = (L.exec ok.1 c.state i).map φ.map :=
        (φ.exec ok.1 c.state i).symm
      simp only [hexec, Option.map_map]
      rfl

/-- A map takes runs to runs. -/
theorem run (c : Config σ ω τ) (ls : List (Label ι ε)) :
    (run L.step c ls).map φ.config = Transition.run L'.step (φ.config c) ls := by
  induction ls generalizing c with
  | nil => rfl
  | cons l ls ih =>
    rw [run_cons, run_cons, ← φ.step c l]
    cases L.step c l with
    | none => rfl
    | some d => exact ih d

end Hom

/-! ## Observed runs -/

/-- The language with a record of the operations, which no step depends on. -/
def observe {γ : Type} (L : Lang σ ω τ ι ε) (note : ω → σ → ι → γ → γ) :
    Lang (σ × γ) ω τ ι ε where
  exec o s i := (L.exec o s.1 i).map fun t => (t, note o s.1 i s.2)
  eval b s := L.eval b s.1
  env s e := (L.env s.1 e).map fun t => (t, s.2)

section Observe

variable {γ δ : Type}

/-- The run without its record. -/
def forget (L : Lang σ ω τ ι ε) (note : ω → σ → ι → γ → γ) : (L.observe note).Hom L where
  map := Prod.fst
  exec o s i := by simp [observe, Function.comp_def]
  eval _ _ := rfl
  env s e := by simp [observe, Function.comp_def]

/-- A part of the record that is kept by itself. -/
def reread (L : Lang σ ω τ ι ε) (note : ω → σ → ι → γ → γ) (note' : ω → σ → ι → δ → δ) (f : γ → δ)
    (hf : ∀ o s i r, f (note o s i r) = note' o s i (f r)) :
    (L.observe note).Hom (L.observe note') where
  map s := (s.1, f s.2)
  exec o s i := by simp [observe, Function.comp_def, hf]
  eval _ _ := rfl
  env s e := by simp [observe, Function.comp_def]

/-- Every run can be observed. -/
theorem exists_observe_run (note : ω → σ → ι → γ → γ) {c d : Config σ ω τ} (r : γ)
    {ls : List (Label ι ε)} (h : run L.step c ls = some d) :
    ∃ r', run (L.observe note).step ⟨c.stack, (c.state, r)⟩ ls = some ⟨d.stack, (d.state, r')⟩ := by
  have hforget := (L.forget note).run ⟨c.stack, (c.state, r)⟩ ls
  have hc : (L.forget note).config ⟨c.stack, (c.state, r)⟩ = c := rfl
  rw [hc, h] at hforget
  obtain ⟨d', hd', rfl⟩ := Option.map_eq_some_iff.mp hforget
  exact ⟨d'.state.2, hd'⟩

end Observe

/-! ## Weakest preconditions -/

/-- What holds at each kind of exit from a statement. -/
structure Post (σ : Type) where
  next : σ → Prop
  brk : σ → Prop
  cont : σ → Prop
  ret : σ → Prop
  halt : σ → Prop

/-- The postcondition of a loop's body with the invariant `I`. -/
def Post.body (Q : Post σ) (I : σ → Prop) : Post σ := { Q with next := I, cont := I, brk := Q.next }

/-- The postcondition of a function's body. -/
def Post.inCall (Q : Post σ) : Post σ :=
  { Q with ret := Q.next, brk := fun _ => False, cont := fun _ => False }

/-- The postcondition of a thread's body. -/
def Post.inThread (Q : Post σ) : Post σ := { Q.inCall with halt := Q.next }

/-- The precondition of `while(b)` around a body with the precondition `body`. -/
def whilePre (L : Lang σ ω τ ι ε) (b : τ) (body : Post σ → σ → Prop) (Q : Post σ) (s : σ) : Prop :=
  ∃ I : σ → Prop, I s ∧ ∀ t, I t → ∀ u, L.Drift t u →
    if L.eval b u then body (Q.body I) u else Q.next u

def wp (L : Lang σ ω τ ι ε) (J : σ → Prop) : Prog ω τ → Post σ → σ → Prop
  | .skip, Q => Q.next
  | .op o, Q => fun s => ∀ t, L.Drift s t → ∀ i u, L.exec o t i = some u → J u ∧ Q.next u
  | .seq p q, Q => wp L J p { Q with next := wp L J q Q }
  | .ite b p q, Q => fun s => ∀ t, L.Drift s t → if L.eval b t then wp L J p Q t else wp L J q Q t
  | .loop b p, Q => whilePre L b (fun Q => wp L J p Q) Q
  | .dloop b p, Q => wp L J p (Q.body (whilePre L b (fun Q => wp L J p Q) Q))
  | .brk, Q => Q.brk
  | .cont, Q => Q.cont
  | .ret, Q => Q.ret
  | .halt, Q => Q.halt
  | .call p, Q => wp L J p Q.inCall
  | .thread p, Q => wp L J p Q.inThread

/-- One postcondition implies another, at every kind of exit. -/
structure Post.Le (Q R : Post σ) : Prop where
  next : ∀ s, Q.next s → R.next s
  brk : ∀ s, Q.brk s → R.brk s
  cont : ∀ s, Q.cont s → R.cont s
  ret : ∀ s, Q.ret s → R.ret s
  halt : ∀ s, Q.halt s → R.halt s

theorem Post.Le.body {Q R : Post σ} (h : Q.Le R) {I K : σ → Prop} (hI : ∀ s, I s → K s) :
    (Q.body I).Le (R.body K) :=
  ⟨hI, h.next, hI, h.ret, h.halt⟩

theorem Post.Le.inCall {Q R : Post σ} (h : Q.Le R) : Q.inCall.Le R.inCall :=
  ⟨h.next, fun _ => id, fun _ => id, h.next, h.halt⟩

theorem Post.Le.inThread {Q R : Post σ} (h : Q.Le R) : Q.inThread.Le R.inThread :=
  ⟨h.next, fun _ => id, fun _ => id, h.next, h.next⟩

theorem whilePre_mono {b : τ} {body : Post σ → σ → Prop}
    (hbody : ∀ {Q R : Post σ}, Q.Le R → ∀ s, body Q s → body R s) {Q R : Post σ} (h : Q.Le R)
    (s : σ) (hs : whilePre L b body Q s) : whilePre L b body R s := by
  obtain ⟨I, hI, hturn⟩ := hs
  refine ⟨I, hI, fun t ht u hu => ?_⟩
  have hthis := hturn t ht u hu
  split at hthis
  · next hb =>
    rw [if_pos hb]
    exact hbody (h.body fun _ => id) u hthis
  · next hb =>
    rw [if_neg hb]
    exact h.next u hthis

theorem wp_mono {J : σ → Prop} (p : Prog ω τ) {Q R : Post σ} (h : Q.Le R) (s : σ)
    (hs : wp L J p Q s) : wp L J p R s := by
  induction p generalizing Q R s with
  | skip => exact h.next s hs
  | op o =>
    intro t ht i u hu
    obtain ⟨hJ, hQ⟩ := hs t ht i u hu
    exact ⟨hJ, h.next u hQ⟩
  | seq p q ihp ihq =>
    have hle : Post.Le { Q with next := wp L J q Q } { R with next := wp L J q R } :=
      ⟨fun t => ihq h t, h.brk, h.cont, h.ret, h.halt⟩
    exact ihp hle s hs
  | ite b p q ihp ihq =>
    intro t ht
    have hthis := hs t ht
    split at hthis
    · next hb =>
      rw [if_pos hb]
      exact ihp h t hthis
    · next hb =>
      rw [if_neg hb]
      exact ihq h t hthis
  | loop b p ih => exact whilePre_mono (fun h => ih h) h s hs
  | dloop b p ih => exact ih (h.body (whilePre_mono (fun h => ih h) h)) s hs
  | brk => exact h.brk s hs
  | cont => exact h.cont s hs
  | ret => exact h.ret s hs
  | halt => exact h.halt s hs
  | call p ih => exact ih h.inCall s hs
  | thread p ih => exact ih h.inThread s hs

/-- One turn of a loop. -/
theorem whilePre_turn {J : σ → Prop} {b : τ} {p : Prog ω τ} {Q : Post σ} {s : σ}
    (h : wp L J (.loop b p) Q s) :
    if L.eval b s then wp L J p (Q.body (wp L J (.loop b p) Q)) s else Q.next s := by
  obtain ⟨I, hI, hturn⟩ := h
  have hthis := hturn s hI s (Drift.refl L s)
  have hle : (Q.body I).Le (Q.body (wp L J (.loop b p) Q)) :=
    have hback : ∀ t, I t → wp L J (.loop b p) Q t := fun t ht => ⟨I, ht, hturn⟩
    ⟨hback, fun _ => id, hback, fun _ => id, fun _ => id⟩
  split at hthis
  · next hb =>
    rw [if_pos hb]
    exact wp_mono p hle s hthis
  · next hb =>
    rw [if_neg hb]
    exact hthis

/-! ## Stability -/

/-- The other parties keep `P`. -/
def Stable (L : Lang σ ω τ ι ε) (P : σ → Prop) : Prop := ∀ s t, P s → L.Drift s t → P t

theorem stable_of_env {P : σ → Prop} (h : ∀ s e t, P s → L.env s e = some t → P t) :
    Stable L P := by
  rintro s t hs ⟨es, hes⟩
  exact run_invariant hs h hes

structure Post.Stable (L : Lang σ ω τ ι ε) (Q : Post σ) : Prop where
  next : Lang.Stable L Q.next
  brk : Lang.Stable L Q.brk
  cont : Lang.Stable L Q.cont
  ret : Lang.Stable L Q.ret
  halt : Lang.Stable L Q.halt

theorem whilePre_stable {b : τ} {body : Post σ → σ → Prop}
    (hbody : ∀ {Q R : Post σ}, Q.Le R → ∀ s, body Q s → body R s) (Q : Post σ) :
    Stable L (whilePre L b body Q) := by
  rintro s t ⟨I, hI, hturn⟩ hst
  refine ⟨fun u => ∃ s, I s ∧ L.Drift s u, ⟨s, hI, hst⟩, ?_⟩
  rintro u ⟨s', hs', hsu⟩ v huv
  have hthis := hturn s' hs' v (hsu.trans huv)
  have hle : (Q.body I).Le (Q.body fun u => ∃ s, I s ∧ L.Drift s u) :=
    have hI : ∀ x, I x → ∃ s, I s ∧ L.Drift s x := fun x hx => ⟨x, hx, Drift.refl L x⟩
    ⟨hI, fun _ => id, hI, fun _ => id, fun _ => id⟩
  split at hthis
  · next hb =>
    rw [if_pos hb]
    exact hbody hle v hthis
  · next hb =>
    rw [if_neg hb]
    exact hthis

theorem wp_stable {J : σ → Prop} (p : Prog ω τ) {Q : Post σ} (h : Q.Stable L) :
    Stable L (wp L J p Q) := by
  induction p generalizing Q with
  | skip => exact h.next
  | op o => exact fun s t hs hst u hu => hs u (hst.trans hu)
  | seq p q ihp ihq => exact ihp ⟨ihq h, h.brk, h.cont, h.ret, h.halt⟩
  | ite b p q ihp ihq => exact fun s t hs hst u hu => hs u (hst.trans hu)
  | loop b p ih => exact whilePre_stable (fun h => wp_mono p h) Q
  | dloop b p ih =>
    have hloop : Stable L (wp L J (.loop b p) Q) := whilePre_stable (fun h => wp_mono p h) Q
    exact ih ⟨hloop, h.next, hloop, h.ret, h.halt⟩
  | brk => exact h.brk
  | cont => exact h.cont
  | ret => exact h.ret
  | halt => exact h.halt
  | call p ih =>
    have hfalse : Stable L fun _ => False := fun _ _ hs _ => hs
    exact ih ⟨h.next, hfalse, hfalse, h.next, h.halt⟩
  | thread p ih =>
    have hfalse : Stable L fun _ => False := fun _ _ hs _ => hs
    exact ih ⟨h.next, hfalse, hfalse, h.next, h.next⟩

/-! ## Soundness -/

/-- What must hold for the rest of a stack to end in `F`. -/
def posts (L : Lang σ ω τ ι ε) (J F : σ → Prop) : List (Frame ω τ) → Post σ
  | [] => ⟨F, fun _ => False, fun _ => False, F, F⟩
  | .run p :: k => { posts L J F k with next := wp L J p (posts L J F k) }
  | .loopEnd b p :: k => (posts L J F k).body (wp L J (.loop b p) (posts L J F k))
  | .callEnd :: k => (posts L J F k).inCall
  | .threadEnd :: k => (posts L J F k).inThread

variable {J F : σ → Prop}

theorem posts_stable (hF : Stable L F) (k : List (Frame ω τ)) : (posts L J F k).Stable L := by
  have hfalse : Stable L fun _ => False := fun _ _ hs _ => hs
  induction k with
  | nil => exact ⟨hF, hfalse, hfalse, hF, hF⟩
  | cons f k ih =>
    cases f with
    | run p => exact ⟨wp_stable p ih, ih.brk, ih.cont, ih.ret, ih.halt⟩
    | loopEnd b p =>
      have hloop := wp_stable (J := J) (.loop b p) ih
      exact ⟨hloop, ih.next, hloop, ih.ret, ih.halt⟩
    | callEnd => exact ⟨ih.next, hfalse, hfalse, ih.next, ih.halt⟩
    | threadEnd => exact ⟨ih.next, hfalse, hfalse, ih.next, ih.next⟩

theorem posts_popBrk {k : List (Frame ω τ)} {s : σ} (h : (posts L J F k).brk s) :
    (posts L J F (popBrk k)).next s := by
  induction k with
  | nil => cases h
  | cons f k ih =>
    cases f with
    | run p => exact ih h
    | loopEnd b p => exact h
    | callEnd | threadEnd => cases h

theorem posts_popCont {k : List (Frame ω τ)} {s : σ} (h : (posts L J F k).cont s) :
    (posts L J F (popCont k)).next s := by
  induction k with
  | nil => cases h
  | cons f k ih =>
    cases f with
    | run p => exact ih h
    | loopEnd b p => exact h
    | callEnd | threadEnd => cases h

theorem posts_popRet {k : List (Frame ω τ)} {s : σ} (h : (posts L J F k).ret s) :
    (posts L J F (popRet k)).next s := by
  induction k with
  | nil => exact h
  | cons f k ih =>
    cases f with
    | run p => exact ih h
    | loopEnd b p => exact ih h
    | callEnd | threadEnd => exact h

theorem posts_popHalt {k : List (Frame ω τ)} {s : σ} (h : (posts L J F k).halt s) :
    (posts L J F (popHalt k)).next s := by
  induction k with
  | nil => exact h
  | cons f k ih =>
    cases f with
    | run p => exact ih h
    | loopEnd b p => exact ih h
    | callEnd => exact ih h
    | threadEnd => exact h

/-- The invariant of a run: the state meets `J`, and what is still to run can do so. -/
structure Ok (L : Lang σ ω τ ι ε) (J F : σ → Prop) (c : Config σ ω τ) : Prop where
  inv : J c.state
  rest : (posts L J F c.stack).next c.state

theorem Ok.control {c : Config σ ω τ} (h : Ok L J F c) {k : List (Frame ω τ)}
    (hk : L.control c = some k) : Ok L J F { c with stack := k } := by
  refine ⟨h.inv, ?_⟩
  have hrest := h.rest
  obtain ⟨stack, s⟩ := c
  cases stack with
  | nil => cases hk
  | cons f k' =>
    cases f with
    | callEnd | threadEnd =>
      cases hk
      exact hrest
    | loopEnd b p =>
      cases hk
      exact hrest
    | run p =>
      cases p with
      | skip | seq p q | dloop b p | call p | thread p =>
        cases hk
        exact hrest
      | op o => cases hk
      | ite b p q =>
        have hbranch := hrest s (Drift.refl L s)
        simp only [Lang.control, Option.some.injEq] at hk
        subst hk
        by_cases hb : L.eval b s = true
        · rw [if_pos hb] at hbranch ⊢
          exact hbranch
        · rw [if_neg hb] at hbranch ⊢
          exact hbranch
      | loop b p =>
        have hturn := whilePre_turn hrest
        simp only [Lang.control, Option.some.injEq] at hk
        subst hk
        by_cases hb : L.eval b s = true
        · rw [if_pos hb] at hturn ⊢
          exact hturn
        · rw [if_neg hb] at hturn ⊢
          exact hturn
      | brk =>
        cases hk
        exact posts_popBrk hrest
      | cont =>
        cases hk
        exact posts_popCont hrest
      | ret =>
        cases hk
        exact posts_popRet hrest
      | halt =>
        cases hk
        exact posts_popHalt hrest

theorem pending_eq_some {k k' : List (Frame ω τ)} {o : ω} (h : pending k = some (o, k')) :
    k = .run (.op o) :: k' := by
  unfold pending at h
  split at h
  · cases h
    rfl
  · cases h

theorem Ok.step (hJ : Stable L J) (hF : Stable L F) {c d : Config σ ω τ} {l : Label ι ε}
    (h : Ok L J F c) (hd : L.step c l = some d) : Ok L J F d := by
  cases l with
  | ctl =>
    simp only [Lang.step, Option.map_eq_some_iff] at hd
    obtain ⟨k, hk, rfl⟩ := hd
    exact h.control hk
  | op i =>
    simp only [Lang.step] at hd
    split at hd
    · next o k hpend =>
      obtain ⟨u, hu, rfl⟩ := Option.map_eq_some_iff.mp hd
      have hrest := h.rest
      rw [pending_eq_some hpend] at hrest
      obtain ⟨hJu, hnext⟩ := hrest c.state (Drift.refl L c.state) i u hu
      exact ⟨hJu, hnext⟩
    · cases hd
  | env e =>
    simp only [Lang.step, Option.map_eq_some_iff] at hd
    obtain ⟨t, ht, rfl⟩ := hd
    have hdrift := Drift.single ht
    exact ⟨hJ _ _ h.inv hdrift, (posts_stable hF c.stack).next _ _ h.rest hdrift⟩

/-- The postcondition of a thread's function: `F` wherever it ends. -/
def Post.final (F : σ → Prop) : Post σ := ⟨F, fun _ => False, fun _ => False, F, F⟩

/-- **Soundness.** A run from a state that meets the weakest precondition meets `J` throughout, and
`F` where the thread has ended. -/
theorem wp_sound (hJ : Stable L J) (hF : Stable L F) {p : Prog ω τ} {s : σ} (hs : J s)
    (hp : wp L J p (Post.final F) s) {ls : List (Label ι ε)} {c : Config σ ω τ}
    (h : run L.step (start p s) ls = some c) : J c.state ∧ (c.stack = [] → F c.state) := by
  have hstart : Ok L J F (start p s) := ⟨hs, hp⟩
  have hc : Ok L J F c := run_invariant hstart (fun _ _ _ hi hd => hi.step hJ hF hd) h
  refine ⟨hc.inv, fun hnil => ?_⟩
  have hrest := hc.rest
  rw [hnil] at hrest
  exact hrest

/-! ## Runs that meet a condition on their steps -/

/-- A condition on the outcomes of operations and on the steps of the other parties. -/
structure Guard (σ ω ι ε : Type) where
  op : ω → σ → ι → Bool
  env : σ → ε → Bool

/-- A condition on the outcomes of operations alone. -/
def Guard.ofOp (op : ω → σ → ι → Bool) : Guard σ ω ι ε := ⟨op, fun _ _ => true⟩

/-- Operations that are not `ok` are not performed. -/
def Guard.only (ok : ω → Bool) : Guard σ ω ι ε := .ofOp fun o _ _ => ok o

/-- The language without the steps that do not meet the guard. -/
def restrict (L : Lang σ ω τ ι ε) (g : Guard σ ω ι ε) : Lang σ ω τ ι ε :=
  { L with
    exec := fun o s i => if g.op o s i then L.exec o s i else none
    env := fun s e => if g.env s e then L.env s e else none }

/-- The step meets the guard; steps of control always do. -/
def GoodStep (g : Guard σ ω ι ε) (c : Config σ ω τ) : Label ι ε → Prop
  | .ctl => True
  | .op i => ∀ o k, pending c.stack = some (o, k) → g.op o c.state i = true
  | .env e => g.env c.state e = true

instance (g : Guard σ ω ι ε) (c : Config σ ω τ) (l : Label ι ε) : Decidable (GoodStep g c l) :=
  match l with
  | .ctl => isTrue trivial
  | .env e => decidable_of_iff (g.env c.state e = true) Iff.rfl
  | .op i =>
    match h : pending c.stack with
    | none => isTrue (by simp [GoodStep, h])
    | some (o, k) =>
      decidable_of_iff (g.op o c.state i = true) (by simp [GoodStep, h])

theorem restrict_step {g : Guard σ ω ι ε} {c d : Config σ ω τ} {l : Label ι ε}
    (hg : GoodStep g c l) (h : L.step c l = some d) : (L.restrict g).step c l = some d := by
  cases l with
  | ctl => exact h
  | env e =>
    simp only [GoodStep] at hg
    simp only [Lang.step, restrict, hg, if_true] at h ⊢
    exact h
  | op i =>
    simp only [Lang.step] at h ⊢
    split at h
    · next o k hpend =>
      simp only [restrict, hg o k hpend, if_true]
      exact h
    · cases h

theorem restrict_run {g : Guard σ ω ι ε} {c d : Config σ ω τ} {ls : List (Label ι ε)}
    (hg : Meets L.step (GoodStep g) c ls) (h : run L.step c ls = some d) :
    run (L.restrict g).step c ls = some d := by
  refine run_induction (P := fun ls d => Meets L.step (GoodStep g) c ls →
    run (L.restrict g).step c ls = some d) (fun _ => rfl) ?_ h hg
  intro ls s l t hr hs ht hg
  exact run_concat_eq_some.mpr ⟨s, hs hg.of_append, restrict_step (hg.last hr) ht⟩

/-! ## Observing a condition -/

/-- A record of whether the steps so far met the guard: it is the condition on the run. -/
theorem observe_meets {γ : Type} {note : ω → σ → ι → γ → γ} (ok : γ → Bool) (test : ω → σ → ι → Bool)
    (hok : ∀ o s i r, ok (note o s i r) = (ok r && test o s i)) {c : Config σ ω τ} {r : γ}
    (hr : ok r = true) {ls : List (Label ι ε)} {d : Config (σ × γ) ω τ}
    (h : run (L.observe note).step ⟨c.stack, (c.state, r)⟩ ls = some d) :
    ok d.state.2 = true ↔ Meets L.step (GoodStep (.ofOp test)) c ls := by
  refine run_induction (P := fun ls (d : Config (σ × γ) ω τ) =>
    (ok d.state.2 = true ↔ Meets L.step (GoodStep (.ofOp test)) c ls)) ?_ ?_ h
  · exact iff_of_true hr (meets_nil _ c)
  · intro ls d l d' hd ih hd'
    have hrun : run L.step c ls = some ((L.forget note).config d) := by
      have hforget := (L.forget note).run ⟨c.stack, (c.state, r)⟩ ls
      rw [hd] at hforget
      exact hforget.symm
    rw [meets_concat_iff hrun, ← ih]
    cases l with
    | ctl =>
      simp only [Lang.step, Option.map_eq_some_iff] at hd'
      obtain ⟨k, -, rfl⟩ := hd'
      simp [GoodStep]
    | env e =>
      simp only [Lang.step, observe, Option.map_eq_some_iff] at hd'
      obtain ⟨-, ⟨s, -, rfl⟩, rfl⟩ := hd'
      simp [GoodStep, Guard.ofOp]
    | op i =>
      simp only [Lang.step] at hd'
      split at hd'
      · next o k hpend =>
        simp only [observe, Option.map_eq_some_iff] at hd'
        obtain ⟨-, ⟨s, -, rfl⟩, rfl⟩ := hd'
        have hpend' : pending ((L.forget note).config d).stack = some (o, k) := hpend
        rw [hok, Bool.and_eq_true]
        simp only [GoodStep, Guard.ofOp, hpend', Option.some.injEq, Prod.mk.injEq, and_imp]
        refine and_congr_right fun _ => ⟨?_, fun h => h o k rfl rfl⟩
        rintro htest _ _ rfl rfl
        exact htest
      · cases hd'

end Lang

end Program
