import TestBed.Code.Listener

/-!
# What a thread knows

The abstract domain of the endpoint functions. A `Fact` is what is known at a point of a function: the
locks held, the status, what the three descriptors are, the sign of the last result, and whether one
of the three things has gone wrong (a lock acquired twice, an undefined call, a second close). Facts
speak about a `View` of the world, which assignments and the other parties leave alone.

The protocol and the endpoint type are parameters, `none` where they can be any.
-/

namespace TestBed.Code

open Program Descriptor

/-- The part of a world that facts speak about. -/
structure View where
  prot : TbProtocol
  eType : EndpointType
  status : Status
  sock : Int
  sess : Int
  assigned : Bool
  utp : Int
  curr : Bool
  rc : Int
  held : List Lock
  pos : Nat
  sect : Bool
  trace : List Event
  aborting : Bool
  blocked : Bool
  crashed : Bool

def World.view (w : World) : View where
  prot := w.prot
  eType := w.listener.eType
  status := w.listener.status
  sock := w.listener.sockD
  sess := w.session.sockD
  assigned := w.assigned
  utp := w.utp.sockFd
  curr := w.curr
  rc := w.rc
  held := w.held
  pos := w.pos
  sect := w.sect
  trace := w.trace
  aborting := w.aborting
  blocked := w.blocked
  crashed := w.crashed

section View

variable (w : World)

@[simp] theorem view_setVar (a : Var) (v : Int) : (w.setVar a v).view = w.view := by
  cases a <;> rfl

@[simp] theorem view_store (as : List Var) (vs : List Int) : (w.store as vs).view = w.view := by
  induction as generalizing w vs with
  | nil => rfl
  | cons a as ih =>
    cases vs with
    | nil => rfl
    | cons v vs => exact (ih (w.setVar a v) vs).trans (view_setVar w a v)

theorem sockFd_callbacks (u : Utp) (cs : List UtpCallback) :
    (cs.foldl Utp.callback u).sockFd = u.sockFd := by
  induction cs generalizing u with
  | nil => rfl
  | cons c cs ih =>
    have hc : (u.callback c).sockFd = u.sockFd := by cases c <;> rfl
    exact (ih (u.callback c)).trans hc

theorem view_callbacks (cs : List UtpCallback) :
    { w with utp := cs.foldl Utp.callback w.utp }.view = w.view := by
  simp only [World.view, sockFd_callbacks]

/-- A call only leaves its result in the view. -/
theorem view_result (c : Call) (io : Io) : (c.result w io).view = { w.view with rc := io.rc } := by
  have hstored : ∀ w' : World,
      (if io.rc = -1 then w' else w'.store c.stores io.out).view = w'.view := by
    intro w'
    split
    · rfl
    · exact view_store w' c.stores io.out
  unfold Call.result
  dsimp only
  split
  · exact (view_callbacks _ _).trans (hstored _)
  · exact hstored _

theorem view_tickStats (q : Nat → StatsQuery) (l : Listener) :
    (tickStats q l).eType = l.eType ∧ (tickStats q l).status = l.status ∧
      (tickStats q l).sockD = l.sockD := by
  unfold tickStats
  split <;> exact ⟨rfl, rfl, rfl⟩

/-- The other parties leave the view alone. -/
theorem view_env (e : EnvStep) : (e.perform w).view = w.view := by
  cases e with
  | interrupt =>
    simp only [EnvStep.perform, sigAction]
    split <;> rfl
  | tick q =>
    obtain ⟨htype, hstatus, hsock⟩ := view_tickStats q w.listener
    simp only [EnvStep.perform, World.view, htype, hstatus, hsock]
  | threads sessions active exit => rfl

end View

/-! ## Facts -/

/-- What is known of a place that holds a descriptor. -/
inductive Desc
  | any
  | neg      -- it is -1
  | pos      -- it is not -1
  | live     -- it is an open descriptor
  | dead     -- it is a closed one
  deriving DecidableEq, Repr

def Desc.Holds (t : List Event) (v : Int) : Desc → Prop
  | .any => True
  | .neg => v = -1
  | .pos => v ≠ -1
  | .live => 0 ≤ v ∧ stateOf t v = .live
  | .dead => 0 ≤ v ∧ stateOf t v = .dead

structure Fact where
  locked : Bool
  /-- The lock of the session is held. -/
  sLocked : Bool
  sect : Bool
  status : Option Status
  sock : Desc
  sess : Desc
  utp : Desc
  curr : Bool
  /-- The last result is -1, or is not. -/
  err : Option Bool
  aborting : Bool
  blocked : Bool
  crashed : Bool
  reclosed : Bool
  deriving DecidableEq, Repr

structure Fact.Holds (p : Option Protocol) (e : Option EndpointType) (a : Fact) (v : View) :
    Prop where
  prot : ∀ q, p = some q → tbCreateProtocol q = some v.prot
  eType : ∀ t, e = some t → v.eType = t
  locked : .listener ∈ v.held ↔ a.locked = true
  sLocked : ∀ k, .session k ∈ v.held ↔ a.sLocked = true ∧ k = v.pos
  sect : v.sect = a.sect
  status : ∀ s, a.status = some s → v.status = s
  sock : a.sock.Holds v.trace v.sock
  sess : a.sess.Holds v.trace v.sess
  assigned : a.sess ≠ .any → v.assigned = true
  utp : a.utp.Holds v.trace v.utp
  utpShared : a.utp ≠ .live
  apart : a.sock = .live → a.sess = .live → v.sock ≠ v.sess
  curr : a.curr = true → v.curr = true
  err : ∀ b, a.err = some b → v.rc = -1 ∧ b = true ∨ 0 ≤ v.rc ∧ b = false
  aborting : v.aborting = a.aborting
  blocked : v.blocked = a.blocked
  crashed : v.crashed = a.crashed
  once : a.reclosed = false → ClosedOnce v.trace ∧ ∀ u, .opened u ∈ v.trace → 0 ≤ u

/-! ## Descriptors -/

def View.slot (v : View) : Slot → Int
  | .listener => v.sock
  | .session => v.sess
  | .utp => v.utp

def View.setSlot (v : View) (d : Slot) (x : Int) : View :=
  match d with
  | .listener => { v with sock := x }
  | .session => { v with sess := x, assigned := true }
  | .utp => { v with utp := x }

theorem view_slot (w : World) (d : Slot) : w.slot d = w.view.slot d := by cases d <;> rfl

theorem view_setSlot (w : World) (d : Slot) (x : Int) :
    (w.setSlot d x).view = w.view.setSlot d x := by cases d <;> rfl

def Fact.desc (a : Fact) : Slot → Desc
  | .listener => a.sock
  | .session => a.sess
  | .utp => a.utp

def Fact.setDesc (a : Fact) (d : Slot) (y : Desc) : Fact :=
  match d with
  | .listener => { a with sock := y }
  | .session => { a with sess := y }
  | .utp => { a with utp := y }

def Fact.mapDesc (a : Fact) (f : Desc → Desc) : Fact :=
  { a with sock := f a.sock, sess := f a.sess, utp := f a.utp }

/-- What remains known when a descriptor has been handed out. -/
def Desc.afterOpen : Desc → Desc
  | .dead => .pos
  | y => y

/-- What remains known when an unknown descriptor has been closed. -/
def Desc.afterClose : Desc → Desc
  | .live => .pos
  | y => y

/-- What is known of a copy; only one place is known to be open. -/
def Desc.copied : Desc → Desc
  | .live | .dead => .pos
  | y => y

/-- The descriptor of `utp` is shared with the listener, so it is not known to be open. -/
def Fact.opened (a : Fact) (d : Slot) : Fact :=
  { (a.mapDesc Desc.afterOpen).setDesc d (if d = .utp then .pos else .live) with err := some false }

def Fact.notOpened (a : Fact) (d : Slot) : Fact := { a.setDesc d .neg with err := some true }

def Fact.closed (a : Fact) (d : Slot) : Fact :=
  match a.desc d with
  | .live => a.setDesc d .dead
  | .neg => a
  | .dead => { a with reclosed := true }
  | .any | .pos => { a.mapDesc Desc.afterClose with reclosed := true }

section Desc

variable {t : List Event} {y : Desc} {v x : Int}

theorem Desc.Holds.afterOpen (h : y.Holds t v) (x : Int) :
    y.afterOpen.Holds (.opened x :: t) v := by
  cases y with
  | any | neg | pos => exact h
  | live =>
    refine ⟨h.1, ?_⟩
    rw [stateOf_opened, h.2]
    exact ite_self _
  | dead =>
    have hv := h.1
    simp only [Desc.afterOpen, Desc.Holds]
    omega

theorem afterOpen_eq_live (h : y.afterOpen = .live) : y = .live := by
  cases y with
  | live => rfl
  | any | neg | pos | dead => cases h

theorem Desc.Holds.copied (h : y.Holds t v) : y.copied.Holds t v := by
  cases y with
  | any | neg | pos => exact h
  | live | dead =>
    have hv := h.1
    simp only [Desc.copied, Desc.Holds]
    omega

/-- Closing another descriptor changes nothing. -/
theorem Desc.Holds.closed_ne (h : y.Holds t v) (hx : x ≠ v) : y.Holds (.closed x :: t) v := by
  cases y with
  | any | neg | pos => exact h
  | live | dead => exact ⟨h.1, (stateOf_closed_ne hx).trans h.2⟩

theorem Desc.Holds.closed_dead (h : y.Holds t v) (hx : stateOf t x = .dead) :
    y.Holds (.closed x :: t) v := by
  by_cases hxv : x = v
  · subst hxv
    cases y with
    | any | neg | pos => exact h
    | live => exact absurd (h.2.symm.trans hx) State.noConfusion
    | dead => exact ⟨h.1, by simp [stateOf, hx]⟩
  · exact h.closed_ne hxv

/-- Closing an open descriptor leaves those alone that are not known to be the same. -/
theorem Desc.Holds.closed_live (h : y.Holds t v) (hx : stateOf t x = .live)
    (hne : y = .live → x ≠ v) : y.Holds (.closed x :: t) v := by
  cases y with
  | any | neg | pos => exact h
  | live => exact h.closed_ne (hne rfl)
  | dead =>
    refine h.closed_ne ?_
    rintro rfl
    exact State.noConfusion (hx.symm.trans h.2)

theorem Desc.Holds.closed_neg (h : y.Holds t v) : y.Holds (.closed (-1) :: t) v := by
  cases y with
  | any | neg | pos => exact h
  | live | dead =>
    have hv := h.1
    exact h.closed_ne (by omega)

theorem Desc.Holds.afterClose (h : y.Holds t v) (x : Int) :
    y.afterClose.Holds (.closed x :: t) v := by
  cases y with
  | any | neg | pos => exact h
  | live =>
    have hv := h.1
    simp only [Desc.afterClose, Desc.Holds]
    omega
  | dead =>
    by_cases hxv : x = v
    · subst hxv
      exact h.closed_dead h.2
    · exact h.closed_ne hxv

end Desc

namespace Fact.Holds

variable {p : Option Protocol} {e : Option EndpointType} {a : Fact} {v : View} {x : Int}

theorem desc (h : a.Holds p e v) (d : Slot) : (a.desc d).Holds v.trace (v.slot d) := by
  cases d with
  | listener => exact h.sock
  | session => exact h.sess
  | utp => exact h.utp

theorem setDesc (h : a.Holds p e v) (d : Slot) {y : Desc} (hy : y.Holds v.trace x)
    (hlive : y ≠ .live) : (a.setDesc d y).Holds p e (v.setSlot d x) := by
  cases d with
  | listener => exact { h with sock := hy, apart := fun hl => absurd hl hlive }
  | session =>
    exact { h with
      sess := hy
      assigned := fun _ => rfl
      apart := fun _ hl => absurd hl hlive }
  | utp => exact { h with utp := hy, utpShared := hlive }

theorem result (h : a.Holds p e v) {b : Bool} (hb : x = -1 ∧ b = true ∨ 0 ≤ x ∧ b = false) :
    { a with err := some b }.Holds p e { v with rc := x } :=
  { h with err := fun _ hc => Option.some.inj hc ▸ hb }

theorem notOpened (h : a.Holds p e v) (d : Slot) :
    (a.notOpened d).Holds p e { v.setSlot d (-1) with rc := -1 } :=
  (h.setDesc d (y := .neg) rfl Desc.noConfusion).result (.inl ⟨rfl, rfl⟩)

/-- The system has handed out a descriptor. -/
theorem handedOut (h : a.Holds p e v) (hx : 0 ≤ x) :
    (a.mapDesc Desc.afterOpen).Holds p e { v with trace := .opened x :: v.trace } :=
  { h with
    sock := h.sock.afterOpen x
    sess := h.sess.afterOpen x
    utp := h.utp.afterOpen x
    assigned := fun hany => h.assigned fun heq => hany (congrArg Desc.afterOpen heq)
    utpShared := fun hl => h.utpShared (afterOpen_eq_live hl)
    apart := fun hl hl' => h.apart (afterOpen_eq_live hl) (afterOpen_eq_live hl')
    once := fun hr =>
      have hopened : ∀ u, .opened u ∈ .opened x :: v.trace → 0 ≤ u := by
        intro u hu
        cases hu with
        | head => exact hx
        | tail _ hu => exact (h.once hr).2 u hu
      ⟨(closedOnce_opened x).mpr (h.once hr).1, hopened⟩ }

theorem opened (h : a.Holds p e v) (d : Slot) (hx : 0 ≤ x) (hfresh : stateOf v.trace x ≠ .live) :
    (a.opened d).Holds p e { v.setSlot d x with rc := x, trace := .opened x :: v.trace } := by
  have hlive : Desc.live.Holds (.opened x :: v.trace) x := ⟨hx, stateOf_opened_self v.trace x⟩
  have hout := h.handedOut hx
  have herr : x = -1 ∧ false = true ∨ 0 ≤ x ∧ false = false := .inr ⟨hx, rfl⟩
  cases d with
  | listener =>
    refine Fact.Holds.result (v := { v with sock := x, trace := .opened x :: v.trace }) ?_ herr
    refine { hout with sock := hlive, apart := fun _ hl heq => hfresh ?_ }
    have hsess := h.sess
    rw [afterOpen_eq_live hl] at hsess
    exact Eq.trans (congrArg (stateOf v.trace) heq) hsess.2
  | session =>
    refine Fact.Holds.result
      (v := { v with sess := x, assigned := true, trace := .opened x :: v.trace }) ?_ herr
    refine { hout with sess := hlive, assigned := fun _ => rfl, apart := fun hl _ heq => hfresh ?_ }
    have hsock := h.sock
    rw [afterOpen_eq_live hl] at hsock
    exact Eq.trans (congrArg (stateOf v.trace) heq.symm) hsock.2
  | utp =>
    have hpos : Desc.pos.Holds (.opened x :: v.trace) x := by
      simp only [Desc.Holds]
      omega
    exact (hout.setDesc .utp hpos Desc.noConfusion).result herr

/-- The function goes on to a new session. -/
theorem newSession (h : a.Holds p e v) (x : Int) :
    { a with sess := .any, curr := false }.Holds p e
      { v with sess := x, assigned := false, curr := false } :=
  { h with
    sess := trivial
    assigned := fun hany => absurd rfl hany
    apart := fun _ hl => Desc.noConfusion hl
    curr := nofun }

/-- The session is now the one at position `k`. -/
theorem atSession (h : a.Holds p e v) (hfree : a.sLocked = false) (x : Int) (k : Nat) :
    { a with sess := .any }.Holds p e { v with sess := x, pos := k } :=
  { h with
    sess := trivial
    assigned := fun hany => absurd rfl hany
    apart := fun _ hl => Desc.noConfusion hl
    sLocked := fun i => by
      have hi := h.sLocked i
      simp only [hfree, Bool.false_eq_true, false_and, iff_false] at hi ⊢
      exact hi }

/-- A close that is not the second one of a known descriptor. -/
theorem close_once (h : a.Holds p e v) (hx : stateOf v.trace x ≠ .dead) (hr : a.reclosed = false) :
    ClosedOnce (.closed x :: v.trace) ∧ ∀ u, .opened u ∈ .closed x :: v.trace → 0 ≤ u := by
  refine ⟨closedOnce_closed.mpr ⟨hx, (h.once hr).1⟩, fun u hu => ?_⟩
  cases hu with
  | tail _ hu => exact (h.once hr).2 u hu

theorem closed (h : a.Holds p e v) (d : Slot) :
    (a.closed d).Holds p e { v with trace := .closed (v.slot d) :: v.trace } := by
  have hd := h.desc d
  have hutp : a.utp = .live → v.slot d ≠ v.utp := fun hl => absurd hl h.utpShared
  unfold Fact.closed
  split
  case h_1 hdesc =>
    rw [hdesc] at hd
    have hdead : Desc.dead.Holds (.closed (v.slot d) :: v.trace) (v.slot d) :=
      ⟨hd.1, stateOf_closed_self hd.2⟩
    have hfirst : stateOf v.trace (v.slot d) ≠ .dead := by
      rw [hd.2]
      exact State.noConfusion
    cases d with
    | listener =>
      exact { h with
        sock := hdead
        sess := h.sess.closed_live hd.2 (h.apart hdesc)
        utp := h.utp.closed_live hd.2 hutp
        apart := fun hl => Desc.noConfusion hl
        once := h.close_once hfirst }
    | session =>
      exact { h with
        sock := h.sock.closed_live hd.2 fun hl => (h.apart hl hdesc).symm
        sess := hdead
        assigned := fun _ => h.assigned fun hany => Desc.noConfusion (hany.symm.trans hdesc)
        utp := h.utp.closed_live hd.2 hutp
        apart := fun _ hl => Desc.noConfusion hl
        once := h.close_once hfirst }
    | utp => exact absurd hdesc h.utpShared
  case h_2 hdesc =>
    rw [hdesc] at hd
    rw [show v.slot d = -1 from hd]
    refine { h with
      sock := h.sock.closed_neg
      sess := h.sess.closed_neg
      utp := h.utp.closed_neg
      once := fun hr => h.close_once (fun hdead => ?_) hr }
    have hopen : Event.opened (-1) ∈ v.trace := by
      by_contra hnot
      exact State.noConfusion ((stateOf_never_iff.mpr hnot).symm.trans hdead)
    exact absurd ((h.once hr).2 (-1) hopen) (by decide)
  case h_3 hdesc =>
    rw [hdesc] at hd
    exact { h with
      sock := h.sock.closed_dead hd.2
      sess := h.sess.closed_dead hd.2
      utp := h.utp.closed_dead hd.2
      once := fun hr => Bool.noConfusion hr }
  all_goals
    have hlive : ∀ {y : Desc}, y.afterClose ≠ .live := by
      intro y hl
      cases y <;> cases hl
    exact { h with
      sock := h.sock.afterClose _
      sess := h.sess.afterClose _
      assigned := fun hany => h.assigned fun heq => hany (congrArg Desc.afterClose heq)
      utp := h.utp.afterClose _
      utpShared := hlive
      apart := fun hl => absurd hl hlive
      once := fun hr => Bool.noConfusion hr }

end Fact.Holds

/-! ## Operations -/

/-- The facts after a call through a pointer, where `as` are those after the call itself. -/
def Fact.through (a : Fact) (p : Option Protocol) (as : List Fact) : Option FPtr → List Fact
  | none => as
  | some q =>
    match p.bind tbCreateProtocol with
    | none => { a with crashed := true } :: as
    | some t => if (t.ptr q).isFn then as else [{ a with crashed := true }]

/-- The facts after a call with any result. -/
def Fact.called (a : Fact) : List Fact := [{ a with err := some true }, { a with err := some false }]

/-- The call cannot fail. -/
def Call.safe (p : Option Protocol) : Call → Bool
  | .setSockOpt => p = some .utp
  | _ => false

def Fact.lock (a : Fact) : LockId → List Fact
  | .listener =>
    [if a.locked then { a with blocked := true } else { a with locked := true, sect := true }]
  | .session => [if a.sLocked then { a with blocked := true } else { a with sLocked := true }]
  | .utp => [a, { a with blocked := true }]

def Fact.tryLock (a : Fact) : LockId → List Fact
  | .listener =>
    { a with sect := true } :: if a.locked then [] else [{ a with locked := true, sect := true }]
  | .session => a :: if a.sLocked then [] else [{ a with sLocked := true }]
  | .utp => [a]

def Fact.unlock (a : Fact) : LockId → Fact
  | .listener => { a with locked := false, sect := false }
  | .session => { a with sLocked := false }
  | .utp => a

/-- The facts after an operation. The session must not change while its lock is held. -/
def Fact.next (p : Option Protocol) (a : Fact) : Op → Option (List Fact)
  | .lock m => some (a.lock m)
  | .tryLock m => some (a.tryLock m)
  | .unlock m => some [a.unlock m]
  | .call via c =>
    some (a.through p (if c.safe p then [{ a with err := some false }] else a.called) via)
  | .fError => some (a.through p [{ a with err := none }] (some .fError))
  | .socket d via => some (a.through p [a.opened d, a.notOpened d] via)
  | .accept d => some [a.opened d, a.notOpened d]
  | .close d via => some (a.through p [a.closed d] via)
  | .reset d => some [a.setDesc d .neg]
  | .copy dst src => some [a.setDesc dst (a.desc src).copied]
  | .status s => some [{ a with status := some s }]
  | .createSession | .createServerSession => some [{ a with sess := .any, curr := false }]
  | .createSessionFull _ =>
    some [{ a with sess := .any, curr := false, err := some false }, { a with err := some true }]
  | .curr b => some [{ a with curr := b }]
  | .addSession _ => if a.sLocked then none else some [{ a with sess := .any }]
  | .visit _ => if a.sLocked then none else some [{ a with sess := .any, curr := false }]
  | .utpSetup => some [{ a with utp := .neg }]
  | .abort => some [{ a with aborting := true }]
  | .command _ | .txEnd | .sessStatus _ | .listInc | .listDec | .demux | .set _ _ | .start _
  | .finish _ | .createTestFile | .utpSocket _ | .utpState _ | .publish | .destroy => some [a]

def Fact.op (p : Option Protocol) (o : Op) (a : Fact) : Option (List Fact) :=
  if a.blocked || a.crashed then some [] else a.next p o

/-- The test can evaluate to `b`. -/
def Fact.test (p : Option Protocol) (e : Option EndpointType) (a : Fact) : Test → Bool → Bool
  | .always, b => b
  | .data _, _ | .started, _ => true
  | .failed, b => a.err.all (· == b)
  | .sockSet d, b =>
    match a.desc d with
    | .any => true
    | .neg => !b
    | .pos | .live | .dead => b
  | .eType t, b => e.all fun t' => decide (t' = t) == b
  | .prot q, b => p.all fun q' => decide (q' = q) == b
  | .ptrSet q, b => (p.bind tbCreateProtocol).all fun t => decide (t.ptr q ≠ .null) == b
  | .not c, b => a.test p e c !b
  | .or c d, true => a.test p e c true || a.test p e d true
  | .or c d, false => a.test p e c false && a.test p e d false

/-! ## Soundness -/

section Sound

variable {p : Option Protocol} {e : Option EndpointType} {a : Fact} {w w' : World} {io : Io}

theorem Fact.test_sound (b : Test) (h : a.Holds p e w.view) : a.test p e b (b.eval w) = true := by
  induction b with
  | always => rfl
  | data q | started => rfl
  | failed =>
    simp only [Fact.test, Test.eval]
    cases herr : a.err with
    | none => rfl
    | some c =>
      have hrc : w.rc = -1 ∧ c = true ∨ 0 ≤ w.rc ∧ c = false := h.err c herr
      rcases hrc with ⟨hrc, rfl⟩ | ⟨hrc, rfl⟩
      · simp [hrc]
      · have hne : w.rc ≠ -1 := by omega
        simp [hne]
  | sockSet d =>
    have hd := h.desc d
    simp only [Fact.test, Test.eval, view_slot]
    have hview : w.view.trace = w.trace := rfl
    rw [hview] at hd
    cases hdesc : a.desc d with
    | any => rfl
    | neg =>
      rw [hdesc] at hd
      simp [show w.view.slot d = -1 from hd]
    | pos =>
      rw [hdesc] at hd
      simp [show w.view.slot d ≠ -1 from hd]
    | live | dead =>
      rw [hdesc] at hd
      have hne : w.view.slot d ≠ -1 := by
        have hnonneg := hd.1
        omega
      simp [hne]
  | eType t =>
    simp only [Fact.test, Test.eval]
    cases e with
    | none => rfl
    | some t' =>
      have heq : w.listener.eType = t' := h.eType t' rfl
      simp [heq]
  | prot q =>
    simp only [Fact.test, Test.eval]
    cases p with
    | none => rfl
    | some q' =>
      have heq := (tbCreateProtocol_eq_some (h.prot q' rfl)).1
      simp [show w.prot.protocol = q' from heq]
  | ptrSet q =>
    simp only [Fact.test, Test.eval]
    cases p with
    | none => rfl
    | some q' =>
      have heq : tbCreateProtocol q' = some w.prot := h.prot q' rfl
      simp [heq]
  | not c ih =>
    simp only [Fact.test, Test.eval, Bool.not_not]
    exact ih
  | or c d ihc ihd =>
    simp only [Test.eval]
    cases hc : c.eval w <;> cases hd : d.eval w <;> simp_all [Fact.test]

/-- A call through a pointer leads to one of the facts for the call, or is undefined. -/
theorem Fact.Holds.through (h : a.Holds p e w.view) {via : Option FPtr} {as : List Fact}
    (hcrash : w.defined via = false → w' = w.crash)
    (hcall : w.defined via = true → ∃ b ∈ as, b.Holds p e w'.view) :
    ∃ b ∈ a.through p as via, b.Holds p e w'.view := by
  have hcrashed : w' = w.crash → { a with crashed := true }.Holds p e w'.view := by
    rintro rfl
    exact { h with crashed := rfl }
  cases via with
  | none => exact hcall rfl
  | some q =>
    simp only [Fact.through]
    split
    · cases hdef : w.defined (some q) with
      | false => exact ⟨_, List.mem_cons_self, hcrashed (hcrash hdef)⟩
      | true =>
        obtain ⟨b, hb, hγ⟩ := hcall hdef
        exact ⟨b, List.mem_cons_of_mem _ hb, hγ⟩
    · next t ht =>
      obtain ⟨q', rfl, hq'⟩ := Option.bind_eq_some_iff.mp ht
      have heq : t = w.prot := Option.some.inj (hq'.symm.trans (h.prot q' rfl))
      subst heq
      split
      · next hfn => exact hcall hfn
      · next hfn => exact ⟨_, List.mem_singleton_self _, hcrashed (hcrash (Bool.eq_false_iff.mpr hfn))⟩

theorem Fact.Holds.called (h : a.Holds p e w.view) {rc : Int} (hrc : -1 ≤ rc) :
    ∃ b ∈ a.called, b.Holds p e { w.view with rc := rc } := by
  by_cases hneg : rc = -1
  · exact ⟨{ a with err := some true }, by simp [Fact.called], h.result (.inl ⟨hneg, rfl⟩)⟩
  · exact ⟨{ a with err := some false }, by simp [Fact.called], h.result (.inr ⟨by omega, rfl⟩)⟩

/-! ### Locks -/

theorem Fact.Holds.acquire_listener (h : a.Holds p e w.view) :
    { a with locked := true, sect := true }.Holds p e (w.acquire .listener).view :=
  { h with
    locked := by simp [World.view, World.acquire, World.lockOf]
    sLocked := fun k => Iff.trans (by simp [World.view, World.acquire, World.lockOf, World.enter])
      (h.sLocked k)
    sect := Bool.or_true w.sect }

theorem Fact.Holds.enter_listener (h : a.Holds p e w.view) :
    { a with sect := true }.Holds p e (w.enter .listener).view :=
  { h with sect := Bool.or_true w.sect }

theorem Fact.Holds.enter_other (h : a.Holds p e w.view) {m : LockId} (hm : m ≠ .listener) :
    a.Holds p e (w.enter m).view := by
  have hsect : (w.sect || m == .listener) = w.sect := by simp [hm]
  exact { h with sect := hsect.trans h.sect }

theorem Fact.Holds.acquire_session (h : a.Holds p e w.view) (hfree : a.sLocked = false) :
    { a with sLocked := true }.Holds p e (w.acquire .session).view :=
  { h.enter_other (m := .session) LockId.noConfusion with
    locked := Iff.trans (by simp [World.view, World.acquire, World.lockOf, World.enter]) h.locked
    sLocked := fun k => by
      have hk : Lock.session k ∉ w.held := fun hmem => by simpa [hfree] using (h.sLocked k).mp hmem
      simp [World.view, World.acquire, World.lockOf, World.enter, hk] }

theorem Fact.Holds.acquire_utp (h : a.Holds p e w.view) : a.Holds p e (w.acquire .utp).view :=
  { h.enter_other (m := .utp) LockId.noConfusion with
    locked := Iff.trans (by simp [World.view, World.acquire, World.lockOf, World.enter]) h.locked
    sLocked := fun k => Iff.trans (by simp [World.view, World.acquire, World.lockOf, World.enter])
      (h.sLocked k) }

theorem Fact.Holds.lock (h : a.Holds p e w.view) {m : LockId}
    (ht : (Op.lock m).perform w io = some w') : ∃ b ∈ a.lock m, b.Holds p e w'.view := by
  have hblocked : { a with blocked := true }.Holds p e { w with blocked := true }.view :=
    { h with blocked := rfl }
  simp only [Op.perform, Option.some.injEq] at ht
  subst ht
  cases m with
  | listener =>
    have hheld : Lock.listener ∈ w.held ↔ a.locked = true := h.locked
    refine ⟨_, List.mem_singleton_self _, ?_⟩
    simp only [World.lockOf, hheld]
    split
    · exact hblocked
    · exact h.acquire_listener
  | session =>
    have hheld : Lock.session w.pos ∈ w.held ↔ a.sLocked = true :=
      ⟨fun hmem => ((h.sLocked w.pos).mp hmem).1, fun hl => (h.sLocked w.pos).mpr ⟨hl, rfl⟩⟩
    refine ⟨_, List.mem_singleton_self _, ?_⟩
    simp only [World.lockOf, hheld]
    split
    · exact hblocked
    · next hfree => exact h.acquire_session (Bool.eq_false_iff.mpr hfree)
  | utp =>
    by_cases hheld : Lock.utp ∈ w.held
    · refine ⟨{ a with blocked := true }, by simp [Fact.lock], ?_⟩
      rw [World.lockOf, if_pos hheld]
      exact hblocked
    · refine ⟨a, by simp [Fact.lock], ?_⟩
      rw [World.lockOf, if_neg hheld]
      exact h.acquire_utp

theorem Fact.Holds.tryLock (h : a.Holds p e w.view) {m : LockId}
    (ht : (Op.tryLock m).perform w io = some w') : ∃ b ∈ a.tryLock m, b.Holds p e w'.view := by
  simp only [Op.perform] at ht
  split at ht
  · split at ht
    · cases ht
    · next hfree =>
      cases ht
      cases m with
      | listener =>
        have hlocked : ¬ a.locked = true := fun hl => hfree (h.locked.mpr hl)
        simp only [Fact.tryLock, if_neg hlocked]
        exact ⟨_, by simp, h.acquire_listener⟩
      | session =>
        have hlocked : ¬ a.sLocked = true := fun hl => hfree ((h.sLocked w.pos).mpr ⟨hl, rfl⟩)
        simp only [Fact.tryLock, if_neg hlocked]
        exact ⟨_, by simp, h.acquire_session (Bool.eq_false_iff.mpr hlocked)⟩
      | utp => exact ⟨_, List.mem_singleton_self _, h.acquire_utp⟩
  · cases ht
    cases m with
    | listener => exact ⟨_, List.mem_cons_self, h.enter_listener⟩
    | session => exact ⟨_, List.mem_cons_self, h.enter_other LockId.noConfusion⟩
    | utp => exact ⟨_, List.mem_cons_self, h.enter_other LockId.noConfusion⟩

theorem Fact.Holds.unlock (h : a.Holds p e w.view) (m : LockId) :
    (a.unlock m).Holds p e (w.release m).view := by
  cases m with
  | listener =>
    exact { h with
      locked := by simp [World.view, World.release, World.lockOf, Fact.unlock]
      sLocked := fun k => Iff.trans (by simp [World.view, World.release, World.lockOf])
        (h.sLocked k)
      sect := Bool.and_false w.sect }
  | session =>
    exact { h with
      locked := Iff.trans (by simp [World.view, World.release, World.lockOf]) h.locked
      sLocked := fun k => by
        have hk : Lock.session k ∈ w.held → k = w.pos := fun hmem => ((h.sLocked k).mp hmem).2
        simpa [World.view, World.release, World.lockOf, Fact.unlock] using hk
      sect := (Bool.and_true w.sect).trans h.sect }
  | utp =>
    exact { h with
      locked := Iff.trans (by simp [World.view, World.release, World.lockOf]) h.locked
      sLocked := fun k => Iff.trans (by simp [World.view, World.release, World.lockOf])
        (h.sLocked k)
      sect := (Bool.and_true w.sect).trans h.sect }

/-! ### Calls and descriptors -/

theorem Call.valid_rc {c : Call} (h : c.valid w io = true) : -1 ≤ io.rc := by
  cases c <;> simp only [Call.valid, Bool.or_eq_true, Bool.and_eq_true, decide_eq_true_eq] at h <;>
    omega

theorem Call.valid_safe {c : Call} (h : a.Holds p e w.view) (hs : c.safe p = true)
    (hv : c.valid w io = true) : io.rc = 0 := by
  cases c <;> simp only [Call.safe, Bool.false_eq_true, decide_eq_true_eq] at hs
  subst hs
  have hprot := (tbCreateProtocol_eq_some (h.prot .utp rfl)).1
  simp only [Call.valid, Bool.or_eq_true, Bool.and_eq_true, decide_eq_true_eq] at hv
  exact hv.resolve_right fun hne => hne.2 hprot

theorem Fact.Holds.call (h : a.Holds p e w.view) {via : Option FPtr} {c : Call}
    (ht : (Op.call via c).perform w io = some w') :
    ∃ b ∈ a.through p (if c.safe p then [{ a with err := some false }] else a.called) via,
      b.Holds p e w'.view := by
  simp only [Op.perform] at ht
  refine h.through (fun hdef => ?_) (fun hdef => ?_)
  · rw [hdef] at ht
    exact (Option.some.inj ht).symm
  · rw [if_pos hdef] at ht
    split at ht
    · next hv =>
      cases ht
      rw [view_result]
      split
      · next hs =>
        have hrc := Call.valid_safe h hs hv
        exact ⟨_, List.mem_singleton_self _, h.result (.inr ⟨by omega, rfl⟩)⟩
      · exact h.called (Call.valid_rc hv)
    · cases ht

theorem Fact.Holds.openSlot (h : a.Holds p e w.view) {d : Slot} (ht : w.openSlot io d = some w') :
    ∃ b ∈ [a.opened d, a.notOpened d], b.Holds p e w'.view := by
  simp only [World.openSlot] at ht
  split at ht
  · cases ht
    have hview : { w.setSlot d (-1) with rc := -1, errNo := io.errNo }.view =
        { w.view.setSlot d (-1) with rc := -1 } := by cases d <;> rfl
    refine ⟨a.notOpened d, by simp, ?_⟩
    rw [hview]
    exact h.notOpened d
  · split at ht
    · next hfresh =>
      cases ht
      have hview : { w.setSlot d io.rc with rc := io.rc, trace := .opened io.rc :: w.trace }.view =
          { w.view.setSlot d io.rc with rc := io.rc, trace := .opened io.rc :: w.view.trace } := by
        cases d <;> rfl
      refine ⟨a.opened d, by simp, ?_⟩
      rw [hview]
      exact h.opened d hfresh.1 hfresh.2
    · cases ht

/-- **One operation**: some fact of the transfer function describes the world that it leads to. -/
theorem Fact.next_sound {o : Op} {as : List Fact} (h : a.Holds p e w.view)
    (has : a.next p o = some as) (ht : o.perform w io = some w') :
    ∃ b ∈ as, b.Holds p e w'.view := by
  have hkeep : ∀ {o : Op}, o.perform w io = some w' → w'.view = w.view →
      ∃ b ∈ [a], b.Holds p e w'.view :=
    fun _ hview => ⟨a, List.mem_singleton_self a, hview ▸ h⟩
  have hone : ∀ {b : Fact}, b.Holds p e w'.view → ∃ c ∈ [b], c.Holds p e w'.view :=
    fun hb => ⟨_, List.mem_singleton_self _, hb⟩
  cases o <;> simp only [Fact.next, Option.some.injEq] at has
  case lock m => exact has ▸ h.lock ht
  case tryLock m => exact has ▸ h.tryLock ht
  case unlock m =>
    cases ht
    exact has ▸ hone (h.unlock m)
  case call via c => exact has ▸ h.call ht
  case fError =>
    subst has
    refine h.through (fun hdef => ?_) (fun hdef => ?_) <;> simp only [Op.perform, hdef] at ht <;>
      cases ht
    · rfl
    · exact hone { h with err := fun _ hc => by cases hc }
  case socket d via =>
    subst has
    refine h.through (fun hdef => ?_) (fun hdef => ?_) <;> simp only [Op.perform, hdef] at ht
    · exact (Option.some.inj ht).symm
    · exact h.openSlot ht
  case accept d => exact has ▸ h.openSlot ht
  case close d via =>
    subst has
    refine h.through (fun hdef => ?_) (fun hdef => ?_) <;> simp only [Op.perform, hdef] at ht <;>
      cases ht
    · rfl
    · refine hone ?_
      simp only [if_true, World.closeSlot, view_slot]
      exact h.closed d
  case reset d =>
    cases ht
    subst has
    refine hone ?_
    rw [view_setSlot]
    exact h.setDesc d (y := .neg) rfl Desc.noConfusion
  case copy dst src =>
    cases ht
    subst has
    refine hone ?_
    rw [view_setSlot, view_slot]
    refine h.setDesc dst (h.desc src).copied ?_
    cases a.desc src <;> exact Desc.noConfusion
  case status s =>
    cases ht
    exact has ▸ hone { h with status := fun _ hs => Option.some.inj hs }
  case createSession | createServerSession =>
    cases ht
    exact has ▸ hone (h.newSession _)
  case createSessionFull type =>
    subst has
    simp only [Op.perform] at ht
    split at ht <;> cases ht
    · refine ⟨{ a with sess := .any, curr := false, err := some false }, by simp, ?_⟩
      exact (h.newSession _).result (.inr ⟨Int.le_refl 0, rfl⟩)
    · exact ⟨{ a with err := some true }, by simp, h.result (.inl ⟨rfl, rfl⟩)⟩
  case curr b =>
    cases ht
    exact has ▸ hone { h with curr := id }
  case addSession add =>
    cases ht
    split at has
    · cases has
    · next hfree =>
      cases has
      exact hone (h.atSession (Bool.eq_false_iff.mpr hfree) _ _)
  case visit pos =>
    cases ht
    split at has
    · cases has
    · next hfree =>
      cases has
      exact hone { h.atSession (Bool.eq_false_iff.mpr hfree) _ _ with curr := nofun }
  case utpSetup =>
    cases ht
    exact has ▸ hone { h with utp := rfl, utpShared := Desc.noConfusion }
  case abort =>
    cases ht
    exact has ▸ hone { h with aborting := rfl }
  case listDec =>
    subst has
    refine hkeep ht ?_
    cases ht
    exact view_setVar _ .active _
  case set v f =>
    subst has
    refine hkeep ht ?_
    cases ht
    exact view_setVar w v (f w)
  case start t | finish t =>
    subst has
    refine hkeep ht ?_
    cases t <;> cases ht <;> rfl
  all_goals
    subst has
    refine hkeep ht ?_
    cases ht
    rfl

/-- The domain of facts. -/
def facts (p : Option Protocol) (e : Option EndpointType) : Domain lang Fact where
  γ a w := a.Holds p e w.view
  op o a := a.op p o
  test b v a := a.test p e b v
  op_sound := by
    intro o a as w io w' h has ht
    have ht : (if w.blocked || w.crashed then none else o.perform w io) = some w' := ht
    have hstuck : (a.blocked || a.crashed) = (w.blocked || w.crashed) :=
      congrArg₂ or h.blocked.symm h.crashed.symm
    unfold Fact.op at has
    rw [hstuck] at has
    split at ht
    · cases ht
    · next hgo =>
      rw [if_neg hgo] at has
      exact Fact.next_sound h has ht
  test_sound h := Fact.test_sound _ h
  env_sound := by
    intro a w s w' h ht
    cases ht
    rw [view_env]
    exact h

end Sound

end TestBed.Code
