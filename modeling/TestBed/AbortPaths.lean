import TestBed.LockDiscipline

/-!
# The paths to an abort

The run of an endpoint: `tb_start`, the thread that it creates, and the destruction of the listener.
Which pointers of the protocol's table a run calls through depends on the protocol, the endpoint type
and the call that fails. Only one run calls through a pointer that is not set: the uTP server aborts
when it cannot bind its socket, and `tb_abort` then closes the socket through `f_close`, which is
`NULL` for uTP (`failures_reach_aborting`).
-/

namespace TestBed.Code

open Program Lang Transition

/-! ## No operation is stuck -/

/-- An operation has an outcome. -/
theorem Op.perform_total (o : Op) (w : World) : ∃ io, (o.perform w io).isSome = true := by
  cases o with
  | tryLock m => exact ⟨.ret 1, rfl⟩
  | call via c =>
    have hvalid : ∃ io, c.valid w io = true := by
      cases c with
      | setSockOpt => exact ⟨.ret 0, rfl⟩
      | _ => exact ⟨.fail 0, rfl⟩
    obtain ⟨io, hio⟩ := hvalid
    refine ⟨io, ?_⟩
    simp only [Op.perform, hio, if_true]
    split <;> rfl
  | socket d via =>
    refine ⟨.fail 0, ?_⟩
    simp only [Op.perform]
    split <;> rfl
  | accept d => exact ⟨.fail 0, rfl⟩
  | createSessionFull type =>
    refine ⟨.ret 0, ?_⟩
    simp only [Op.perform]
    split <;> rfl
  | start t | finish t => cases t <;> exact ⟨.ret 0, rfl⟩
  | _ => exact ⟨.ret 0, rfl⟩

/-- A thread that has not ended can move, unless it is blocked or without defined behaviour. -/
theorem thread_moves {c : Config World Op Test} (hstack : c.stack ≠ [])
    (hblocked : c.state.blocked = false) (hcrashed : c.state.crashed = false) :
    ∃ l d, (l = .ctl ∨ ∃ io, l = .op io) ∧ lang.step c l = some d := by
  cases hctl : lang.control c with
  | some k => exact ⟨.ctl, { c with stack := k }, .inl rfl, by simp [Lang.step, hctl]⟩
  | none =>
    have hpend : ∃ o k, pending c.stack = some (o, k) := by
      obtain ⟨stack, w⟩ := c
      cases stack with
      | nil => exact absurd rfl hstack
      | cons f k =>
        cases f with
        | run p => cases p <;> first | exact ⟨_, _, rfl⟩ | cases hctl
        | _ => cases hctl
    obtain ⟨o, k, hpend⟩ := hpend
    obtain ⟨io, hio⟩ := o.perform_total c.state
    obtain ⟨w, hw⟩ := Option.isSome_iff_exists.mp hio
    refine ⟨.op io, ⟨k, w⟩, .inr ⟨io, rfl⟩, ?_⟩
    have hexec : lang.exec o c.state io = some w := by
      simp [lang, Op.exec, hblocked, hcrashed, hw]
    simp [Lang.step, hpend, hexec]

/-! ## Runs of an endpoint -/

/-- `tb_start` is called on a new listener. -/
structure Starts (q : Protocol) (t : EndpointType) (w : World) : Prop where
  enters : Enters w
  prot : tbCreateProtocol q = some w.prot
  eType : w.listener.eType = t
  sock : w.listener.sockD = -1

def Fact.start : Fact := { Fact.entry with sock := .neg }

theorem Starts.start {q : Protocol} {t : EndpointType} {w : World} (h : Starts q t w) :
    Fact.start.Holds (some q) (some t) w.view :=
  { h.enters.entry with
    prot := fun _ hq => Option.some.inj hq ▸ h.prot
    eType := fun _ ht => Option.some.inj ht ▸ h.eType
    sock := h.sock
    apart := fun hl => Desc.noConfusion hl }

/-- Every call so far was defined; and once `tb_abort` was called the thread is never blocked, is not
stuck, and ends in the status `TB_ABORTING`. -/
structure AbortsProperly (c : Config World Op Test) : Prop where
  defined : c.state.crashed = false
  free : c.state.aborting = true → c.state.blocked = false
  moves : c.state.aborting = true → c.stack ≠ [] →
    ∃ l d, (l = .ctl ∨ ∃ io, l = .op io) ∧ lang.step c l = some d
  aborted : c.state.aborting = true → c.stack = [] → c.state.listener.status = .aborting

def proper (a : Fact) : Bool := !a.crashed && (!a.aborting || !a.blocked)

def endsAborting (a : Fact) : Bool := !a.aborting || a.status == some .aborting

theorem Fact.Holds.abortsProperly {p : Option Protocol} {e : Option EndpointType}
    {c : Config World Op Test} (hinv : ∃ a : Fact, proper a = true ∧ a.Holds p e c.state.view)
    (hfin : c.stack = [] → ∃ a : Fact, endsAborting a = true ∧ a.Holds p e c.state.view) :
    AbortsProperly c := by
  obtain ⟨a, hok, ha⟩ := hinv
  simp only [proper, Bool.and_eq_true, Bool.or_eq_true, Bool.not_eq_true'] at hok
  have hdefined : c.state.crashed = false := Eq.trans ha.crashed hok.1
  have hfree : c.state.aborting = true → c.state.blocked = false := by
    intro hab
    have hab' : a.aborting = true := Eq.trans ha.aborting.symm hab
    rw [hab'] at hok
    exact Eq.trans ha.blocked (hok.2.resolve_left Bool.noConfusion)
  refine ⟨hdefined, hfree, fun hab hstack => thread_moves hstack (hfree hab) hdefined, ?_⟩
  intro hab hnil
  obtain ⟨b, hb, hγ⟩ := hfin hnil
  have hab' : b.aborting = true := Eq.trans hγ.aborting.symm hab
  simp only [endsAborting, hab', Bool.not_true, Bool.false_or, beq_iff_eq] at hb
  exact hγ.status _ hb

/-- The direct `bind`, which only the uTP server makes, does not fail on a socket. -/
def bindSucceeds : Guard World Op Io EnvStep :=
  .ofOp fun o w io =>
    match o with
    | .call none .bind => io.rc ≠ -1 || w.listener.sockD = -1
    | _ => true

def Desc.isSock : Desc → Bool
  | .pos | .live | .dead => true
  | .any | .neg => false

theorem Desc.Holds.sock_ne {t : List Descriptor.Event} {v : Int} {y : Desc} (h : y.Holds t v)
    (hy : y.isSock = true) : v ≠ -1 := by
  cases y with
  | any | neg => cases hy
  | pos => exact h
  | live | dead =>
    have hv := h.1
    omega

theorem exec_call_rc {c : Call} {w w' : World} {io : Io}
    (h : lang.exec (.call none c) w io = some w') : w'.rc = io.rc := by
  simp only [lang, Op.exec, Op.perform, World.defined, if_true] at h
  split at h
  · cases h
  · split at h <;> cases h
    exact congrArg View.rc (view_result w c io)

/-- Where such a call succeeds, no fact that it has failed leads on. -/
def bindSucceedsFacts (q : Protocol) (t : EndpointType) :
    Domain (lang.restrict bindSucceeds) Fact :=
  (facts (some q) (some t)).restrict bindSucceeds
    (fun o a b =>
      match o with
      | .call none .bind => !a.sock.isSock || b.err ≠ some true
      | _ => true)
    (by
      intro o a b w io w' ha hb ht hg
      cases o with
      | call via c =>
        cases via with
        | some q => rfl
        | none =>
          cases c with
          | bind =>
            simp only [bindSucceeds, Guard.ofOp, Bool.or_eq_true, decide_eq_true_eq] at hg
            simp only [Bool.or_eq_true, Bool.not_eq_true', decide_eq_true_eq]
            cases hsock : a.sock.isSock with
            | false => exact .inl rfl
            | true =>
              refine .inr fun herr => ?_
              have hrc : w'.rc ≠ -1 := by
                rw [exec_call_rc ht]
                exact hg.resolve_right (ha.sock.sock_ne hsock)
              rcases hb.err true herr with ⟨hfailed, -⟩ | ⟨-, hfalse⟩
              · exact hrc hfailed
              · cases hfalse
          | _ => rfl
      | _ => rfl)

theorem checks_tbStart {q : Protocol} (hq : q ≠ .utp) (hbuilt : q ≠ .audt) (t : EndpointType) :
    ((facts (some q) (some t)).guarded proper).checks 8 tbStart [.start] endsAborting = true := by
  cases q with
  | utp => exact absurd rfl hq
  | audt => exact absurd rfl hbuilt
  | tcp | udp | udt | eudp | dccp => cases t <;> decide +kernel

theorem checks_tbStart_utp (t : EndpointType) :
    ((bindSucceedsFacts .utp t).guarded proper).checks 8 tbStart [.start] endsAborting = true := by
  cases t <;> decide +kernel

/-- **Every failure reaches the aborting status through defined calls**, for every protocol, endpoint
type and sequence of outcomes; for uTP if the server does not fail to bind a socket. -/
theorem failures_reach_aborting {q : Protocol} {t : EndpointType} {w : World} (hw : Starts q t w)
    {ls : List (Label Io EnvStep)} {c : Config World Op Test}
    (hrun : run lang.step (start tbStart w) ls = some c)
    (hgood : q = .utp → Meets lang.step (GoodStep bindSucceeds) (start tbStart w) ls) :
    AbortsProperly c := by
  have hbuilt : q ≠ .audt := by
    rintro rfl
    cases hw.prot
  by_cases hq : q = .utp
  · subst hq
    obtain ⟨hinv, hfin⟩ :=
      Domain.checks_guarded (checks_tbStart_utp t) rfl hw.start (restrict_run (hgood rfl) hrun)
    exact Fact.Holds.abortsProperly hinv hfin
  · obtain ⟨hinv, hfin⟩ :=
      Domain.checks_guarded (checks_tbStart hq hbuilt t) rfl hw.start hrun
    exact Fact.Holds.abortsProperly hinv hfin

def utpWorld : World :=
  .ofListener (tbCreateListener .server .utp 1408) ⟨utpPtr, sockDgram, -128, .utp⟩ noFiles
    fun _ => none

theorem utpWorld_starts : Starts .utp .server utpWorld :=
  ⟨⟨rfl, rfl, rfl, rfl, rfl⟩, rfl, rfl, rfl⟩

/-- The uTP server gets no socket, so its `bind` fails. -/
def socketFails (o : Op) (_ : World) : Io :=
  match o with
  | .socket _ _ => .fail 24
  | .call none .bind => .fail 9
  | _ => .ret 0

theorem failures_reach_aborting_socketFails :
    let r := lang.drive socketFails 80 (start tbStart utpWorld)
    r.2.stack = [] ∧ r.2.state.aborting = true ∧ AbortsProperly r.2 :=
  ⟨by decide +kernel, by decide +kernel,
    failures_reach_aborting utpWorld_starts (drive_run socketFails 80 _) fun _ => by
      decide +kernel⟩

/-- The uTP server gets the socket 3, and its `bind` fails. -/
def bindFails (o : Op) (_ : World) : Io :=
  match o with
  | .socket _ _ => .ret 3
  | .call none .bind => .fail 98
  | _ => .ret 0

/-- The abort of a uTP server whose address is in use calls through `NULL`. -/
theorem utpServer_closes_through_null :
    ¬ ∀ (q : Protocol) (t : EndpointType) (w : World), Starts q t w →
      ∀ (ls : List (Label Io EnvStep)) (c : Config World Op Test),
        run lang.step (start tbStart w) ls = some c → AbortsProperly c := by
  intro h
  have hrun := drive_run (L := lang) bindFails 80 (start tbStart utpWorld)
  have hdefined := (h .utp .server utpWorld utpWorld_starts _ _ hrun).defined
  exact Bool.noConfusion (hdefined.symm.trans (show _ = true by decide +kernel))

end TestBed.Code
