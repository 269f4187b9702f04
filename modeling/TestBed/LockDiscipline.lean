import TestBed.Code.Facts
import TestBed.Code.Endpoint

/-!
# Lock discipline

No client, server or session-thread function acquires a `stat_lock` that it holds, and none returns
with one, except the two functions that acquire the listener's lock a second time where they should
release it: `tb_udp_m_client` and `tb_udp_m_server` block at their very end. The second acquisition is
the only one of theirs in the status `TB_DISCONNECTED` (`lock_discipline`).
-/

namespace TestBed.Code

open Program Lang Transition

/-- The client, server and session-thread functions. -/
inductive Fn
  | streamServer | streamMServer | streamMServerConn
  | streamClient | streamMClient | streamConnection
  | udtServer | udtMServer | udtMServerConn
  | udtClient | udtMClient | udtMConnection
  | udpServer | udpMServer
  | udpClient | udpMClient | udpMClientConn
  | utpServer | utpMServer
  | utpClient | utpMClient | utpMClientConn
  deriving DecidableEq, Repr

def Fn.body : Fn → Stmt
  | .streamServer => tbStreamServer
  | .streamMServer => tbStreamMServer
  | .streamMServerConn => tbStreamMServerConn
  | .streamClient => tbStreamClient
  | .streamMClient => tbStreamMClient
  | .streamConnection => tbStreamConnection
  | .udtServer => tbUdtServer
  | .udtMServer => tbUdtMServer
  | .udtMServerConn => tbUdtMServerConn
  | .udtClient => tbUdtClient
  | .udtMClient => tbUdtMClient
  | .udtMConnection => tbUdtMConnection
  | .udpServer => tbUdpServer
  | .udpMServer => tbUdpMServer
  | .udpClient => tbUdpClient
  | .udpMClient => tbUdpMClient
  | .udpMClientConn => tbUdpMClientConn
  | .utpServer => tbUtpServer
  | .utpMServer => tbUtpMServer
  | .utpClient => tbUtpClient
  | .utpMClient => tbUtpMClient
  | .utpMClientConn => tbUtpMClientConn

def Fn.locksTwice : Fn → Bool
  | .udpMServer | .udpMClient => true
  | _ => false

/-- The thread enters a function: it holds no lock, and nothing has gone wrong. -/
structure Enters (w : World) : Prop where
  held : w.held = []
  sect : w.sect = false
  aborting : w.aborting = false
  blocked : w.blocked = false
  crashed : w.crashed = false

/-- Nothing is known but that the function is entered. -/
def Fact.entry : Fact where
  locked := false
  sLocked := false
  sect := false
  status := none
  sock := .any
  sess := .any
  utp := .any
  curr := false
  err := none
  aborting := false
  blocked := false
  crashed := false
  reclosed := true

theorem Enters.entry {w : World} (h : Enters w) : Fact.entry.Holds none none w.view where
  prot := by simp
  eType := by simp
  locked := by simp [World.view, h.held, Fact.entry]
  sLocked := by simp [World.view, h.held, Fact.entry]
  sect := h.sect
  status := by simp [Fact.entry]
  sock := trivial
  sess := trivial
  assigned := fun hany => absurd rfl hany
  utp := trivial
  utpShared := Desc.noConfusion
  apart := fun hl => Desc.noConfusion hl
  curr := fun hc => Bool.noConfusion hc
  err := by simp [Fact.entry]
  aborting := h.aborting
  blocked := h.blocked
  crashed := h.crashed
  once := fun hr => Bool.noConfusion hr

/-- The thread has not acquired a lock that it holds, and holds no `stat_lock` once it has returned. -/
structure LockDisciplined (c : Config World Op Test) : Prop where
  once : c.state.blocked = false
  released : c.stack = [] → .listener ∉ c.state.held ∧ ∀ k, .session k ∉ c.state.held

/-- `pthread_mutex_lock` is not called on the listener's `stat_lock` in the status
`TB_DISCONNECTED`. -/
def notRelocked : Guard World Op Io EnvStep :=
  .ofOp fun o w _ =>
    match o with
    | .lock .listener => w.listener.status ≠ .disconnected
    | _ => true

/-- Where no such call is made no fact with that status leads on. -/
def notRelockedFacts : Domain (lang.restrict notRelocked) Fact :=
  (facts none none).restrict notRelocked
    (fun o a _ =>
      match o with
      | .lock .listener => a.status ≠ some .disconnected
      | _ => true)
    (by
      intro o a b w io w' ha _ _ hg
      cases o with
      | lock m =>
        cases m with
        | listener =>
          simp only [notRelocked, Guard.ofOp, decide_eq_true_eq] at hg
          exact decide_eq_true fun hs => hg (ha.status _ hs)
        | session | utp => rfl
      | _ => rfl)

def unblocked (a : Fact) : Bool := !a.blocked

def unlocked (a : Fact) : Bool := !a.locked && !a.sLocked

theorem Fact.Holds.lockDisciplined {p : Option Protocol} {e : Option EndpointType}
    {c : Config World Op Test} (hinv : ∃ a : Fact, unblocked a = true ∧ a.Holds p e c.state.view)
    (hfin : c.stack = [] → ∃ a : Fact, unlocked a = true ∧ a.Holds p e c.state.view) :
    LockDisciplined c := by
  refine ⟨?_, fun hnil => ?_⟩
  · obtain ⟨a, hok, ha⟩ := hinv
    have hblocked : c.state.blocked = a.blocked := ha.blocked
    rw [hblocked]
    simpa [unblocked] using hok
  · obtain ⟨a, hok, ha⟩ := hfin hnil
    simp only [unlocked, Bool.and_eq_true, Bool.not_eq_true'] at hok
    refine ⟨fun hmem => ?_, fun k hmem => ?_⟩
    · exact Bool.noConfusion (hok.1.symm.trans (ha.locked.mp hmem))
    · exact Bool.noConfusion (hok.2.symm.trans ((ha.sLocked k).mp hmem).1)

theorem checks_unblocked (f : Fn) (h : f.locksTwice = false) :
    ((facts none none).guarded unblocked).checks 6 f.body [.entry] unlocked = true := by
  cases f with
  | udpMServer | udpMClient => cases h
  | _ => decide +kernel

theorem checks_notRelocked (f : Fn) (h : f.locksTwice = true) :
    (notRelockedFacts.guarded unblocked).checks 6 f.body [.entry] unlocked = true := by
  cases f with
  | udpMServer | udpMClient => decide +kernel
  | _ => cases h

/-- **Lock discipline.** In every run of a function it acquires no lock that it holds and returns
without a `stat_lock`; for `tb_udp_m_client` and `tb_udp_m_server` if the run does not come to
`pthread_mutex_lock(&listener->stat_lock)` in the status `TB_DISCONNECTED`. -/
theorem lock_discipline (f : Fn) {w : World} (hw : Enters w) {ls : List (Label Io EnvStep)}
    {c : Config World Op Test} (hrun : run lang.step (start f.body w) ls = some c)
    (hgood : f.locksTwice = true → Meets lang.step (GoodStep notRelocked) (start f.body w) ls) :
    LockDisciplined c := by
  cases htwice : f.locksTwice with
  | false =>
    obtain ⟨hinv, hfin⟩ :=
      Domain.checks_guarded (checks_unblocked f htwice) rfl hw.entry hrun
    exact Fact.Holds.lockDisciplined hinv hfin
  | true =>
    obtain ⟨hinv, hfin⟩ :=
      Domain.checks_guarded (checks_notRelocked f htwice) rfl hw.entry
        (restrict_run (hgood htwice) hrun)
    exact Fact.Holds.lockDisciplined hinv hfin

def noFiles : Files := fun _ => none

/-- A UDP server for many connections that has its socket. -/
def udpWorld : World :=
  .ofListener { tbCreateListener .mServer .udp 1408 with sockD := 3 } ⟨udpPtr, sockDgram, 0, .udp⟩
    noFiles fun _ => none

theorem udpWorld_enters : Enters udpWorld := ⟨rfl, rfl, rfl, rfl, rfl⟩

/-- The server's socket reports an event that is no input. -/
def pollFails (o : Op) (_ : World) : Io :=
  match o with
  | .call _ .epollWait => ⟨1, 0, [], [⟨false, false⟩], []⟩
  | _ => .ret 0

theorem lock_discipline_pollFails :
    let r := lang.drive pollFails 60 (start tbUdpMServer udpWorld)
    r.2.stack = [] ∧ LockDisciplined r.2 :=
  ⟨by decide +kernel,
    lock_discipline .udpMServer udpWorld_enters (drive_run pollFails 60 _) fun _ => by
      decide +kernel⟩

/-- The server receives an empty datagram, the call for exit. -/
def emptyDatagram (o : Op) (_ : World) : Io :=
  match o with
  | .call _ .epollWait => ⟨1, 0, [], [⟨true, false⟩], []⟩
  | _ => .ret 0

/-- The server for many connections blocks when its client ends the transfer. -/
theorem udpMServer_relocks : ¬ ∀ (f : Fn) (w : World), Enters w →
    ∀ (ls : List (Label Io EnvStep)) (c : Config World Op Test),
      run lang.step (start f.body w) ls = some c → LockDisciplined c := by
  intro h
  have hrun := drive_run (L := lang) emptyDatagram 200 (start tbUdpMServer udpWorld)
  have hfree := (h .udpMServer udpWorld udpWorld_enters _ _ hrun).once
  exact Bool.noConfusion (hfree.symm.trans (show _ = true by decide +kernel))

end TestBed.Code
