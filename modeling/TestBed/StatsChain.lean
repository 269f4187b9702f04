import TestBed.Session
import TestBed.Lib.Chain
import TestBed.Lib.Transition
import Mathlib.Data.List.Nodup

/-!
# The session list and the statistics chain in memory

The lists that the seven places which add sessions build, at the level of pointers. The fields of the
session and statistics structs are maps from their addresses, `listener->stats->n_stats` is the head
of the statistics chain. `tb_session_add_to` links a session and its statistics; hooking the head is
left to its callers, and `tb_udp_m_client` links its sessions with a copy of the code that leaves out
the count and the chain. The two lists agree in the endpoints that do both (`chains_agree_iff`).

The list of sessions that the other modules work on is the one these lists spell
(`tbSessionAdd_represents`).
-/

namespace TestBed

namespace Linked

open Chain Transition

open Function (update)

abbrev Ptr := Nat

/-- The session structs and the statistics structs, one map for each field. -/
structure Heap where
  session : Ptr → Session
  nSession : Ptr → Option Ptr
  stats : Ptr → Ptr
  nStats : Ptr → Option Ptr

/-- `tb_session_list_t`; `last` is its field `end`. -/
structure ListPtr where
  currentMaxId : Int
  numSessions : Int
  start : Option Ptr
  last : Option Ptr
  numActiveConn : Int

/-- `none` is a null pointer that is followed. -/
def tbSessionAddTo (h : Heap) (list : ListPtr) (p : Ptr) : Option (Heap × ListPtr) :=
  match list.start, list.last with
  | none, _ =>
    some (h, { list with start := some p, last := some p, numSessions := list.numSessions + 1 })
  | some _, some e =>
    some ({ h with
        nSession := update h.nSession e (some p)
        nStats := update h.nStats (h.stats e) (some (h.stats p)) },
      { list with last := some p, numSessions := list.numSessions + 1 })
  | some _, none => none

/-- `session->id = ++list->current_max_id` -/
def setId (h : Heap) (list : ListPtr) (p : Ptr) : Heap × ListPtr :=
  let id := list.currentMaxId + 1
  ({ h with session := update h.session p { h.session p with id := id } },
    { list with currentMaxId := id })

def tbSessionAdd (h : Heap) (list : ListPtr) (p : Ptr) : Option (Heap × ListPtr) :=
  let (h, list) := setId h list p
  tbSessionAddTo h list p

/-- The code of `tb_udp_m_client` in place of `tb_session_add`. -/
def udpMClientLink (h : Heap) (list : ListPtr) (p : Ptr) : Option (Heap × ListPtr) :=
  let (h, list) := setId h list p
  match list.start, list.last with
  | none, _ => some (h, { list with start := some p, last := some p })
  | some _, some e =>
    some ({ h with nSession := update h.nSession e (some p) }, { list with last := some p })
  | some _, none => none

structure Endpoint where
  heap : Heap
  list : ListPtr
  /-- `listener->stats->n_stats` -/
  nStats : Option Ptr
  status : Status
  /-- The blocks allocated so far. -/
  live : List Ptr

/-- The listener as its sessions begin to be added; the callbacks run while it is listening. -/
def Endpoint.init : Endpoint where
  heap := ⟨fun _ => tbCreateSession, fun _ => none, fun p => p, fun _ => none⟩
  list := ⟨-1, 0, none, none, 0⟩
  nStats := none
  status := .listening
  live := []

/-- The blocks of a new session and of its statistics, and the fields its creator sets. -/
structure NewSession where
  block : Ptr
  stats : Ptr
  contents : Session

/-- `tb_create_session` -/
def Endpoint.create (s : Endpoint) (n : NewSession) : Endpoint :=
  { s with
    heap := {
      session := update s.heap.session n.block n.contents
      nSession := update s.heap.nSession n.block none
      stats := update s.heap.stats n.block n.stats
      nStats := update s.heap.nStats n.stats none }
    live := n.block :: n.stats :: s.live }

def Endpoint.setList (s : Endpoint) (r : Heap × ListPtr) : Endpoint :=
  { s with heap := r.1, list := r.2 }

/-- `if(listener->stats->n_stats == NULL) listener->stats->n_stats = session->stats` -/
def Endpoint.hookFirst (s : Endpoint) (p : Ptr) : Endpoint :=
  { s with nStats := if s.nStats = none then some (s.heap.stats p) else s.nStats }

def Endpoint.inc (s : Endpoint) : Endpoint :=
  { s with list := { s.list with numActiveConn := s.list.numActiveConn + 1 } }

/-- What the callbacks of the connection servers do at the first connection. -/
def Endpoint.hookListening (s : Endpoint) (p : Ptr) : Endpoint :=
  if s.status = .listening then
    { s with status := .connected, nStats := some (s.heap.stats p) }
  else s

/-! ## The seven places -/

def tbStreamMClientAdd (s : Endpoint) (p : Ptr) : Option Endpoint :=
  (tbSessionAdd s.heap s.list p).map fun r => (s.setList r).hookFirst p

def tbUdtMClientAdd (s : Endpoint) (p : Ptr) : Option Endpoint :=
  (tbSessionAdd s.heap s.list p).map fun r => (s.setList r).hookFirst p

def tbUdpMClientAdd (s : Endpoint) (p : Ptr) : Option Endpoint :=
  (udpMClientLink s.heap s.list p).map fun r => (s.setList r).hookFirst p

def tbUtpMClientAdd (s : Endpoint) (p : Ptr) : Option Endpoint :=
  (tbSessionAdd s.heap s.list p).map s.setList

def tbStreamEventAdd (s : Endpoint) (p : Ptr) : Option Endpoint :=
  (tbSessionAdd s.heap s.list p).map fun r => (s.setList r).inc.hookListening p

def tbUdtEventAdd (s : Endpoint) (p : Ptr) : Option Endpoint :=
  (tbSessionAdd s.heap s.list p).map fun r => (s.setList r).inc.hookListening p

/-- `tb_udp_event` where its search has found no session; the id is the datagram's. -/
def tbUdpEventAdd (s : Endpoint) (p : Ptr) : Option Endpoint :=
  (tbSessionAddTo s.heap s.list p).map fun r => (s.setList r).inc

inductive Adder
  | streamMClient | udtMClient | udpMClient | utpMClient | streamEvent | udtEvent | udpEvent
  deriving DecidableEq, Repr

def Adder.add : Adder → Endpoint → Ptr → Option Endpoint
  | .streamMClient => tbStreamMClientAdd
  | .udtMClient => tbUdtMClientAdd
  | .udpMClient => tbUdpMClientAdd
  | .utpMClient => tbUtpMClientAdd
  | .streamEvent => tbStreamEventAdd
  | .udtEvent => tbUdtEventAdd
  | .udpEvent => tbUdpEventAdd

/-- `malloc` returns blocks that are not in use. -/
def Adder.step (a : Adder) (s : Endpoint) (n : NewSession) : Option Endpoint :=
  if n.block ∈ s.live ∨ n.stats ∈ s.live ∨ n.block = n.stats then none
  else a.add (s.create n) n.block

/-- The list is counted, and the chain visits the statistics of its sessions once and in order. -/
def ChainsAgree (s : Endpoint) : Prop :=
  ∃ nodes, Spells s.heap.nSession s.list.start nodes ∧ s.list.numSessions = nodes.length ∧
    Spells s.heap.nStats s.nStats (nodes.map s.heap.stats) ∧ (nodes.map s.heap.stats).Nodup

/-! ## Adding one session -/

variable {h h' : Heap} {list list' : ListPtr} {nodes : List Ptr} {p : Ptr}

/-- The list spells `nodes` and ends in the last of them. -/
structure WellLinked (h : Heap) (list : ListPtr) (nodes : List Ptr) : Prop where
  sessions : Spells h.nSession list.start nodes
  last : list.last = nodes.getLast?
  nodup : nodes.Nodup
  statsNodup : (nodes.map h.stats).Nodup

/-- A session that is not on the list and has no successors. -/
structure Fresh (h : Heap) (nodes : List Ptr) (p : Ptr) : Prop where
  node : p ∉ nodes
  nSession : h.nSession p = none
  stats : h.stats p ∉ nodes.map h.stats
  nStats : h.nStats (h.stats p) = none

/-- The statistics of the nodes are chained from the first to the last. -/
def Chained (h : Heap) (nodes : List Ptr) : Prop :=
  Spells h.nStats (nodes.map h.stats).head? (nodes.map h.stats)

/-- The first session, whatever else changes. -/
theorem WellLinked.first (hp : Fresh h [] p) (hstart : list'.start = some p)
    (hlast : list'.last = some p) : WellLinked h list' [p] :=
  ⟨⟨hstart, hp.nSession⟩, hlast, List.nodup_singleton p, List.nodup_singleton _⟩

/-- A further session, whatever else changes. -/
theorem WellLinked.next {xs : List Ptr} {e : Ptr} (hl : WellLinked h list (xs ++ [e]))
    (hp : Fresh h (xs ++ [e]) p) (hnext : h'.nSession = update h.nSession e (some p))
    (hstats : h'.stats = h.stats) (hstart : list'.start = list.start)
    (hlast : list'.last = some p) : WellLinked h' list' (xs ++ [e, p]) := by
  have happend : xs ++ [e, p] = xs ++ [e] ++ [p] := by simp
  refine ⟨?_, ?_, ?_, ?_⟩
  · rw [hnext, hstart]
    exact hl.sessions.snoc hl.nodup hp.node hp.nSession
  · simp [hlast]
  · rw [happend, ← List.concat_eq_append, List.nodup_concat]
    exact ⟨hp.node, hl.nodup⟩
  · rw [happend, hstats, List.map_append, List.map_singleton, ← List.concat_eq_append,
      List.nodup_concat]
    exact ⟨hp.stats, hl.statsNodup⟩

theorem Chained.next {xs : List Ptr} {e : Ptr} (hl : WellLinked h list (xs ++ [e]))
    (hc : Chained h (xs ++ [e])) (hp : Fresh h (xs ++ [e]) p)
    (hnext : h'.nStats = update h.nStats (h.stats e) (some (h.stats p)))
    (hstats : h'.stats = h.stats) : Chained h' (xs ++ [e, p]) := by
  have hhead : ((xs ++ [e, p]).map h.stats).head? = ((xs ++ [e]).map h.stats).head? := by
    cases xs <;> rfl
  unfold Chained at hc ⊢
  rw [hstats, hnext, hhead]
  simp only [List.map_append, List.map_cons, List.map_nil] at hc ⊢
  have hnodup := hl.statsNodup
  have hfresh := hp.stats
  simp only [List.map_append, List.map_cons, List.map_nil] at hnodup hfresh
  exact hc.snoc hnodup hfresh hp.nStats

/-- What `tb_session_add_to` makes of a well linked list. -/
theorem tbSessionAddTo_spec (hl : WellLinked h list nodes) (hp : Fresh h nodes p) :
    ∃ h' list', tbSessionAddTo h list p = some (h', list') ∧
      WellLinked h' list' (nodes ++ [p]) ∧ h'.session = h.session ∧ h'.stats = h.stats ∧
      list'.currentMaxId = list.currentMaxId ∧ list'.numSessions = list.numSessions + 1 ∧
      (Chained h nodes → Chained h' (nodes ++ [p])) := by
  cases nodes using List.reverseRecOn with
  | nil =>
    have hstart : list.start = none := hl.sessions
    simp only [tbSessionAddTo, hstart]
    exact ⟨_, _, rfl, WellLinked.first hp rfl rfl, rfl, rfl, rfl, rfl, fun _ => ⟨rfl, hp.nStats⟩⟩
  | append_singleton xs e =>
    obtain ⟨x, hstart⟩ : ∃ x, list.start = some x := by
      rw [hl.sessions.head]
      cases xs <;> exact ⟨_, rfl⟩
    have hlast : list.last = some e := by simpa using hl.last
    simp only [tbSessionAddTo, hstart, hlast]
    refine ⟨_, _, rfl, ?_, rfl, rfl, rfl, rfl, ?_⟩
    · rw [List.append_assoc]
      exact hl.next hp rfl rfl hstart.symm rfl
    · intro hc
      rw [List.append_assoc]
      exact Chained.next hl hc hp rfl rfl

/-- What the copy in `tb_udp_m_client` makes of it: the count stays. -/
theorem udpMClientLink_spec (hl : WellLinked h list nodes) (hp : Fresh h nodes p) :
    ∃ h' list', udpMClientLink h list p = some (h', list') ∧
      WellLinked h' list' (nodes ++ [p]) ∧ h'.stats = h.stats ∧
      list'.numSessions = list.numSessions := by
  cases nodes using List.reverseRecOn with
  | nil =>
    have hstart : list.start = none := hl.sessions
    have hp' : Fresh (setId h list p).1 [] p := ⟨hp.node, hp.nSession, hp.stats, hp.nStats⟩
    simp only [udpMClientLink, setId, hstart]
    exact ⟨_, _, rfl, WellLinked.first hp' rfl rfl, rfl, rfl⟩
  | append_singleton xs e =>
    obtain ⟨x, hstart⟩ : ∃ x, list.start = some x := by
      rw [hl.sessions.head]
      cases xs <;> exact ⟨_, rfl⟩
    have hlast : list.last = some e := by simpa using hl.last
    simp only [udpMClientLink, setId, hstart, hlast]
    refine ⟨_, _, rfl, ?_, rfl, rfl⟩
    rw [List.append_assoc]
    exact hl.next hp rfl rfl hstart.symm rfl

theorem tbSessionAdd_spec (hl : WellLinked h list nodes) (hp : Fresh h nodes p) :
    ∃ h' list', tbSessionAdd h list p = some (h', list') ∧
      WellLinked h' list' (nodes ++ [p]) ∧
      h'.session = update h.session p { h.session p with id := list.currentMaxId + 1 } ∧
      h'.stats = h.stats ∧ list'.currentMaxId = list.currentMaxId + 1 ∧
      list'.numSessions = list.numSessions + 1 ∧
      (Chained h nodes → Chained h' (nodes ++ [p])) := by
  have hl' : WellLinked (setId h list p).1 (setId h list p).2 nodes :=
    ⟨hl.sessions, hl.last, hl.nodup, hl.statsNodup⟩
  have hp' : Fresh (setId h list p).1 nodes p := ⟨hp.node, hp.nSession, hp.stats, hp.nStats⟩
  exact tbSessionAddTo_spec hl' hp'

/-! ## The list that is spelled -/

/-- The sessions of the list that the other modules work on. -/
structure Represents (h : Heap) (list : ListPtr) (nodes : List Ptr) (l : SessionList) : Prop where
  sessions : l.sessions = nodes.map h.session
  currentMaxId : l.currentMaxId = list.currentMaxId
  numSessions : l.numSessions = list.numSessions

/-- Adding a session in memory adds it to the list that is spelled. -/
theorem tbSessionAdd_represents {l : SessionList} (hr : Represents h list nodes l)
    (hl : WellLinked h list nodes) (hp : Fresh h nodes p) :
    ∃ h' list', tbSessionAdd h list p = some (h', list') ∧ WellLinked h' list' (nodes ++ [p]) ∧
      Represents h' list' (nodes ++ [p]) (TestBed.tbSessionAdd l (h.session p)) := by
  obtain ⟨h', list', hadd, hl', hsession, -, hid, hnum, -⟩ := tbSessionAdd_spec hl hp
  refine ⟨h', list', hadd, hl', ?_, ?_, ?_⟩
  · have hold : nodes.map h'.session = nodes.map h.session := by
      apply List.map_congr_left
      intro x hx
      have hne : x ≠ p := fun heq => hp.node (heq ▸ hx)
      rw [hsession, Function.update_of_ne hne]
    rw [List.map_append, hold, List.map_singleton, hsession, Function.update_self]
    simp [TestBed.tbSessionAdd, TestBed.tbSessionAddTo, hr.sessions, hr.currentMaxId]
  · simp [TestBed.tbSessionAdd, TestBed.tbSessionAddTo, hid, hr.currentMaxId]
  · simp [TestBed.tbSessionAdd, TestBed.tbSessionAddTo, hnum, hr.numSessions]

/-! ## Any number of sessions -/

variable {a : Adder} {s t : Endpoint} {n : NewSession}

/-- The endpoints that count their sessions, chain the statistics and hook the head. -/
def Adder.Hooks : Adder → Prop
  | .streamMClient | .udtMClient | .streamEvent | .udtEvent => True
  | .udpMClient | .utpMClient | .udpEvent => False

instance (a : Adder) : Decidable a.Hooks := by
  cases a <;> unfold Adder.Hooks <;> infer_instance

/-- What each endpoint keeps of the count, the chain and its head. -/
def Adder.Keeps (a : Adder) (s : Endpoint) (nodes : List Ptr) : Prop :=
  match a with
  | .streamMClient | .udtMClient =>
    s.list.numSessions = nodes.length ∧ Chained s.heap nodes ∧
      s.nStats = (nodes.map s.heap.stats).head?
  | .streamEvent | .udtEvent =>
    s.list.numSessions = nodes.length ∧ Chained s.heap nodes ∧
      s.nStats = (nodes.map s.heap.stats).head? ∧ (s.status = .listening ↔ nodes = [])
  | .udpMClient => s.list.numSessions = 0
  | .utpMClient | .udpEvent => s.nStats = none

structure Grown (a : Adder) (s : Endpoint) (nodes : List Ptr) : Prop where
  linked : WellLinked s.heap s.list nodes
  live : ∀ p ∈ nodes, p ∈ s.live ∧ s.heap.stats p ∈ s.live
  keeps : a.Keeps s nodes

theorem grown_init (a : Adder) : Grown a .init [] := by
  refine ⟨⟨rfl, rfl, List.nodup_nil, List.nodup_nil⟩, by simp, ?_⟩
  cases a <;> simp [Adder.Keeps, Endpoint.init, Chained]

/-- A new session's blocks are on neither list. -/
theorem Grown.create (hs : Grown a s nodes) (hblock : n.block ∉ s.live) (hstats : n.stats ∉ s.live) :
    Grown a (s.create n) nodes ∧ Fresh (s.create n).heap nodes n.block := by
  have hnode : n.block ∉ nodes := fun h => hblock (hs.live _ h).1
  have hother : ∀ p ∈ nodes, p ≠ n.block := fun p hp heq => hnode (heq ▸ hp)
  have hmap : nodes.map (s.create n).heap.stats = nodes.map s.heap.stats := by
    apply List.map_congr_left
    intro p hp
    exact Function.update_of_ne (hother p hp) _ _
  have hstat : n.stats ∉ nodes.map s.heap.stats := by
    intro hmem
    obtain ⟨p, hp, heq⟩ := List.mem_map.mp hmem
    exact hstats (heq ▸ (hs.live p hp).2)
  have hchain : Chained s.heap nodes → Chained (s.create n).heap nodes := by
    intro hc
    unfold Chained at hc ⊢
    rw [hmap]
    refine hc.congr fun q hq => Function.update_of_ne ?_ _ _
    rintro rfl
    exact hstat hq
  refine ⟨⟨⟨?_, hs.linked.last, hs.linked.nodup, hmap ▸ hs.linked.statsNodup⟩, ?_, ?_⟩, ?_⟩
  · exact hs.linked.sessions.congr fun p hp => Function.update_of_ne (hother p hp) _ _
  · intro p hp
    obtain ⟨hlive, hslive⟩ := hs.live p hp
    have heq : (s.create n).heap.stats p = s.heap.stats p :=
      Function.update_of_ne (hother p hp) _ _
    rw [heq]
    exact ⟨List.mem_cons_of_mem _ (List.mem_cons_of_mem _ hlive),
      List.mem_cons_of_mem _ (List.mem_cons_of_mem _ hslive)⟩
  · have hkeeps := hs.keeps
    cases a with
    | streamMClient | udtMClient =>
      obtain ⟨hcount, hc, hhead⟩ := hkeeps
      exact ⟨hcount, hchain hc, by rw [hmap]; exact hhead⟩
    | streamEvent | udtEvent =>
      obtain ⟨hcount, hc, hhead, hstatus⟩ := hkeeps
      exact ⟨hcount, hchain hc, by rw [hmap]; exact hhead, hstatus⟩
    | udpMClient | utpMClient | udpEvent => exact hkeeps
  · refine ⟨hnode, Function.update_self _ _ _, ?_, ?_⟩
    · rw [hmap]
      simpa [Endpoint.create] using hstat
    · simp [Endpoint.create]

theorem head?_map_concat {α β : Type} (f : α → β) (xs : List α) (x : α) :
    ((xs ++ [x]).map f).head? = some (((xs.map f).head?).getD (f x)) := by
  cases xs <;> rfl

theorem Grown.add (hs : Grown a s nodes) (hp : Fresh s.heap nodes p)
    (hlive : p ∈ s.live ∧ s.heap.stats p ∈ s.live) (h : a.add s p = some t) :
    Grown a t (nodes ++ [p]) := by
  have hliveAll : ∀ x ∈ nodes ++ [p], x ∈ s.live ∧ s.heap.stats x ∈ s.live := by
    intro x hx
    rcases List.mem_append.mp hx with hx | hx
    · exact hs.live x hx
    · exact List.mem_singleton.mp hx ▸ hlive
  obtain ⟨h₁, list₁, hadd, hl₁, -, hst₁, -, hnum₁, hc₁⟩ := tbSessionAdd_spec hs.linked hp
  have hkeeps := hs.keeps
  cases a with
  | streamMClient | udtMClient =>
    obtain ⟨hcount, hc, hhead⟩ := hkeeps
    simp only [Adder.add, tbStreamMClientAdd, tbUdtMClientAdd, hadd, Option.map_some,
      Option.some.injEq] at h
    subst h
    refine ⟨hl₁, hst₁ ▸ hliveAll, ?_, hc₁ hc, ?_⟩
    · simp [Endpoint.hookFirst, Endpoint.setList, hnum₁, hcount]
    · simp only [Endpoint.hookFirst, Endpoint.setList, hst₁, head?_map_concat, hhead]
      cases (nodes.map s.heap.stats).head? <;> rfl
  | streamEvent | udtEvent =>
    obtain ⟨hcount, hc, hhead, hstatus⟩ := hkeeps
    simp only [Adder.add, tbStreamEventAdd, tbUdtEventAdd, hadd, Option.map_some,
      Option.some.injEq] at h
    subst h
    by_cases hfirst : s.status = .listening
    · obtain rfl := hstatus.mp hfirst
      simp only [Endpoint.hookListening, Endpoint.inc, Endpoint.setList, hfirst, if_true]
      refine ⟨⟨hl₁.sessions, hl₁.last, hl₁.nodup, hl₁.statsNodup⟩, hst₁ ▸ hliveAll, ?_, hc₁ hc,
        ?_, ?_⟩
      · simpa using hnum₁.trans (by rw [hcount]; rfl)
      · simp
      · simp
    · have hne : nodes ≠ [] := fun hnil => hfirst (hstatus.mpr hnil)
      simp only [Endpoint.hookListening, Endpoint.inc, Endpoint.setList, hfirst, if_false]
      refine ⟨⟨hl₁.sessions, hl₁.last, hl₁.nodup, hl₁.statsNodup⟩, hst₁ ▸ hliveAll, ?_, hc₁ hc,
        ?_, ?_⟩
      · simp [hnum₁, hcount]
      · simp only [hst₁, head?_map_concat, hhead]
        cases nodes with
        | nil => exact absurd rfl hne
        | cons x xs => rfl
      · simp [hfirst]
  | udpMClient =>
    obtain ⟨h₂, list₂, hlink, hl₂, hst₂, hnum₂⟩ := udpMClientLink_spec hs.linked hp
    simp only [Adder.add, tbUdpMClientAdd, hlink, Option.map_some, Option.some.injEq] at h
    subst h
    exact ⟨hl₂, hst₂ ▸ hliveAll, hnum₂.trans hkeeps⟩
  | utpMClient =>
    simp only [Adder.add, tbUtpMClientAdd, hadd, Option.map_some, Option.some.injEq] at h
    subst h
    exact ⟨hl₁, hst₁ ▸ hliveAll, hkeeps⟩
  | udpEvent =>
    obtain ⟨h₂, list₂, hadd₂, hl₂, -, hst₂, -⟩ := tbSessionAddTo_spec hs.linked hp
    simp only [Adder.add, tbUdpEventAdd, hadd₂, Option.map_some, Option.some.injEq] at h
    subst h
    exact ⟨⟨hl₂.sessions, hl₂.last, hl₂.nodup, hl₂.statsNodup⟩, hst₂ ▸ hliveAll, hkeeps⟩

theorem Grown.step (hs : Grown a s nodes) (h : a.step s n = some t) :
    Grown a t (nodes ++ [n.block]) := by
  simp only [Adder.step, Option.ite_none_left_eq_some, not_or] at h
  obtain ⟨⟨hblock, hstats, -⟩, hadd⟩ := h
  obtain ⟨hs', hp⟩ := hs.create hblock hstats
  refine hs'.add hp ?_ hadd
  simp [Endpoint.create]

/-- Every run adds its sessions to the list in order. -/
theorem run_grown {ns : List NewSession} (h : run a.step .init ns = some s) :
    Grown a s (ns.map (·.block)) := by
  refine run_induction (P := fun ns s => Grown a s (ns.map (·.block))) (grown_init a) ?_ h
  intro ns s n t _ hs ht
  rw [List.map_append]
  exact hs.step ht

/-- Where one list is well linked, the agreement is about its nodes. -/
theorem Grown.agree_iff (hs : Grown a s nodes) :
    ChainsAgree s ↔ s.list.numSessions = nodes.length ∧
      Spells s.heap.nStats s.nStats (nodes.map s.heap.stats) := by
  constructor
  · rintro ⟨nodes', hsp, hcount, hchain, -⟩
    obtain rfl := hsp.unique hs.linked.sessions
    exact ⟨hcount, hchain⟩
  · rintro ⟨hcount, hchain⟩
    exact ⟨nodes, hs.linked.sessions, hcount, hchain, hs.linked.statsNodup⟩

theorem chainsAgree_init : ChainsAgree .init :=
  ⟨[], rfl, rfl, rfl, List.nodup_nil⟩

/-- **When the session list and the statistics chain agree.** After any number of sessions they agree in
the TCP and UDT clients and callbacks; in the UDP and uTP clients and the UDP callback they agree only
while there is no session. -/
theorem chains_agree_iff (a : Adder) (ns : List NewSession) (s : Endpoint)
    (h : run a.step .init ns = some s) : ChainsAgree s ↔ a.Hooks ∨ ns = [] := by
  have hs := run_grown h
  have hkeeps := hs.keeps
  have hempty : ns = [] → ChainsAgree s := by
    rintro rfl
    cases h
    exact chainsAgree_init
  cases a with
  | streamMClient | udtMClient =>
    obtain ⟨hcount, hc, hhead⟩ := hkeeps
    exact iff_of_true (hs.agree_iff.mpr ⟨hcount, hhead ▸ hc⟩) (.inl trivial)
  | streamEvent | udtEvent =>
    obtain ⟨hcount, hc, hhead, -⟩ := hkeeps
    exact iff_of_true (hs.agree_iff.mpr ⟨hcount, hhead ▸ hc⟩) (.inl trivial)
  | udpMClient =>
    refine ⟨fun hagree => .inr ?_, fun hns => hempty (hns.resolve_left id)⟩
    obtain ⟨hcount, -⟩ := hs.agree_iff.mp hagree
    rw [hkeeps, List.length_map] at hcount
    exact List.length_eq_zero_iff.mp (by omega)
  | utpMClient | udpEvent =>
    refine ⟨fun hagree => .inr ?_, fun hns => hempty (hns.resolve_left id)⟩
    obtain ⟨-, hchain⟩ := hs.agree_iff.mp hagree
    have hhead := hchain.head
    rw [hkeeps] at hhead
    cases ns with
    | nil => rfl
    | cons n ns => cases hhead

/-- Two sessions with their statistics. -/
def twoSessions : List NewSession :=
  [⟨1, 2, tbCreateSession⟩, ⟨3, 4, tbCreateSession⟩]

theorem chains_agree_two_sessions :
    ∃ s, run (Adder.step .streamMClient) .init twoSessions = some s ∧
      (ChainsAgree s ↔ Adder.Hooks .streamMClient ∨ twoSessions = []) :=
  ⟨_, rfl, chains_agree_iff .streamMClient twoSessions _ rfl⟩

/-- The uTP client's first session: it is on the list, and the chain is empty. -/
theorem utpMClient_chain_empty :
    ¬ ∀ (a : Adder) (ns : List NewSession) (s : Endpoint),
      run a.step .init ns = some s → ChainsAgree s := by
  intro h
  obtain ⟨nodes, hnodes, -, hchain, -⟩ := h .utpMClient [⟨1, 2, tbCreateSession⟩] _ rfl
  cases nodes with
  | nil => cases hnodes
  | cons x xs => cases hchain.1

end Linked

end TestBed
