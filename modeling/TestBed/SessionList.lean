import TestBed.StatsChain

/-!
# The session list after any number of sessions

`tb_session_add` over and over, from the list that `tb_create_listener` makes. After each call the list
represents the sessions added so far (`ListOf`), in order, with the ids 0, 1, 2, ..., and the call has
written no more than the links of the last of them (`OnlyLinks`).
-/

namespace TestBed

namespace Linked

open Chain Transition

open Function (update)

/-- The list that `tb_create_listener` makes. -/
def tbCreateListenerList : ListPtr where
  currentMaxId := -1
  numSessions := 0
  start := none
  last := none
  numActiveConn := 0

/-- `tb_session_list_search`, which goes on for as long as the chain does. -/
def tbSessionListSearch (fuel : Nat) (h : Heap) (list : ListPtr) (id : Int) : Option (Option Ptr) :=
  walk h.nSession (fun p => (h.session p).id == id) fuel list.start

def addStep (s : Heap × ListPtr) (p : Ptr) : Option (Heap × ListPtr) :=
  tbSessionAdd s.1 s.2 p

/-- Sessions that have not been on a list: each is a block of its own with statistics of its own, and
neither has a successor. -/
structure FreshSessions (h : Heap) (ps : List Ptr) : Prop where
  nodup : ps.Nodup
  statsNodup : (ps.map h.stats).Nodup
  nSession : ∀ p ∈ ps, h.nSession p = none
  nStats : ∀ p ∈ ps, h.nStats (h.stats p) = none

/-- The list represents the sessions `nodes`. -/
structure ListOf (h : Heap) (list : ListPtr) (nodes : List Ptr) : Prop where
  start : list.start = none ↔ nodes = []
  last : list.last = none ↔ nodes = []
  sessions : Spells h.nSession list.start nodes
  ends : list.last = nodes.getLast?
  numSessions : list.numSessions = nodes.length
  currentMaxId : list.currentMaxId = nodes.length - 1
  ids : nodes.map (fun p => (h.session p).id) = (List.range nodes.length).map Int.ofNat
  stats : Spells h.nStats (nodes.head?.map h.stats) (nodes.map h.stats)
  search : ∀ (id : Int) (fuel : Nat), nodes.length < fuel →
    tbSessionListSearch fuel h list id =
      some (if 0 ≤ id ∧ id < nodes.length then nodes[id.toNat]? else none)

/-- Between `h` and `h'` the session `p` got its id, and the last session of the list and its statistics
got their successors. -/
structure OnlyLinks (h : Heap) (list : ListPtr) (p : Ptr) (h' : Heap) : Prop where
  session : ∀ x, x ≠ p → h'.session x = h.session x
  stats : h'.stats = h.stats
  nSession : ∀ x, list.last ≠ some x → h'.nSession x = h.nSession x
  nStats : ∀ q, list.last.map h.stats ≠ some q → h'.nStats q = h.nStats q

variable {h h' : Heap} {list list' : ListPtr} {nodes ps : List Ptr} {p : Ptr}

/-! ## What one call writes -/

theorem tbSessionAdd_onlyLinks (hadd : tbSessionAdd h list p = some (h', list')) :
    OnlyLinks h list p h' := by
  simp only [tbSessionAdd, setId, tbSessionAddTo] at hadd
  split at hadd
  case h_1 =>
    cases hadd
    exact ⟨fun x hx => Function.update_of_ne hx _ _, rfl, fun _ _ => rfl, fun _ _ => rfl⟩
  case h_2 e _ hlast =>
    cases hadd
    refine ⟨fun x hx => Function.update_of_ne hx _ _, rfl, fun x hx => ?_, fun q hq => ?_⟩
    · refine Function.update_of_ne (fun heq => hx ?_) _ _
      rw [heq]
      exact hlast
    · refine Function.update_of_ne (fun heq => hq ?_) _ _
      rw [hlast, heq]
      rfl
  case h_3 => cases hadd

/-! ## The run -/

/-- After `nodes` have been added, starting in `h₀`. The sessions that are still to come are as they
were. -/
structure Added (h₀ : Heap) (nodes : List Ptr) (s : Heap × ListPtr) : Prop where
  linked : WellLinked s.1 s.2 nodes
  chained : Chained s.1 nodes
  stats : s.1.stats = h₀.stats
  numSessions : s.2.numSessions = nodes.length
  currentMaxId : s.2.currentMaxId = nodes.length - 1
  ids : nodes.map (fun p => (s.1.session p).id) = (List.range nodes.length).map Int.ofNat
  nSession : ∀ p, p ∉ nodes → s.1.nSession p = h₀.nSession p
  nStats : ∀ q, q ∉ nodes.map h₀.stats → s.1.nStats q = h₀.nStats q

theorem added_init (h₀ : Heap) : Added h₀ [] (h₀, tbCreateListenerList) where
  linked := ⟨rfl, rfl, List.nodup_nil, List.nodup_nil⟩
  chained := rfl
  stats := rfl
  numSessions := rfl
  currentMaxId := rfl
  ids := rfl
  nSession _ _ := rfl
  nStats _ _ := rfl

variable {h₀ : Heap} {s : Heap × ListPtr}

theorem FreshSessions.of_append {qs : List Ptr} (hf : FreshSessions h₀ (ps ++ qs)) :
    FreshSessions h₀ ps := by
  have hsub : ps.Sublist (ps ++ qs) := List.sublist_append_left ps qs
  exact ⟨hf.nodup.sublist hsub, hf.statsNodup.sublist (hsub.map _),
    fun p hp => hf.nSession p (List.mem_append_left _ hp),
    fun p hp => hf.nStats p (List.mem_append_left _ hp)⟩

/-- The next session is fresh in the state it is added in. -/
theorem Added.fresh (ha : Added h₀ nodes s) (hf : FreshSessions h₀ (nodes ++ [p])) :
    Fresh s.1 nodes p := by
  have hmem : p ∈ nodes ++ [p] := by simp
  have hnode : p ∉ nodes := by
    have hnodup := hf.nodup
    rw [← List.concat_eq_append, List.nodup_concat] at hnodup
    exact hnodup.1
  have hstats : h₀.stats p ∉ nodes.map h₀.stats := by
    have hnodup := hf.statsNodup
    rw [List.map_append, List.map_singleton, ← List.concat_eq_append, List.nodup_concat] at hnodup
    exact hnodup.1
  refine ⟨hnode, ?_, ?_, ?_⟩
  · rw [ha.nSession p hnode]
    exact hf.nSession p hmem
  · rw [ha.stats]
    exact hstats
  · rw [ha.stats, ha.nStats _ hstats]
    exact hf.nStats p hmem

/-- The ids of the sessions that were there stay, and the new one is counted on from them. -/
theorem Added.ids_concat (ha : Added h₀ nodes s) (hp : p ∉ nodes)
    (hsession : h'.session =
      update s.1.session p { s.1.session p with id := s.2.currentMaxId + 1 }) :
    (nodes ++ [p]).map (fun p => (h'.session p).id) =
      (List.range (nodes ++ [p]).length).map Int.ofNat := by
  have hold : nodes.map (fun x => (h'.session x).id) = nodes.map (fun x => (s.1.session x).id) := by
    apply List.map_congr_left
    intro x hx
    have hne : x ≠ p := fun heq => hp (heq ▸ hx)
    rw [hsession, Function.update_of_ne hne]
  have hnew : (h'.session p).id = nodes.length := by
    rw [hsession, Function.update_self]
    show s.2.currentMaxId + 1 = nodes.length
    rw [ha.currentMaxId]
    omega
  rw [List.map_append, hold, ha.ids, List.length_append, List.length_singleton, List.range_succ,
    List.map_append, List.map_singleton, List.map_singleton, hnew]
  rfl

/-- One call of `tb_session_add`. -/
theorem Added.step (ha : Added h₀ nodes s) (hf : FreshSessions h₀ (nodes ++ [p])) :
    ∃ t, addStep s p = some t ∧ Added h₀ (nodes ++ [p]) t := by
  have hp := ha.fresh hf
  obtain ⟨h', list', hadd, hl', hsession, hstats, hid, hnum, hchained⟩ :=
    tbSessionAdd_spec ha.linked hp
  have honly := tbSessionAdd_onlyLinks hadd
  refine ⟨(h', list'), hadd, hl', hchained ha.chained, hstats.trans ha.stats, ?_, ?_,
    ha.ids_concat hp.node hsession, fun x hx => ?_, fun q hq => ?_⟩
  · simp [hnum, ha.numSessions]
  · simp [hid, ha.currentMaxId]
  · have hx' : x ∉ nodes := fun hmem => hx (List.mem_append_left _ hmem)
    rw [honly.nSession x, ha.nSession x hx']
    intro heq
    rw [ha.linked.last] at heq
    exact hx' (List.mem_of_getLast? heq)
  · have hq' : q ∉ nodes.map h₀.stats := by
      intro hmem
      refine hq ?_
      rw [List.map_append]
      exact List.mem_append_left _ hmem
    rw [honly.nStats q, ha.nStats q hq']
    intro heq
    obtain ⟨e, he, hqe⟩ := Option.map_eq_some_iff.mp heq
    rw [ha.linked.last] at he
    rw [ha.stats] at hqe
    exact hq' (hqe ▸ List.mem_map_of_mem (List.mem_of_getLast? he))

/-- Every sequence of calls with fresh sessions. -/
theorem run_added (hf : FreshSessions h₀ ps) :
    ∃ s, run addStep (h₀, tbCreateListenerList) ps = some s ∧ Added h₀ ps s := by
  induction ps using List.reverseRecOn with
  | nil => exact ⟨_, rfl, added_init h₀⟩
  | append_singleton ps p ih =>
    obtain ⟨s, hs, ha⟩ := ih hf.of_append
    obtain ⟨t, ht, hb⟩ := ha.step hf
    exact ⟨t, run_concat_eq_some.mpr ⟨s, hs, ht⟩, hb⟩

/-! ## What the list represents -/

/-- Where the ids count the nodes, a search finds the node at the id's position. -/
theorem find?_id {f : Ptr → Int} (hids : nodes.map f = (List.range nodes.length).map Int.ofNat)
    (id : Int) : nodes.find? (fun p => f p == id) =
      if 0 ≤ id ∧ id < nodes.length then nodes[id.toNat]? else none := by
  have hget : ∀ (i : Nat) (hi : i < nodes.length), f nodes[i] = i := by
    intro i hi
    have heq : (nodes.map f)[i]? = ((List.range nodes.length).map Int.ofNat)[i]? := by rw [hids]
    simpa [hi] using heq
  by_cases hid : 0 ≤ id ∧ id < nodes.length
  · obtain ⟨k, rfl⟩ := Int.eq_ofNat_of_zero_le hid.1
    have hk : k < nodes.length := by omega
    rw [if_pos hid, Int.toNat_natCast, List.getElem?_eq_getElem hk,
      List.find?_eq_some_iff_getElem]
    refine ⟨by simp [hget k hk], k, hk, rfl, fun j hj => ?_⟩
    have hne : (j : Int) ≠ k := by omega
    simpa [hget j (Nat.lt_trans hj hk)] using hne
  · rw [if_neg hid, List.find?_eq_none]
    intro p hp
    obtain ⟨i, hi, rfl⟩ := List.getElem_of_mem hp
    have hne : (i : Int) ≠ id := by omega
    simpa [hget i hi] using hne

theorem Added.listOf (ha : Added h₀ nodes s) : ListOf s.1 s.2 nodes where
  start := by
    rw [ha.linked.sessions.head]
    exact List.head?_eq_none_iff
  last := by
    rw [ha.linked.last]
    exact List.getLast?_eq_none_iff
  sessions := ha.linked.sessions
  ends := ha.linked.last
  numSessions := ha.numSessions
  currentMaxId := ha.currentMaxId
  ids := ha.ids
  stats := by
    have hc := ha.chained
    unfold Chained at hc
    rwa [List.head?_map] at hc
  search id fuel hfuel := by
    unfold tbSessionListSearch
    rw [ha.linked.sessions.walk hfuel, find?_id ha.ids]

/-- **The session list.** After any number of `tb_session_add` calls with fresh sessions the list
represents them in order, and no call has written a field of an earlier session beyond the links of the
last one. -/
theorem tbSessionAdd_run_listOf (h : Heap) (ps : List Ptr) (hfresh : FreshSessions h ps) :
    ∃ h' list', run addStep (h, tbCreateListenerList) ps = some (h', list') ∧ ListOf h' list' ps ∧
      ∀ pre p, pre ++ [p] <+: ps → ∃ h₁ list₁ h₂ list₂,
        run addStep (h, tbCreateListenerList) pre = some (h₁, list₁) ∧
        tbSessionAdd h₁ list₁ p = some (h₂, list₂) ∧ OnlyLinks h₁ list₁ p h₂ := by
  obtain ⟨⟨h', list'⟩, hrun, ha⟩ := run_added hfresh
  refine ⟨h', list', hrun, ha.listOf, ?_⟩
  rintro pre p ⟨rest, rfl⟩
  have hf := hfresh.of_append
  obtain ⟨⟨h₁, list₁⟩, hpre, ha₁⟩ := run_added hf.of_append
  obtain ⟨⟨h₂, list₂⟩, hadd, -⟩ := ha₁.step hf
  exact ⟨h₁, list₁, h₂, list₂, hpre, hadd, tbSessionAdd_onlyLinks hadd⟩

/-- Three sessions, each with the statistics behind it. -/
def threeSessions : Heap where
  session _ := tbCreateSession
  nSession _ := none
  stats p := p + 1
  nStats _ := none

theorem tbSessionAdd_run_listOf_three :
    ∃ h' list', run addStep (threeSessions, tbCreateListenerList) [10, 20, 30] = some (h', list') ∧
      ListOf h' list' [10, 20, 30] ∧
      ∀ pre p, pre ++ [p] <+: [10, 20, 30] → ∃ h₁ list₁ h₂ list₂,
        run addStep (threeSessions, tbCreateListenerList) pre = some (h₁, list₁) ∧
        tbSessionAdd h₁ list₁ p = some (h₂, list₂) ∧ OnlyLinks h₁ list₁ p h₂ :=
  tbSessionAdd_run_listOf threeSessions [10, 20, 30]
    ⟨by decide, by decide, fun _ _ => rfl, fun _ _ => rfl⟩

end Linked

end TestBed
