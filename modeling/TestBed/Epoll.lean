import Mathlib.Data.List.Basic

/-!
# The dispatch of epoll events

`tb_poll_for_events`, over a callback that is a parameter and user data of any type. The array that
`epoll_wait` writes to is kept between polls, so that what it holds beyond the events of the last poll
is left from earlier ones.

The loop looks for `EPOLLHUP` at position 1 of the array, whichever event it has stopped at.
-/

namespace TestBed

/-! ## Events -/

/-- `struct epoll_event` -/
structure EpollEvent (δ : Type) where
  events : UInt32
  data : δ
  deriving DecidableEq, Repr

def EPOLLIN : UInt32 := 0x001
def EPOLLHUP : UInt32 := 0x010

section Dispatch

variable {δ σ : Type}

namespace EpollEvent

/-- The event carries a flag. -/
def has (e : EpollEvent δ) (flag : UInt32) : Bool := e.events &&& flag ≠ 0

end EpollEvent

/-- `tb_epoll_t`: the array has `max_events` positions, which are 5, 10 or 64 at the calls of
`tb_create_e_poll`. -/
structure TbEpoll (δ : Type) where
  events : List (EpollEvent δ)
  two_le : 2 ≤ events.length

/-- `tb_create_e_poll`, whose `calloc` clears the array. -/
def tbCreateEPoll (maxEvents : Nat) (h : 2 ≤ maxEvents) (null : δ) : TbEpoll δ :=
  ⟨List.replicate maxEvents ⟨0, null⟩, by rwa [List.length_replicate]⟩

/-- What `epoll_wait` returns: events that fit into the array, or -1. -/
structure Polled (e : TbEpoll δ) where
  ready : Option (List (EpollEvent δ))
  fits : ∀ evs ∈ ready, evs.length ≤ e.events.length

namespace Polled

variable {e : TbEpoll δ} (p : Polled e)

/-- `num_events` -/
def numEvents : Int :=
  match p.ready with
  | some evs => evs.length
  | none => -1

/-- The events returned: none at an error. -/
def list : List (EpollEvent δ) := p.ready.getD []

/-- The array after `epoll_wait`. -/
def written : TbEpoll δ where
  events := p.list ++ e.events.drop p.list.length
  two_le := by
    have := e.two_le
    simp only [List.length_append, List.length_drop]
    omega

theorem length_list_le : p.list.length ≤ e.events.length := by
  cases h : p.ready with
  | none => simp [list, h]
  | some evs => simpa [list, h] using p.fits evs h

/-- `max_events` stays what it is. -/
theorem length_written : p.written.events.length = e.events.length := by
  have := p.length_list_le
  simp only [written, List.length_append, List.length_drop]
  omega

/-- The loop runs over the events returned, also where `num_events` is -1. -/
theorem take_numEvents : p.written.events.take p.numEvents.toNat = p.list := by
  cases h : p.ready with
  | none => simp [numEvents, list, h]
  | some evs => simp [numEvents, written, list, h]

end Polled

/-- `e_poll->events[1]` -/
def TbEpoll.second (e : TbEpoll δ) : EpollEvent δ := e.events.get ⟨1, e.two_le⟩

/-- Position 1 after a poll: the second of the events returned, and where there are fewer, what an
earlier poll has left there. -/
theorem Polled.second_written {e : TbEpoll δ} (p : Polled e) :
    p.written.second = p.list[1]?.getD e.second := by
  have h : p.written.events[1]? = some p.written.second :=
    List.getElem?_eq_getElem p.written.two_le
  have he : e.events[1]? = some e.second := List.getElem?_eq_getElem e.two_le
  refine Option.some.inj (h.symm.trans ?_)
  rcases hl : p.list with _ | ⟨ev, _ | ⟨ev', evs⟩⟩
  · simp [Polled.written, hl, he]
  · simp [Polled.written, hl, he]
  · simp [Polled.written, hl]

/-! ## The loop -/

/-- The loop of `tb_poll_for_events` over the events that are left. -/
def pollLoop (e : TbEpoll δ) (fEvent : UInt32 → δ → σ → σ) :
    List (EpollEvent δ) → σ → σ × Int
  | [], s => (s, 0)
  | ev :: evs, s =>
    if ev.has EPOLLIN then pollLoop e fEvent evs (fEvent ev.events ev.data s)
    -- not the event that the loop is at
    else if e.second.has EPOLLHUP then (s, 1)
    else (s, -1)

/-- `tb_poll_for_events`: the array, what the callbacks have made of their state, and the result. -/
def tbPollForEvents (e : TbEpoll δ) (fEvent : UInt32 → δ → σ → σ) (p : Polled e) (s : σ) :
    TbEpoll δ × σ × Int :=
  (p.written, pollLoop p.written fEvent (p.written.events.take p.numEvents.toNat) s)

/-! ## What the dispatch is for -/

/-- The events that are dispatched: those before the first one without `EPOLLIN`. -/
def dispatched (evs : List (EpollEvent δ)) : List (EpollEvent δ) := evs.takeWhile (·.has EPOLLIN)

/-- The first event without `EPOLLIN`. -/
def stopper (evs : List (EpollEvent δ)) : Option (EpollEvent δ) := evs.find? (!·.has EPOLLIN)

/-- The callback, called once for each event with the event's own mask and data, in order. -/
def handled (fEvent : UInt32 → δ → σ → σ) (evs : List (EpollEvent δ)) (s : σ) : σ :=
  evs.foldl (fun s ev => fEvent ev.events ev.data s) s

/-- 0 where no event stops the loop, otherwise whether that event is a hang-up. -/
def verdict : Option (EpollEvent δ) → Int
  | none => 0
  | some ev => if ev.has EPOLLHUP then 1 else -1

variable (e : TbEpoll δ) (fEvent : UInt32 → δ → σ → σ)

/-- The result of the loop, by the event that stops it. -/
def pollRc (e : TbEpoll δ) : Option (EpollEvent δ) → Int
  | none => 0
  | some _ => if e.second.has EPOLLHUP then 1 else -1

theorem pollLoop_eq (evs : List (EpollEvent δ)) (s : σ) :
    pollLoop e fEvent evs s = (handled fEvent (dispatched evs) s, pollRc e (stopper evs)) := by
  induction evs generalizing s with
  | nil => rfl
  | cons ev evs ih =>
    by_cases hin : ev.has EPOLLIN = true
    · simp only [pollLoop, hin, if_true, ih]
      simp [dispatched, stopper, handled, hin]
    · have hin : ev.has EPOLLIN = false := by simpa using hin
      simp only [pollLoop, hin, Bool.false_eq_true, if_false]
      simp [dispatched, stopper, handled, hin, pollRc]
      split <;> rfl

/-- The two ways to classify an event agree exactly when it and the one at position 1 agree on
`EPOLLHUP`. -/
theorem pollRc_eq_verdict_iff (o : Option (EpollEvent δ)) :
    pollRc e o = verdict o ↔ ∀ ev ∈ o, ev.has EPOLLHUP = e.second.has EPOLLHUP := by
  cases o with
  | none => simp [pollRc, verdict]
  | some ev =>
    simp only [pollRc, verdict, Option.mem_def, Option.some.injEq, forall_eq']
    cases ev.has EPOLLHUP <;> cases e.second.has EPOLLHUP <;> decide

/-- The calls are always the right ones; the result is exactly where the event that stops the loop
and the one at position 1 of the array, which may be left from an earlier poll, agree on
`EPOLLHUP`. -/
theorem poll_dispatches_iff (p : Polled e) (s : σ) :
    (tbPollForEvents e fEvent p s).2 =
        (handled fEvent (dispatched p.list) s, verdict (stopper p.list)) ↔
      ∀ ev ∈ stopper p.list, ev.has EPOLLHUP = (p.list[1]?.getD e.second).has EPOLLHUP := by
  rw [← p.second_written, ← pollRc_eq_verdict_iff, tbPollForEvents, p.take_numEvents, pollLoop_eq,
    Prod.mk.injEq]
  exact and_iff_right rfl

end Dispatch

/-- A hang-up alone, on an array that was never written to. -/
def hangUp : Polled (tbCreateEPoll 10 (by decide) ()) where
  ready := some [⟨EPOLLHUP, ()⟩]
  fits := by simp [tbCreateEPoll]

theorem poll_hangUp_lost :
    ¬ (tbPollForEvents _ (fun m (_ : Unit) (calls : List UInt32) => calls ++ [m]) hangUp []).2 =
      (handled (fun m _ calls => calls ++ [m]) (dispatched hangUp.list) [],
        verdict (stopper hangUp.list)) := by
  decide

end TestBed
