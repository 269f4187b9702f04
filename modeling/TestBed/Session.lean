import TestBed.Basic
import Mathlib.Data.List.Basic

/-!
# Sessions and the session list

The functions of `tb_session.c`. A failing `getaddrinfo` is the argument `resolved = false`. What
`malloc` leaves unset in a new session is 0 here; every caller sets these fields before they are read.
-/

namespace TestBed

/-! ## Session list functions -/

def tbSessionAddTo (list : SessionList) (session : Session) : SessionList :=
  { list with
    sessions := list.sessions ++ [session]
    numSessions := list.numSessions + 1 }

def tbSessionAdd (list : SessionList) (session : Session) : SessionList :=
  let id := list.currentMaxId + 1
  tbSessionAddTo { list with currentMaxId := id } { session with id := id }

/-- `tb_session_list_inc`, taken as one atomic step. -/
def tbSessionListInc (list : SessionList) : SessionList × Int :=
  let n := list.numActiveConn + 1
  ({ list with numActiveConn := n }, n)

/-- `tb_session_list_dec`, taken as one atomic step. -/
def tbSessionListDec (list : SessionList) : SessionList × Int :=
  let n := list.numActiveConn - 1
  ({ list with numActiveConn := n }, n)

/-- `tb_session_list_search`, as the position of the session in the list. -/
def tbSessionListSearch (list : SessionList) (id : Int) : Option Nat :=
  list.sessions.findIdx? (·.id == id)

/-! ## Session functions -/

def tbCreateSession : Session where
  id := 0
  status := .created
  sockD := 0
  packSize := 0
  data := 0
  dataSize := 0
  lastTrans := 0
  totalBytes := 0
  stats := zeroStats

/-- `tb_create_server_session`, which sets the same fields. -/
def tbCreateServerSession : Session := tbCreateSession

/-- `tb_set_addrinfo` on a session without an address: `none` is the return value -1. -/
def tbSetAddrinfo (session : Session) (type : Int) (resolved : Bool) : Option Session :=
  if type > 0 then
    if resolved then some { session with status := .addrRes } else none
  else none

/-- `tb_create_session_full` with the data size 0 that every caller passes: `none` is `NULL`. -/
def tbCreateSessionFull (sockType : Int) (resolved : Bool) : Option Session :=
  tbSetAddrinfo tbCreateSession sockType resolved

/-! ## The statuses and the positions of new sessions -/

/-- A session that `tb_create_session_full` returns has no bytes yet, and its status has already left
`SESSION_CREATED`. -/
theorem tbCreateSessionFull_eq_some {sockType : Int} {resolved : Bool} {s : Session}
    (h : tbCreateSessionFull sockType resolved = some s) :
    s = { tbCreateSession with status := .addrRes } := by
  simp only [tbCreateSessionFull, tbSetAddrinfo] at h
  split at h
  · split at h
    · exact (Option.some.inj h).symm
    · cases h
  · cases h

/-- What is at a position of a list that was added to at its end. -/
theorem getElem?_concat_eq_some {α : Type} {xs : List α} {x y : α} {k : Nat} :
    (xs ++ [x])[k]? = some y ↔ xs[k]? = some y ∨ k = xs.length ∧ x = y := by
  by_cases hlt : k < xs.length
  · rw [List.getElem?_append_left hlt]
    exact ⟨.inl, fun h => h.resolve_right fun heq => absurd heq.1 (Nat.ne_of_lt hlt)⟩
  · have hnone : xs[k]? = none := List.getElem?_eq_none (Nat.le_of_not_lt hlt)
    rw [List.getElem?_append_right (Nat.le_of_not_lt hlt), hnone, List.getElem?_singleton]
    by_cases heq : k = xs.length
    · simp [heq]
    · have hpos : k - xs.length ≠ 0 := by omega
      simp [heq, hpos]

@[simp] theorem tbSessionListInc_sessions (list : SessionList) :
    (tbSessionListInc list).1.sessions = list.sessions := rfl

end TestBed
