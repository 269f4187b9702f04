import TestBed.TestFile
import TestBed.ClientThread
import TestBed.Lib.Transition

/-!
# The single-connection stream client

`tb_stream_client` cut at its calls. A failing send is passed to the protocol's `f_error`, which
decides whether the client aborts.

The client sends `file_size` bytes of the loaded data. For a named file that is not the length of the
file but the result of `fseek`, so nothing is ever sent (`named_file_not_transmitted`).
-/

namespace TestBed

open CInt Transition

def eagain : Int := 11

def tbSocketError (_value _errNo : Int) : Int := -1
def tbDccpError (_value errNo : Int) : Int := if errNo = eagain then 0 else -1
def tbUdtError (_value _errNo : Int) : Int := 0
def tbUtpErrorHandle (value _errNo : Int) : Int := value

/-- `f_error` of the protocols: 0 if the error is ignored. `tb_create_protocol` builds no aUDT, which
is treated as UDT here. -/
def fError : Protocol → Int → Int → Int
  | .tcp | .udp | .eudp => tbSocketError
  | .dccp => tbDccpError
  | .udt | .audt => tbUdtError
  | .utp => tbUtpErrorHandle

inductive StreamClientPc
  | connect
  | sending
  | closing
  | returned
  | aborted
  deriving DecidableEq, Repr

/-- The state of the client, and the calls of `send` it has made. -/
structure StreamClient where
  listener : Listener
  pc : StreamClientPc
  sz : Int
  calls : List SendCall
  deriving DecidableEq, Repr

inductive CLabel
  | connect (ok : Bool)
  | send (rc errNo : Int)
  | finish
  | close
  deriving DecidableEq, Repr

namespace StreamClient

def accepted (mem : List UInt8) (s : StreamClient) : List UInt8 :=
  (s.calls.map SendCall.piece).flatMap fun p => Slice.slice mem p.1 p.2

def nextSz (s : StreamClient) : Int :=
  let rmbytes := asInt (s.listener.fileSize - s.listener.totalTxRx)
  if rmbytes < s.listener.bufsize then rmbytes else s.sz

def step (s : StreamClient) : CLabel → Option StreamClient
  | .connect ok =>
    if s.pc = .connect then
      if ok then some { s with
        listener := { s.listener with
          connectTime := tbFinishTime (tbStartTime s.listener.connectTime)
          transferTime := tbStartTime s.listener.transferTime
          status := .connected }
        pc := .sending
        sz := s.listener.bufsize }
      else some { s with listener := tbAbort s.listener, pc := .aborted }
    else none
  | .send rc errNo =>
    if s.pc = .sending ∧ s.listener.totalTxRx < s.listener.fileSize then
      let sz := s.nextSz
      let s := { s with
        sz := sz
        calls := s.calls ++ [⟨s.listener.totalTxRx, asSizeT sz, rc⟩] }
      if rc = -1 then
        if fError s.listener.protId rc errNo = 0 then some s
        else some { s with listener := tbAbort s.listener, pc := .aborted }
      else if 0 ≤ rc ∧ rc ≤ asSizeT sz then
        some { s with
          listener := { s.listener with totalTxRx := s.listener.totalTxRx + rc } }
      else none
    else none
  | .finish =>
    if s.pc = .sending ∧ ¬ s.listener.totalTxRx < s.listener.fileSize then
      some { s with
        listener := { s.listener with transferTime := tbFinishTime s.listener.transferTime }
        pc := .closing }
    else none
  | .close =>
    if s.pc = .closing then
      some { s with
        listener := { s.listener with sockD := -1, status := .disconnected, statLock := false }
        pc := .returned }
    else none

def init (l : Listener) : StreamClient := ⟨l, .connect, 0, []⟩

end StreamClient

theorem StreamClient.step_calls {s t : StreamClient} {l : CLabel}
    (hs : s.listener.fileSize ≤ s.listener.totalTxRx) (h : s.step l = some t) :
    t.listener.fileSize ≤ t.listener.totalTxRx ∧ t.calls = s.calls := by
  cases l <;> simp only [StreamClient.step] at h
  case connect ok =>
    split at h
    · split at h <;> cases h <;> exact ⟨hs, rfl⟩
    · cases h
  case send rc errNo =>
    split at h
    · next hlt => omega
    · cases h
  case finish =>
    split at h <;> cases h
    exact ⟨hs, rfl⟩
  case close =>
    split at h <;> cases h
    exact ⟨hs, rfl⟩

/-- What a client run on a named file should do: load the file, and hand its bytes to `send`. -/
structure TransmitsFile (contents : List UInt8) (l : Listener) : Prop where
  fileSize : l.fileSize = contents.length
  data : l.data = some contents
  sent : ∀ ls s, run StreamClient.step (StreamClient.init l) ls = some s → s.pc = .returned →
    s.accepted contents = contents

/-- **A named file is never transmitted.** For every readable regular file with at least one byte,
`tb_client` loads no bytes and takes 0 for the length, and no run of `tb_stream_client` calls `send`. -/
theorem named_file_not_transmitted (files : Files) (random : Int → Option (List UInt8))
    (name : String) (contents : List UInt8) (protocol : Protocol) (bufsize sockD fileSize : Int)
    (hfile : files name = some ⟨contents, true⟩) (hlen : 1 ≤ contents.length) :
    let l := tbClientLoad files random { tbCreateListener .client protocol bufsize with
      filename := some name
      fileSize := fileSize
      sockD := sockD }
    ¬ TransmitsFile contents l ∧ l.fileSize = 0 ∧ l.data = some [] ∧
      ∀ ls s, run StreamClient.step (StreamClient.init l) ls = some s → s.calls = [] := by
  intro l
  have hload : l.fileSize = 0 ∧ l.data = some [] := by
    simp [l, tbClientLoad, tbCreateTestFile, tbLoadTestFile_seekable hfile]
  refine ⟨?_, hload.1, hload.2, ?_⟩
  · intro h
    have := h.fileSize
    omega
  · intro ls s hrun
    have hinv : s.listener.fileSize ≤ s.listener.totalTxRx ∧ s.calls = [] := by
      refine run_invariant (I := fun s => s.listener.fileSize ≤ s.listener.totalTxRx ∧ s.calls = [])
        ⟨?_, rfl⟩ ?_ hrun
      · have htotal : l.totalTxRx = 0 := rfl
        exact Int.le_of_eq (hload.1.trans htotal.symm)
      · intro s a t ⟨hs, hcalls⟩ ht
        obtain ⟨hle, hcalls'⟩ := StreamClient.step_calls hs ht
        exact ⟨hle, hcalls'.trans hcalls⟩
    exact hinv.2

def threeByteFile : Files := fun name => if name = "f" then some ⟨[1, 2, 3], true⟩ else none

theorem named_file_not_transmitted_three_bytes :
    let l := tbClientLoad threeByteFile (fun _ => none) { tbCreateListener .client .tcp 1408 with
      filename := some "f"
      fileSize := 0
      sockD := 3 }
    ¬ TransmitsFile [1, 2, 3] l :=
  (named_file_not_transmitted threeByteFile (fun _ => none) "f" [1, 2, 3] .tcp 1408 3 0 rfl
    (by decide)).1

/-- A complete run of the client on the file: it connects, sends nothing and returns. -/
theorem three_bytes_not_sent :
    let l := tbClientLoad threeByteFile (fun _ => none) { tbCreateListener .client .tcp 1408 with
      filename := some "f" }
    l.fileSize = 0 ∧ l.data = some [] ∧
      ∃ s, run StreamClient.step (StreamClient.init l) [.connect true, .finish, .close] = some s ∧
        s.pc = .returned ∧ s.accepted [1, 2, 3] = [] :=
  ⟨rfl, rfl, _, rfl, rfl, rfl⟩

end TestBed
