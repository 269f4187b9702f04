import TestBed.Session
import TestBed.Lib.Link

/-!
# A single-connection UDP transfer

`tb_udp_client`, `tb_udp_server` and the datagrams between them as one transition system. A step is
one system call of a party together with its computation up to the next call. The network may hold a
datagram for any time, deliver the datagrams of either direction in any order, and drop them; a
datagram in flight is its length.

The client sends the file, then repeats the empty datagram until `tb_udp_ack` is called or a send
fails. The server reads its first datagram before its loop; an empty datagram in the loop makes it
acknowledge and leave.
-/

namespace TestBed

open CInt Transition

inductive UdpClientPc
  | connect
  | data
  | eot
  | poll
  | closing
  | returned
  | aborted
  deriving DecidableEq, Repr

def UdpClientPc.allSent : UdpClientPc → Bool
  | .eot | .poll | .closing | .returned => true
  | _ => false

inductive UdpServerPc
  | first
  | loop
  | ack
  | left
  | returned
  | aborted
  deriving DecidableEq, Repr

def UdpServerPc.out : UdpServerPc → Bool
  | .left | .returned => true
  | _ => false

structure UdpSender where
  listener : Listener
  pc : UdpClientPc
  sz : Int
  sndBuffSz : Int
  deriving DecidableEq, Repr

/-- The server; `received` are the lengths it has read so far. -/
structure UdpReceiver where
  listener : Listener
  currSession : Session
  pc : UdpServerPc
  received : List Int
  deriving DecidableEq, Repr

structure UdpTransfer where
  client : UdpSender
  server : UdpReceiver
  toServer : List Int
  toClient : List Int
  deriving DecidableEq, Repr

/-- Who moves, and what the calls return. -/
inductive ULabel
  | connect (ok : Bool) (sndBuffSz : Option Int)
  | data (numBytes : Option Int) (ok : Bool)
  | eot (r : EotSend)
  | poll (ack : Option Nat)
  | clientClose
  | recv (i : Option Nat)
  | ack (ok : Bool)
  | serverClose
  | dropToServer (i : Nat)
  | dropToClient (i : Nat)
  deriving DecidableEq, Repr

namespace UdpSender

def abort (c : UdpSender) : UdpSender := { c with listener := tbAbort c.listener, pc := .aborted }

/-- Up to the data loop: `tb_connect` and `getsockopt` can fail. -/
def connectStep (c : UdpSender) (ok : Bool) (sndBuffSz : Option Int) : Option UdpSender :=
  if c.pc = .connect then
    if ok = false then some c.abort
    else
      match sndBuffSz with
      | none => some c.abort
      | some n => some { c with
          listener := { c.listener with
            connectTime := tbFinishTime (tbStartTime c.listener.connectTime)
            transferTime := tbStartTime c.listener.transferTime
            status := .connected }
          pc := .data
          sz := c.listener.bufsize
          sndBuffSz := n }
  else none

def nextSz (c : UdpSender) : Int :=
  if c.listener.fileSize - c.listener.totalTxRx < c.listener.bufsize then
    asInt (c.listener.fileSize - c.listener.totalTxRx)
  else c.sz

/-- One turn of the data loop, with the datagram it sends. -/
def dataStep (c : UdpSender) (numBytes : Option Int) (ok : Bool) :
    Option (UdpSender × List Int) :=
  if c.pc = .data then
    if c.listener.totalTxRx < c.listener.fileSize then
      match numBytes with
      | none => some (c.abort, [])
      | some n =>
        let sz := c.nextSz
        if c.sndBuffSz - n > sz then
          if ok then
            let l := { c.listener with totalTxRx := c.listener.totalTxRx + sz }
            some ({ c with listener := l, sz := sz }, [sz])
          else some ({ c with sz := sz }.abort, [])
        else some ({ c with sz := sz }, [])
    else
      let l := { c.listener with transferTime := tbFinishTime c.listener.transferTime }
      some ({ c with listener := l, pc := .eot }, [])
  else none

def eotStep (c : UdpSender) (r : EotSend) : Option (UdpSender × List Int) :=
  if c.pc = .eot then
    match r with
    | .sent => some ({ c with pc := .poll }, [0])
    | .wouldBlock => some ({ c with pc := .poll }, [])
    | .error => some ({ c with pc := .closing }, [])
  else none

/-- `tb_poll_for_events` in the closing loop, and the loop's test: `tb_udp_ack` is called if a datagram
has arrived. -/
def pollStep (c : UdpSender) (acked : Bool) : Option UdpSender :=
  if c.pc = .poll then
    if acked then some { c with listener := { c.listener with command := .tbExit }, pc := .closing }
    else some { c with pc := .eot }
  else none

def closeStep (c : UdpSender) : Option UdpSender :=
  if c.pc = .closing then
    some { c with
      listener := { c.listener with sockD := -1, status := .disconnected, statLock := false }
      pc := .returned }
  else none

end UdpSender

namespace UdpReceiver

def abort (s : UdpReceiver) : UdpReceiver :=
  { s with listener := tbAbort s.listener, pc := .aborted }

def eot : Int := 0

/-- `tb_recv_from` with a datagram of `n` bytes, and what the server does with it. -/
def recvStep (s : UdpReceiver) (n : Int) : Option UdpReceiver :=
  let session := { s.currSession with lastTrans := asInt (min n s.currSession.dataSize) }
  let total := s.listener.totalTxRx + session.lastTrans
  let s := { s with currSession := session, received := s.received ++ [n] }
  match s.pc with
  | .first => some { s with
      listener := { s.listener with
        totalTxRx := total
        status := .connected
        transferTime := tbStartTime s.listener.transferTime }
      pc := .loop }
  | .loop =>
    if session.lastTrans = eot then some { s with pc := .ack }
    else some { s with listener := { s.listener with totalTxRx := total } }
  | _ => none

def recvErrorStep (s : UdpReceiver) : Option UdpReceiver :=
  match s.pc with
  | .first | .loop => some s.abort
  | _ => none

/-- `tb_send_to`, with the datagram it sends, and the `break`. -/
def ackStep (s : UdpReceiver) (ok : Bool) : Option (UdpReceiver × List Int) :=
  if s.pc = .ack then
    if ok then some ({ s with pc := .left }, [s.currSession.dataSize]) else some (s.abort, [])
  else none

def closeStep (s : UdpReceiver) : Option UdpReceiver :=
  if s.pc = .left then
    some { s with
      listener := { s.listener with
        transferTime := tbFinishTime s.listener.transferTime
        sockD := -1
        status := .disconnected }
      pc := .returned }
  else none

end UdpReceiver

namespace UdpTransfer

def step (s : UdpTransfer) : ULabel → Option UdpTransfer
  | .connect ok sndBuffSz => (s.client.connectStep ok sndBuffSz).map fun c => { s with client := c }
  | .data numBytes ok => (s.client.dataStep numBytes ok).map fun r =>
      { s with client := r.1, toServer := s.toServer ++ r.2 }
  | .eot r => (s.client.eotStep r).map fun r =>
      { s with client := r.1, toServer := s.toServer ++ r.2 }
  | .poll none => (s.client.pollStep false).map fun c => { s with client := c }
  | .poll (some i) => s.toClient[i]?.bind fun _ => (s.client.pollStep true).map fun c =>
      { s with client := c, toClient := s.toClient.eraseIdx i }
  | .clientClose => s.client.closeStep.map fun c => { s with client := c }
  | .recv (some i) => s.toServer[i]?.bind fun n => (s.server.recvStep n).map fun r =>
      { s with server := r, toServer := s.toServer.eraseIdx i }
  | .recv none => s.server.recvErrorStep.map fun r => { s with server := r }
  | .ack ok => (s.server.ackStep ok).map fun r =>
      { s with server := r.1, toClient := s.toClient ++ r.2 }
  | .serverClose => s.server.closeStep.map fun r => { s with server := r }
  | .dropToServer i => s.toServer[i]?.map fun _ => { s with toServer := s.toServer.eraseIdx i }
  | .dropToClient i => s.toClient[i]?.map fun _ => { s with toClient := s.toClient.eraseIdx i }

/-- Both functions are called with the same packet and file size. -/
def init (bufsize fileSize : Int) (data : Option (List UInt8)) : UdpTransfer where
  client := {
    listener := { tbCreateListener .client .udp bufsize with fileSize := fileSize, data := data }
    pc := .connect
    sz := 0
    sndBuffSz := 0 }
  server := {
    listener := { tbCreateListener .server .udp bufsize with
      fileSize := fileSize
      status := .listening }
    currSession := { tbCreateServerSession with dataSize := bufsize }
    pc := .first
    received := [] }
  toServer := []
  toClient := []

end UdpTransfer

end TestBed
