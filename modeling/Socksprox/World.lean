import Socksprox.Lib.Machine
import Socksprox.Ringbuff
import Socksprox.Info
import Mathlib.Tactic.Simps.Basic

/-!
What one connection's handlers run on (`include/epoll_data.h`): the connection's
objects and which of them are live, the descriptors it holds with their epoll
registration and the bytes waiting in them, and the answers the kernel will give
to the calls of the event being handled.

`Proc` is the monad of the handlers. An access to an object that is not live is a
`Fault`; a run stops there. `trace` is a ghost: what the connection has done, in
order, for stating properties of whole runs.
-/

namespace Socksprox

/-! ### The connection's objects -/

/-- The two ends of a connection; also names their `Data` objects and what `Shared`
keeps twice, once for each end (`client_fd`, `server_fd` and so on). -/
inductive Side where
  | client
  | server
  deriving DecidableEq

instance (P : Side → Prop) [DecidablePred P] : Decidable (∀ s, P s) :=
  decidable_of_iff (P .client ∧ P .server)
    ⟨fun h s => by cases s with | client => exact h.1 | server => exact h.2,
      fun h => ⟨h .client, h .server⟩⟩

inductive State where
  | noState | waitingMethods | sendingMethod | authenticating | waitingCommand | asyncDns
  | sendingReply | sendingReply2 | connecting | bindListening | full | fullUdpa | halfClose
  | closed
  deriving DecidableEq

def flagReadClosed : UInt8 := 0x01
def flagWriteClosed : UInt8 := 0x02
def flagFlushing : UInt8 := 0x04

def outbuffsize : Nat := 4096

/-- Heap objects of one connection. -/
inductive Obj where
  | data (s : Side)
  | shared
  | info
  | buff (s : Side)
  | access
  | sa
  | ai
  deriving DecidableEq

inductive Life where
  | unallocated
  | live
  | freed
  deriving DecidableEq

/-- `struct Shared`. The pointers `info` and `outBuff` are kept as "is not null". -/
@[ext] structure Shared where
  state : State
  fd : Side → Int
  out : Side → Ring
  outBuff : Side → Bool
  data : Side → Option Side
  flags : Side → UInt8
  info : Bool

/-! ### The kernel's side -/

/-- The bits of an epoll event mask that the server looks at. -/
structure Events where
  epollin : Bool
  epollout : Bool
  deriving DecidableEq

def epollIn : Events := ⟨true, false⟩
def epollOut : Events := ⟨false, true⟩
def epollInOut : Events := ⟨true, true⟩

/-- An open descriptor: bytes that arrived and were not received yet, whether the peer
has finished sending, `O_NONBLOCK`, and the epoll registration with its `data.ptr`. -/
structure Sock where
  inbox : List UInt8
  fin : Bool
  nonblock : Bool
  interest : Option (Events × Option Side)

def Sock.opened : Sock := { inbox := [], fin := false, nonblock := false, interest := none }

/-- What the kernel answers to the calls made while one event is handled. A receive or
send count is an upper bound; an errno of 0 is success. -/
structure Answers where
  recv : Option Nat
  send : Option Nat
  epollAdd : Bool
  epollMod : List Bool
  mallocSa : Bool
  mallocData : Bool
  socket : Option Int
  connectErrno : Int
  bind : Bool
  listen : Bool
  getsockname : Option SockAddr
  soError : Option (BitVec 32)
  accept : Option (Int × SockAddr)
  pipeWrite : Bool

/-- Nothing to receive, send or open, and no `epoll_ctl` that fails. -/
def Answers.idle : Answers :=
  { recv := none, send := none, epollAdd := true, epollMod := [], mallocSa := true
    mallocData := true, socket := none, connectErrno := 0, bind := true, listen := true
    getsockname := none, soError := none, accept := none, pipeWrite := true }

def eagain : Int := 11
def einprogress : Int := 115

/-- One event of a batch that `epoll_wait` returned. -/
inductive Event where
  | peer (fd : Int) (ptr : Option Side) (events : Events)
  | resolver
  deriving DecidableEq

/-- A request to the resolver thread, and its answer. -/
inductive Dns where
  | idle
  | requested
  | answered (gaiRet : Int)
  deriving DecidableEq

/-! ### The ghost trace -/

inductive InitFn where
  | connect
  | bind
  | udpa
  deriving DecidableEq

inductive Act where
  | state (s : State)
  | recv (fd : Int) (bytes : List UInt8)
  | eof (fd : Int)
  | sent (fd : Int) (bytes : List UInt8)
  | sendFailed (fd : Int)
  | queued (s : Side) (bytes : List UInt8)
  | firewall (info : Info)
  | resolve (input : List UInt8)
  | invoked (f : InitFn)
  | connect (fd : Int) (dst : SockAddr)
  | accepted (fd : Int) (ss : SockAddr)
  deriving DecidableEq

/-! ### World and programs -/

@[ext] structure World where
  shared : Shared
  selfFd : Side → Int
  info : Info
  access : Side → Option SockAddr
  mem : Obj → Life
  fds : Int → Option Sock
  ans : Answers
  dns : Dns
  pending : List Event
  trace : List Act

inductive Fault where
  | dangling (o : Obj)
  | doubleFree (o : Obj)
  | null
  deriving DecidableEq

abbrev Proc (α : Type) : Type := Lib.Exec Fault World α

open Lib (wp)
open Lib.Exec (get modify throw)

namespace World

@[simps -fullyApplied] def emit (w : World) (a : Act) : World := { w with trace := w.trace ++ [a] }

@[simps -fullyApplied] def setFd (w : World) (fd : Int) (s : Option Sock) : World :=
  { w with fds := Function.update w.fds fd s }

@[simps -fullyApplied] def setMem (w : World) (o : Obj) (l : Life) : World :=
  { w with mem := Function.update w.mem o l }

@[simps -fullyApplied] def setState (w : World) (s : State) : World :=
  { w with shared := { w.shared with state := s }, trace := w.trace ++ [.state s] }

@[simps -fullyApplied] def setRep (w : World) (rep : UInt8) : World :=
  { w with info := { w.info with rep := rep } }

@[simps -fullyApplied] def setInfo (w : World) (info : Info) : World := { w with info := info }

@[simps -fullyApplied] def setOut (w : World) (s : Side) (r : Ring) : World :=
  { w with shared := { w.shared with out := Function.update w.shared.out s r } }

/-- Bytes stored into an output buffer; when they do not fit nothing changes. -/
def queue (w : World) (s : Side) (bytes : List UInt8) : World :=
  if bytes.length ≤ (w.shared.out s).free then
    (w.setOut s ((w.shared.out s).write bytes).1).emit (.queued s bytes)
  else w

/-- Bytes removed from the front of an output buffer. -/
@[simps -fullyApplied] def drop (w : World) (s : Side) (n : Nat) : World :=
  { w with shared := { w.shared with
      out := Function.update w.shared.out s ((w.shared.out s).consume n) } }

/-- The registration of an open descriptor replaced. -/
@[simps -fullyApplied]
def setInterest (w : World) (fd : Int) (i : Option (Events × Option Side)) : World :=
  { w with fds := Function.update w.fds fd ((w.fds fd).map fun sk => { sk with interest := i }) }

/-- The answer to the next `EPOLL_CTL_MOD`. -/
def modAnswer (w : World) : Bool := w.ans.epollMod.headD true

@[simps -fullyApplied] def popMod (w : World) : World :=
  { w with ans := { w.ans with epollMod := w.ans.epollMod.tail } }

/-- Bytes taken out of the inbox of a descriptor. -/
@[simps -fullyApplied]
def received (w : World) (fd : Int) (bytes rest : List UInt8) : World :=
  { w with
    fds := Function.update w.fds fd ((w.fds fd).map fun sk => { sk with inbox := rest })
    trace := w.trace ++ [.recv fd bytes] }

/-- The descriptor is open and registered with epoll. -/
def Registered (w : World) (fd : Int) : Prop :=
  ∃ sk i, w.fds fd = some sk ∧ sk.interest = some i

/-- A new descriptor. -/
@[simps -fullyApplied] def opened (w : World) (fd : Int) (nonblock : Bool) : World :=
  { w with fds := Function.update w.fds fd (some { Sock.opened with nonblock := nonblock }) }

/-- The server side's `Data` set up around `sfd` and linked into `Shared`. -/
@[simps -fullyApplied] def linkServer (w : World) (sfd : Int) : World :=
  { w with
    shared := { w.shared with
      data := Function.update w.shared.data .server (some .server)
      fd := Function.update w.shared.fd .server sfd }
    selfFd := Function.update w.selfFd .server sfd
    mem := Function.update w.mem (.data .server) .live }

/-- The server's address noted for the access log. -/
@[simps -fullyApplied] def noted (w : World) (ss : SockAddr) : World :=
  { w with access := Function.update w.access .server (some ss) }

/-- The end `e` moved to another descriptor. -/
@[simps -fullyApplied] def setSelf (w : World) (e : Side) (fd : Int) : World :=
  { w with selfFd := Function.update w.selfFd e fd }

@[simps -fullyApplied] def setServerFd (w : World) (fd : Int) : World :=
  { w with shared := { w.shared with fd := Function.update w.shared.fd .server fd } }

end World

/-! ### Memory -/

/-- Every access to an object goes through here. -/
def touch (o : Obj) : Proc Unit := fun w =>
  if w.mem o = .live then .ok () w else .fault (.dangling o) w

def alloc (o : Obj) : Proc Unit := modify (·.setMem o .live)

def free (o : Obj) : Proc Unit := fun w =>
  if w.mem o = .live then .ok () (w.setMem o .freed) else .fault (.doubleFree o) w

def emit (a : Act) : Proc Unit := modify (·.emit a)

/-- `*shared`. -/
def sharedVal : Proc Shared := do
  touch .shared
  return (← get).shared

/-- `*data->shared`. -/
def dataShared (e : Side) : Proc Shared := do
  touch (.data e)
  sharedVal

/-- `data->self_fd`. -/
def dataSelfFd (e : Side) : Proc Int := do
  touch (.data e)
  return (← get).selfFd e

def modifyShared (f : Shared → Shared) : Proc Unit := do
  touch .shared
  modify fun w => { w with shared := f w.shared }

def setState (s : State) : Proc Unit := do
  touch .shared
  modify (·.setState s)

/-- `*info` through a local pointer. -/
def infoVal : Proc Info := do
  touch .info
  return (← get).info

def modifyInfo (f : Info → Info) : Proc Unit := do
  touch .info
  modify fun w => w.setInfo (f w.info)

def setRep (rep : UInt8) : Proc Unit := do
  touch .info
  modify (·.setRep rep)

/-- `*shared->info`. -/
def sharedInfo : Proc Info := do
  let shared ← sharedVal
  if shared.info then infoVal else throw .null

/-- `write_ringbuff` on an output buffer. -/
def writeOut (s : Side) (bytes : List UInt8) : Proc Nat := do
  let shared ← sharedVal
  touch (.buff s)
  modify (·.queue s bytes)
  return ((shared.out s).write bytes).2

/-- `peek_ringbuff` on an output buffer: the bytes copied. -/
def peekOut (s : Side) (n : Nat) : Proc (List UInt8) := do
  let shared ← sharedVal
  touch (.buff s)
  return (shared.out s).peek n

/-- `consume_ringbuff` on an output buffer. -/
def consumeOut (s : Side) (n : Nat) : Proc Unit := do
  touch .shared
  modify (·.drop s n)

/-- `log_access`: reads the connection's `Alog` and writes a record to the logger's
pipe, which nothing in the connection reads back. -/
def logAccess : Proc Unit := do
  touch .shared
  touch .access

/-! ### System calls -/

/-- `recv` of at most `n` bytes: `none` is -1, the empty list 0. -/
def recv (fd : Int) (n : Nat) : Proc (Option (List UInt8)) := fun w =>
  match w.fds fd, w.ans.recv with
  | some sk, some k =>
    if n = 0 then .ok (some []) w
    else match sk.inbox with
      | [] => if sk.fin then .ok (some []) (w.emit (.eof fd)) else .ok none w
      | b :: bs =>
        let bytes := (b :: bs).take (min n (max 1 k))
        .ok (some bytes)
          ((w.setFd fd (some { sk with inbox := (b :: bs).drop (min n (max 1 k)) })).emit
          (.recv fd bytes))
  | _, _ => .ok none w

/-- `send`: `none` is -1, otherwise the number of bytes taken. -/
def send (fd : Int) (bytes : List UInt8) : Proc (Option Nat) := fun w =>
  match w.fds fd, w.ans.send with
  | some _, some k =>
    .ok (some (min k bytes.length)) (w.emit (.sent fd (bytes.take (min k bytes.length))))
  | _, _ => .ok none (w.emit (.sendFailed fd))

/-- `epoll_ctl` with `EPOLL_CTL_ADD`: fails on a closed or registered descriptor. -/
def epollCtlAdd (fd : Int) (events : Events) (ptr : Option Side) : Proc Bool := fun w =>
  match w.fds fd with
  | some sk =>
    if sk.interest = none ∧ w.ans.epollAdd then .ok true (w.setInterest fd (some (events, ptr)))
    else .ok false w
  | none => .ok false w

/-- `epoll_ctl` with `EPOLL_CTL_MOD`: fails on an unregistered descriptor. -/
def epollCtlMod (fd : Int) (events : Events) (ptr : Option Side) : Proc Bool := fun w =>
  match w.fds fd with
  | some sk =>
    if sk.interest ≠ none ∧ w.modAnswer then
      .ok true (w.popMod.setInterest fd (some (events, ptr)))
    else .ok false w.popMod
  | none => .ok false w.popMod

/-- `epoll_ctl` with `EPOLL_CTL_DEL`, whose result the server ignores. -/
def epollCtlDel (fd : Int) : Proc Unit := modify (·.setInterest fd none)

/-- `close`, which also ends the epoll registration. -/
def closeFd (fd : Int) : Proc Unit := modify (·.setFd fd none)

/-- A descriptor the kernel hands out: one that is not open. -/
def World.newFd (w : World) (fd : Int) : Bool := decide (0 ≤ fd) && (w.fds fd).isNone

/-- `socket`, `none` being -1. -/
def socket : Proc (Option Int) := fun w =>
  match w.ans.socket with
  | some fd => if w.newFd fd then .ok (some fd) (w.setFd fd (some .opened)) else .ok none w
  | none => .ok none w

/-- What `socket` comes to. -/
def World.socketFd (w : World) : Option Int := w.ans.socket.filter w.newFd

/-- `accept` with the peer's address, `none` being -1. -/
def accept (lfd : Int) : Proc (Option (Int × SockAddr)) := fun w =>
  match w.fds lfd, w.ans.accept with
  | some _, some (fd, ss) =>
    if w.newFd fd then
      .ok (some (fd, ss)) ((w.setFd fd (some .opened)).emit (.accepted fd ss))
    else .ok none w
  | _, _ => .ok none w

/-- What `accept` comes to. -/
def World.accepts (w : World) (lfd : Int) : Option (Int × SockAddr) :=
  if (w.fds lfd).isSome then w.ans.accept.filter fun peer => w.newFd peer.1 else none

def fdNonblocking (fd : Int) : Proc Unit :=
  modify fun w => w.setFd fd ((w.fds fd).map fun sk => { sk with nonblock := true })

/-- `connect`: the errno, 0 when it returned 0. -/
def connect (fd : Int) (dst : SockAddr) : Proc Int := do
  emit (.connect fd dst)
  return (← get).ans.connectErrno

end Socksprox
