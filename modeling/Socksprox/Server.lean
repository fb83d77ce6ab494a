import Socksprox.Socks

/-!
The event loop around one connection (`src/socksprox.c`, `src/resolver.c`).

An `Input` is something that happens to the connection: bytes or an end of stream
arrive at one of its descriptors, the resolver thread finishes its lookup,
`epoll_wait` returns a batch, or the loop handles the next event of the batch it
has, with the kernel's answers to the calls made meanwhile. Events and resolver
answers of other connections do not touch this one.
-/

namespace Socksprox

open Lib (run)
open Lib.Exec (get modify throw)

/-! ### A new connection -/

/-- A buffer of `OUTBUFFSIZE` bytes, as `malloc` returns it. -/
structure OutBuff where
  buff : CBuff
  size_eq : buff.size = outbuffsize

/-- A buffer that holds zeros. -/
def OutBuff.zero : OutBuff := ⟨⟨outbuffsize, fun _ => 0, by decide⟩, rfl⟩

def OutBuff.ring (b : OutBuff) : Ring := Ring.fresh b.buff (by rw [b.size_eq]; decide)

/-- A new client's connection on descriptor `fd`. -/
def newClient (fd : Int) (ss : SockAddr) (bufs : Side → OutBuff) : World :=
  { shared :=
      { state := .waitingMethods
        fd := fun s => match s with | .client => fd | .server => -1
        out := fun s => (bufs s).ring
        outBuff := fun _ => true
        data := fun s => match s with | .client => some .client | .server => none
        flags := fun _ => 0
        info := true }
    selfFd := fun _ => fd
    info := .fresh
    access := fun s => match s with | .client => some ss | .server => none
    mem := fun o => match o with
      | .data .server | .sa | .ai => .unallocated
      | _ => .live
    fds := fun d => if d = fd then
        some { Sock.opened with nonblock := true, interest := some (epollIn, some .client) }
      else none
    ans := .idle
    dns := .idle
    pending := []
    trace := [.state .waitingMethods] }

/-- `accept_new_client`, where `accept` returned `fd`. When it failed, or an allocation or
`epoll_ctl` does, everything is released again. -/
def acceptNewClient (fd : Int) (ss : SockAddr) (bufs : Side → OutBuff) (mallocs epollAdd : Bool) :
    Option World :=
  if decide (0 ≤ fd) && mallocs && epollAdd then some (newClient fd ss bufs) else none

/-! ### The resolver -/

namespace World

/-- The list stored by the resolver thread, and its answer in the pipe. -/
@[simps -fullyApplied] def answered (w : World) (gaiRet : Int) (ai : List AddrInfo) : World :=
  { w with
    info := { w.info with ai := ai }
    mem := if ai = [] then w.mem else Function.update w.mem .ai .live
    dns := .answered gaiRet }

/-- The answer taken out of the pipe: the request goes on where it stopped. -/
@[simps -fullyApplied] def resumed (w : World) (gaiRet : Int) : World :=
  { w with
    shared := { w.shared with state := .waitingCommand }
    info := { w.info with resolverRet := gaiRet }
    dns := .idle
    trace := w.trace ++ [.state .waitingCommand] }

/-- The next event of the batch is taken up, with the kernel's answers. -/
@[simps -fullyApplied] def taken (w : World) (rest : List Event) (ans : Answers) : World :=
  { w with pending := rest, ans := ans }

@[simps -fullyApplied] def polled (w : World) (batch : List Event) : World :=
  { w with pending := batch }

end World

/-- The resolver thread after its lookup: it stores the list and answers through the
pipe. `getaddrinfo` stores a list only when it returns 0. -/
def resolverTh (gaiRet : Int) (res : List AddrInfo) : Proc Unit := do
  if (← get).dns = .requested then
    let _ ← sharedInfo
    modify (·.answered gaiRet (if gaiRet = 0 then res else []))

/-- `resolve_ret`. Without an answer for this connection in the pipe it reads none,
or another connection's. -/
def resolveRet (cfg : Configs) : Proc Unit := do
  match (← get).dns with
  | .answered gaiRet =>
    let _ ← sharedInfo
    modify (·.resumed gaiRet)
    let shared ← sharedVal
    match shared.data .client with
    | some e => socks5 cfg e epollIn
    | none => throw .null
  | _ => pure ()

/-! ### The loop -/

/-- One turn of the loop over a batch. -/
def dispatch (cfg : Configs) : Event → Proc Unit
  | .peer _ none _ => pure ()
  | .peer _ (some e) ev => do
    touch (.data e)
    if ev.epollin || ev.epollout then
      socks5 cfg e ev
  | .resolver => resolveRet cfg

inductive Input where
  | arrive (fd : Int) (bytes : List UInt8)
  | finish (fd : Int)
  | resolved (gaiRet : Int) (res : List AddrInfo)
  | poll (batch : List Event)
  | handle (ans : Answers)

/-- The event can be in a batch: its descriptor is registered with that pointer for at
least those events. -/
def World.reports (w : World) : Event → Prop
  | .peer fd ptr ev => ∃ sk interest, w.fds fd = some sk ∧ sk.interest = some (interest, ptr) ∧
      (ev.epollin → interest.epollin) ∧ (ev.epollout → interest.epollout)
  | .resolver => True

/-- The descriptor an event is for. -/
def Event.fd? : Event → Option Int
  | .peer fd _ _ => some fd
  | .resolver => none

/-- What `epoll_wait` may return: each event is due, and no descriptor occurs twice. -/
def World.LegalBatch (w : World) (batch : List Event) : Prop :=
  (∀ ev ∈ batch, w.reports ev) ∧ (batch.filterMap Event.fd?).Nodup

instance (w : World) : DecidablePred w.reports := fun ev =>
  match ev with
  | .resolver => .isTrue trivial
  | .peer fd ptr ev => match h : w.fds fd with
    | none => .isFalse (by rintro ⟨sk, _, hsk, _⟩; rw [h] at hsk; cases hsk)
    | some sk => match hi : sk.interest with
      | none => .isFalse (by
          rintro ⟨sk', _, hsk, hint, _⟩
          rw [h] at hsk
          cases hsk
          rw [hi] at hint
          cases hint)
      | some (interest, ptr') =>
        if hok : ptr' = ptr ∧ (ev.epollin → interest.epollin) ∧
          (ev.epollout → interest.epollout) then
          .isTrue ⟨sk, interest, h, hok.1 ▸ hi, hok.2⟩
        else .isFalse (by
          rintro ⟨sk', i', hsk, hint, hev⟩
          rw [h] at hsk
          cases hsk
          rw [hi] at hint
          cases hint
          exact hok ⟨rfl, hev⟩)

instance (w : World) (batch : List Event) : Decidable (w.LegalBatch batch) :=
  inferInstanceAs (Decidable (_ ∧ _))

/-- Bytes arrive at an open descriptor whose peer is still sending. -/
def World.arrived (w : World) (fd : Int) (bytes : List UInt8) : World :=
  match w.fds fd with
  | some sk => if sk.fin then w else w.setFd fd (some { sk with inbox := sk.inbox ++ bytes })
  | none => w

def World.finished (w : World) (fd : Int) : World :=
  w.setFd fd ((w.fds fd).map fun sk => { sk with fin := true })

/-- One input. A batch that `epoll_wait` cannot return is no input. -/
def step (cfg : Configs) : Input → Proc Unit
  | .arrive fd bytes => modify (·.arrived fd bytes)
  | .finish fd => modify (·.finished fd)
  | .resolved gaiRet res => resolverTh gaiRet res
  | .poll batch => modify fun w =>
      if w.pending = [] ∧ w.LegalBatch batch then w.polled batch else w
  | .handle ans => do
    match (← get).pending with
    | [] => pure ()
    | ev :: rest =>
      modify (·.taken rest ans)
      dispatch cfg ev

/-! ### Usual inputs -/

/-- The client sends `bytes`, and the server handles them at once. -/
def clientSends (fd : Int) (bytes : List UInt8) (ans : Answers) : List Input :=
  [.arrive fd bytes, .poll [.peer fd (some .client) epollIn],
    .handle { ans with recv := some bytes.length }]

/-- The client takes what is sent to it. -/
def clientTakes (fd : Int) (ans : Answers) : List Input :=
  [.poll [.peer fd (some .client) epollOut], .handle { ans with send := some outbuffsize }]

/-- The negotiation of no authentication. -/
def greeting (fd : Int) : List Input :=
  clientSends fd [socks5Version, 1, methNoauth] .idle ++ clientTakes fd .idle

end Socksprox
