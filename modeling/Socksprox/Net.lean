import Socksprox.EpollData

/-!
Opening the server side of a request and moving traffic (`src/net.c`).

The three `init` functions return 0 always; they report a failure in `info->rep`.
-/

namespace Socksprox

open Lib.Exec (get modify throw)

/-! ### Success replies

Every success reply is written piece by piece: version, code and reserved octet,
then address type, address and port. The results of the writes are ignored. -/

def writeReplyHead (rep : UInt8) : Proc Unit := do
  let _ ← writeOut .client [socks5Version, rep, socks5Resv]

/-- Address type, address and port of a success reply. -/
structure ReplyAddr where
  atyp : UInt8
  addr : List UInt8
  port : List UInt8

def writeReplyAddr (a : ReplyAddr) : Proc Unit := do
  let _ ← writeOut .client [a.atyp]
  let _ ← writeOut .client a.addr
  let _ ← writeOut .client a.port

/-- What a success reply says for an address, `none` where the code has no case for the
family. -/
def SockAddr.replyAddr (sa : SockAddr) (port : Octets 2) : Option ReplyAddr :=
  match sa with
  | .inet _ addr => some ⟨atypIpv4, addr.toList, port.toList⟩
  | .inet6 _ addr => some ⟨atypIpv6, addr.toList, port.toList⟩
  | .other .. => none

/-- The rest of a success reply, and the client watched for sending. Without an address
nothing is done, and nothing fails. -/
def finishReply (a : Option ReplyAddr) : Proc Bool :=
  match a with
  | none => pure true
  | some a => do
    writeReplyAddr a
    let shared ← sharedVal
    epWaitingSend (shared.fd .client) (shared.data .client)

/-- The `Data` object of the server side, linked into `Shared`. -/
def newServerData (sfd : Int) : Proc Unit := do
  touch .shared
  modify (·.linkServer sfd)

/-! ### CONNECT -/

/-- `socket`, `fd_nonblocking`, `connect`; `none` after a failure was noted. -/
def openConnect (dst : SockAddr) : Proc (Option Int) := do
  match ← socket with
  | none =>
    setRep repGenfail
    return none
  | some sfd =>
    fdNonblocking sfd
    let errno ← connect sfd dst
    if errno ≠ 0 ∧ errno ≠ eagain ∧ errno ≠ einprogress then
      setRep repGenfail
      return none
    return some sfd

/-- The first attempt: the literal address, or the first resolved one. A literal of
another family leaves the descriptor at -1. -/
def firstAttempt (info : Info) : Proc (Option Int) :=
  match info.sa, info.ai with
  | some (.other ..), _ => return some (-1)
  | some sa, _ => openConnect sa
  | none, ai :: _ => do
    match ← openConnect ai.aiAddr with
    | none => return none
    | some sfd =>
      modifyInfo fun i => { i with aiIndex := 0 }
      return some sfd
  | none, [] => return some (-1)

def initConnect : Proc Unit := do
  emit (.invoked .connect)
  let info ← sharedInfo
  if info.ai = [] ∧ info.sa = none then
    setRep repGenfail
    return
  match ← firstAttempt info with
  | none => return
  | some sfd =>
    if !(← get).ans.mallocData then
      setRep repGenfail
      return
    newServerData sfd
    consumeOut .server outbuffsize
    if !(← epConnecting sfd (some .server)) then
      setRep repGenfail
      return
    setState .connecting

/-! ### BIND and UDP ASSOCIATE -/

/-- The family of the literal address, or of the first resolved one. -/
def Info.af (info : Info) : Nat :=
  match info.sa, info.ai with
  | some sa, _ => sa.family
  | none, ai :: _ => ai.aiFamily
  | none, [] => 0

/-- First address of the family in a configured list. -/
def firstOf (af : Nat) (l : List SockaddrLl) : Option SockaddrLl :=
  l.find? fun a => a.sa.family = af

/-- `info->rep` set after the socket was closed. -/
def failClosing (sfd : Int) (rep : UInt8) : Proc Unit := do
  setRep rep
  closeFd sfd

/-- The success reply of both functions, and their socket registered. A failed
registration is noted, and the state is left all the same. -/
def answerListen (sfd : Int) (a : Option ReplyAddr) : Proc Unit := do
  setRep repSuccess
  writeReplyHead repSuccess
  if !(← finishReply a) then
    setRep repGenfail
    return
  consumeOut .server outbuffsize
  if !(← epAddNewClient sfd (some .server)) then
    setRep repGenfail
  setState .sendingReply

def initBind (cfg : Configs) : Proc Unit := do
  emit (.invoked .bind)
  let info ← sharedInfo
  if info.sa = none ∧ info.ai = [] then
    setRep repGenfail
    return
  match ← socket with
  | none => setRep repGenfail
  | some sfd =>
    fdNonblocking sfd
    match firstOf info.af cfg.bindListen, firstOf info.af cfg.bindAdvertise with
    | some _, some advertise =>
      let ans := (← get).ans
      if !ans.bind then
        failClosing sfd repGenfail
        return
      if !ans.listen then
        failClosing sfd repGenfail
        return
      if !ans.mallocData then
        failClosing sfd repGenfail
        return
      newServerData sfd
      match ans.getsockname with
      | none => failClosing sfd repGenfail
      | some ss => answerListen sfd (advertise.sa.replyAddr ss.port)
    | _, _ => failClosing sfd repBadatyp

/-- Octets of the list node itself, where the address was meant to be. -/
def SockaddrLl.nodeOctets (a : SockaddrLl) (n off : Nat) : List UInt8 :=
  ((List.ofFn a.node).drop off).take n

/-- What the reply to UDP ASSOCIATE says: the list node stands in for the address it
points to. -/
def SockaddrLl.nodeReplyAddr (a : SockaddrLl) : Option ReplyAddr :=
  match a.sa with
  | .inet .. => some ⟨atypIpv4, a.nodeOctets 4 4, a.nodeOctets 2 2⟩
  | .inet6 .. => some ⟨atypIpv6, a.nodeOctets 16 8, a.nodeOctets 2 2⟩
  | .other .. => none

def initUdpa (cfg : Configs) : Proc Unit := do
  emit (.invoked .udpa)
  let info ← sharedInfo
  if info.sa = none ∧ info.ai = [] then
    setRep repGenfail
    return
  match ← socket with
  | none => setRep repGenfail
  | some sfd =>
    match firstOf info.af cfg.udpaListen, firstOf info.af cfg.udpaAdvertise with
    | some _, some advertise =>
      let ans := (← get).ans
      if !ans.bind then
        failClosing sfd repGenfail
        return
      if !ans.mallocData then
        failClosing sfd repGenfail
        return
      newServerData sfd
      answerListen sfd advertise.nodeReplyAddr
    | _, _ => failClosing sfd repBadatyp

/-! ### Traffic -/

/-- The end whose descriptor `fd` is, the client's asked first. -/
def Shared.sideOf (sh : Shared) (fd : Int) : Option Side :=
  if fd = sh.fd .client then some .client
  else if fd = sh.fd .server then some .server
  else none

def Side.peer : Side → Side
  | .client => .server
  | .server => .client

def setFlag (s : Side) (flag : UInt8) : Proc Unit :=
  modifyShared fun sh => { sh with flags := Function.update sh.flags s (sh.flags s ||| flag) }

/-- `send_traffic`: -1 on a failed send, else the number of bytes still buffered. The
`shutdown` that follows a failure has no effect on anything the server does later. -/
def sendTraffic (fd : Int) : Proc Int := do
  let shared ← sharedVal
  match shared.sideOf fd with
  | none => return -1
  | some s =>
    let buffer ← peekOut s (shared.out s).used
    match ← send fd buffer with
    | none =>
      setFlag s flagWriteClosed
      return -1
    | some ret =>
      consumeOut s ret
      return ((← sharedVal).out s).used

/-- `read_traffic`: -1 at the end of the stream, else the number of bytes received.
The result of the write into the peer's buffer is ignored. -/
def readTraffic (fd : Int) : Proc Int := do
  let shared ← sharedVal
  match shared.sideOf fd with
  | none => return -1
  | some s =>
    match ← recv fd 1024 with
    | none | some [] =>
      setFlag s flagReadClosed
      setFlag s.peer flagFlushing
      return -1
    | some bytes =>
      let _ ← writeOut s.peer bytes
      return bytes.length

end Socksprox
