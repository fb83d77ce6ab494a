import Socksprox.Net
import Socksprox.Firewall

/-!
The state handlers of `src/socks.c`. Each takes the end `e` whose `Data` the event
carries. All of them return 0 to a caller that ignores it, except where a failed
`malloc` returns -1, so none of them returns a value here.
-/

namespace Socksprox

open Lib.Exec (get modify throw)

/-! ### Closing and error replies -/

def handshakeErr (e : Side) : Proc Unit := do
  touch (.data e)
  logAccess
  setState .closed
  let self ← dataSelfFd e
  epDeleteFd self
  closeFd self
  freeData e

/-- The ten octets of an error reply. -/
def errReply (rep : UInt8) : List UInt8 :=
  [socks5Version, rep, socks5Resv, atypIpv4, 0, 0, 0, 0, 0, 0]

/-- The code `reply_with_err` sends for `rep`. -/
def normRep (rep : UInt8) : UInt8 := if rep < 0x01 ∨ rep > 0x08 then repGenfail else rep

def replyWithErr (e : Side) : Proc Unit := do
  touch (.data e)
  let info ← sharedInfo
  setRep (normRep info.rep)
  let rep := errReply (normRep info.rep)
  if (← writeOut .client rep) ≠ rep.length then
    handshakeErr e
    return
  let shared ← dataShared e
  if !(← epWaitingSend (shared.fd .client) (shared.data .client)) then
    handshakeErr e
    return
  touch (.data e)
  setState .sendingReply

/-! ### Handshake -/

/-- The `methods` loop: the first offered octet whose table entry is 1. -/
def selectMethod (cfg : Configs) : List UInt8 → UInt8
  | [] => 0xFF
  | m :: ms => if cfg.methodAt m = 1 then m else selectMethod cfg ms

/-- The receive with which `waitingmethods` and `waitingcommand` begin: what arrived goes
behind what `server_out` holds already. -/
def receive (e : Side) (next : Proc Unit) : Proc Unit := do
  let shared ← dataShared e
  let self ← dataSelfFd e
  match ← recv self (shared.out .server).free with
  | none | some [] => handshakeErr e
  | some buffer =>
    if (← writeOut .server buffer) ≠ buffer.length then
      handshakeErr e
      return
    next

/-- `waitingmethods` from the point where the bytes received are in `server_out`. -/
def methodRequest (cfg : Configs) (e : Side) : Proc Unit := do
  let shared ← dataShared e
  if (shared.out .server).used < 2 then
    return
  let firstTwo ← peekOut .server 2
  let version := firstTwo.getD 0 0
  let nmethods := firstTwo.getD 1 0
  if (shared.out .server).used < 2 + nmethods.toNat then
    return
  consumeOut .server 2
  if vercheck version then
    logAccess
    handshakeErr e
    return
  let methods ← peekOut .server nmethods.toNat
  let selected := selectMethod cfg methods
  consumeOut .server methods.length
  let _ ← writeOut .client [socks5Version, selected]
  setState .sendingMethod
  let _ ← sharedInfo
  modifyInfo fun i => { i with method := selected }
  let self ← dataSelfFd e
  if !(← epWaitingSend self (some e)) then
    handshakeErr e

def waitingMethods (cfg : Configs) (e : Side) (ev : Events) : Proc Unit := do
  let shared ← dataShared e
  let self ← dataSelfFd e
  if !ev.epollin || decide (self ≠ shared.fd .client) then
    return
  receive e (methodRequest cfg e)

/-- The send with which `sendingmethod` and `sendingreply` begin: at most `n` bytes from
the front of `client_out`. When all of them went out, `next` follows. -/
def sendFront (e : Side) (n : Nat) (next : Proc Unit) : Proc Unit := do
  let self ← dataSelfFd e
  let reply ← peekOut .client n
  match ← send self reply with
  | none => handshakeErr e
  | some sent =>
    if sent < reply.length then
      consumeOut .client sent
      return
    consumeOut .client reply.length
    if !(← epDoneSending self (some e)) then
      handshakeErr e
      return
    next

/-- `sendingmethod` after the reply is out. -/
def methodSent (e : Side) : Proc Unit := do
  let info ← sharedInfo
  if info.method = methNoauth then
    logAccess
    setState .waitingCommand
  else if info.method = methUserpw ∨ info.method = methGssapi ∨ info.method = methNometh then
    logAccess
    handshakeErr e
  else
    handshakeErr e

def sendingMethod (e : Side) (ev : Events) : Proc Unit := do
  let shared ← dataShared e
  let self ← dataSelfFd e
  if !ev.epollout || decide (self ≠ shared.fd .client) then
    return
  sendFront e 2 (methodSent e)

/-! ### The request -/

def initCommand (cfg : Configs) (e : Side) : Proc Unit := do
  touch (.data e)
  let info ← sharedInfo
  if info.cmd = cmdConn then
    logAccess
    if !cfg.allowConnect then
      setRep repBadcomm
      replyWithErr e
      return
    initConnect
  else if info.cmd = cmdBind then
    logAccess
    if !cfg.allowBind then
      setRep repBadcomm
      replyWithErr e
      return
    initBind cfg
  else if info.cmd = cmdUdpa then
    logAccess
    if !cfg.allowUdpassoc then
      setRep repBadcomm
      replyWithErr e
      return
    initUdpa cfg
  else
    setRep repBadcomm
    replyWithErr e

/-- What the callers of `init_command` do with `info->rep` when it returns. -/
def afterInit (e : Side) (rep : UInt8) : Proc Unit := do
  if rep ≠ repUnset ∧ rep ≠ repSuccess then
    replyWithErr e

/-- The part of `waitingcommand` that the resolver's answer comes back to. -/
def resolverReturned (cfg : Configs) (e : Side) (resolverRet : Int) : Proc Unit := do
  if resolverRet ≠ 0 then
    setRep repGenfail
    replyWithErr e
  initCommand cfg e
  touch (.data e)
  let info ← sharedInfo
  afterInit e info.rep

/-- `resolve`: the request goes into the resolver's pipe, or is lost when the pipe
is full. -/
def resolve (input : List UInt8) : Proc Unit := do
  setState .asyncDns
  emit (.resolve input)
  modify fun w => if w.ans.pipeWrite then { w with dns := .requested } else w

/-- Octet `i` of the request copy `req[300]`, zero behind what was copied. -/
def reqAt (req : List UInt8) (i : Nat) : UInt8 := req.getD i 0

/-- The request's length as the source computes it, from the address type and, for a
domain name, the length octet; `none` answers with `REP_BADATYP`. -/
def totalLen (cfg : Configs) (req : List UInt8) : Option Nat :=
  if reqAt req 3 = atypIpv4 then some (6 + 4)
  else if reqAt req 3 = atypDomn then
    if cfg.allowDomains then some (6 + (reqAt req 4).toNat) else none
  else if reqAt req 3 = atypIpv6 then some (6 + 16)
  else none

/-- The address of a literal request. -/
def reqAddr (req : List UInt8) : SockAddr :=
  if reqAt req 3 = atypIpv4 then .inet (octetsAt 2 (reqAt req) 8) (octetsAt 4 (reqAt req) 4)
  else .inet6 (octetsAt 2 (reqAt req) 20) (octetsAt 16 (reqAt req) 4)

/-- From a complete request on: `switch(info->atyp)`, the firewall and the command. -/
def runRequest (cfg : Configs) (e : Side) (req : List UInt8) : Proc Unit := do
  if reqAt req 3 = atypDomn then
    touch (.data e)
    setState .asyncDns
    resolve ((List.range 296).map fun i => reqAt req (4 + i))
    return
  if !(← get).ans.mallocSa then
    return
  alloc .sa
  modifyInfo fun i => { i with sa := some (reqAddr req) }
  let info ← infoVal
  emit (.firewall info)
  if firewall info cfg then
    logAccess
    setRep repRuleset
    replyWithErr e
    return
  initCommand cfg e
  let info ← infoVal
  afterInit e info.rep

/-- `waitingcommand` from the point where the bytes received are in `server_out`. -/
def commandRequest (cfg : Configs) (e : Side) : Proc Unit := do
  let req ← peekOut .server 300
  if req.length < 5 then
    return
  match totalLen cfg req with
  | none =>
    setRep repBadatyp
    replyWithErr e
  | some total =>
    if req.length < total then
      return
    let _ ← sharedInfo
    modifyInfo fun i => { i with cmd := reqAt req 1, atyp := reqAt req 3 }
    if vercheck (reqAt req 0) then
      logAccess
      handshakeErr e
      return
    runRequest cfg e req

def waitingCommand (cfg : Configs) (e : Side) (ev : Events) : Proc Unit := do
  let shared ← dataShared e
  let self ← dataSelfFd e
  if !ev.epollin || decide (self ≠ shared.fd .client) then
    return
  let info ← sharedInfo
  if info.resolverRet ≠ -1 then
    resolverReturned cfg e info.resolverRet
    return
  receive e (commandRequest cfg e)

/-! ### Replies -/

/-- `sendingreply` after the reply is out. -/
def replySent (e : Side) : Proc Unit := do
  let shared ← dataShared e
  let info ← sharedInfo
  if info.rep ≠ repSuccess then
    handshakeErr e
    return
  if info.cmd = cmdConn then
    logAccess
    setState .full
  else if info.cmd = cmdBind then
    if shared.state = .sendingReply then
      setRep repUnset
      setState .bindListening
    else if shared.state = .sendingReply2 then
      logAccess
      setState .full
  else if info.cmd = cmdUdpa then
    setState .fullUdpa

def sendingReply (e : Side) (ev : Events) : Proc Unit := do
  let shared ← dataShared e
  let self ← dataSelfFd e
  if !ev.epollout || decide (self ≠ shared.fd .client) then
    return
  sendFront e 300 (replySent e)

/-! ### CONNECT in progress -/

def enetunreach : BitVec 32 := 101
def etimedout : BitVec 32 := 110
def econnrefused : BitVec 32 := 111
def ehostunreach : BitVec 32 := 113

/-- The reply code for an error of the connection attempt. -/
def connectRep (error : BitVec 32) : UInt8 :=
  if error &&& enetunreach ≠ 0 then repNunrech
  else if error &&& ehostunreach ≠ 0 then repHunrech
  else if error &&& etimedout ≠ 0 then repTtlexpr
  else if error &&& econnrefused ≠ 0 then repRefused
  else repGenfail

/-- The end of the success reply of a connected socket. -/
def connectedReply (e : Side) (a : ReplyAddr) : Proc Unit := do
  if !(← finishReply (some a)) then
    setRep repGenfail
    replyWithErr e
    return
  let self ← dataSelfFd e
  if !(← epDoneSending self (some e)) then
    setRep repGenfail
    replyWithErr e

/-- The next resolved address if there is one, else the error reply. -/
def connectFailed (e : Side) (error : BitVec 32) : Proc Unit := do
  let info ← infoVal
  if info.ai.length ≥ 2 then
    modifyInfo fun i => { i with aiIndex := i.aiIndex + 1 }
    match info.ai[info.aiIndex + 1]? with
    | some current =>
      let self ← dataSelfFd e
      let _ ← connect self current.aiAddr
      return
    | none => pure ()
  setRep (connectRep error)
  replyWithErr e

def connecting (e : Side) (ev : Events) : Proc Unit := do
  let shared ← dataShared e
  let self ← dataSelfFd e
  if !ev.epollout || decide (self ≠ shared.fd .server) then
    return
  match (← get).ans.soError with
  | none =>
    let _ ← sharedInfo
    setRep repGenfail
    replyWithErr e
  | some error =>
    let _ ← sharedInfo
    if error = 0 then
      setRep repSuccess
      match (← get).ans.getsockname with
      | none =>
        setRep repGenfail
        replyWithErr e
      | some ss =>
        touch .access
        modify (·.noted ss)
        writeReplyHead repSuccess
        setState .sendingReply
        match ss.replyAddr ss.port with
        | some a => connectedReply e a
        | none => connectFailed e error
    else
      connectFailed e error

/-! ### BIND waiting for its peer -/

/-- The first peer is not the one the request named. -/
def peerDiffers (req ss : SockAddr) : Bool :=
  match req, ss with
  | .inet port addr, .inet port' addr' => decide (port' ≠ port ∨ addr' ≠ addr)
  | .inet6 port addr, .inet6 port' addr' => decide (port' ≠ port ∨ addr' ≠ addr)
  | req, ss => decide (req.family ≠ ss.family)

/-- The address the peer is compared with. -/
def Info.reqAddr (info : Info) : Option SockAddr :=
  match info.sa, info.ai with
  | some sa, _ => some sa
  | none, ai :: _ => some ai.aiAddr
  | none, [] => none

def bindListening (e : Side) (ev : Events) : Proc Unit := do
  let shared ← dataShared e
  let self ← dataSelfFd e
  if !ev.epollin || decide (self ≠ shared.fd .server) then
    return
  let info ← sharedInfo
  match ← accept self with
  | none =>
    setRep repGenfail
    replyWithErr e
  | some (newFd, ss) =>
    touch .access
    modify (·.noted ss)
    match info.reqAddr with
    | none =>
      setRep repGenfail
      replyWithErr e
    | some req =>
      if peerDiffers req ss then
        setRep repRuleset
        replyWithErr e
        return
      closeFd self
      epDeleteFd self
      touch (.data e)
      modify (·.setSelf e newFd)
      touch .shared
      modify (·.setServerFd newFd)
      if !(← epAddNewClient newFd (some e)) then
        setRep repGenfail
        replyWithErr e
        return
      setRep repSuccess
      writeReplyHead repSuccess
      if (ss.replyAddr ss.port).isNone then
        setRep repGenfail
        replyWithErr e
        return
      if !(← finishReply (ss.replyAddr ss.port)) then
        setRep repGenfail
        replyWithErr e
        return
      touch (.data e)
      setState .sendingReply2

/-! ### Relay and teardown -/

def closed (e : Side) : Proc Unit := do
  let self ← dataSelfFd e
  closeFd self
  epDeleteFd self
  freeData e

def halfClose (e : Side) : Proc Unit := do
  touch (.data e)
  setState .closed

def full (e : Side) (ev : Events) : Proc Unit := do
  if ev.epollout then
    let self ← dataSelfFd e
    let ret ← sendTraffic self
    if ret = -1 then
      setState .halfClose
    if ret = 0 then
      if !(← epDoneSending self (some e)) then
        setState .closed
    return
  if ev.epollin then
    let self ← dataSelfFd e
    let ret ← readTraffic self
    if ret = -1 then
      setState .halfClose
    let shared ← dataShared e
    let peer : Side := if self = shared.fd .client then .server else .client
    let _ ← epWaitingSend (shared.fd peer) (shared.data peer)

/-- `full_udpa` does nothing. -/
def fullUdpa : Proc Unit := pure ()

/-- `socks5`: the handler of the connection's state. -/
def socks5 (cfg : Configs) (e : Side) (ev : Events) : Proc Unit := do
  let shared ← dataShared e
  match shared.state with
  | .noState => pure ()
  | .waitingMethods => waitingMethods cfg e ev
  | .sendingMethod => sendingMethod e ev
  | .authenticating => pure ()
  | .waitingCommand => waitingCommand cfg e ev
  | .asyncDns => pure ()
  | .sendingReply => sendingReply e ev
  | .sendingReply2 => sendingReply e ev
  | .connecting => connecting e ev
  | .bindListening => bindListening e ev
  | .full => full e ev
  | .fullUdpa => fullUdpa
  | .halfClose => halfClose e
  | .closed => closed e

end Socksprox
