import Socksprox.Outcome.Handshake

/-!
What a request does to an open connection: `init_connect`, `init_bind` and `init_udpa`,
`init_command`, and `waitingcommand` with its two ways in, from the client's bytes and
from the resolver.
-/

namespace Socksprox

open Lib (wp wp_bind wp_pure wp_pure_eq wp_get wp_modify wp_throw wp_ite wp.mono)
open Lib.Exec (get modify throw)

/-! ### Success replies -/

/-- The octets of a success reply behind its head. -/
def ReplyAddr.octets (a : ReplyAddr) : List UInt8 := a.atyp :: (a.addr ++ a.port)

/-- IPv4 or IPv6. -/
def IpFamily (af : Nat) : Prop := af = afInet ∨ af = afInet6

theorem SockAddr.replyAddr_isSome {sa : SockAddr} {port : Octets 2} :
    (∃ a, sa.replyAddr port = some a) ↔ IpFamily sa.family := by
  cases sa with
  | inet p addr => simp [SockAddr.replyAddr, IpFamily, SockAddr.family]
  | inet6 p addr => simp [SockAddr.replyAddr, IpFamily, SockAddr.family]
  | other f data ne => simp [SockAddr.replyAddr, IpFamily, SockAddr.family, ne.1, ne.2]

theorem SockaddrLl.nodeReplyAddr_isSome {l : SockaddrLl} :
    (∃ a, l.nodeReplyAddr = some a) ↔ IpFamily l.sa.family := by
  cases hsa : l.sa with
  | inet p addr => simp [SockaddrLl.nodeReplyAddr, hsa, IpFamily, SockAddr.family]
  | inet6 p addr => simp [SockaddrLl.nodeReplyAddr, hsa, IpFamily, SockAddr.family]
  | other f data ne =>
    simp [SockaddrLl.nodeReplyAddr, hsa, IpFamily, SockAddr.family, ne.1, ne.2]

theorem firstOf_family {af : Nat} {l : List SockaddrLl} {a : SockaddrLl}
    (h : firstOf af l = some a) : a.sa.family = af := by
  simpa using List.find?_some h

namespace World

/-- Address type, address and port queued one after the other. -/
def queueAddr (w : World) (a : ReplyAddr) : World :=
  ((w.queue .client [a.atyp]).queue .client a.addr).queue .client a.port

def queueHead (w : World) (rep : UInt8) : World := w.queue .client [socks5Version, rep, socks5Resv]

end World

/-- What the end of a success reply comes to. -/
inductive FinishReply (w : World) : Option ReplyAddr → Bool → World → Prop where
  | skipped : FinishReply w none true w
  | sent {a : ReplyAddr} (hmod : w.modAnswer = true) :
      FinishReply w (some a) true (w.queueAddr a).watchSend
  | unwatched {a : ReplyAddr} (hmod : w.modAnswer = false) :
      FinishReply w (some a) false (w.queueAddr a).popMod

/-! ### CONNECT -/

/-- What an attempt to connect to an address comes to. -/
inductive OpenConnect (w : World) (dst : SockAddr) : Option Int → World → Prop where
  | noSocket (hno : w.socketFd = none) : OpenConnect w dst none (w.setRep repGenfail)
  | refused {fd : Int} (hans : w.ans.socket = some fd) (hpos : 0 ≤ fd) (hnew : w.fds fd = none)
      (herr : w.ans.connectErrno ≠ 0 ∧ w.ans.connectErrno ≠ eagain ∧
        w.ans.connectErrno ≠ einprogress) :
      OpenConnect w dst none (((w.opened fd true).emit (.connect fd dst)).setRep repGenfail)
  | started {fd : Int} (hans : w.ans.socket = some fd) (hpos : 0 ≤ fd) (hnew : w.fds fd = none)
      (hok : w.ans.connectErrno = 0 ∨ w.ans.connectErrno = eagain ∨
        w.ans.connectErrno = einprogress) :
      OpenConnect w dst (some fd) ((w.opened fd true).emit (.connect fd dst))

/-- What the first attempt comes to, for a literal address and for a resolved one. -/
inductive FirstAttempt (w : World) : Option Int → World → Prop where
  | unsupported {f : Nat} {data : Octets 14} {ne : f ≠ afInet ∧ f ≠ afInet6}
      (hsa : w.info.sa = some (.other f data ne)) : FirstAttempt w (some (-1)) w
  | literal {sa : SockAddr} {r : Option Int} {w' : World} (hsa : w.info.sa = some sa)
      (h : OpenConnect w sa r w') (hip : IpFamily sa.family) : FirstAttempt w r w'
  | resolvedFailed {ai : AddrInfo} {rest : List AddrInfo} {w' : World} (hsa : w.info.sa = none)
      (hai : w.info.ai = ai :: rest) (h : OpenConnect w ai.aiAddr none w') : FirstAttempt w none w'
  | resolved {ai : AddrInfo} {rest : List AddrInfo} {sfd : Int} {w' : World}
      (hsa : w.info.sa = none) (hai : w.info.ai = ai :: rest)
      (h : OpenConnect w ai.aiAddr (some sfd) w') :
      FirstAttempt w (some sfd) (w'.setInfo { w'.info with aiIndex := 0 })

/-- The server end set up around `sfd`; what is left of the handshake is thrown away. -/
@[simps! -fullyApplied] def World.connectStarted (w : World) (sfd : Int) : World :=
  (w.linkServer sfd).drop .server outbuffsize

/-- What `init_connect` comes to. -/
inductive InitConnect (w : World) : World → Prop where
  | noAddr (hai : w.info.ai = []) (hsa : w.info.sa = none) :
      InitConnect w ((w.emit (.invoked .connect)).setRep repGenfail)
  | notOpened {w' : World} (h : FirstAttempt (w.emit (.invoked .connect)) none w') :
      InitConnect w w'
  | noMemory {sfd : Int} {w' : World}
      (h : FirstAttempt (w.emit (.invoked .connect)) (some sfd) w')
      (hmalloc : w.ans.mallocData = false) : InitConnect w (w'.setRep repGenfail)
  | unwatched {sfd : Int} {w' : World}
      (h : FirstAttempt (w.emit (.invoked .connect)) (some sfd) w')
      (hmalloc : w.ans.mallocData = true)
      (hadd : ∀ sk, w'.fds sfd = some sk → sk.interest = none → w.ans.epollAdd = false) :
      InitConnect w ((w'.connectStarted sfd).setRep repGenfail)
  | connecting {sfd : Int} {w' : World}
      (h : FirstAttempt (w.emit (.invoked .connect)) (some sfd) w')
      (hmalloc : w.ans.mallocData = true) (hadd : w.ans.epollAdd = true)
      (hopen : w'.fds sfd ≠ none) :
      InitConnect w (((w'.connectStarted sfd).setInterest sfd
        (some (epollOut, some .server))).setState .connecting)

/-! ### BIND and UDP ASSOCIATE -/

/-- What the success reply to BIND and to UDP ASSOCIATE says. -/
inductive ListenReply (cfg : Configs) (w : World) : InitFn → Option ReplyAddr → Prop where
  | bind {advertise : SockaddrLl} {ss : SockAddr}
      (hadv : firstOf w.info.af cfg.bindAdvertise = some advertise)
      (hss : w.ans.getsockname = some ss) :
      ListenReply cfg w .bind (advertise.sa.replyAddr ss.port)
  | udpa {advertise : SockaddrLl}
      (hadv : firstOf w.info.af cfg.udpaAdvertise = some advertise) :
      ListenReply cfg w .udpa advertise.nodeReplyAddr

/-- The server end set up around `sfd` and the head of the success reply queued. -/
def World.listenStarted (w : World) (f : InitFn) (sfd : Int) : World :=
  ((((w.emit (.invoked f)).opened sfd (f == .bind)).linkServer sfd).setRep repSuccess).queueHead
    repSuccess

/-- `init_bind` and `init_udpa` get as far as the server end: both lists have an address of the
family, and the calls before that succeed. -/
def ListensOn (cfg : Configs) (w : World) : InitFn → Prop
  | .bind => (∃ a, firstOf w.info.af cfg.bindListen = some a) ∧
      (∃ a, firstOf w.info.af cfg.bindAdvertise = some a) ∧
      w.ans.bind = true ∧ w.ans.listen = true ∧ w.ans.mallocData = true
  | .udpa => (∃ a, firstOf w.info.af cfg.udpaListen = some a) ∧
      (∃ a, firstOf w.info.af cfg.udpaAdvertise = some a) ∧
      w.ans.bind = true ∧ w.ans.mallocData = true
  | .connect => False

/-- What `init_bind` and `init_udpa` come to. -/
inductive InitListen (cfg : Configs) (f : InitFn) (w : World) : World → Prop where
  | notOpened (hno : (w.info.sa = none ∧ w.info.ai = []) ∨ w.socketFd = none) :
      InitListen cfg f w ((w.emit (.invoked f)).setRep repGenfail)
  | failed {sfd : Int} {rep : UInt8} (haddr : w.info.sa ≠ none ∨ w.info.ai ≠ [])
      (hnew : w.fds sfd = none) (hrep : rep = repGenfail ∨ rep = repBadatyp)
      (hbad : ¬ ListensOn cfg w f) :
      InitListen cfg f w
        ((((w.emit (.invoked f)).opened sfd (f == .bind)).setRep rep).setFd sfd none)
  | unnamed {sfd : Int} (haddr : w.info.sa ≠ none ∨ w.info.ai ≠ []) (hnew : w.fds sfd = none)
      (hsock : w.socketFd = some sfd) (hready : ListensOn cfg w f) (hbind : f = .bind)
      (hname : w.ans.getsockname = none) :
      InitListen cfg f w
        (((((w.emit (.invoked f)).opened sfd (f == .bind)).linkServer sfd).setRep
          repGenfail).setFd sfd none)
  | unanswered {sfd : Int} {a : Option ReplyAddr} {w' : World}
      (haddr : w.info.sa ≠ none ∨ w.info.ai ≠ []) (hnew : w.fds sfd = none)
      (ha : ListenReply cfg w f a) (h : FinishReply (w.listenStarted f sfd) a false w')
      (hsock : w.socketFd = some sfd) (hready : ListensOn cfg w f) :
      InitListen cfg f w (w'.setRep repGenfail)
  | unlistened {sfd : Int} {a : Option ReplyAddr} {w' : World}
      (haddr : w.info.sa ≠ none ∨ w.info.ai ≠ []) (hnew : w.fds sfd = none)
      (ha : ListenReply cfg w f a) (h : FinishReply (w.listenStarted f sfd) a true w')
      (hsock : w.socketFd = some sfd) (hready : ListensOn cfg w f)
      (hadd : w.ans.epollAdd = false) :
      InitListen cfg f w (((w'.drop .server outbuffsize).setRep repGenfail).setState .sendingReply)
  | listening {sfd : Int} {a : Option ReplyAddr} {w' : World}
      (haddr : w.info.sa ≠ none ∨ w.info.ai ≠ []) (hnew : w.fds sfd = none)
      (ha : ListenReply cfg w f a) (h : FinishReply (w.listenStarted f sfd) a true w')
      (hans : w.ans.socket = some sfd) (hadd : w.ans.epollAdd = true)
      (hsock : w.socketFd = some sfd) (hready : ListensOn cfg w f) :
      InitListen cfg f w (((w'.drop .server outbuffsize).setInterest sfd
        (some (epollIn, some .server))).setState .sendingReply)

/-! ### `init_command` and its callers -/

/-- The command is one of the three and switched on. -/
def Configs.allows (cfg : Configs) (cmd : UInt8) : Bool :=
  (cmd == cmdConn && cfg.allowConnect) || (cmd == cmdBind && cfg.allowBind) ||
    (cmd == cmdUdpa && cfg.allowUdpassoc)

/-- What the command comes to when it is allowed. -/
inductive Init (cfg : Configs) (w : World) : World → Prop where
  | connect {w' : World} (hcmd : w.info.cmd = cmdConn) (hallow : cfg.allowConnect = true)
      (h : InitConnect w w') : Init cfg w w'
  | bind {w' : World} (hcmd : w.info.cmd = cmdBind) (hallow : cfg.allowBind = true)
      (h : InitListen cfg .bind w w') : Init cfg w w'
  | udpa {w' : World} (hcmd : w.info.cmd = cmdUdpa) (hallow : cfg.allowUdpassoc = true)
      (h : InitListen cfg .udpa w w') : Init cfg w w'

/-- What `init_command` comes to. -/
inductive InitCommand (cfg : Configs) (w : World) : World → Prop where
  | refused {w' : World} (hno : cfg.allows w.info.cmd = false)
      (h : ReplyWithErr (w.setRep repBadcomm) .client w') : InitCommand cfg w w'
  | started {w' : World} (h : Init cfg w w') : InitCommand cfg w w'

/-- What `init_command` and the reply of its caller come to. The caller looks at `info`
again, through the object `o`, which is gone when the reply to a refused command was lost;
when it was not, the caller replies a second time. -/
inductive CommandDone (cfg : Configs) (w : World) (o : Obj) :
    Option Fault → World → Prop where
  | refusedLost {w' : World} (hno : cfg.allows w.info.cmd = false)
      (h : ReplyLost (w.setRep repBadcomm) .client w') : CommandDone cfg w o (some (.dangling o)) w'
  | refused {w' : World} (hno : cfg.allows w.info.cmd = false)
      (hroom : 10 ≤ (w.shared.out .client).free) (hmod : w.modAnswer = true)
      (h : ReplyWithErr (w.setRep repBadcomm).errReplied .client w') : CommandDone cfg w o none w'
  | started {w' : World} (h : Init cfg w w')
      (hrep : w'.info.rep = repUnset ∨ w'.info.rep = repSuccess) : CommandDone cfg w o none w'
  | failed {w₁ w' : World} (h : Init cfg w w₁)
      (hrep : w₁.info.rep ≠ repUnset ∧ w₁.info.rep ≠ repSuccess)
      (hreply : ReplyWithErr w₁ .client w') :
      CommandDone cfg w o none w'

/-! ### The two ways into a request -/

/-- What the resolver's answer comes to. A failed resolution is answered at once, and the
command is started all the same. -/
inductive ResolverReturned (cfg : Configs) (w : World) : Option Fault → World → Prop where
  | lost {w' : World} (hret : w.info.resolverRet ≠ 0)
      (h : ReplyLost (w.setRep repGenfail) .client w') :
      ResolverReturned cfg w (some (.dangling (.data .client))) w'
  | failed {f : Option Fault} {w' : World} (hret : w.info.resolverRet ≠ 0)
      (hroom : 10 ≤ (w.shared.out .client).free) (hmod : w.modAnswer = true)
      (h : CommandDone cfg (w.setRep repGenfail).errReplied (.data .client) f w') :
      ResolverReturned cfg w f w'
  | resolved {f : Option Fault} {w' : World} (hret : w.info.resolverRet = 0)
      (h : CommandDone cfg w (.data .client) f w') : ResolverReturned cfg w f w'

namespace World

/-- The request to the resolver is in the pipe, or lost when the pipe is full. -/
@[simps -fullyApplied] def asked (w : World) : World :=
  { w with dns := if w.ans.pipeWrite then .requested else w.dns }

theorem asked_eq (w : World) :
    (if w.ans.pipeWrite then { w with dns := .requested } else w) = w.asked := by
  unfold asked
  split
  · rfl
  · rfl

/-- The address of a literal request stored. -/
@[simps! -fullyApplied] def addrStored (w : World) (req : List UInt8) : World :=
  (w.setMem .sa .live).setInfo { w.info with sa := some (reqAddr req) }

/-- Command and address type stored. -/
@[simps! -fullyApplied] def commandStored (w : World) (req : List UInt8) : World :=
  w.setInfo { w.info with cmd := reqAt req 1, atyp := reqAt req 3 }

end World

/-- What a complete request of the right version comes to. -/
inductive RunRequest (cfg : Configs) (w : World) (req : List UInt8) :
    Option Fault → World → Prop where
  | domain (hatyp : reqAt req 3 = atypDomn) :
      RunRequest cfg w req none ((((w.setState .asyncDns).setState .asyncDns).emit
        (.resolve ((List.range 296).map fun i => reqAt req (4 + i)))).asked)
  | noMemory (hatyp : reqAt req 3 ≠ atypDomn) (hmalloc : w.ans.mallocSa = false) :
      RunRequest cfg w req none w
  | dropped {w' : World} (hatyp : reqAt req 3 ≠ atypDomn)
      (hfirewall : firewall (w.addrStored req).info cfg = true)
      (h : ReplyWithErr (((w.addrStored req).emit (.firewall (w.addrStored req).info)).setRep
        repRuleset) .client w') (hmalloc : w.ans.mallocSa = true) : RunRequest cfg w req none w'
  | passed {f : Option Fault} {w' : World} (hatyp : reqAt req 3 ≠ atypDomn)
      (hfirewall : firewall (w.addrStored req).info cfg = false)
      (h : CommandDone cfg ((w.addrStored req).emit (.firewall (w.addrStored req).info)) .info
        f w') (hmalloc : w.ans.mallocSa = true) : RunRequest cfg w req f w'

/-- What the bytes in `server_out` come to in STATE_WAITING_COMMAND. -/
inductive CommandRequest (cfg : Configs) (w : World) (req : List UInt8) :
    Option Fault → World → Prop where
  | short (hlen : req.length < 5) : CommandRequest cfg w req none w
  | badAtyp {w' : World} (hlen : 5 ≤ req.length) (htotal : totalLen cfg req = none)
      (h : ReplyWithErr (w.setRep repBadatyp) .client w') : CommandRequest cfg w req none w'
  | part {total : Nat} (hlen : 5 ≤ req.length) (htotal : totalLen cfg req = some total)
      (hpart : req.length < total) : CommandRequest cfg w req none w
  | badVersion {total : Nat} (hlen : 5 ≤ req.length) (htotal : totalLen cfg req = some total)
      (hcomplete : total ≤ req.length) (hversion : reqAt req 0 ≠ socks5Version) :
      CommandRequest cfg w req none ((w.commandStored req).hungUp .client)
  | run {total : Nat} {f : Option Fault} {w' : World} (hlen : 5 ≤ req.length)
      (htotal : totalLen cfg req = some total) (hcomplete : total ≤ req.length)
      (hversion : reqAt req 0 = socks5Version)
      (h : RunRequest cfg (w.commandStored req) req f w') : CommandRequest cfg w req f w'

/-- What `waitingcommand` comes to. -/
inductive WaitingCommand (cfg : Configs) (w : World) (e : Side) (ev : Events) :
    Option Fault → World → Prop where
  | idle (hidle : ev.epollin = false ∨ e = .server) : WaitingCommand cfg w e ev none w
  | resolver {f : Option Fault} {w' : World} (hret : w.info.resolverRet ≠ -1)
      (h : ResolverReturned cfg w f w') : WaitingCommand cfg w e ev f w'
  | ended {r : Option (List UInt8)} {w₁ : World} (hret : w.info.resolverRet = -1)
      (hrecv : Recv w (w.shared.fd .client) (w.shared.out .server).free r w₁)
      (hr : r = none ∨ r = some []) : WaitingCommand cfg w e ev none (w₁.hungUp .client)
  | data {bytes got : List UInt8} {w₁ w' : World} {f : Option Fault}
      (hret : w.info.resolverRet = -1)
      (hrecv : Recv w (w.shared.fd .client) (w.shared.out .server).free (some bytes) w₁)
      (hgot : got = (w.shared.out .server).contents ++ bytes)
      (h : CommandRequest cfg (w₁.queue .server bytes) (got.take 300) f w') (hne : bytes ≠ []) :
      WaitingCommand cfg w e ev f w'

section Rules

variable {cfg : Configs} {E : Fault → World → Prop} {w : World} {e : Side} {ev : Events}

theorem wp_finishReply {a : Option ReplyAddr} {Q : Bool → World → Prop} (hw : Open w)
    (h : ∀ r w', FinishReply w a r w' → Q r w') : wp (finishReply a) Q E w := by
  cases a with
  | none => simpa [finishReply] using h _ _ .skipped
  | some a =>
    have hmods := And.intro (fun hmod => h _ _ (.sent (a := a) hmod))
      fun hmod => h _ _ (.unwatched (a := a) hmod)
    simpa [finishReply, writeReplyAddr, epWaitingSend, hw, World.queueAddr, World.watchSend]
      using hmods

theorem OpenConnect.open {dst : SockAddr} {r : Option Int} {w' : World} (hw : Open w)
    (h : OpenConnect w dst r w') : Open w' := by
  cases h with
  | noSocket => simpa using hw
  | refused hans hpos hnew => simpa using hw.opened hnew true
  | started hans hpos hnew => simpa using hw.opened hnew true

theorem OpenConnect.shared {dst : SockAddr} {r : Option Int} {w' : World}
    (h : OpenConnect w dst r w') : w'.shared = w.shared := by
  cases h <;> rfl

theorem OpenConnect.ne_client {dst : SockAddr} {sfd : Int} {w' : World} (hw : Open w)
    (h : OpenConnect w dst (some sfd) w') : sfd ≠ w.shared.fd .client := by
  cases h with
  | started hans hpos hnew => exact hw.ne_client hnew

theorem FirstAttempt.open {r : Option Int} {w' : World} (hw : Open w) (h : FirstAttempt w r w') :
    Open w' := by
  cases h with
  | unsupported hsa => exact hw
  | literal hsa ho => exact ho.open hw
  | resolvedFailed hsa hai ho => exact ho.open hw
  | resolved hsa hai ho => exact (ho.open hw).setInfo rfl rfl

theorem FirstAttempt.ne_client {sfd : Int} {w' : World} (hw : Open w)
    (h : FirstAttempt w (some sfd) w') : sfd ≠ w'.shared.fd .client := by
  cases h with
  | unsupported hsa =>
    have hpos := hw.fd_nonneg
    omega
  | literal hsa ho =>
    rw [ho.shared]
    exact ho.ne_client hw
  | resolved hsa hai ho =>
    rw [World.setInfo_shared, ho.shared]
    exact ho.ne_client hw

theorem FirstAttempt.ans {r : Option Int} {w' : World} (h : FirstAttempt w r w') :
    w'.ans = w.ans := by
  cases h with
  | unsupported hsa => rfl
  | literal hsa ho => cases ho <;> rfl
  | resolvedFailed hsa hai ho => cases ho <;> rfl
  | resolved hsa hai ho => cases ho; rfl

theorem wp_openConnect {dst : SockAddr} {Q : Option Int → World → Prop} (hw : Open w)
    (h : ∀ r w', OpenConnect w dst r w' → Q r w') : wp (openConnect dst) Q E w := by
  rw [openConnect, wp_bind]
  refine wp_socket (fun hno => ?_) fun fd hans hpos hnew => ?_
  · simpa [hw] using h _ _ (.noSocket hno)
  · have hne := hw.ne_client hnew
    have hopened : (w.setFd fd (some .opened)).setFd fd
        (((w.setFd fd (some .opened)).fds fd).map fun sk => { sk with nonblock := true }) =
        w.opened fd true := by
      simp [World.setFd, World.opened]
    simp only [wp_bind, wp_fdNonblocking, hopened, wp_connect, wp_ite, wp_pure]
    refine ⟨fun herr => ?_, fun hok => ?_⟩
    · simpa [hw] using h _ _ (.refused hans hpos hnew herr)
    · refine h _ _ (.started hans hpos hnew ?_)
      simp only [World.opened_ans] at hok
      tauto

theorem wp_firstAttempt {Q : Option Int → World → Prop} (hw : Open w)
    (hne : ¬ (w.info.ai = [] ∧ w.info.sa = none))
    (h : ∀ r w', FirstAttempt w r w' → Q r w') : wp (firstAttempt w.info) Q E w := by
  cases hsa : w.info.sa with
  | some sa =>
    cases sa with
    | other f data ne => simpa [firstAttempt, hsa] using h _ _ (.unsupported hsa)
    | inet port addr =>
      simpa [firstAttempt, hsa] using
        wp_openConnect hw fun r w' ho => h _ _ (.literal hsa ho (.inl rfl))
    | inet6 port addr =>
      simpa [firstAttempt, hsa] using
        wp_openConnect hw fun r w' ho => h _ _ (.literal hsa ho (.inr rfl))
  | none =>
    cases hai : w.info.ai with
    | nil => exact absurd ⟨hai, hsa⟩ hne
    | cons ai rest =>
      simp only [firstAttempt, hsa, hai, wp_bind]
      refine wp_openConnect hw fun r w' ho => ?_
      cases r with
      | none => simpa using h _ _ (.resolvedFailed hsa hai ho)
      | some sfd =>
        have hw' := ho.open hw
        simpa [hw'] using h _ _ (.resolved hsa hai ho)

theorem wp_initConnect {Q : Unit → World → Prop} (hw : Open w)
    (h : ∀ w', InitConnect w w' → Q () w') : wp initConnect Q E w := by
  have hw₀ : Open (w.emit (.invoked .connect)) := by simp [hw]
  rw [initConnect, wp_bind, wp_emit, wp_bind, wp_sharedInfo _ hw₀.shared hw₀.infoPtr hw₀.info,
    wp_ite]
  refine ⟨fun hnone => by simpa [hw] using h _ (.noAddr hnone.1 hnone.2), fun hsome => ?_⟩
  rw [wp_bind]
  refine wp_firstAttempt hw₀ hsome fun r w' hfirst => ?_
  have hw' := hfirst.open hw₀
  cases r with
  | none => simpa using h _ (.notOpened hfirst)
  | some sfd =>
    have hserver := hw'.linkServer (hfirst.ne_client hw₀)
    simp only [wp_bind, wp_get, wp_ite, hfirst.ans, World.emit_ans, Bool.not_eq_true']
    refine ⟨fun hno => by simpa [hw'] using h _ (.noMemory hfirst hno), fun hno => ?_⟩
    have hmalloc : w.ans.mallocData = true := by simpa using hno
    simp only [newServerData, wp_bind, wp_touch, wp_modify, wp_consumeOut, hw', Open.shared,
      hserver, epConnecting]
    refine wp_epollCtlAdd fun r w'' hadd => ?_
    cases hadd with
    | done hsk hi hans =>
      have hadd : w.ans.epollAdd = true := by simpa [hfirst.ans] using hans
      have hopen : w'.fds sfd ≠ none := by
        rw [show w'.fds sfd = some _ from hsk]
        simp
      simpa [hserver, World.connectStarted] using h _ (.connecting hfirst hmalloc hadd hopen)
    | failed hans =>
      have hadd : ∀ sk, w'.fds sfd = some sk → sk.interest = none → w.ans.epollAdd = false := by
        simpa [hfirst.ans] using hans
      simpa [hserver, World.connectStarted] using h _ (.unwatched hfirst hmalloc hadd)

theorem FinishReply.open {a : Option ReplyAddr} {r : Bool} {w' : World} (hw : Open w)
    (h : FinishReply w a r w') : Open w' := by
  cases h with
  | skipped => exact hw
  | sent hmod => simp [World.queueAddr, hw]
  | unwatched hmod => simp [World.queueAddr, hw]

theorem Open.listenStarted (hw : Open w) {f : InitFn} {sfd : Int} (hnew : w.fds sfd = none) :
    Open (w.listenStarted f sfd) := by
  have hw₀ : Open (w.emit (.invoked f)) := by simp [hw]
  have hopened := hw₀.opened hnew (f == .bind)
  have hlinked : Open (((w.emit (.invoked f)).opened sfd (f == .bind)).linkServer sfd) :=
    hopened.linkServer (hw.ne_client hnew)
  simpa [World.listenStarted, World.queueHead] using hlinked

theorem FinishReply.epollAdd {a : Option ReplyAddr} {r : Bool} {w' : World}
    (h : FinishReply w a r w') : w'.ans.epollAdd = w.ans.epollAdd := by
  cases h <;> simp [World.queueAddr]

/-- Only the client's registration is replaced. -/
theorem FinishReply.fds_self {a : Option ReplyAddr} {r : Bool} {w' : World} {fd : Int}
    (hne : fd ≠ w.shared.fd .client) (h : FinishReply w a r w') : w'.fds fd = w.fds fd := by
  cases h <;> simp [World.queueAddr, World.watchSend, hne]

theorem wp_answerListen {f : InitFn} {sfd : Int} {a : Option ReplyAddr} {Q : Unit → World → Prop}
    (hw : Open w) (haddr : w.info.sa ≠ none ∨ w.info.ai ≠ []) (hsock : w.socketFd = some sfd)
    (ha : ListenReply cfg w f a) (hready : ListensOn cfg w f)
    (h : ∀ w', InitListen cfg f w w' → Q () w') :
    wp (answerListen sfd a) Q E
      (((w.emit (.invoked f)).opened sfd (f == .bind)).linkServer sfd) := by
  obtain ⟨hans, -, hnew⟩ := World.socketFd_eq_some.mp hsock
  have hw₀ : Open (w.emit (.invoked f)) := by simp [hw]
  have hlinked := (hw₀.opened hnew (f == .bind)).linkServer (hw.ne_client hnew)
  have hstarted : Open (w.listenStarted f sfd) := hw.listenStarted hnew
  rw [answerListen, wp_bind, wp_setRep _ hlinked.info, writeReplyHead]
  simp only [wp_bind, wp_writeOut, wp_pure, hlinked, open_setRep, Open.shared, Open.buff]
  refine wp_finishReply hstarted fun r w' hr => ?_
  have hw' := hr.open hstarted
  cases r with
  | false => simpa [hw'] using h _ (.unanswered haddr hnew ha hr hsock hready)
  | true =>
    simp only [Bool.not_true, Bool.false_eq_true, if_false, wp_bind, wp_consumeOut, hw',
      Open.shared, epAddNewClient]
    refine wp_epollCtlAdd fun r w'' hadd => ?_
    have hepoll : w'.ans.epollAdd = w.ans.epollAdd := by
      simpa [World.listenStarted, World.queueHead] using hr.epollAdd
    cases hadd with
    | done hsk hi hadd =>
      have hadd' : w.ans.epollAdd = true := hepoll.symm.trans hadd
      simpa [hw'] using h _ (.listening haddr hnew ha hr hans hadd' hsock hready)
    | failed hadd =>
      have hsk : w'.fds sfd = some { Sock.opened with nonblock := f == .bind } := by
        rw [hr.fds_self (by simpa using hw.ne_client hnew)]
        simp
      have hadd' : w.ans.epollAdd = false := hepoll.symm.trans (hadd _ hsk rfl)
      simpa [hw'] using h _ (.unlistened haddr hnew ha hr hsock hready hadd')

theorem wp_initBind {Q : Unit → World → Prop} (hw : Open w)
    (h : ∀ w', InitListen cfg .bind w w' → Q () w') : wp (initBind cfg) Q E w := by
  have hw₀ : Open (w.emit (.invoked .bind)) := by simp [hw]
  rw [initBind, wp_bind, wp_emit, wp_bind, wp_sharedInfo _ hw₀.shared hw₀.infoPtr hw₀.info,
    wp_ite]
  refine ⟨fun hnone => by simpa [hw] using h _ (.notOpened (.inl hnone)), fun hnone => ?_⟩
  have haddr : w.info.sa ≠ none ∨ w.info.ai ≠ [] := not_and_or.mp hnone
  rw [wp_bind]
  refine wp_socket (fun hno => by simpa [hw] using h _ (.notOpened (.inr hno)))
    fun sfd hans hpos hnew => ?_
  have hsock : w.socketFd = some sfd := World.socketFd_eq_some.mpr ⟨hans, hpos, hnew⟩
  have hopened : Open ((w.emit (.invoked .bind)).opened sfd true) := hw₀.opened hnew true
  have hnonblock : ((w.emit (.invoked .bind)).setFd sfd (some .opened)).setFd sfd
      ((((w.emit (.invoked .bind)).setFd sfd (some .opened)).fds sfd).map
        fun sk => { sk with nonblock := true }) = (w.emit (.invoked .bind)).opened sfd true := by
    simp [World.setFd, World.opened]
  have hfail : ∀ rep, rep = repGenfail ∨ rep = repBadatyp → ¬ ListensOn cfg w .bind → Q ()
      ((((w.emit (.invoked .bind)).opened sfd true).setRep rep).setFd sfd none) :=
    fun rep hrep hbad => h _ (.failed haddr hnew hrep hbad)
  simp only [wp_bind, wp_fdNonblocking, hnonblock]
  split
  · rename_i listen advertise hlisten hadv
    have hlinked := hopened.linkServer (hw.ne_client hnew)
    simp only [wp_bind, wp_get, wp_ite, failClosing, wp_setRep, wp_closeFd, wp_pure, hopened,
      Open.info]
    have hbind : w.ans.bind = false → ¬ ListensOn cfg w .bind := fun hno hready => by
      simp [hready.2.2.1] at hno
    have hlisten' : w.ans.listen = false → ¬ ListensOn cfg w .bind := fun hno hready => by
      simp [hready.2.2.2.1] at hno
    have hmalloc : w.ans.mallocData = false → ¬ ListensOn cfg w .bind := fun hno hready => by
      simp [hready.2.2.2.2] at hno
    refine ⟨fun hno => hfail _ (.inl rfl) (hbind (by simpa using hno)), fun hb =>
      ⟨fun hno => hfail _ (.inl rfl) (hlisten' (by simpa using hno)), fun hl =>
        ⟨fun hno => hfail _ (.inl rfl) (hmalloc (by simpa using hno)), fun hm => ?_⟩⟩⟩
    have hready : ListensOn cfg w .bind :=
      ⟨⟨listen, hlisten⟩, ⟨advertise, hadv⟩, by simpa using hb, by simpa using hl,
        by simpa using hm⟩
    simp only [newServerData, wp_bind, wp_touch, wp_modify, hopened, Open.shared]
    split
    · rename_i hname
      simpa [hlinked] using h _ (.unnamed haddr hnew hsock hready rfl hname)
    · rename_i ss hss
      exact wp_answerListen hw haddr hsock (.bind hadv hss) hready h
  · rename_i hmissing
    have hbad : ¬ ListensOn cfg w .bind := by
      rintro ⟨⟨listen, hlisten⟩, ⟨advertise, hadv⟩, -⟩
      exact hmissing listen advertise hlisten hadv
    simpa [failClosing, hopened] using hfail _ (.inr rfl) hbad

theorem wp_initUdpa {Q : Unit → World → Prop} (hw : Open w)
    (h : ∀ w', InitListen cfg .udpa w w' → Q () w') : wp (initUdpa cfg) Q E w := by
  have hw₀ : Open (w.emit (.invoked .udpa)) := by simp [hw]
  rw [initUdpa, wp_bind, wp_emit, wp_bind, wp_sharedInfo _ hw₀.shared hw₀.infoPtr hw₀.info,
    wp_ite]
  refine ⟨fun hnone => by simpa [hw] using h _ (.notOpened (.inl hnone)), fun hnone => ?_⟩
  have haddr : w.info.sa ≠ none ∨ w.info.ai ≠ [] := not_and_or.mp hnone
  rw [wp_bind]
  refine wp_socket (fun hno => by simpa [hw] using h _ (.notOpened (.inr hno)))
    fun sfd hans hpos hnew => ?_
  have hsock : w.socketFd = some sfd := World.socketFd_eq_some.mpr ⟨hans, hpos, hnew⟩
  have hopened : Open ((w.emit (.invoked .udpa)).opened sfd false) := hw₀.opened hnew false
  have hblocking : (w.emit (.invoked .udpa)).setFd sfd (some .opened) =
      (w.emit (.invoked .udpa)).opened sfd false := rfl
  have hfail : ∀ rep, rep = repGenfail ∨ rep = repBadatyp → ¬ ListensOn cfg w .udpa → Q ()
      ((((w.emit (.invoked .udpa)).opened sfd false).setRep rep).setFd sfd none) :=
    fun rep hrep hbad => h _ (.failed haddr hnew hrep hbad)
  rw [hblocking]
  dsimp only
  split
  · rename_i listen advertise hlisten hadv
    simp only [wp_bind, wp_get, wp_ite, failClosing, wp_setRep, wp_closeFd, wp_pure, hopened,
      Open.info]
    have hbind : w.ans.bind = false → ¬ ListensOn cfg w .udpa := fun hno hready => by
      simp [hready.2.2.1] at hno
    have hmalloc : w.ans.mallocData = false → ¬ ListensOn cfg w .udpa := fun hno hready => by
      simp [hready.2.2.2] at hno
    refine ⟨fun hno => hfail _ (.inl rfl) (hbind (by simpa using hno)), fun hb =>
      ⟨fun hno => hfail _ (.inl rfl) (hmalloc (by simpa using hno)), fun hm => ?_⟩⟩
    have hready : ListensOn cfg w .udpa :=
      ⟨⟨listen, hlisten⟩, ⟨advertise, hadv⟩, by simpa using hb, by simpa using hm⟩
    simp only [newServerData, wp_bind, wp_touch, wp_modify, hopened, Open.shared]
    exact wp_answerListen hw haddr hsock (.udpa hadv) hready h
  · rename_i hmissing
    have hbad : ¬ ListensOn cfg w .udpa := by
      rintro ⟨⟨listen, hlisten⟩, ⟨advertise, hadv⟩, -⟩
      exact hmissing listen advertise hlisten hadv
    simpa [failClosing, hopened] using hfail _ (.inr rfl) hbad

theorem wp_initCommand {Q : Unit → World → Prop} (hw : Open w)
    (h : ∀ w', InitCommand cfg w w' → Q () w') : wp (initCommand cfg .client) Q E w := by
  have hd := hw.client
  have hrefused : cfg.allows w.info.cmd = false →
    wp (replyWithErr .client) Q E (w.setRep repBadcomm) :=
    fun hno => wp_replyWithErr (by simp [hw]) hd fun w' hr => h _ (.refused hno hr)
  have hbind' : cmdBind ≠ cmdConn := by decide
  have hudpa' : cmdUdpa ≠ cmdConn ∧ cmdUdpa ≠ cmdBind := by decide
  rw [initCommand, wp_bind, wp_touch _ hd, wp_bind, wp_sharedInfo _ hw.shared hw.infoPtr hw.info]
  by_cases hconn : w.info.cmd = cmdConn
  · cases hallow : cfg.allowConnect with
    | true =>
      simpa [hw, hconn, hallow] using
        wp_initConnect hw fun w' hi => h _ (.started (.connect hconn hallow hi))
    | false =>
      simpa [hw, hconn, hallow] using
        hrefused (by simp [Configs.allows, hconn, hallow, cmdConn, cmdBind, cmdUdpa])
  by_cases hbind : w.info.cmd = cmdBind
  · cases hallow : cfg.allowBind with
    | true =>
      simpa [hw, hbind, hbind', hallow] using
        wp_initBind hw fun w' hi => h _ (.started (.bind hbind hallow hi))
    | false =>
      simpa [hw, hbind, hbind', hallow] using
        hrefused (by simp [Configs.allows, hbind, hallow, cmdConn, cmdBind, cmdUdpa])
  by_cases hudpa : w.info.cmd = cmdUdpa
  · cases hallow : cfg.allowUdpassoc with
    | true =>
      simpa [hw, hudpa, hudpa', hallow] using
        wp_initUdpa hw fun w' hi => h _ (.started (.udpa hudpa hallow hi))
    | false =>
      simpa [hw, hudpa, hudpa', hallow] using
        hrefused (by simp [Configs.allows, hudpa, hallow, cmdConn, cmdBind, cmdUdpa])
  · simpa [hw, hconn, hbind, hudpa] using hrefused (by simp [Configs.allows, hconn, hbind, hudpa])

theorem InitConnect.open {w' : World} (hw : Open w) (h : InitConnect w w') : Open w' := by
  have hw₀ : Open (w.emit (.invoked .connect)) := by simp [hw]
  cases h with
  | noAddr hai hsa => simp [hw]
  | notOpened h => exact h.open hw₀
  | noMemory h hmalloc => simpa using h.open hw₀
  | unwatched h => simpa [World.connectStarted] using (h.open hw₀).linkServer (h.ne_client hw₀)
  | connecting h =>
    have hserver := (h.open hw₀).linkServer (h.ne_client hw₀)
    simp [World.connectStarted, hserver]

theorem InitListen.open {f : InitFn} {w' : World} (hw : Open w) (h : InitListen cfg f w w') :
    Open w' := by
  have hw₀ : Open (w.emit (.invoked f)) := by simp [hw]
  cases h with
  | notOpened => simp [hw]
  | @failed sfd rep haddr hnew hrep =>
    refine Open.setFd (open_setRep.mpr (hw₀.opened hnew (f == .bind))) ?_ _
    exact hw.ne_client hnew
  | unnamed haddr hnew =>
    have hlinked := (hw₀.opened hnew (f == .bind)).linkServer (hw.ne_client hnew)
    refine Open.setFd (open_setRep.mpr hlinked) ?_ _
    simpa using hw.ne_client hnew
  | unanswered haddr hnew ha h => simpa using h.open (hw.listenStarted hnew)
  | unlistened haddr hnew ha h => simpa using h.open (hw.listenStarted hnew)
  | listening haddr hnew ha h => simp [h.open (hw.listenStarted hnew)]

theorem Init.open {w' : World} (hw : Open w) (h : Init cfg w w') : Open w' := by
  cases h with
  | connect hcmd hallow h => exact h.open hw
  | bind hcmd hallow h => exact h.open hw
  | udpa hcmd hallow h => exact h.open hw

/-- `init_command` followed by its caller's look at `info` through `o`. -/
theorem wp_commandDone {o : Obj} {next : Proc Unit} {Q : Unit → World → Prop} (hw : Open w)
    (hgone : ∀ w', w'.mem (.data .client) = .freed → w'.mem .info = .freed →
      E (.dangling o) w' → wp next Q E w')
    (hnext : ∀ w', Open w' → wp (afterInit .client w'.info.rep) Q E w' → wp next Q E w')
    (h : ∀ f w', CommandDone cfg w o f w' → Ends Q E f w') :
    wp (initCommand cfg .client) (fun _ => wp next Q E) E w := by
  refine wp_initCommand hw fun w' hcmd => ?_
  cases hcmd with
  | refused hno hreply =>
    have hopen : Open (w.setRep repBadcomm) := by simp [hw]
    cases hreply with
    | lost hlost =>
      have hfreed := hlost.freed hopen
      exact hgone _ hfreed.1 hfreed.2 (h _ _ (.refusedLost hno hlost))
    | replied hroom hmod =>
      have hw' := open_errReplied hopen
      refine hnext _ hw' ?_
      have hrep : (w.setRep repBadcomm).errReplied.info.rep ≠ repUnset ∧
          (w.setRep repBadcomm).errReplied.info.rep ≠ repSuccess := by
        simp [World.errReplied]
        decide
      rw [afterInit, if_pos hrep]
      exact wp_replyWithErr hw' hw'.client fun w' hr => h _ _ (.refused hno hroom hmod hr)
  | started hinit =>
    have hw' := hinit.open hw
    refine hnext _ hw' ?_
    rw [afterInit, wp_ite, wp_pure]
    refine ⟨fun hrep => ?_, fun hrep => ?_⟩
    · exact wp_replyWithErr hw' hw'.client fun w' hr => h _ _ (.failed hinit hrep hr)
    · refine h _ _ (.started hinit ?_)
      tauto

theorem wp_resolverReturned {Q : Unit → World → Prop} (hw : Open w)
    (h : ∀ f w', ResolverReturned cfg w f w' → Ends Q E f w') :
    wp (resolverReturned cfg .client w.info.resolverRet) Q E w := by
  have hcommand : ∀ {w}, Open w →
      (∀ f w', CommandDone cfg w (.data .client) f w' → Ends Q E f w') →
      wp (initCommand cfg .client) (fun _ => wp (do
        touch (.data .client)
        let info ← sharedInfo
        afterInit .client info.rep) Q E) E w := by
    intro w hw h
    refine wp_commandDone hw (fun w' hd _ hE => ?_) (fun w' hw' hafter => ?_) h
    · rw [wp_bind, wp_touch_freed _ hd]
      exact hE
    · simpa [hw'] using hafter
  unfold resolverReturned
  by_cases hret : w.info.resolverRet = 0
  · rw [if_neg (not_not.mpr hret)]
    dsimp only
    rw [wp_bind]
    exact hcommand hw fun f w' hc => h _ _ (.resolved hret hc)
  · rw [if_pos hret, wp_bind, wp_setRep _ hw.info, wp_bind]
    have hset : Open (w.setRep repGenfail) := by simp [hw]
    refine wp_replyWithErr hset hset.client fun w' hreply => ?_
    cases hreply with
    | lost hlost =>
      have hfreed := hlost.freed hset
      simpa [initCommand, wp_touch_freed, hfreed] using h _ _ (.lost hret hlost)
    | replied hroom hmod =>
      rw [wp_bind]
      exact hcommand (open_errReplied hset) fun f w' hc => h _ _ (.failed hret hroom hmod hc)

theorem Open.addrStored (hw : Open w) (req : List UInt8) : Open (w.addrStored req) := by
  have hmem : ∀ o, w.mem o = .live → (w.addrStored req).mem o = .live := by
    intro o ho
    by_cases hsa : o = .sa <;> simp [hsa, ho]
  exact
    { fd_ne := hw.fd_ne
      self := by simpa using hw.self
      ptr := by simpa using hw.ptr
      shared := hmem _ hw.shared
      info := hmem _ hw.info
      infoPtr := hw.infoPtr
      buff := fun s => hmem _ (hw.buff s)
      outBuff := hw.outBuff
      capacity := hw.capacity
      access := hmem _ hw.access
      client := hmem _ hw.client
      sa := fun _ => by simp
      ai := fun h => hmem _ (hw.ai h)
      fd_nonneg := hw.fd_nonneg
      registered := hw.registered }

theorem wp_runRequest {req : List UInt8} {Q : Unit → World → Prop} (hw : Open w)
    (h : ∀ f w', RunRequest cfg w req f w' → Ends Q E f w') :
    wp (runRequest cfg .client req) Q E w := by
  unfold runRequest
  by_cases hatyp : reqAt req 3 = atypDomn
  · rw [if_pos hatyp]
    simpa [resolve, hw, World.asked_eq] using h _ _ (.domain hatyp)
  · rw [if_neg hatyp, wp_bind, wp_get]
    cases hmalloc : w.ans.mallocSa with
    | false => simpa using h _ _ (.noMemory hatyp hmalloc)
    | true =>
      have hstored := hw.addrStored req
      have halloc : (w.setMem .sa .live).mem .info = .live := by simp [hw]
      have hemit : Open ((w.addrStored req).emit (.firewall (w.addrStored req).info)) := by
        simp [hstored]
      have heq : (w.setMem .sa .live).setInfo
          { (w.setMem .sa .live).info with sa := some (reqAddr req) } = w.addrStored req := rfl
      simp only [Bool.not_true, Bool.false_eq_true, if_false, alloc, wp_bind, wp_modify,
        wp_modifyInfo _ halloc, heq, wp_infoVal _ hstored.info, wp_emit, wp_ite]
      refine ⟨fun hfw => ?_, fun hfw => ?_⟩
      · simp only [wp_bind, wp_logAccess, wp_setRep, wp_pure_eq, hemit, Open.shared, Open.access,
          Open.info]
        exact wp_replyWithErr (by simp [hstored]) hemit.client fun w' hr =>
          h _ _ (.dropped hatyp hfw hr hmalloc)
      · refine wp_commandDone hemit (fun w' _ hinfo hE => ?_) (fun w' hw' hafter => ?_)
          fun f w' hc => h _ _ (.passed hatyp (by simpa using hfw) hc hmalloc)
        · rw [wp_bind, infoVal, wp_bind, wp_touch_freed _ hinfo]
          exact hE
        · simpa [hw'] using hafter

theorem wp_commandRequest {got : List UInt8} {Q : Unit → World → Prop} (hw : Open w)
    (hgot : (w.shared.out .server).contents = got)
    (h : ∀ f w', CommandRequest cfg w (got.take 300) f w' → Ends Q E f w') :
    wp (commandRequest cfg .client) Q E w := by
  have hpeek : (w.shared.out .server).peek 300 = got.take 300 := by rw [Ring.peek, hgot]
  rw [commandRequest, wp_bind, wp_peekOut _ hw.shared (hw.buff _), hpeek, wp_ite, wp_pure]
  refine ⟨fun hlen => h _ _ (.short hlen), fun hlen => ?_⟩
  have hlen' : 5 ≤ (got.take 300).length := by omega
  cases htotal : totalLen cfg (got.take 300) with
  | none =>
    simp only [wp_bind, wp_setRep _ hw.info]
    exact wp_replyWithErr (by simp [hw]) hw.client fun w' hr => h _ _ (.badAtyp hlen' htotal hr)
  | some total =>
    simp only [wp_ite, wp_pure]
    refine ⟨fun hpart => h _ _ (.part hlen' htotal hpart), fun hpart => ?_⟩
    have hcomplete : total ≤ (got.take 300).length := by omega
    have hstored : Open (w.commandStored (got.take 300)) := hw.setInfo rfl rfl
    have hset : w.setInfo { w.info with
      cmd := reqAt (got.take 300) 1, atyp := reqAt (got.take 300) 3 } =
        w.commandStored (got.take 300) := rfl
    simp only [wp_bind, wp_sharedInfo _ hw.shared hw.infoPtr hw.info, wp_modifyInfo _ hw.info, hset,
      wp_ite]
    refine ⟨fun hversion => ?_, fun hversion => ?_⟩
    · have hne : reqAt (got.take 300) 0 ≠ socks5Version := by simpa [vercheck] using hversion
      simpa [hstored] using h _ _ (.badVersion hlen' htotal hcomplete hne)
    · have heq : reqAt (got.take 300) 0 = socks5Version := by simpa [vercheck] using hversion
      exact wp_runRequest hstored fun f w' hr => h _ _ (.run hlen' htotal hcomplete heq hr)

theorem wp_waitingCommand {Q : Unit → World → Prop} (hw : Open w) (hd : w.mem (.data e) = .live)
    (h : ∀ f w', WaitingCommand cfg w e ev f w' → Ends Q E f w') :
    wp (waitingCommand cfg e ev) Q E w := by
  rw [waitingCommand, wp_bind, wp_dataShared _ hd hw.shared, wp_bind, wp_dataSelfFd _ hd, wp_ite,
    hw.guard_client hd, wp_pure]
  refine ⟨fun hidle => h _ _ (.idle hidle), fun hgo => ?_⟩
  obtain rfl : e = .client := by
    cases e <;> simp_all
  rw [wp_bind, wp_sharedInfo _ hw.shared hw.infoPtr hw.info, wp_ite]
  refine ⟨fun hret => ?_, fun hret => ?_⟩
  · simpa using wp_resolverReturned hw fun f w' hr => h _ _ (.resolver hret hr)
  · have hret' : w.info.resolverRet = -1 := not_not.mp hret
    refine wp_receive hw (fun r w₁ hrecv hr => h _ _ (.ended hret' hrecv hr))
      fun bytes w₁ hrecv hne hw₁ hgot => ?_
    exact wp_commandRequest (by simp [hw₁]) hgot fun f w' hc => h _ _ (.data hret' hrecv rfl hc hne)

end Rules

end Socksprox
