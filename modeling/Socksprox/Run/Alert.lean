import Socksprox.Run.Wakeup

/-!
What epoll watches before the relay. Each state of the handshake waits for one kind of event of one
end. A state whose event epoll does not watch for would wait for ever, so that the client hangs
without an answer.

No call of `epoll_ctl` is taken to succeed here: where one fails the request is answered with an
error or the connection is closed.
-/

namespace Socksprox

/-! ### What the states wait for -/

/-- The end whose event a state of the handshake waits for, and the event. -/
def State.awaits : State → Option (Side × Events)
  | .waitingMethods | .waitingCommand => some (.client, epollIn)
  | .sendingMethod | .sendingReply | .sendingReply2 => some (.client, epollOut)
  | .connecting => some (.server, epollOut)
  | .bindListening => some (.server, epollIn)
  | _ => none

/-- The events are among others. -/
def Events.within (ev evs : Events) : Bool :=
  (!ev.epollin || evs.epollin) && (!ev.epollout || evs.epollout)

/-- The descriptor of an end is open, and epoll watches it for these events and gives the `Data` of
the end back. -/
def World.Watches (w : World) (s : Side) (ev : Events) : Prop :=
  ∃ evs, w.interest s = some (evs, some s) ∧ ev.within evs = true

/-- The client is watched for sending as well as for receiving. -/
def World.Replies (w : World) : Prop := w.interest .client = some (epollInOut, some .client)

/-- The states that wait for something in the handshake, and what is watched in them. With a success
reply on its way the server is watched already. -/
structure Alert (w : World) : Prop where
  quiet : w.shared.state.quiet = true → w.Receiving .client
  sending : w.shared.state.sending = true → w.Replies
  success : w.shared.state.replying = true → w.info.rep = repSuccess →
    w.Receiving .server ∧ (w.info.cmd = cmdConn ∨ w.info.cmd = cmdBind ∨ w.info.cmd = cmdUdpa)
  connecting : w.shared.state = .connecting → w.interest .server = some (epollOut, some .server)
  listening : w.shared.state = .bindListening → w.Receiving .server

/-- What is awaited is watched. -/
theorem Alert.watches {w : World} (h : Alert w) {s : Side} {ev : Events}
    (hawaits : w.shared.state.awaits = some (s, ev)) : w.Watches s ev := by
  have hreceiving : ∀ {s : Side}, w.Receiving s → w.Watches s epollIn := fun h =>
    ⟨epollIn, h, rfl⟩
  have hreplies : w.Replies → w.Watches .client epollOut := fun h =>
    ⟨epollInOut, h, rfl⟩
  cases hstate : w.shared.state <;> rw [hstate] at hawaits <;> cases hawaits
  · exact hreceiving (h.quiet (by simp [hstate]))
  · exact hreplies (h.sending (by simp [hstate, State.sending]))
  · exact hreceiving (h.quiet (by simp [hstate]))
  · exact hreplies (h.sending (by simp [hstate, State.sending]))
  · exact hreplies (h.sending (by simp [hstate, State.sending]))
  · exact ⟨epollOut, h.connecting hstate, rfl⟩
  · exact hreceiving (h.listening hstate)

/-! ### Handlers -/

section Handlers

variable {cfg : Configs} {w w' : World} {e : Side} {ev : Events} {f : Option Fault}

/-- The request is awaited or being looked up. -/
theorem Alert.of_early (hs : w.shared.state = .waitingMethods ∨ w.shared.state = .waitingCommand ∨
    w.shared.state = .asyncDns) (hclient : w.Receiving .client) : Alert w := by
  rcases hs with hs | hs | hs <;> constructor <;> simp [hs, State.sending, hclient]

theorem Alert.of_method (hs : w.shared.state = .sendingMethod) (hclient : w.Replies) : Alert w := by
  constructor <;> simp [hs, hclient]

/-- An error reply is on its way. -/
theorem Alert.of_failing (hs : w.shared.state = .sendingReply) (hrep : w.info.rep ≠ repSuccess)
    (hclient : w.Replies) : Alert w := by
  constructor <;> simp [hs, hrep, hclient]

/-- A success reply is on its way. -/
theorem Alert.of_success (hs : w.shared.state.replying = true) (hclient : w.Replies)
    (hserver : w.Receiving .server)
    (hcmd : w.info.cmd = cmdConn ∨ w.info.cmd = cmdBind ∨ w.info.cmd = cmdUdpa) : Alert w where
  quiet := fun hquiet => by cases hst : w.shared.state <;> simp_all
  sending := fun _ => hclient
  success := fun _ _ => ⟨hserver, hcmd⟩
  connecting := fun hconn => by simp [hconn] at hs
  listening := fun hlisten => by simp [hlisten] at hs

theorem Alert.of_connecting (hs : w.shared.state = .connecting) (hclient : w.Receiving .client)
    (hserver : w.interest .server = some (epollOut, some .server)) : Alert w := by
  constructor <;> simp [hs, State.sending, hclient, hserver]

theorem Alert.of_listening (hs : w.shared.state = .bindListening) (hclient : w.Receiving .client)
    (hserver : w.Receiving .server) : Alert w := by
  constructor <;> simp [hs, State.sending, hclient, hserver]

/-- The handshake is over. -/
theorem Alert.of_over (hs : w.shared.state = .full ∨ w.shared.state = .fullUdpa ∨
    w.shared.state = .halfClose ∨ w.shared.state = .closed) : Alert w := by
  rcases hs with hs | hs | hs | hs <;> constructor <;> simp [hs, State.sending]

theorem Alert.congr (h : Alert w) (hstate : w'.shared.state = w.shared.state)
    (hrep : w'.info.rep = w.info.rep) (hcmd : w'.info.cmd = w.info.cmd)
    (hinterest : ∀ s, w'.interest s = w.interest s) : Alert w' where
  quiet := fun hs => (h.quiet (hstate ▸ hs)).congr (hinterest _)
  sending := fun hs => (hinterest _).trans (h.sending (hstate ▸ hs))
  success := fun hs hsuccess => by
    rw [hcmd]
    exact (h.success (hstate ▸ hs) (hrep ▸ hsuccess)).imp_left fun h => h.congr (hinterest _)
  connecting := fun hs => (hinterest _).trans (h.connecting (hstate ▸ hs))
  listening := fun hs => (h.listening (hstate ▸ hs)).congr (hinterest _)

theorem Open.watchSend_client (hw : Open w) : w.watchSend.Replies := by
  have h : w.watchSend = w.popMod.setInterest (w.popMod.selfFd .client)
      (some (epollInOut, some .client)) := by
    rw [World.watchSend, hw.data_client, ← hw.self_client]
    rfl
  rw [World.Replies, h]
  exact World.interest_watched _ hw.client_fds

theorem Open.queueAddr (hw : Open w) (a : ReplyAddr) : Open (w.queueAddr a) := by
  simpa [World.queueAddr] using hw

theorem ReplyWithErr.alert (hw : Open w) (h : ReplyWithErr w e w') (hopen : Open w') :
    Alert w' := by
  cases h with
  | replied hroom hmod =>
    have hqueued : Open ((w.setRep (normRep w.info.rep)).queue .client
        (errReply (normRep w.info.rep))) := by simpa using hw
    refine .of_failing rfl ?_ hqueued.watchSend_client
    rw [show w.errReplied.info.rep = normRep w.info.rep by simp [World.errReplied]]
    exact normRep_ne_success _
  | lost h =>
    cases h with
    | noRoom hroom => exact absurd hopen (not_open_hungUp _ _)
    | unwatched hroom hmod => exact absurd hopen (not_open_hungUp _ _)

/-! ### The request -/

theorem InitConnect.alert (hw : Open w) (hclient : w.Receiving .client) (h : InitConnect w w')
    (hrep : w'.info.rep = repUnset ∨ w'.info.rep = repSuccess) : Alert w' := by
  have hkept := hclient.congr (h.client_interest hw)
  have hfailed : w'.info.rep ≠ repGenfail := by
    rcases hrep with hrep | hrep <;> rw [hrep] <;> decide
  cases h with
  | noAddr hai hsa => exact absurd rfl hfailed
  | notOpened h => exact absurd h.rep hfailed
  | noMemory h hmalloc => exact absurd rfl hfailed
  | unwatched h hmalloc hadd => exact absurd rfl hfailed
  | @connecting sfd w₁ h hmalloc hadd hopen =>
    refine .of_connecting rfl hkept ?_
    have hself : (w₁.connectStarted sfd).selfFd .server = sfd := by simp
    have hwatched := World.interest_watched (w := w₁.connectStarted sfd) (s := .server)
      (epollOut, some .server) (by rw [hself]; exact hopen)
    rw [hself] at hwatched
    exact hwatched

/-- The reply of BIND and UDP ASSOCIATE has an address of an IP family to say. -/
theorem InitListen.alert {g : InitFn} (hw : Open w) (hip : IpFamily w.info.af)
    (hcmd : w.info.cmd = cmdBind ∨ w.info.cmd = cmdUdpa) (h : InitListen cfg g w w')
    (hrep : w'.info.rep = repUnset ∨ w'.info.rep = repSuccess) : Alert w' := by
  have hsuccess : w'.info.rep = repSuccess := by
    rcases h.done hw with (hbad | hbad) | ⟨-, hsuccess, -, -⟩
    · rcases hrep with hrep | hrep <;> rw [hbad] at hrep <;> cases hrep
    · rcases hrep with hrep | hrep <;> rw [hbad] at hrep <;> cases hrep
    · exact hsuccess
  obtain ⟨hs, hserver⟩ := h.server_receiving hw hsuccess
  cases h with
  | notOpened => cases hsuccess
  | failed haddr hnew hbad => rcases hbad with rfl | rfl <;> cases hsuccess
  | unnamed haddr hnew => cases hsuccess
  | unanswered haddr hnew ha h => cases hsuccess
  | unlistened haddr hnew ha h => cases hsuccess
  | @listening sfd a w₁ haddr hnew ha h hans hadd =>
    obtain ⟨b, rfl⟩ := ha.isSome_iff.mpr hip
    have hstarted := hw.listenStarted (f := g) hnew
    have hinfo : w₁.info.cmd = w.info.cmd := by
      rw [h.server.2.1]
      simp [World.listenStarted, World.queueHead]
    cases h with
    | sent hmod =>
      refine .of_success (by simp) ?_ hserver (.inr (hinfo ▸ hcmd))
      refine Eq.trans ?_ (hstarted.queueAddr b).watchSend_client
      refine World.interest_setInterest
        (w := ((w.listenStarted g sfd).queueAddr b).watchSend.drop .server outbuffsize) _ ?_
      have hself : w.selfFd .client ≠ sfd := by
        rw [hw.self_client]
        exact (hw.ne_client hnew).symm
      simpa [World.queueAddr, World.listenStarted, World.queueHead] using hself

theorem Init.alert (hw : Open w) (hclient : w.Receiving .client)
    (hip : IpFamily w.info.af ∨ w.info.sa = none ∧ w.info.ai = []) (h : Init cfg w w')
    (hrep : w'.info.rep = repUnset ∨ w'.info.rep = repSuccess) : Alert w' := by
  have hsome : IpFamily w.info.af := hip.resolve_right fun ⟨hsa, hai⟩ => by
    rw [h.rep_of_noAddr hsa hai] at hrep
    rcases hrep with hrep | hrep <;> cases hrep
  cases h with
  | connect hcmd hallow h => exact h.alert hw hclient hrep
  | bind hcmd hallow h => exact h.alert hw hsome (.inl hcmd) hrep
  | udpa hcmd hallow h => exact h.alert hw hsome (.inr hcmd) hrep

theorem CommandDone.alert {o : Obj} (hw : Open w)
    (hready : w.Receiving .client ∧ IpFamily w.info.af ∨ w.info.sa = none ∧ w.info.ai = [])
    (h : CommandDone cfg w o f w') (hopen : Open w') : Alert w' := by
  cases h with
  | refusedLost hno h =>
    exact (ReplyWithErr.lost h).alert (open_setRep.mpr hw) hopen
  | refused hno hroom hmod h =>
    exact h.alert (open_errReplied (open_setRep.mpr hw)) hopen
  | started h hrep =>
    rcases hready with ⟨hclient, hip⟩ | ⟨hsa, hai⟩
    · exact h.alert hw hclient (.inl hip) hrep
    · rw [h.rep_of_noAddr hsa hai] at hrep
      rcases hrep with hrep | hrep <;> cases hrep
  | failed h hrep hreply => exact hreply.alert (h.open hw) hopen

theorem ResolverReturned.alert (hw : Open w) (hclient : w.Receiving .client)
    (hsa : w.info.sa = none) (hai : w.info.resolverRet ≠ 0 → w.info.ai = [])
    (hip : ∀ ai ∈ w.info.ai, IpFamily ai.aiFamily) (h : ResolverReturned cfg w f w')
    (hopen : Open w') : Alert w' := by
  cases h with
  | lost hret h => exact (ReplyWithErr.lost h).alert (open_setRep.mpr hw) hopen
  | failed hret hroom hmod h =>
    refine h.alert (open_errReplied (open_setRep.mpr hw)) (.inr ⟨?_, ?_⟩) hopen
    · simpa [World.errReplied] using hsa
    · simpa [World.errReplied] using hai hret
  | resolved hret h =>
    refine h.alert hw ?_ hopen
    cases hlist : w.info.ai with
    | nil => exact .inr ⟨hsa, rfl⟩
    | cons ai rest =>
      refine .inl ⟨hclient, ?_⟩
      rw [Info.af, hsa, hlist]
      exact hip ai (by simp [hlist])

theorem reqAddr_ipFamily (req : List UInt8) : IpFamily (reqAddr req).family := by
  unfold reqAddr
  split
  · exact .inl rfl
  · exact .inr rfl

theorem CommandRequest.alert {req : List UInt8} (hw : Open w)
    (hs : w.shared.state = .waitingCommand) (hclient : w.Receiving .client)
    (h : CommandRequest cfg w req f w') (hopen : Open w') : Alert w' := by
  have hwaiting : Alert w := .of_early (.inr (.inl hs)) hclient
  cases h with
  | short hlen => exact hwaiting
  | badAtyp hlen htotal h => exact h.alert (open_setRep.mpr hw) hopen
  | part hlen htotal hpart => exact hwaiting
  | badVersion hlen htotal hcomplete hversion => exact absurd hopen (not_open_hungUp _ _)
  | run hlen htotal hcomplete hversion h =>
    have hstored : Open (w.commandStored req) := hw.setInfo rfl rfl
    have hasked : Open (((w.commandStored req).addrStored req).emit
        (.firewall ((w.commandStored req).addrStored req).info)) := by
      simpa using hstored.addrStored req
    cases h with
    | domain hatyp => exact .of_early (.inr (.inr rfl)) hclient
    | noMemory hatyp hmalloc => exact .of_early (.inr (.inl hs)) hclient
    | dropped hatyp hfirewall h => exact h.alert (open_setRep.mpr hasked) hopen
    | passed hatyp hfirewall h => exact h.alert hasked (.inl ⟨hclient, reqAddr_ipFamily req⟩) hopen

theorem WaitingCommand.alert (hw : Open w) (hs : w.shared.state = .waitingCommand)
    (hclient : w.Receiving .client) (hsa : w.info.sa = none)
    (hai : w.info.resolverRet ≠ 0 → w.info.ai = [])
    (hip : ∀ ai ∈ w.info.ai, IpFamily ai.aiFamily) (h : WaitingCommand cfg w e ev f w')
    (hopen : Open w') : Alert w' := by
  cases h with
  | idle hidle => exact .of_early (.inr (.inl hs)) hclient
  | resolver hret h => exact h.alert hw hclient hsa hai hip hopen
  | ended hret hrecv hr => exact absurd hopen (not_open_hungUp _ _)
  | data hret hrecv hgot h =>
    refine h.alert ?_ ?_ (hclient.congr ?_) hopen
    · simpa using hrecv.open hw
    · simpa [hrecv.shared] using hs
    · simpa using hrecv.interest .client

/-! ### The server's descriptor -/

theorem ConnectFailed.alert {error : BitVec 32} (hw : Open w) (ha : Alert w)
    (h : ConnectFailed w error w') (hopen : Open w') : Alert w' := by
  cases h with
  | retry hlen hget => exact ha.congr rfl rfl rfl fun _ => rfl
  | exhausted hlen hget h => exact h.alert (open_setRep.mpr hw.nextAddr) hopen
  | single hlen h => exact h.alert (open_setRep.mpr hw) hopen

/-- The socket that is connected has a name of an IP family, so that the reply is written whole. -/
theorem Connecting.alert (hw : Open w) (hlive : w.mem (.data .server) = .live)
    (hcmd : w.info.cmd = cmdConn) (ha : Alert w)
    (hname : ∀ ss ∈ w.ans.getsockname, IpFamily ss.family) (h : Connecting w e ev w')
    (hopen : Open w') : Alert w' := by
  cases h with
  | idle hidle => exact ha
  | unknown hso h => exact h.alert (open_setRep.mpr hw) hopen
  | failed hso herr h => exact h.alert hw ha hopen
  | unnamed hso hname h => exact h.alert (open_setRep.mpr (open_setRep.mpr hw)) hopen
  | oddFamily hso hss haddr h =>
    obtain ⟨a, hsome⟩ := SockAddr.replyAddr_isSome.mpr (hname _ hss)
    rw [haddr] at hsome
    cases hsome
  | unanswered hso hname haddr hreply h =>
    exact h.alert (open_setRep.mpr (hreply.open (hw.connectedTo _))) hopen
  | unwatched hso hname haddr hreply hmod h =>
    exact h.alert (open_setRep.mpr (hmod.open (hreply.open (hw.connectedTo _)))) hopen
  | @connected ss a w₁ _ hso hname haddr hreply hmod =>
    have hw₁ := hreply.open (hw.connectedTo ss)
    obtain ⟨-, hinfo, hmem, hselves, hstate⟩ := hreply.server
    have hconnected : w₁.shared.state = .sendingReply := hstate
    cases hmod with
    | done hmod hreg =>
      refine .of_success (by simp [hconnected]) ?_ ?_ (.inl ?_)
      · have hlive₁ : w₁.mem (.data .server) = .live := by
          rw [hmem]
          simpa [World.connectedTo, World.queueHead] using hlive
        have hne := hw₁.self_ne_client hlive₁
        cases hreply with
        | sent hmod =>
          refine Eq.trans ?_ ((hw.connectedTo ss).queueAddr a).watchSend_client
          exact World.interest_setInterest
            (w := ((w.connectedTo ss).queueAddr a).watchSend.popMod) _ hne.symm
      · obtain ⟨sk, -, hsk, -⟩ := hreg
        have hwatched := World.interest_watched (w := w₁.popMod) (s := .server)
          (epollIn, some .server) (by simp [hsk])
        exact hwatched
      · have hkept : w₁.info.cmd = w.info.cmd := by
          rw [hinfo]
          simp [World.connectedTo, World.queueHead]
        exact hkept.trans hcmd

theorem BindListening.alert (hw : Open w) (hlive : w.mem (.data .server) = .live)
    (hcmd : w.info.cmd = cmdBind) (ha : Alert w) (h : BindListening w e ev w') (hopen : Open w') :
    Alert w' := by
  have hpeer : ∀ {fd} ss, w.fds fd = none → Open (w.acceptedPeer fd ss) := fun ss hnew =>
    Open.noted (open_emit.mpr (hw.setFd (hw.ne_client hnew) _)) ss
  have hhome : ∀ {fd} ss, w.fds fd = none → Open ((w.acceptedPeer fd ss).rehomed fd) :=
    fun ss hnew => (hpeer ss hnew).rehomed (hw.ne_client hnew) hlive
  have hhead : ∀ {v : World}, Open v → Open ((v.setRep repSuccess).queueHead repSuccess) :=
    fun hv => by simpa [World.queueHead] using hv
  cases h with
  | idle hidle => exact ha
  | noPeer hnone h => exact h.alert (open_setRep.mpr hw) hopen
  | noRequest hans hnew hreq h => exact h.alert (open_setRep.mpr (hpeer _ hnew)) hopen
  | otherPeer hans hnew hreq hdiff h => exact h.alert (open_setRep.mpr (hpeer _ hnew)) hopen
  | unwatched hans hnew hreq hsame he hadd h => exact h.alert (open_setRep.mpr (hhome _ hnew)) hopen
  | oddFamily hans hnew hreq hsame he hadd haddr h =>
    exact h.alert (open_setRep.mpr (hhead (hadd.open (hhome _ hnew)))) hopen
  | unanswered hans hnew hreq hsame he hadd haddr hreply h =>
    exact h.alert (open_setRep.mpr (hreply.open (hhead (hadd.open (hhome _ hnew))))) hopen
  | @accepted newFd ss req a w₁ w₂ hans hnew hreq hsame he hadd haddr hreply =>
    have hne := hw.ne_client hnew
    have hw₁ := hhead (hadd.open (hhome ss hnew))
    cases hadd with
    | done hsk hi hadd =>
      have hwatched := World.interest_watched (w := (w.acceptedPeer newFd ss).rehomed newFd)
        (s := .server) (epollIn, some .server) (by simp [hsk])
      cases hreply with
      | sent hmod =>
        refine .of_success rfl (hw₁.queueAddr a).watchSend_client ?_ (.inr (.inl ?_))
        · refine Eq.trans ?_ hwatched
          refine World.interest_congr ?_ ?_
          · simp [World.queueAddr, World.queueHead, World.acceptedPeer]
          · simp [World.queueAddr, World.queueHead, World.acceptedPeer, hne]
        · simpa [World.queueAddr, World.queueHead, World.acceptedPeer] using hcmd

/-! ### Sending -/

theorem SendStopped.alert {n : Nat} (ha : Alert w) (h : SendStopped w n w') (hopen : Open w') :
    Alert w' := by
  obtain ⟨k, rfl, -⟩ := h.tuned hopen
  exact ha.congr rfl rfl rfl fun _ => rfl

theorem SendingMethod.alert (hw : Open w) (ha : Alert w) (h : SendingMethod w e ev w')
    (hopen : Open w') : Alert w' := by
  have hsent : Open (w.sentFront 2) := by simpa [World.sentFront] using hw
  cases h with
  | idle hidle => exact ha
  | stopped h => exact h.alert ha hopen
  | refused hmod hmethod => exact absurd hopen (not_open_hungUp _ _)
  | accepted hmod hmethod => exact .of_early (.inr (.inl rfl)) hsent.watchRecv_client

/-- A success reply is for one of the three commands. -/
theorem Alert.command_known (ha : Alert w) (hs : w.shared.state.replying = true)
    (hrep : w.info.rep = repSuccess) (hcmd : w.info.cmd ≠ cmdConn ∧ w.info.cmd ≠ cmdUdpa)
    (hbind : w.info.cmd = cmdBind →
      w.shared.state ≠ .sendingReply ∧ w.shared.state ≠ .sendingReply2) : False := by
  rcases (ha.success hs hrep).2 with hconn | hbound | hudpa
  · exact hcmd.1 hconn
  · obtain ⟨hfirst, hsecond⟩ := hbind hbound
    cases hst : w.shared.state <;> simp_all
  · exact hcmd.2 hudpa

/-- The first reply to BIND leaves the server watched for the peer. -/
theorem SendingReply.alert (hw : Open w) (hp : Phase w) (ha : Alert w)
    (hs : w.shared.state.replying = true) (h : SendingReply w e ev w') (hopen : Open w') :
    Alert w' := by
  have hsent : Open (w.sentFront 300) := by simpa [World.sentFront] using hw
  cases h with
  | idle hidle => exact ha
  | stopped h => exact h.alert ha hopen
  | refused hmod hrep => exact absurd hopen (not_open_hungUp _ _)
  | connected hmod hrep hcmd => exact .of_over (.inl rfl)
  | listening hmod hrep hcmd hstate =>
    have hlive := hp.server (.inl (.inr (.inr ⟨hs, hrep⟩)))
    have hserver := (ha.success hs hrep).1.congr (hsent.watchRecv_server hlive)
    exact .of_listening rfl hsent.watchRecv_client hserver
  | associated hmod hrep hcmd => exact .of_over (.inr (.inl rfl))
  | odd hmod hrep hcmd hbind => exact (ha.command_known hs hrep hcmd hbind).elim

theorem WaitingMethods.alert (hw : Open w) (hs : w.shared.state = .waitingMethods) (ha : Alert w)
    (h : WaitingMethods cfg w e ev w') (hopen : Open w') : Alert w' := by
  have hclient := ha.quiet (by simp [hs])
  cases h with
  | idle hidle => exact ha
  | ended hrecv hr => exact absurd hopen (not_open_hungUp _ _)
  | part hrecv hgot hpart =>
    refine .of_early (.inl (by simpa [hrecv.shared] using hs)) (hclient.congr ?_)
    simpa using hrecv.interest .client
  | badVersion hrecv hgot hcomplete hversion => exact absurd hopen (not_open_hungUp _ _)
  | unwatched hrecv hgot hcomplete hversion hmod => exact absurd hopen (not_open_hungUp _ _)
  | @chosen bytes got w₁ hrecv hgot hcomplete hversion hmod =>
    refine .of_method rfl (Open.watchSend_client ?_)
    have hqueued : Open ((((w₁.queue .server bytes).drop .server 2).drop .server
        (got.getD 1 0).toNat).queue .client [socks5Version, selectMethod cfg (offered got)]) := by
      simpa using hrecv.open hw
    exact Open.setInfo (open_setState.mpr hqueued) (by simp) (by simp)

/-- The relay does not go back to the handshake. -/
theorem Full.over (hs : w.shared.state = .full) (h : Full w e ev w') :
    w'.shared.state = .full ∨ w'.shared.state = .fullUdpa ∨ w'.shared.state = .halfClose ∨
      w'.shared.state = .closed := by
  cases h with
  | idle hidle => exact .inl hs
  | sendFailed hout => exact .inr (.inr (.inl rfl))
  | sentPart hout hk => exact .inl hs
  | @drained r w₁ hout hmod =>
    cases r with
    | false => exact .inr (.inr (.inr rfl))
    | true => exact .inl ((congrArg Shared.state hmod.shared).trans hs)
  | ended hin hout hrecv hr hmod =>
    exact .inr (.inr (.inl (congrArg Shared.state hmod.shared)))
  | received hin hout hrecv hne hmod =>
    refine .inl ((congrArg Shared.state hmod.shared).trans ?_)
    simpa [hrecv.shared] using hs

/-! ### Inputs -/

theorem Handled.alert (hs : Sane w) (hw : Open w) (ha : Alert w)
    (hip : ∀ ai ∈ w.info.ai, IpFamily ai.aiFamily)
    (hname : ∀ ss ∈ w.ans.getsockname, IpFamily ss.family) (h : Handled cfg w e ev f w')
    (hopen : Open w') : Alert w' := by
  have hp := hs.phase hw
  cases h with
  | still hstate => exact ha
  | waitingMethods hstate h => exact h.alert hw hstate ha hopen
  | sendingMethod hstate h => exact h.alert hw ha hopen
  | waitingCommand hstate h =>
    obtain ⟨-, hsa, hret, -⟩ := hp.early (by simp [hstate])
    have hidle : w.dns = .idle := not_not.mp fun hne => by
      have hasync := (hs.dns hne).2
      rw [hstate] at hasync
      cases hasync
    have hai := hp.ai (by simp [hstate]) (by simp [hidle])
    exact h.alert hw hstate (ha.quiet (by simp [hstate])) hsa (fun _ => hai) hip hopen
  | sendingReply hstate h =>
    refine h.alert hw hp ha ?_ hopen
    rcases hstate with hs | hs <;> simp [hs]
  | connecting hstate h =>
    have hlive := hp.server (.inl (.inl hstate))
    exact h.alert hw hlive (hp.connecting hstate).1 ha hname hopen
  | bindListening hstate h =>
    have hlive := hp.server (.inl (.inr (.inl hstate)))
    exact h.alert hw hlive (hp.listening hstate).1 ha hopen
  | full hstate h => exact .of_over (h.over hstate)
  | halfClose hstate => exact .of_over (.inr (.inr (.inr rfl)))
  | closed hstate => exact absurd hopen (not_open_released _ _)

end Handlers

/-- The kernel names sockets, and the resolver answers, with addresses of an IP family. -/
def IpOnly (_ : World) (i : Input) : Prop :=
  match i with
  | .handle ans => ∀ ss ∈ ans.getsockname, IpFamily ss.family
  | .resolved _ res => ∀ ai ∈ res, IpFamily ai.aiFamily
  | _ => True

instance (w : World) (i : Input) : Decidable (IpOnly w i) :=
  match i with
  | .handle ans =>
    inferInstanceAs (Decidable (∀ ss ∈ ans.getsockname, ss.family = afInet ∨ ss.family = afInet6))
  | .resolved _ res =>
    inferInstanceAs (Decidable (∀ ai ∈ res, ai.aiFamily = afInet ∨ ai.aiFamily = afInet6))
  | .arrive _ _ | .finish _ | .poll _ => .isTrue trivial

/-- The resolved addresses are of an IP family. -/
def World.IpAddrs (w : World) : Prop := ∀ ai ∈ w.info.ai, IpFamily ai.aiFamily

section Runs

variable {cfg : Configs} {w w' : World} {f : Option Fault}

theorem Effects.ai {blocking : Prop} (h : Effects blocking w w') : w'.info.ai = w.info.ai :=
  h.invariant (P := fun v => v.info.ai = w.info.ai) (fun {v v'} hv he => by
    rw [← hv]
    cases he with
    | info info hsa hai => exact hai
    | received hrecv =>
      obtain ⟨fds, trace, rfl⟩ := hrecv.frame
      rfl
    | queue s bytes => simp
    | _ => rfl) rfl

/-- Only the resolver's answer changes the resolved addresses. -/
theorem Stepped.ai {i : Input} (hs : Sane w) (hstep : Stepped cfg w i f w') :
    w'.info.ai = w.info.ai ∨
      ∃ gaiRet res, i = .resolved gaiRet res ∧ (w'.info.ai = res ∨ w'.info.ai = []) := by
  cases i with
  | handle ans =>
    rcases hstep.effects hs (fun _ _ _ => trivial) with ⟨-, rfl | rfl⟩ | ⟨v, hv, heffects⟩
    · exact .inl rfl
    · exact .inl rfl
    · rw [heffects.ai]
      rcases w.mem_next hv with rfl | ⟨gaiRet, -, -, rfl⟩ <;> exact .inl rfl
  | resolved gaiRet res =>
    cases hstep with
    | unasked hdns => exact .inl rfl
    | resolved hdns =>
      refine .inr ⟨gaiRet, res, rfl, ?_⟩
      by_cases hret : gaiRet = 0
      · exact .inl (by simp [hret])
      · exact .inr (by simp [hret])
  | arrive fd bytes =>
    cases hstep
    exact .inl (congrArg (fun c => c.2.2.2.2.ai) (w.core_arrived fd bytes))
  | finish fd =>
    cases hstep
    exact .inl rfl
  | poll batch => cases hstep <;> exact .inl rfl

theorem World.IpAddrs.stepped {i : Input} (hs : Sane w) (h : w.IpAddrs) (hip : IpOnly w i)
    (hstep : Stepped cfg w i f w') : w'.IpAddrs := by
  rcases hstep.ai hs with heq | ⟨gaiRet, res, rfl, heq | heq⟩ <;> rw [World.IpAddrs, heq]
  · exact h
  · exact hip
  · simp

/-- A handler that meets a released object has closed the connection. -/
theorem CommandDone.closed {o : Obj} {f : Fault} (h : CommandDone cfg w o (some f) w') :
    w'.shared.state = .closed := by
  cases h with
  | refusedLost hno h => cases h <;> rfl

theorem ResolverReturned.closed {f : Fault} (h : ResolverReturned cfg w (some f) w') :
    w'.shared.state = .closed := by
  cases h with
  | lost hret h => cases h <;> rfl
  | failed hret hroom hmod h => exact h.closed
  | resolved hret h => exact h.closed

theorem WaitingCommand.closed {e : Side} {ev : Events} {f : Fault}
    (h : WaitingCommand cfg w e ev (some f) w') : w'.shared.state = .closed := by
  cases h with
  | resolver hret h => exact h.closed
  | data hret hrecv hgot h =>
    cases h with
    | run hlen htotal hcomplete hversion h =>
      cases h with
      | passed hatyp hfirewall h => exact h.closed

/-- Also where a handler met a released object the connection is open or closed. -/
theorem Stepped.conn {i : Input} (hs : Sane w) (h : Stepped cfg w i f w') :
    Open w' ∧ Phase w' ∨ w'.shared.state = .closed := by
  have hsane : ∀ {v : World}, Sane v → Open v ∧ Phase v ∨ v.shared.state = .closed := fun hv =>
    hv.conn.imp (fun hopen => ⟨hopen, hv.phase hopen⟩) Shut.state
  cases f with
  | none => exact hsane (h.sane hs)
  | some f =>
    cases h with
    | handled hpending hd =>
      cases hd with
      | stale hgone => exact hsane (hs.taken hpending _)
      | handled hw hd hh hwant =>
        cases hh with
        | waitingCommand hstate hc => exact .inr hc.closed
      | resolver hw hdns hc => exact .inr hc.closed

/-- A connection that waits for something is open. -/
theorem Stepped.open_of_awaits {i : Input} (hs : Sane w) (h : Stepped cfg w i f w')
    (hawaits : w'.shared.state.awaits ≠ none) : Open w' := by
  rcases h.conn hs with ⟨hopen, -⟩ | hclosed
  · exact hopen
  · rw [hclosed] at hawaits
    exact absurd rfl hawaits

/-- **Every input leaves the awaited end watched.** -/
theorem Stepped.alert {i : Input} (hs : Sane w) (ha : Open w → Alert w) (hai : w.IpAddrs)
    (hip : IpOnly w i) (hstep : Stepped cfg w i f w') (hopen : Open w') : Alert w' := by
  cases hstep with
  | @arrive fd bytes =>
    obtain ⟨fds, heq, hfds⟩ := w.arrived_interest fd bytes
    rw [heq] at hopen ⊢
    exact (ha (hs.open_of_info hopen.infoPtr)).congr rfl rfl rfl (w.interest_outside hfds)
  | @finish fd =>
    obtain ⟨fds, heq, hfds⟩ := w.finished_interest fd
    rw [heq] at hopen ⊢
    exact (ha (hs.open_of_info hopen.infoPtr)).congr rfl rfl rfl (w.interest_outside hfds)
  | unasked hdns => exact ha hopen
  | resolved hdns =>
    exact (ha (hs.open_of_info hopen.infoPtr)).congr rfl rfl rfl fun _ => rfl
  | unpolled => exact ha hopen
  | polled hpending hlegal => exact (ha (hopen.frame rfl id)).congr rfl rfl rfl fun _ => rfl
  | waiting hpending => exact ha hopen
  | @handled ans event rest _ _ hpending hd =>
    have htaken := hs.taken hpending ans
    have ha₁ : Open (w.taken rest ans) → Alert (w.taken rest ans) := fun hw =>
      (ha (hw.frame rfl id)).congr rfl rfl rfl fun _ => rfl
    cases hd with
    | ignored => exact ha₁ hopen
    | stale hgone => exact ha₁ hopen
    | masked hd hev => exact ha₁ hopen
    | handled hw hd hh hwant => exact hh.alert htaken hw (ha₁ hw) hai hip hopen
    | shut hw hd => exact absurd hopen (not_open_released _ _)
    | quiet hdns => exact ha₁ hopen
    | @resolver gaiRet _ _ hw hdns hc =>
      have hasync := (htaken.dns (by rw [hdns]; simp)).2
      have hearly : (w.taken rest ans).shared.state.early = true := by rw [hasync]; rfl
      have hp := htaken.phase hw
      obtain ⟨-, hsa, -, -⟩ := hp.early hearly
      have hempty : gaiRet ≠ 0 → (w.taken rest ans).info.ai = [] := fun hret =>
        hp.ai hearly fun r hr => by
          rw [hdns] at hr
          cases hr
          exact hret
      have hclient := (ha₁ hw).quiet (by rw [hasync]; rfl)
      exact hc.alert (hw.resumed gaiRet) rfl hclient hsa hempty hai hopen

theorem newClient_alert (fd : Int) (ss : SockAddr) (bufs : Side → OutBuff) :
    Alert (newClient fd ss bufs) := by
  refine .of_early (.inl rfl) ?_
  simp [World.Receiving, World.interest, newClient]

/-- **No wakeup of the handshake is lost.** Whatever calls fail, while the kernel and the resolver
say addresses of an IP family: in every state of the handshake that waits for an end, epoll watches
this end for what is awaited. -/
theorem handshake_watched {fd : Int} {ss : SockAddr} {bufs : Side → OutBuff}
    {mallocs epollAdd : Bool} {w₀ : World} {is : List Input}
    (hw₀ : acceptNewClient fd ss bufs mallocs epollAdd = some w₀)
    (hmeets : Lib.Meets (step cfg) IpOnly is w₀) {s : Side} {ev : Events}
    (hawaits : (Lib.run (step cfg) is w₀).state.shared.state.awaits = some (s, ev)) :
    (Lib.run (step cfg) is w₀).state.Watches s ev := by
  have hsane := acceptNewClient_sane hw₀
  obtain ⟨hfd, rfl⟩ := acceptNewClient_eq hw₀
  have hstart : (newClient fd ss bufs).IpAddrs := fun ai hmem => by
    simp [newClient, Info.fresh] at hmem
  obtain ⟨ha, -, hopen⟩ := run_invariant (C := IpOnly)
    (P := fun v => (Open v → Alert v) ∧ v.IpAddrs ∧ (v.shared.state.awaits ≠ none → Open v)) hsane
    ⟨fun _ => newClient_alert fd ss bufs, hstart, fun _ => newClient_open hfd ss bufs⟩ hmeets
    fun hs h hip hstep =>
      ⟨hstep.alert hs h.1 h.2.1 hip, h.2.1.stepped hs hip hstep, hstep.open_of_awaits hs⟩
  have hopened : Open (Lib.run (step cfg) is (newClient fd ss bufs)).state := by
    refine hopen ?_
    rw [hawaits]
    exact Option.some_ne_none _
  exact (ha hopened).watches hawaits

end Runs

/-- The address is being connected to. -/
theorem handshake_watched_connect :
    (Lib.run (step openConfigs) literalConnect
      (newClient 5 (.inet ![4, 0] ![127, 0, 0, 1]) fun _ => .zero)).state.Watches .server
        epollOut := by
  have haccept : acceptNewClient 5 (.inet ![4, 0] ![127, 0, 0, 1]) (fun _ => .zero) true true =
      some (newClient 5 (.inet ![4, 0] ![127, 0, 0, 1]) fun _ => .zero) := rfl
  have hrun : Lib.Meets (step openConfigs) IpOnly literalConnect
    (newClient 5 (.inet ![4, 0] ![127, 0, 0, 1]) fun _ => .zero) ∧
      (Lib.run (step openConfigs) literalConnect
        (newClient 5 (.inet ![4, 0] ![127, 0, 0, 1]) fun _ => .zero)).state.shared.state.awaits =
          some (.server, epollOut) := by
    decide +kernel
  exact handshake_watched haccept hrun.1 hrun.2

end Socksprox
