import Socksprox.Run.Drain

/-!
What epoll watches. A descriptor whose buffer holds bytes has to be watched for sending, or
the bytes stay; one whose buffer is empty must not be, or `send_traffic` is called with
nothing to send.
-/

namespace Socksprox

/-! ### Registrations -/

/-- What epoll watches on the descriptor of an end, and the pointer it gives back. -/
def World.interest (w : World) (s : Side) : Option (Events × Option Side) :=
  (w.fds (w.selfFd s)).bind Sock.interest

/-- The descriptor of an end is watched for receiving only. -/
def World.Receiving (w : World) (s : Side) : Prop := w.interest s = some (epollIn, some s)

/-- The descriptor of an end is watched for sending as well. -/
def World.Sending (w : World) (s : Side) : Prop :=
  (w.interest s).any (fun i => i.1.epollout) = true

/-- What the relay needs of an end: its descriptor is watched for receiving, and for sending
iff its buffer holds bytes. -/
def World.WatchedFor (w : World) (s : Side) : Prop :=
  w.interest s = some (⟨true, !(w.shared.out s).contents.isEmpty⟩, some s)

instance (w : World) (s : Side) : Decidable (w.WatchedFor s) := inferInstanceAs (Decidable (_ = _))

section Interest

variable {w w' : World} {s : Side} {fd : Int}

theorem World.Receiving.congr (h : w.Receiving s) (hinterest : w'.interest s = w.interest s) :
    w'.Receiving s := hinterest.trans h

theorem World.Receiving.not_sending (h : w.Receiving s) : ¬ w.Sending s := by
  rw [World.Receiving] at h
  simp [World.Sending, h, epollIn]

theorem World.WatchedFor.sending_iff (h : w.WatchedFor s) :
    w.Sending s ↔ (w.shared.out s).contents ≠ [] := by
  rw [World.WatchedFor] at h
  simp [World.Sending, h]

/-- Registrations of other descriptors do not matter. -/
theorem World.interest_congr (hself : w'.selfFd s = w.selfFd s)
    (hfds : (w'.fds (w.selfFd s)).bind Sock.interest = (w.fds (w.selfFd s)).bind Sock.interest) :
    w'.interest s = w.interest s := by
  rw [World.interest, World.interest, hself, hfds]

@[simp] theorem World.interest_queue (bytes : List UInt8) (s' : Side) :
    (w.queue s' bytes).interest s = w.interest s := by
  simp [World.interest]

theorem World.interest_setInterest (i : Events × Option Side) (hne : w.selfFd s ≠ fd) :
    (w.setInterest fd (some i)).interest s = w.interest s :=
  w.interest_congr rfl (by simp [hne])

/-- A registered descriptor is watched for what was asked last. -/
theorem World.interest_watched (i : Events × Option Side) (hopen : w.fds (w.selfFd s) ≠ none) :
    (w.setInterest (w.selfFd s) (some i)).interest s = some i := by
  obtain ⟨sk, hsk⟩ := Option.ne_none_iff_exists'.mp hopen
  simp [World.interest, hsk]

theorem World.interest_opened (nonblock : Bool) (hne : w.selfFd s ≠ fd) :
    (w.opened fd nonblock).interest s = w.interest s :=
  w.interest_congr rfl (by simp [hne])

theorem Recv.interest {n : Nat} {r : Option (List UInt8)} (h : Recv w fd n r w') (s : Side) :
    w'.interest s = w.interest s := by
  cases h with
  | failed => rfl
  | zero hn => rfl
  | ended hsk hempty hfin => rfl
  | data hsk hinbox hne hle =>
    refine w.interest_congr rfl ?_
    by_cases hfd : w.selfFd s = fd
    · simp [hfd, hsk]
    · simp [hfd]

theorem Open.client_fds (hw : Open w) : w.fds (w.selfFd .client) ≠ none := by
  obtain ⟨sk, -, hsk, -⟩ := hw.registered
  simp [hw.self_client, hsk]

theorem Open.self_ne_client (hw : Open w) (hd : w.mem (.data .server) = .live) :
    w.selfFd .server ≠ w.selfFd .client := by
  rw [hw.self_client, hw.self .server hd]
  exact hw.fd_ne.symm

theorem Open.watchRecv_client (hw : Open w) : w.watchRecv.Receiving .client := by
  have h : w.watchRecv = w.popMod.setInterest (w.popMod.selfFd .client)
    (some (epollIn, some .client)) := by
    rw [World.watchRecv, hw.data_client, ← hw.self_client]
    rfl
  rw [World.Receiving, h]
  exact World.interest_watched _ hw.client_fds

theorem Open.watchRecv_server (hw : Open w) (hd : w.mem (.data .server) = .live) :
    w.watchRecv.interest .server = w.interest .server := by
  refine World.interest_congr (w := w) rfl ?_
  have hne := hw.self_ne_client hd
  rw [hw.self_client] at hne
  simp [hne]

/-- A connection of which an end was released is not open. -/
theorem not_open_released (w : World) (e : Side) : ¬ Open (w.released e) := fun h => by
  simpa using h.infoPtr

theorem not_open_hungUp (w : World) (e : Side) : ¬ Open (w.hungUp e) := not_open_released _ e

end Interest

/-! ### The invariant -/

/-- What is watched in each state: only receiving from the client, while nothing is sent to it;
when the success reply goes out, either the server is watched for receiving or the client
is not watched for sending; and in the relay what each buffer asks for. -/
structure Tuned (w : World) : Prop where
  quiet : w.shared.state.quiet = true → w.Receiving .client
  reply : w.shared.state.replying = true → w.info.rep = repSuccess →
    w.Receiving .client ∨ w.Receiving .server
  full : w.shared.state = .full → ∀ s, w.WatchedFor s

/-- The events of the batch that report a descriptor ready for sending are asked for. -/
def World.Asked (w : World) : Prop :=
  ∀ fd s ev, .peer fd (some s) ev ∈ w.pending → ev.epollout = true → w.Sending s

section Handlers

variable {cfg : Configs} {w w' : World} {e : Side} {ev : Events} {f : Option Fault}

theorem Tuned.of_quiet (hs : w.shared.state.quiet = true) (hclient : w.Receiving .client) :
    Tuned w where
  quiet := fun _ => hclient
  reply := fun _ _ => .inl hclient
  full := fun hfull => by simp [hfull] at hs

theorem Tuned.of_failing (hs : w.shared.state = .sendingReply) (hrep : w.info.rep ≠ repSuccess) :
    Tuned w where
  quiet := fun hquiet => by simp [hs] at hquiet
  reply := fun _ hsuccess => absurd hsuccess hrep
  full := fun hfull => by simp [hs] at hfull

theorem Tuned.of_replying (hs : w.shared.state.replying = true)
    (h : w.Receiving .client ∨ w.Receiving .server) : Tuned w where
  quiet := fun hquiet => by cases hst : w.shared.state <;> simp_all
  reply := fun _ _ => h
  full := fun hfull => by simp [hfull] at hs

/-- States about which nothing is said. -/
theorem Tuned.of_other (hs : w.shared.state = .sendingMethod ∨ w.shared.state = .fullUdpa ∨
    w.shared.state = .halfClose ∨ w.shared.state = .closed) : Tuned w := by
  rcases hs with hs | hs | hs | hs <;> constructor <;> simp [hs]

theorem Tuned.congr (h : Tuned w) (hstate : w'.shared.state = w.shared.state)
    (hrep : w'.info.rep = w.info.rep) (hout : w'.shared.out = w.shared.out)
    (hinterest : ∀ s, w'.interest s = w.interest s) : Tuned w' where
  quiet := fun hs => (h.quiet (hstate ▸ hs)).congr (hinterest _)
  reply := fun hs hsuccess => (h.reply (hstate ▸ hs) (hrep ▸ hsuccess)).imp
    (·.congr (hinterest _)) (·.congr (hinterest _))
  full := fun hs s => by
    rw [World.WatchedFor, hinterest, hout]
    exact h.full (hstate ▸ hs) s

theorem ReplyWithErr.tuned (h : ReplyWithErr w e w') (hopen : Open w') : Tuned w' := by
  cases h with
  | replied hroom hmod =>
    refine .of_failing rfl ?_
    rw [show w.errReplied.info.rep = normRep w.info.rep by simp [World.errReplied]]
    exact normRep_ne_success _
  | lost h =>
    cases h with
    | noRoom hroom => exact absurd hopen (not_open_hungUp _ _)
    | unwatched hroom hmod => exact absurd hopen (not_open_hungUp _ _)

/-! ### The request -/

theorem OpenConnect.client_interest {dst : SockAddr} {r : Option Int} (hw : Open w)
    (h : OpenConnect w dst r w') : w'.interest .client = w.interest .client := by
  have hopened : ∀ {fd : Int}, w.fds fd = none →
      (w.opened fd true).interest .client = w.interest .client := by
    intro fd hnew
    refine World.interest_opened true ?_
    rw [hw.self_client]
    exact (hw.ne_client hnew).symm
  cases h with
  | noSocket => rfl
  | refused hans hpos hnew herr => exact hopened hnew
  | started hans hpos hnew hok => exact hopened hnew

theorem FirstAttempt.client_interest {r : Option Int} (hw : Open w) (h : FirstAttempt w r w') :
    w'.interest .client = w.interest .client := by
  cases h with
  | unsupported hsa => rfl
  | literal hsa h => exact h.client_interest hw
  | resolvedFailed hsa hai h => exact h.client_interest hw
  | resolved hsa hai h =>
    have hkept := h.client_interest hw
    exact hkept

/-- Nothing that `init_connect` does concerns the client's descriptor. -/
theorem InitConnect.client_interest (hw : Open w) (h : InitConnect w w') :
    w'.interest .client = w.interest .client := by
  have hw₀ : Open (w.emit (.invoked .connect)) := by simpa using hw
  have hattempt : ∀ {r w₁}, FirstAttempt (w.emit (.invoked .connect)) r w₁ →
      w₁.interest .client = w.interest .client := by
    intro r w₁ h
    have hkept := h.client_interest hw₀
    exact hkept
  cases h with
  | noAddr hai hsa => rfl
  | notOpened h => exact hattempt h
  | noMemory h hmalloc =>
    have hkept := hattempt h
    exact hkept
  | unwatched h =>
    rw [← hattempt h]
    exact World.interest_congr (by simp) rfl
  | @connecting sfd w₁ h =>
    have hne : w₁.selfFd .client ≠ sfd := by
      rw [(h.open hw₀).self_client]
      exact (h.ne_client hw₀).symm
    rw [← hattempt h]
    exact World.interest_congr (by simp) (by simp [hne])

/-- The socket of BIND and of UDP ASSOCIATE is watched for receiving. -/
theorem InitListen.server_receiving {i : InitFn} (hw : Open w) (h : InitListen cfg i w w')
    (hrep : w'.info.rep = repSuccess) : w'.shared.state = .sendingReply ∧ w'.Receiving .server := by
  cases h with
  | notOpened => cases hrep
  | failed haddr hnew hbad => rcases hbad with rfl | rfl <;> cases hrep
  | unnamed haddr hnew => cases hrep
  | unanswered haddr hnew ha h => cases hrep
  | unlistened haddr hnew ha h => cases hrep
  | @listening sfd a w₁ haddr hnew ha h hans hadd =>
    refine ⟨rfl, ?_⟩
    obtain ⟨-, -, -, hself, -⟩ := h.server
    have hsfd : w₁.selfFd .server = sfd := by
      rw [hself]
      simp [World.listenStarted, World.queueHead]
    have hopen : w₁.fds sfd ≠ none := by
      have hne := hw.ne_client hnew
      cases h <;> simp [World.queueAddr, World.listenStarted, World.queueHead, hne]
    subst hsfd
    have hwatched := World.interest_watched (w := w₁.drop .server outbuffsize)
      (epollIn, some .server) hopen
    exact hwatched

theorem Init.tuned (hw : Open w) (hclient : w.Receiving .client) (h : Init cfg w w')
    (hrep : w'.info.rep = repUnset ∨ w'.info.rep = repSuccess) : Tuned w' := by
  have hlisten : ∀ {i}, InitListen cfg i w w' → Tuned w' := by
    intro i h
    have hsuccess : w'.info.rep = repSuccess := by
      rcases h.done hw with (hbad | hbad) | ⟨-, hsuccess, -, -⟩
      · rcases hrep with hrep | hrep <;> rw [hbad] at hrep <;> cases hrep
      · rcases hrep with hrep | hrep <;> rw [hbad] at hrep <;> cases hrep
      · exact hsuccess
    obtain ⟨hs, hserver⟩ := h.server_receiving hw hsuccess
    exact .of_replying (by simp [hs]) (.inr hserver)
  cases h with
  | connect hcmd hallow h =>
    have hclient' := hclient.congr (h.client_interest hw)
    rcases h.done hw with hbad | ⟨hs, -, -, -, -⟩
    · rcases hrep with hrep | hrep <;> rw [hbad] at hrep <;> cases hrep
    · exact .of_quiet (by simp [hs]) hclient'
  | bind hcmd hallow h => exact hlisten h
  | udpa hcmd hallow h => exact hlisten h

theorem CommandDone.tuned {o : Obj} (hw : Open w)
    (hready : w.Receiving .client ∨ w.info.sa = none ∧ w.info.ai = [])
    (h : CommandDone cfg w o f w') (hopen : Open w') : Tuned w' := by
  cases h with
  | refusedLost hno h =>
    exact (ReplyWithErr.lost h).tuned hopen
  | refused hno hroom hmod h => exact h.tuned hopen
  | started h hrep =>
    rcases hready with hclient | ⟨hsa, hai⟩
    · exact h.tuned hw hclient hrep
    · rw [h.rep_of_noAddr hsa hai] at hrep
      rcases hrep with hrep | hrep <;> cases hrep
  | failed h hrep hreply => exact hreply.tuned hopen

theorem ResolverReturned.tuned (hw : Open w) (hclient : w.Receiving .client)
    (hsa : w.info.sa = none) (hai : w.info.resolverRet ≠ 0 → w.info.ai = [])
    (h : ResolverReturned cfg w f w') (hopen : Open w') : Tuned w' := by
  cases h with
  | lost hret h => exact (ReplyWithErr.lost h).tuned hopen
  | failed hret hroom hmod h =>
    refine h.tuned (open_errReplied (open_setRep.mpr hw)) (.inr ⟨?_, ?_⟩) hopen
    · simpa [World.errReplied] using hsa
    · simpa [World.errReplied] using hai hret
  | resolved hret h => exact h.tuned hw (.inl hclient) hopen

theorem CommandRequest.tuned {req : List UInt8} (hw : Open w)
    (hs : w.shared.state = .waitingCommand)
    (hclient : w.Receiving .client) (h : CommandRequest cfg w req f w') (hopen : Open w') :
    Tuned w' := by
  have hquiet : Tuned w := .of_quiet (by simp [hs]) hclient
  cases h with
  | short hlen => exact hquiet
  | badAtyp hlen htotal h => exact h.tuned hopen
  | part hlen htotal hpart => exact hquiet
  | badVersion hlen htotal hcomplete hversion => exact absurd hopen (not_open_hungUp _ _)
  | run hlen htotal hcomplete hversion h =>
    cases h with
    | domain hatyp => exact .of_quiet rfl hclient
    | noMemory hatyp hmalloc => exact .of_quiet (by simp [hs]) hclient
    | dropped hatyp hfirewall h => exact h.tuned hopen
    | passed hatyp hfirewall h =>
      have hstored : Open (w.commandStored req) := hw.setInfo rfl rfl
      have hasked : Open (((w.commandStored req).addrStored req).emit
          (.firewall ((w.commandStored req).addrStored req).info)) := by
        simpa using hstored.addrStored req
      have hclient' : (((w.commandStored req).addrStored req).emit
          (.firewall ((w.commandStored req).addrStored req).info)).Receiving .client := hclient
      exact h.tuned hasked (.inl hclient') hopen

theorem WaitingCommand.tuned (hw : Open w) (hs : w.shared.state = .waitingCommand)
    (hclient : w.Receiving .client) (hsa : w.info.sa = none)
    (hai : w.info.resolverRet ≠ 0 → w.info.ai = []) (h : WaitingCommand cfg w e ev f w')
    (hopen : Open w') : Tuned w' := by
  cases h with
  | idle hidle => exact .of_quiet (by simp [hs]) hclient
  | resolver hret h => exact h.tuned hw hclient hsa hai hopen
  | ended hret hrecv hr => exact absurd hopen (not_open_hungUp _ _)
  | data hret hrecv hgot h =>
    refine h.tuned ?_ ?_ (hclient.congr ?_) hopen
    · simpa using hrecv.open hw
    · simpa [hrecv.shared] using hs
    · simpa using hrecv.interest .client

/-! ### The server's descriptor -/

theorem ConnectFailed.tuned {error : BitVec 32} (hclient : w.Receiving .client)
    (hs : w.shared.state.quiet = true ∨ w.shared.state.replying = true)
    (h : ConnectFailed w error w') (hopen : Open w') : Tuned w' := by
  cases h with
  | retry hlen hget =>
    rcases hs with hs | hs
    · exact .of_quiet hs hclient
    · exact .of_replying hs (.inl hclient)
  | exhausted hlen hget h => exact h.tuned hopen
  | single hlen h => exact h.tuned hopen

/-- The connected socket is watched for receiving, with the reply on its way. -/
theorem Connecting.tuned (hs : w.shared.state = .connecting) (hclient : w.Receiving .client)
    (h : Connecting w e ev w') (hopen : Open w') : Tuned w' := by
  cases h with
  | idle hidle => exact .of_quiet (by simp [hs]) hclient
  | unknown hso h => exact h.tuned hopen
  | failed hso herr h => exact h.tuned hclient (.inl (by simp [hs])) hopen
  | unnamed hso hname h => exact h.tuned hopen
  | @oddFamily ss _ hso hname haddr h =>
    refine h.tuned (hclient.congr ?_) (.inr rfl) hopen
    simp [World.interest, World.connectedTo, World.queueHead]
  | unanswered hso hname haddr hreply h => exact h.tuned hopen
  | unwatched hso hname haddr hreply hmod h => exact h.tuned hopen
  | @connected ss a w₁ _ hso hname haddr hreply hmod =>
    obtain ⟨-, -, -, -, hstate⟩ := hreply.server
    cases hmod with
    | done hmod hreg =>
      refine .of_replying ?_ (.inr ?_)
      · have hreplying : w₁.shared.state = .sendingReply := hstate
        simp [hreplying]
      · obtain ⟨sk, -, hsk, -⟩ := hreg
        have hwatched := World.interest_watched (w := w₁.popMod) (s := .server)
          (epollIn, some .server) (by simp [hsk])
        exact hwatched

/-- So is the accepted one. -/
theorem BindListening.tuned (hw : Open w)
    (hs : w.shared.state = .bindListening) (hclient : w.Receiving .client)
    (h : BindListening w e ev w') (hopen : Open w') : Tuned w' := by
  cases h with
  | idle hidle => exact .of_quiet (by simp [hs]) hclient
  | noPeer hnone h => exact h.tuned hopen
  | noRequest hans hnew hreq h => exact h.tuned hopen
  | otherPeer hans hnew hreq hdiff h => exact h.tuned hopen
  | unwatched hans hnew hreq hsame he hadd h => exact h.tuned hopen
  | oddFamily hans hnew hreq hsame he hadd haddr h => exact h.tuned hopen
  | unanswered hans hnew hreq hsame he hadd haddr hreply h => exact h.tuned hopen
  | @accepted newFd ss req a w₁ w₂ hans hnew hreq hsame he hadd haddr hreply =>
    have hne := hw.ne_client hnew
    cases hadd with
    | done hsk hi hadd =>
      refine .of_replying rfl (.inr ?_)
      have hwatched := World.interest_watched (w := (w.acceptedPeer newFd ss).rehomed newFd)
        (s := .server) (epollIn, some .server) (by simp [hsk])
      cases hreply with
      | sent hmod =>
        refine Eq.trans ?_ hwatched
        refine World.interest_congr ?_ ?_
        · simp [World.queueAddr, World.queueHead, World.acceptedPeer]
        · simp [World.queueAddr, World.queueHead, World.acceptedPeer, hne]

/-! ### Sending and the relay -/

theorem SendStopped.tuned {n : Nat} (h : SendStopped w n w') (hopen : Open w') :
    ∃ k, w' = w.sentPart n k ∧ k < ((w.shared.out .client).peek n).length := by
  cases h with
  | failed => exact absurd hopen (not_open_hungUp _ _)
  | part hk => exact ⟨_, rfl, hk⟩
  | unwatched hmod => exact absurd hopen (not_open_hungUp _ _)

theorem SendingMethod.tuned (hw : Open w) (hs : w.shared.state = .sendingMethod)
    (h : SendingMethod w e ev w') (hopen : Open w') : Tuned w' := by
  have hsent : Open (w.sentFront 2) := by simpa [World.sentFront] using hw
  cases h with
  | idle hidle => exact .of_other (.inl hs)
  | stopped h =>
    obtain ⟨k, rfl, -⟩ := h.tuned hopen
    exact .of_other (.inl hs)
  | refused hmod hmethod => exact absurd hopen (not_open_hungUp _ _)
  | accepted hmod hmethod => exact .of_quiet rfl hsent.watchRecv_client

/-- The relay begins with both buffers empty and both descriptors watched for receiving: the
client was watched for sending, so the server was not. -/
theorem SendingReply.tuned (hw : Open w) (hp : Phase w) (ht : Tuned w)
    (hs : w.shared.state.replying = true) (hsending : w.Sending .client)
    (h : SendingReply w e ev w') (hopen : Open w') : Tuned w' := by
  have hsent : Open (w.sentFront 300) := by simpa [World.sentFront] using hw
  have hclient : (w.sentFront 300).watchRecv.Receiving .client := hsent.watchRecv_client
  have hserver : w.info.rep = repSuccess → w.mem (.data .server) = .live := fun hrep =>
    hp.server (.inl (.inr (.inr ⟨hs, hrep⟩)))
  have h' := h
  cases h with
  | idle hidle => exact ht
  | stopped h =>
    obtain ⟨k, rfl, -⟩ := h.tuned hopen
    exact ⟨fun hq => ht.quiet hq, fun hr hrep => ht.reply hr hrep,
      fun hf => by cases hst : w.shared.state <;> simp_all⟩
  | refused hmod hrep => exact absurd hopen (not_open_hungUp _ _)
  | connected hmod hrep hcmd =>
    have hreceiving : w.Receiving .server := by
      rcases ht.reply hs hrep with hclient | hserver
      · exact absurd hsending hclient.not_sending
      · exact hserver
    have hkept : (w.sentFront 300).watchRecv.interest .server = w.interest .server :=
      hsent.watchRecv_server (hserver hrep)
    obtain ⟨hclientEmpty, hserverEmpty⟩ := h'.empty hp hs
      (fun heq => by rw [heq] at hs; cases hs) (.inl rfl)
    refine ⟨fun hq => (by cases hq), fun hr => (by cases hr), fun _ s => ?_⟩
    rw [World.WatchedFor]
    cases s with
    | client =>
      rw [hclientEmpty]
      exact hclient
    | server =>
      rw [hserverEmpty]
      exact hkept.trans hreceiving
  | listening hmod hrep hcmd hstate => exact .of_quiet rfl hclient
  | associated hmod hrep hcmd => exact .of_other (.inr (.inl rfl))
  | odd hmod hrep hcmd hbind => exact .of_replying hs (.inl hclient)

theorem Side.eq_or_peer (s e : Side) : s = e ∨ s = e.peer := by
  cases s <;> cases e <;> simp [Side.peer]

theorem Side.peer_ne (e : Side) : e.peer ≠ e := by
  cases e <;> simp [Side.peer]

/-- Both ends of the relay have descriptors of their own. -/
theorem Open.self_ne_peer (hw : Open w) (hd : ∀ s, w.mem (.data s) = .live) (e : Side) :
    w.selfFd e.peer ≠ w.selfFd e := by
  have hne := hw.self_ne_client (hd .server)
  cases e with
  | client => exact hne
  | server => exact hne.symm

theorem World.WatchedFor.congr {s : Side} (h : w.WatchedFor s)
    (hinterest : w'.interest s = w.interest s)
    (hout : (w'.shared.out s).contents.isEmpty = (w.shared.out s).contents.isEmpty) :
    w'.WatchedFor s := by
  rw [World.WatchedFor, hinterest, hout]
  exact h

/-- What was received goes behind what the peer's buffer holds, or there was too much in it
for that: either way it holds something. -/
theorem World.queue_nonempty {s : Side} {bytes : List UInt8} (hw : Open w) (hne : bytes ≠ [])
    (hlen : bytes.length ≤ 1024) : ((w.queue s bytes).shared.out s).contents ≠ [] := by
  by_cases hfit : bytes.length ≤ (w.shared.out s).free
  · rw [World.queue_contents hfit]
    exact List.append_ne_nil_of_right_ne_nil _ hne
  · rw [World.queue_full (by omega)]
    intro hempty
    have hcap := hw.capacity s
    have hfree : (w.shared.out s).free = outbuffsize := by
      rw [Ring.free, hcap, Ring.contents_eq_nil.mp hempty]
      rfl
    rw [hfree, outbuffsize] at hfit
    omega

/-- **The relay keeps its registrations.** The reader turns sending on at its peer, and whoever
drains its buffer turns it off again. -/
theorem Full.tuned (hw : Open w) (hd : ∀ s, w.mem (.data s) = .live) (ht : Tuned w)
    (hs : w.shared.state = .full) (hmods : w.modAnswer = true) (h : Full w e ev w') : Tuned w' := by
  have hwatched := ht.full hs
  have hfull : w'.shared.state = .full → (∀ s, w'.WatchedFor s) → Tuned w' := fun hs' h =>
    ⟨fun hq => by simp [hs'] at hq, fun hr => by simp [hs'] at hr, fun _ => h⟩
  have hpeer := hw.self_ne_peer hd e
  cases h with
  | idle hidle => exact ht
  | sendFailed hout => exact .of_other (.inr (.inr (.inl rfl)))
  | @sentPart k hout hk =>
    refine hfull hs fun s => (hwatched s).congr rfl ?_
    rcases s.eq_or_peer e with rfl | rfl
    · have hlen : k < (w.shared.out s).contents.length := by rwa [Ring.contents_length]
      have hsome : (w.shared.out s).contents ≠ [] := List.ne_nil_of_length_pos (by omega)
      have hleft : (w.shared.out s).contents.drop k ≠ [] := by simpa using hlen
      have hout : ((w.sentTo s k).shared.out s).contents = (w.shared.out s).contents.drop k := by
        simp
      rw [hout, Bool.eq_iff_iff, List.isEmpty_iff, List.isEmpty_iff]
      exact iff_of_false hleft hsome
    · simp [e.peer_ne]
  | @drained r w₁ hout hmod =>
    cases hmod with
    | failed hmod => exact .of_other (.inr (.inr (.inr rfl)))
    | done hmod hreg =>
      refine hfull hs fun s => ?_
      rcases s.eq_or_peer e with rfl | rfl
      · obtain ⟨sk, -, hsk, -⟩ := hreg
        have hinterest := World.interest_watched
          (w := (w.sentTo s (w.shared.out s).used).popMod) (s := s) (epollIn, some s)
          (Option.ne_none_iff_exists'.mpr ⟨sk, hsk⟩)
        rw [World.WatchedFor]
        refine hinterest.trans ?_
        simp [epollIn]
      · refine (hwatched _).congr ?_ ?_
        · exact World.interest_setInterest _ (by simpa using hpeer)
        · simp [e.peer_ne]
  | ended hin hout hrecv hr hmod =>
    refine .of_other (.inr (.inr (.inl ?_)))
    rw [hmod.shared]
    rfl
  | @received bytes b w₁ _ hin hout hrecv hne hmod =>
    have hw₁ := hrecv.open hw
    have hself : w.shared.fd e.peer = w.selfFd e.peer := (hw.self _ (hd _)).symm
    have hselves : w₁.selfFd = w.selfFd := by
      obtain ⟨fds, trace, rfl⟩ := hrecv.frame
      rfl
    have hptr : w.shared.data e.peer = some e.peer := by rw [hw.ptr, if_pos (hd _)]
    have hinterest : ∀ s, (w₁.queue e.peer bytes).interest s = w.interest s := by
      intro s
      simpa using hrecv.interest s
    have hsome := World.queue_nonempty (s := e.peer) hw₁ hne hrecv.length_le
    rw [hptr, hself] at hmod
    have hreg : (w₁.queue e.peer bytes).Registered (w.selfFd e.peer) := by
      have hi := (hinterest e.peer).trans (hwatched e.peer)
      rw [World.interest, World.queue_selfFd, hselves, Option.bind_eq_some_iff] at hi
      obtain ⟨sk, hsk, hi⟩ := hi
      exact ⟨sk, _, hsk, hi⟩
    cases hmod with
    | failed hmod =>
      have hfailed := hmod hreg
      rw [World.modAnswer_queue, hrecv.modAnswer, hmods] at hfailed
      cases hfailed
    | done hmod hreg =>
      refine hfull (by simpa [hrecv.shared] using hs) fun s => ?_
      rcases s.eq_or_peer e with rfl | rfl
      · refine (hwatched _).congr ?_ ?_
        · refine Eq.trans ?_ (hinterest s)
          refine World.interest_setInterest (w := (w₁.queue s.peer bytes).popMod) _ ?_
          simpa [hselves] using hpeer.symm
        · simp [World.queue_out_ne _ _ _ s.peer_ne.symm, hrecv.shared]
      · obtain ⟨sk, -, hsk, -⟩ := hreg
        have hopen : (w₁.queue e.peer bytes).popMod.fds
            ((w₁.queue e.peer bytes).popMod.selfFd e.peer) = some sk := by
          simpa [hselves] using hsk
        have hset := World.interest_watched (w := (w₁.queue e.peer bytes).popMod) (s := e.peer)
          (epollInOut, some e.peer) (Option.ne_none_iff_exists'.mpr ⟨sk, hopen⟩)
        rw [World.WatchedFor]
        simp only [World.popMod_selfFd, World.queue_selfFd, hselves] at hset
        refine hset.trans ?_
        have hout : (((w₁.queue e.peer bytes).popMod.setInterest (w.selfFd e.peer)
            (some (epollInOut, some e.peer))).shared.out e.peer).contents.isEmpty = false := by
          simpa [List.isEmpty_iff] using hsome
        rw [hout]
        rfl

end Handlers

/-! ### Events of the batch -/

/-- No event of the batch reports a descriptor ready for sending. -/
def World.Calm (w : World) : Prop :=
  ∀ fd s ev, .peer fd (some s) ev ∈ w.pending → ev.epollout = false

section Batch

variable {cfg : Configs} {w w' : World} {e : Side} {ev : Events} {f : Option Fault}

theorem World.Calm.asked (h : w.Calm) : w.Asked := fun fd s ev hmem hout => by
  rw [h fd s ev hmem] at hout
  cases hout

theorem World.Asked.congr (h : w.Asked) (hpending : ∀ ev, ev ∈ w'.pending → ev ∈ w.pending)
    (hinterest : ∀ s, w'.interest s = w.interest s) : w'.Asked := by
  intro fd s ev hmem hout
  rw [World.Sending, hinterest]
  exact h fd s ev (hpending _ hmem) hout

/-- A handler does not look at the batch. -/
theorem Effects.pending (h : Effects True w w') : w'.pending = w.pending :=
  h.invariant (P := fun v => v.pending = w.pending) (fun {v v'} hv he => by
    rw [← hv]
    cases he with
    | queue s bytes => simp
    | received hrecv =>
      obtain ⟨fds, trace, rfl⟩ := hrecv.frame
      rfl
    | _ => rfl) rfl

/-- Nothing else is ready for sending when a state that waits in quiet handles its event. -/
theorem Sane.calm (hs : Sane w) (hw : Open w) (ht : Tuned w) (ha : w.Asked)
    (hquiet : w.shared.state.quiet = true)
    (hserver : ∀ fd ev, .peer fd (some .server) ev ∈ w.pending → w.shared.state.early = true) :
    w.Calm := by
  intro fd s ev hmem
  by_contra hout
  have hsending := ha fd s ev hmem (by simpa using hout)
  cases s with
  | client => exact (ht.quiet hquiet).not_sending hsending
  | server =>
    obtain ⟨-, -, -, hnone⟩ := (hs.phase hw).early (hserver fd ev hmem)
    exact hnone ((hs.pend fd .server ev hmem).2 hw)

/-- The reply to the request does not concern the server's descriptor. -/
theorem SendingReply.server_interest (hw : Open w) (hd : w.mem (.data .server) = .live)
    (h : SendingReply w e ev w') (hopen : Open w') : w'.interest .server = w.interest .server := by
  have hsent : Open (w.sentFront 300) := by simpa [World.sentFront] using hw
  have hkept : (w.sentFront 300).watchRecv.interest .server = w.interest .server :=
    hsent.watchRecv_server hd
  cases h with
  | idle hidle => rfl
  | stopped h =>
    obtain ⟨k, rfl, -⟩ := h.tuned hopen
    rfl
  | refused hmod hrep => exact absurd hopen (not_open_hungUp _ _)
  | connected hmod hrep hcmd => exact hkept
  | listening hmod hrep hcmd hstate => exact hkept
  | associated hmod hrep hcmd => exact hkept
  | odd hmod hrep hcmd hbind => exact hkept

/-- In the relay an event for one end never ends the watch for sending on the other. -/
theorem Full.sending (hw : Open w) (hd : ∀ s, w.mem (.data s) = .live) (h : Full w e ev w')
    (hsending : w.Sending e.peer) : w'.Sending e.peer := by
  have hpeer := hw.self_ne_peer hd e
  have hself : w.shared.fd e.peer = w.selfFd e.peer := (hw.self _ (hd _)).symm
  have hreceived : ∀ {fd n r w₁}, Recv w fd n r w₁ → w₁.interest e.peer = w.interest e.peer ∧
      w₁.selfFd = w.selfFd := by
    intro fd n r w₁ hrecv
    refine ⟨hrecv.interest _, ?_⟩
    obtain ⟨fds, trace, rfl⟩ := hrecv.frame
    rfl
  have hmodified : ∀ (w₁ : World) {w₂ : World} {b : Bool}, w₁.interest e.peer = w.interest e.peer →
      w₁.selfFd = w.selfFd →
      Modified w₁ (w.shared.fd e.peer) (epollInOut, w.shared.data e.peer) b w₂ →
        w₂.Sending e.peer := by
    intro w₁ w₂ b hinterest hselves hmod
    rw [hself] at hmod
    cases hmod with
    | failed hmod =>
      have hkept : w₁.popMod.interest e.peer = w.interest e.peer := hinterest
      rw [World.Sending, hkept]
      exact hsending
    | done hmod hreg =>
      obtain ⟨sk, -, hsk, -⟩ := hreg
      have hopen : w₁.popMod.fds (w₁.popMod.selfFd e.peer) = some sk := by simpa [hselves] using hsk
      have hset := World.interest_watched (w := w₁.popMod) (s := e.peer)
        (epollInOut, w.shared.data e.peer) (Option.ne_none_iff_exists'.mpr ⟨sk, hopen⟩)
      rw [World.popMod_selfFd, hselves] at hset
      rw [World.Sending, hset]
      rfl
  cases h with
  | idle hidle => exact hsending
  | sendFailed hout => exact hsending
  | sentPart hout hk => exact hsending
  | @drained r w₁ hout hmod =>
    have hkept : w₁.interest e.peer = w.interest e.peer := by
      cases hmod with
      | done hmod hreg => exact World.interest_setInterest _ (by simpa using hpeer)
      | failed hmod => rfl
    rw [World.Sending, ← hkept] at hsending
    cases r <;> exact hsending
  | ended hin hout hrecv hr hmod =>
    obtain ⟨hinterest, hselves⟩ := hreceived hrecv
    exact hmodified _ (by exact hinterest) (by exact hselves) hmod
  | received hin hout hrecv hne hmod =>
    obtain ⟨hinterest, hselves⟩ := hreceived hrecv
    exact hmodified _ (by simpa using hinterest) (by simpa using hselves) hmod

/-! ### Inputs -/

/-- The invariant, of an open connection. -/
def World.Watchful (w : World) : Prop := Open w → Tuned w ∧ w.Asked

/-- No `epoll_ctl` call fails. -/
def EpollSucceeds (_ : World) (i : Input) : Prop :=
  match i with
  | .handle ans => ans.epollAdd = true ∧ ∀ b ∈ ans.epollMod, b = true
  | _ => True

instance (w : World) (i : Input) : Decidable (EpollSucceeds w i) :=
  match i with
  | .handle ans => inferInstanceAs (Decidable (ans.epollAdd = true ∧ ∀ b ∈ ans.epollMod, b = true))
  | .arrive _ _ | .finish _ | .resolved _ _ | .poll _ => .isTrue trivial

theorem EpollSucceeds.modAnswer {ans : Answers} (h : EpollSucceeds w (.handle ans))
    (rest : List Event) : (w.taken rest ans).modAnswer = true := by
  show ans.epollMod.headD true = true
  cases hmods : ans.epollMod with
  | nil => rfl
  | cons b bs => exact h.2 b (by simp [hmods])

/-- What an event leaves of the invariant, when the other events of the batch are for the other
end. -/
theorem Handled.watchful (hs : Sane w) (hw : Open w) (hd : w.mem (.data e) = .live)
    (ht : Tuned w) (ha : w.Asked)
    (hothers : ∀ fd s ev', .peer fd (some s) ev' ∈ w.pending → s ≠ e) (hmods : w.modAnswer = true)
    (hasked : ev.epollout = true → w.Sending e) (hwant : w.Wants e ev)
    (h : Handled cfg w e ev f w') : w'.Watchful := by
  intro hopen
  have hp := hs.phase hw
  have hpending : w'.pending = w.pending := (h.effects hw hs hd fun _ => trivial).pending
  have hcalm : w.shared.state.quiet = true → (e = .client → w.shared.state.early = true) →
    w'.Asked := by
    intro hquiet hearly
    refine World.Calm.asked ?_
    rw [World.Calm, hpending]
    refine hs.calm hw ht ha hquiet fun fd ev' hmem => hearly ?_
    have hne := hothers fd .server ev' hmem
    cases e with
    | client => rfl
    | server => exact absurd rfl hne
  have hkeep : (∀ s, s ≠ e → w.Sending s → w'.Sending s) → w'.Asked := by
    intro hkeep fd s ev' hmem hout
    rw [hpending] at hmem
    exact hkeep s (hothers fd s ev' hmem) (ha fd s ev' hmem hout)
  cases h with
  | still hstate => exact ⟨ht, ha⟩
  | waitingMethods hstate h =>
    have hquiet := ht.quiet (by simp [hstate])
    refine ⟨?_, hcalm (by simp [hstate]) fun _ => by simp [hstate]⟩
    cases h with
    | idle hidle => exact ht
    | ended hrecv hr => exact absurd hopen (not_open_hungUp _ _)
    | part hrecv hgot hpart =>
      refine .of_quiet (by simp [hrecv.shared, hstate]) (hquiet.congr ?_)
      simpa using hrecv.interest .client
    | badVersion hrecv hgot hcomplete hversion => exact absurd hopen (not_open_hungUp _ _)
    | unwatched hrecv hgot hcomplete hversion hmod => exact absurd hopen (not_open_hungUp _ _)
    | chosen hrecv hgot hcomplete hversion hmod => exact .of_other (.inl rfl)
  | sendingMethod hstate h =>
    refine ⟨h.tuned hw hstate hopen, ?_⟩
    simp only [World.Wants, hstate] at hwant
    obtain ⟨-, -, -, hnone⟩ := hp.early (by simp [hstate])
    intro fd s ev' hmem hout
    rw [hpending] at hmem
    have hlive := (hs.pend fd s ev' hmem).2 hw
    have hne := hothers fd s ev' hmem
    cases s with
    | client => exact absurd hwant.2.symm hne
    | server => exact absurd hlive hnone
  | waitingCommand hstate h =>
    obtain ⟨-, hsa, hret, -⟩ := hp.early (by simp [hstate])
    have hidle : w.dns = .idle := not_not.mp fun hne => by
      have hasync := (hs.dns hne).2
      rw [hstate] at hasync
      cases hasync
    have hai := hp.ai (by simp [hstate]) (by simp [hidle])
    exact ⟨h.tuned hw hstate (ht.quiet (by simp [hstate])) hsa (fun _ => hai) hopen,
      hcalm (by simp [hstate]) fun _ => by simp [hstate]⟩
  | sendingReply hstate h =>
    have hreplying : w.shared.state.replying = true := by rcases hstate with hs | hs <;> simp [hs]
    obtain ⟨hout, rfl⟩ : ev.epollout = true ∧ e = .client := by
      rcases hstate with hs | hs <;> simpa [World.Wants, hs] using hwant
    refine ⟨h.tuned hw hp ht hreplying (hasked hout) hopen, ?_⟩
    intro fd s ev' hmem hout'
    rw [hpending] at hmem
    have hne := hothers fd s ev' hmem
    cases s with
    | client => exact absurd rfl hne
    | server =>
      have hlive := (hs.pend fd .server ev' hmem).2 hw
      rw [World.Sending, h.server_interest hw hlive hopen]
      exact ha fd .server ev' hmem hout'
  | connecting hstate h =>
    simp only [World.Wants, hstate] at hwant
    refine ⟨h.tuned hstate (ht.quiet (by simp [hstate])) hopen,
      hcalm (by simp [hstate]) fun hc => ?_⟩
    rw [hwant.2] at hc
    cases hc
  | bindListening hstate h =>
    simp only [World.Wants, hstate] at hwant
    refine ⟨h.tuned hw hstate (ht.quiet (by simp [hstate])) hopen,
      hcalm (by simp [hstate]) fun hc => ?_⟩
    rw [hwant.2] at hc
    cases hc
  | full hstate h =>
    have hlive : ∀ s, w.mem (.data s) = .live := fun s => by
      cases s with
      | client => exact hw.client
      | server => exact hp.server (.inr (.inl hstate))
    refine ⟨h.tuned hw hlive ht hstate hmods, hkeep fun s hne hsending => ?_⟩
    rcases s.eq_or_peer e with rfl | rfl
    · exact absurd rfl hne
    · exact h.sending hw hlive hsending
  | halfClose hstate =>
    exact ⟨.of_other (.inr (.inr (.inr rfl))), ha.congr (fun _ h => h) fun _ => rfl⟩
  | closed hstate => exact absurd hopen (not_open_released _ _)

theorem World.Watchful.congr (h : w.Watchful) (hopen : Open w' → Open w)
    (hstate : w'.shared.state = w.shared.state) (hrep : w'.info.rep = w.info.rep)
    (hout : w'.shared.out = w.shared.out) (hinterest : ∀ s, w'.interest s = w.interest s)
    (hpending : ∀ ev, ev ∈ w'.pending → ev ∈ w.pending) : w'.Watchful := fun hw =>
  ⟨(h (hopen hw)).1.congr hstate hrep hout hinterest, (h (hopen hw)).2.congr hpending hinterest⟩

theorem World.interest_outside {fds : Int → Option Sock}
    (hfds : ∀ fd, (fds fd).map Sock.interest = (w.fds fd).map Sock.interest) (s : Side) :
    { w with fds := fds }.interest s = w.interest s := by
  have hbind := congrArg (fun o => o.bind id) (hfds (w.selfFd s))
  simpa [World.interest, Option.bind_map] using hbind

theorem World.Watchful.outside {fds : Int → Option Sock} (hs : Sane w) (h : w.Watchful)
    (hfds : ∀ fd, (fds fd).map Sock.interest = (w.fds fd).map Sock.interest) :
    { w with fds := fds }.Watchful :=
  h.congr (fun hopen => hs.open_of_info hopen.infoPtr) rfl rfl rfl (w.interest_outside hfds)
    fun _ hmem => hmem

/-- What a batch reports is asked for. -/
theorem World.LegalBatch.asked {batch : List Event} (hs : Sane w) (h : w.LegalBatch batch) :
    (w.polled batch).Asked := by
  intro fd s ev hmem hout
  obtain ⟨sk, evs, hsk, hi, -, hinterest⟩ := h.1 _ hmem
  obtain ⟨rfl, -⟩ := hs.regs fd sk evs s hsk hi
  have hwatched : (w.polled batch).interest s = some (evs, some s) := by
    simp [World.interest, hsk, hi]
  simp [World.Sending, hwatched, hinterest hout]

/-- **No input loses a registration.** -/
theorem World.Watchful.stepped {i : Input} (hs : Sane w) (h : w.Watchful) (hok : EpollSucceeds w i)
    (hstep : Stepped cfg w i f w') : w'.Watchful := by
  cases hstep with
  | @arrive fd bytes =>
    obtain ⟨fds, heq, hfds⟩ := w.arrived_interest fd bytes
    rw [heq]
    exact h.outside hs hfds
  | @finish fd =>
    obtain ⟨fds, heq, hfds⟩ := w.finished_interest fd
    rw [heq]
    exact h.outside hs hfds
  | unasked hdns => exact h
  | resolved hdns =>
    exact h.congr (fun hopen => hs.open_of_info hopen.infoPtr) rfl rfl rfl (fun _ => rfl)
      fun _ hmem => hmem
  | unpolled => exact h
  | polled hpending hlegal =>
    intro hopen
    obtain ⟨ht, -⟩ := h (hopen.frame rfl id)
    exact ⟨ht.congr rfl rfl rfl fun _ => rfl, hlegal.asked hs⟩
  | waiting hpending => exact h
  | @handled ans event rest _ _ hpending hd =>
    have htaken := hs.taken hpending ans
    have hmods := hok.modAnswer (w := w) rest
    have hleft : ∀ event, event ∈ rest → event ∈ w.pending := fun event hmem => by
      rw [hpending]
      exact List.mem_cons_of_mem _ hmem
    have hw₁ : (w.taken rest ans).Watchful :=
      h.congr (fun hw => hw.frame rfl id) rfl rfl rfl (fun _ => rfl) hleft
    cases hd with
    | ignored => exact hw₁
    | stale hgone => exact hw₁
    | masked hd hev => exact hw₁
    | @handled fd e ev _ _ hw hd hh hwant =>
      rcases hwant with rfl | hwant
      · exact hw₁
      · obtain ⟨ht, ha⟩ := hw₁ hw
        refine hh.watchful htaken hw hd ht ha ?_ hmods ?_ hwant
        · exact fun fd' s ev' hmem => hs.others_ne hpending hmem
        · obtain ⟨-, hasked⟩ := h (hw.frame rfl id)
          exact hasked fd e ev (by simp [hpending])
    | shut hw hd => exact fun hopen => absurd hopen (not_open_released _ _)
    | quiet hdns => exact hw₁
    | @resolver gaiRet _ _ hw hdns hc =>
      intro hopen
      obtain ⟨ht, ha⟩ := hw₁ hw
      have hasync := (htaken.dns (by rw [hdns]; simp)).2
      have hearly : (w.taken rest ans).shared.state.early = true := by rw [hasync]; rfl
      have hp := htaken.phase hw
      obtain ⟨-, hsa, -, -⟩ := hp.early hearly
      have hai : gaiRet ≠ 0 → (w.taken rest ans).info.ai = [] := fun hret =>
        hp.ai hearly fun r hr => by
          rw [hdns] at hr
          cases hr
          exact hret
      have hclient := ht.quiet (by rw [hasync]; rfl)
      have heffects : Effects True ((w.taken rest ans).resumed gaiRet) w' :=
        hc.effects (hw.resumed gaiRet) rfl rfl hsa hai (fun _ _ => trivial) fun _ _ _ => trivial
      refine ⟨hc.tuned (hw.resumed gaiRet) rfl hclient hsa hai hopen, World.Calm.asked ?_⟩
      rw [World.Calm, heffects.pending]
      exact htaken.calm hw ht ha (by rw [hasync]; rfl) fun _ _ _ => hearly

theorem newClient_watchful (fd : Int) (ss : SockAddr) (bufs : Side → OutBuff) :
    (newClient fd ss bufs).Watchful := by
  refine fun _ => ⟨.of_quiet rfl ?_, fun _ _ _ hmem => by cases hmem⟩
  simp [World.Receiving, World.interest, newClient]

/-- The relay runs on an open connection, also where a handler met a released object. -/
theorem Stepped.open_of_full {i : Input} (hs : Sane w) (h : Stepped cfg w i f w')
    (hfull : w'.shared.state = .full) : Open w' := by
  have hsane : ∀ {v : World}, Sane v → v.shared.state = .full → Open v := by
    intro v hv hfull
    refine hv.conn.resolve_right fun hshut => ?_
    rw [hshut.state] at hfull
    cases hfull
  cases f with
  | none => exact hsane (h.sane hs) hfull
  | some f =>
    cases h with
    | handled hpending hd =>
      cases hd with
      | stale hgone => exact hsane (hs.taken hpending _) hfull
      | handled hw hd hh hwant =>
        cases hh with
        | waitingCommand hstate hc =>
          rcases hc.state hw hstate with (hs | hs) | hs | hs | hs <;> simp [hs] at hfull
      | resolver hw hdns hc =>
        rcases hc.state (hw.resumed _) rfl with (hs | hs) | hs | hs | hs <;> simp [hs] at hfull

/-- **No wakeup of the relay is lost.** In every run in which no `epoll_ctl` call fails, while
the relay runs each descriptor is watched for receiving, and for sending iff its buffer is not
empty; so an event that reports a descriptor ready for sending always finds bytes to send. -/
theorem relay_watched {fd : Int} {ss : SockAddr} {bufs : Side → OutBuff} {mallocs epollAdd : Bool}
    {w₀ : World} {is : List Input} (hw₀ : acceptNewClient fd ss bufs mallocs epollAdd = some w₀)
    (hmeets : Lib.Meets (step cfg) EpollSucceeds is w₀)
    (hfull : (Lib.run (step cfg) is w₀).state.shared.state = .full) :
    (∀ s, (Lib.run (step cfg) is w₀).state.WatchedFor s) ∧
      ∀ fd s ev, .peer fd (some s) ev ∈ (Lib.run (step cfg) is w₀).state.pending →
        ev.epollout = true → ((Lib.run (step cfg) is w₀).state.shared.out s).contents ≠ [] := by
  have hsane := acceptNewClient_sane hw₀
  obtain ⟨-, rfl⟩ := acceptNewClient_eq hw₀
  obtain ⟨hwatchful, hopen⟩ := run_invariant (C := EpollSucceeds)
    (P := fun v => v.Watchful ∧ (v.shared.state = .full → Open v)) hsane
    ⟨newClient_watchful fd ss bufs, fun hfull => by cases hfull⟩ hmeets fun hs h hok hstep =>
      ⟨h.1.stepped hs hok hstep, hstep.open_of_full hs⟩
  obtain ⟨ht, hasked⟩ := hwatchful (hopen hfull)
  have hwatched := ht.full hfull
  refine ⟨hwatched, fun fd s ev hmem hout => ?_⟩
  exact (hwatched s).sending_iff.mp (hasked fd s ev hmem hout)

end Batch

/-- The server sends to a client that takes a part of it. -/
def relayPart : List Input :=
  [.arrive 6 [104, 101, 108, 108, 111], .poll [.peer 6 (some .server) epollIn],
    .handle { Answers.idle with recv := some 5 }, .poll [.peer 5 (some .client) epollOut],
    .handle { Answers.idle with send := some 2 }, .poll [.peer 5 (some .client) epollOut]]

theorem relay_watched_part :
    (Lib.run (step openConfigs) (literalConnect ++ connectDone ++ relayPart)
      (newClient 5 (.inet ![4, 0] ![127, 0, 0, 1]) fun _ => .zero)).state.WatchedFor .client := by
  have haccept : acceptNewClient 5 (.inet ![4, 0] ![127, 0, 0, 1]) (fun _ => .zero) true true =
      some (newClient 5 (.inet ![4, 0] ![127, 0, 0, 1]) fun _ => .zero) := rfl
  have hrun : Lib.Meets (step openConfigs) EpollSucceeds
    (literalConnect ++ connectDone ++ relayPart)
        (newClient 5 (.inet ![4, 0] ![127, 0, 0, 1]) fun _ => .zero) ∧
      (Lib.run (step openConfigs) (literalConnect ++ connectDone ++ relayPart)
        (newClient 5 (.inet ![4, 0] ![127, 0, 0, 1]) fun _ => .zero)).state.shared.state =
          .full := by
    decide +kernel
  exact (relay_watched haccept hrun.1 hrun.2).1 .client

end Socksprox
