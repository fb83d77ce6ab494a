import Socksprox.Trace
import Mathlib.Logic.Relation

/-!
Every input as a sequence of small effects. An invariant that each effect keeps is kept by
every handler, without a look at the handlers again.

An effect carries what its handler knew: that a state in which replies are sent was left
with nothing to send, or that a registered descriptor was registered before or does not
block. Two places register a descriptor that may block; their effect is only there when
`blocking` holds.
-/

namespace Socksprox

/-! ### Effects -/

/-- The states in which `client_out` is being sent. -/
def State.sending : State → Bool
  | .sendingMethod | .sendingReply | .sendingReply2 => true
  | _ => false

/-- A state in which replies are sent is left for `closed`, or when all of them are out. -/
def World.MayEnter (w : World) (st : State) : Prop :=
  w.shared.state.sending = true →
    st = .closed ∨ st = w.shared.state ∨ (w.shared.out .client).contents = []

/-- Acts that are notes on what the server decides: they change nothing else. -/
def Act.isNote : Act → Bool
  | .firewall _ | .resolve _ | .invoked _ | .connect .. | .accepted .. => true
  | _ => false

inductive Effect (blocking : Prop) (w : World) : World → Prop where
  | note (a : Act) (ha : a.isNote = true) : Effect blocking w (w.emit a)
  | state (st : State) (hst : w.MayEnter st) : Effect blocking w (w.setState st)
  | info (info : Info) (hsa : info.sa = w.info.sa) (hai : info.ai = w.info.ai) :
      Effect blocking w (w.setInfo info)
  | address (req : List UInt8) (hw : Open w) : Effect blocking w (w.addrStored req)
  | asked (hidle : w.dns = .idle) : Effect blocking w w.asked
  | popMod : Effect blocking w w.popMod
  | noted (ss : SockAddr) : Effect blocking w (w.noted ss)
  | flagged (s : Side) (flag : UInt8) : Effect blocking w (w.flagged s flag)
  | queue (s : Side) (bytes : List UInt8) : Effect blocking w (w.queue s bytes)
  | drop (n : Nat) : Effect blocking w (w.drop .server n)
  | received {fd : Int} {n : Nat} {r : Option (List UInt8)} {w' : World}
      (h : Recv w fd n r w') : Effect blocking w w'
  | sent (s : Side) (k : Nat) (hw : Open w) (hd : w.mem (.data s) = .live) :
      Effect blocking w (w.sentTo s k)
  | sendFailed (fd : Int) : Effect blocking w (w.emit (.sendFailed fd))
  | watched (fd : Int) (i : Events × Option Side) (hreg : w.Registered fd) :
      Effect blocking w (w.setInterest fd (some i))
  | added (fd : Int) (i : Events × Option Side)
      (hnonblock : ∀ sk, w.fds fd = some sk → sk.nonblock = true ∨ blocking) :
      Effect blocking w (w.setInterest fd (some i))
  | opened (fd : Int) (nonblock : Bool) (hnew : w.fds fd = none) :
      Effect blocking w (w.opened fd nonblock)
  | shutFd (fd : Int) : Effect blocking w (w.setFd fd none)
  | linked (sfd : Int) : Effect blocking w (w.linkServer sfd)
  | rehomed (newFd : Int) : Effect blocking w (w.rehomed newFd)
  | released (e : Side) : Effect blocking w (w.released e)

/-- One effect after the other. -/
def Effects (blocking : Prop) : World → World → Prop :=
  Relation.ReflTransGen (Effect blocking)

variable {blocking : Prop}

/-- **The invariant rule for effects.** -/
theorem Effects.invariant {P : World → Prop} {w w' : World}
    (hstep : ∀ {w w'}, P w → Effect blocking w w' → P w') (h : Effects blocking w w') (hP : P w) :
    P w' := by
  induction h with
  | refl => exact hP
  | tail _ heffect ih => exact hstep ih heffect

namespace Effects

variable {w w₁ w₂ w' : World}

theorem refl (w : World) : Effects blocking w w := Relation.ReflTransGen.refl

theorem trans (h : Effects blocking w w₁) (h' : Effects blocking w₁ w') : Effects blocking w w' :=
  Relation.ReflTransGen.trans h h'

theorem snoc (h : Effects blocking w w₁) (he : Effect blocking w₁ w') : Effects blocking w w' :=
  Relation.ReflTransGen.tail h he

theorem emit (h : Effects blocking w w₁) (a : Act) (ha : a.isNote = true) :
    Effects blocking w (w₁.emit a) := h.snoc (.note a ha)

theorem setState (h : Effects blocking w w₁) (st : State) (hst : w₁.MayEnter st) :
    Effects blocking w (w₁.setState st) := h.snoc (.state st hst)

theorem setInfo {info : Info} (h : Effects blocking w w₁) (hsa : info.sa = w₁.info.sa)
    (hai : info.ai = w₁.info.ai) : Effects blocking w (w₁.setInfo info) :=
  h.snoc (.info info hsa hai)

theorem setRep (h : Effects blocking w w₁) (rep : UInt8) : Effects blocking w (w₁.setRep rep) :=
  h.setInfo rfl rfl

theorem popMod (h : Effects blocking w w₁) : Effects blocking w w₁.popMod := h.snoc .popMod

theorem noted (h : Effects blocking w w₁) (ss : SockAddr) : Effects blocking w (w₁.noted ss) :=
  h.snoc (.noted ss)

theorem flagged (h : Effects blocking w w₁) (s : Side) (flag : UInt8) :
    Effects blocking w (w₁.flagged s flag) := h.snoc (.flagged s flag)

theorem queue (h : Effects blocking w w₁) (s : Side) (bytes : List UInt8) :
    Effects blocking w (w₁.queue s bytes) := h.snoc (.queue s bytes)

theorem drop (h : Effects blocking w w₁) (n : Nat) : Effects blocking w (w₁.drop .server n) :=
  h.snoc (.drop n)

theorem recv {fd : Int} {n : Nat} {r : Option (List UInt8)} (h : Effects blocking w w₁)
    (hrecv : Recv w₁ fd n r w₂) : Effects blocking w w₂ := h.snoc (.received hrecv)

theorem opened (h : Effects blocking w w₁) {fd : Int} (hnew : w₁.fds fd = none) (nonblock : Bool) :
    Effects blocking w (w₁.opened fd nonblock) := h.snoc (.opened fd nonblock hnew)

theorem shutFd (h : Effects blocking w w₁) (fd : Int) : Effects blocking w (w₁.setFd fd none) :=
  h.snoc (.shutFd fd)

theorem linked (h : Effects blocking w w₁) (sfd : Int) : Effects blocking w (w₁.linkServer sfd) :=
  h.snoc (.linked sfd)

theorem added (h : Effects blocking w w₁) {fd : Int} {i : Events × Option Side}
    (hnonblock : ∀ sk, w₁.fds fd = some sk → sk.nonblock = true ∨ blocking) :
    Effects blocking w (w₁.setInterest fd (some i)) := h.snoc (.added fd i hnonblock)

theorem modified {fd : Int} {i : Events × Option Side} {r : Bool} (h : Effects blocking w w₁)
    (hmod : Modified w₁ fd i r w₂) : Effects blocking w w₂ := by
  cases hmod with
  | done hmod hreg => exact h.popMod.snoc (.watched fd i hreg)
  | failed hmod => exact h.popMod

theorem watchSend (h : Effects blocking w w₁) (hw : Open w₁) : Effects blocking w w₁.watchSend :=
  h.popMod.snoc (.watched _ _ hw.registered)

theorem watchRecv (h : Effects blocking w w₁) (hw : Open w₁) : Effects blocking w w₁.watchRecv :=
  h.popMod.snoc (.watched _ _ hw.registered)

theorem hungUp (h : Effects blocking w w₁) (e : Side) : Effects blocking w (w₁.hungUp e) :=
  (h.setState .closed fun _ => .inl rfl).snoc (.released e)

end Effects

/-! ### Error replies -/

section Handlers

variable {cfg : Configs} {e : Side} {ev : Events} {w w' : World}

theorem ReplyLost.effects (h : ReplyLost w e w') : Effects blocking w w' := by
  cases h with
  | noRoom hroom => exact ((Effects.refl w).setRep _).hungUp e
  | unwatched hroom hmod => exact (((Effects.refl w).setRep _).queue _ _).popMod.hungUp e

theorem effects_errReplied (hw : Open w)
    (hs : w.shared.state.sending = true → w.shared.state = .sendingReply) :
    Effects blocking w w.errReplied := by
  refine ((((Effects.refl w).setRep _).queue _ _).watchSend (by simpa using hw)).setState _ ?_
  intro hsending
  have hstate := hs (by simpa using hsending)
  exact .inr (.inl (by simpa using hstate.symm))

theorem ReplyWithErr.effects (hw : Open w)
    (hs : w.shared.state.sending = true → w.shared.state = .sendingReply)
    (h : ReplyWithErr w e w') : Effects blocking w w' := by
  cases h with
  | replied hroom hmod => exact effects_errReplied hw hs
  | lost h => exact h.effects

/-- A handler that ends in an error reply. -/
theorem Effects.answer {w₁ : World} {rep : UInt8} (h : Effects blocking w w₁) (hw₁ : Open w₁)
    (hs : w₁.shared.state.sending = true → w₁.shared.state = .sendingReply)
    (hr : ReplyWithErr (w₁.setRep rep) e w') : Effects blocking w w' :=
  (h.setRep rep).trans (hr.effects (open_setRep.mpr hw₁) hs)

/-! ### The request -/

section Commands

variable {f : InitFn} {a : Option ReplyAddr} {r : Bool}

theorem FinishReply.effects (hw : Open w) (h : FinishReply w a r w') : Effects blocking w w' := by
  cases h with
  | skipped => exact .refl w
  | sent hmod =>
    refine ((((Effects.refl w).queue _ _).queue _ _).queue _ _).watchSend ?_
    simpa [World.queueAddr] using hw
  | unwatched hmod => exact ((((Effects.refl w).queue _ _).queue _ _).queue _ _).popMod

theorem OpenConnect.effects {dst : SockAddr} {r : Option Int} (h : OpenConnect w dst r w') :
    Effects blocking w w' := by
  cases h with
  | noSocket => exact (Effects.refl w).setRep _
  | refused hans hpos hnew herr => exact (((Effects.refl w).opened hnew _).emit _ rfl).setRep _
  | started hans hpos hnew hok => exact ((Effects.refl w).opened hnew _).emit _ rfl

theorem FirstAttempt.effects {r : Option Int} (h : FirstAttempt w r w') :
    Effects blocking w w' := by
  cases h with
  | unsupported hsa => exact .refl w
  | literal hsa h => exact h.effects
  | resolvedFailed hsa hai h => exact h.effects
  | resolved hsa hai h => exact h.effects.setInfo rfl rfl

/-- The literal address of the request is of a family the server has code for. -/
def Info.Supported (info : Info) : Prop := ∀ f data ne, info.sa ≠ some (.other f data ne)

/-- The descriptor of an attempt does not block. -/
theorem FirstAttempt.nonblock {sfd : Int} (hsa : w.info.Supported)
    (h : FirstAttempt w (some sfd) w') : ∀ sk, w'.fds sfd = some sk → sk.nonblock = true := by
  have hopen : ∀ {w'' dst}, OpenConnect w dst (some sfd) w'' →
      ∀ sk, w''.fds sfd = some sk → sk.nonblock = true := by
    intro w'' dst ho sk hsk
    cases ho
    obtain rfl : _ = sk := by simpa using hsk
    rfl
  cases h with
  | unsupported hother => exact absurd hother (hsa _ _ _)
  | literal _ ho => exact hopen ho
  | resolved _ _ ho => exact fun sk hsk => hopen ho sk hsk

/-- A request that reaches the server's side is not being answered, or has no address. -/
def World.Ready (w : World) : Prop :=
  w.shared.state.sending = false ∨
    w.shared.state = .sendingReply ∧ w.info.sa = none ∧ w.info.ai = []

theorem World.Ready.sending (h : w.Ready) (hs : w.shared.state.sending = true) :
    w.shared.state = .sendingReply := by
  rcases h with h | h
  · rw [h] at hs
    cases hs
  · exact h.1

theorem InitConnect.effects (hsa : w.info.Supported) (hready : w.Ready) (h : InitConnect w w') :
    Effects blocking w w' := by
  have hcalled : Effects blocking w (w.emit (.invoked .connect)) := (Effects.refl w).emit _ rfl
  cases h with
  | noAddr hai hnone => exact hcalled.setRep _
  | notOpened h => exact hcalled.trans h.effects
  | noMemory h hmalloc => exact (hcalled.trans h.effects).setRep _
  | unwatched h => exact (((hcalled.trans h.effects).linked _).drop _).setRep _
  | connecting h =>
    refine ((((hcalled.trans h.effects).linked _).drop _).added fun sk hsk => ?_).setState _ ?_
    · exact .inl (h.nonblock (by simpa using hsa) sk hsk)
    · intro hsending
      have hstate : w.shared.state.sending = true := by simpa [h.shared] using hsending
      rcases hready with hidle | ⟨-, hnone, hai⟩
      · rw [hidle] at hstate
        cases hstate
      · have haddr := h.addr
        simp [hnone, hai] at haddr

theorem effects_listenStarted {sfd : Int} (hnew : w.fds sfd = none) :
    Effects blocking w (w.listenStarted f sfd) :=
  (((((Effects.refl w).emit _ rfl).opened hnew _).linked _).setRep _).queue _ _

/-- The relay socket of UDP ASSOCIATE may block, and it is registered. -/
theorem InitListen.effects (hw : Open w) (hready : w.Ready)
    (hudpa : f ≠ .bind → w.ans.socket ≠ none → w.ans.epollAdd = true → blocking)
    (h : InitListen cfg f w w') : Effects blocking w w' := by
  have hcalled : Effects blocking w (w.emit (.invoked f)) := (Effects.refl w).emit _ rfl
  have henter : ∀ {w₂ : World}, w₂.shared.state = w.shared.state → w₂.MayEnter .sendingReply := by
    intro w₂ hstate hsending
    rw [hstate] at hsending
    exact .inr (.inl (by rw [hstate, hready.sending hsending]))
  have hstate : ∀ {sfd a r w₂}, FinishReply (w.listenStarted f sfd) a r w₂ →
      w₂.shared.state = w.shared.state := by
    intro sfd a r w₂ h
    obtain ⟨-, -, -, -, hs⟩ := h.server
    rw [hs]
    simp [World.listenStarted, World.queueHead]
  cases h with
  | notOpened => exact hcalled.setRep _
  | failed haddr hnew hrep => exact ((hcalled.opened hnew _).setRep _).shutFd _
  | unnamed haddr hnew => exact (((hcalled.opened hnew _).linked _).setRep _).shutFd _
  | unanswered haddr hnew ha h =>
    exact ((effects_listenStarted hnew).trans (h.effects (hw.listenStarted hnew))).setRep _
  | unlistened haddr hnew ha h =>
    have hs := hstate h
    exact ((((effects_listenStarted hnew).trans
      (h.effects (hw.listenStarted hnew))).drop _).setRep _).setState _ (henter hs)
  | @listening sfd a w₂ haddr hnew ha h hans hadd =>
    have hs := hstate h
    refine ((((effects_listenStarted hnew).trans
      (h.effects (hw.listenStarted hnew))).drop _).added fun sk hsk => ?_).setState _ (henter hs)
    have hfds : w₂.fds sfd = (w.listenStarted f sfd).fds sfd ∨ sfd = w.shared.fd .client := by
      by_cases hfd : sfd = w.shared.fd .client
      · exact .inr hfd
      · refine .inl ?_
        cases h <;> simp [World.queueAddr, World.listenStarted, World.queueHead, hfd]
    rcases hfds with hfds | hfd
    · have hsk' : (w.listenStarted f sfd).fds sfd = some sk := by
        rw [← hfds]
        exact hsk
      obtain rfl : _ = sk := by simpa [World.listenStarted, World.queueHead] using hsk'
      by_cases hf : f = .bind
      · exact .inl (by simp [hf])
      · exact .inr (hudpa hf (by simp [hans]) hadd)
    · exact absurd hfd (hw.ne_client hnew)

/-- The command is UDP ASSOCIATE, it is switched on, and the kernel gives a socket for it and
registers it. -/
def World.Associates (cfg : Configs) (w : World) : Prop :=
  w.info.cmd = cmdUdpa ∧ cfg.allowUdpassoc = true ∧ w.ans.socket ≠ none ∧ w.ans.epollAdd = true

theorem Init.effects (hw : Open w) (hsa : w.info.Supported) (hready : w.Ready)
    (hudpa : w.Associates cfg → blocking) (h : Init cfg w w') : Effects blocking w w' := by
  cases h with
  | connect hcmd hallow h => exact h.effects hsa hready
  | bind hcmd hallow h => exact h.effects hw hready fun hne => absurd rfl hne
  | udpa hcmd hallow h =>
    exact h.effects hw hready fun _ hans hadd => hudpa ⟨hcmd, hallow, hans, hadd⟩

theorem Init.state (hready : w.Ready) (h : Init cfg w w')
    (hs : w'.shared.state.sending = true) : w'.shared.state = .sendingReply := by
  obtain ⟨f, hdoes, -, -⟩ := h.does_invoked
  rcases hdoes.state with heq | hin
  · have hstate : w'.shared.state = w.shared.state := heq
    rw [hstate] at hs ⊢
    exact hready.sending hs
  · generalize w'.shared.state = st at *
    cases st <;> first | rfl | exact absurd hin (by decide) | cases hs

theorem CommandDone.effects {o : Obj} {f : Option Fault} (hw : Open w) (hsa : w.info.Supported)
    (hready : w.Ready) (hudpa : w.Associates cfg → blocking) (h : CommandDone cfg w o f w') :
    Effects blocking w w' := by
  have hset : Effects blocking w (w.setRep repBadcomm) := (Effects.refl w).setRep _
  have hopen : Open (w.setRep repBadcomm) := open_setRep.mpr hw
  cases h with
  | refusedLost hno h => exact hset.trans h.effects
  | refused hno hroom hmod h =>
    refine (hset.trans (effects_errReplied hopen hready.sending)).trans ?_
    exact h.effects (open_errReplied hopen) fun _ => rfl
  | started h hrep => exact h.effects hw hsa hready hudpa
  | failed h hrep hreply =>
    exact (h.effects hw hsa hready hudpa).trans (hreply.effects (h.open hw) (h.state hready))

theorem ResolverReturned.effects {f : Option Fault} (hw : Open w)
    (hs : w.shared.state.sending = false) (hsa : w.info.sa = none)
    (hai : w.info.resolverRet ≠ 0 → w.info.ai = []) (hudpa : w.Associates cfg → blocking)
    (h : ResolverReturned cfg w f w') : Effects blocking w w' := by
  have hset : Effects blocking w (w.setRep repGenfail) := (Effects.refl w).setRep _
  have hopen : Open (w.setRep repGenfail) := open_setRep.mpr hw
  have hnone : ∀ {w₁ : World}, w₁.info.sa = w.info.sa → w₁.info.Supported := by
    intro w₁ heq f data ne hother
    rw [heq, hsa] at hother
    cases hother
  have hidle : (w.setRep repGenfail).shared.state.sending = true →
      (w.setRep repGenfail).shared.state = .sendingReply := fun h => absurd h (by simp [hs])
  cases h with
  | lost hret h => exact hset.trans h.effects
  | failed hret hroom hmod h =>
    have hreplied : Effects blocking w (w.setRep repGenfail).errReplied :=
      hset.trans (effects_errReplied hopen hidle)
    refine hreplied.trans (h.effects (open_errReplied hopen) (hnone ?_) (.inr ⟨rfl, ?_, ?_⟩) ?_)
    · simp [World.errReplied]
    · simpa [World.errReplied] using hsa
    · simpa [World.errReplied] using hai hret
    · exact fun hassoc => hudpa (by simpa [World.Associates, World.errReplied] using hassoc)
  | resolved hret h => exact h.effects hw (hnone rfl) (.inl hs) hudpa

end Commands

theorem reqAddr_supported {info : Info} {req : List UInt8} (h : info.sa = some (reqAddr req)) :
    info.Supported := by
  intro f data ne hother
  rw [h, reqAddr] at hother
  split at hother <;> simp at hother

theorem RunRequest.effects {req : List UInt8} {f : Option Fault} (hw : Open w)
    (hs : w.shared.state = .waitingCommand) (hdns : w.dns = .idle)
    (hudpa : w.Associates cfg → blocking)
    (h : RunRequest cfg w req f w') : Effects blocking w w' := by
  have hstored : Effects blocking w
      ((w.addrStored req).emit (.firewall (w.addrStored req).info)) :=
    ((Effects.refl w).snoc (.address req hw)).emit _ rfl
  have hopen : Open ((w.addrStored req).emit (.firewall (w.addrStored req).info)) := by
    simpa using hw.addrStored req
  have hidle : w.shared.state.sending = false := by rw [hs]; rfl
  cases h with
  | domain hatyp =>
    refine ((((Effects.refl w).setState .asyncDns ?_).setState .asyncDns ?_).emit _ rfl).snoc
      (.asked hdns)
    · exact fun hsending => absurd hsending (by simp [hidle])
    · exact fun _ => .inr (.inl rfl)
  | noMemory hatyp hmalloc => exact .refl w
  | dropped hatyp hfirewall h =>
    exact hstored.answer hopen (fun hsending => absurd hsending (by simp [hidle])) h
  | passed hatyp hfirewall h =>
    have hsa : ((w.addrStored req).emit (.firewall (w.addrStored req).info)).info.Supported :=
      reqAddr_supported rfl
    refine hstored.trans (h.effects hopen hsa (.inl (by simpa using hidle)) ?_)
    exact fun hassoc => hudpa (by simpa [World.Associates] using hassoc)

/-- A request of the right version that is there in full, as `waitingcommand` counts its
length. -/
def RequestComplete (cfg : Configs) (req : List UInt8) : Prop :=
  5 ≤ req.length ∧ (totalLen cfg req).any (fun total => decide (total ≤ req.length)) = true ∧
    reqAt req 0 = socks5Version

instance (cfg : Configs) (req : List UInt8) : Decidable (RequestComplete cfg req) :=
  inferInstanceAs (Decidable (_ ∧ _))

theorem CommandRequest.effects {req : List UInt8} {f : Option Fault} (hw : Open w)
    (hs : w.shared.state = .waitingCommand) (hdns : w.dns = .idle)
    (hudpa : RequestComplete cfg req → (w.commandStored req).Associates cfg → blocking)
    (h : CommandRequest cfg w req f w') : Effects blocking w w' := by
  have hidle : w.shared.state.sending = false := by rw [hs]; rfl
  have hstored : Effects blocking w (w.commandStored req) := (Effects.refl w).setInfo rfl rfl
  cases h with
  | short hlen => exact .refl w
  | badAtyp hlen htotal h =>
    exact (Effects.refl w).answer hw (fun hsending => absurd hsending (by simp [hidle])) h
  | part hlen htotal hpart => exact .refl w
  | badVersion hlen htotal hcomplete hversion => exact hstored.hungUp _
  | run hlen htotal hcomplete hversion h =>
    refine hstored.trans (h.effects (hw.setInfo rfl rfl) hs hdns (hudpa ⟨hlen, ?_, hversion⟩))
    simpa [htotal] using hcomplete

/-- What `server_out` holds after the receive: what was there and what the kernel hands over. -/
def World.gathered (w : World) : List UInt8 :=
  (w.shared.out .server).contents ++
    match w.fds (w.shared.fd .client), w.ans.recv with
    | some sk, some k => sk.inbox.take (min (w.shared.out .server).free (max 1 k))
    | _, _ => []

theorem Recv.gathered {bytes : List UInt8} {w₁ : World}
    (h : Recv w (w.shared.fd .client) (w.shared.out .server).free (some bytes) w₁) :
    (w.shared.out .server).contents ++ bytes = w.gathered :=
  congrArg _ h.readable

theorem WaitingCommand.effects {f : Option Fault} (hw : Open w)
    (hs : w.shared.state = .waitingCommand) (hdns : w.dns = .idle) (hsa : w.info.sa = none)
    (hai : w.info.resolverRet ≠ 0 → w.info.ai = [])
    (hresolved : w.info.resolverRet ≠ -1 → w.Associates cfg → blocking)
    (hudpa : w.info.resolverRet = -1 → RequestComplete cfg (w.gathered.take 300) →
      (w.commandStored (w.gathered.take 300)).Associates cfg → blocking)
    (h : WaitingCommand cfg w e ev f w') : Effects blocking w w' := by
  have hidle : w.shared.state.sending = false := by rw [hs]; rfl
  cases h with
  | idle hunwanted => exact .refl w
  | resolver hret h => exact h.effects hw hidle hsa hai (hresolved hret)
  | ended hret hrecv hr => exact ((Effects.refl w).recv hrecv).hungUp _
  | @data bytes got w₁ _ _ hret hrecv hgot h =>
    have hans : w₁.ans = w.ans := by
      obtain ⟨fds, trace, rfl⟩ := hrecv.frame
      rfl
    have hdns₁ : w₁.dns = w.dns := by
      obtain ⟨fds, trace, rfl⟩ := hrecv.frame
      rfl
    obtain rfl : got = w.gathered := hgot.trans hrecv.gathered
    refine (((Effects.refl w).recv hrecv).queue _ _).trans
      (h.effects ?_ ?_ ?_ fun hcomplete h => ?_)
    · simpa using hrecv.open hw
    · simpa [hrecv.shared] using hs
    · simpa [hdns₁] using hdns
    · refine hudpa hret hcomplete ?_
      simpa [World.Associates, hans] using h

/-! ### The negotiation and the replies -/

theorem WaitingMethods.effects (hw : Open w) (hs : w.shared.state = .waitingMethods)
    (h : WaitingMethods cfg w e ev w') : Effects blocking w w' := by
  have hchosen : ∀ {w₁ : World} {got : List UInt8}, w₁.shared.state = .waitingMethods →
      Effects blocking w w₁ → Effects blocking w (w₁.methodChosen cfg got) := by
    intro w₁ got hs₁ h
    refine ((((h.drop 2).drop _).queue .client _).setState .sendingMethod
      fun hsending => ?_).setInfo (by simp) (by simp)
    have hidle : w₁.shared.state.sending = true := by simpa using hsending
    rw [hs₁] at hidle
    cases hidle
  have hstate : ∀ {w₁ : World} {bytes : List UInt8},
      Recv w (w.shared.fd .client) (w.shared.out .server).free (some bytes) w₁ →
      (w₁.queue .server bytes).shared.state = .waitingMethods := by
    intro w₁ bytes hrecv
    simpa [hrecv.shared] using hs
  cases h with
  | idle hunwanted => exact .refl w
  | ended hrecv hr => exact ((Effects.refl w).recv hrecv).hungUp _
  | part hrecv hgot hpart => exact ((Effects.refl w).recv hrecv).queue _ _
  | badVersion hrecv hgot hcomplete hversion =>
    exact ((((Effects.refl w).recv hrecv).queue _ _).drop _).hungUp _
  | unwatched hrecv hgot hcomplete hversion hmod =>
    exact (hchosen (hstate hrecv) (((Effects.refl w).recv hrecv).queue _ _)).popMod.hungUp _
  | chosen hrecv hgot hcomplete hversion hmod =>
    refine (hchosen (hstate hrecv) (((Effects.refl w).recv hrecv).queue _ _)).watchSend ?_
    refine Open.setInfo ?_ (by simp) (by simp)
    simpa using hrecv.open hw

/-- What goes out of `client_out` is what is at its front. -/
theorem effects_sentFront (hw : Open w) (n : Nat) : Effects blocking w (w.sentFront n) := by
  have htake : (w.shared.out .client).contents.take ((w.shared.out .client).peek n).length =
      (w.shared.out .client).peek n := by
    rw [Ring.peek, List.length_take, ← List.take_take, List.take_length]
  have heq : w.sentTo .client ((w.shared.out .client).peek n).length = w.sentFront n := by
    rw [World.sentTo, World.sentFront, htake, hw.self_client]
  rw [← heq]
  exact (Effects.refl w).snoc (.sent .client _ hw hw.client)

theorem effects_sentPart (hw : Open w) {n k : Nat}
    (hk : k < ((w.shared.out .client).peek n).length) :
    Effects blocking w (w.sentPart n k) := by
  have htake : ((w.shared.out .client).peek n).take k = (w.shared.out .client).contents.take k := by
    rw [Ring.peek, List.take_take]
    rw [Ring.peek, List.length_take] at hk
    congr 1
    omega
  have heq : w.sentTo .client k = w.sentPart n k := by
    rw [World.sentTo, World.sentPart, htake, hw.self_client]
  rw [← heq]
  exact (Effects.refl w).snoc (.sent .client _ hw hw.client)

theorem SendStopped.effects {n : Nat} (hw : Open w) (h : SendStopped w n w') :
    Effects blocking w w' := by
  cases h with
  | failed => exact ((Effects.refl w).snoc (.sendFailed _)).hungUp _
  | part hk => exact effects_sentPart hw hk
  | unwatched hmod => exact (effects_sentFront hw n).popMod.hungUp _

theorem effects_replied (hw : Open w) (n : Nat) : Effects blocking w (w.sentFront n).watchRecv := by
  refine (effects_sentFront hw n).watchRecv ?_
  simpa [World.sentFront] using hw

/-- With everything sent any state may come next. -/
theorem mayEnter_of_sent {n : Nat} {w₁ : World} (hused : (w.shared.out .client).used ≤ n)
    (hout : w₁.shared.out = (w.sentFront n).shared.out) (st : State) : w₁.MayEnter st := by
  intro _
  rw [hout]
  exact .inr (.inr (World.sentFront_contents hused))

theorem SendingMethod.effects (hw : Open w) (hused : (w.shared.out .client).used ≤ 2)
    (h : SendingMethod w e ev w') : Effects blocking w w' := by
  cases h with
  | idle hunwanted => exact .refl w
  | stopped h => exact h.effects hw
  | refused hmod hmethod => exact (effects_replied hw 2).hungUp _
  | accepted hmod hmethod =>
    exact (effects_replied hw 2).setState _ (mayEnter_of_sent hused rfl _)

theorem SendingReply.effects (hw : Open w) (hused : (w.shared.out .client).used ≤ 300)
    (h : SendingReply w e ev w') : Effects blocking w w' := by
  cases h with
  | idle hunwanted => exact .refl w
  | stopped h => exact h.effects hw
  | refused hmod hrep => exact (effects_replied hw 300).hungUp _
  | connected hmod hrep hcmd =>
    exact (effects_replied hw 300).setState _ (mayEnter_of_sent hused rfl _)
  | listening hmod hrep hcmd hstate =>
    exact ((effects_replied hw 300).setRep _).setState _ (mayEnter_of_sent hused rfl _)
  | associated hmod hrep hcmd =>
    exact (effects_replied hw 300).setState _ (mayEnter_of_sent hused rfl _)
  | odd hmod hrep hcmd hbind => exact effects_replied hw 300

/-! ### The server's descriptor -/

theorem ConnectFailed.effects {error : BitVec 32} (hw : Open w)
    (hs : w.shared.state.sending = true → w.shared.state = .sendingReply)
    (h : ConnectFailed w error w') : Effects blocking w w' := by
  have hnext : Effects blocking w w.nextAddr := (Effects.refl w).setInfo rfl rfl
  cases h with
  | retry hlen hget => exact hnext.emit _ rfl
  | exhausted hlen hget h =>
    exact hnext.answer hw.nextAddr hs h
  | single hlen h => exact (Effects.refl w).answer hw hs h

theorem effects_connectedTo (hs : w.shared.state = .connecting) (ss : SockAddr) :
    Effects blocking w (w.connectedTo ss) := by
  refine ((((Effects.refl w).setRep _).noted ss).queue _ _).setState _ fun hsending => ?_
  have hidle : w.shared.state.sending = true := by simpa using hsending
  rw [hs] at hidle
  cases hidle

theorem Connecting.effects (hw : Open w) (hs : w.shared.state = .connecting)
    (h : Connecting w e ev w') : Effects blocking w w' := by
  have hidle : w.shared.state.sending = true → w.shared.state = .sendingReply := by
    intro hsending
    rw [hs] at hsending
    cases hsending
  have hreplied : ∀ {ss a r w₁}, FinishReply (w.connectedTo ss) a r w₁ →
      Effects blocking w w₁ ∧ Open w₁ ∧ w₁.shared.state = .sendingReply := by
    intro ss a r w₁ hr
    obtain ⟨-, -, -, -, hstate⟩ := hr.server
    have hopen := hw.connectedTo ss
    exact ⟨(effects_connectedTo hs ss).trans (hr.effects hopen), hr.open hopen, hstate⟩
  cases h with
  | idle hunwanted => exact .refl w
  | unknown hso h => exact (Effects.refl w).answer hw hidle h
  | failed hso herr h => exact h.effects hw hidle
  | unnamed hso hname h =>
    exact ((Effects.refl w).setRep repSuccess).answer (open_setRep.mpr hw) hidle h
  | oddFamily hso hname haddr h =>
    exact (effects_connectedTo hs _).trans (h.effects (hw.connectedTo _) fun _ => rfl)
  | unanswered hso hname haddr hreply h =>
    obtain ⟨heffects, hopen, hstate⟩ := hreplied hreply
    exact heffects.answer hopen (fun _ => hstate) h
  | unwatched hso hname haddr hreply hmod h =>
    obtain ⟨heffects, hopen, hstate⟩ := hreplied hreply
    refine (heffects.modified hmod).answer (hmod.open hopen) (fun _ => ?_) h
    rw [hmod.shared, hstate]
  | connected hso hname haddr hreply hmod => exact (hreplied hreply).1.modified hmod

/-- The first peer of a BIND request is there, and it is the one the request named. -/
def World.PeerMatches (w : World) : Prop :=
  (w.ans.accept.any fun peer => w.info.reqAddr.any fun req => !peerDiffers req peer.2) = true

instance (w : World) : Decidable w.PeerMatches := inferInstanceAs (Decidable (_ = _))

/-- The accepted peer may block, and it is registered. -/
theorem BindListening.effects (hw : Open w) (hs : w.shared.state = .bindListening)
    (hd : w.mem (.data .server) = .live)
    (hpeer : w.PeerMatches → w.ans.epollAdd = true → blocking)
    (h : BindListening w e ev w') : Effects blocking w w' := by
  have hidle : w.shared.state.sending = true → w.shared.state = .sendingReply := by
    intro hsending
    rw [hs] at hsending
    cases hsending
  have haccepted : ∀ {newFd : Int} (ss : SockAddr), w.fds newFd = none →
      Effects blocking w (w.acceptedPeer newFd ss) := fun ss hnew =>
    (((Effects.refl w).opened hnew false).emit _ rfl).noted ss
  have hopen : ∀ {newFd : Int} (ss : SockAddr), w.fds newFd = none →
      Open (w.acceptedPeer newFd ss) := fun ss hnew =>
    Open.noted (open_emit.mpr (hw.opened hnew false)) ss
  have hrehomed : ∀ {newFd : Int} (ss : SockAddr), w.fds newFd = none →
      Effects blocking w ((w.acceptedPeer newFd ss).rehomed newFd) ∧
        Open ((w.acceptedPeer newFd ss).rehomed newFd) := fun ss hnew =>
    ⟨(haccepted ss hnew).snoc (.rehomed _),
      (hopen ss hnew).rehomed (hw.ne_client hnew) hd⟩
  have hadded : ∀ {newFd : Int} {ss req : SockAddr} {w₁ : World}, w.fds newFd = none →
      w.ans.accept = some (newFd, ss) → w.info.reqAddr = some req → peerDiffers req ss = false →
      Added ((w.acceptedPeer newFd ss).rehomed newFd) newFd (epollIn, some .server) true w₁ →
      Effects blocking w ((w₁.setRep repSuccess).queueHead repSuccess) ∧
        Open ((w₁.setRep repSuccess).queueHead repSuccess) ∧
        ((w₁.setRep repSuccess).queueHead repSuccess).shared.state = .bindListening := by
    intro newFd ss req w₁ hnew hans hreq hsame hadd
    have hmatch : w.PeerMatches := by simp [World.PeerMatches, hans, hreq, hsame]
    obtain ⟨heffects, hopen'⟩ := hrehomed ss hnew
    have hw₁ := hadd.open hopen'
    refine ⟨?_, by simpa [World.queueHead] using hw₁, ?_⟩
    · cases hadd with
      | done hsk hi hadd =>
        exact ((heffects.added fun _ _ => .inr (hpeer hmatch hadd)).setRep _).queue _ _
    · cases hadd
      simpa [World.queueHead, World.acceptedPeer] using hs
  cases h with
  | idle hunwanted => exact .refl w
  | noPeer hnone h => exact (Effects.refl w).answer hw hidle h
  | noRequest hans hnew hreq h => exact (haccepted _ hnew).answer (hopen _ hnew) hidle h
  | otherPeer hans hnew hreq hdiff h => exact (haccepted _ hnew).answer (hopen _ hnew) hidle h
  | @unwatched newFd ss req _ hans hnew hreq hsame he hadd h =>
    obtain ⟨heffects, hopen'⟩ := hrehomed ss hnew
    exact heffects.answer hopen' hidle h
  | oddFamily hans hnew hreq hsame he hadd haddr h =>
    obtain ⟨heffects, hopen', hstate⟩ := hadded hnew hans hreq hsame hadd
    refine heffects.answer hopen' (fun hsending => ?_) h
    rw [hstate] at hsending
    cases hsending
  | unanswered hans hnew hreq hsame he hadd haddr hreply h =>
    obtain ⟨heffects, hopen', hstate⟩ := hadded hnew hans hreq hsame hadd
    obtain ⟨-, -, -, -, hkept⟩ := hreply.server
    refine (heffects.trans (hreply.effects hopen')).answer (hreply.open hopen')
      (fun hsending => ?_) h
    rw [hkept, hstate] at hsending
    cases hsending
  | accepted hans hnew hreq hsame he hadd haddr hreply =>
    obtain ⟨heffects, hopen', hstate⟩ := hadded hnew hans hreq hsame hadd
    obtain ⟨-, -, -, -, hkept⟩ := hreply.server
    refine (heffects.trans (hreply.effects hopen')).setState _ fun hsending => ?_
    rw [hkept, hstate] at hsending
    cases hsending

/-! ### Relay and teardown -/

theorem Full.effects (hw : Open w) (hd : w.mem (.data e) = .live) (hs : w.shared.state = .full)
    (h : Full w e ev w') : Effects blocking w w' := by
  have hidle : w.shared.state.sending = false := by rw [hs]; rfl
  have hsent : ∀ k, Effects blocking w (w.sentTo e k) := fun k =>
    (Effects.refl w).snoc (.sent e k hw hd)
  cases h with
  | idle hunwanted => exact .refl w
  | sendFailed hout =>
    refine (((Effects.refl w).snoc (.sendFailed _)).flagged _ _).setState _ fun hsending => ?_
    exact absurd hsending (by simp [hidle])
  | sentPart hout hk => exact hsent _
  | @drained r w₁ hout hmod =>
    have heffects := (hsent _).modified hmod
    cases r with
    | true => exact heffects
    | false => exact heffects.setState _ fun _ => .inl rfl
  | ended hin hout hrecv hr hmod =>
    refine ((((((Effects.refl w).recv hrecv).flagged _ _).flagged _ _)).setState _
      fun hsending => ?_).modified hmod
    exact absurd hsending (by simp [hrecv.shared, hidle])
  | received hin hout hrecv hne hmod =>
    exact (((Effects.refl w).recv hrecv).queue _ _).modified hmod

/-! ### Events -/

/-- The event registers a descriptor that may block: the relay socket of UDP ASSOCIATE, or the
peer accepted for BIND. -/
def World.Registers (cfg : Configs) (w : World) : Prop :=
  w.shared.state = .bindListening ∧ w.PeerMatches ∧ w.ans.epollAdd = true ∨
    w.shared.state = .waitingCommand ∧
      (w.info.resolverRet ≠ -1 ∧ w.Associates cfg ∨
        w.info.resolverRet = -1 ∧ RequestComplete cfg (w.gathered.take 300) ∧
          (w.commandStored (w.gathered.take 300)).Associates cfg)

theorem Handled.effects {f : Option Fault} (hw : Open w) (hs : Sane w)
    (hd : w.mem (.data e) = .live) (hregisters : w.Registers cfg → blocking)
    (h : Handled cfg w e ev f w') : Effects blocking w w' := by
  have hp := hs.phase hw
  cases h with
  | still hstate => exact .refl w
  | waitingMethods hstate h => exact h.effects hw hstate
  | sendingMethod hstate h => exact h.effects hw (hp.method hstate)
  | waitingCommand hstate h =>
    have hearly : w.shared.state.early = true := by simp [hstate]
    obtain ⟨-, hsa, hret, -⟩ := hp.early hearly
    have hidle : w.dns = .idle := not_not.mp fun hne => by
      have hasync := (hs.dns hne).2
      rw [hstate] at hasync
      cases hasync
    refine h.effects hw hstate hidle hsa (fun _ => hp.ai hearly (by simp [hidle])) ?_ ?_
    · exact fun hne => absurd hret hne
    · exact fun _ hcomplete h => hregisters (.inr ⟨hstate, .inr ⟨hret, hcomplete, h⟩⟩)
  | sendingReply hstate h =>
    refine h.effects hw ((hp.reply ?_).trans (by decide))
    rcases hstate with hstate | hstate <;> simp [hstate]
  | connecting hstate h => exact h.effects hw hstate
  | bindListening hstate h =>
    exact h.effects hw hstate (hp.server (.inl (.inr (.inl hstate)))) fun hpeer hadd =>
      hregisters (.inl ⟨hstate, hpeer, hadd⟩)
  | full hstate h => exact h.effects hw hd hstate
  | halfClose hstate => exact (Effects.refl w).setState _ fun _ => .inl rfl
  | closed hstate => exact (Effects.refl w).snoc (.released e)

end Handlers

/-! ### Inputs -/

/-- What an input does outside the handlers. -/
inductive Looped (w : World) : World → Prop where
  | outside (fds : Int → Option Sock)
      (hfds : ∀ fd, (fds fd).map (fun sk => (sk.nonblock, sk.interest)) =
        (w.fds fd).map fun sk => (sk.nonblock, sk.interest)) : Looped w { w with fds := fds }
  | answered (gaiRet : Int) (ai : List AddrInfo) (hw : Open w) (hai : w.info.ai = []) :
      Looped w (w.answered gaiRet ai)
  | polled (batch : List Event) : Looped w (w.polled batch)
  | taken (rest : List Event) (ans : Answers) : Looped w (w.taken rest ans)
  | resumed (gaiRet : Int) (hs : w.shared.state = .asyncDns) : Looped w (w.resumed gaiRet)

section Inputs

variable {cfg : Configs} {w w' : World}

theorem looped_arrived (w : World) (fd : Int) (bytes : List UInt8) :
    Looped w (w.arrived fd bytes) := by
  unfold World.arrived
  cases hfd : w.fds fd with
  | none => exact .outside w.fds fun _ => rfl
  | some sk =>
    by_cases hfin : sk.fin = true
    · simpa [hfin] using Looped.outside w.fds fun _ => rfl
    · simp only [hfin, Bool.false_eq_true, if_false]
      refine .outside _ fun fd' => ?_
      by_cases heq : fd' = fd
      · subst heq
        simp [hfd]
      · simp [heq]

theorem looped_finished (w : World) (fd : Int) : Looped w (w.finished fd) := by
  refine .outside _ fun fd' => ?_
  by_cases heq : fd' = fd
  · subst heq
    cases hfd : w.fds fd' <;> simp
  · simp [heq]

/-- The connection as the handler of its next event finds it. -/
def World.next (w : World) (ans : Answers) : Option World :=
  match w.pending with
  | [] => none
  | .peer _ _ _ :: rest => some (w.taken rest ans)
  | .resolver :: rest =>
    match w.dns with
    | .answered gaiRet => some ((w.taken rest ans).resumed gaiRet)
    | _ => none

theorem World.next_taken {fd : Int} {e : Option Side} {ev : Events} {rest : List Event}
    (hpending : w.pending = .peer fd e ev :: rest) (ans : Answers) :
    w.taken rest ans ∈ w.next ans := by
  simp [World.next, hpending]

theorem World.next_resumed {gaiRet : Int} {rest : List Event}
    (hpending : w.pending = .resolver :: rest) (hdns : w.dns = .answered gaiRet) (ans : Answers) :
    (w.taken rest ans).resumed gaiRet ∈ w.next ans := by
  simp [World.next, hpending, hdns]

/-- The handler finds the connection as it was, or resumed with the resolver's answer. -/
theorem World.mem_next {ans : Answers} {v : World} (h : v ∈ w.next ans) :
    v = w.taken w.pending.tail ans ∨ ∃ gaiRet, w.dns = .answered gaiRet ∧
      .resolver ∈ w.pending ∧ v = (w.taken w.pending.tail ans).resumed gaiRet := by
  unfold World.next at h
  split at h
  · cases h
  · rename_i hpending
    cases h
    exact .inl (by simp [hpending])
  · rename_i rest hpending
    split at h
    · rename_i gaiRet hdns
      cases h
      exact .inr ⟨gaiRet, hdns, by simp [hpending]⟩
    · cases h

/-- What a handled event comes to: effects on the connection as the handler finds it, or
nothing when there is no handler. -/
theorem Stepped.effects {ans : Answers} {f : Option Fault} (hs : Sane w)
    (hregisters : ∀ v ∈ w.next ans, v.Registers cfg → blocking)
    (h : Stepped cfg w (.handle ans) f w') :
    w.next ans = none ∧ (w' = w ∨ w' = w.taken w.pending.tail ans) ∨
      ∃ v ∈ w.next ans, Effects blocking v w' := by
  cases h with
  | waiting hpending => exact .inl ⟨by simp [World.next, hpending], .inl rfl⟩
  | @handled _ event rest _ _ hpending h =>
    have htaken := hs.taken hpending ans
    cases h with
    | ignored => exact .inr ⟨_, w.next_taken hpending ans, .refl _⟩
    | stale hgone => exact .inr ⟨_, w.next_taken hpending ans, .refl _⟩
    | masked hd hev => exact .inr ⟨_, w.next_taken hpending ans, .refl _⟩
    | handled hw hd h =>
      have hnext := w.next_taken hpending ans
      exact .inr ⟨_, hnext, h.effects hw htaken hd (hregisters _ hnext)⟩
    | shut hw hd =>
      exact .inr ⟨_, w.next_taken hpending ans, (Effects.refl _).snoc (.released _)⟩
    | quiet hdns =>
      refine .inl ⟨?_, .inr (by rw [hpending]; rfl)⟩
      simp only [World.next, hpending]
      split
      · rename_i gaiRet hans
        exact absurd hans (hdns gaiRet)
      · rfl
    | @resolver gaiRet _ _ hw hdns h =>
      have hasync := (htaken.dns (by rw [hdns]; simp)).2
      have hearly : (w.taken rest ans).shared.state.early = true := by rw [hasync]; rfl
      have hp := htaken.phase hw
      obtain ⟨-, hsa, -, -⟩ := hp.early hearly
      have hai : gaiRet ≠ 0 → (w.taken rest ans).info.ai = [] := fun hret =>
        hp.ai hearly fun r hr => by
          rw [hdns] at hr
          cases hr
          exact hret
      have hnext := w.next_resumed hpending hdns ans
      refine .inr ⟨_, hnext, h.effects (hw.resumed gaiRet) rfl rfl hsa hai
        (fun hret hassoc => ?_) fun hret hcomplete hassoc => ?_⟩
      · exact hregisters _ hnext (.inr ⟨rfl, .inl ⟨hret, hassoc⟩⟩)
      · exact hregisters _ hnext (.inr ⟨rfl, .inr ⟨hret, hcomplete, hassoc⟩⟩)

/-- **The invariant rule for one input.** What every effect and the loop keep, every input
keeps. -/
theorem Stepped.keeps {P : World → Prop} {i : Input} {f : Option Fault}
    (heffect : ∀ {w w'}, P w → Effect blocking w w' → P w')
    (hloop : ∀ {w w'}, P w → Looped w w' → P w') (hs : Sane w) (hP : P w)
    (hregisters : ∀ ans, i = .handle ans → ∀ v ∈ w.next ans, v.Registers cfg → blocking)
    (h : Stepped cfg w i f w') : P w' := by
  cases i with
  | handle ans =>
    rcases h.effects hs (hregisters ans rfl) with ⟨-, rfl | rfl⟩ | ⟨v, hv, heffects⟩
    · exact hP
    · exact hloop hP (.taken _ _)
    · refine heffects.invariant heffect ?_
      rcases w.mem_next hv with rfl | ⟨gaiRet, hdns, -, rfl⟩
      · exact hloop hP (.taken _ _)
      · have hasync := (hs.dns (by simp [hdns])).2
        exact hloop (hloop hP (.taken _ _)) (.resumed gaiRet hasync)
  | arrive fd bytes =>
    cases h
    exact hloop hP (looped_arrived w _ _)
  | finish fd =>
    cases h
    exact hloop hP (looped_finished w _)
  | resolved gaiRet res =>
    cases h with
    | unasked hdns => exact hP
    | resolved hdns =>
      obtain ⟨hw, hasync⟩ := hs.dns (by simp [hdns])
      have hai := (hs.phase hw).ai (by simp [hasync]) (by simp [hdns])
      exact hloop hP (.answered _ _ hw hai)
  | poll batch =>
    cases h with
    | unpolled => exact hP
    | polled hpending hlegal => exact hloop hP (.polled _)

end Inputs

end Socksprox
