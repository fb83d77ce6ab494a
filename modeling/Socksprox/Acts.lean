import Socksprox.Outcome.Loop

/-!
What each handler leaves in the trace. `Does K w w'` says that between `w` and `w'` the
connection did only acts of the kind `K`, entered only states of that kind, and kept the
request. Properties of whole traces look at the few handlers whose kind contains the acts
that they are about.
-/

namespace Socksprox

/-- The command a function carries out. -/
def InitFn.cmd : InitFn → UInt8
  | .connect => cmdConn
  | .bind => cmdBind
  | .udpa => cmdUdpa

/-! ### Kinds of acts -/

/-- Giving up, and answering with an error. -/
def Act.isError : Act → Bool
  | .state .closed | .state .sendingReply | .queued .client _ => true
  | _ => false

/-- Choosing the method. -/
def Act.isMethod : Act → Bool
  | .queued .client _ | .state .sendingMethod => true
  | _ => false

/-- Handing a request to the firewall or to the resolver. -/
def Act.isAsk : Act → Bool
  | .state .asyncDns | .resolve _ | .firewall _ => true
  | _ => false

def Act.isInvoked : Act → Bool
  | .invoked _ => true
  | _ => false

/-- Carrying out CONNECT, once `init_connect` was called. -/
def Act.isAttempt : Act → Bool
  | .state .connecting | .connect .. => true
  | a => a.isError

/-- Carrying out a command. -/
def Act.isInit : Act → Bool
  | .invoked _ => true
  | a => a.isAttempt

/-- Reading a method request, and choosing the method. -/
def Act.isGreeting : Act → Bool
  | .recv .. | .eof _ | .queued .. | .state .sendingMethod | .state .closed => true
  | _ => false

/-- Reading a request, and carrying it out. -/
def Act.isRequest : Act → Bool
  | .recv .. | .eof _ | .queued .. => true
  | a => a.isAsk || a.isInit

/-- Sending what is in `client_out`, and what follows it. -/
def Act.isReply : Act → Bool
  | .state .closed | .state .waitingCommand | .state .full | .state .bindListening
  | .state .fullUdpa | .sent .. | .sendFailed _ => true
  | _ => false

/-- Waiting for the connection to the server. -/
def Act.isWait : Act → Bool
  | .connect .. => true
  | a => a.isError

/-- Waiting for the server to connect. -/
def Act.isAccept : Act → Bool
  | .state .sendingReply2 | .accepted .. => true
  | a => a.isError

/-- Relay and teardown. -/
def Act.isRelay : Act → Bool
  | .state .halfClose | .state .closed | .recv .. | .eof _ | .sent .. | .sendFailed _
  | .queued .. => true
  | _ => false

/-- What the server knows of the request: the method, command and address type, the
literal address or the resolved ones, and the resolver's answer. -/
def Info.request (info : Info) : UInt8 × UInt8 × UInt8 × Int × List AddrInfo × Option SockAddr :=
  (info.method, info.cmd, info.atyp, info.resolverRet, info.ai, info.sa)

structure Does (K : Act → Bool) (w w' : World) : Prop where
  trace : ∃ acts, w'.trace = w.trace ++ acts ∧ ∀ a ∈ acts, K a = true
  state : w'.shared.state = w.shared.state ∨ K (.state w'.shared.state) = true
  request : w'.info.request = w.info.request

/-- Only acts of the kind are added to the trace. -/
def Adds (K : Act → Bool) (w w' : World) : Prop :=
  ∃ acts, w'.trace = w.trace ++ acts ∧ ∀ a ∈ acts, K a = true

/-! ### Effects -/

/-- What `Does` looks at. -/
def World.doings (w : World) := (w.trace, w.shared.state, w.info.request)

namespace Does

variable {K L : Act → Bool} {w w₁ w' : World}

theorem refl (w : World) : Does K w w := ⟨⟨[], by simp⟩, .inl rfl, rfl⟩

theorem mono (h : Does K w w') (hKL : ∀ a, K a = true → L a = true) : Does L w w' where
  trace := by
    obtain ⟨acts, htrace, hacts⟩ := h.trace
    exact ⟨acts, htrace, fun a ha => hKL a (hacts a ha)⟩
  state := h.state.imp id (hKL _)
  request := h.request

theorem trans (h : Does K w w₁) (h' : Does K w₁ w') : Does K w w' where
  trace := by
    obtain ⟨acts, htrace, hacts⟩ := h.trace
    obtain ⟨acts', htrace', hacts'⟩ := h'.trace
    refine ⟨acts ++ acts', by rw [htrace', htrace, List.append_assoc], fun a ha => ?_⟩
    exact (List.mem_append.mp ha).elim (hacts a) (hacts' a)
  state := by
    rcases h'.state with heq | hin
    · rw [heq]
      exact h.state
    · exact .inr hin
  request := h'.request.trans h.request

/-- An effect on none of these. -/
theorem keep (h : Does K w w₁) (hkeep : w'.doings = w₁.doings) : Does K w w' := by
  simp only [World.doings, Prod.mk.injEq] at hkeep
  obtain ⟨htrace, hstate, hrequest⟩ := hkeep
  exact ⟨htrace ▸ h.trace, hstate ▸ h.state, hrequest.trans h.request⟩

theorem emit (h : Does K w w₁) (a : Act) (ha : K a = true) : Does K w (w₁.emit a) :=
  h.trans ⟨⟨[a], rfl, by simpa using ha⟩, .inl rfl, rfl⟩

theorem setState (h : Does K w w₁) (st : State) (hst : K (.state st) = true) :
    Does K w (w₁.setState st) :=
  h.trans ⟨⟨[.state st], rfl, by simpa using hst⟩, .inr hst, rfl⟩

theorem setRep (h : Does K w w₁) (rep : UInt8) : Does K w (w₁.setRep rep) := h.keep rfl

theorem setInfo {info : Info} (h : Does K w w₁) (hinfo : info.request = w₁.info.request) :
    Does K w (w₁.setInfo info) :=
  h.keep (by simp [World.doings, hinfo])

theorem popMod (h : Does K w w₁) : Does K w w₁.popMod := h.keep rfl

theorem drop (h : Does K w w₁) (s : Side) (n : Nat) : Does K w (w₁.drop s n) := h.keep rfl

theorem noted (h : Does K w w₁) (ss : SockAddr) : Does K w (w₁.noted ss) := h.keep rfl

theorem flagged (h : Does K w w₁) (s : Side) (flag : UInt8) : Does K w (w₁.flagged s flag) :=
  h.keep rfl

theorem queue (h : Does K w w₁) (s : Side) (bytes : List UInt8)
    (hq : K (.queued s bytes) = true) : Does K w (w₁.queue s bytes) := by
  unfold World.queue
  split
  · exact h.trans ⟨⟨[.queued s bytes], rfl, by simpa using hq⟩, .inl rfl, rfl⟩
  · exact h

theorem watchSend (h : Does K w w₁) : Does K w w₁.watchSend := h.keep rfl

theorem watchRecv (h : Does K w w₁) : Does K w w₁.watchRecv := h.keep rfl

theorem opened (h : Does K w w₁) (fd : Int) (nonblock : Bool) : Does K w (w₁.opened fd nonblock) :=
  h.keep rfl

theorem setFd (h : Does K w w₁) (fd : Int) (s : Option Sock) : Does K w (w₁.setFd fd s) :=
  h.keep rfl

theorem linkServer (h : Does K w w₁) (sfd : Int) : Does K w (w₁.linkServer sfd) := h.keep rfl

theorem rehomed (h : Does K w w₁) (newFd : Int) : Does K w (w₁.rehomed newFd) := h.keep rfl

theorem setInterest (h : Does K w w₁) (fd : Int) (i : Option (Events × Option Side)) :
    Does K w (w₁.setInterest fd i) := h.keep rfl

theorem hungUp (h : Does K w w₁) (s : Side) (hst : K (.state .closed) = true) :
    Does K w (w₁.hungUp s) :=
  (h.setState .closed hst).keep rfl

theorem recv {fd : Int} {n : Nat} {r : Option (List UInt8)} (h : Does K w w₁)
    (hrecv : Recv w₁ fd n r w') (hK : ∀ bytes, K (.recv fd bytes) = true)
    (hKeof : K (.eof fd) = true) : Does K w w' := by
  cases hrecv with
  | failed => exact h
  | zero hn => exact h
  | ended hsk hempty hfin => exact h.emit _ hKeof
  | data hsk hinbox hne hle => exact (h.emit _ (hK _)).keep rfl

theorem modified {fd : Int} {i : Events × Option Side} {r : Bool} (h : Does K w w₁)
    (hmod : Modified w₁ fd i r w') : Does K w w' := by
  cases hmod with
  | done hmod => exact h.keep rfl
  | failed hmod => exact h.keep rfl

theorem added {fd : Int} {i : Events × Option Side} {r : Bool} (h : Does K w w₁)
    (hadd : Added w₁ fd i r w') : Does K w w' := by
  cases hadd with
  | done hsk hi hans => exact h.keep rfl
  | failed hans => exact h

end Does

namespace Adds

variable {K L : Act → Bool} {w w₁ w' : World}

theorem refl (w : World) : Adds K w w := ⟨[], by simp⟩

theorem trans (h : Adds K w w₁) (h' : Adds K w₁ w') : Adds K w w' := by
  obtain ⟨acts, htrace, hacts⟩ := h
  obtain ⟨acts', htrace', hacts'⟩ := h'
  refine ⟨acts ++ acts', by rw [htrace', htrace, List.append_assoc], fun a ha => ?_⟩
  exact (List.mem_append.mp ha).elim (hacts a) (hacts' a)

theorem mono (h : Adds K w w') (hKL : ∀ a, K a = true → L a = true) : Adds L w w' := by
  obtain ⟨acts, htrace, hacts⟩ := h
  exact ⟨acts, htrace, fun a ha => hKL a (hacts a ha)⟩

theorem of_does (h : Does K w w') (hKL : ∀ a, K a = true → L a = true) : Adds L w w' :=
  mono h.trace hKL

theorem of_trace (h : w'.trace = w.trace) : Adds K w w' := ⟨[], by simp [h]⟩

theorem emit (h : Adds K w w₁) (a : Act) (ha : K a = true) : Adds K w (w₁.emit a) :=
  h.trans ⟨[a], rfl, by simpa using ha⟩

/-- A kind of which all acts were stays so. -/
theorem forall_mem (h : Adds K w w') (hall : ∀ a ∈ w.trace, K a = true) :
    ∀ a ∈ w'.trace, K a = true := by
  obtain ⟨acts, htrace, hacts⟩ := h
  intro a ha
  rw [htrace, List.mem_append] at ha
  exact ha.elim (hall a) (hacts a)

/-- Acts that are not of the kind were done before. -/
theorem mem_trace {a : Act} (h : Adds K w w') (ha : K a = false) (hmem : a ∈ w'.trace) :
    a ∈ w.trace := by
  obtain ⟨acts, htrace, hacts⟩ := h
  rw [htrace, List.mem_append] at hmem
  refine hmem.resolve_right fun hin => ?_
  simp [hacts a hin] at ha

/-- What acts of other kinds add up to stays as it was. -/
theorem filterMap {β : Type} {g : Act → Option β} (h : Adds K w w')
    (hK : ∀ a, K a = true → g a = none) : w'.trace.filterMap g = w.trace.filterMap g := by
  obtain ⟨acts, htrace, hacts⟩ := h
  have hnil : acts.filterMap g = [] :=
    List.filterMap_eq_nil_iff.mpr fun a ha => hK a (hacts a ha)
  rw [htrace, List.filterMap_append, hnil, List.append_nil]

end Adds

/-- Acts that are not of the kind were done before. -/
theorem Does.mem_trace {K : Act → Bool} {w w' : World} {a : Act} (h : Does K w w')
    (ha : K a = false) (hmem : a ∈ w'.trace) : a ∈ w.trace :=
  Adds.mem_trace h.trace ha hmem

/-! ### Error replies -/

variable {cfg : Configs} {w w' : World} {e : Side} {ev : Events}

theorem ReplyLost.does (h : ReplyLost w e w') : Does Act.isError w w' := by
  cases h with
  | noRoom hroom => exact ((Does.refl w).setRep _).hungUp e rfl
  | unwatched hroom hmod => exact (((Does.refl w).setRep _).queue _ _ rfl).popMod.hungUp e rfl

theorem does_errReplied : Does Act.isError w w.errReplied :=
  (((Does.refl w).setRep _).queue _ _ rfl).watchSend.setState _ rfl

theorem ReplyWithErr.does (h : ReplyWithErr w e w') : Does Act.isError w w' := by
  cases h with
  | replied hroom hmod => exact does_errReplied
  | lost h => exact h.does

theorem Act.isError_attempt (a : Act) (h : a.isError = true) : a.isAttempt = true := by
  unfold Act.isAttempt
  split <;> simp_all

theorem Act.isAttempt_init (a : Act) (h : a.isAttempt = true) : a.isInit = true := by
  unfold Act.isInit
  split <;> simp_all

theorem Act.isError_init (a : Act) (h : a.isError = true) : a.isInit = true :=
  a.isAttempt_init (a.isError_attempt h)

theorem Act.isError_wait (a : Act) (h : a.isError = true) : a.isWait = true := by
  unfold Act.isWait
  split <;> simp_all

theorem Act.isError_accept (a : Act) (h : a.isError = true) : a.isAccept = true := by
  unfold Act.isAccept
  split <;> simp_all

/-- A handler may end in an error reply. -/
theorem Does.replyWithErr {K : Act → Bool} {w₁ : World} {rep : UInt8} (h : Does K w w₁)
    (hr : ReplyWithErr (w₁.setRep rep) e w') (hK : ∀ a, a.isError = true → K a = true) :
    Does K w w' :=
  (h.setRep rep).trans (hr.does.mono hK)

/-! ### Requests and commands -/

theorem does_asked {input : List UInt8} : Does Act.isAsk w
    ((((w.setState .asyncDns).setState .asyncDns).emit (.resolve input)).asked) :=
  ((((Does.refl w).setState _ rfl).setState _ rfl).emit _ rfl).keep rfl

section Commands

variable {f : InitFn} {a : Option ReplyAddr} {r : Bool}

theorem FinishReply.does (h : FinishReply w a r w') : Does Act.isError w w' := by
  cases h with
  | skipped => exact .refl w
  | sent hmod => exact ((((Does.refl w).queue _ _ rfl).queue _ _ rfl).queue _ _ rfl).watchSend
  | unwatched hmod => exact ((((Does.refl w).queue _ _ rfl).queue _ _ rfl).queue _ _ rfl).popMod

theorem OpenConnect.does {dst : SockAddr} {r : Option Int} (h : OpenConnect w dst r w') :
    Does Act.isAttempt w w' := by
  cases h with
  | noSocket => exact (Does.refl w).setRep _
  | refused hans hpos hnew herr => exact (((Does.refl w).opened _ _).emit _ rfl).setRep _
  | started hans hpos hnew hok => exact ((Does.refl w).opened _ _).emit _ rfl

theorem FirstAttempt.does {r : Option Int} (h : FirstAttempt w r w') :
    Does Act.isAttempt w w' := by
  cases h with
  | unsupported hsa => exact .refl w
  | literal hsa h => exact h.does
  | resolvedFailed hsa hai h => exact h.does
  | resolved hsa hai h => exact h.does.setInfo rfl

theorem InitConnect.does (h : InitConnect w w') :
    Does Act.isAttempt (w.emit (.invoked .connect)) w' := by
  cases h with
  | noAddr hai hsa => exact (Does.refl _).setRep _
  | notOpened h => exact h.does
  | noMemory h hmalloc => exact h.does.setRep _
  | unwatched h => exact ((h.does.linkServer _).drop _ _).setRep _
  | connecting h => exact (((h.does.linkServer _).drop _ _).setInterest _ _).setState _ rfl

theorem does_listenStarted {sfd : Int} :
    Does Act.isError (w.emit (.invoked f)) (w.listenStarted f sfd) :=
  ((((Does.refl _).opened _ _).linkServer _).setRep _).queue _ _ rfl

theorem InitListen.does (h : InitListen cfg f w w') :
    Does Act.isError (w.emit (.invoked f)) w' := by
  have hreply : ∀ {sfd a r w₂}, FinishReply (w.listenStarted f sfd) a r w₂ →
      Does Act.isError (w.emit (.invoked f)) w₂ := fun h => does_listenStarted.trans h.does
  cases h with
  | notOpened => exact (Does.refl _).setRep _
  | failed haddr hnew hrep => exact (((Does.refl _).opened _ _).setRep _).setFd _ _
  | unnamed haddr hnew => exact ((((Does.refl _).opened _ _).linkServer _).setRep _).setFd _ _
  | unanswered haddr hnew ha h => exact (hreply h).setRep _
  | unlistened haddr hnew ha h => exact (((hreply h).drop _ _).setRep _).setState _ rfl
  | listening haddr hnew ha h => exact (((hreply h).drop _ _).setInterest _ _).setState _ rfl

/-- A command is carried out by one of the three functions. -/
theorem Init.does_invoked (h : Init cfg w w') :
    ∃ f, Does Act.isAttempt (w.emit (.invoked f)) w' ∧ w.info.cmd = f.cmd ∧
      cfg.allows w.info.cmd = true := by
  cases h with
  | connect hcmd hallow h => exact ⟨.connect, h.does, hcmd, by simp [Configs.allows, hcmd, hallow]⟩
  | bind hcmd hallow h =>
    exact ⟨.bind, h.does.mono Act.isError_attempt, hcmd, by simp [Configs.allows, hcmd, hallow]⟩
  | udpa hcmd hallow h =>
    exact ⟨.udpa, h.does.mono Act.isError_attempt, hcmd, by simp [Configs.allows, hcmd, hallow]⟩

theorem Init.does (h : Init cfg w w') : Does Act.isInit w w' := by
  obtain ⟨f, hdoes, -, -⟩ := h.does_invoked
  exact ((Does.refl w).emit _ rfl).trans (hdoes.mono Act.isAttempt_init)

theorem CommandDone.does {o : Obj} {f : Option Fault} (h : CommandDone cfg w o f w') :
    Does Act.isInit w w' := by
  have hset : Does Act.isError w (w.setRep repBadcomm) := (Does.refl w).setRep _
  cases h with
  | refusedLost hno h => exact (hset.trans h.does).mono Act.isError_init
  | refused hno hroom hmod h =>
    exact ((hset.trans does_errReplied).trans h.does).mono Act.isError_init
  | started h hrep => exact h.does
  | failed h hrep hreply => exact h.does.trans (hreply.does.mono Act.isError_init)

theorem ResolverReturned.does {f : Option Fault} (h : ResolverReturned cfg w f w') :
    Does Act.isInit w w' := by
  have hset : Does Act.isError w (w.setRep repGenfail) := (Does.refl w).setRep _
  cases h with
  | lost hret h => exact (hset.trans h.does).mono Act.isError_init
  | failed hret hroom hmod h =>
    exact ((hset.trans does_errReplied).mono Act.isError_init).trans h.does
  | resolved hret h => exact h.does

end Commands

/-! ### Reading -/

theorem Act.isInit_request (a : Act) (h : a.isInit = true) : a.isRequest = true := by
  unfold Act.isRequest
  split <;> simp_all

theorem Act.isAsk_request (a : Act) (h : a.isAsk = true) : a.isRequest = true := by
  unfold Act.isRequest
  split <;> simp_all

theorem Act.isError_request (a : Act) (h : a.isError = true) : a.isRequest = true :=
  a.isInit_request (a.isError_init h)

/-- Of what is queued for the client, only the method reply, which is two octets. -/
theorem WaitingMethods.adds_of {K : Act → Bool}
    (hK : ∀ a, a.isGreeting = true → (∀ bytes, a = .queued .client bytes → bytes.length = 2) →
      K a = true)
    (h : WaitingMethods cfg w e ev w') : Adds K w w' := by
  have hclosed : K (.state .closed) = true := hK _ rfl nofun
  have hreceived : ∀ {n r w₁}, Recv w (w.shared.fd .client) n r w₁ → Does K w w₁ := fun hrecv =>
    (Does.refl w).recv hrecv (fun _ => hK _ rfl nofun) (hK _ rfl nofun)
  have hqueued : ∀ {n bytes w₁}, Recv w (w.shared.fd .client) n (some bytes) w₁ →
      Does K w (w₁.queue .server bytes) := fun hrecv =>
    (hreceived hrecv).queue .server _ (hK _ rfl nofun)
  have hchosen : ∀ {n bytes w₁} got, Recv w (w.shared.fd .client) n (some bytes) w₁ →
      Adds K w ((w₁.queue .server bytes).methodChosen cfg got) := by
    intro n bytes w₁ got hrecv
    have hreply : K (.queued .client [socks5Version, selectMethod cfg (offered got)]) = true := by
      refine hK _ rfl fun bytes heq => ?_
      cases heq
      rfl
    exact (((((hqueued hrecv).drop .server 2).drop .server (got.getD 1 0).toNat).queue .client _
      hreply).setState .sendingMethod (hK _ rfl nofun)).trace
  cases h with
  | idle hidle => exact .refl w
  | ended hrecv hr => exact ((hreceived hrecv).hungUp .client hclosed).trace
  | part hrecv hgot hpart => exact (hqueued hrecv).trace
  | badVersion hrecv hgot hcomplete hversion =>
    exact (((hqueued hrecv).drop _ _).hungUp .client hclosed).trace
  | unwatched hrecv hgot hcomplete hversion hmod =>
    exact (hchosen _ hrecv).trans ((Does.refl _).popMod.hungUp .client hclosed).trace
  | chosen hrecv hgot hcomplete hversion hmod =>
    exact (hchosen _ hrecv).trans (Does.refl _).watchSend.trace

theorem WaitingMethods.adds (h : WaitingMethods cfg w e ev w') : Adds Act.isGreeting w w' :=
  h.adds_of fun _ ha _ => ha

theorem WaitingCommand.adds {f : Option Fault} (h : WaitingCommand cfg w e ev f w') :
    Adds Act.isRequest w w' := by
  cases h with
  | idle hidle => exact .refl w
  | resolver hret h => exact .of_does h.does Act.isInit_request
  | ended hret hrecv hr =>
    exact (((Does.refl w).recv hrecv (fun _ => rfl) rfl).hungUp .client rfl).trace
  | @data bytes got w₁ _ _ hret hrecv hgot h =>
    have hqueued : Adds Act.isRequest w (w₁.queue .server bytes) :=
      (((Does.refl w).recv hrecv (fun _ => rfl) rfl).queue .server bytes rfl).trace
    have hkept : ∀ {w₂ w₃ : World}, Adds Act.isRequest w₂ w₃ →
        w₂.trace = (w₁.queue .server bytes).trace → Adds Act.isRequest w w₃ := fun h htrace =>
      (hqueued.trans (.of_trace htrace)).trans h
    have hasked : ∀ {w₂ w₃ : World} {info : Info},
      Adds Act.isRequest (w₂.emit (.firewall info)) w₃ →
        w₂.trace = (w₁.queue .server bytes).trace → Adds Act.isRequest w w₃ := fun h htrace =>
      hkept (((Adds.refl _).emit _ rfl).trans h) htrace
    cases h with
    | short hlen => exact hqueued
    | badAtyp hlen htotal h => exact hkept (.of_does h.does Act.isError_request) rfl
    | part hlen htotal hpart => exact hqueued
    | badVersion hlen htotal hcomplete hversion =>
      exact hqueued.trans ((Does.refl _).hungUp .client rfl).trace
    | run hlen htotal hcomplete hversion h =>
      cases h with
      | domain hatyp => exact hkept (.of_does does_asked Act.isAsk_request) rfl
      | noMemory hatyp hmalloc => exact hqueued
      | dropped hatyp hfirewall h =>
        exact hasked (.of_does (((Does.refl _).setRep _).trans h.does) Act.isError_request) rfl
      | passed hatyp hfirewall h => exact hasked (.of_does h.does Act.isInit_request) rfl

/-! ### Sending replies -/

theorem SendStopped.does {n : Nat} (h : SendStopped w n w') : Does Act.isReply w w' := by
  cases h with
  | failed => exact ((Does.refl w).emit _ rfl).hungUp _ rfl
  | part hk => exact ((Does.refl w).emit _ rfl).drop _ _
  | unwatched hmod => exact (((Does.refl w).emit _ rfl).drop _ _).popMod.hungUp _ rfl

theorem does_sentFront {n : Nat} : Does Act.isReply w (w.sentFront n).watchRecv :=
  (((Does.refl w).emit _ rfl).drop _ _).watchRecv

theorem SendingMethod.does (h : SendingMethod w e ev w') : Does Act.isReply w w' := by
  cases h with
  | idle hidle => exact .refl w
  | stopped h => exact h.does
  | refused hmod hmethod => exact does_sentFront.hungUp _ rfl
  | accepted hmod hmethod => exact does_sentFront.setState _ rfl

theorem SendingReply.does (h : SendingReply w e ev w') : Does Act.isReply w w' := by
  cases h with
  | idle hidle => exact .refl w
  | stopped h => exact h.does
  | refused hmod hrep => exact does_sentFront.hungUp _ rfl
  | connected hmod hrep hcmd => exact does_sentFront.setState _ rfl
  | listening hmod hrep hcmd hstate => exact (does_sentFront.setRep _).setState _ rfl
  | associated hmod hrep hcmd => exact does_sentFront.setState _ rfl
  | odd hmod hrep hcmd hbind => exact does_sentFront

/-! ### The server's descriptor -/

theorem ConnectFailed.does {error : BitVec 32} (h : ConnectFailed w error w') :
    Does Act.isWait w w' := by
  have hnext : Does Act.isWait w w.nextAddr := (Does.refl w).setInfo rfl
  cases h with
  | retry hlen hget => exact hnext.emit _ rfl
  | exhausted hlen hget h => exact hnext.replyWithErr h Act.isError_wait
  | single hlen h => exact (Does.refl w).replyWithErr h Act.isError_wait

theorem does_connectedTo {ss : SockAddr} : Does Act.isError w (w.connectedTo ss) :=
  ((((Does.refl w).setRep _).noted _).queue _ _ rfl).setState _ rfl

theorem does_connectedReply {ss : SockAddr} {a : Option ReplyAddr} {r : Bool}
    (h : FinishReply (w.connectedTo ss) a r w') : Does Act.isError w w' :=
  does_connectedTo.trans h.does

theorem Connecting.does (h : Connecting w e ev w') : Does Act.isWait w w' := by
  have hreply : ∀ {ss a r w₁}, FinishReply (w.connectedTo ss) a r w₁ → Does Act.isWait w w₁ :=
    fun h => (does_connectedReply h).mono Act.isError_wait
  cases h with
  | idle hidle => exact .refl w
  | unknown hso h => exact (Does.refl w).replyWithErr h Act.isError_wait
  | failed hso herr h => exact h.does
  | unnamed hso hname h => exact ((Does.refl w).setRep _).replyWithErr h Act.isError_wait
  | oddFamily hso hname haddr h => exact (does_connectedTo.mono Act.isError_wait).trans h.does
  | unanswered hso hname haddr hr h => exact (hreply hr).replyWithErr h Act.isError_wait
  | unwatched hso hname haddr hr hmod h =>
    exact ((hreply hr).modified hmod).replyWithErr h Act.isError_wait
  | connected hso hname haddr hr hmod => exact (hreply hr).modified hmod

theorem BindListening.does (h : BindListening w e ev w') : Does Act.isAccept w w' := by
  have hpeer : ∀ {newFd : Int} {ss : SockAddr}, Does Act.isAccept w (w.acceptedPeer newFd ss) :=
    (((Does.refl w).setFd _ _).emit _ rfl).noted _
  have hhead : ∀ {newFd : Int} {ss : SockAddr} {w₁ : World},
      Added ((w.acceptedPeer newFd ss).rehomed newFd) newFd (epollIn, some .server) true w₁ →
      Does Act.isAccept w ((w₁.setRep repSuccess).queueHead repSuccess) := fun hadd =>
    (((hpeer.rehomed _).added hadd).setRep _).queue _ _ rfl
  cases h with
  | idle hidle => exact .refl w
  | noPeer hnone h => exact (Does.refl w).replyWithErr h Act.isError_accept
  | noRequest hans hnew hreq h => exact hpeer.replyWithErr h Act.isError_accept
  | otherPeer hans hnew hreq hdiff h => exact hpeer.replyWithErr h Act.isError_accept
  | unwatched hans hnew hreq hsame he hadd h =>
    exact (hpeer.rehomed _).replyWithErr h Act.isError_accept
  | oddFamily hans hnew hreq hsame he hadd haddr h =>
    exact (hhead hadd).replyWithErr h Act.isError_accept
  | unanswered hans hnew hreq hsame he hadd haddr hr h =>
    exact ((hhead hadd).trans (hr.does.mono Act.isError_accept)).replyWithErr h Act.isError_accept
  | accepted hans hnew hreq hsame he hadd haddr hr =>
    exact ((hhead hadd).trans (hr.does.mono Act.isError_accept)).setState _ rfl

/-! ### Relay and teardown -/

theorem Full.does (h : Full w e ev w') : Does Act.isRelay w w' := by
  cases h with
  | idle hidle => exact .refl w
  | sendFailed hout => exact (((Does.refl w).emit _ rfl).flagged _ _).setState _ rfl
  | sentPart hout hk => exact ((Does.refl w).emit _ rfl).drop _ _
  | @drained r w₁ hout hmod =>
    have hdrained : Does Act.isRelay w w₁ := (((Does.refl w).emit _ rfl).drop _ _).modified hmod
    cases r with
    | true => exact hdrained
    | false => exact hdrained.setState _ rfl
  | ended hin hout hrecv hr hmod =>
    exact (((((Does.refl w).recv hrecv
      (fun _ => rfl) rfl).flagged _ _).flagged _ _).setState _ rfl).modified hmod
  | received hin hout hrecv hne hmod =>
    exact (((Does.refl w).recv hrecv (fun _ => rfl) rfl).queue _ _ rfl).modified hmod

end Socksprox
