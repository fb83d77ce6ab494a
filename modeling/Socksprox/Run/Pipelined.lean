import Socksprox.Run.Bind
import Socksprox.Run.Relay

/-!
What the client sends behind its request, before it has the reply. The handshake leaves it in
`server_out`, where the traffic to the server will be, and `init_connect` and `init_bind` empty
that buffer.
-/

namespace Socksprox

/-! ### What the client sent -/

/-- All that the client sent so far, received or not. -/
def World.clientStream (w : World) : List UInt8 :=
  bytesFrom (w.shared.fd .client) w.trace ++ w.unread (w.shared.fd .client)

/-- What the relay has for the server: what it sent, what is buffered, and what the client's
descriptor still holds. -/
def World.offered (w : World) : List UInt8 :=
  bytesTo (w.shared.fd .server) (sinceState w.trace) ++ (w.shared.out .server).contents ++
    w.unread (w.shared.fd .client)

/-- A method request and a request, with nothing behind them. The request names an address, or
else a domain. -/
def HandshakeInput (got : List UInt8) : Prop :=
  ∃ methods req, MethodRequest methods req got ∧
    ((∃ r : SocksRequest, r.addr ≠ none ∧ req = r.octets) ∨ 4 ≤ req.length ∧ reqAt req 3 = atypDomn)

/-- A request with an address is complete with nothing behind it, as far as the client's bytes
have come when they are handled. -/
def RequestAlone (cfg : Configs) (w : World) : Input → Prop
  | .handle ans => match w.pending with
    | .peer _ (some .client) _ :: rest =>
      w.shared.state = .waitingCommand →
        reqAt ((w.taken rest ans).gathered.take 300) 3 ≠ atypDomn →
        ∀ total ∈ totalLen cfg ((w.taken rest ans).gathered.take 300),
          (w.taken rest ans).gathered.length ≤ total
    | _ => True
  | _ => True

instance (cfg : Configs) (w : World) : DecidablePred (RequestAlone cfg w)
  | .handle ans => match h : w.pending with
    | .peer _ (some .client) _ :: rest =>
      decidable_of_iff (w.shared.state = .waitingCommand →
        reqAt ((w.taken rest ans).gathered.take 300) 3 ≠ atypDomn →
        ∀ total ∈ totalLen cfg ((w.taken rest ans).gathered.take 300),
          (w.taken rest ans).gathered.length ≤ total) (by simp [RequestAlone, h])
    | [] => .isTrue (by simp [RequestAlone, h])
    | .resolver :: _ => .isTrue (by simp [RequestAlone, h])
    | .peer _ none _ :: _ => .isTrue (by simp [RequestAlone, h])
    | .peer _ (some .server) _ :: _ => .isTrue (by simp [RequestAlone, h])
  | .arrive .. | .finish _ | .resolved .. | .poll _ => .isTrue trivial

/-- The relay of a connection on which `stream` came from the client, reached by a run whose steps
meet `C`. -/
def Relays (cfg : Configs) (C : World → Input → Prop) (stream : List UInt8) (w : World) : Prop :=
  ∃ fd ss bufs mallocs epollAdd w₀ is, acceptNewClient fd ss bufs mallocs epollAdd = some w₀ ∧
    Lib.Meets (step cfg) C is w₀ ∧ (Lib.run (step cfg) is w₀).state = w ∧
    w.shared.state = .full ∧ w.clientStream = stream

/-! ### Where the handshake ends -/

section Handshake

variable {got got' rest rest' methods methods' : List UInt8}

/-- What follows the request is determined by the bytes. -/
theorem HandshakeInput.payload {payload more : List UInt8} {r : SocksRequest}
    (h : HandshakeInput got) (haddr : r.addr ≠ none)
    (hstream : MethodRequest methods (r.octets ++ payload) (got ++ more)) : more = payload := by
  obtain ⟨methods', req, hmethods, hreq⟩ := h
  have heq : req ++ more = r.octets ++ payload := (hmethods.append more).unique hstream
  have hatyp : reqAt (r.octets ++ payload) 3 = r.dest.atyp := rfl
  rcases hreq with ⟨r', haddr', rfl⟩ | ⟨hlen, hdomain⟩
  · have htotal := SocksRequest.totalLen_octets openConfigs haddr payload
    rw [← heq, SocksRequest.totalLen_octets openConfigs haddr' more, Option.some.injEq] at htotal
    exact (List.append_inj heq htotal).2
  · have hat : reqAt (req ++ more) 3 = atypDomn := by
      rw [reqAt, List.getD_append _ _ _ _ (by omega)]
      exact hdomain
    rw [heq, hatyp] at hat
    exact absurd hat (SocksRequest.atyp_ne_domn haddr)

/-- A complete request with an address and nothing behind it. -/
theorem handshakeInput_of_literal {cfg : Configs} {total : Nat}
    (hmethods : MethodRequest methods rest got) (hlen : 5 ≤ (rest.take 300).length)
    (htotal : totalLen cfg (rest.take 300) = some total)
    (hcomplete : total ≤ (rest.take 300).length) (halone : rest.length ≤ total)
    (hversion : reqAt (rest.take 300) 0 = socks5Version)
    (hatyp : reqAt (rest.take 300) 3 ≠ atypDomn) : HandshakeInput got := by
  have htake : rest.take 300 = rest := by
    rw [List.take_eq_self_iff]
    rw [List.length_take] at hcomplete
    omega
  rw [htake] at hlen htotal hcomplete hversion hatyp
  obtain ⟨r, more, hreq, -, -, haddr⟩ := literal_of_complete htotal hlen hcomplete hversion hatyp
  have hne : r.addr ≠ none := by simp [haddr]
  have hlength := SocksRequest.totalLen_octets cfg hne more
  rw [← hreq, htotal, Option.some.injEq] at hlength
  have hnil : more = [] := by
    have hsum := congrArg List.length hreq
    rw [List.length_append] at hsum
    exact List.length_eq_zero_iff.mp (by omega)
  exact ⟨methods, rest, hmethods, .inl ⟨r, hne, by rw [hreq, hnil, List.append_nil]⟩⟩

end Handshake

/-! ### The invariant -/

/-- Once the server end is there, what came from the client is its method request and its request,
and in the relay what the relay received comes behind these. -/
structure Requested (fd : Int) (w : World) : Prop where
  served : w.served → HandshakeInput (bytesFrom fd w.trace)
  full : w.shared.state = .full → w.shared.fd .client = fd ∧ ∃ got, HandshakeInput got ∧
    bytesFrom fd w.trace = got ++ bytesFrom fd (sinceState w.trace)

section Requested

variable {cfg : Configs} {fd : Int} {w w' : World} {e : Side} {ev : Events} {f : Option Fault}

theorem Requested.congr (h : Requested fd w) (htrace : w'.trace = w.trace)
    (hstate : w'.shared.state = w.shared.state) (hfd : w'.shared.fd = w.shared.fd)
    (hrep : w'.info.rep = w.info.rep) : Requested fd w' where
  served := by simpa [World.served, hstate, hrep, htrace] using h.served
  full := by simpa [hstate, htrace, hfd] using h.full

/-- The server end is not there yet, or not any more. -/
theorem Requested.of_over (hserved : ¬ w.served) (hfull : w.shared.state ≠ .full) :
    Requested fd w where
  served := fun hs => absurd hs hserved
  full := fun hs => absurd hs hfull

theorem Requested.of_refused (h : w.Refused) : Requested fd w := by
  rcases h with hs | ⟨hs, hrep⟩
  · exact .of_over (by simp [World.served, hs]) (by simp [hs])
  · exact .of_over (by simp [World.served, hs, hrep]) (by simp [hs])

/-- All was received before, by a handler that receives nothing. -/
theorem Requested.of_received {K : Act → Bool} (h : HandshakeInput (bytesFrom fd w.trace))
    (hdoes : Does K w w') (hK : ∀ bytes, K (.recv fd bytes) = false)
    (hfull : w'.shared.state ≠ .full) : Requested fd w' where
  served := fun _ => by rwa [hdoes.bytesFrom hK]
  full := fun hs => absurd hs hfull

/-- What follows the method request is a request that names a domain. -/
theorem Gated.domain_input (hg : Gated cfg fd w)
    (hs : w.shared.state = .waitingCommand ∨ w.shared.state = .asyncDns)
    (hlen : 4 ≤ (w.shared.out .server).contents.length)
    (hatyp : reqAt (w.shared.out .server).contents 3 = atypDomn) :
    HandshakeInput (bytesFrom fd w.trace) := by
  obtain ⟨methods, hmethods, -, -⟩ := hg.command hs
  exact ⟨methods, _, hmethods, .inr ⟨hlen, hatyp⟩⟩

theorem Requested.waitingCommand (h : Requested fd w) (hg : Gated cfg fd w) (hw : Open w)
    (hself : w.shared.fd .client = fd) (hs : w.shared.state = .waitingCommand)
    (hret : w.info.resolverRet ≠ -1 → 4 ≤ (w.shared.out .server).contents.length ∧
      reqAt (w.shared.out .server).contents 3 = atypDomn)
    (halone : w.info.resolverRet = -1 → reqAt (w.gathered.take 300) 3 ≠ atypDomn →
      ∀ total ∈ totalLen cfg (w.gathered.take 300), w.gathered.length ≤ total)
    (hwait : WaitingCommand cfg w e ev f w') : Requested fd w' := by
  subst hself
  cases hwait with
  | idle hidle => exact h
  | resolver hne hwait =>
    obtain ⟨hlen, hatyp⟩ := hret hne
    have hstate := hwait.state hw
    refine .of_received (hg.domain_input (.inl hs) hlen hatyp) hwait.does (fun _ => rfl) ?_
    · rcases hstate with hst | hst | hst <;> simp [hst]
  | ended hunasked hrecv hr => exact .of_refused (.inl rfl)
  | @data bytes got w₁ _ _ hunasked hrecv hgot hrequest =>
    have hqueued := hg.received hs hrecv.length_le hrecv
    have hw₁ : Open (w₁.queue .server bytes) := by simpa using hrecv.open hw
    have hs₁ : (w₁.queue .server bytes).shared.state = .waitingCommand := by
      simpa [hrecv.shared] using hs
    have hcontents : ((w₁.queue .server bytes).shared.out .server).contents = got := by
      rw [World.queue_contents (by simpa [hrecv.shared] using hrecv.length_le), hrecv.shared, hgot]
    obtain rfl : got = w.gathered := hgot.trans hrecv.gathered
    have hwaiting : ∀ {v : World}, v.shared.state = .waitingCommand →
        Requested (w.shared.fd .client) v := fun hst =>
      .of_over (by simp [World.served, hst]) (by simp [hst])
    cases hrequest with
    | short hlen => exact hwaiting hs₁
    | badAtyp hlen htotal hreply => exact .of_refused hreply.refused
    | part hlen htotal hpart => exact hwaiting hs₁
    | badVersion hlen htotal hcomplete hversion => exact .of_refused (.inl rfl)
    | run hlen htotal hcomplete hversion hrun =>
      cases hrun with
      | domain hatyp => exact .of_over (by simp [World.served]) (by simp)
      | noMemory hatyp hmalloc => exact hwaiting hs₁
      | dropped hatyp hfirewall hreply => exact .of_refused hreply.refused
      | passed hatyp hfirewall hdone =>
        obtain ⟨methods, hmethods, -, -⟩ := hqueued.command (.inl hs₁)
        rw [hcontents] at hmethods
        have hinput := handshakeInput_of_literal hmethods hlen htotal hcomplete
          (halone hunasked hatyp _ htotal) hversion hatyp
        have hw₂ : Open ((w₁.queue .server bytes).commandStored (w.gathered.take 300)) :=
          hw₁.setInfo rfl rfl
        have hstate := hdone.state (by simpa using hw₂.addrStored (w.gathered.take 300))
        refine .of_received ?_ hdone.does (fun _ => rfl) ?_
        · simpa [Act.bytesFrom] using hinput
        · rcases hstate with hst | hst | hst <;> simp [hst]

/-- The reply to the request is sent: what was received stays the same. -/
theorem Requested.sendingReply (h : Requested fd w) (hself : w.shared.fd .client = fd)
    (hs : w.shared.state.replying = true) (hreply : SendingReply w e ev w') : Requested fd w' := by
  have hfrom : bytesFrom fd w'.trace = bytesFrom fd w.trace := hreply.does.bytesFrom fun _ => rfl
  have hkept : ∀ {v : World}, v.shared.state = w.shared.state → v.info.rep = w.info.rep →
      bytesFrom fd v.trace = bytesFrom fd w.trace → Requested fd v := by
    intro v hst hrep hfrom
    refine ⟨fun hserved => ?_, fun hfull => ?_⟩
    · rw [hfrom]
      exact h.served (by simpa [World.served, hst, hrep] using hserved)
    · simp [← hst, hfull] at hs
  cases hreply with
  | idle hidle => exact h
  | stopped hstop =>
    cases hstop with
    | failed => exact .of_refused (.inl rfl)
    | part hk => exact hkept rfl rfl hfrom
    | unwatched hmod => exact .of_refused (.inl rfl)
  | refused hmod hrep => exact .of_refused (.inl rfl)
  | connected hmod hrep hcmd =>
    have hinput := h.served (.inr (.inr ⟨hs, hrep⟩))
    refine ⟨fun hserved => ?_, fun _ => ⟨hself, _, hinput, ?_⟩⟩
    · rcases hserved with hst | hst | ⟨hst, -⟩ <;> cases hst
    · have hsince : sinceState ((w.sentFront 300).watchRecv.setState .full).trace = [] :=
        sinceState_state _ _
      rw [hfrom, hsince, bytesFrom_nil, List.append_nil]
  | listening hmod hrep hcmd hstate =>
    have hinput := h.served (.inr (.inr ⟨hs, hrep⟩))
    exact ⟨fun _ => by rwa [hfrom], by simp⟩
  | associated hmod hrep hcmd =>
    exact .of_over (by simp [World.served]) (by simp)
  | odd hmod hrep hcmd hbind => exact hkept rfl rfl hfrom

/-- What the relay does adds to what it received. -/
theorem Requested.traffic {K : Act → Bool} (h : Requested fd w) (hs : w.shared.state = .full)
    (hdoes : Does K w w') (hK : ∀ a, K a = true → a.state? = none)
    (hfd : w'.shared.fd = w.shared.fd) : Requested fd w' := by
  obtain ⟨hself, got, hinput, hfrom⟩ := h.full hs
  obtain ⟨acts, htrace, hacts⟩ := hdoes.trace
  have hstate : w'.shared.state = .full := by
    rcases hdoes.state with heq | hin
    · rw [heq, hs]
    · cases hK _ hin
  refine ⟨fun hserved => ?_, fun _ => ⟨by rw [hfd, hself], got, hinput, ?_⟩⟩
  · simp [World.served, hstate] at hserved
  · rw [htrace, sinceState_append _ fun a ha => hK a (hacts a ha), bytesFrom_append, hfrom,
      bytesFrom_append, List.append_assoc]

theorem Requested.relay (h : Requested fd w) (hs : w.shared.state = .full) (hf : Full w e ev w') :
    Requested fd w' := by
  have hrefl : Does (fun a => a.state?.isNone) w w := .refl w
  have htraffic : ∀ {v : World}, Does (fun a => a.state?.isNone) w v → v.shared.fd = w.shared.fd →
      Requested fd v := fun hdoes hfd => h.traffic hs hdoes (by simp) hfd
  have hover : ∀ {v : World}, v.shared.state = .halfClose ∨ v.shared.state = .closed →
      Requested fd v := by
    intro v hst
    rcases hst with hst | hst
    · exact .of_over (by simp [World.served, hst]) (by simp [hst])
    · exact .of_over (by simp [World.served, hst]) (by simp [hst])
  cases hf with
  | idle hidle => exact h
  | sendFailed hout => exact hover (.inl rfl)
  | sentPart hout hk => exact htraffic ((hrefl.emit _ rfl).drop _ _) rfl
  | @drained r w₁ hout hmod =>
    cases r with
    | true =>
      exact htraffic (((hrefl.emit _ rfl).drop _ _).modified hmod)
        (by rw [if_pos rfl, hmod.shared]; rfl)
    | false => exact hover (.inr rfl)
  | ended hin hout hrecv hr hmod => exact hover (.inl (by rw [hmod.shared]; rfl))
  | received hin hout hrecv hne hmod =>
    refine htraffic (((hrefl.recv hrecv (fun _ => rfl) rfl).queue _ _ rfl).modified hmod) ?_
    rw [hmod.shared, World.queue_fd, hrecv.shared]

theorem Requested.handled (h : Requested fd w) (hg : Gated cfg fd w) (hw : Open w) (hp : Phase w)
    (hself : w.shared.fd .client = fd)
    (halone : w.shared.state = .waitingCommand → reqAt (w.gathered.take 300) 3 ≠ atypDomn →
      ∀ total ∈ totalLen cfg (w.gathered.take 300), w.gathered.length ≤ total)
    (hh : Handled cfg w e ev f w') : Requested fd w' := by
  cases hh with
  | still hstate => exact h
  | waitingMethods hstate hh =>
    rcases hh.state hstate with hst | hst | hst <;>
      exact .of_over (by simp [World.served, hst]) (by simp [hst])
  | sendingMethod hstate hh =>
    rcases hh.state hstate with hst | hst | hst <;>
      exact .of_over (by simp [World.served, hst]) (by simp [hst])
  | waitingCommand hstate hh =>
    have hunasked := (hp.early (by simp [hstate])).2.2.1
    exact h.waitingCommand hg hw hself hstate (fun hret => absurd hunasked hret)
      (fun _ => halone hstate) hh
  | sendingReply hstate hh =>
    exact h.sendingReply hself (by rcases hstate with hst | hst <;> simp [hst]) hh
  | connecting hstate hh =>
    have hdoes := hh.does
    refine .of_received (h.served (.inl hstate)) hdoes (fun _ => rfl) fun hst => ?_
    rcases hdoes.state with heq | hin
    · simp [heq, hstate] at hst
    · simp [hst, Act.isWait, Act.isError] at hin
  | bindListening hstate hh =>
    have hdoes := hh.does
    refine .of_received (h.served (.inr (.inl hstate))) hdoes (fun _ => rfl) fun hst => ?_
    rcases hdoes.state with heq | hin
    · simp [heq, hstate] at hst
    · simp [hst, Act.isAccept, Act.isError] at hin
  | full hstate hh => exact h.relay hstate hh
  | halfClose hstate => exact .of_over (by simp [World.served]) (by simp)
  | closed hstate => exact h.congr rfl rfl rfl rfl

/-- The step lemma. -/
theorem Requested.stepped {i : Input} (h : Requested fd w) (hg : Gated cfg fd w)
    (hasks : w.AsksDomain) (hs : Sane w) (hself : w.selfFd .client = fd)
    (halone : RequestAlone cfg w i) (hstep : Stepped cfg w i f w') :
    Requested fd w' := by
  cases hstep.moved with
  | idle hcore =>
    simp only [World.core, Prod.mk.injEq] at hcore
    obtain ⟨htrace, hstate, hout, hfd, hinfo⟩ := hcore
    exact h.congr htrace hstate hfd (by rw [hinfo])
  | answered hdns => exact h.congr rfl rfl rfl rfl
  | @handled ans rest _ e ev _ _ hpending hw hd hh hwant =>
    have htaken : Requested fd (w.taken rest ans) := h.congr rfl rfl rfl rfl
    rcases hwant with rfl | hwant
    · exact htaken
    · have hgated : Gated cfg fd (w.taken rest ans) := hg.congr rfl rfl rfl rfl rfl
      refine htaken.handled hgated hw ((hs.taken hpending ans).phase hw)
        (hw.self_client.symm.trans hself) (fun hstate => ?_) hh
      have hstate' : w.shared.state = .waitingCommand := hstate
      obtain ⟨-, rfl⟩ : ev.epollin = true ∧ e = .client := by
        simpa [World.Wants, hstate'] using hwant
      simp only [RequestAlone, hpending] at halone
      exact halone hstate'
  | @resumed ans rest gaiRet _ _ hpending hw hdns hh =>
    -- The request that was asked for is still in the buffer, and it names a domain.
    have hasync := (hs.dns (by simp [hdns])).2
    have hgated : Gated cfg fd (w.taken rest ans) := hg.congr rfl rfl rfl rfl rfl
    obtain ⟨hlen, hatyp⟩ := hasks hasync
    have hresumed : Requested fd ((w.taken rest ans).resumed gaiRet) :=
      .of_over (by simp [World.served]) (by simp)
    refine hresumed.waitingCommand (hgated.resumed hasync gaiRet) (hw.resumed gaiRet)
      (hw.self_client.symm.trans hself) rfl (fun _ => ⟨hlen, hatyp⟩) (fun _ hne => absurd ?_ hne) hh
    rw [reqAt_take (by decide), World.gathered, reqAt, List.getD_append _ _ _ _ (by exact hlen)]
    exact hatyp

theorem newClient_requested (fd : Int) (ss : SockAddr) (bufs : Side → OutBuff) :
    Requested fd (newClient fd ss bufs) :=
  .of_over (by simp [World.served, newClient]) (by simp [newClient])

/-! ### The payload -/

/-- In the relay the rest of the client's stream is for the server. -/
theorem Requested.offered {methods payload : List UInt8} {r : SocksRequest}
    (h : Requested fd w) (hs : w.shared.state = .full) (hintact : w.IntactTo .server)
    (haddr : r.addr ≠ none) (hstream : MethodRequest methods (r.octets ++ payload) w.clientStream) :
    w.offered = payload := by
  obtain ⟨rfl, got, hinput, hfrom⟩ := h.full hs
  have hrelayed : bytesTo (w.shared.fd .server) (sinceState w.trace) ++
      (w.shared.out .server).contents = bytesFrom (w.shared.fd .client) (sinceState w.trace) :=
    hintact
  rw [World.clientStream, hfrom, List.append_assoc] at hstream
  rw [World.offered, hrelayed]
  exact hinput.payload haddr hstream

/-- The condition of a step under which the payload survives: what the relay receives from the
client fits into the server's buffer. -/
def KeepsPayload (cfg : Configs) (w : World) (i : Input) : Prop :=
  RequestAlone cfg w i ∧ (w.ReadsFrom .client i → ReadsFit w i)

instance (w : World) : DecidablePred (KeepsPayload cfg w) :=
  fun _ => inferInstanceAs (Decidable (_ ∧ (_ → _)))

theorem Relays.offered {stream methods payload : List UInt8} {r : SocksRequest}
    (h : Relays cfg (KeepsPayload cfg) stream w) (haddr : r.addr ≠ none)
    (hstream : MethodRequest methods (r.octets ++ payload) stream) : w.offered = payload := by
  obtain ⟨fd, ss, bufs, mallocs, epollAdd, w₀, is, hw₀, hmeets, rfl, hfull, rfl⟩ := h
  have hsane := acceptNewClient_sane hw₀
  obtain ⟨-, rfl⟩ := acceptNewClient_eq hw₀
  have hrun := client_invariant (C := KeepsPayload cfg)
    (P := fun v => (Gated cfg fd v ∧ v.AsksDomain) ∧ Requested fd v ∧
      (v.shared.state = .full → v.IntactTo .server)) hsane rfl
    ⟨⟨newClient_gated fd ss bufs, fun hs => by cases hs⟩, newClient_requested fd ss bufs,
      fun hs => by cases hs⟩ hmeets
    fun hs hself hP hkeeps hstep =>
      ⟨⟨hP.1.1.stepped hs hself hstep, hP.1.2.stepped hstep⟩,
        hP.2.1.stepped hP.1.1 hP.1.2 hs hself hkeeps.1 hstep,
        World.IntactTo.stepped hs hP.2.2 hkeeps.2 hstep⟩
  exact hrun.2.1.offered hfull (hrun.2.2 hfull) haddr hstream

/-- **Payload behind the request survives while the request comes alone.** Take two runs over the
same client stream, a method request, a request with an address and any payload, in which the
server found nothing behind the request when it was complete and had room for what the relay
received from the client. However the stream was split, at every moment of the relay both offer the
server the payload, all of it and in order. -/
theorem pipelined_kept {stream methods payload : List UInt8} {r : SocksRequest} {w₁ w₂ : World}
    (h₁ : Relays cfg (KeepsPayload cfg) stream w₁) (h₂ : Relays cfg (KeepsPayload cfg) stream w₂)
    (hstream : MethodRequest methods (r.octets ++ payload) stream) (haddr : r.addr ≠ none) :
    w₁.offered = payload ∧ w₂.offered = payload :=
  ⟨h₁.offered haddr hstream, h₂.offered haddr hstream⟩

end Requested

/-- A CONNECT to 10.0.0.1, port 80. -/
def connectRequest : SocksRequest := ⟨cmdConn, 0, .inet ![10, 0, 0, 1], ![0, 80]⟩

/-- The client's stream: its handshake, and `GET`. -/
def connectStream : List UInt8 := [5, 1, methNoauth] ++ (connectRequest.octets ++ [71, 69, 84])

/-- The payload arrives in the relay. -/
def payloadLate : List Input := literalConnect ++ connectDone ++ [.arrive 5 [71, 69, 84]]

/-- The payload arrives while the server is connected to, and is received in the relay. -/
def payloadEarly : List Input :=
  literalConnect ++ .arrive 5 [71, 69, 84] :: connectDone ++
    [.poll [.peer 5 (some .client) epollIn], .handle { Answers.idle with recv := some 3 }]

/-- The payload arrives with the request. -/
def payloadAlong : List Input :=
  greeting 5 ++ clientSends 5 (connectRequest.octets ++ [71, 69, 84])
    { Answers.idle with socket := some 6 } ++ connectDone

/-- The relay of a connection with buffers of zeros, on descriptor 5. -/
theorem relays_of_run {cfg : Configs} {C : World → Input → Prop} {is : List Input}
    {stream : List UInt8}
    (hmeets : Lib.Meets (step cfg) C is
      (newClient 5 (.inet ![4, 0] ![127, 0, 0, 1]) fun _ => .zero))
    (hfull : (Lib.run (step cfg) is
        (newClient 5 (.inet ![4, 0] ![127, 0, 0, 1]) fun _ => .zero)).state.shared.state = .full ∧
      (Lib.run (step cfg) is
        (newClient 5 (.inet ![4, 0] ![127, 0, 0, 1]) fun _ => .zero)).state.clientStream = stream) :
    Relays cfg C stream (Lib.run (step cfg) is
      (newClient 5 (.inet ![4, 0] ![127, 0, 0, 1]) fun _ => .zero)).state :=
  ⟨5, .inet ![4, 0] ![127, 0, 0, 1], fun _ => .zero, true, true, _, is, rfl, hmeets, rfl, hfull⟩

theorem connectStream_request : MethodRequest [methNoauth] (connectRequest.octets ++ [71, 69, 84])
    connectStream := ⟨1, rfl, rfl⟩

theorem pipelined_kept_connect : ∃ w₁ w₂,
    (Lib.run (step openConfigs) payloadLate
      (newClient 5 (.inet ![4, 0] ![127, 0, 0, 1]) fun _ => .zero)).state = w₁ ∧
    (Lib.run (step openConfigs) payloadEarly
      (newClient 5 (.inet ![4, 0] ![127, 0, 0, 1]) fun _ => .zero)).state = w₂ ∧
    w₁.offered = [71, 69, 84] ∧ w₂.offered = [71, 69, 84] := by
  have hlate : Relays openConfigs (KeepsPayload openConfigs) connectStream
      (Lib.run (step openConfigs) payloadLate
        (newClient 5 (.inet ![4, 0] ![127, 0, 0, 1]) fun _ => .zero)).state :=
    relays_of_run (by decide +kernel) (by decide +kernel)
  have hearly : Relays openConfigs (KeepsPayload openConfigs) connectStream
      (Lib.run (step openConfigs) payloadEarly
        (newClient 5 (.inet ![4, 0] ![127, 0, 0, 1]) fun _ => .zero)).state :=
    relays_of_run (by decide +kernel) (by decide +kernel)
  have haddr : connectRequest.addr ≠ none := by simp [connectRequest, SocksRequest.addr]
  exact ⟨_, _, rfl, rfl, pipelined_kept hlate hearly connectStream_request haddr⟩

/-- Of the same stream nothing is left for the server when the payload comes along with the
request. -/
theorem pipelined_lost :
    ¬ ∀ (cfg : Configs) (stream methods payload : List UInt8) (r : SocksRequest) (w₁ w₂ : World),
      Relays cfg (fun _ _ => True) stream w₁ → Relays cfg (fun _ _ => True) stream w₂ →
        MethodRequest methods (r.octets ++ payload) stream → r.addr ≠ none →
        r.cmd = cmdConn ∨ r.cmd = cmdBind → w₁.offered = payload ∧ w₂.offered = payload := by
  intro h
  have hlate : Relays openConfigs (fun _ _ => True) connectStream
      (Lib.run (step openConfigs) payloadLate
        (newClient 5 (.inet ![4, 0] ![127, 0, 0, 1]) fun _ => .zero)).state :=
    relays_of_run (Lib.meets_of_forall (fun _ _ => trivial) _ _) (by decide +kernel)
  have halong : Relays openConfigs (fun _ _ => True) connectStream
      (Lib.run (step openConfigs) payloadAlong
        (newClient 5 (.inet ![4, 0] ![127, 0, 0, 1]) fun _ => .zero)).state :=
    relays_of_run (Lib.meets_of_forall (fun _ _ => trivial) _ _) (by decide +kernel)
  have hlost : (Lib.run (step openConfigs) payloadAlong
      (newClient 5 (.inet ![4, 0] ![127, 0, 0, 1]) fun _ => .zero)).state.offered = [] := by
    decide +kernel
  have haddr : connectRequest.addr ≠ none := by simp [connectRequest, SocksRequest.addr]
  have hkept := (h _ _ _ _ _ _ _ hlate halong connectStream_request haddr (.inl rfl)).2
  rw [hlost] at hkept
  cases hkept

end Socksprox
