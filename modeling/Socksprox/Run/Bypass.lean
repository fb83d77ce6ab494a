import Socksprox.Acts
import Socksprox.Firewall
import Socksprox.Sane
import Mathlib.Data.Fin.VecNotation

/-!
Which destinations a connection is made to. A literal address has passed the firewall; the
addresses that the resolver stored have not, so they are as good as what it stored.
-/

namespace Socksprox

/-- What the resolver stores for a CONNECT request that is going to be carried out holds no
address that the firewall's scan of a list refuses. -/
def ResolvedAllowed (cfg : Configs) (w : World) : Input → Prop
  | .resolved gaiRet res => w.dns = .requested → gaiRet = 0 → w.info.cmd = cmdConn →
      cfg.allowConnect = true → checkAi res cfg.blockHead = false
  | _ => True

/-- The destinations so far are not blocked, and neither are those that may be tried yet. -/
structure Vetted (cfg : Configs) (w : World) : Prop where
  past : ∀ fd dst, .connect fd dst ∈ w.trace → ¬ Blocked cfg dst
  future : w.info.cmd = cmdConn → cfg.allowConnect = true → ∀ a ∈ w.info.ai, ¬ Blocked cfg a.aiAddr
  connecting : w.shared.state = .connecting → cfg.allowConnect = true

section Vetted

variable {cfg : Configs} {w w₁ w' : World}

theorem Vetted.congr (h : Vetted cfg w) (htrace : w'.trace = w.trace)
    (hstate : w'.shared.state = w.shared.state) (hcmd : w'.info.cmd = w.info.cmd)
    (hai : w'.info.ai = w.info.ai) : Vetted cfg w' :=
  ⟨htrace ▸ h.past, by simpa [hcmd, hai] using h.future, hstate ▸ h.connecting⟩

theorem Vetted.setRep (h : Vetted cfg w) (rep : UInt8) : Vetted cfg (w.setRep rep) :=
  h.congr rfl rfl rfl rfl

/-- Handlers that make no connection. -/
theorem Vetted.does {K : Act → Bool} (h : Vetted cfg w) (hdoes : Does K w w')
    (hconn : ∀ fd dst, K (.connect fd dst) = false)
    (hstate : K (.state .connecting) = false) : Vetted cfg w' where
  past := fun fd dst hmem => h.past fd dst (hdoes.mem_trace (hconn fd dst) hmem)
  future := by
    have hrequest := hdoes.request
    simp only [Info.request, Prod.mk.injEq] at hrequest
    obtain ⟨-, hcmd, -, -, hai, -⟩ := hrequest
    simpa [hcmd, hai] using h.future
  connecting := fun hs => by
    rcases hdoes.state with heq | hin
    · exact h.connecting (heq ▸ hs)
    · simp [hs, hstate] at hin

/-! ### Where connections go to -/

theorem OpenConnect.dst {dst dst' : SockAddr} {r : Option Int} {fd : Int}
    (h : OpenConnect w dst r w') (hmem : .connect fd dst' ∈ w'.trace) :
    .connect fd dst' ∈ w.trace ∨ dst' = dst := by
  cases h with
  | noSocket => exact .inl hmem
  | refused hans hpos hnew herr =>
    refine (List.mem_append.mp hmem).imp id fun hin => ?_
    simp_all
  | started hans hpos hnew hok =>
    refine (List.mem_append.mp hmem).imp id fun hin => ?_
    simp_all

/-- An address that a CONNECT may go to: the literal one, or a resolved one. -/
def Info.Candidate (info : Info) (dst : SockAddr) : Prop :=
  info.sa = some dst ∨ info.sa = none ∧ ∃ a ∈ info.ai, a.aiAddr = dst

theorem FirstAttempt.dst {r : Option Int} {fd : Int} {dst : SockAddr} (h : FirstAttempt w r w')
    (hmem : .connect fd dst ∈ w'.trace) : .connect fd dst ∈ w.trace ∨ w.info.Candidate dst := by
  cases h with
  | unsupported hsa => exact .inl hmem
  | literal hsa h =>
    refine (h.dst hmem).imp id ?_
    rintro rfl
    exact .inl hsa
  | resolvedFailed hsa hai h =>
    refine (h.dst hmem).imp id ?_
    rintro rfl
    exact .inr ⟨hsa, _, by simp [hai], rfl⟩
  | resolved hsa hai h =>
    refine (h.dst hmem).imp id ?_
    rintro rfl
    exact .inr ⟨hsa, _, by simp [hai], rfl⟩

theorem InitConnect.dst {fd : Int} {dst : SockAddr} (h : InitConnect w w')
    (hmem : .connect fd dst ∈ w'.trace) : .connect fd dst ∈ w.trace ∨ w.info.Candidate dst := by
  have hattempt : ∀ {r w₁}, FirstAttempt (w.emit (.invoked .connect)) r w₁ →
      .connect fd dst ∈ w₁.trace → .connect fd dst ∈ w.trace ∨ w.info.Candidate dst := by
    intro r w₁ h hmem
    refine (h.dst hmem).imp (fun hin => ?_) id
    simpa using hin
  cases h with
  | noAddr hai hsa => exact .inl (by simpa using hmem)
  | notOpened h => exact hattempt h hmem
  | noMemory h hmalloc => exact hattempt h hmem
  | unwatched h => exact hattempt h hmem
  | connecting h => exact hattempt h (by simpa using hmem)

theorem ConnectFailed.dst {error : BitVec 32} {fd : Int} {dst : SockAddr}
    (h : ConnectFailed w error w') (hmem : .connect fd dst ∈ w'.trace) :
    .connect fd dst ∈ w.trace ∨ ∃ a ∈ w.info.ai, a.aiAddr = dst := by
  cases h with
  | retry hlen hget =>
    refine (List.mem_append.mp hmem).imp id fun hin => ?_
    obtain ⟨-, rfl⟩ : fd = _ ∧ dst = _ := by simpa using hin
    exact ⟨_, List.mem_of_getElem? hget, rfl⟩
  | exhausted hlen hget h =>
    have hin := h.does.mem_trace rfl hmem
    exact .inl hin
  | single hlen h =>
    have hin := h.does.mem_trace rfl hmem
    exact .inl hin

/-! ### What a handler keeps -/

/-- A command is carried out for a literal address that has passed the firewall, or for
what the resolver stored. -/
theorem Vetted.init (h : Vetted cfg w)
    (hsa : ∀ a, w.info.sa = some a → w.info.cmd = cmdConn → ¬ Blocked cfg a)
    (hinit : Init cfg w w') : Vetted cfg w' := by
  have hlisten : ∀ {f}, InitListen cfg f w w' → Vetted cfg w' := fun {f} hinit =>
    (h.does ((Does.refl (K := Act.isInvoked) w).emit (.invoked f) rfl) (fun _ _ => rfl) rfl).does
      hinit.does (fun _ _ => rfl) rfl
  cases hinit with
  | connect hcmd hallow hinit =>
    have hrequest := hinit.does.request
    simp only [Info.request, Prod.mk.injEq] at hrequest
    obtain ⟨-, hcmd', -, -, hai', -⟩ := hrequest
    refine ⟨fun fd dst hmem => ?_, by simpa [hcmd', hai'] using h.future, fun _ => hallow⟩
    rcases hinit.dst hmem with hin | hsome | ⟨-, a, ha, rfl⟩
    · exact h.past fd dst hin
    · exact hsa dst hsome hcmd
    · exact h.future hcmd hallow a ha
  | bind hcmd hallow hinit => exact hlisten hinit
  | udpa hcmd hallow hinit => exact hlisten hinit

theorem Vetted.commandDone {o : Obj} {f : Option Fault} (h : Vetted cfg w)
    (hsa : ∀ a, w.info.sa = some a → w.info.cmd = cmdConn → ¬ Blocked cfg a)
    (hdone : CommandDone cfg w o f w') : Vetted cfg w' := by
  have hset := h.setRep repBadcomm
  cases hdone with
  | refusedLost hno hlost => exact hset.does hlost.does (fun _ _ => rfl) rfl
  | refused hno hroom hmod hreply =>
    exact (hset.does does_errReplied (fun _ _ => rfl) rfl).does hreply.does (fun _ _ => rfl) rfl
  | started hinit hrep => exact h.init hsa hinit
  | failed hinit hrep hreply => exact (h.init hsa hinit).does hreply.does (fun _ _ => rfl) rfl

theorem Vetted.resolverReturned {f : Option Fault} (h : Vetted cfg w) (hsa : w.info.sa = none)
    (hret : ResolverReturned cfg w f w') : Vetted cfg w' := by
  have hset := h.setRep repGenfail
  cases hret with
  | lost hne hlost => exact hset.does hlost.does (fun _ _ => rfl) rfl
  | failed hne hroom hmod hdone =>
    refine (hset.does does_errReplied (fun _ _ => rfl) rfl).commandDone (fun a ha => ?_) hdone
    have hsome : w.info.sa = some a := by simpa [World.errReplied] using ha
    rw [hsa] at hsome
    cases hsome
  | resolved hne hdone => exact h.commandDone (fun a ha => by rw [hsa] at ha; cases ha) hdone

theorem Vetted.addrStored (h : Vetted cfg w) (req : List UInt8) : Vetted cfg (w.addrStored req) :=
  h.congr rfl rfl rfl rfl

theorem Vetted.runRequest {req : List UInt8} {f : Option Fault} (h : Vetted cfg w)
    (hrun : RunRequest cfg w req f w') : Vetted cfg w' := by
  have hstored : Vetted cfg ((w.addrStored req).emit (.firewall (w.addrStored req).info)) :=
    (h.addrStored req).does (K := Act.isAsk) ((Does.refl _).emit _ rfl) (fun _ _ => rfl) rfl
  cases hrun with
  | domain hatyp =>
    exact h.does does_asked (fun _ _ => rfl) rfl
  | noMemory hatyp hmalloc => exact h
  | dropped hatyp hfirewall hreply =>
    exact (hstored.setRep _).does hreply.does (fun _ _ => rfl) rfl
  | passed hatyp hfirewall hdone =>
    refine hstored.commandDone (fun a ha hcmd => ?_) hdone
    refine not_blocked_of_firewall ha ?_ hfirewall
    rw [hcmd]
    decide

/-- Until the resolver has answered there are no addresses that could be tried. -/
theorem Vetted.commandRequest {req : List UInt8} {f : Option Fault} (h : Vetted cfg w)
    (hai : w.info.ai = []) (hrequest : CommandRequest cfg w req f w') : Vetted cfg w' := by
  have hstored : Vetted cfg (w.commandStored req) :=
    ⟨h.past, fun _ _ a ha => by simp [hai] at ha, h.connecting⟩
  cases hrequest with
  | short hlen => exact h
  | badAtyp hlen htotal hreply => exact (h.setRep _).does hreply.does (fun _ _ => rfl) rfl
  | part hlen htotal hpart => exact h
  | badVersion hlen htotal hcomplete hversion =>
    exact hstored.does (K := Act.isError) ((Does.refl _).hungUp _ rfl) (fun _ _ => rfl) rfl
  | run hlen htotal hcomplete hversion hrun => exact hstored.runRequest hrun

/-- `waitingcommand`, where an answer of the resolver comes with the addresses it stored, and
bytes of the client come when there are none. -/
theorem Vetted.waitingCommand {e : Side} {ev : Events} {f : Option Fault} (h : Vetted cfg w)
    (hsa : w.info.sa = none) (hai : w.info.resolverRet = -1 → w.info.ai = [])
    (hwait : WaitingCommand cfg w e ev f w') : Vetted cfg w' := by
  cases hwait with
  | idle hidle => exact h
  | resolver hret hwait => exact h.resolverReturned hsa hwait
  | ended hret hrecv hr =>
    have hended := ((Does.refl (K := Act.isRelay) w).recv hrecv
      (fun _ => rfl) rfl).hungUp .client rfl
    exact h.does hended (fun _ _ => rfl) rfl
  | @data bytes got w₁ _ _ hret hrecv hgot hrequest =>
    have hqueued := ((Does.refl (K := Act.isRelay) w).recv hrecv
      (fun _ => rfl) rfl).queue .server bytes rfl
    refine (h.does hqueued (fun _ _ => rfl) rfl).commandRequest ?_ hrequest
    simpa [hrecv.info] using hai hret

theorem Vetted.connectFailed {error : BitVec 32} (h : Vetted cfg w) (hcmd : w.info.cmd = cmdConn)
    (hallow : cfg.allowConnect = true) (hfail : ConnectFailed w error w') : Vetted cfg w' := by
  have hrequest := hfail.does.request
  simp only [Info.request, Prod.mk.injEq] at hrequest
  obtain ⟨-, hcmd', -, -, hai', -⟩ := hrequest
  refine ⟨fun fd dst hmem => ?_, by simpa [hcmd', hai'] using h.future, fun _ => hallow⟩
  rcases hfail.dst hmem with hin | ⟨a, ha, rfl⟩
  · exact h.past fd dst hin
  · exact h.future hcmd hallow a ha

theorem Vetted.connecting_next {e : Side} {ev : Events} (h : Vetted cfg w)
    (hcmd : w.info.cmd = cmdConn) (hallow : cfg.allowConnect = true)
    (hconn : Connecting w e ev w') :
    Vetted cfg w' := by
  cases hconn with
  | idle hidle => exact h
  | unknown hso hreply => exact (h.setRep _).does hreply.does (fun _ _ => rfl) rfl
  | failed hso herr hfail => exact h.connectFailed hcmd hallow hfail
  | unnamed hso hname hreply => exact ((h.setRep _).setRep _).does hreply.does (fun _ _ => rfl) rfl
  | oddFamily hso hname haddr hfail =>
    refine (h.does does_connectedTo (fun _ _ => rfl) rfl).connectFailed ?_ hallow hfail
    simpa [World.connectedTo, World.queueHead] using hcmd
  | unanswered hso hname haddr hr hreply =>
    exact ((h.does (does_connectedReply hr) (fun _ _ => rfl) rfl).setRep _).does hreply.does
      (fun _ _ => rfl) rfl
  | unwatched hso hname haddr hr hmod hreply =>
    exact ((h.does ((does_connectedReply hr).modified hmod)
      (fun _ _ => rfl) rfl).setRep _).does hreply.does (fun _ _ => rfl) rfl
  | connected hso hname haddr hr hmod =>
    exact h.does ((does_connectedReply hr).modified hmod) (fun _ _ => rfl) rfl

/-- The method negotiation comes before any address. -/
theorem Vetted.waitingMethods {e : Side} {ev : Events} (h : Vetted cfg w)
    (hwait : WaitingMethods cfg w e ev w') : Vetted cfg w' := by
  have hqueued : ∀ {r w₁} (bytes : List UInt8),
      Recv w (w.shared.fd .client) (w.shared.out .server).free r w₁ →
      Vetted cfg (w₁.queue .server bytes) := fun bytes hrecv =>
    h.does (((Does.refl (K := Act.isRelay) w).recv hrecv
      (fun _ => rfl) rfl).queue .server bytes rfl)
      (fun _ _ => rfl) rfl
  have hchosen : ∀ {w₁ got}, Vetted cfg w₁ → Vetted cfg (w₁.methodChosen cfg got) := by
    intro w₁ got h
    have hsent := (((Does.refl (K := Act.isMethod) w₁).drop .server 2).drop .server
      (got.getD 1 0).toNat).queue .client [socks5Version, selectMethod cfg (offered got)] rfl
    refine (h.does (hsent.setState .sendingMethod rfl) (fun _ _ => rfl) rfl).congr rfl rfl ?_ ?_
    · simp [World.methodChosen]
    · simp [World.methodChosen]
  cases hwait with
  | idle hidle => exact h
  | ended hrecv hr =>
    have hended := ((Does.refl (K := Act.isRelay) w).recv hrecv
      (fun _ => rfl) rfl).hungUp .client rfl
    exact h.does hended (fun _ _ => rfl) rfl
  | part hrecv hgot hpart => exact hqueued _ hrecv
  | badVersion hrecv hgot hcomplete hversion =>
    exact (hqueued _ hrecv).does (K := Act.isRelay) (((Does.refl _).drop _ _).hungUp _ rfl)
      (fun _ _ => rfl) rfl
  | unwatched hrecv hgot hcomplete hversion hmod =>
    exact (hchosen (hqueued _ hrecv)).does (K := Act.isRelay) ((Does.refl _).popMod.hungUp _ rfl)
      (fun _ _ => rfl) rfl
  | chosen hrecv hgot hcomplete hversion hmod =>
    exact (hchosen (hqueued _ hrecv)).congr rfl rfl rfl rfl

theorem Vetted.handled {e : Side} {ev : Events} {f : Option Fault} (h : Vetted cfg w)
    (hw : Open w) (hs : Sane w) (hh : Handled cfg w e ev f w') : Vetted cfg w' := by
  have hp := hs.phase hw
  cases hh with
  | still hstate => exact h
  | waitingMethods hstate hh => exact h.waitingMethods hh
  | sendingMethod hstate hh => exact h.does hh.does (fun _ _ => rfl) rfl
  | waitingCommand hstate hh =>
    have hearly : w.shared.state.early = true := by simp [hstate, State.early]
    have hidle : w.dns = .idle := not_not.mp fun hne => by
      have hasync := (hs.dns hne).2
      rw [hstate] at hasync
      cases hasync
    exact h.waitingCommand (hp.early hearly).2.1 (fun _ => hp.ai hearly (by simp [hidle])) hh
  | sendingReply hstate hh => exact h.does hh.does (fun _ _ => rfl) rfl
  | connecting hstate hh =>
    exact h.connecting_next (hp.connecting hstate).1 (h.connecting hstate) hh
  | bindListening hstate hh => exact h.does hh.does (fun _ _ => rfl) rfl
  | full hstate hh => exact h.does hh.does (fun _ _ => rfl) rfl
  | halfClose hstate =>
    exact h.does (K := Act.isError) ((Does.refl w).setState _ rfl) (fun _ _ => rfl) rfl
  | closed hstate => exact h.congr rfl rfl rfl rfl

theorem Vetted.stepped {i : Input} {f : Option Fault} (hs : Sane w) (h : Vetted cfg w)
    (hok : ResolvedAllowed cfg w i) (hstep : Stepped cfg w i f w') : Vetted cfg w' := by
  cases hstep.moved with
  | idle hcore =>
    simp only [World.core, Prod.mk.injEq] at hcore
    obtain ⟨htrace, hstate, -, -, hinfo⟩ := hcore
    exact h.congr htrace hstate (by rw [hinfo]) (by rw [hinfo])
  | @answered gaiRet res hdns =>
    refine ⟨h.past, fun hcmd hallow a ha hblocked => ?_, h.connecting⟩
    have hmem : gaiRet = 0 ∧ a ∈ res := by
      simpa [apply_ite] using ha
    have hclear := hok hdns hmem.1 hcmd hallow
    rw [checkAi_iff.mpr ⟨a, hmem.2, hblocked⟩] at hclear
    cases hclear
  | @handled ans rest _ _ _ _ _ hpending hw hd hh =>
    have htaken : Vetted cfg (w.taken rest ans) := h.congr rfl rfl rfl rfl
    exact htaken.handled hw (hs.taken hpending ans) hh
  | @resumed ans rest gaiRet _ _ hpending hw hdns hh =>
    have hp := (hs.taken hpending ans).phase hw
    have hopen := (hs.dns (by simp [hdns]))
    have hearly : w.shared.state.early = true := by simp [hopen.2, State.early]
    have hresumed : Vetted cfg ((w.taken rest ans).resumed gaiRet) := by
      refine ⟨fun fd dst hmem => h.past fd dst ?_, h.future, fun hst => by cases hst⟩
      simpa using hmem
    refine hresumed.waitingCommand (hp.early hearly).2.1
      (fun hret => hp.ai hearly fun r hr => ?_) hh
    · have heq : r = gaiRet := by
        rw [World.taken_dns, hdns] at hr
        cases hr
        rfl
      have hneg : gaiRet = -1 := hret
      omega

/-- **No connection into a blocked network.** In every run in which the resolver stores no
blocked address for a CONNECT request, no connection is attempted to an address in a blocked
network, whether the request named it literally or by a domain name, and whether it is
the first attempt or a later one. -/
theorem connects_not_blocked {fd : Int} {ss : SockAddr} {bufs : Side → OutBuff}
    {mallocs epollAdd : Bool} {w₀ : World} {is : List Input}
    (hw₀ : acceptNewClient fd ss bufs mallocs epollAdd = some w₀)
    (hmeets : Lib.Meets (step cfg) (ResolvedAllowed cfg) is w₀) {sfd : Int} {dst : SockAddr}
    (hconnect : .connect sfd dst ∈ (Lib.run (step cfg) is w₀).state.trace) : ¬ Blocked cfg dst := by
  have hstart : Vetted cfg w₀ := by
    obtain ⟨-, rfl⟩ := acceptNewClient_eq hw₀
    refine ⟨fun _ _ hmem => ?_, fun _ _ a ha => ?_, fun hs => ?_⟩
    · simp [newClient] at hmem
    · simp [newClient, Info.fresh] at ha
    · cases hs
  exact (run_invariant (acceptNewClient_sane hw₀) hstart hmeets
    fun hs h hok hstep => h.stepped hs hok hstep).past sfd dst hconnect

end Vetted

/-! ### The resolver's way around the firewall -/

/-- The server of one blocked host. -/
def blockingConfigs : Configs :=
  { Configs.cleared with
    allowDomains := true, allowConnect := true, methods := noauthMethods
    blockHead := [⟨⟨0xFFFFFFFF, fun _ => 0⟩, .inet ![0, 0] ![10, 0, 0, 1]⟩] }

/-- A client that asks for a connection to the name "a", which resolves to `addr`. -/
def domainConnect (addr : SockAddr) : List Input :=
  greeting 5 ++ clientSends 5 [5, cmdConn, 0, atypDomn, 1, 97, 0, 80] .idle ++
    [.resolved 0 [⟨addr⟩], .poll [.resolver], .handle { Answers.idle with socket := some 6 }]

instance (cfg : Configs) (w : World) (i : Input) : Decidable (ResolvedAllowed cfg w i) := by
  cases i <;> unfold ResolvedAllowed <;> infer_instance

theorem connects_not_blocked_domain :
    .connect 6 (.inet ![0, 80] ![10, 0, 0, 2]) ∈
        (Lib.run (step blockingConfigs) (domainConnect (.inet ![0, 80] ![10, 0, 0, 2]))
          (newClient 5 (.inet ![4, 0] ![127, 0, 0, 1]) fun _ => .zero)).state.trace ∧
      ¬ Blocked blockingConfigs (.inet ![0, 80] ![10, 0, 0, 2]) := by
  have hconnect : .connect 6 (.inet ![0, 80] ![10, 0, 0, 2]) ∈
      (Lib.run (step blockingConfigs) (domainConnect (.inet ![0, 80] ![10, 0, 0, 2]))
        (newClient 5 (.inet ![4, 0] ![127, 0, 0, 1]) fun _ => .zero)).state.trace := by
    decide +kernel
  have haccept : acceptNewClient 5 (.inet ![4, 0] ![127, 0, 0, 1]) (fun _ => .zero) true true =
      some (newClient 5 (.inet ![4, 0] ![127, 0, 0, 1]) fun _ => .zero) := rfl
  exact ⟨hconnect, connects_not_blocked haccept (by decide +kernel) hconnect⟩

/-- A name that resolves to the blocked host is connected to. -/
theorem connects_blocked_domain :
    ¬ ∀ (cfg : Configs) (fd : Int) (ss : SockAddr) (bufs : Side → OutBuff)
      (mallocs epollAdd : Bool) (w₀ : World) (is : List Input),
      acceptNewClient fd ss bufs mallocs epollAdd = some w₀ → ∀ sfd dst,
        .connect sfd dst ∈ (Lib.run (step cfg) is w₀).state.trace → ¬ Blocked cfg dst := by
  intro h
  refine h blockingConfigs 5 (.inet ![4, 0] ![127, 0, 0, 1]) (fun _ => .zero) true true _
    (domainConnect (.inet ![0, 80] ![10, 0, 0, 1])) rfl 6 (.inet ![0, 80] ![10, 0, 0, 1])
    (by decide +kernel) ⟨_, List.mem_singleton_self _, _, _, rfl, by decide⟩

end Socksprox
