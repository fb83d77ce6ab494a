import Socksprox.Replies
import Socksprox.Run.Gate
import Socksprox.Wire

/-!
Whom BIND links the client with: the first peer that connects, if it is the one that the
request named.
-/

namespace Socksprox

/-! ### The address that was named -/

/-- The client sent a request for the command and the address, and the address went to the
firewall. -/
def Named (fd : Int) (cmd : UInt8) (sa : SockAddr) (trace : List Act) : Prop :=
  ∃ before after info methods r rest, trace = before ++ .firewall info :: after ∧
    MethodRequest methods (SocksRequest.octets r ++ rest) (bytesFrom fd before) ∧
    r.cmd = cmd ∧ r.addr = some sa

/-- The address that is stored is the one that the client named. -/
def World.Literal (fd : Int) (w : World) : Prop :=
  ∀ sa, w.info.sa = some sa → Named fd w.info.cmd sa w.trace

theorem Named.append {fd : Int} {cmd : UInt8} {sa : SockAddr} {trace acts : List Act}
    (h : Named fd cmd sa trace) : Named fd cmd sa (trace ++ acts) := by
  obtain ⟨before, after, info, methods, r, rest, rfl, h⟩ := h
  exact ⟨before, after ++ acts, info, methods, r, rest, by simp, h⟩

section Literal

variable {cfg : Configs} {fd : Int} {w w₁ w' : World} {e : Side} {ev : Events} {f : Option Fault}

theorem World.Literal.of_none (h : w.info.sa = none) : w.Literal fd := by
  intro sa hsa
  rw [h] at hsa
  cases hsa

/-- What a handler does after the request was stored keeps it. -/
theorem World.Literal.does {K : Act → Bool} (h : w.Literal fd) (hdoes : Does K w w') :
    w'.Literal fd := by
  intro sa hsa
  obtain ⟨acts, htrace, -⟩ := hdoes.trace
  have hrequest := hdoes.request
  simp only [Info.request, Prod.mk.injEq] at hrequest
  obtain ⟨-, hcmd, -, -, -, hsa'⟩ := hrequest
  rw [htrace, hcmd]
  exact (h sa (hsa' ▸ hsa)).append

theorem World.Literal.answer {rep : UInt8} (h : w.Literal fd)
    (hr : ReplyWithErr (w.setRep rep) e w') :
    w'.Literal fd :=
  h.does (((Does.refl w).setRep rep).trans hr.does)

theorem World.Literal.congr (h : w.Literal fd) (hinfo : w'.info.sa = w.info.sa)
    (hcmd : w'.info.cmd = w.info.cmd) (htrace : w'.trace = w.trace) : w'.Literal fd := by
  intro sa hsa
  rw [htrace, hcmd]
  exact h sa (hinfo ▸ hsa)

/-- The address of a complete request goes to the firewall. -/
theorem Literal.of_request {got : List UInt8} {total : Nat} (hg : Gated cfg fd w)
    (hs : w.shared.state = .waitingCommand) (hgot : (w.shared.out .server).contents = got)
    (hlen : 5 ≤ (got.take 300).length) (htotal : totalLen cfg (got.take 300) = some total)
    (hcomplete : total ≤ (got.take 300).length) (hversion : reqAt (got.take 300) 0 = socks5Version)
    (hatyp : reqAt (got.take 300) 3 ≠ atypDomn) {info : Info} :
    ((((w.commandStored (got.take 300)).addrStored (got.take 300))).emit (.firewall info)).Literal
      fd := by
  intro sa hsa
  obtain ⟨methods, hmethods, -, -⟩ := hg.command (.inl hs)
  obtain ⟨r, rest, hreq, hcmd, -, haddr⟩ :=
    literal_of_complete htotal hlen hcomplete hversion hatyp
  obtain rfl : reqAddr (got.take 300) = sa := by simpa using hsa
  refine ⟨w.trace, [], info, methods, r, rest ++ got.drop 300, rfl, ?_, by simpa using hcmd, haddr⟩
  have hsplit : got = r.octets ++ (rest ++ got.drop 300) := by
    rw [← List.append_assoc, ← hreq, List.take_append_drop]
  rw [hgot] at hmethods
  rwa [← hsplit]

theorem World.Literal.waitingCommand (h : w.Literal fd) (hg : Gated cfg fd w)
    (hself : w.shared.fd .client = fd) (hs : w.shared.state = .waitingCommand)
    (hnone : w.info.resolverRet = -1 → w.info.sa = none) (hwait : WaitingCommand cfg w e ev f w') :
    w'.Literal fd := by
  subst hself
  cases hwait with
  | idle hunwanted => exact h
  | resolver hret h' => exact h.does h'.does
  | ended hret hrecv hr =>
    exact h.does (((Does.refl (K := Act.isRelay) w).recv hrecv
      (fun _ => rfl) rfl).hungUp .client rfl)
  | @data bytes got w₁ _ _ hret hrecv hgot h' =>
    have hqueued := hg.received hs hrecv.length_le hrecv
    have hs₁ : (w₁.queue .server bytes).shared.state = .waitingCommand := by
      simpa [hrecv.shared] using hs
    have hcontents : ((w₁.queue .server bytes).shared.out .server).contents = got := by
      rw [World.queue_contents (by simpa [hrecv.shared] using hrecv.length_le), hrecv.shared, hgot]
    have hsa₁ : (w₁.queue .server bytes).info.sa = none := by
      simpa [hrecv.info] using hnone hret
    have hnone₁ : (w₁.queue .server bytes).Literal (w.shared.fd .client) := .of_none hsa₁
    cases h' with
    | short hlen => exact hnone₁
    | badAtyp hlen htotal h' => exact hnone₁.answer h'
    | part hlen htotal hpart => exact hnone₁
    | badVersion hlen htotal hcomplete hversion => exact .of_none hsa₁
    | run hlen htotal hcomplete hversion h' =>
      have hstored := Literal.of_request hqueued hs₁ hcontents hlen htotal hcomplete hversion
      cases h' with
      | domain hatyp => exact .of_none hsa₁
      | noMemory hatyp hmalloc => exact .of_none hsa₁
      | dropped hatyp hfirewall h' => exact (hstored hatyp).answer h'
      | passed hatyp hfirewall h' => exact (hstored hatyp).does h'.does

theorem World.Literal.handled (h : w.Literal fd) (hg : Gated cfg fd w) (hp : Phase w)
    (hself : w.shared.fd .client = fd) (hh : Handled cfg w e ev f w') : w'.Literal fd := by
  cases hh with
  | still hstate => exact h
  | waitingMethods hstate hh =>
    obtain ⟨-, hsa, -⟩ := hp.early (by simp [hstate])
    refine .of_none ?_
    cases hh with
    | idle hunwanted => exact hsa
    | ended hrecv hr => simpa [hrecv.info] using hsa
    | part hrecv hgot hpart => simpa [hrecv.info] using hsa
    | badVersion hrecv hgot hcomplete hversion => simpa [hrecv.info] using hsa
    | unwatched hrecv hgot hcomplete hversion hmod =>
      simpa [hrecv.info, World.methodChosen] using hsa
    | chosen hrecv hgot hcomplete hversion hmod =>
      simpa [hrecv.info, World.methodChosen] using hsa
  | sendingMethod hstate hh => exact h.does hh.does
  | waitingCommand hstate hh =>
    exact h.waitingCommand hg hself hstate (fun _ => (hp.early (by simp [hstate])).2.1) hh
  | sendingReply hstate hh => exact h.does hh.does
  | connecting hstate hh => exact h.does hh.does
  | bindListening hstate hh => exact h.does hh.does
  | full hstate hh => exact h.does hh.does
  | halfClose hstate => exact h.does ((Does.refl (K := Act.isRelay) w).setState .closed rfl)
  | closed hstate => exact h.congr rfl rfl rfl

theorem World.Literal.stepped {i : Input} (h : w.Literal fd) (hg : Gated cfg fd w) (hs : Sane w)
    (hself : w.selfFd .client = fd) (hstep : Stepped cfg w i f w') : w'.Literal fd := by
  cases hstep.moved with
  | idle hcore =>
    simp only [World.core, Prod.mk.injEq] at hcore
    obtain ⟨htrace, -, -, -, hinfo⟩ := hcore
    exact h.congr (by rw [hinfo]) (by rw [hinfo]) htrace
  | answered hdns => exact h.congr rfl rfl rfl
  | @handled ans rest _ _ _ _ _ hpending hw hd hh =>
    have htaken : (w.taken rest ans).Literal fd := h.congr rfl rfl rfl
    have hg' : Gated cfg fd (w.taken rest ans) := hg.congr rfl rfl rfl rfl rfl
    have hp := (hs.taken hpending ans).phase hw
    exact htaken.handled hg' hp (hw.self_client.symm.trans hself) hh
  | @resumed ans rest gaiRet _ _ hpending hw hdns hh =>
    have htaken := hs.taken hpending ans
    have hasync := (htaken.dns (by rw [World.taken_dns, hdns]; simp)).2
    obtain ⟨-, hsa, -⟩ := (htaken.phase hw).early (by rw [hasync]; rfl)
    have hg' : Gated cfg fd (w.taken rest ans) := hg.congr rfl rfl rfl rfl rfl
    have hresumed : ((w.taken rest ans).resumed gaiRet).Literal fd := .of_none hsa
    exact hresumed.waitingCommand (hg'.resumed hasync gaiRet) (hw.self_client.symm.trans hself) rfl
      (fun _ => hsa) hh

end Literal

/-! ### The peers that were accepted -/

def Act.peer? : Act → Option (Int × SockAddr)
  | .accepted fd ss => some (fd, ss)
  | _ => none

/-- The peers accepted for the request, with their descriptors. -/
def World.peers (w : World) : List (Int × SockAddr) := w.trace.filterMap Act.peer?

/-- The request is refused: an error reply is on its way, or the connection was closed. -/
def World.Refused (w : World) : Prop :=
  w.shared.state = .closed ∨ w.shared.state = .sendingReply ∧ w.info.rep ≠ repSuccess

/-- No peer is awaited any more. -/
def World.Past (w : World) : Prop :=
  w.Refused ∨ w.shared.state = .sendingReply2 ∨ w.shared.state = .full ∨
    w.shared.state = .fullUdpa ∨ w.shared.state = .halfClose

section Peers

variable {cfg : Configs} {fd : Int} {w w₁ w' : World} {e : Side} {ev : Events} {f : Option Fault}

theorem Adds.peers {K : Act → Bool} (h : Adds K w w') (hK : ∀ fd ss, K (.accepted fd ss) = false) :
    w'.peers = w.peers := by
  refine h.filterMap fun a ha => ?_
  cases a with
  | accepted fd ss => simp [hK] at ha
  | _ => rfl

theorem Does.peers {K : Act → Bool} (h : Does K w w') (hK : ∀ fd ss, K (.accepted fd ss) = false) :
    w'.peers = w.peers :=
  Adds.peers h.trace hK

theorem ReplyWithErr.refused (h : ReplyWithErr w e w') : w'.Refused := by
  cases h with
  | replied hroom hmod =>
    exact .inr ⟨rfl, by simpa [World.errReplied] using normRep_ne_success w.info.rep⟩
  | lost h => exact .inl h.state

/-- A request that was refused stays refused. -/
theorem World.Refused.handled (h : w.Refused) (hh : Handled cfg w e ev f w') : w'.Refused := by
  cases hh with
  | sendingReply hstate hh =>
    obtain hclosed | ⟨hs, hrep⟩ := h
    · simp [hclosed] at hstate
    · cases hh with
      | idle hunwanted => exact .inr ⟨hs, hrep⟩
      | stopped hh =>
        cases hh with
        | failed => exact .inl rfl
        | part hk => exact .inr ⟨hs, hrep⟩
        | unwatched hmod => exact .inl rfl
      | refused hmod hrep => exact .inl rfl
      | connected hmod hsuccess hcmd => exact absurd hsuccess hrep
      | listening hmod hsuccess hcmd hstate => exact absurd hsuccess hrep
      | associated hmod hsuccess hcmd => exact absurd hsuccess hrep
      | odd hmod hsuccess hcmd hbind => exact absurd hsuccess hrep
  | closed hstate => exact .inl hstate
  | still hstate => exact h
  | waitingMethods hstate hh => simp [World.Refused, hstate] at h
  | sendingMethod hstate hh => simp [World.Refused, hstate] at h
  | waitingCommand hstate hh => simp [World.Refused, hstate] at h
  | connecting hstate hh => simp [World.Refused, hstate] at h
  | bindListening hstate hh => simp [World.Refused, hstate] at h
  | full hstate hh => simp [World.Refused, hstate] at h
  | halfClose hstate => simp [World.Refused, hstate] at h

theorem World.Past.handled (h : w.Past) (hh : Handled cfg w e ev f w') : w'.Past := by
  obtain h | h := h
  · exact .inl (h.handled hh)
  · cases hh with
    | sendingReply hstate hh =>
      have hs : w.shared.state = .sendingReply2 := by
        rcases hstate with hs | hs
        · simp [hs] at h
        · exact hs
      cases hh with
      | idle hunwanted => exact .inr h
      | stopped hh =>
        cases hh with
        | failed => exact .inl (.inl rfl)
        | part hk => exact .inr h
        | unwatched hmod => exact .inl (.inl rfl)
      | refused hmod hrep => exact .inl (.inl rfl)
      | connected hmod hrep hcmd => exact .inr (.inr (.inl rfl))
      | listening hmod hrep hcmd hstate => simp [hs] at hstate
      | associated hmod hrep hcmd => exact .inr (.inr (.inr (.inl rfl)))
      | odd hmod hrep hcmd hbind => exact .inr h
    | full hstate hh =>
      rcases hh.does.state with heq | hin
      · exact .inr (heq ▸ h)
      · revert hin
        cases hst : w'.shared.state <;> simp [Act.isRelay, World.Past, World.Refused, hst]
    | halfClose hstate => exact .inl (.inl rfl)
    | still hstate => exact .inr h
    | closed hstate => exact .inl (.inl hstate)
    | waitingMethods hstate hh => simp [hstate] at h
    | sendingMethod hstate hh => simp [hstate] at h
    | waitingCommand hstate hh => simp [hstate] at h
    | connecting hstate hh => simp [hstate] at h
    | bindListening hstate hh => simp [hstate] at h

/-- A peer is accepted where none was, and then none is awaited any more. -/
def World.OnePeer (w : World) : Prop := w.peers.length ≤ 1 ∧ (w.peers ≠ [] → w.Past)

theorem World.OnePeer.congr (h : w.OnePeer) (htrace : w'.trace = w.trace)
    (hstate : w'.shared.state = w.shared.state) (hinfo : w'.info = w.info) : w'.OnePeer := by
  unfold World.OnePeer World.peers World.Past World.Refused
  rw [htrace, hstate, hinfo]
  exact h

/-- A handler that accepts no peer. -/
theorem World.OnePeer.kept (h : w.OnePeer) (hpast : w.Past → w'.Past)
    (hpeers : w'.peers = w.peers) :
    w'.OnePeer :=
  ⟨hpeers ▸ h.1, fun hne => hpast (h.2 (hpeers ▸ hne))⟩

theorem peers_acceptedPeer (w : World) (fd : Int) (ss : SockAddr) :
    (w.acceptedPeer fd ss).peers = w.peers ++ [(fd, ss)] := by
  simp [World.peers, World.acceptedPeer, Act.peer?]

theorem ReplyWithErr.peers {rep : UInt8} (h : ReplyWithErr (w.setRep rep) e w') :
    w'.peers = w.peers :=
  (h.does.peers fun _ _ => rfl).trans rfl

/-- At most one peer is accepted, and then none is awaited. -/
theorem BindListening.onePeer (h : BindListening w e ev w') (hnone : w.peers = []) :
    w'.OnePeer := by
  have hpast : ∀ {w' : World} {newFd ss}, w'.Refused →
      w'.peers = (w.acceptedPeer newFd ss).peers → w'.OnePeer := by
    intro w' newFd ss hrefused hpeers
    refine ⟨?_, fun _ => .inl hrefused⟩
    simp [hpeers, peers_acceptedPeer, hnone]
  have hadded : ∀ {newFd ss w₁},
      Added ((w.acceptedPeer newFd ss).rehomed newFd) newFd (epollIn, some .server) true w₁ →
      ((w₁.setRep repSuccess).queueHead repSuccess).peers = (w.acceptedPeer newFd ss).peers := by
    intro newFd ss w₁ hadd
    cases hadd
    exact ((Does.refl (K := Act.isError) _).queue .client _ rfl).peers fun _ _ => rfl
  cases h with
  | idle hidle => simp [World.OnePeer, hnone]
  | noPeer hfail h =>
    refine ⟨?_, fun hne => absurd (h.peers.trans hnone) hne⟩
    simp [h.peers, hnone]
  | noRequest hans hnew hreq h => exact hpast h.refused h.peers
  | otherPeer hans hnew hreq hdiff h => exact hpast h.refused h.peers
  | unwatched hans hnew hreq hsame he hadd h => exact hpast h.refused h.peers
  | oddFamily hans hnew hreq hsame he hadd haddr h =>
    exact hpast h.refused (h.peers.trans (hadded hadd))
  | unanswered hans hnew hreq hsame he hadd haddr hr h =>
    exact hpast h.refused (h.peers.trans ((hr.does.peers fun _ _ => rfl).trans (hadded hadd)))
  | @accepted newFd ss req a w₁ w₂ hans hnew hreq hsame he hadd haddr hr =>
    have hstate : (w₂.setState .sendingReply2).peers = w₂.peers := by
      simp [World.peers, Act.peer?]
    refine ⟨?_, fun _ => .inr (.inl rfl)⟩
    rw [hstate, hr.does.peers fun _ _ => rfl, hadded hadd, peers_acceptedPeer, hnone]
    rfl

theorem World.OnePeer.handled (h : w.OnePeer) (hh : Handled cfg w e ev f w') : w'.OnePeer := by
  have hpast : w.Past → w'.Past := fun hpast => hpast.handled hh
  cases hh with
  | still hstate => exact h
  | waitingMethods hstate hh => exact h.kept hpast (hh.adds.peers fun _ _ => rfl)
  | sendingMethod hstate hh => exact h.kept hpast (hh.does.peers fun _ _ => rfl)
  | waitingCommand hstate hh => exact h.kept hpast (hh.adds.peers fun _ _ => rfl)
  | sendingReply hstate hh => exact h.kept hpast (hh.does.peers fun _ _ => rfl)
  | connecting hstate hh => exact h.kept hpast (hh.does.peers fun _ _ => rfl)
  | bindListening hstate hh =>
    refine hh.onePeer (not_not.mp fun hne => ?_)
    have hafter := h.2 hne
    simp [World.Past, World.Refused, hstate] at hafter
  | full hstate hh => exact h.kept hpast (hh.does.peers fun _ _ => rfl)
  | halfClose hstate => exact h.kept hpast (by simp [World.peers, Act.peer?])
  | closed hstate => exact h.congr rfl rfl rfl

/-- What holds while the connection waits for no answer of the resolver. -/
theorem Stepped.settled {P : World → Prop} {i : Input} (hs : Sane w)
    (hasync : P w → w.shared.state ≠ .asyncDns)
    (hcongr : ∀ v v' : World, v'.trace = v.trace → v'.shared.state = v.shared.state →
      v'.info = v.info → P v → P v')
    (hhandled : ∀ {v v' e ev f}, P v → Handled cfg v e ev f v' → P v') (h : Stepped cfg w i f w')
    (hP : P w) : P w' := by
  have hidle : w.dns = .idle := not_not.mp fun hne => hasync hP (hs.dns hne).2
  cases h.moved with
  | idle hcore =>
    simp only [World.core, Prod.mk.injEq] at hcore
    exact hcongr w w' hcore.1 hcore.2.1 hcore.2.2.2.2 hP
  | answered hdns => simp [hidle] at hdns
  | @handled ans rest _ _ _ _ _ hpending hw hd hh =>
    exact hhandled (hcongr w (w.taken rest ans) rfl rfl rfl hP) hh
  | resumed hpending hw hdns hh => simp [hidle] at hdns

theorem World.Refused.stepped {i : Input} (h : w.Refused) (hs : Sane w)
    (hstep : Stepped cfg w i f w') : w'.Refused := by
  refine hstep.settled hs (fun h hasync => ?_) (fun v v' _ hstate hinfo h => ?_)
    (fun h hh => h.handled hh) h
  · simp [World.Refused, hasync] at h
  · unfold World.Refused
    rw [hstate, hinfo]
    exact h

theorem World.OnePeer.stepped {i : Input} (h : w.OnePeer) (hs : Sane w)
    (hstep : Stepped cfg w i f w') : w'.OnePeer := by
  cases hstep.moved with
  | idle hcore =>
    simp only [World.core, Prod.mk.injEq] at hcore
    exact h.congr hcore.1 hcore.2.1 hcore.2.2.2.2
  | answered hdns =>
    have hasync := (hs.dns (by simp [hdns])).2
    refine h.kept (fun hpast => ?_) rfl
    simp [World.Past, World.Refused, hasync] at hpast
  | @handled ans rest _ _ _ _ _ hpending hw hd hh =>
    have htaken : (w.taken rest ans).OnePeer := h.congr rfl rfl rfl
    exact htaken.handled hh
  | @resumed ans rest gaiRet _ _ hpending hw hdns hh =>
    have hasync := (hs.dns (by simp [hdns])).2
    have hresumed : ((w.taken rest ans).resumed gaiRet).peers = w.peers := by
      simp [World.peers, Act.peer?]
    refine h.kept (fun hpast => ?_) ((hh.adds.peers fun _ _ => rfl).trans hresumed)
    simp [World.Past, World.Refused, hasync] at hpast

/-- The comparison with an address of a known family is equality. -/
theorem peerDiffers_iff {req ss : SockAddr} (hreq : ∃ a, req.replyAddr req.port = some a) :
    peerDiffers req ss = false ↔ ss = req := by
  have hne : afInet ≠ afInet6 := by decide
  cases req with
  | inet port addr =>
    cases ss with
    | other f data ne => simp [peerDiffers, SockAddr.family, ne.1.symm]
    | _ => simp [peerDiffers, SockAddr.family, hne]
  | inet6 port addr =>
    cases ss with
    | other f data ne => simp [peerDiffers, SockAddr.family, ne.2.symm]
    | _ => simp [peerDiffers, SockAddr.family, hne.symm]
  | other f data ne => simp [SockAddr.replyAddr] at hreq

/-- The first peer decides. -/
theorem BindListening.decides {newFd : Int} {ss sa : SockAddr} (hw : Open w)
    (hempty : (w.shared.out .client).contents = []) (hin : ev.epollin = true)
    (hpeer : w.accepts (w.selfFd .server) = some (newFd, ss)) (hadd : w.ans.epollAdd = true)
    (hmod : w.modAnswer = true) (hreq : w.info.reqAddr = some sa)
    (hsa : ∃ a, sa.replyAddr sa.port = some a) (h : BindListening w .server ev w') :
    ss = sa ∧ w'.shared.state = .sendingReply2 ∨
      ss ≠ sa ∧ w'.Refused ∧ w'.shared.state = .sendingReply ∧
        w'.chunks = w.chunks ++ [errReply repRuleset] := by
  obtain ⟨hans, hnew⟩ : w.ans.accept = some (newFd, ss) ∧ w.fds newFd = none := by
    unfold World.accepts at hpeer
    split at hpeer
    · obtain ⟨hans, hnew⟩ := Option.filter_eq_some_iff.mp hpeer
      simp only [World.newFd, Bool.and_eq_true, Option.isNone_iff_eq_none] at hnew
      exact ⟨hans, hnew.2⟩
    · cases hpeer
  have hroom : ∀ {fd : Int} {ss : SockAddr},
    10 ≤ (((w.acceptedPeer fd ss).setRep repRuleset).shared.out
      .client).free := by
    intro fd ss
    show 10 ≤ (w.shared.out .client).free
    rw [World.free_of_open _ hw, Ring.contents_eq_nil.mp hempty]
    decide
  cases h with
  | idle hidle => simp [hin] at hidle
  | noPeer hnone h => simp [hpeer] at hnone
  | noRequest hans' hnew' hreq' h => simp [hreq] at hreq'
  | @otherPeer newFd' ss' req _ hans' hnew' hreq' hdiff h =>
    obtain ⟨rfl, rfl⟩ : newFd = newFd' ∧ ss = ss' := by simpa [hans] using hans'
    obtain rfl : sa = req := by simpa [hreq] using hreq'
    have hne : ss ≠ sa := fun heq => by
      rw [(peerDiffers_iff hsa).mpr heq] at hdiff
      cases hdiff
    refine .inr ⟨hne, h.refused, ?_⟩
    cases h with
    | replied hroom' hmod' =>
      refine ⟨rfl, ?_⟩
      rw [errReplied_chunks hroom]
      simp [normRep, repRuleset]
    | lost h =>
      cases h with
      | noRoom hfull => exact absurd hroom (Nat.not_le.mpr hfull)
      | unwatched _ hmod' => cases hmod.symm.trans hmod'
  | unwatched hans' hnew' hreq' hsame he hadd' h => simp [hadd] at hadd'
  | @oddFamily newFd' ss' req _ _ hans' hnew' hreq' hsame he hadd' haddr h =>
    obtain ⟨-, rfl⟩ : newFd = newFd' ∧ ss = ss' := by simpa [hans] using hans'
    obtain rfl : sa = req := by simpa [hreq] using hreq'
    obtain rfl := (peerDiffers_iff hsa).mp hsame
    simp [haddr] at hsa
  | @unanswered newFd' ss' req a w₁ w₂ _ hans' hnew' hreq' hsame he hadd' haddr hr h =>
    cases hr with
    | unwatched hmod' =>
      cases hadd'
      rw [World.queueHead, World.modAnswer_queue] at hmod'
      cases hmod.symm.trans hmod'
  | @accepted newFd' ss' req a w₁ w₂ hans' hnew' hreq' hsame he hadd' haddr hr =>
    obtain ⟨-, rfl⟩ : newFd = newFd' ∧ ss = ss' := by simpa [hans] using hans'
    obtain rfl : sa = req := by simpa [hreq] using hreq'
    exact .inl ⟨(peerDiffers_iff hsa).mp hsame, rfl⟩

/-- The event of the first peer, with calls that succeed. -/
theorem Stepped.first_peer {lfd newFd : Int} {rest : List Event} {ans : Answers} {ss sa : SockAddr}
    (hs : Sane w) (hw : Open w) (hstate : w.shared.state = .bindListening)
    (hpending : w.pending = .peer lfd (some .server) ev :: rest) (hin : ev.epollin = true)
    (hpeer : (w.taken rest ans).accepts lfd = some (newFd, ss)) (hadd : ans.epollAdd = true)
    (hmods : ∀ r ∈ ans.epollMod, r = true) (hreq : w.info.sa = some sa)
    (hsa : ∃ a, sa.replyAddr sa.port = some a) (h : Stepped cfg w (.handle ans) f w') :
    ss = sa ∧ w'.shared.state = .sendingReply2 ∨
      ss ≠ sa ∧ w'.Refused ∧ w'.shared.state = .sendingReply ∧
        w'.chunks = w.chunks ++ [errReply repRuleset] := by
  have hp := hs.phase hw
  have hempty := hp.quiet (by simp [hstate])
  obtain ⟨hlfd, hlive⟩ := hs.pend lfd .server ev (by simp [hpending])
  subst hlfd
  have hmod : (w.taken rest ans).modAnswer = true := by
    show ans.epollMod.headD true = true
    cases hlist : ans.epollMod with
    | nil => rfl
    | cons r l => exact hmods r (by simp [hlist])
  cases h with
  | waiting hnone => simp [hpending] at hnone
  | @handled _ event rest' _ _ hpending' h =>
    obtain ⟨rfl, rfl⟩ : event = .peer (w.selfFd .server) (some .server) ev ∧ rest' = rest := by
      simpa using hpending'.symm.trans hpending
    have htaken : Open (w.taken rest' ans) := hw.taken rest' ans
    cases h with
    | stale hgone => exact absurd (hlive hw) hgone
    | masked hd hev => simp [hin] at hev
    | shut hshut hd => exact absurd hshut htaken.not_shut
    | handled hw' hd h =>
      have hreq' : (w.taken rest' ans).info.reqAddr = some sa := by simp [Info.reqAddr, hreq]
      have hlisten : BindListening (w.taken rest' ans) .server ev w' := by
        cases h with
        | bindListening hst h => exact h
        | still hst => simp [hstate] at hst
        | waitingMethods hst h => simp [hstate] at hst
        | sendingMethod hst h => simp [hstate] at hst
        | waitingCommand hst h => simp [hstate] at hst
        | sendingReply hst h => simp [hstate] at hst
        | connecting hst h => simp [hstate] at hst
        | full hst h => simp [hstate] at hst
        | halfClose hst => simp [hstate] at hst
        | closed hst => simp [hstate] at hst
      have hdecides := hlisten.decides htaken hempty hin hpeer hadd hmod hreq' hsa
      exact hdecides

/-- The relay of a BIND connection begins when the second reply is out. -/
theorem Stepped.bind_entered {i : Input} (hs : Sane w) (hcmd : w.info.cmd = cmdBind)
    (hnew : w.shared.state ≠ .full) (hfull : w'.shared.state = .full) (h : Stepped cfg w i f w') :
    w.shared.state = .sendingReply2 := by
  obtain ⟨rest, ans, e, ev, htaken, hw, hreplying, h⟩ :=
    h.entered hs (.inl hfull) fun heq => hnew (heq.trans hfull)
  cases h with
  | idle hidle => exact absurd hfull hnew
  | stopped h =>
    cases h with
    | failed => cases hfull
    | part hk => exact absurd hfull hnew
    | unwatched hmod => cases hfull
  | refused hmod hrep => cases hfull
  | connected hmod hrep hconn =>
    rcases hconn with hconn | ⟨-, hstate⟩
    · have hbind : cmdBind = cmdConn := hcmd.symm.trans hconn
      exact absurd hbind (by decide)
    · exact hstate
  | listening hmod hrep hbind hstate => cases hfull
  | associated hmod hrep hudpa => cases hfull
  | odd hmod hrep hodd hbind => exact absurd hfull hnew

end Peers

/-- A literal address is of a family that replies have a type for. -/
theorem SocksRequest.addr_replyAddr {r : SocksRequest} {sa : SockAddr} (h : r.addr = some sa) :
    ∃ a, sa.replyAddr sa.port = some a := by
  unfold SocksRequest.addr at h
  split at h <;> cases h
  · exact ⟨_, rfl⟩
  · exact ⟨_, rfl⟩

/-- A refused request never gets to the relay. -/
theorem World.Refused.run {cfg : Configs} {w : World} (h : w.Refused) (hs : Sane w)
    (is : List Input) : (Lib.run (step cfg) is w).state.shared.state ≠ .full := by
  have hrefused : (Lib.run (step cfg) is w).state.Refused :=
    run_invariant (C := fun _ _ => True) hs h (Lib.meets_of_forall (fun _ _ => trivial) is w)
      fun hs h _ hstep => h.stepped hs hstep
  intro hfull
  simp [World.Refused, hfull] at hrefused

/-- **BIND links only the peer that was named.** No run accepts a second peer, and the relay of a
BIND connection begins in STATE_SENDING_REPLY_2. A peer that connects while the server listens for
a literal address leads there if and only if it is the one that the client named; any other is
refused with `REP_RULESET`, and the relay is never entered. -/
theorem bind_links_named {cfg : Configs} {fd : Int} {ss₀ : SockAddr} {bufs : Side → OutBuff}
    {mallocs epollAdd : Bool} {w₀ : World}
    (hw₀ : acceptNewClient fd ss₀ bufs mallocs epollAdd = some w₀) :
    (∀ is, (Lib.run (step cfg) is w₀).state.peers.length ≤ 1) ∧
    (∀ is i w w', (Lib.run (step cfg) is w₀).state = w →
      (Lib.run (step cfg) (is ++ [i]) w₀).state = w' → w.info.cmd = cmdBind →
      w.shared.state ≠ .full → w'.shared.state = .full → w.shared.state = .sendingReply2) ∧
    ∀ is w lfd ev rest ans newFd ss sa, Lib.run (step cfg) is w₀ = .ok () w →
      w.shared.state = .bindListening → w.info.sa = some sa →
      w.pending = .peer lfd (some .server) ev :: rest → ev.epollin = true →
      (w.taken rest ans).accepts lfd = some (newFd, ss) → ans.epollAdd = true →
      (∀ r ∈ ans.epollMod, r = true) →
      Named fd cmdBind sa w.trace ∧
      ∀ w', (Lib.run (step cfg) (is ++ [.handle ans]) w₀).state = w' →
        (w'.shared.state = .sendingReply2 ↔ ss = sa) ∧
        (ss ≠ sa → w'.chunks = w.chunks ++ [errReply repRuleset] ∧
          ∀ js, (Lib.run (step cfg) (is ++ .handle ans :: js) w₀).state.shared.state ≠ .full) := by
  have hsane := acceptNewClient_sane hw₀
  obtain ⟨-, rfl⟩ := acceptNewClient_eq hw₀
  have hall : ∀ is, Lib.Meets (step cfg) (fun _ _ => True) is (newClient fd ss₀ bufs) := fun is =>
    Lib.meets_of_forall (fun _ _ => trivial) is _
  refine ⟨fun is => ?_, fun is i w w' hw hw' hcmd hnew hfull => ?_, ?_⟩
  · have hnone : (newClient fd ss₀ bufs).peers = [] := rfl
    have hstart : (newClient fd ss₀ bufs).OnePeer := by simp [World.OnePeer, hnone]
    exact (run_invariant hsane hstart (hall is) fun hs h _ hstep => h.stepped hs hstep).1
  · have hlast := run_transition (P := fun _ => True) hsane rfl trivial (hall (is ++ [i]))
      (fun _ _ _ _ _ => trivial) hw hw'
    rcases hlast with rfl | ⟨⟨hs, -, -⟩, -, f, hstep⟩
    · exact absurd hfull hnew
    · exact hstep.bind_entered hs hcmd hnew hfull
  · intro is w lfd ev rest ans newFd ss sa hw hstate hsa hpending hin hpeer hadd hmods
    have hstart : Gated cfg fd (newClient fd ss₀ bufs) ∧ (newClient fd ss₀ bufs).Literal fd :=
      ⟨newClient_gated fd ss₀ bufs, .of_none rfl⟩
    obtain ⟨hs, hself, hg, hliteral⟩ := run_reaches
      (P := fun w => Gated cfg fd w ∧ w.Literal fd) hsane rfl hstart (hall is)
      (fun hs hself h _ hstep => ⟨h.1.stepped hs hself hstep, h.2.stepped h.1 hs hself hstep⟩) hw
    have hw₁ : Open w := hs.conn.resolve_right fun hshut => by
      have hclosed := hshut.state
      rw [hstate] at hclosed
      cases hclosed
    have hp := hs.phase hw₁
    have hnamed : Named fd cmdBind sa w.trace := by
      rw [← (hp.listening hstate).1]
      exact hliteral sa hsa
    obtain ⟨-, -, -, -, r, -, -, -, -, haddr⟩ := id hnamed
    refine ⟨hnamed, fun w' hw' => ?_⟩
    have hlast := hw'
    rw [Lib.run_concat, hw] at hlast
    have hexists : ∃ f, Stepped cfg w (.handle ans) f (step cfg (.handle ans) w).state :=
      step_stepped hs _
    obtain ⟨f, hstep⟩ := hexists
    rw [hlast] at hstep
    rcases hstep.first_peer hs hw₁ hstate hpending hin hpeer hadd hmods hsa
      (SocksRequest.addr_replyAddr haddr) with ⟨hsame, hst⟩ | ⟨hother, hrefused, hst, hchunks⟩
    · exact ⟨⟨fun _ => hsame, fun _ => hst⟩, fun hne => absurd hsame hne⟩
    · refine ⟨⟨fun hst' => ?_, fun heq => absurd heq hother⟩, fun _ => ⟨hchunks, fun js => ?_⟩⟩
      · rw [hst] at hst'
        cases hst'
      · rw [← List.singleton_append, ← List.append_assoc, Lib.run_append]
        cases hrun : Lib.run (step cfg) (is ++ [.handle ans]) (newClient fd ss₀ bufs) with
        | fault e s =>
          obtain rfl : s = w' := by simpa [hrun] using hw'
          simp [hst]
        | ok a s =>
          obtain rfl : s = w' := by simpa [hrun] using hw'
          have hsane' := (run_reaches (P := fun _ => True) hsane rfl trivial (hall _)
            (fun _ _ _ _ _ => trivial) hrun).1
          exact hrefused.run hsane' js

/-- A BIND for 10.0.0.1, port 80, the first reply taken, and a peer at the door. -/
def bindRequest : List Input :=
  greeting 5 ++ clientSends 5 [5, cmdBind, 0, atypIpv4, 10, 0, 0, 1, 0, 80]
    { Answers.idle with
      socket := some 6, getsockname := some (.inet ![31, 64] ![0, 0, 0, 0]) } ++
    clientTakes 5 .idle ++ [.poll [.peer 6 (some .server) epollIn]]

/-- The connection then. -/
def awaitingPeer : World :=
  (Lib.run (step openConfigs) bindRequest
    (newClient 5 (.inet ![4, 0] ![127, 0, 0, 1]) fun _ => .zero)).state

/-- A peer of the other family. -/
def otherPeer : Answers := { Answers.idle with accept := some (7, .inet6 ![0, 80] fun _ => 0) }

/-- The server listens, and the peer never gets to the relay. -/
theorem bind_links_named_other : awaitingPeer.shared.state = .bindListening ∧
    ∀ js, (Lib.run (step openConfigs) (bindRequest ++ .handle otherPeer :: js)
      (newClient 5 (.inet ![4, 0] ![127, 0, 0, 1]) fun _ => .zero)).state.shared.state ≠ .full := by
  have haccept : acceptNewClient 5 (.inet ![4, 0] ![127, 0, 0, 1]) (fun _ => .zero) true true =
      some (newClient 5 (.inet ![4, 0] ![127, 0, 0, 1]) fun _ => .zero) := rfl
  have hlistening : (Lib.run (step openConfigs) bindRequest
        (newClient 5 (.inet ![4, 0] ![127, 0, 0, 1]) fun _ => .zero)).fault? = none ∧
      awaitingPeer.shared.state = .bindListening ∧
      awaitingPeer.pending = [.peer 6 (some .server) epollIn] ∧
      awaitingPeer.info.sa.any (fun sa => sa.family == afInet) = true ∧
      ((awaitingPeer.taken [] otherPeer).fds 6).isSome = true ∧
      (awaitingPeer.taken [] otherPeer).newFd 7 = true := by
    decide +kernel
  obtain ⟨hfault, hstate, hpending, hsa, hlfd, hnew⟩ := hlistening
  refine ⟨hstate, ?_⟩
  obtain ⟨⟨⟩, hok⟩ := Lib.Outcome.eq_ok hfault
  have hpeer : (awaitingPeer.taken [] otherPeer).accepts 6 =
    some (7, .inet6 ![0, 80] fun _ => 0) := by
    rw [World.accepts, if_pos hlfd]
    exact Option.filter_eq_some_iff.mpr ⟨rfl, hnew⟩
  cases hreq : awaitingPeer.info.sa with
  | none => simp [hreq] at hsa
  | some sa =>
    have hother : SockAddr.inet6 ![0, 80] (fun _ => 0) ≠ sa := by
      rintro rfl
      simp [hreq, SockAddr.family, afInet, afInet6] at hsa
    obtain ⟨-, hstep⟩ := (bind_links_named haccept).2.2 bindRequest awaitingPeer 6 epollIn
      [] otherPeer
      7 _ sa hok hstate hreq hpending rfl hpeer rfl (fun r hr => by cases hr)
    exact ((hstep _ rfl).2 hother).2

end Socksprox
