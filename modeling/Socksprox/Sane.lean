import Socksprox.Invariant

/-!
Every input keeps the invariant: first handler by handler, then for the loop, and from
there for whole runs.
-/

namespace Socksprox

open Lib (wp wp_bind wp_pure wp_pure_eq wp_get wp_modify wp_throw wp_ite wp.mono)

variable {cfg : Configs} {e : Side} {ev : Events} {w w' : World}

/-! ### The method negotiation -/

theorem Recv.shared {w₁ : World} {fd : Int} {n : Nat} {r : Option (List UInt8)}
    (h : Recv w fd n r w₁) : w₁.shared = w.shared := by
  obtain ⟨fds, trace, rfl⟩ := h.frame
  rfl

theorem Recv.info {w₁ : World} {fd : Int} {n : Nat} {r : Option (List UInt8)}
    (h : Recv w fd n r w₁) : w₁.info = w.info := by
  obtain ⟨fds, trace, rfl⟩ := h.frame
  rfl

/-- What the handshake receives does not matter to `Phase`. -/
theorem Phase.received {w₁ : World} {fd : Int} {n : Nat} {r : Option (List UInt8)}
    {bytes : List UInt8}
    (hp : Phase w) (hs : w.shared.state.early = true) (hrecv : Recv w fd n r w₁) :
    Phase (w₁.queue .server bytes) := by
  obtain ⟨fds, trace, rfl⟩ := hrecv.frame
  refine Phase.of_early (by simpa using hs) (by simpa using hp.early hs)
    (by simpa using hp.ai hs) ?_ ?_
  · simpa using hp.quiet
  · simpa using hp.method

theorem Mid.methodChosen {w₁ : World} {got : List UInt8} (h : Mid e w w₁) :
    Mid e w (w₁.methodChosen cfg got) :=
  ((((h.drop _ _).drop _ _).queue _ _).setState _).setInfo (by simp) (by simp)

theorem WaitingMethods.next (hm : Mid e w w) (hp : Phase w)
    (hs : w.shared.state = .waitingMethods) (h : WaitingMethods cfg w e ev w') : Next e w w' := by
  have hearly : w.shared.state.early = true := by simp [hs, State.early]
  cases h with
  | idle hidle => exact hm.next hp
  | ended hrecv hr => exact (hm.recv hrecv).hungUp _
  | part hrecv hgot hpart => exact ((hm.recv hrecv).queue _ _).next (hp.received hearly hrecv)
  | badVersion hrecv hgot hcomplete hversion =>
    exact (((hm.recv hrecv).queue _ _).drop _ _).hungUp _
  | unwatched hrecv hgot hcomplete hversion hmod =>
    exact ((hm.recv hrecv).queue _ _).methodChosen.popMod.hungUp _
  | chosen hrecv hgot hcomplete hversion hmod =>
    refine ((hm.recv hrecv).queue _ _).methodChosen.watchSend.next ?_
    obtain ⟨fds, trace, rfl⟩ := hrecv.frame
    have hquiet := hp.quiet (by simp [hs, State.quiet])
    refine Phase.of_early rfl ?_ ?_ (fun h => by cases h) fun _ => ?_
    · simpa [World.methodChosen] using hp.early hearly
    · simpa [World.methodChosen] using hp.ai hearly
    · have hempty : (w.shared.out .client).used = 0 := by rw [← Ring.contents_length, hquiet]; rfl
      refine (World.queue_used_le _ _ _).trans ?_
      simp [hempty]

/-- Sending does not end what goes with the state. -/
theorem Phase.sent (hp : Phase w) (hstate : w'.shared.state = w.shared.state)
    (hserver : w'.shared.out .server = w.shared.out .server)
    (hclient : (w'.shared.out .client).used ≤ (w.shared.out .client).used)
    (hinfo : w'.info = w.info) (hmem : w'.mem = w.mem) (hdns : w'.dns = w.dns) : Phase w' := by
  have hserved : w'.served ↔ w.served := by simp [World.served, hstate, hinfo]
  exact
    { early := by simpa [hstate, hinfo, hmem] using hp.early
      ai := by simpa [hstate, hinfo, hdns] using hp.ai
      quiet := by
        intro hq
        have hempty := hp.quiet (hstate ▸ hq)
        rw [Ring.contents_eq_nil] at hempty ⊢
        omega
      method := fun hm => hclient.trans (hp.method (hstate ▸ hm))
      reply := fun hr => hclient.trans (hp.reply (hstate ▸ hr))
      server := by simpa [hstate, hmem, hserved] using hp.server
      drained := by simpa [hserver, hserved] using hp.drained
      connecting := by simpa [hstate, hinfo] using hp.connecting
      listening := by simpa [hstate, hinfo] using hp.listening
      second := by simpa [hstate, hinfo] using hp.second }

theorem SendStopped.next {n : Nat} (hm : Mid e w w) (hp : Phase w) (h : SendStopped w n w') :
    Next e w w' := by
  cases h with
  | failed => exact (hm.emit _).hungUp _
  | part hk =>
    exact ((hm.emit _).drop _ _).next (hp.sent rfl rfl (Ring.consume_used _ _) rfl rfl rfl)
  | unwatched hmod => exact ((hm.emit _).drop _ _).popMod.hungUp _

/-- A buffer that is sent as a whole is empty afterwards. -/
theorem World.sentFront_contents {n : Nat} (hn : (w.shared.out .client).used ≤ n) :
    ((w.sentFront n).shared.out .client).contents = [] := by
  have hlen : ((w.shared.out .client).peek n).length = (w.shared.out .client).used := by
    simp [Ring.peek, hn]
  simp [hlen]

theorem SendingMethod.next (hm : Mid e w w) (hp : Phase w) (hs : w.shared.state = .sendingMethod)
    (h : SendingMethod w e ev w') : Next e w w' := by
  have hearly : w.shared.state.early = true := by simp [hs, State.early]
  have hmid : Mid e w (w.sentFront 2).watchRecv := ((hm.emit _).drop _ _).watchRecv
  cases h with
  | idle hidle => exact hm.next hp
  | stopped hstop => exact hstop.next hm hp
  | refused hmod hmethod => exact hmid.hungUp _
  | accepted hmod hmethod =>
    refine (hmid.setState _).next (Phase.of_early rfl ?_ ?_ (fun _ => ?_) fun h => by cases h)
    · simpa using hp.early hearly
    · simpa using hp.ai hearly
    · exact World.sentFront_contents (hp.method hs)

theorem SendingReply.next (hm : Mid e w w) (hp : Phase w) (hs : w.shared.state.replying = true)
    (h : SendingReply w e ev w') : Next e w w' := by
  have hmid : Mid e w (w.sentFront 300).watchRecv := ((hm.emit _).drop _ _).watchRecv
  have hsent := World.sentFront_contents ((hp.reply hs).trans (by decide : 60 ≤ 300))
  cases h with
  | idle hidle => exact hm.next hp
  | stopped hstop => exact hstop.next hm hp
  | refused hmod hrep => exact hmid.hungUp _
  | connected hmod hrep hcmd =>
    refine (hmid.setState _).next (Phase.of_late (.inr (.inr ⟨.inl rfl, ?_⟩)))
    exact hp.server (.inl (.inr (.inr ⟨hs, hrep⟩)))
  | listening hmod hrep hcmd hstate =>
    have hserved : w.served := .inr (.inr ⟨hs, hrep⟩)
    refine ((hmid.setRep _).setState _).next (Phase.of_waiting (.inr ⟨rfl, hcmd⟩) rfl hsent ?_ ?_)
    · exact hp.server (.inl hserved)
    · exact hp.drained hserved
  | associated hmod hrep hcmd => exact (hmid.setState _).next (Phase.of_late (.inl rfl))
  | odd hmod hrep hcmd hbind =>
    exact hmid.next (hp.sent rfl rfl (Ring.consume_used _ _) rfl rfl rfl)

/-! ### The request -/

/-- A buffer is empty after as many bytes were taken as it can hold. -/
theorem Open.drop_all (hw : Open w) (s : Side) :
    ((w.drop s outbuffsize).shared.out s).contents = [] := by
  have hcap := hw.capacity s
  have hle := (w.shared.out s).used_le
  simp only [World.drop_shared_out, Function.update_self, Ring.consume_contents]
  exact List.drop_of_length_le (by rw [Ring.contents_length]; omega)

section Connect

variable {w₁ : World} {dst : SockAddr} {r : Option Int}

theorem OpenConnect.mid (hm : Mid e w w₁) (h : OpenConnect w₁ dst r w') : Mid e w w' := by
  cases h with
  | noSocket => exact hm.setRep _
  | refused hans hpos hnew herr => exact ((hm.opened hnew _).emit _).setRep _
  | started hans hpos hnew hok => exact (hm.opened hnew _).emit _

theorem OpenConnect.mem (h : OpenConnect w₁ dst r w') : w'.mem = w₁.mem := by
  cases h <;> rfl

theorem OpenConnect.rep (h : OpenConnect w₁ dst none w') : w'.info.rep = repGenfail := by
  cases h <;> rfl

theorem OpenConnect.info {sfd : Int} (h : OpenConnect w₁ dst (some sfd) w') :
    w'.info = w₁.info := by
  cases h
  rfl

theorem FirstAttempt.mid (hm : Mid e w w₁) (h : FirstAttempt w₁ r w') : Mid e w w' := by
  cases h with
  | unsupported hsa => exact hm
  | literal hsa ho => exact ho.mid hm
  | resolvedFailed hsa hai ho => exact ho.mid hm
  | resolved hsa hai ho => exact (ho.mid hm).setInfo rfl rfl

theorem FirstAttempt.shared (h : FirstAttempt w₁ r w') : w'.shared = w₁.shared := by
  cases h with
  | unsupported hsa => rfl
  | literal hsa ho => exact ho.shared
  | resolvedFailed hsa hai ho => exact ho.shared
  | resolved hsa hai ho => exact ho.shared

theorem FirstAttempt.mem (h : FirstAttempt w₁ r w') : w'.mem = w₁.mem := by
  cases h with
  | unsupported hsa => rfl
  | literal hsa ho => exact ho.mem
  | resolvedFailed hsa hai ho => exact ho.mem
  | resolved hsa hai ho => exact ho.mem

theorem FirstAttempt.rep (h : FirstAttempt w₁ none w') : w'.info.rep = repGenfail := by
  cases h with
  | literal hsa ho => exact ho.rep
  | resolvedFailed hsa hai ho => exact ho.rep

theorem FirstAttempt.info {sfd : Int} (h : FirstAttempt w₁ (some sfd) w') :
    w'.info.rep = w₁.info.rep ∧ w'.info.cmd = w₁.info.cmd := by
  cases h with
  | unsupported hsa => exact ⟨rfl, rfl⟩
  | literal hsa ho => simp [ho.info]
  | resolved hsa hai ho => simp [ho.info]

/-- An attempt needs an address. -/
theorem FirstAttempt.addr (h : FirstAttempt w₁ r w') : w₁.info.sa ≠ none ∨ w₁.info.ai ≠ [] := by
  cases h with
  | unsupported hsa => simp [hsa]
  | literal hsa ho => simp [hsa]
  | resolvedFailed hsa hai ho => simp [hai]
  | resolved hsa hai ho => simp [hai]

theorem Mid.connectStarted {sfd : Int} (hm : Mid e w w₁) (hne : sfd ≠ w₁.shared.fd .client)
    (hnone : w.mem (.data .server) ≠ .live) (hnone₁ : w₁.mem (.data .server) ≠ .live) :
    Mid e w (w₁.connectStarted sfd) := (hm.linkServer hne hnone hnone₁).drop _ _

theorem InitConnect.mid (hm : Mid e w w₁) (hnone : w.mem (.data .server) ≠ .live)
    (hnone₁ : w₁.mem (.data .server) ≠ .live) (h : InitConnect w₁ w') : Mid e w w' := by
  have hm₀ := hm.emit (.invoked .connect)
  cases h with
  | noAddr hai hsa => exact hm₀.setRep _
  | notOpened h => exact h.mid hm₀
  | noMemory h hmalloc => exact (h.mid hm₀).setRep _
  | unwatched h =>
    exact ((h.mid hm₀).connectStarted (h.ne_client hm₀.isOpen) hnone (by simpa [h.mem])).setRep _
  | connecting h =>
    have hstarted := (h.mid hm₀).connectStarted (h.ne_client hm₀.isOpen) hnone (by simpa [h.mem])
    refine (hstarted.setInterest ?_).setState _
    rintro e ⟨⟩
    simp

/-- What `init_connect` leaves: a code for the error, or the server end awaited. -/
theorem InitConnect.done (hw : Open w₁) (h : InitConnect w₁ w') :
    w'.info.rep = repGenfail ∨
      w'.shared.state = .connecting ∧ w'.info.rep = w₁.info.rep ∧ w'.info.cmd = w₁.info.cmd ∧
        w'.mem (.data .server) = .live ∧ (w'.shared.out .server).contents = [] := by
  have hw₀ : Open (w₁.emit (.invoked .connect)) := by simp [hw]
  cases h with
  | noAddr hai hsa => exact .inl rfl
  | notOpened h => exact .inl h.rep
  | noMemory h hmalloc => exact .inl rfl
  | unwatched h => exact .inl rfl
  | connecting h =>
    have hdrop := ((h.open hw₀).linkServer (h.ne_client hw₀)).drop_all .server
    exact .inr ⟨rfl, by simp [h.info], by simp [h.info], by simp, hdrop⟩

theorem InitConnect.client (h : InitConnect w₁ w') :
    w'.shared.out .client = w₁.shared.out .client := by
  cases h with
  | noAddr hai hsa => rfl
  | notOpened h => simp [h.shared]
  | noMemory h hmalloc => simp [h.shared]
  | unwatched h => simp [h.shared]
  | connecting h => simp [h.shared]

end Connect

section Listen

variable {w₁ : World} {f : InitFn} {a : Option ReplyAddr} {r : Bool}

theorem SockAddr.replyAddr_length {sa : SockAddr} {port : Octets 2} {a : ReplyAddr}
    (h : sa.replyAddr port = some a) : a.octets.length ≤ 19 := by
  cases sa with
  | inet p addr => cases h; simp [ReplyAddr.octets]
  | inet6 p addr => cases h; simp [ReplyAddr.octets]
  | other f data ne => cases h

theorem ListenReply.length {a : ReplyAddr} (h : ListenReply cfg w f (some a)) :
    a.octets.length ≤ 19 := by
  generalize ha : some a = o at h
  cases h with
  | bind hadv hss => exact SockAddr.replyAddr_length ha.symm
  | @udpa advertise hadv =>
    cases hsa : advertise.sa <;>
      simp_all [SockaddrLl.nodeReplyAddr, SockaddrLl.nodeOctets, ReplyAddr.octets]

/-- What the success reply says is an address exactly for the two families. -/
theorem ListenReply.isSome_iff (h : ListenReply cfg w f a) :
    (∃ a', a = some a') ↔ IpFamily w.info.af := by
  cases h with
  | bind hadv hss => rw [SockAddr.replyAddr_isSome, firstOf_family hadv]
  | udpa hadv => rw [SockaddrLl.nodeReplyAddr_isSome, firstOf_family hadv]

theorem FinishReply.mid (hm : Mid e w w₁) (h : FinishReply w₁ a r w') : Mid e w w' := by
  cases h with
  | skipped => exact hm
  | sent hmod => exact (((hm.queue _ _).queue _ _).queue _ _).watchSend
  | unwatched hmod => exact (((hm.queue _ _).queue _ _).queue _ _).popMod

theorem World.queueAddr_used {a : ReplyAddr} :
    ((w.queueAddr a).shared.out .client).used ≤ (w.shared.out .client).used + a.octets.length := by
  have hatyp := w.queue_used_le .client [a.atyp]
  have haddr := (w.queue .client [a.atyp]).queue_used_le .client a.addr
  have hport := ((w.queue .client [a.atyp]).queue .client a.addr).queue_used_le .client a.port
  simp only [World.queueAddr, ReplyAddr.octets, List.length_cons, List.length_append,
    List.length_nil] at *
  omega

theorem FinishReply.used (h : FinishReply w₁ a r w') :
    (w'.shared.out .client).used ≤
      (w₁.shared.out .client).used + (a.map fun a => a.octets.length).getD 0 := by
  cases h with
  | skipped => simp
  | sent hmod => simpa using World.queueAddr_used
  | unwatched hmod => simpa using World.queueAddr_used

theorem Mid.listenStarted {sfd : Int} (hm : Mid e w w₁) (hnone : w.mem (.data .server) ≠ .live)
    (hnone₁ : w₁.mem (.data .server) ≠ .live) (hnew : w₁.fds sfd = none) :
    Mid e w (w₁.listenStarted f sfd) := by
  have hopened := (hm.emit (.invoked f)).opened hnew (f == .bind)
  exact ((hopened.linkServer (hm.isOpen.ne_client hnew) hnone hnone₁).setRep _).queue _ _

theorem FinishReply.server {w₂ : World} (h : FinishReply w₁ a r w₂) :
    w₂.shared.out .server = w₁.shared.out .server ∧ w₂.info = w₁.info ∧ w₂.mem = w₁.mem ∧
      w₂.selfFd = w₁.selfFd ∧ w₂.shared.state = w₁.shared.state := by
  cases h <;> simp [World.queueAddr]

theorem FinishReply.modAnswer (h : FinishReply w a r w') :
    r = true ↔ ((∃ a', a = some a') → w.modAnswer = true) := by
  cases h with
  | skipped => simp
  | sent hmod => simp [hmod]
  | unwatched hmod => simp [hmod]

theorem InitListen.mid (hm : Mid e w w₁) (hnone : w.mem (.data .server) ≠ .live)
    (hnone₁ : w₁.mem (.data .server) ≠ .live) (h : InitListen cfg f w₁ w') : Mid e w w' := by
  have hm₀ := hm.emit (.invoked f)
  cases h with
  | notOpened => exact hm₀.setRep _
  | failed haddr hnew hrep =>
    exact ((hm₀.opened hnew _).setRep _).setFd_none (hm.isOpen.ne_client hnew)
  | unnamed haddr hnew =>
    have hlinked := (hm₀.opened hnew (f == .bind)).linkServer
      (hm.isOpen.ne_client hnew) hnone hnone₁
    exact (hlinked.setRep _).setFd_none (by simpa using hm.isOpen.ne_client hnew)
  | unanswered haddr hnew ha h => exact (h.mid (hm.listenStarted hnone hnone₁ hnew)).setRep _
  | unlistened haddr hnew ha h =>
    exact (((h.mid (hm.listenStarted hnone hnone₁ hnew)).drop _ _).setRep _).setState _
  | listening haddr hnew ha h =>
    refine ((((h.mid (hm.listenStarted hnone hnone₁ hnew)).drop _ _).setInterest ?_)).setState _
    rintro e ⟨⟩
    obtain ⟨-, -, hmem, hself, -⟩ := h.server
    simp [hmem, hself, World.listenStarted, World.queueHead]

/-- What `init_bind` and `init_udpa` leave: a code for the error, or the success reply on
its way. -/
theorem InitListen.done (hw : Open w₁) (h : InitListen cfg f w₁ w') :
    (w'.info.rep = repGenfail ∨ w'.info.rep = repBadatyp) ∨
      w'.shared.state = .sendingReply ∧ w'.info.rep = repSuccess ∧
        w'.mem (.data .server) = .live ∧ (w'.shared.out .server).contents = [] := by
  cases h with
  | notOpened => exact .inl (.inl rfl)
  | failed haddr hnew hrep => exact .inl hrep
  | unnamed haddr hnew => exact .inl (.inl rfl)
  | unanswered haddr hnew ha h => exact .inl (.inl rfl)
  | unlistened haddr hnew ha h => exact .inl (.inl rfl)
  | listening haddr hnew ha h =>
    have hdrop := (h.open (hw.listenStarted hnew)).drop_all .server
    obtain ⟨-, hinfo, hmem, -, -⟩ := h.server
    refine .inr ⟨rfl, ?_, ?_, hdrop⟩
    · simp [hinfo, World.listenStarted, World.queueHead]
    · simp [hmem, World.listenStarted, World.queueHead]

/-- A success reply has at most 22 octets. -/
theorem InitListen.used (h : InitListen cfg f w₁ w') :
    (w'.shared.out .client).used ≤ (w₁.shared.out .client).used + 22 := by
  have hstarted : ∀ sfd, ((w₁.listenStarted f sfd).shared.out .client).used ≤
      (w₁.shared.out .client).used + 3 := fun sfd => World.queue_used_le _ _ _
  have hreply : ∀ {sfd a r w₂}, ListenReply cfg w₁ f a →
    FinishReply (w₁.listenStarted f sfd) a r w₂ →
      (w₂.shared.out .client).used ≤ (w₁.shared.out .client).used + 22 := by
    intro sfd a r w₂ ha hr
    have hused := hr.used
    have hstart := hstarted sfd
    cases a with
    | none => simp at hused; omega
    | some a =>
      have hlen := ha.length
      simp at hused
      omega
  cases h with
  | notOpened => simp
  | failed haddr hnew hrep => simp
  | unnamed haddr hnew => simp
  | unanswered haddr hnew ha h => simpa using hreply ha h
  | unlistened haddr hnew ha h => simpa using hreply ha h
  | listening haddr hnew ha h => simpa using hreply ha h

end Listen

section Command

variable {w₁ : World} {o : Obj}

theorem Init.mid (hm : Mid e w w₁) (hnone : w.mem (.data .server) ≠ .live)
    (hnone₁ : w₁.mem (.data .server) ≠ .live) (h : Init cfg w₁ w') : Mid e w w' := by
  cases h with
  | connect hcmd hallow h => exact h.mid hm hnone hnone₁
  | bind hcmd hallow h => exact h.mid hm hnone hnone₁
  | udpa hcmd hallow h => exact h.mid hm hnone hnone₁

theorem Init.used (h : Init cfg w₁ w') :
    (w'.shared.out .client).used ≤ (w₁.shared.out .client).used + 22 := by
  cases h with
  | connect hcmd hallow h => rw [h.client]; omega
  | bind hcmd hallow h => exact h.used
  | udpa hcmd hallow h => exact h.used

/-- A command that was started without an error leaves the server end awaited or its
success reply on the way. -/
theorem Init.phase (hw : Open w₁) (hrep : w₁.info.rep = repUnset)
    (hempty : (w₁.shared.out .client).contents = []) (h : Init cfg w₁ w')
    (hok : w'.info.rep = repUnset ∨ w'.info.rep = repSuccess) : Phase w' := by
  have hne : ¬ w'.info.rep = repGenfail ∧ ¬ w'.info.rep = repBadatyp := by
    rcases hok with hok | hok <;> rw [hok] <;> decide
  have hused := h.used
  rw [Ring.contents_eq_nil.mp hempty] at hused
  have hlisten : ∀ {f}, InitListen cfg f w₁ w' → Phase w' := by
    intro f h
    rcases h.done hw with hbad | ⟨hs, hsuccess, hserver, hdrained⟩
    · tauto
    · exact Phase.of_success (.inl hs) hsuccess (by omega) hserver hdrained (by simp [hs])
  cases h with
  | connect hcmd hallow h =>
    rcases h.done hw with hbad | ⟨hs, hrep', hcmd', hserver, hdrained⟩
    · exact absurd hbad hne.1
    · exact Phase.of_waiting (.inl ⟨hs, hcmd'.trans hcmd⟩) (hrep'.trans hrep)
        (by rw [h.client, hempty]) hserver hdrained
  | bind hcmd hallow h => exact hlisten h
  | udpa hcmd hallow h => exact hlisten h

/-- Without an address nothing is opened. -/
theorem Init.rep_of_noAddr (hsa : w₁.info.sa = none) (hai : w₁.info.ai = []) (h : Init cfg w₁ w') :
    w'.info.rep = repGenfail := by
  have hlisten : ∀ {f}, InitListen cfg f w₁ w' → w'.info.rep = repGenfail := by
    intro f h
    cases h <;> simp_all
  cases h with
  | connect hcmd hallow h =>
    cases h with
    | noAddr hai hsa => rfl
    | notOpened h => exact h.rep
    | noMemory h hmalloc => rfl
    | unwatched h => rfl
    | connecting h =>
      have haddr := h.addr
      simp [hsa, hai] at haddr
  | bind hcmd hallow h => exact hlisten h
  | udpa hcmd hallow h => exact hlisten h

theorem CommandDone.next (hm : Mid e w w₁) (hnone : w.mem (.data .server) ≠ .live)
    (hnone₁ : w₁.mem (.data .server) ≠ .live) (hused : (w₁.shared.out .client).used ≤ 10)
    (hready : w₁.info.rep = repUnset ∧ (w₁.shared.out .client).contents = [] ∨
      w₁.info.sa = none ∧ w₁.info.ai = [])
    (h : CommandDone cfg w₁ o none w') : Next e w w' := by
  cases h with
  | refused hno hroom hmod h =>
    have hreplied := errReplied_used (w := w₁.setRep repBadcomm)
    rw [World.setRep_shared] at hreplied
    exact (hm.setRep _).errReplied.replyWithErr (by omega) h
  | started h hrep =>
    refine (h.mid hm hnone hnone₁).next ?_
    rcases hready with ⟨hrep₁, hempty⟩ | ⟨hsa, hai⟩
    · exact h.phase hm.isOpen hrep₁ hempty hrep
    · rw [h.rep_of_noAddr hsa hai] at hrep
      exact absurd hrep (by decide)
  | failed h hrep hreply =>
    have hinit := h.used
    exact (h.mid hm hnone hnone₁).replyWithErr (by omega) hreply

theorem ResolverReturned.next (hm : Mid e w w₁) (hnone : w.mem (.data .server) ≠ .live)
    (hnone₁ : w₁.mem (.data .server) ≠ .live) (hempty : (w₁.shared.out .client).contents = [])
    (hrep : w₁.info.rep = repUnset) (hsa : w₁.info.sa = none)
    (hai : w₁.info.resolverRet ≠ 0 → w₁.info.ai = [])
    (h : ResolverReturned cfg w₁ none w') : Next e w w' := by
  have hused := Ring.contents_eq_nil.mp hempty
  cases h with
  | failed hret hroom hmod h =>
    have hreplied := errReplied_used (w := w₁.setRep repGenfail)
    rw [World.setRep_shared] at hreplied
    refine h.next (hm.setRep _).errReplied hnone ?_ (by omega) (.inr ⟨?_, ?_⟩)
    · simpa [World.errReplied] using hnone₁
    · simpa [World.errReplied] using hsa
    · simpa [World.errReplied] using hai hret
  | resolved hret h => exact h.next hm hnone hnone₁ (by omega) (.inl ⟨hrep, hempty⟩)

theorem Open.asked (hw : Open w) : Open w.asked := hw.frame rfl id

/-- The request waits for the resolver. -/
theorem Mid.asked (hm : Mid e w w₁) (hs : w₁.shared.state = .asyncDns) (hp : Phase w₁) :
    Next e w w₁.asked := by
  have hearly : w₁.shared.state.early = true := by simp [hs, State.early]
  have hphase : Phase w₁.asked :=
    Phase.of_early hearly (hp.early hearly) (fun _ => hp.ai hearly (by simp [hm.dns])) hp.quiet
      hp.method
  exact ⟨.inl ⟨hm.isOpen.asked, hphase⟩, fun _ => ⟨hm.isOpen.asked, hs⟩, hm.regs, hm.pending,
    hm.self, fun _ => hm.live⟩

theorem RunRequest.next {req : List UInt8} (hm : Mid e w w₁) (hp : Phase w₁)
    (hs : w₁.shared.state = .waitingCommand) (hnone : w.mem (.data .server) ≠ .live)
    (h : RunRequest cfg w₁ req none w') : Next e w w' := by
  have hearly : w₁.shared.state.early = true := by simp [hs, State.early]
  obtain ⟨hrep, hsa, hret, hnone₁⟩ := hp.early hearly
  have hempty := hp.quiet (by simp [hs, State.quiet])
  have hused := Ring.contents_eq_nil.mp hempty
  cases h with
  | domain hatyp =>
    refine (((hm.setState .asyncDns).setState .asyncDns).emit _).asked rfl ?_
    exact Phase.of_early rfl (hp.early hearly) (hp.ai hearly) (fun _ => hempty) fun h => by cases h
  | noMemory hatyp hmalloc => exact hm.next hp
  | dropped hatyp hfirewall h =>
    exact (((hm.addrStored req).emit _).setRep _).replyWithErr (by simp [hused]) h
  | passed hatyp hfirewall h =>
    refine h.next ((hm.addrStored req).emit _) hnone ?_ (by simp [hused]) (.inl ⟨?_, ?_⟩)
    · simpa using hnone₁
    · simpa using hrep
    · simpa using hempty

theorem CommandRequest.next {req : List UInt8} (hm : Mid e w w₁) (hp : Phase w₁)
    (hs : w₁.shared.state = .waitingCommand) (hnone : w.mem (.data .server) ≠ .live)
    (h : CommandRequest cfg w₁ req none w') : Next e w w' := by
  have hearly : w₁.shared.state.early = true := by simp [hs, State.early]
  have hempty := hp.quiet (by simp [hs, State.quiet])
  have hused := Ring.contents_eq_nil.mp hempty
  have hstored : Phase (w₁.commandStored req) :=
    Phase.of_early hearly (hp.early hearly) (hp.ai hearly) (fun _ => hempty)
      fun h => by simp [hs] at h
  have hmid : Mid e w (w₁.commandStored req) := hm.setInfo rfl rfl
  cases h with
  | short hlen => exact hm.next hp
  | badAtyp hlen htotal h => exact (hm.setRep _).replyWithErr (by simp [hused]) h
  | part hlen htotal hpart => exact hm.next hp
  | badVersion hlen htotal hcomplete hversion => exact hmid.hungUp _
  | run hlen htotal hcomplete hversion h => exact h.next hmid hstored hs hnone

theorem WaitingCommand.next (hm : Mid e w w) (hp : Phase w) (hs : w.shared.state = .waitingCommand)
    (h : WaitingCommand cfg w e ev none w') : Next e w w' := by
  have hearly : w.shared.state.early = true := by simp [hs, State.early]
  obtain ⟨hrep, hsa, hret', hnone⟩ := hp.early hearly
  cases h with
  | idle hidle => exact hm.next hp
  | resolver hret h => exact absurd hret' hret
  | ended hret hrecv hr => exact (hm.recv hrecv).hungUp _
  | data hret hrecv hgot h =>
    refine h.next ((hm.recv hrecv).queue _ _) (hp.received hearly hrecv) ?_ hnone
    simpa [hrecv.shared] using hs

/-- The same after the resolver's answer was taken out of its pipe. -/
theorem WaitingCommand.resumed_next {gaiRet : Int} (hw : Open w) (hr : Regs w) (hp : Phase w)
    (hs : w.shared.state = .asyncDns) (hdns : w.dns = .answered gaiRet)
    (h : WaitingCommand cfg (w.resumed gaiRet) .client epollIn none w') : Next .client w w' := by
  have hearly : w.shared.state.early = true := by simp [hs, State.early]
  obtain ⟨hrep, hsa, -, hnone⟩ := hp.early hearly
  have hempty := hp.quiet (by simp [hs, State.quiet])
  have hai : gaiRet ≠ 0 → w.info.ai = [] := fun hret =>
    hp.ai hearly fun r hr => by
      rw [hdns] at hr
      cases hr
      exact hret
  have hmid : Mid .client (w.resumed gaiRet) (w.resumed gaiRet) :=
    Mid.refl (hw.resumed gaiRet) hr rfl
  have hnext : Next .client (w.resumed gaiRet) w' := by
    by_cases hret : gaiRet = -1
    · subst hret
      refine h.next hmid (Phase.of_early rfl ⟨hrep, hsa, rfl, hnone⟩ (fun _ => hai (by decide))
        (fun _ => hempty) fun h => by cases h) rfl
    · cases h with
      | idle hidle => simp [epollIn] at hidle
      | resolver _ h => exact h.next hmid hnone hnone hempty hrep hsa hai
      | ended hret' => exact absurd hret' hret
      | data hret' => exact absurd hret' hret
  exact ⟨hnext.conn, hnext.dns, hnext.regs, hnext.pending, hnext.self, hnext.live⟩

end Command

/-! ### The server's descriptor -/

section Server

variable {w₁ : World}

theorem Phase.nextAddr (hp : Phase w) (a : Act) : Phase (w.nextAddr.emit a) :=
  hp.congr rfl rfl rfl rfl

theorem ConnectFailed.next {error : BitVec 32} (hm : Mid e w w₁) (hp : Phase w₁)
    (hused : (w₁.shared.out .client).used ≤ 50) (h : ConnectFailed w₁ error w') : Next e w w' := by
  have hnext : Mid e w w₁.nextAddr := hm.setInfo rfl rfl
  cases h with
  | retry hlen hget => exact (hnext.emit _).next (hp.nextAddr _)
  | exhausted hlen hget h => exact (hnext.setRep (connectRep error)).replyWithErr hused h
  | single hlen h => exact (hm.setRep (connectRep error)).replyWithErr hused h

theorem Mid.connectedTo (hm : Mid e w w₁) (ss : SockAddr) : Mid e w (w₁.connectedTo ss) :=
  (((hm.setRep _).noted ss).queue _ _).setState _

/-- The success reply, head and address, has at most 22 octets. -/
theorem FinishReply.used_replyAddr {ss : SockAddr} {a : ReplyAddr} {r : Bool}
    (haddr : ss.replyAddr ss.port = some a) (h : FinishReply w₁ (some a) r w') :
    (w'.shared.out .client).used ≤ (w₁.shared.out .client).used + 19 := by
  have hused := h.used
  have hlen := SockAddr.replyAddr_length haddr
  simp only [Option.map_some, Option.getD_some] at hused
  omega

theorem Modified.shared {fd : Int} {i : Events × Option Side} {r : Bool}
    (h : Modified w₁ fd i r w') : w'.shared = w₁.shared := by
  cases h <;> rfl

theorem Modified.info {fd : Int} {i : Events × Option Side} {r : Bool}
    (h : Modified w₁ fd i r w') : w'.info = w₁.info := by
  cases h <;> rfl

theorem FinishReply.connectedTo_live {ss : SockAddr} {a : Option ReplyAddr} {r : Bool}
    (hd : w.mem (.data .server) = .live) (h : FinishReply (w.connectedTo ss) a r w') :
    w'.mem (.data .server) = .live := by
  obtain ⟨-, -, hmem, -, -⟩ := h.server
  rw [hmem]
  simpa [World.connectedTo, World.queueHead] using hd

theorem Connecting.next (hm : Mid e w w) (hp : Phase w) (hs : w.shared.state = .connecting)
    (h : Connecting w e ev w') : Next e w w' := by
  have hempty := hp.quiet (by simp [hs, State.quiet])
  have hused := Ring.contents_eq_nil.mp hempty
  have hserver := hp.server (.inl (.inl hs))
  have hdrained := hp.drained (.inl hs)
  have hstart : ∀ ss, ((w.connectedTo ss).shared.out .client).used ≤ 3 := by
    intro ss
    have hhead := World.queue_used_le ((w.setRep repSuccess).noted ss) .client
      [socks5Version, repSuccess, socks5Resv]
    refine hhead.trans ?_
    simp [hused]
  cases h with
  | idle hidle => exact hm.next hp
  | unknown hso h => exact (hm.setRep _).replyWithErr (by simp [hused]) h
  | failed hso herr h => exact h.next hm hp (by omega)
  | unnamed hso hname h => exact ((hm.setRep _).setRep _).replyWithErr (by simp [hused]) h
  | @oddFamily ss _ hso hname haddr h =>
    have hss := hstart ss
    refine h.next (hm.connectedTo ss) (Phase.of_success (.inl rfl) ?_ (by omega) ?_ ?_ ?_)
      (by omega)
    · simp [World.connectedTo, World.queueHead]
    · simpa [World.connectedTo, World.queueHead] using hserver
    · simpa [World.connectedTo, World.queueHead] using hdrained
    · exact fun h => by cases h
  | @unanswered ss a w₁ _ hso hname haddr hreply h =>
    have hss := hstart ss
    have hlen := hreply.used_replyAddr haddr
    refine ((hreply.mid (hm.connectedTo ss)).setRep _).replyWithErr ?_ h
    rw [World.setRep_shared]
    omega
  | @unwatched ss a w₁ w₂ _ hso hname haddr hreply hmod h =>
    have hss := hstart ss
    have hlen := hreply.used_replyAddr haddr
    have hmid := hreply.mid (hm.connectedTo ss)
    have hlive := FinishReply.connectedTo_live hserver hreply
    refine ((hmid.modified (by rintro e ⟨⟩; exact ⟨rfl, hlive⟩) hmod).setRep _).replyWithErr ?_ h
    rw [World.setRep_shared, hmod.shared]
    omega
  | @connected ss a w₁ _ hso hname haddr hreply hmod =>
    have hss := hstart ss
    have hlen := hreply.used_replyAddr haddr
    have hmid := hreply.mid (hm.connectedTo ss)
    have hlive := FinishReply.connectedTo_live hserver hreply
    obtain ⟨hout, hinfo, -, -, hstate⟩ := hreply.server
    refine (hmid.modified (by rintro e ⟨⟩; exact ⟨rfl, hlive⟩) hmod).next
      (Phase.of_success (.inl ?_) ?_ ?_ ?_ ?_ ?_)
    · rw [hmod.shared, hstate]
      rfl
    · rw [hmod.info, hinfo]
      simp [World.connectedTo, World.queueHead]
    · rw [hmod.shared]
      omega
    · rwa [hmod.mem]
    · rw [hmod.shared, hout]
      simpa [World.connectedTo, World.queueHead] using hdrained
    · intro h
      rw [hmod.shared, hstate] at h
      cases h

theorem Mid.acceptedPeer {newFd : Int} {ss : SockAddr} (hm : Mid e w w₁)
    (hnew : w₁.fds newFd = none) : Mid e w (w₁.acceptedPeer newFd ss) :=
  ((hm.opened hnew false).emit _).noted ss

theorem BindListening.next (hm : Mid e w w) (hp : Phase w) (hs : w.shared.state = .bindListening)
    (h : BindListening w e ev w') : Next e w w' := by
  have hempty := hp.quiet (by simp [hs, State.quiet])
  have hused := Ring.contents_eq_nil.mp hempty
  have hserver := hp.server (.inl (.inr (.inl hs)))
  have hdrained := hp.drained (.inr (.inl hs))
  have hcmd := (hp.listening hs).1
  have hrehomed : ∀ {newFd : Int} (ss : SockAddr), w.fds newFd = none → e = .server →
      Mid e w ((w.acceptedPeer newFd ss).rehomed newFd) := fun ss hnew he =>
    (hm.acceptedPeer hnew).rehomed he (hm.isOpen.ne_client hnew) hserver
  have hadded : ∀ {newFd : Int} {ss : SockAddr} {w₁ : World},
      Mid e w ((w.acceptedPeer newFd ss).rehomed newFd) →
      Added ((w.acceptedPeer newFd ss).rehomed newFd) newFd (epollIn, some .server) true w₁ →
      Mid e w ((w₁.setRep repSuccess).queueHead repSuccess) := by
    intro newFd ss w₁ hmid hadd
    refine ((hmid.added ?_ hadd).setRep _).queue _ _
    rintro e ⟨⟩
    exact ⟨by simp, hserver⟩
  have hhead : ∀ {newFd : Int} {ss : SockAddr} {w₁ : World},
      Added ((w.acceptedPeer newFd ss).rehomed newFd) newFd (epollIn, some .server) true w₁ →
      (((w₁.setRep repSuccess).queueHead repSuccess).shared.out .client).used ≤ 3 := by
    intro newFd ss w₁ hadd
    refine (World.queue_used_le _ _ _).trans ?_
    cases hadd
    simp [World.acceptedPeer, hused]
  cases h with
  | idle hidle => exact hm.next hp
  | noPeer hnone h => exact (hm.setRep repGenfail).replyWithErr (by simp [hused]) h
  | noRequest hans hnew hreq h =>
    exact ((hm.acceptedPeer hnew).setRep repGenfail).replyWithErr
      (by simp [World.acceptedPeer, hused]) h
  | otherPeer hans hnew hreq hdiff h =>
    exact ((hm.acceptedPeer hnew).setRep repRuleset).replyWithErr
      (by simp [World.acceptedPeer, hused]) h
  | @unwatched newFd ss req _ hans hnew hreq hsame he hadd h =>
    exact ((hrehomed ss hnew he).setRep repGenfail).replyWithErr
      (by simp [World.acceptedPeer, hused]) h
  | @oddFamily newFd ss req w₁ _ hans hnew hreq hsame he hadd haddr h =>
    have hlen := hhead hadd
    refine ((hadded (hrehomed ss hnew he) hadd).setRep repGenfail).replyWithErr ?_ h
    rw [World.setRep_shared]
    omega
  | @unanswered newFd ss req a w₁ w₂ _ hans hnew hreq hsame he hadd haddr hreply h =>
    have hlen := hhead hadd
    have hlen' := hreply.used_replyAddr haddr
    refine ((hreply.mid (hadded (hrehomed ss hnew he) hadd)).setRep repGenfail).replyWithErr ?_ h
    rw [World.setRep_shared]
    omega
  | @accepted newFd ss req a w₁ w₂ hans hnew hreq hsame he hadd haddr hreply =>
    have hlen := hhead hadd
    have hlen' := hreply.used_replyAddr haddr
    obtain ⟨hout, hinfo, hmem, -, -⟩ := hreply.server
    refine ((hreply.mid (hadded (hrehomed ss hnew he) hadd)).setState _).next
      (Phase.of_success (.inr rfl) ?_ ?_ ?_ ?_ fun _ => ?_)
    · rw [World.setState_info, hinfo]
      simp [World.queueHead]
    · show (w₂.shared.out .client).used ≤ 60
      omega
    · rw [World.setState_mem, hmem]
      cases hadd
      simpa [World.queueHead, World.acceptedPeer] using hserver
    · show (w₂.shared.out .server).contents = []
      rw [hout]
      cases hadd
      simpa [World.queueHead, World.acceptedPeer] using hdrained
    · rw [World.setState_info, hinfo]
      cases hadd
      simpa [World.queueHead, World.acceptedPeer] using hcmd

/-! ### Relay and teardown -/

theorem Full.next (hm : Mid e w w) (hp : Phase w) (hs : w.shared.state = .full)
    (hd : w.mem (.data e) = .live) (h : Full w e ev w') : Next e w w' := by
  have hserver := hp.server (.inr (.inl hs))
  have hpeer : ∀ s, w.shared.data e.peer = some s →
      w.shared.fd e.peer = w.selfFd s ∧ w.mem (.data s) = .live := by
    intro s hptr
    rw [hm.isOpen.ptr] at hptr
    split at hptr
    · rename_i hlive
      cases hptr
      exact ⟨(hm.isOpen.self _ hlive).symm, hlive⟩
    · cases hptr
  cases h with
  | idle hidle => exact hm.next hp
  | sendFailed hout =>
    exact (((hm.emit _).flagged _ _).setState _).next
      (Phase.of_late (.inr (.inr ⟨.inr rfl, hserver⟩)))
  | sentPart hout hk =>
    exact ((hm.emit _).drop _ _).next (Phase.of_late (.inr (.inr ⟨.inl hs, hserver⟩)))
  | @drained r w₁ hout hmod =>
    have hmid := Mid.modified ((hm.emit _).drop _ _)
      (by rintro e ⟨⟩; exact ⟨rfl, hd⟩) hmod
    cases r with
    | true =>
      refine hmid.next (Phase.of_late (.inr (.inr ⟨.inl ?_, ?_⟩)))
      · rw [hmod.shared]
        exact hs
      · rw [hmod.mem]
        exact hserver
    | false => exact (hmid.setState _).next (Phase.of_late (.inr (.inl rfl)))
  | @ended r b w₁ _ hin hout hrecv hr hmod =>
    have hmid := (((hm.recv hrecv).flagged e flagReadClosed).flagged e.peer flagFlushing).setState
      .halfClose
    obtain ⟨fds, trace, rfl⟩ := hrecv.frame
    refine (hmid.modified hpeer hmod).next (Phase.of_late (.inr (.inr ⟨.inr ?_, ?_⟩)))
    · rw [hmod.shared]
      rfl
    · rw [hmod.mem]
      exact hserver
  | @received bytes b w₁ _ hin hout hrecv hne hmod =>
    have hmid := (hm.recv hrecv).queue e.peer bytes
    obtain ⟨fds, trace, rfl⟩ := hrecv.frame
    refine (hmid.modified (by simpa using hpeer) hmod).next
      (Phase.of_late (.inr (.inr ⟨.inl ?_, ?_⟩)))
    · rw [hmod.shared]
      simpa using hs
    · rw [hmod.mem]
      simpa using hserver

end Server

/-! ### One event -/

/-- `Sound`, and for an open connection what goes with its state. -/
structure Sane (w : World) : Prop extends Sound w where
  phase : Open w → Phase w

theorem Handled.next (hw : Open w) (hp : Phase w) (hr : Regs w) (hd : w.mem (.data e) = .live)
    (hdns : w.dns ≠ .idle → w.shared.state = .asyncDns) (h : Handled cfg w e ev none w') :
    Next e w w' := by
  have hmid : w.shared.state ≠ .asyncDns → Mid e w w := fun hs =>
    Mid.refl hw hr (not_not.mp fun h => hs (hdns h))
  cases h with
  | still hstate =>
    exact ⟨.inl ⟨hw, hp⟩, fun h => ⟨hw, hdns h⟩, hr, rfl, fun _ => .inl rfl, fun _ _ h => h⟩
  | waitingMethods hstate h => exact h.next (hmid (by simp [hstate])) hp hstate
  | sendingMethod hstate h => exact h.next (hmid (by simp [hstate])) hp hstate
  | waitingCommand hstate h => exact h.next (hmid (by simp [hstate])) hp hstate
  | sendingReply hstate h =>
    refine h.next (hmid ?_) hp ?_
    · rcases hstate with hstate | hstate <;> simp [hstate]
    · rcases hstate with hstate | hstate <;> simp [hstate, State.replying]
  | connecting hstate h => exact h.next (hmid (by simp [hstate])) hp hstate
  | bindListening hstate h => exact h.next (hmid (by simp [hstate])) hp hstate
  | full hstate h => exact h.next (hmid (by simp [hstate])) hp hstate hd
  | halfClose hstate =>
    exact ((hmid (by simp [hstate])).setState _).next (Phase.of_late (.inr (.inl rfl)))
  | closed hstate => exact (hmid (by simp [hstate])).released hstate

/-- The end that an event is for, the client for the resolver's. -/
def Event.side : Event → Side
  | .peer _ (some e) _ => e
  | _ => .client

theorem Shut.released (hw : Shut w) (hd : w.mem (.data e) = .live) : Shut (w.released e) :=
  freedData_shut ⟨hw.fd_ne, hw.self, hw.ptr⟩ (hw.shared e hd) hw.state

theorem Sane.shut_dns (hw : Sane w) (hshut : Shut w) : w.dns = .idle :=
  not_not.mp fun h => (hw.dns h).1.not_shut hshut

/-- An event that does nothing. -/
theorem Sane.next_self (hw : Sane w) : Next e w w where
  conn := hw.conn.imp (fun h => ⟨h, hw.phase h⟩) id
  dns := hw.dns
  regs := hw.regs
  pending := rfl
  self := fun _ => .inl rfl
  live := fun _ _ h => h

theorem Dispatched.next {event : Event} (hw : Sane w) (h : Dispatched cfg w event none w') :
    Next event.side w w' := by
  cases h with
  | ignored => exact hw.next_self
  | masked hd hev => exact hw.next_self
  | handled hopen hd h => exact h.next hopen (hw.phase hopen) hw.regs hd fun h => (hw.dns h).2
  | @shut fd e ev hshut hd =>
    have hidle : (w.released e).dns = .idle := hw.shut_dns hshut
    exact
      { conn := .inr (hshut.released hd)
        dns := fun hdns => absurd hidle hdns
        regs := hw.regs.released e
        pending := rfl
        self := fun _ => .inl rfl
        live := fun hopen => absurd (hshut.released hd) hopen.not_shut }
  | quiet hdns => exact hw.next_self
  | resolver hopen hdns h =>
    exact h.resumed_next hopen hw.regs (hw.phase hopen) (hw.dns (by simp [hdns])).2 hdns

/-- A connection that was left stays so. -/
theorem Dispatched.of_shut {event : Event} {f : Option Fault} (hw : Shut w)
    (h : Dispatched cfg w event f w') : Shut w' ∧ w'.selfFd = w.selfFd := by
  cases h with
  | ignored => exact ⟨hw, rfl⟩
  | stale hgone => exact ⟨hw, rfl⟩
  | masked hd hev => exact ⟨hw, rfl⟩
  | handled hopen hd h => exact absurd hw hopen.not_shut
  | shut hshut hd => exact ⟨hw.released hd, rfl⟩
  | quiet hdns => exact ⟨hw, rfl⟩
  | resolver hopen hdns h => exact absurd hw hopen.not_shut

/-! ### One input -/

theorem Sane.taken {event : Event} {rest : List Event} (hw : Sane w)
    (hpending : w.pending = event :: rest) (ans : Answers) : Sane (w.taken rest ans) where
  conn := hw.conn.imp (·.taken rest ans) (·.taken rest ans)
  dns := fun hdns => ⟨(hw.dns hdns).1.taken rest ans, (hw.dns hdns).2⟩
  regs := hw.regs
  nodup := by
    refine List.Nodup.sublist ?_ hw.nodup
    rw [hpending]
    exact (List.sublist_cons_self event rest).filterMap _
  pend := by
    intro fd e ev hmem
    have h := hw.pend fd e ev (by rw [hpending]; exact List.mem_cons_of_mem _ hmem)
    exact ⟨h.1, fun hopen => h.2 (hopen.frame rfl id)⟩
  phase := fun hopen => (hw.phase (hopen.frame rfl id)).congr rfl rfl rfl rfl

/-- The other events of the batch are for other descriptors. -/
theorem Sane.others_ne {fd fd' : Int} {e s : Side} {ev ev' : Events} {rest : List Event}
    (hw : Sane w) (hpending : w.pending = .peer fd (some e) ev :: rest)
    (hmem : .peer fd' (some s) ev' ∈ rest) : s ≠ e := by
  rintro rfl
  have hfd := (hw.pend fd s ev (by simp [hpending])).1
  have hfd' := (hw.pend fd' s ev' (by simp [hpending, hmem])).1
  have hnodup := hw.nodup
  rw [hpending, List.filterMap_cons_some (show Event.fd? (.peer fd _ ev) = some fd from rfl),
    List.nodup_cons] at hnodup
  refine hnodup.1 (List.mem_filterMap.mpr ⟨_, hmem, ?_⟩)
  simp [Event.fd?, hfd, hfd']

theorem Sane.others {event : Event} {rest : List Event} (hw : Sane w)
    (hpending : w.pending = event :: rest) (hserver : event.side = .server) {fd : Int} {s : Side}
    {ev : Events} (hmem : .peer fd (some s) ev ∈ rest) : s ≠ .server := by
  cases event with
  | resolver => cases hserver
  | peer fd' ptr ev' =>
    cases ptr with
    | none => cases hserver
    | some e =>
      obtain rfl : e = .server := hserver
      exact hw.others_ne hpending hmem

theorem Sane.dispatched {ans : Answers} {event : Event} {rest : List Event} (hw : Sane w)
    (hpending : w.pending = event :: rest)
    (h : Dispatched cfg (w.taken rest ans) event none w') : Sane w' := by
  have htaken := hw.taken hpending ans
  have hnext := h.next htaken
  have hrest : w'.pending = rest := hnext.pending
  refine ⟨⟨?_, hnext.dns, hnext.regs, ?_, ?_⟩, ?_⟩
  · exact hnext.conn.imp And.left id
  · rw [hrest]
    exact htaken.nodup
  · intro fd s ev hmem
    rw [hrest] at hmem
    have hpend := htaken.pend fd s ev hmem
    by_cases hopen : Open (w.taken rest ans)
    · refine ⟨?_, fun hopen' => hnext.live hopen' s (hpend.2 hopen)⟩
      rcases hnext.self s with hself | ⟨rfl, hside | hgone⟩
      · rw [hself]
        exact hpend.1
      · exact absurd rfl (hw.others hpending hside hmem)
      · exact absurd (hpend.2 hopen) hgone
    · obtain ⟨hshut, hself⟩ := h.of_shut (htaken.conn.resolve_left hopen)
      rw [hself]
      exact ⟨hpend.1, fun hopen' => absurd hshut hopen'.not_shut⟩
  · intro hopen
    exact (hnext.conn.resolve_right hopen.not_shut).2

/-- While `Shared` points to the request the connection is open. -/
theorem Sane.open_of_info (hw : Sane w) (hinfo : w.shared.info = true) : Open w :=
  hw.conn.resolve_right fun hshut => by simp [hshut.info] at hinfo

/-- What happens outside the server changes descriptors only, and no registration. -/
theorem Sane.outside (hw : Sane w) {fds : Int → Option Sock}
    (hfds : ∀ fd, (fds fd).map Sock.interest = (w.fds fd).map Sock.interest) :
    Sane { w with fds := fds } := by
  have hopen : Open w → Open { w with fds := fds } := fun h => h.frame rfl (·.outside hfds)
  have hconn : Open { w with fds := fds } → Open w := fun h => hw.open_of_info h.infoPtr
  refine ⟨⟨?_, fun hdns => ⟨hopen (hw.dns hdns).1, (hw.dns hdns).2⟩, ?_, hw.nodup, ?_⟩, ?_⟩
  · refine hw.conn.imp hopen fun h => ?_
    exact ⟨⟨h.fd_ne, h.self, h.ptr⟩, h.state, h.info, h.outBuff, h.shared⟩
  · refine hw.regs.congr (fun fd sk' hsk' => ?_) rfl fun _ => rfl
    have h := hfds fd
    have hsk'' : fds fd = some sk' := hsk'
    rw [hsk'', Option.map_some, eq_comm, Option.map_eq_some_iff] at h
    obtain ⟨sk, hsk, hi⟩ := h
    exact ⟨sk, hsk, .inl hi.symm⟩
  · exact fun fd e ev hmem => ⟨(hw.pend fd e ev hmem).1, fun h =>
      (hw.pend fd e ev hmem).2 (hconn h)⟩
  · exact fun h => (hw.phase (hconn h)).congr rfl rfl rfl rfl

theorem Open.answered (hw : Open w) (gaiRet : Int) (ai : List AddrInfo) :
    Open (w.answered gaiRet ai) := by
  have hmem : ∀ o, w.mem o = .live → (w.answered gaiRet ai).mem o = .live := by
    intro o ho
    by_cases hai : ai = []
    · simp [hai, ho]
    · by_cases hobj : o = .ai <;> simp [hai, hobj, ho]
  have hdata : ∀ s, (w.answered gaiRet ai).mem (.data s) = w.mem (.data s) := by
    intro s
    by_cases hai : ai = [] <;> simp [hai]
  exact
    { fd_ne := hw.fd_ne
      self := fun s hs => hw.self s (hdata s ▸ hs)
      ptr := fun s => by
        rw [hdata]
        exact hw.ptr s
      shared := hmem _ hw.shared
      info := hmem _ hw.info
      infoPtr := hw.infoPtr
      buff := fun s => hmem _ (hw.buff s)
      outBuff := hw.outBuff
      capacity := hw.capacity
      access := hmem _ hw.access
      client := hmem _ hw.client
      sa := fun h => hmem _ (hw.sa h)
      ai := fun h => by simp_all
      fd_nonneg := hw.fd_nonneg
      registered := hw.registered }

/-- The resolver thread's answer. It stores no list after a failed lookup. -/
theorem Sane.answered {gaiRet : Int} {res : List AddrInfo} (hw : Sane w)
    (hdns : w.dns = .requested) : Sane (w.answered gaiRet (if gaiRet = 0 then res else [])) := by
  obtain ⟨hopen, hs⟩ := hw.dns (by simp [hdns])
  have hopen' := hopen.answered gaiRet (if gaiRet = 0 then res else [])
  have hp := hw.phase hopen
  have hearly : w.shared.state.early = true := by simp [hs, State.early]
  have hdata : ∀ s, (w.answered gaiRet (if gaiRet = 0 then res else [])).mem (.data s) =
      w.mem (.data s) := by
    intro s
    simp only [World.answered_mem, ite_apply]
    split <;> simp
  refine ⟨⟨.inl hopen', fun _ => ⟨hopen', hs⟩, ?_, hw.nodup, ?_⟩, fun _ => ?_⟩
  · exact hw.regs.congr (fun fd sk hsk => ⟨sk, hsk, .inl rfl⟩) rfl hdata
  · intro fd e ev hmem
    rw [hdata]
    exact ⟨(hw.pend fd e ev hmem).1, fun _ => (hw.pend fd e ev hmem).2 hopen⟩
  · obtain ⟨hrep, hsa, hret, hnone⟩ := hp.early hearly
    refine Phase.of_early hearly ⟨hrep, hsa, hret, by rwa [hdata]⟩
      (fun hne => ?_) hp.quiet hp.method
    exact if_neg (hne gaiRet rfl)

theorem Sane.polled {batch : List Event} (hw : Sane w) (hlegal : w.LegalBatch batch) :
    Sane (w.polled batch) := by
  have hopen : Open (w.polled batch) → Open w := fun h => h.frame rfl id
  refine ⟨⟨?_, fun hdns => ⟨(hw.dns hdns).1.frame rfl id, (hw.dns hdns).2⟩, hw.regs, hlegal.2, ?_⟩,
    fun h => (hw.phase (hopen h)).congr rfl rfl rfl rfl⟩
  · refine hw.conn.imp (fun h => h.frame rfl id) fun h => ?_
    exact ⟨⟨h.fd_ne, h.self, h.ptr⟩, h.state, h.info, h.outBuff, h.shared⟩
  · intro fd e ev hmem
    obtain ⟨sk, interest, hsk, hi, -⟩ := hlegal.1 _ hmem
    obtain ⟨hfd, hlive⟩ := hw.regs fd sk interest e hsk hi
    exact ⟨hfd, fun _ => hlive⟩

theorem Stepped.sane {i : Input} (hw : Sane w) (h : Stepped cfg w i none w') : Sane w' := by
  cases h with
  | @arrive fd bytes =>
    obtain ⟨fds, heq, hfds⟩ := w.arrived_interest fd bytes
    rw [heq]
    exact hw.outside hfds
  | @finish fd =>
    obtain ⟨fds, heq, hfds⟩ := w.finished_interest fd
    rw [heq]
    exact hw.outside hfds
  | unasked hdns => exact hw
  | resolved hdns => exact hw.answered hdns
  | unpolled => exact hw
  | polled hpending hlegal => exact hw.polled hlegal
  | waiting hpending => exact hw
  | handled hpending h => exact hw.dispatched hpending h

/-! ### Runs -/

theorem acceptNewClient_eq {fd : Int} {ss : SockAddr} {bufs : Side → OutBuff}
    {mallocs epollAdd : Bool} (h : acceptNewClient fd ss bufs mallocs epollAdd = some w) :
    0 ≤ fd ∧ w = newClient fd ss bufs := by
  unfold acceptNewClient at h
  split at h
  · rename_i hok
    cases h
    simp only [Bool.and_eq_true, decide_eq_true_eq] at hok
    exact ⟨hok.1.1, rfl⟩
  · cases h

theorem newClient_open {fd : Int} (hfd : 0 ≤ fd) (ss : SockAddr) (bufs : Side → OutBuff) :
    Open (newClient fd ss bufs) where
  fd_ne := by
    show fd ≠ -1
    omega
  self := by
    intro s hs
    cases s with
    | client => rfl
    | server => cases hs
  ptr := by
    intro s
    cases s <;> simp [newClient]
  shared := rfl
  info := rfl
  infoPtr := rfl
  buff := fun _ => rfl
  outBuff := fun _ => rfl
  capacity := fun s => (bufs s).size_eq
  access := rfl
  client := rfl
  sa := fun h => by cases h
  ai := fun h => absurd rfl h
  fd_nonneg := hfd
  registered := ⟨_, _, if_pos rfl, rfl⟩

/-- A new connection satisfies the invariant. -/
theorem acceptNewClient_sane {fd : Int} {ss : SockAddr} {bufs : Side → OutBuff}
    {mallocs epollAdd : Bool} (h : acceptNewClient fd ss bufs mallocs epollAdd = some w) :
    Sane w := by
  obtain ⟨hfd, rfl⟩ := acceptNewClient_eq h
  refine ⟨⟨.inl (newClient_open hfd ss bufs), fun hdns => absurd rfl hdns, ?_, List.nodup_nil, ?_⟩,
    fun _ => ?_⟩
  · intro fd' sk evs e hsk hi
    by_cases heq : fd' = fd
    · obtain rfl : _ = sk := by simpa [newClient, heq] using hsk
      obtain ⟨-, rfl⟩ : _ ∧ Side.client = e := by simpa using hi
      exact ⟨heq, rfl⟩
    · simp [newClient, heq] at hsk
  · intro fd' e ev hmem
    cases hmem
  · exact Phase.of_early rfl ⟨rfl, rfl, rfl, by simp [newClient]⟩ (fun _ => rfl) (fun _ => rfl)
      fun h => by cases h

/-- **The invariant rule for runs.** To show `P` of the state that a run comes to, it is
enough to show it of the effect of one input on a sane connection, for inputs that
meet the condition under which the run is considered. -/
theorem run_invariant {P : World → Prop} {C : World → Input → Prop} {w₀ : World} {is : List Input}
    (hsane : Sane w₀) (hP : P w₀) (hmeets : Lib.Meets (step cfg) C is w₀)
    (hstep : ∀ {w w' i f}, Sane w → P w → C w i → Stepped cfg w i f w' → P w') :
    P (Lib.run (step cfg) is w₀).state := by
  have h : wp (Lib.run (step cfg) is) (fun _ w' => Sane w' ∧ P w') (fun _ w' => P w') w₀ := by
    refine Lib.run_wp_of_meets (fun w i hw hC => ?_) ⟨hsane, hP⟩ hmeets
    refine wp_step hw.1.toSound fun f w' hs => ?_
    cases f with
    | none => exact ⟨hs.sane hw.1, hstep hw.1 hw.2 hC hs⟩
    | some f => exact hstep hw.1 hw.2 hC hs
  exact Lib.wp.state (h.mono (fun _ _ h => h.2) fun _ _ h => h)

/-- The client's descriptor stays the same. -/
theorem Stepped.client {i : Input} (hw : Sane w) (h : Stepped cfg w i none w') :
    w'.selfFd .client = w.selfFd .client := by
  cases h with
  | @arrive fd bytes =>
    obtain ⟨fds, heq, -⟩ := w.arrived_interest fd bytes
    rw [heq]
  | finish => rfl
  | unasked hdns => rfl
  | resolved hdns => rfl
  | unpolled => rfl
  | polled hpending hlegal => rfl
  | waiting hpending => rfl
  | handled hpending h =>
    rcases (h.next (hw.taken hpending _)).self .client with hself | ⟨hside, -⟩
    · exact hself
    · cases hside

/-- The invariant rule, where the descriptor of the client is known. -/
theorem client_invariant {P : World → Prop} {C : World → Input → Prop} {w₀ : World} {fd : Int}
    {is : List Input} (hsane : Sane w₀) (hfd : w₀.selfFd .client = fd) (hP : P w₀)
    (hmeets : Lib.Meets (step cfg) C is w₀)
    (hstep : ∀ {w w' i f}, Sane w → w.selfFd .client = fd → P w → C w i → Stepped cfg w i f w' →
      P w') :
    P (Lib.run (step cfg) is w₀).state := by
  have h : wp (Lib.run (step cfg) is)
      (fun _ w' => (Sane w' ∧ w'.selfFd .client = fd) ∧ P w') (fun _ w' => P w') w₀ := by
    refine Lib.run_wp_of_meets (fun w i hw hC => ?_) ⟨⟨hsane, hfd⟩, hP⟩ hmeets
    refine wp_step hw.1.1.toSound fun f w' hs => ?_
    have hP' := hstep hw.1.1 hw.1.2 hw.2 hC hs
    cases f with
    | none => exact ⟨⟨hs.sane hw.1.1, (hs.client hw.1.1).trans hw.1.2⟩, hP'⟩
    | some f => exact hP'
  exact Lib.wp.state (h.mono (fun _ _ h => h.2) fun _ _ h => h)

/-- What an input does to a sane connection. -/
theorem step_stepped (hs : Sane w) (i : Input) : ∃ f, Stepped cfg w i f (step cfg i w).state := by
  refine Lib.wp.state (P := fun w' => ∃ f, Stepped cfg w i f w') ?_
  refine wp_step hs.toSound fun f w' h => ?_
  cases f with
  | none => exact ⟨none, h⟩
  | some f => exact ⟨some f, h⟩

/-- What an input does that meets no fault. -/
theorem step_returns (hs : Sane w) {i : Input} {a : Unit} (h : step cfg i w = .ok a w') :
    Stepped cfg w i none w' := by
  have hwp : wp (step cfg i) (fun _ w' => Stepped cfg w i none w') (fun _ _ => True) w :=
    wp_step hs.toSound fun f w' h => by
      cases f with
      | none => exact h
      | some f => trivial
  rwa [Lib.wp_eq_ok h] at hwp

/-- The invariant rule for a run that met no fault: the connection is sane after it. -/
theorem run_reaches {P : World → Prop} {C : World → Input → Prop} {w₀ : World} {fd : Int}
    {is : List Input} (hsane : Sane w₀) (hfd : w₀.selfFd .client = fd) (hP : P w₀)
    (hmeets : Lib.Meets (step cfg) C is w₀)
    (hstep : ∀ {w w' i f}, Sane w → w.selfFd .client = fd → P w → C w i → Stepped cfg w i f w' →
      P w') {w : World} (hw : Lib.run (step cfg) is w₀ = .ok () w) :
    Sane w ∧ w.selfFd .client = fd ∧ P w := by
  have hwp : wp (Lib.run (step cfg) is)
      (fun _ w' => Sane w' ∧ w'.selfFd .client = fd ∧ P w') (fun _ _ => True) w₀ := by
    refine Lib.run_wp_of_meets (fun w i hw hC => ?_) ⟨hsane, hfd, hP⟩ hmeets
    refine wp_step hw.1.toSound fun f w' hs => ?_
    cases f with
    | none =>
      exact ⟨hs.sane hw.1, (hs.client hw.1).trans hw.2.1, hstep hw.1 hw.2.1 hw.2.2 hC hs⟩
    | some f => trivial
  rwa [Lib.wp_eq_ok hw] at hwp

/-- **The rule for the last step of a run.** It does nothing, or it is taken on a sane
connection that meets the invariant. -/
theorem run_transition {P : World → Prop} {C : World → Input → Prop} {w₀ : World} {fd : Int}
    {is : List Input} {i : Input} (hsane : Sane w₀) (hfd : w₀.selfFd .client = fd) (hP : P w₀)
    (hmeets : Lib.Meets (step cfg) C (is ++ [i]) w₀)
    (hstep : ∀ {w w' i f}, Sane w → w.selfFd .client = fd → P w → C w i → Stepped cfg w i f w' →
      P w') {w w' : World} (hw : (Lib.run (step cfg) is w₀).state = w)
    (hw' : (Lib.run (step cfg) (is ++ [i]) w₀).state = w') :
    w' = w ∨ (Sane w ∧ w.selfFd .client = fd ∧ P w) ∧ C w i ∧ ∃ f, Stepped cfg w i f w' := by
  rw [Lib.run_concat] at hw'
  cases hrun : Lib.run (step cfg) is w₀ with
  | fault e s =>
    rw [hrun] at hw hw'
    exact .inl (hw'.symm.trans hw)
  | ok a s =>
    have hreached := run_reaches hsane hfd hP hmeets.concat.1 hstep hrun
    rw [hrun] at hw hw'
    obtain rfl : s = w := hw
    obtain ⟨f, hlast⟩ := step_stepped hreached.1 i
    exact .inr ⟨hreached, hmeets.concat.2 s hrun, f, hw' ▸ hlast⟩

end Socksprox
