import Socksprox.Outcome.Reply

/-!
What the handlers of the method negotiation do to an open connection
(`waitingmethods` and `sendingmethod`), and `sendingreply`, which sends the reply to
the request in the same way.
-/

namespace Socksprox

open Lib (wp wp_bind wp_pure wp_pure_eq wp_get wp_modify wp_throw wp_ite wp.mono)
open Lib.Exec (get modify throw)

/-! ### `waitingmethods` -/

/-- The method message is complete: version, count and as many methods as counted. -/
def MethodsComplete (got : List UInt8) : Prop :=
  2 ≤ got.length ∧ 2 + (got.getD 1 0).toNat ≤ got.length

/-- The methods offered in a complete message. -/
def offered (got : List UInt8) : List UInt8 := (got.drop 2).take (got.getD 1 0).toNat

/-- The message taken out of the buffer, the method chosen and the reply queued. -/
def World.methodChosen (w : World) (cfg : Configs) (got : List UInt8) : World :=
  ((((w.drop .server 2).drop .server (got.getD 1 0).toNat).queue .client
    [socks5Version, selectMethod cfg (offered got)]).setState .sendingMethod).setInfo
      { w.info with method := selectMethod cfg (offered got) }

/-- What `waitingmethods` comes to. `got` is what the buffer holds after the receive. -/
inductive WaitingMethods (cfg : Configs) (w : World) (e : Side) (ev : Events) : World → Prop where
  | idle (hidle : ev.epollin = false ∨ e = .server) : WaitingMethods cfg w e ev w
  | ended {r : Option (List UInt8)} {w₁ : World}
      (hrecv : Recv w (w.shared.fd .client) (w.shared.out .server).free r w₁)
      (hr : r = none ∨ r = some []) : WaitingMethods cfg w e ev (w₁.hungUp .client)
  | part {bytes got : List UInt8} {w₁ : World}
      (hrecv : Recv w (w.shared.fd .client) (w.shared.out .server).free (some bytes) w₁)
      (hgot : got = (w.shared.out .server).contents ++ bytes) (hpart : ¬ MethodsComplete got)
      (hne : bytes ≠ []) : WaitingMethods cfg w e ev (w₁.queue .server bytes)
  | badVersion {bytes got : List UInt8} {w₁ : World}
      (hrecv : Recv w (w.shared.fd .client) (w.shared.out .server).free (some bytes) w₁)
      (hgot : got = (w.shared.out .server).contents ++ bytes) (hcomplete : MethodsComplete got)
      (hversion : got.getD 0 0 ≠ socks5Version) :
      WaitingMethods cfg w e ev (((w₁.queue .server bytes).drop .server 2).hungUp .client)
  | unwatched {bytes got : List UInt8} {w₁ : World}
      (hrecv : Recv w (w.shared.fd .client) (w.shared.out .server).free (some bytes) w₁)
      (hgot : got = (w.shared.out .server).contents ++ bytes) (hcomplete : MethodsComplete got)
      (hversion : got.getD 0 0 = socks5Version) (hmod : w.modAnswer = false) :
      WaitingMethods cfg w e ev
        (((w₁.queue .server bytes).methodChosen cfg got).popMod.hungUp .client)
  | chosen {bytes got : List UInt8} {w₁ : World}
      (hrecv : Recv w (w.shared.fd .client) (w.shared.out .server).free (some bytes) w₁)
      (hgot : got = (w.shared.out .server).contents ++ bytes) (hcomplete : MethodsComplete got)
      (hversion : got.getD 0 0 = socks5Version) (hmod : w.modAnswer = true) :
      WaitingMethods cfg w e ev ((w₁.queue .server bytes).methodChosen cfg got).watchSend

/-! ### `sendingmethod` and `sendingreply` -/

namespace World

/-- The first `n` bytes of `client_out` sent and consumed. -/
@[simps! -fullyApplied] def sentFront (w : World) (n : Nat) : World :=
  (w.emit (.sent (w.shared.fd .client) ((w.shared.out .client).peek n))).drop .client
    ((w.shared.out .client).peek n).length

/-- Fewer than the first `n` bytes of `client_out` sent and consumed. -/
@[simps! -fullyApplied] def sentPart (w : World) (n k : Nat) : World :=
  (w.emit (.sent (w.shared.fd .client) (((w.shared.out .client).peek n).take k))).drop .client k

end World

/-- The kernel takes the first `n` bytes of `client_out` at once. -/
def World.SendsFront (w : World) (n : Nat) : Prop :=
  ∃ k, w.ans.send = some k ∧ ((w.shared.out .client).peek n).length ≤ k

/-- What the send of the first `n` bytes of `client_out` comes to when it does not get
through. -/
inductive SendStopped (w : World) (n : Nat) : World → Prop where
  | failed (hnone : w.ans.send = none) :
      SendStopped w n ((w.emit (.sendFailed (w.shared.fd .client))).hungUp .client)
  | part {k : Nat} (hk : k < ((w.shared.out .client).peek n).length)
      (hnone : k = 0 → w.ans.send = some 0) : SendStopped w n (w.sentPart n k)
  | unwatched (hmod : w.modAnswer = false) : SendStopped w n ((w.sentFront n).popMod.hungUp .client)

/-- What `sendingmethod` comes to. -/
inductive SendingMethod (w : World) (e : Side) (ev : Events) : World → Prop where
  | idle (hidle : ev.epollout = false ∨ e = .server) : SendingMethod w e ev w
  | stopped {w' : World} (h : SendStopped w 2 w') : SendingMethod w e ev w'
  | refused (hmod : w.modAnswer = true) (hmethod : w.info.method ≠ methNoauth) :
      SendingMethod w e ev ((w.sentFront 2).watchRecv.hungUp .client)
  | accepted (hmod : w.modAnswer = true) (hmethod : w.info.method = methNoauth)
      (hsent : w.SendsFront 2) :
      SendingMethod w e ev ((w.sentFront 2).watchRecv.setState .waitingCommand)

/-- What `sendingreply` comes to. A request whose command is none of the three has no
success reply. -/
inductive SendingReply (w : World) (e : Side) (ev : Events) : World → Prop where
  | idle (hidle : ev.epollout = false ∨ e = .server) : SendingReply w e ev w
  | stopped {w' : World} (h : SendStopped w 300 w') : SendingReply w e ev w'
  | refused (hmod : w.modAnswer = true) (hrep : w.info.rep ≠ repSuccess) :
      SendingReply w e ev ((w.sentFront 300).watchRecv.hungUp .client)
  | connected (hmod : w.modAnswer = true) (hrep : w.info.rep = repSuccess)
      (hcmd : w.info.cmd = cmdConn ∨ w.info.cmd = cmdBind ∧ w.shared.state = .sendingReply2) :
      SendingReply w e ev ((w.sentFront 300).watchRecv.setState .full)
  | listening (hmod : w.modAnswer = true) (hrep : w.info.rep = repSuccess)
      (hcmd : w.info.cmd = cmdBind) (hstate : w.shared.state = .sendingReply) :
      SendingReply w e ev
        (((w.sentFront 300).watchRecv.setRep repUnset).setState .bindListening)
  | associated (hmod : w.modAnswer = true) (hrep : w.info.rep = repSuccess)
      (hcmd : w.info.cmd = cmdUdpa) :
      SendingReply w e ev ((w.sentFront 300).watchRecv.setState .fullUdpa)
  | odd (hmod : w.modAnswer = true) (hrep : w.info.rep = repSuccess)
      (hcmd : w.info.cmd ≠ cmdConn ∧ w.info.cmd ≠ cmdUdpa)
      (hbind : w.info.cmd = cmdBind →
        w.shared.state ≠ .sendingReply ∧ w.shared.state ≠ .sendingReply2) :
      SendingReply w e ev (w.sentFront 300).watchRecv

section Rules

variable {cfg : Configs} {E : Fault → World → Prop} {w : World} {e : Side} {ev : Events}

/-- The test that guards the handlers of the client's descriptor. -/
theorem Open.guard_client (hw : Open w) (hd : w.mem (.data e) = .live) (want : Bool) :
    (!want || decide (w.selfFd e ≠ w.shared.fd .client)) = true ↔ want = false ∨ e = .server := by
  have hself := hw.self e hd
  have hne := hw.fd_ne.symm
  cases e <;> simp [hself, hne]

theorem wp_receive {next : Proc Unit} {Q : Unit → World → Prop} (hw : Open w)
    (hended : ∀ r w₁, Recv w (w.shared.fd .client) (w.shared.out .server).free r w₁ →
      r = none ∨ r = some [] → Q () (w₁.hungUp .client))
    (hnext : ∀ bytes w₁,
      Recv w (w.shared.fd .client) (w.shared.out .server).free (some bytes) w₁ → bytes ≠ [] →
      Open w₁ → ((w₁.queue .server bytes).shared.out .server).contents =
        (w.shared.out .server).contents ++ bytes →
      wp next Q E (w₁.queue .server bytes)) :
    wp (receive .client next) Q E w := by
  have hfd := hw.self .client hw.client
  rw [receive, wp_bind, wp_dataShared _ hw.client hw.shared, wp_bind, wp_dataSelfFd _ hw.client,
    hfd, wp_bind]
  refine wp_recv fun r w₁ hrecv => ?_
  have hrecv' := hrecv
  cases hrecv with
  | failed => simpa [hw] using hended _ _ hrecv' (.inl rfl)
  | zero hn => simpa [hw] using hended _ _ hrecv' (.inr rfl)
  | ended hsk hempty hfin => simpa [hw] using hended _ _ hrecv' (.inr rfl)
  | @data sk bytes rest hsk hinbox hne hle =>
    have hwrite := (Ring.write_fits hle).2
    have h := hnext _ _ hrecv' hne (by simp [hw]) (World.queue_contents hle)
    obtain ⟨b, bs, rfl⟩ := List.exists_cons_of_ne_nil hne
    simpa [hw, hwrite] using h

theorem wp_methodRequest {got : List UInt8} {Q : Unit → World → Prop} (hw : Open w)
    (hgot : (w.shared.out .server).contents = got)
    (hpart : ¬ MethodsComplete got → Q () w)
    (hbad : MethodsComplete got → got.getD 0 0 ≠ socks5Version →
      Q () ((w.drop .server 2).hungUp .client))
    (hunwatched : MethodsComplete got → got.getD 0 0 = socks5Version → w.modAnswer = false →
      Q () ((w.methodChosen cfg got).popMod.hungUp .client))
    (hchosen : MethodsComplete got → got.getD 0 0 = socks5Version → w.modAnswer = true →
      Q () (w.methodChosen cfg got).watchSend) :
    wp (methodRequest cfg .client) Q E w := by
  have hused : (w.shared.out .server).used = got.length := by rw [← Ring.contents_length, hgot]
  have hpeek : ∀ n, (w.shared.out .server).peek n = got.take n := by
    intro n
    rw [Ring.peek, hgot]
  have hpeek' : ∀ n, ((w.shared.out .server).consume 2).peek n = (got.drop 2).take n := by
    intro n
    rw [Ring.peek, Ring.consume_contents, hgot]
  have h0 : (got.take 2).getD 0 0 = got.getD 0 0 := by simp
  have h1 : (got.take 2).getD 1 0 = got.getD 1 0 := by simp
  simp only [methodRequest, wp_bind, wp_dataShared, wp_peekOut, wp_ite, wp_pure, hw, Open.shared,
    Open.buff, Open.client, hused, hpeek]
  refine ⟨fun hshort => hpart fun hc => absurd hc.1 (by omega), fun hlen => ?_⟩
  rw [h0, h1]
  refine ⟨fun hshort => hpart fun hc => absurd hc.2 (by omega), fun hlen' => ?_⟩
  have hcomplete : MethodsComplete got := ⟨by omega, by omega⟩
  simp only [wp_consumeOut, wp_ite, hw, Open.shared]
  refine ⟨fun hversion => ?_, fun hversion => ?_⟩
  · have hne : got.getD 0 0 ≠ socks5Version := by simpa [vercheck] using hversion
    simpa [hw] using hbad hcomplete hne
  · have heq : got.getD 0 0 = socks5Version := by simpa [vercheck] using hversion
    have hmin : min (got.getD 1 0).toNat (got.length - 2) = (got.getD 1 0).toNat := by omega
    have hmods := And.intro (hchosen hcomplete heq) (hunwatched hcomplete heq)
    simpa [hw, hpeek', epWaitingSend, hmin, hw.self_client, hw.data_client, World.methodChosen,
      offered, World.watchSend, -List.getD_eq_getElem?_getD] using hmods

theorem wp_waitingMethods {Q : Unit → World → Prop} (hw : Open w) (hd : w.mem (.data e) = .live)
    (h : ∀ w', WaitingMethods cfg w e ev w' → Q () w') : wp (waitingMethods cfg e ev) Q E w := by
  rw [waitingMethods, wp_bind, wp_dataShared _ hd hw.shared, wp_bind, wp_dataSelfFd _ hd, wp_ite,
    hw.guard_client hd, wp_pure]
  refine ⟨fun hidle => h _ (.idle hidle), fun hgo => ?_⟩
  obtain rfl : e = .client := by
    cases e <;> simp_all
  refine wp_receive hw (fun r w₁ hrecv hr =>
    h _ (.ended hrecv hr)) fun bytes w₁ hrecv hne hw₁ hgot => ?_
  refine wp_methodRequest (by simp [hw₁]) hgot ?_ ?_ ?_ ?_
  · exact fun hpart => h _ (.part hrecv rfl hpart hne)
  · exact fun hcomplete hversion => h _ (.badVersion hrecv rfl hcomplete hversion)
  · intro hcomplete hversion hmod
    rw [World.modAnswer_queue, hrecv.modAnswer] at hmod
    exact h _ (.unwatched hrecv rfl hcomplete hversion hmod)
  · intro hcomplete hversion hmod
    rw [World.modAnswer_queue, hrecv.modAnswer] at hmod
    exact h _ (.chosen hrecv rfl hcomplete hversion hmod)

theorem wp_sendFront {n : Nat} {next : Proc Unit} {Q : Unit → World → Prop} (hw : Open w)
    (hstopped : ∀ w', SendStopped w n w' → Q () w')
    (hnext : w.modAnswer = true → w.SendsFront n → wp next Q E (w.sentFront n).watchRecv) :
    wp (sendFront .client n next) Q E w := by
  rw [sendFront, wp_bind, wp_dataSelfFd _ hw.client, hw.self_client, wp_bind,
    wp_peekOut _ hw.shared (hw.buff _), wp_bind]
  refine wp_send fun r w' hsend => ?_
  cases hsend with
  | failed hnone =>
    obtain ⟨sk, -, hsk, -⟩ := hw.registered
    simpa [hw] using hstopped _ (.failed (hnone (by simp [hsk])))
  | @sent k hle hcount =>
    obtain ⟨count, hsend, hmin⟩ := hcount
    by_cases hk : k < ((w.shared.out .client).peek n).length
    · have hnone : k = 0 → w.ans.send = some 0 := fun hzero => by
        rw [hsend, show count = 0 by omega]
      simpa [hw, hk, World.sentPart] using hstopped _ (.part hk hnone)
    · obtain rfl : k = ((w.shared.out .client).peek n).length := by omega
      have hsends : w.SendsFront n := ⟨count, hsend, hmin.trans_le (Nat.min_le_left _ _)⟩
      have hmods := And.intro (fun hmod => hnext hmod hsends) fun hmod =>
        hstopped _ (.unwatched hmod)
      simpa [hw, epDoneSending, hw.self_client, hw.data_client, World.sentFront, World.watchRecv]
        using hmods

theorem wp_methodSent {Q : Unit → World → Prop} (hw : Open w)
    (hrefused : w.info.method ≠ methNoauth → Q () (w.hungUp .client))
    (haccepted : w.info.method = methNoauth → Q () (w.setState .waitingCommand)) :
    wp (methodSent .client) Q E w := by
  rw [methodSent, wp_bind, wp_sharedInfo _ hw.shared hw.infoPtr hw.info, wp_ite]
  refine ⟨fun hmethod => ?_, fun hmethod => ?_⟩
  · simpa [hw] using haccepted hmethod
  · rw [wp_ite]
    exact ⟨fun _ => by simpa [hw] using hrefused hmethod, fun _ => by
      simpa [hw] using hrefused hmethod⟩

theorem wp_sendingMethod {Q : Unit → World → Prop} (hw : Open w) (hd : w.mem (.data e) = .live)
    (h : ∀ w', SendingMethod w e ev w' → Q () w') : wp (sendingMethod e ev) Q E w := by
  rw [sendingMethod, wp_bind, wp_dataShared _ hd hw.shared, wp_bind, wp_dataSelfFd _ hd, wp_ite,
    hw.guard_client hd, wp_pure]
  refine ⟨fun hidle => h _ (.idle hidle), fun hgo => ?_⟩
  obtain rfl : e = .client := by
    cases e <;> simp_all
  refine wp_sendFront hw (fun w' hstop => h _ (.stopped hstop)) fun hmod hsent => ?_
  refine wp_methodSent (by simp [hw, World.sentFront]) ?_ ?_
  · exact fun hmethod => h _ (.refused hmod hmethod)
  · exact fun hmethod => h _ (.accepted hmod hmethod hsent)

theorem wp_replySent {Q : Unit → World → Prop} (hw : Open w)
    (hrefused : w.info.rep ≠ repSuccess → Q () (w.hungUp .client))
    (hconnected : w.info.rep = repSuccess →
      w.info.cmd = cmdConn ∨ w.info.cmd = cmdBind ∧ w.shared.state = .sendingReply2 →
      Q () (w.setState .full))
    (hlistening : w.info.rep = repSuccess → w.info.cmd = cmdBind → w.shared.state = .sendingReply →
      Q () ((w.setRep repUnset).setState .bindListening))
    (hassociated : w.info.rep = repSuccess → w.info.cmd = cmdUdpa → Q () (w.setState .fullUdpa))
    (hodd : w.info.rep = repSuccess → w.info.cmd ≠ cmdConn ∧ w.info.cmd ≠ cmdUdpa →
      (w.info.cmd = cmdBind → w.shared.state ≠ .sendingReply ∧ w.shared.state ≠ .sendingReply2) →
      Q () w) :
    wp (replySent .client) Q E w := by
  rw [replySent, wp_bind, wp_dataShared _ hw.client hw.shared, wp_bind,
    wp_sharedInfo _ hw.shared hw.infoPtr hw.info, wp_ite]
  refine ⟨fun hrep => by simpa [hw] using hrefused hrep, fun hrep => ?_⟩
  have hsuccess : w.info.rep = repSuccess := not_not.mp hrep
  by_cases hconn : w.info.cmd = cmdConn
  · simpa [hw, hconn] using hconnected hsuccess (.inl hconn)
  by_cases hbind : w.info.cmd = cmdBind
  · have hne : cmdBind ≠ cmdConn := by decide
    by_cases hreply : w.shared.state = .sendingReply
    · simpa [hw, hbind, hne, hreply] using hlistening hsuccess hbind hreply
    by_cases hreply2 : w.shared.state = .sendingReply2
    · simpa [hw, hbind, hne, hreply2] using hconnected hsuccess (.inr ⟨hbind, hreply2⟩)
    · have hudpa : cmdBind ≠ cmdUdpa := by decide
      simpa [hbind, hne, hreply, hreply2] using
        hodd hsuccess ⟨hconn, hbind ▸ hudpa⟩ fun _ => ⟨hreply, hreply2⟩
  by_cases hudpa : w.info.cmd = cmdUdpa
  · have hne : cmdUdpa ≠ cmdConn ∧ cmdUdpa ≠ cmdBind := by decide
    simpa [hw, hudpa, hne] using hassociated hsuccess hudpa
  · simpa [hconn, hbind, hudpa] using hodd hsuccess ⟨hconn, hudpa⟩ fun h => absurd h hbind

theorem wp_sendingReply {Q : Unit → World → Prop} (hw : Open w) (hd : w.mem (.data e) = .live)
    (h : ∀ w', SendingReply w e ev w' → Q () w') : wp (sendingReply e ev) Q E w := by
  rw [sendingReply, wp_bind, wp_dataShared _ hd hw.shared, wp_bind, wp_dataSelfFd _ hd, wp_ite,
    hw.guard_client hd, wp_pure]
  refine ⟨fun hidle => h _ (.idle hidle), fun hgo => ?_⟩
  obtain rfl : e = .client := by
    cases e <;> simp_all
  refine wp_sendFront hw (fun w' hstop => h _ (.stopped hstop)) fun hmod _ => ?_
  refine wp_replySent (by simp [hw, World.sentFront]) ?_ ?_ ?_ ?_ ?_
  · exact fun hrep => h _ (.refused hmod hrep)
  · exact fun hrep hcmd => h _ (.connected hmod hrep hcmd)
  · exact fun hrep hcmd hstate => h _ (.listening hmod hrep hcmd hstate)
  · exact fun hrep hcmd => h _ (.associated hmod hrep hcmd)
  · exact fun hrep hcmd hbind => h _ (.odd hmod hrep hcmd hbind)

end Rules

end Socksprox
