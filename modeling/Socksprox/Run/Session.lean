import Socksprox.Run.OneReply
import Socksprox.Lib.Protocol

/-!
The dialogue of a connection as a protocol (`docs/state_machine.md`): which acts belong to
which stage, and which lead from one stage to another. Every run of the server follows
it; what the server never does is then read off the protocol alone.
-/

namespace Socksprox

/-! ### The protocol -/

/-- The stages of a dialogue. A request that was refused is `refusing` from its first error
reply on, although STATE_SENDING_REPLY does not tell. -/
inductive Session where
  | greeting | choosing | request | lookup | connecting | listening | replying | replying2
  | refusing | relay | associated | halfClosed | closed
  deriving DecidableEq

/-- The acts that a stage is about. They leave it as it is. -/
def Session.stays (fd : Int) : Session → Act → Bool
  | .greeting, .recv d _ | .greeting, .eof d | .request, .recv d _ | .request, .eof d => d == fd
  | .choosing, .sent d _ | .choosing, .sendFailed d | .replying, .sent d _
  | .replying, .sendFailed d | .replying2, .sent d _ | .replying2, .sendFailed d
  | .refusing, .sent d _ | .refusing, .sendFailed d => d == fd
  | .greeting, .queued .server _ | .request, .queued .server _ => true
  | .greeting, .queued .client bytes => bytes.length == 2
  | .request, .queued .client bytes | .connecting, .queued .client bytes
  | .listening, .queued .client bytes | .replying, .queued .client bytes =>
    verdict? bytes != some .failure
  | .refusing, .queued .client bytes => verdict? bytes == some .failure
  | .request, .firewall _ | .request, .invoked _ | .refusing, .invoked _ => true
  | .request, .connect .. | .connecting, .connect .. | .replying, .connect .. => true
  | .lookup, .resolve _ | .lookup, .state .asyncDns | .refusing, .state .sendingReply => true
  | .listening, .accepted .. => true
  | .relay, .recv .. | .relay, .eof _ | .relay, .sent .. | .relay, .sendFailed _
  | .relay, .queued .. => true
  | _, _ => false

/-- The stages entered with a state. -/
def Session.enters : Session → State → Option Session
  | .greeting, .sendingMethod => some .choosing
  | .choosing, .waitingCommand | .lookup, .waitingCommand => some .request
  | .request, .asyncDns => some .lookup
  | .request, .connecting => some .connecting
  | .request, .sendingReply | .connecting, .sendingReply => some .replying
  | .replying, .bindListening => some .listening
  | .replying, .full | .replying2, .full => some .relay
  | .replying, .fullUdpa => some .associated
  | .listening, .sendingReply2 => some .replying2
  | .relay, .halfClose => some .halfClosed
  | .lookup, .closed | .associated, .closed | .closed, .closed => none
  | _, .closed => some .closed
  | _, _ => none

/-- The stages of a request that can still be refused. -/
def Session.pending : Session → Bool
  | .request | .connecting | .listening | .replying => true
  | _ => false

/-- The acts that lead from one stage to another. -/
def Session.moves (q : Session) : Act → Option Session
  | .state st => q.enters st
  | .queued .client bytes =>
    if q.pending ∧ verdict? bytes = some .failure then some .refusing else none
  | _ => none

/-- The dialogue with the client on descriptor `fd`. -/
def protocol (fd : Int) (q : Session) (a : Act) : Option Session :=
  if q.stays fd a then some q else q.moves a

/-- The stage in which a connection is between two events. -/
def State.session (rep : UInt8) : State → Session
  | .waitingMethods => .greeting
  | .sendingMethod => .choosing
  | .waitingCommand => .request
  | .asyncDns => .lookup
  | .connecting => .connecting
  | .bindListening => .listening
  | .sendingReply => if rep = repSuccess then .replying else .refusing
  | .sendingReply2 => .replying2
  | .full => .relay
  | .fullUdpa => .associated
  | .halfClose => .halfClosed
  | .closed | .noState | .authenticating => .closed

def World.session (w : World) : Session := w.shared.state.session w.info.rep

/-- Between `w` and `w'` the connection did acts that lead from stage `q` to stage `q'`. -/
def Goes (fd : Int) (q : Session) (w : World) (q' : Session) (w' : World) : Prop :=
  ∃ acts, w'.trace = w.trace ++ acts ∧ Lib.Follows (protocol fd) q acts q'

/-! ### Effects -/

section Effects

variable {cfg : Configs} {fd : Int} {q q₁ q₂ : Session} {w w₁ w' : World} {a : Act}

theorem protocol_stays (h : q.stays fd a = true) : protocol fd q a = some q := if_pos h

/-- An error reply turns a request that is under way into one that is refused. -/
theorem protocol_error {rep : UInt8}
    (hq : q = .request ∨ q = .connecting ∨ q = .listening ∨ q = .replying ∨ q = .refusing) :
    protocol fd q (.queued .client (errReply rep)) = some .refusing := by
  rcases hq with rfl | rfl | rfl | rfl | rfl <;>
    simp [protocol, Session.stays, Session.moves, Session.pending]

/-- The error reply to a request that is refused before it is begun. -/
example : protocol 5 .request (.queued .client (errReply repGenfail)) = some .refusing := by
  decide +kernel

theorem session_eq {st : State} (hstate : w.shared.state = st) :
    w.session = st.session w.info.rep := by
  rw [World.session, hstate]

@[simp] theorem session_setState (w : World) (st : State) :
    (w.setState st).session = st.session w.info.rep := rfl

@[simp] theorem session_hungUp (w : World) (s : Side) : (w.hungUp s).session = .closed := rfl

@[simp] theorem session_errReplied (w : World) : w.errReplied.session = .refusing := by
  have hrep : w.errReplied.info.rep = normRep w.info.rep := by simp [World.errReplied]
  rw [@session_eq _ .sendingReply rfl, hrep]
  exact if_neg (normRep_ne_success _)

namespace Goes

theorem refl : Goes fd q w q w := ⟨[], by simp, Lib.follows_nil.mpr rfl⟩

theorem trans (h : Goes fd q w q₁ w₁) (h' : Goes fd q₁ w₁ q₂ w') : Goes fd q w q₂ w' := by
  obtain ⟨acts, htrace, hacts⟩ := h
  obtain ⟨acts', htrace', hacts'⟩ := h'
  exact ⟨acts ++ acts', by rw [htrace', htrace, List.append_assoc], hacts.append hacts'⟩

theorem keep (h : Goes fd q w q₁ w₁) (htrace : w'.trace = w₁.trace) : Goes fd q w q₁ w' := by
  obtain ⟨acts, hacts, hfollows⟩ := h
  exact ⟨acts, htrace.trans hacts, hfollows⟩

theorem setRep (h : Goes fd q w q₁ w₁) (rep : UInt8) : Goes fd q w q₁ (w₁.setRep rep) := h.keep rfl

/-- Acts that the stage is about. -/
theorem of_adds (h : Adds (q.stays fd) w w') : Goes fd q w q w' := by
  obtain ⟨acts, htrace, hacts⟩ := h
  exact ⟨acts, htrace, Lib.Follows.stay fun a ha => protocol_stays (hacts a ha)⟩

theorem stay (h : Goes fd q w q₁ w₁) (h' : Adds (q₁.stays fd) w₁ w') : Goes fd q w q₁ w' :=
  h.trans (of_adds h')

/-- One act more. -/
theorem snoc (h : Goes fd q w q₁ w₁) (ha : protocol fd q₁ a = some q₂)
    (htrace : w'.trace = w₁.trace ++ [a]) : Goes fd q w q₂ w' :=
  h.trans ⟨[a], htrace, Lib.follows_singleton.mpr ha⟩

theorem emit (h : Goes fd q w q₁ w₁) (a : Act) (ha : protocol fd q₁ a = some q₂) :
    Goes fd q w q₂ (w₁.emit a) := h.snoc ha rfl

theorem setState (h : Goes fd q w q₁ w₁) (st : State)
    (hst : protocol fd q₁ (.state st) = some q₂) : Goes fd q w q₂ (w₁.setState st) := h.snoc hst rfl

theorem hungUp (h : Goes fd q w q₁ w₁) (s : Side)
    (hst : protocol fd q₁ (.state .closed) = some .closed) :
    Goes fd q w (w₁.hungUp s).session (w₁.hungUp s) :=
  h.snoc hst rfl

/-- The end of a handler, in the stage that its state tells. -/
theorem ends (h : Goes fd q w q₁ w') (hsession : w'.session = q₁) : Goes fd q w w'.session w' :=
  hsession ▸ h

/-- The stages in which a request is under way or already refused. -/
theorem replyWithErr {e : Side} (h : Goes fd q w q₁ w₁)
    (hq : q₁ = .request ∨ q₁ = .connecting ∨ q₁ = .listening ∨ q₁ = .replying ∨ q₁ = .refusing)
    (hr : ReplyWithErr w₁ e w') : Goes fd q w w'.session w' := by
  have hclosed : protocol fd q₁ (.state .closed) = some .closed := by
    rcases hq with rfl | rfl | rfl | rfl | rfl <;> rfl
  have hqueued : 10 ≤ (w₁.shared.out .client).free →
      Goes fd q w .refusing ((w₁.setRep (normRep w₁.info.rep)).queue .client
        (errReply (normRep w₁.info.rep))) := fun hroom => by
    refine h.snoc (@protocol_error _ _ (normRep w₁.info.rep) hq) ?_
    rw [World.queue_fits (by simpa using hroom)]
    rfl
  cases hr with
  | replied hroom hmod =>
    have hstate := (hqueued hroom).setState .sendingReply rfl
    have hkept : Goes fd q w .refusing w₁.errReplied := hstate.keep (by simp [World.errReplied])
    exact hkept.ends (session_errReplied w₁)
  | lost hlost =>
    cases hlost with
    | noRoom hroom =>
      have hkept : Goes fd q w q₁ (w₁.setRep (normRep w₁.info.rep)) := h.setRep _
      exact hkept.hungUp e hclosed
    | unwatched hroom hmod =>
      have hkept : Goes fd q w .refusing ((w₁.setRep (normRep w₁.info.rep)).queue .client
          (errReply (normRep w₁.info.rep))).popMod := (hqueued hroom).keep (by simp)
      exact hkept.hungUp e rfl

end Goes

end Effects

/-! ### Handlers of the client's descriptor -/

section Handlers

variable {cfg : Configs} {w w₁ w' : World} {e : Side} {ev : Events} {f : Option Fault}

theorem WaitingMethods.goes (hs : w.shared.state = .waitingMethods)
    (h : WaitingMethods cfg w e ev w') :
    Goes (w.shared.fd .client) .greeting w w'.session w' := by
  have hreceived : ∀ {n r w₁}, Recv w (w.shared.fd .client) n r w₁ →
      Does (Session.greeting.stays (w.shared.fd .client)) w w₁ := fun hrecv =>
    (Does.refl w).recv hrecv (by simp [Session.stays]) (by simp [Session.stays])
  have hqueued : ∀ {n bytes w₁}, Recv w (w.shared.fd .client) n (some bytes) w₁ →
      Does (Session.greeting.stays (w.shared.fd .client)) w (w₁.queue .server bytes) := fun hrecv =>
    (hreceived hrecv).queue .server _ rfl
  have hchosen : ∀ {n bytes w₁} got, Recv w (w.shared.fd .client) n (some bytes) w₁ →
      Goes (w.shared.fd .client) .greeting w .choosing
        ((w₁.queue .server bytes).methodChosen cfg got) := by
    intro n bytes w₁ got hrecv
    have hreply := (((hqueued hrecv).drop .server 2).drop .server (got.getD 1 0).toNat).queue
      .client [socks5Version, selectMethod cfg (offered got)] rfl
    exact Goes.keep ((Goes.of_adds hreply.trace).setState .sendingMethod rfl) rfl
  cases h with
  | idle hidle => exact Goes.refl.ends (session_eq hs)
  | ended hrecv hr => exact (Goes.of_adds (hreceived hrecv).trace).hungUp .client rfl
  | @part bytes _ w₁ hrecv hgot hpart =>
    have hstate : (w₁.queue .server bytes).shared.state = .waitingMethods := by
      simp [hrecv.shared, hs]
    exact (Goes.of_adds (hqueued hrecv).trace).ends (session_eq hstate)
  | badVersion hrecv hgot hcomplete hversion =>
    exact (Goes.of_adds ((hqueued hrecv).drop _ _).trace).hungUp .client rfl
  | @unwatched bytes got w₁ hrecv hgot hcomplete hversion hmod =>
    have hpopped : Goes (w.shared.fd .client) .greeting w .choosing
        ((w₁.queue .server bytes).methodChosen cfg got).popMod := (hchosen got hrecv).keep rfl
    exact hpopped.hungUp .client rfl
  | @chosen bytes got w₁ hrecv hgot hcomplete hversion hmod =>
    exact Goes.ends (Goes.keep (hchosen got hrecv) rfl) rfl

/-- What is sent to the client, and the descriptor given up when that fails. -/
theorem SendStopped.goes {n : Nat} {q : Session} (hq : w.session = q)
    (hsent : ∀ bytes, q.stays (w.shared.fd .client) (.sent (w.shared.fd .client) bytes) = true)
    (hfailed : q.stays (w.shared.fd .client) (.sendFailed (w.shared.fd .client)) = true)
    (hclosed : protocol (w.shared.fd .client) q (.state .closed) = some .closed)
    (h : SendStopped w n w') : Goes (w.shared.fd .client) q w w'.session w' := by
  cases h with
  | failed => exact (Goes.refl.emit _ (protocol_stays hfailed)).hungUp _ hclosed
  | part hk => exact Goes.ends (Goes.keep (Goes.refl.emit _ (protocol_stays (hsent _))) rfl) hq
  | unwatched hmod =>
    exact Goes.hungUp (Goes.keep (Goes.refl.emit _ (protocol_stays (hsent _))) rfl) .client hclosed

theorem goes_sentFront {n : Nat} {q : Session}
    (hsent : ∀ bytes, q.stays (w.shared.fd .client) (.sent (w.shared.fd .client) bytes) = true) :
    Goes (w.shared.fd .client) q w q (w.sentFront n).watchRecv :=
  (Goes.refl.emit _ (protocol_stays (hsent _))).keep rfl

theorem SendingMethod.goes (hs : w.shared.state = .sendingMethod) (h : SendingMethod w e ev w') :
    Goes (w.shared.fd .client) .choosing w w'.session w' := by
  have hsent : ∀ bytes, Session.choosing.stays (w.shared.fd .client)
      (.sent (w.shared.fd .client) bytes) = true := fun bytes => by simp [Session.stays]
  cases h with
  | idle hidle => exact Goes.refl.ends (session_eq hs)
  | stopped h => exact h.goes (session_eq hs) hsent (by simp [Session.stays]) rfl
  | refused hmod hmethod => exact (goes_sentFront hsent).hungUp _ rfl
  | accepted hmod hmethod => exact ((goes_sentFront hsent).setState .waitingCommand rfl).ends rfl

theorem SendingReply.goes (hp : Phase w)
    (hs : w.shared.state = .sendingReply ∨ w.shared.state = .sendingReply2)
    (h : SendingReply w e ev w') : Goes (w.shared.fd .client) w.session w w'.session w' := by
  have hsession : w.session = .replying ∧ w.info.rep = repSuccess ∧ w.shared.state = .sendingReply ∨
      w.session = .refusing ∧ w.info.rep ≠ repSuccess ∧ w.shared.state = .sendingReply ∨
      w.session = .replying2 ∧ w.info.cmd = cmdBind ∧ w.shared.state = .sendingReply2 := by
    rcases hs with hs | hs
    · by_cases hrep : w.info.rep = repSuccess
      · exact .inl ⟨by simp [session_eq hs, State.session, hrep], hrep, hs⟩
      · exact .inr (.inl ⟨by simp [session_eq hs, State.session, hrep], hrep, hs⟩)
    · exact .inr (.inr ⟨session_eq hs, (hp.second hs).1, hs⟩)
  have hsent : ∀ bytes, w.session.stays (w.shared.fd .client)
      (.sent (w.shared.fd .client) bytes) = true := fun bytes => by
    rcases hsession with ⟨hq, -⟩ | ⟨hq, -⟩ | ⟨hq, -⟩ <;> simp [hq, Session.stays]
  have hclosed : protocol (w.shared.fd .client) w.session (.state .closed) = some .closed := by
    rcases hsession with ⟨hq, -⟩ | ⟨hq, -⟩ | ⟨hq, -⟩ <;>
      simp [hq, protocol, Session.stays, Session.moves, Session.enters]
  have hfront : (w.sentFront 300).watchRecv.session = w.session := rfl
  cases h with
  | idle hidle => exact Goes.refl
  | stopped h =>
    refine h.goes rfl hsent ?_ hclosed
    rcases hsession with ⟨hq, -⟩ | ⟨hq, -⟩ | ⟨hq, -⟩ <;> simp [hq, Session.stays]
  | refused hmod hrep => exact (goes_sentFront hsent).hungUp _ hclosed
  | connected hmod hrep hcmd =>
    refine ((goes_sentFront hsent).setState .full ?_).ends rfl
    rcases hsession with ⟨hq, -⟩ | ⟨-, hne, -⟩ | ⟨hq, -⟩
    · rw [hq]
      rfl
    · exact absurd hrep hne
    · rw [hq]
      rfl
  | listening hmod hrep hcmd hstate =>
    have hq : w.session = .replying := by simp [session_eq hstate, State.session, hrep]
    exact (((goes_sentFront hsent).keep rfl).setState .bindListening (hq ▸ rfl)).ends rfl
  | associated hmod hrep hcmd =>
    refine ((goes_sentFront hsent).setState .fullUdpa ?_).ends rfl
    rcases hsession with ⟨hq, -⟩ | ⟨-, hne, -⟩ | ⟨-, hbind, -⟩
    · rw [hq]
      rfl
    · exact absurd hrep hne
    · rw [hcmd] at hbind
      exact absurd hbind (by decide)
  | odd hmod hrep hcmd hbind => exact (goes_sentFront hsent).ends hfront

/-! ### Requests -/

theorem OpenConnect.adds {K : Act → Bool} {dst : SockAddr} {r : Option Int}
    (hK : ∀ d dst, K (.connect d dst) = true) (h : OpenConnect w dst r w') : Adds K w w' := by
  cases h with
  | noSocket => exact .refl w
  | refused hans hpos hnew herr =>
    exact (((Does.refl w).opened _ _).emit _ (hK _ _) |>.setRep _).trace
  | started hans hpos hnew hok => exact (((Does.refl w).opened _ _).emit _ (hK _ _)).trace

theorem FirstAttempt.adds {K : Act → Bool} {r : Option Int}
    (hK : ∀ d dst, K (.connect d dst) = true) (h : FirstAttempt w r w') : Adds K w w' := by
  cases h with
  | unsupported hsa => exact .refl w
  | literal hsa h => exact h.adds hK
  | resolvedFailed hsa hai h => exact h.adds hK
  | resolved hsa hai h => exact (h.adds hK).trans (.of_trace rfl)

/-- The address of a success reply is no error reply. -/
theorem FinishReply.adds {K : Act → Bool} {a : Option ReplyAddr} {r : Bool}
    (hK : ∀ bytes, verdict? bytes ≠ some .failure → K (.queued .client bytes) = true)
    (ha : ∀ b, a = some b → b.Silent) (h : FinishReply w a r w') : Adds K w w' := by
  have hsilent : ∀ {b : ReplyAddr}, a = some b → Does K w (w.queueAddr b) := by
    intro b hb
    obtain ⟨haddr, haddr', hport, hport'⟩ := ha b hb
    have hnone : ∀ {bytes : List UInt8}, bytes.length ≠ 3 ∧ bytes.length ≠ 10 →
        K (.queued .client bytes) = true := fun hlen =>
      hK _ (by simp [verdict?_eq_none hlen])
    exact (((Does.refl w).queue _ _ (hnone (by simp))).queue _ _ (hnone ⟨haddr, haddr'⟩)).queue _ _
      (hnone ⟨hport, hport'⟩)
  cases h with
  | skipped => exact .refl w
  | sent hmod => exact (hsilent rfl).watchSend.trace
  | unwatched hmod => exact (hsilent rfl).popMod.trace

/-- How a command that was begun in stage `request` leaves the dialogue: under way, or to be
refused. -/
def Begun (fd : Int) (w w' : World) : Prop :=
  Goes fd .request w w'.session w' ∧ (w'.info.rep = repUnset ∨ w'.info.rep = repSuccess) ∨
    (w'.info.rep ≠ repUnset ∧ w'.info.rep ≠ repSuccess) ∧
      (Goes fd .request w .request w' ∨ Goes fd .request w .replying w')

theorem Begun.failed {fd : Int} {rep : UInt8} (hrep : rep = repGenfail ∨ rep = repBadatyp)
    (hinfo : w'.info.rep = rep)
    (h : Goes fd .request w .request w' ∨ Goes fd .request w .replying w') : Begun fd w w' := by
  refine .inr ⟨?_, h⟩
  rw [hinfo]
  rcases hrep with rfl | rfl <;> decide

theorem InitConnect.begun {fd : Int} (hrep : w.info.rep = repUnset) (h : InitConnect w w') :
    Begun fd w w' := by
  have hinvoked : Adds (Session.request.stays fd) w (w.emit (.invoked .connect)) :=
    (Does.refl w).emit _ rfl |>.trace
  have hattempt : ∀ {r : Option Int} {w₁ : World},
      FirstAttempt (w.emit (.invoked .connect)) r w₁ → Goes fd .request w .request w₁ := fun h =>
    .of_adds (hinvoked.trans (h.adds fun _ _ => rfl))
  have hfailed : ∀ {w₁ : World}, Goes fd .request w .request w₁ →
      Begun fd w (w₁.setRep repGenfail) := fun h => .failed (.inl rfl) rfl (.inl (h.keep rfl))
  cases h with
  | noAddr hai hsa => exact hfailed (.of_adds hinvoked)
  | notOpened h =>
    refine .failed (.inl rfl) ?_ (.inl (hattempt h))
    cases h with
    | literal hsa h => cases h <;> rfl
    | resolvedFailed hsa hai h => cases h <;> rfl
  | noMemory h hmalloc => exact hfailed (hattempt h)
  | unwatched h hmalloc hadd => exact hfailed ((hattempt h).keep rfl)
  | @connecting sfd w₁ h hmalloc hadd hopen =>
    have hrep₁ : w₁.info.rep = repUnset := by
      cases h with
      | unsupported hsa => exact hrep
      | literal hsa h => cases h; exact hrep
      | resolved hsa hai h => cases h; exact hrep
    have hgoes : Goes fd .request w .request ((w₁.connectStarted sfd).setInterest sfd
        (some (epollOut, some .server))) := (hattempt h).keep rfl
    exact .inl ⟨(hgoes.setState .connecting rfl).ends rfl, .inl hrep₁⟩

theorem InitListen.begun {fd : Int} {g : InitFn} (h : InitListen cfg g w w') :
    Begun fd w w' := by
  have hinvoked : Adds (Session.request.stays fd) w (w.emit (.invoked g)) :=
    (Does.refl w).emit _ rfl |>.trace
  have hlisten : ∀ {sfd : Int}, Adds (Session.request.stays fd) w (w.listenStarted g sfd) := by
    intro sfd
    exact (((((Does.refl w).emit (.invoked g) rfl).opened sfd _).linkServer sfd).setRep
      repSuccess |>.queue _ _ rfl).trace
  have hreply : ∀ {sfd : Int} {a : Option ReplyAddr} {r : Bool} {w₁ : World},
      ListenReply cfg w g a → FinishReply (w.listenStarted g sfd) a r w₁ →
      Goes fd .request w .request w₁ := by
    intro sfd a r w₁ ha h
    refine .of_adds (hlisten.trans (h.adds (fun bytes hb => by simp [Session.stays, hb]) ?_))
    rintro b rfl
    exact ha.silent
  have hsuccess : ∀ {sfd : Int} {a : Option ReplyAddr} {w₁ : World},
      FinishReply (w.listenStarted g sfd) a true w₁ → w₁.info.rep = repSuccess := by
    intro sfd a w₁ h
    cases h with
    | skipped => simp [World.listenStarted, World.queueHead]
    | sent hmod => simp [World.listenStarted, World.queueHead, World.queueAddr]
  cases h with
  | notOpened hno => exact .failed (.inl rfl) rfl (.inl (Goes.keep (.of_adds hinvoked) rfl))
  | failed haddr hnew hrep => exact .failed hrep rfl (.inl (Goes.keep (.of_adds hinvoked) rfl))
  | unnamed haddr hnew => exact .failed (.inl rfl) rfl (.inl (Goes.keep (.of_adds hinvoked) rfl))
  | unanswered haddr hnew ha h => exact .failed (.inl rfl) rfl (.inl ((hreply ha h).keep rfl))
  | @unlistened sfd a w₁ haddr hnew ha h =>
    have hgoes : Goes fd .request w .request ((w₁.drop .server outbuffsize).setRep repGenfail) :=
      (hreply ha h).keep rfl
    exact .failed (.inl rfl) rfl (.inr (hgoes.setState .sendingReply rfl))
  | @listening sfd a w₁ haddr hnew ha h =>
    have hgoes : Goes fd .request w .request ((w₁.drop .server outbuffsize).setInterest sfd
        (some (epollIn, some .server))) := (hreply ha h).keep rfl
    have hrep := hsuccess h
    exact .inl ⟨(hgoes.setState .sendingReply rfl).ends (if_pos hrep), .inr hrep⟩

theorem Init.begun {fd : Int} (hrep : w.info.rep = repUnset) (h : Init cfg w w') :
    Begun fd w w' := by
  cases h with
  | connect hcmd hallow h => exact h.begun hrep
  | bind hcmd hallow h => exact h.begun
  | udpa hcmd hallow h => exact h.begun

/-- After a failed lookup there is no address, and a command that is begun all the same
gets nowhere. -/
theorem Init.goes_refused {fd : Int} (hsa : w.info.sa = none) (hai : w.info.ai = [])
    (h : Init cfg w w') : Goes fd .refusing w .refusing w' ∧ w'.info.rep = repGenfail := by
  have hinvoked : ∀ g, Goes fd .refusing w .refusing ((w.emit (.invoked g)).setRep repGenfail) :=
    fun g => Goes.keep (Goes.refl.emit (.invoked g) rfl) rfl
  have hnothing : ∀ {r : Option Int} {w₁ : World},
      ¬ FirstAttempt (w.emit (.invoked .connect)) r w₁ := by
    intro r w₁ h
    cases h with
    | unsupported hsome => simp [hsa] at hsome
    | literal hsome h => simp [hsa] at hsome
    | resolvedFailed hnone hsome h => simp [hai] at hsome
    | resolved hnone hsome h => simp [hai] at hsome
  have hlisten : ∀ {g : InitFn}, InitListen cfg g w w' →
      Goes fd .refusing w .refusing w' ∧ w'.info.rep = repGenfail := by
    intro g h
    cases h with
    | notOpened hno => exact ⟨hinvoked g, rfl⟩
    | failed haddr hnew hrep => simp [hsa, hai] at haddr
    | unnamed haddr hnew => simp [hsa, hai] at haddr
    | unanswered haddr hnew ha h => simp [hsa, hai] at haddr
    | unlistened haddr hnew ha h => simp [hsa, hai] at haddr
    | listening haddr hnew ha h => simp [hsa, hai] at haddr
  cases h with
  | connect hcmd hallow h =>
    cases h with
    | noAddr hnone hno => exact ⟨hinvoked .connect, rfl⟩
    | notOpened h => exact absurd h hnothing
    | noMemory h hmalloc => exact absurd h hnothing
    | unwatched h hmalloc hadd => exact absurd h hnothing
    | connecting h hmalloc hadd hopen => exact absurd h hnothing
  | bind hcmd hallow h => exact hlisten h
  | udpa hcmd hallow h => exact hlisten h

/-- A command that may be carried out, and the reply of its caller. -/
theorem CommandDone.goes {fd : Int} {o : Obj} (hrep : w.info.rep = repUnset)
    (h : CommandDone cfg w o f w') : Goes fd .request w w'.session w' := by
  have hset : Goes fd .request w .request (w.setRep repBadcomm) := Goes.refl.setRep _
  cases h with
  | refusedLost hno h => exact hset.replyWithErr (.inl rfl) (.lost h)
  | refused hno hroom hmod h =>
    have hrefused := hset.replyWithErr (.inl rfl) (.replied (e := .client) hroom hmod)
    rw [session_errReplied] at hrefused
    exact hrefused.replyWithErr (by simp) h
  | started h hok =>
    rcases (show Begun fd w _ from h.begun hrep) with ⟨hgoes, -⟩ | ⟨⟨hunset, hsuccess⟩, -⟩
    · exact hgoes
    · exact absurd hok (by simp [hunset, hsuccess])
  | failed h hbad hreply =>
    rcases (show Begun fd w _ from h.begun hrep) with ⟨-, hok⟩ | ⟨-, hgoes | hgoes⟩
    · exact absurd hok (by simp [hbad])
    · exact hgoes.replyWithErr (.inl rfl) hreply
    · exact hgoes.replyWithErr (by simp) hreply

/-- The same for a request whose name was not found. -/
theorem CommandDone.goes_refused {fd : Int} {o : Obj} (hsa : w.info.sa = none)
    (hai : w.info.ai = []) (h : CommandDone cfg w o f w') :
    Goes fd .refusing w w'.session w' := by
  have hset : Goes fd .refusing w .refusing (w.setRep repBadcomm) := Goes.refl.setRep _
  cases h with
  | refusedLost hno h => exact hset.replyWithErr (by simp) (.lost h)
  | refused hno hroom hmod h =>
    have hrefused := hset.replyWithErr (by simp) (.replied (e := .client) hroom hmod)
    rw [session_errReplied] at hrefused
    exact hrefused.replyWithErr (by simp) h
  | started h hok =>
    have hfailed : Goes fd .refusing w .refusing w' ∧ _ := h.goes_refused hsa hai
    rw [hfailed.2] at hok
    exact absurd hok (by decide)
  | failed h hbad hreply => exact (h.goes_refused hsa hai).1.replyWithErr (by simp) hreply

theorem ResolverReturned.goes {fd : Int} (hrep : w.info.rep = repUnset) (hsa : w.info.sa = none)
    (hai : w.info.resolverRet ≠ 0 → w.info.ai = []) (h : ResolverReturned cfg w f w') :
    Goes fd .request w w'.session w' := by
  have hset : Goes fd .request w .request (w.setRep repGenfail) := Goes.refl.setRep _
  cases h with
  | lost hret h => exact hset.replyWithErr (.inl rfl) (.lost h)
  | failed hret hroom hmod h =>
    have hrefused := hset.replyWithErr (.inl rfl) (.replied (e := .client) hroom hmod)
    rw [session_errReplied] at hrefused
    refine hrefused.trans (h.goes_refused ?_ ?_)
    · simpa [World.errReplied] using hsa
    · simpa [World.errReplied] using hai hret
  | resolved hret h => exact h.goes hrep

theorem WaitingCommand.goes (hs : w.shared.state = .waitingCommand) (hrep : w.info.rep = repUnset)
    (hsa : w.info.sa = none)
    (hai : w.info.resolverRet ≠ -1 → w.info.resolverRet ≠ 0 → w.info.ai = [])
    (h : WaitingCommand cfg w e ev f w') : Goes (w.shared.fd .client) .request w w'.session w' := by
  have hreceived : ∀ {n r w₁}, Recv w (w.shared.fd .client) n r w₁ →
      Does (Session.request.stays (w.shared.fd .client)) w w₁ := fun hrecv =>
    (Does.refl w).recv hrecv (by simp [Session.stays]) (by simp [Session.stays])
  cases h with
  | idle hidle => exact Goes.refl.ends (session_eq hs)
  | resolver hret h => exact h.goes hrep hsa (hai hret)
  | ended hret hrecv hr => exact (Goes.of_adds (hreceived hrecv).trace).hungUp .client rfl
  | @data bytes got w₁ _ _ hret hrecv hgot h =>
    have hqueued : Goes (w.shared.fd .client) .request w .request (w₁.queue .server bytes) :=
      .of_adds ((hreceived hrecv).queue .server bytes rfl).trace
    have hstate : (w₁.queue .server bytes).shared.state = .waitingCommand := by
      simp [hrecv.shared, hs]
    have hinfo : (w₁.queue .server bytes).info = w.info := by simp [hrecv.info]
    cases h with
    | short hlen => exact hqueued.ends (session_eq hstate)
    | badAtyp hlen htotal h => exact (hqueued.setRep _).replyWithErr (.inl rfl) h
    | part hlen htotal hpart => exact hqueued.ends (session_eq hstate)
    | badVersion hlen htotal hcomplete hversion =>
      have hstored : Goes (w.shared.fd .client) .request w .request
          ((w₁.queue .server bytes).commandStored (got.take 300)) := hqueued.keep rfl
      exact hstored.hungUp .client rfl
    | run hlen htotal hcomplete hversion h =>
      have hstored : Goes (w.shared.fd .client) .request w .request
          ((w₁.queue .server bytes).commandStored (got.take 300)) := hqueued.keep rfl
      have hrep₁ : (w₁.queue .server bytes).info.rep = repUnset := by rw [hinfo, hrep]
      have hchecked : Goes (w.shared.fd .client) .request w .request
          ((((w₁.queue .server bytes).commandStored (got.take 300)).addrStored (got.take 300)).emit
            (.firewall (((w₁.queue .server bytes).commandStored (got.take 300)).addrStored
              (got.take 300)).info)) := hstored.snoc rfl rfl
      cases h with
      | domain hatyp =>
        have hlookup : Goes (w.shared.fd .client) .request w .lookup
            (((w₁.queue .server bytes).commandStored (got.take 300)).setState .asyncDns) :=
          hstored.setState .asyncDns rfl
        have hasked := (hlookup.stay ((Does.refl _).setState .asyncDns rfl).trace).stay
          ((Does.refl _).emit (.resolve ((List.range 296).map fun i =>
            reqAt (got.take 300) (4 + i))) rfl).trace
        exact Goes.ends (Goes.keep hasked rfl) rfl
      | noMemory hatyp hmalloc => exact hstored.ends (session_eq hstate)
      | dropped hatyp hfirewall h =>
        exact (hchecked.setRep _).replyWithErr (.inl rfl) h
      | passed hatyp hfirewall h => exact hchecked.trans (h.goes hrep₁)

end Handlers

/-! ### Handlers of the server's descriptor, relay and teardown -/

section Server

variable {cfg : Configs} {w w₁ w' : World} {e : Side} {ev : Events} {f : Option Fault}

/-- `client_out` of an attempt that failed: the next address, or an error reply. -/
theorem ConnectFailed.goes {fd : Int} {q : Session} {error : BitVec 32}
    (hq : q = .connecting ∨ q = .replying) (hsession : w.session = q)
    (h : ConnectFailed w error w') : Goes fd q w w'.session w' := by
  have hunder : q = .request ∨ q = .connecting ∨ q = .listening ∨ q = .replying ∨
      q = .refusing := by
    rcases hq with rfl | rfl <;> simp
  cases h with
  | retry hlen hget =>
    refine (Goes.refl.snoc (protocol_stays ?_) rfl).ends hsession
    rcases hq with rfl | rfl <;> rfl
  | exhausted hlen hget h =>
    have hnext : Goes fd q w q w.nextAddr := Goes.refl.keep rfl
    exact (hnext.setRep _).replyWithErr hunder h
  | single hlen h => exact (Goes.refl.setRep _).replyWithErr hunder h

theorem Connecting.goes {fd : Int} (hs : w.shared.state = .connecting)
    (h : Connecting w e ev w') : Goes fd .connecting w w'.session w' := by
  have hconnected : ∀ ss, Goes fd .connecting w .replying (w.connectedTo ss) := by
    intro ss
    have hhead : Goes fd .connecting w .connecting (((w.setRep repSuccess).noted ss).queueHead
        repSuccess) := .of_adds ((((Does.refl w).setRep _).noted _).queue _ _ rfl).trace
    exact hhead.setState .sendingReply rfl
  have hreplied : ∀ {ss : SockAddr} {a : ReplyAddr} {r : Bool} {w₁ : World},
      ss.replyAddr ss.port = some a → FinishReply (w.connectedTo ss) (some a) r w₁ →
      Goes fd .connecting w .replying w₁ := by
    intro ss a r w₁ haddr h
    refine (hconnected ss).stay (h.adds (fun bytes hb => by simp [Session.stays, hb]) ?_)
    rintro b heq
    obtain rfl := Option.some.inj heq
    exact SockAddr.replyAddr_silent haddr
  have hrefused : ∀ {q : Session} {w₁ w₂ : World} {s : Side},
      q = .connecting ∨ q = .replying → Goes fd .connecting w q w₁ →
      ReplyWithErr (w₁.setRep repGenfail) s w₂ → Goes fd .connecting w w₂.session w₂ := by
    intro q w₁ w₂ s hq hgoes h
    refine (hgoes.setRep _).replyWithErr ?_ h
    rcases hq with rfl | rfl <;> simp
  cases h with
  | idle hidle => exact Goes.refl.ends (session_eq hs)
  | unknown hso h => exact hrefused (.inl rfl) .refl h
  | failed hso herr h => exact h.goes (.inl rfl) (session_eq hs)
  | unnamed hso hname h => exact hrefused (.inl rfl) (Goes.refl.setRep _) h
  | oddFamily hso hname haddr h =>
    refine (hconnected _).trans (h.goes (.inr rfl) ?_)
    rw [@session_eq _ .sendingReply rfl]
    exact if_pos (by simp [World.connectedTo, World.queueHead])
  | unanswered hso hname haddr hreply h => exact hrefused (.inr rfl) (hreplied haddr hreply) h
  | unwatched hso hname haddr hreply hmod h =>
    refine hrefused (.inr rfl) ((hreplied haddr hreply).keep ?_) h
    cases hmod
    rfl
  | @connected ss a w₁ _ hso hname haddr hreply hmod =>
    have hgoes : Goes fd .connecting w .replying w' := by
      refine (hreplied haddr hreply).keep ?_
      cases hmod
      rfl
    refine hgoes.ends ?_
    have hstate : w'.shared.state = .sendingReply := by
      rw [hmod.shared]
      cases hreply
      simp [World.connectedTo, World.queueHead, World.queueAddr]
    have hrep : w'.info.rep = repSuccess := by
      rw [hmod.info]
      cases hreply
      simp [World.connectedTo, World.queueHead, World.queueAddr]
    rw [session_eq hstate]
    exact if_pos hrep

theorem BindListening.goes {fd : Int} (hs : w.shared.state = .bindListening)
    (h : BindListening w e ev w') : Goes fd .listening w w'.session w' := by
  have hpeer : ∀ {newFd : Int} {ss : SockAddr},
      Does (Session.listening.stays fd) w (w.acceptedPeer newFd ss) :=
    (((Does.refl w).setFd _ _).emit _ rfl).noted _
  have hhead : ∀ {newFd : Int} {ss : SockAddr} {w₁ : World},
      Added ((w.acceptedPeer newFd ss).rehomed newFd) newFd (epollIn, some .server) true w₁ →
      Does (Session.listening.stays fd) w ((w₁.setRep repSuccess).queueHead repSuccess) :=
    fun hadd => (((hpeer.rehomed _).added hadd).setRep _).queue _ _ rfl
  have hrefused : ∀ {rep : UInt8} {w₁ w₂ : World} {s : Side},
      Does (Session.listening.stays fd) w w₁ → ReplyWithErr (w₁.setRep rep) s w₂ →
      Goes fd .listening w w₂.session w₂ := fun hdoes h =>
    (Goes.of_adds (hdoes.setRep _).trace).replyWithErr (by simp) h
  have hreplied : ∀ {newFd : Int} {ss : SockAddr} {a : ReplyAddr} {r : Bool} {w₁ w₂ : World},
      Added ((w.acceptedPeer newFd ss).rehomed newFd) newFd (epollIn, some .server) true w₁ →
      ss.replyAddr ss.port = some a →
      FinishReply ((w₁.setRep repSuccess).queueHead repSuccess) (some a) r w₂ →
      Goes fd .listening w .listening w₂ := by
    intro newFd ss a r w₁ w₂ hadd haddr h
    refine (Goes.of_adds (hhead hadd).trace).stay
      (h.adds (fun bytes hb => by simp [Session.stays, hb]) ?_)
    rintro b heq
    obtain rfl := Option.some.inj heq
    exact SockAddr.replyAddr_silent haddr
  cases h with
  | idle hidle => exact Goes.refl.ends (session_eq hs)
  | noPeer hnone h => exact hrefused (.refl w) h
  | noRequest hans hnew hreq h => exact hrefused hpeer h
  | otherPeer hans hnew hreq hdiff h => exact hrefused hpeer h
  | unwatched hans hnew hreq hsame he hadd h => exact hrefused (hpeer.rehomed _) h
  | oddFamily hans hnew hreq hsame he hadd haddr h => exact hrefused (hhead hadd) h
  | unanswered hans hnew hreq hsame he hadd haddr hreply h =>
    exact ((hreplied hadd haddr hreply).setRep _).replyWithErr (by simp) h
  | accepted hans hnew hreq hsame he hadd haddr hreply =>
    exact ((hreplied hadd haddr hreply).setState .sendingReply2 rfl).ends rfl

theorem Full.goes {fd : Int} (hs : w.shared.state = .full) (h : Full w e ev w') :
    Goes fd .relay w w'.session w' := by
  have hsent : ∀ k, Does (Session.relay.stays fd) w (w.sentTo e k) := fun k =>
    ((Does.refl w).emit _ rfl).drop _ _
  have hreceived : ∀ {n r w₁}, Recv w (w.selfFd e) n r w₁ → Does (Session.relay.stays fd) w w₁ :=
    fun hrecv => (Does.refl w).recv hrecv (fun _ => rfl) rfl
  cases h with
  | idle hidle => exact Goes.refl.ends (session_eq hs)
  | sendFailed hout =>
    have hfailed : Goes fd .relay w .relay
        ((w.emit (.sendFailed (w.selfFd e))).flagged e flagWriteClosed) :=
      .of_adds (((Does.refl w).emit _ rfl).flagged _ _).trace
    exact (hfailed.setState .halfClose rfl).ends rfl
  | sentPart hout hk => exact (Goes.of_adds (hsent _).trace).ends (session_eq hs)
  | @drained r w₁ hout hmod =>
    have hdrained : Goes fd .relay w .relay w₁ := .of_adds ((hsent _).modified hmod).trace
    cases r with
    | true =>
      have hstate : w₁.shared.state = .full := by simpa [hmod.shared] using hs
      exact hdrained.ends (session_eq hstate)
    | false => exact (hdrained.setState .closed rfl).ends rfl
  | @ended r b w₁ _ hin hout hrecv hr hmod =>
    have hended : Goes fd .relay w .halfClosed
        (((w₁.flagged e flagReadClosed).flagged e.peer flagFlushing).setState .halfClose) :=
      (Goes.of_adds (((hreceived hrecv).flagged _ _).flagged _ _).trace).setState .halfClose rfl
    refine (hended.trans (.of_adds ((Does.refl _).modified hmod).trace)).ends ?_
    exact @session_eq w' .halfClose (by rw [hmod.shared]; rfl)
  | received hin hout hrecv hne hmod =>
    have hstate : w'.shared.state = .full := by simp [hmod.shared, hrecv.shared, hs]
    exact (Goes.of_adds (((hreceived hrecv).queue _ _ rfl).modified hmod).trace).ends
      (session_eq hstate)

/-- What an event for an open connection does follows the protocol. -/
theorem Handled.goes (hp : Phase w) (h : Handled cfg w e ev f w') :
    Goes (w.shared.fd .client) w.session w w'.session w' := by
  cases h with
  | still hstate => exact .refl
  | waitingMethods hstate h => exact session_eq hstate ▸ h.goes hstate
  | sendingMethod hstate h => exact session_eq hstate ▸ h.goes hstate
  | waitingCommand hstate h =>
    obtain ⟨hrep, hsa, hret, -⟩ := hp.early (by simp [hstate])
    exact session_eq hstate ▸ h.goes hstate hrep hsa fun hne => absurd hret hne
  | sendingReply hstate h => exact h.goes hp hstate
  | connecting hstate h => exact session_eq hstate ▸ h.goes hstate
  | bindListening hstate h => exact session_eq hstate ▸ h.goes hstate
  | full hstate h => exact session_eq hstate ▸ h.goes hstate
  | halfClose hstate =>
    refine session_eq hstate ▸ (Goes.refl.setState .closed ?_).ends rfl
    rfl
  | closed hstate =>
    exact (Goes.keep Goes.refl rfl).ends rfl

end Server

/-! ### Runs -/

section Runs

variable {cfg : Configs} {fd : Int} {w w' : World} {i : Input} {f : Option Fault}
  {q r : Session} {a : Act}

/-- What was done follows the protocol, and led to the stage in which the connection is. -/
def Spoken (fd : Int) (w : World) : Prop :=
  ∃ acts, w.trace = .state .waitingMethods :: acts ∧
    Lib.Follows (protocol fd) .greeting acts w.session

theorem Spoken.goes (h : Spoken fd w) (hgoes : Goes fd w.session w w'.session w') :
    Spoken fd w' := by
  obtain ⟨acts, htrace, hacts⟩ := h
  obtain ⟨acts', htrace', hacts'⟩ := hgoes
  exact ⟨acts ++ acts', by rw [htrace', htrace, List.cons_append], hacts.append hacts'⟩

theorem newClient_spoken (fd : Int) (ss : SockAddr) (bufs : Side → OutBuff) :
    Spoken fd (newClient fd ss bufs) :=
  ⟨[], rfl, Lib.follows_nil.mpr rfl⟩

/-- One input keeps to the protocol. -/
theorem Spoken.stepped (h : Spoken fd w) (hs : Sane w) (hfd : w.selfFd .client = fd)
    (hstep : Stepped cfg w i f w') : Spoken fd w' := by
  cases hstep.moved with
  | idle hcore hreg =>
    simp only [World.core, Prod.mk.injEq] at hcore
    obtain ⟨htrace, hstate, -, -, hinfo⟩ := hcore
    rw [Spoken, htrace, World.session, hstate, hinfo]
    exact h
  | answered hdns => exact h
  | @handled ans rest _ e ev _ _ hpending hw hd hhandled hwant =>
    have htaken := hs.taken hpending ans
    have hclient : (w.taken rest ans).shared.fd .client = fd := hw.self_client ▸ hfd
    have hgoes := hhandled.goes (htaken.phase hw)
    rw [hclient] at hgoes
    exact Spoken.goes (w := w.taken rest ans) h hgoes
  | @resumed ans rest gaiRet _ _ hpending hw hdns hhandled =>
    have hp := (hs.taken hpending ans).phase hw
    have hasync : w.shared.state = .asyncDns := (hs.dns (by simp [hdns])).2
    have hearly : (w.taken rest ans).shared.state.early = true := by simp [hasync]
    obtain ⟨hrep, hsa, -, -⟩ := hp.early hearly
    have hclient : (w.taken rest ans).shared.fd .client = fd := hw.self_client ▸ hfd
    have hresumed : Goes fd .lookup (w.taken rest ans) .request
        ((w.taken rest ans).resumed gaiRet) := Goes.refl.snoc rfl rfl
    have hai : gaiRet ≠ 0 → (w.taken rest ans).info.ai = [] := fun hret =>
      hp.ai hearly fun r hr => by
        rw [World.taken_dns, hdns] at hr
        cases hr
        exact hret
    have hgoes := WaitingCommand.goes (w := (w.taken rest ans).resumed gaiRet) rfl hrep hsa
      (fun _ => hai) hhandled
    rw [show ((w.taken rest ans).resumed gaiRet).shared.fd .client = fd from hclient] at hgoes
    refine Spoken.goes (w := w.taken rest ans) h ?_
    rw [session_eq (w := w.taken rest ans) hasync]
    exact hresumed.trans hgoes

/-- **Every run follows the protocol.** Whatever happens to a connection, in whatever order, its
acts are allowed one after the other, and they lead to the stage that its state tells. -/
theorem run_follows_protocol {ss : SockAddr} {bufs : Side → OutBuff} {mallocs epollAdd : Bool}
    {w₀ : World} (hw₀ : acceptNewClient fd ss bufs mallocs epollAdd = some w₀) (is : List Input) :
    Spoken fd (Lib.run (step cfg) is w₀).state := by
  have hsane := acceptNewClient_sane hw₀
  obtain ⟨-, rfl⟩ := acceptNewClient_eq hw₀
  exact client_invariant (C := fun _ _ => True) hsane rfl (newClient_spoken fd ss bufs)
    (Lib.meets_of_forall (fun _ _ => trivial) is _)
    fun hs hfd h _ hstep => h.stepped hs hfd hstep

theorem run_follows_protocol_connect :
    Spoken 5 (Lib.run (step openConfigs) (literalConnect ++ connectDone)
      (newClient 5 (.inet ![4, 0] ![127, 0, 0, 1]) fun _ => .zero)).state ∧
    (Lib.run (step openConfigs) (literalConnect ++ connectDone)
      (newClient 5 (.inet ![4, 0] ![127, 0, 0, 1]) fun _ => .zero)).state.session = .relay :=
  have haccept : acceptNewClient 5 (.inet ![4, 0] ![127, 0, 0, 1]) (fun _ => .zero) true true =
      some (newClient 5 (.inet ![4, 0] ![127, 0, 0, 1]) fun _ => .zero) := rfl
  ⟨run_follows_protocol haccept _, by decide +kernel⟩

end Runs

/-! ### What the protocol rules out -/

section Never

variable {fd : Int} {q r : Session} {a : Act}

/-- How far a dialogue is from its end. A lookup goes back to the request that it is for. -/
def Session.rank : Session → Nat
  | .greeting => 9
  | .choosing => 8
  | .request | .lookup => 7
  | .connecting => 6
  | .replying => 5
  | .listening => 4
  | .replying2 => 3
  | .refusing | .relay => 2
  | .associated | .halfClosed => 1
  | .closed => 0

/-- The states that end what went before. -/
def State.turns : State → Bool
  | .sendingMethod | .connecting | .bindListening | .sendingReply2 | .full | .fullUdpa
  | .halfClose | .closed => true
  | _ => false

theorem Session.enters_rank {st : State} (h : q.enters st = some r) :
    r.rank < q.rank ∨ st.turns = false ∧ r.rank = q.rank := by
  cases q <;> cases st <;> cases h <;> decide

theorem Session.enters_eq {st : State} (h : q.enters st = some r) : r = st.session repSuccess := by
  cases q <;> cases st <;> cases h <;> rfl

/-- A state that is entered again ends nothing. -/
theorem Session.stays_state {st : State} (h : q.stays fd (.state st) = true) :
    st.turns = false := by
  cases q <;> cases st <;> first | rfl | cases h

/-- An allowed act is one that the stage is about, enters a state, or refuses the request. -/
theorem protocol_cases (h : protocol fd q a = some r) :
    q = r ∧ q.stays fd a = true ∨ (∃ st, a = .state st ∧ q.enters st = some r) ∨
      r = .refusing ∧ q.pending = true ∧
        ∃ bytes, a = .queued .client bytes ∧ verdict? bytes = some .failure := by
  unfold protocol at h
  split at h
  · rename_i hstays
    exact .inl ⟨Option.some.inj h, hstays⟩
  · unfold Session.moves at h
    split at h
    · exact .inr (.inl ⟨_, rfl, h⟩)
    · split at h
      · rename_i hpending
        cases h
        exact .inr (.inr ⟨rfl, hpending.1, _, rfl, hpending.2⟩)
      · cases h
    · cases h

/-- A refused client has no relay. -/
example : protocol 5 .refusing (.state .full) = none := by
  decide +kernel

/-- No act leads back, but for the resolver's answer. -/
theorem protocol_rank (h : protocol fd q a = some r) : r.rank ≤ q.rank := by
  rcases protocol_cases h with ⟨rfl, -⟩ | ⟨st, -, henters⟩ | ⟨rfl, hpending, -⟩
  · exact Nat.le_refl _
  · rcases Session.enters_rank henters with hlt | ⟨-, heq⟩
    · exact hlt.le
    · exact heq.le
  · cases q <;> first | decide | cases hpending

theorem protocol_enters {st : State} (hst : st.turns = true)
    (h : protocol fd q (.state st) = some r) : r = st.session repSuccess := by
  rcases protocol_cases h with ⟨-, hstays⟩ | ⟨st', heq, henters⟩ | ⟨-, -, bytes, heq, -⟩
  · rw [Session.stays_state hstays] at hst
    cases hst
  · cases heq
    exact Session.enters_eq henters
  · cases heq

theorem protocol_turns {st : State} (hst : st.turns = true)
    (h : protocol fd q (.state st) = some r) :
    r.rank = (st.session repSuccess).rank ∧ (st.session repSuccess).rank < q.rank := by
  have hr := protocol_enters hst h
  rcases protocol_cases h with ⟨-, hstays⟩ | ⟨st', heq, henters⟩ | ⟨-, -, bytes, heq, -⟩
  · rw [Session.stays_state hstays] at hst
    cases hst
  · cases heq
    refine ⟨by rw [hr], hr ▸ (Session.enters_rank henters).resolve_right fun hsame => ?_⟩
    rw [hst] at hsame
    cases hsame.1
  · cases heq

/-- Nothing is done in these stages. -/
theorem protocol_ended (hq : q = .closed ∨ q = .associated) : protocol fd q a ≠ some r := by
  intro h
  rcases protocol_cases h with ⟨-, hstays⟩ | ⟨st, rfl, henters⟩ | ⟨-, hpending, -⟩
  · rcases hq with rfl | rfl <;> cases hstays
  · rcases hq with rfl | rfl <;> cases st <;> cases henters
  · rcases hq with rfl | rfl <;> cases hpending

theorem protocol_halfClosed (h : protocol fd .halfClosed a = some r) :
    a = .state .closed ∧ r = .closed := by
  rcases protocol_cases h with ⟨-, hstays⟩ | ⟨st, rfl, henters⟩ | ⟨-, hpending, -⟩
  · cases hstays
  · cases st <;> cases henters
    exact ⟨rfl, rfl⟩
  · cases hpending

/-- The descriptor of a transfer. -/
def Act.talks : Act → Option Int
  | .recv d _ | .eof d | .sent d _ | .sendFailed d => some d
  | _ => none

/-- Before the relay the server only talks to its client. -/
theorem protocol_talks {d : Int} (ha : a.talks = some d) (hd : d ≠ fd)
    (h : protocol fd q a = some r) : q = .relay := by
  rcases protocol_cases h with ⟨-, hstays⟩ | ⟨st, rfl, -⟩ | ⟨-, -, bytes, rfl, -⟩
  · cases a <;> cases ha <;> cases q <;> simp_all [Session.stays]
  · cases ha
  · cases ha

/-- The relay is entered with STATE_FULL. -/
theorem protocol_full (hq : q ≠ .relay) (h : protocol fd q a = some r) (ha : a ≠ .state .full) :
    r ≠ .relay := by
  rcases protocol_cases h with ⟨rfl, -⟩ | ⟨st, rfl, henters⟩ | ⟨rfl, -⟩
  · exact hq
  · rintro rfl
    have hst := Session.enters_eq henters
    cases st <;> first | exact ha rfl | cases hst
  · decide

/-- What is still done for a request that was refused. -/
def Act.isRefusal (fd : Int) : Act → Bool
  | .sent d _ | .sendFailed d => d == fd
  | .queued .client bytes => verdict? bytes == some .failure
  | .invoked _ | .state .sendingReply | .state .closed => true
  | _ => false

theorem protocol_refusing (hq : q = .refusing ∨ q = .closed) (h : protocol fd q a = some r) :
    a.isRefusal fd = true ∧ (r = .refusing ∨ r = .closed) := by
  rcases protocol_cases h with ⟨rfl, hstays⟩ | ⟨st, rfl, henters⟩ | ⟨-, hpending, -⟩
  · refine ⟨?_, hq⟩
    rcases hq with rfl | rfl
    · unfold Session.stays at hstays
      split at hstays <;> simp_all [Act.isRefusal]
    · cases hstays
  · rcases hq with rfl | rfl
    · cases st <;> cases henters
      exact ⟨rfl, .inr rfl⟩
    · cases st <;> cases henters
  · rcases hq with rfl | rfl <;> cases hpending

end Never

section Runs

variable {cfg : Configs} {fd : Int} {ss : SockAddr} {bufs : Side → OutBuff}
  {mallocs epollAdd : Bool} {w₀ : World} {is : List Input} {before after : List Act}

/-- **A connection passes each state once.** STATE_CONNECTING, STATE_BIND_LISTENING, the
relay and every other state that ends what went before is entered at most once in a run. -/
theorem state_entered_once (hw₀ : acceptNewClient fd ss bufs mallocs epollAdd = some w₀)
    (is : List Input) {st : State} (hst : st.turns = true) :
    (Lib.run (step cfg) is w₀).state.trace.count (.state st) ≤ 1 := by
  have hspoken : Spoken fd (Lib.run (step cfg) is w₀).state := run_follows_protocol hw₀ is
  obtain ⟨acts, htrace, hfollows⟩ := hspoken
  have hne : Act.state .waitingMethods ≠ .state st := by
    rintro heq
    cases heq
    cases hst
  rw [htrace, List.count_cons_of_ne hne]
  have hrank : ∀ q a r, protocol fd q a = some r → r.rank ≤ q.rank := fun _ _ _ => protocol_rank
  exact hfollows.count_le_one Session.rank _ hrank fun _ _ => protocol_turns hst

theorem state_entered_once_full :
    (Lib.run (step openConfigs) (literalConnect ++ connectDone)
      (newClient 5 (.inet ![4, 0] ![127, 0, 0, 1]) fun _ => .zero)).state.trace.count
        (.state .full) ≤ 1 ∧
    .state .full ∈ (Lib.run (step openConfigs) (literalConnect ++ connectDone)
      (newClient 5 (.inet ![4, 0] ![127, 0, 0, 1]) fun _ => .zero)).state.trace :=
  have haccept : acceptNewClient 5 (.inet ![4, 0] ![127, 0, 0, 1]) (fun _ => .zero) true true =
      some (newClient 5 (.inet ![4, 0] ![127, 0, 0, 1]) fun _ => .zero) := rfl
  ⟨state_entered_once haccept _ rfl, by decide +kernel⟩

/-- The stages before and after an act of a run, the act being another than its first. -/
theorem Spoken.split {w : World} {a : Act} (h : Spoken fd w)
    (htrace : w.trace = before ++ a :: after) (ha : a ≠ .state .waitingMethods) :
    ∃ acts q r, before = .state .waitingMethods :: acts ∧
      Lib.Follows (protocol fd) .greeting acts q ∧ protocol fd q a = some r ∧
      Lib.Follows (protocol fd) r after w.session := by
  obtain ⟨acts, hacts, hfollows⟩ := h
  rw [htrace] at hacts
  cases before with
  | nil => exact absurd (List.cons_eq_cons.mp hacts).1 ha
  | cons b before =>
    obtain ⟨rfl, rfl⟩ := List.cons_eq_cons.mp hacts
    obtain ⟨q, r, hbefore, hstep, hafter⟩ := hfollows.split
    exact ⟨before, q, r, rfl, hbefore, hstep, hafter⟩

/-- **Before the relay, only the client is talked to.** Nothing is received from another
descriptor, and nothing is sent there, until STATE_FULL was entered. -/
theorem relayed_after_full (hw₀ : acceptNewClient fd ss bufs mallocs epollAdd = some w₀)
    {a : Act} {d : Int} (htrace : (Lib.run (step cfg) is w₀).state.trace = before ++ a :: after)
    (ha : a.talks = some d) (hd : d ≠ fd) : .state .full ∈ before := by
  have hne : a ≠ .state .waitingMethods := by
    rintro rfl
    cases ha
  obtain ⟨acts, q, r, rfl, hbefore, hstep, -⟩ := (run_follows_protocol hw₀ is).split htrace hne
  have hq := protocol_talks ha hd hstep
  refine List.mem_cons_of_mem _ ?_
  exact hbefore.mem_of_left (I := fun q => q ≠ .relay) (fun q a r => protocol_full)
    (by decide) fun hnot => hnot hq

/-- A byte of the client is relayed to the server on descriptor 6. -/
def relayedByte : List Input :=
  literalConnect ++ connectDone ++ clientSends 5 [7] .idle ++
    [.poll [.peer 6 (some .server) epollOut], .handle { Answers.idle with send := some 1 }]

theorem relayed_after_full_byte :
    ∃ before, (Lib.run (step openConfigs) relayedByte
        (newClient 5 (.inet ![4, 0] ![127, 0, 0, 1]) fun _ => .zero)).state.trace =
      before ++ [.sent 6 [7]] ∧ .state .full ∈ before := by
  have haccept : acceptNewClient 5 (.inet ![4, 0] ![127, 0, 0, 1]) (fun _ => .zero) true true =
      some (newClient 5 (.inet ![4, 0] ![127, 0, 0, 1]) fun _ => .zero) := rfl
  have hlast : (Lib.run (step openConfigs) relayedByte
      (newClient 5 (.inet ![4, 0] ![127, 0, 0, 1]) fun _ => .zero)).state.trace.getLast? =
        some (.sent 6 [7]) := by
    decide +kernel
  obtain ⟨before, hbefore⟩ := List.getLast?_eq_some_iff.mp hlast
  exact ⟨before, hbefore, relayed_after_full haccept hbefore rfl (by decide)⟩

/-- **A request that was refused stays refused.** After an error reply nothing is received any
more, no address is tried and no peer accepted: what is left is to send the reply and to close. An
init function may still be invoked, after a lookup that found nothing. -/
theorem refused_for_good (hw₀ : acceptNewClient fd ss bufs mallocs epollAdd = some w₀)
    {bytes : List UInt8}
    (htrace : (Lib.run (step cfg) is w₀).state.trace = before ++ .queued .client bytes :: after)
    (herror : verdict? bytes = some .failure) (hfull : .state .full ∉ before) :
    ∀ a ∈ after, a.isRefusal fd = true := by
  obtain ⟨acts, q, r, rfl, hbefore, hstep, hafter⟩ :=
    (run_follows_protocol hw₀ is).split htrace (by simp)
  have hq : q ≠ .relay := fun hrelay => hfull <| List.mem_cons_of_mem _ <|
    hbefore.mem_of_left (I := fun q => q ≠ .relay) (fun q a r => protocol_full)
      (by decide) fun hnot => hnot hrelay
  have hr : r = .refusing := by
    rcases protocol_cases hstep with ⟨rfl, hstays⟩ | ⟨st, heq, -⟩ | ⟨hr, -⟩
    · cases q with
      | greeting =>
        have hlen : bytes.length = 2 := by simpa [Session.stays] using hstays
        rw [verdict?_eq_none (by omega)] at herror
        cases herror
      | relay => exact absurd rfl hq
      | refusing => rfl
      | _ => simp [Session.stays, herror] at hstays
    · cases heq
    · exact hr
  exact hafter.forall_mem (I := fun q => q = .refusing ∨ q = .closed)
    (fun q a r hq hstep => protocol_refusing hq hstep) (.inl hr)

/-- A request of an unknown address type. -/
def oddRequest : List Input :=
  greeting 5 ++ clientSends 5 [5, cmdConn, 0, 9, 10, 0, 0, 1, 0, 80] .idle

theorem refused_for_good_odd :
    ∃ before, (Lib.run (step openConfigs) (oddRequest ++ clientTakes 5 .idle)
        (newClient 5 (.inet ![4, 0] ![127, 0, 0, 1]) fun _ => .zero)).state.trace =
      before ++ .queued .client (errReply repBadatyp) ::
        [.state .sendingReply, .sent 5 (errReply repBadatyp), .state .closed] ∧
      ∀ a ∈ [.state .sendingReply, .sent 5 (errReply repBadatyp), .state .closed],
        Act.isRefusal 5 a = true := by
  have haccept : acceptNewClient 5 (.inet ![4, 0] ![127, 0, 0, 1]) (fun _ => .zero) true true =
      some (newClient 5 (.inet ![4, 0] ![127, 0, 0, 1]) fun _ => .zero) := rfl
  have hrun : .queued .client (errReply repBadatyp) ::
        [.state .sendingReply, .sent 5 (errReply repBadatyp), .state .closed] <:+
      (Lib.run (step openConfigs) (oddRequest ++ clientTakes 5 .idle)
        (newClient 5 (.inet ![4, 0] ![127, 0, 0, 1]) fun _ => .zero)).state.trace ∧
      .state .full ∉ (Lib.run (step openConfigs) (oddRequest ++ clientTakes 5 .idle)
        (newClient 5 (.inet ![4, 0] ![127, 0, 0, 1]) fun _ => .zero)).state.trace := by
    decide +kernel
  obtain ⟨⟨before, hbefore⟩, hfull⟩ := hrun
  rw [← hbefore, List.mem_append, not_or] at hfull
  exact ⟨before, hbefore.symm, refused_for_good haccept hbefore.symm (by simp) hfull.1⟩

/-- **What ends a dialogue ends it.** Behind STATE_CLOSED and STATE_FULL_UDPA nothing is received,
sent, queued, looked up, connected or accepted and no state is entered; STATE_HALF_CLOSE is only
left for STATE_CLOSED. What `closed` still has to do is to close and to free. -/
theorem silent_at_end (hw₀ : acceptNewClient fd ss bufs mallocs epollAdd = some w₀) {st : State}
    (htrace : (Lib.run (step cfg) is w₀).state.trace = before ++ .state st :: after) :
    (st = .closed ∨ st = .fullUdpa → after = []) ∧
      (st = .halfClose → after = [] ∨ after = [.state .closed]) := by
  have hlast : ∀ {q r : Session} {acts : List Act}, q = .closed ∨ q = .associated →
      Lib.Follows (protocol fd) q acts r → acts = [] := by
    intro q r acts hq h
    cases acts with
    | nil => rfl
    | cons a acts =>
      obtain ⟨p, hstep, -⟩ := Lib.follows_cons.mp h
      exact absurd hstep (protocol_ended hq)
  by_cases hfirst : st = .waitingMethods
  · simp [hfirst]
  obtain ⟨acts, q, r, rfl, -, hstep, hafter⟩ :=
    (run_follows_protocol hw₀ is).split htrace (by simpa using hfirst)
  refine ⟨fun hst => hlast ?_ hafter, fun hst => ?_⟩
  · rcases hst with rfl | rfl
    · exact .inl (protocol_enters rfl hstep)
    · exact .inr (protocol_enters rfl hstep)
  · subst hst
    have hr : r = .halfClosed := protocol_enters rfl hstep
    subst hr
    cases after with
    | nil => exact .inl rfl
    | cons a after =>
      obtain ⟨p, hleft, hrest⟩ := Lib.follows_cons.mp hafter
      obtain ⟨rfl, rfl⟩ := protocol_halfClosed hleft
      exact .inr (by rw [hlast (.inl rfl) hrest])

theorem silent_at_end_odd :
    ∃ before, (Lib.run (step openConfigs) (oddRequest ++ clientTakes 5 .idle)
        (newClient 5 (.inet ![4, 0] ![127, 0, 0, 1]) fun _ => .zero)).state.trace =
      before ++ [.state .closed] ∧
      ∀ is after, (Lib.run (step openConfigs) is
        (newClient 5 (.inet ![4, 0] ![127, 0, 0, 1]) fun _ => .zero)).state.trace =
          before ++ .state .closed :: after → after = [] := by
  have haccept : acceptNewClient 5 (.inet ![4, 0] ![127, 0, 0, 1]) (fun _ => .zero) true true =
      some (newClient 5 (.inet ![4, 0] ![127, 0, 0, 1]) fun _ => .zero) := rfl
  have hlast : (Lib.run (step openConfigs) (oddRequest ++ clientTakes 5 .idle)
      (newClient 5 (.inet ![4, 0] ![127, 0, 0, 1]) fun _ => .zero)).state.trace.getLast? =
        some (.state .closed) := by
    decide +kernel
  obtain ⟨before, hbefore⟩ := List.getLast?_eq_some_iff.mp hlast
  exact ⟨before, hbefore, fun is after hafter => (silent_at_end haccept hafter).1 (.inl rfl)⟩

end Runs

end Socksprox
