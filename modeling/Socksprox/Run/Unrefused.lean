import Socksprox.Atomic
import Socksprox.Networks
import Socksprox.Run.Bounded
import Socksprox.Run.Headroom
import Socksprox.Run.OneReply
import Socksprox.Run.Pipelined
import Socksprox.Run.Stranded

/-!
A client that is not turned away. Its stream is a method request with a method that is chosen and a
request to connect to an address that is not blocked; however the stream is cut and the replies are
sent, it is neither refused nor hung up on while the calls of the handlers succeed. That it gets to
the relay is more than that: a request may come before the method reply is sent, and be stranded.
-/

namespace Socksprox

/-! ### What is expected of the client and of the kernel -/

/-- The stream of a client that the configuration admits: methods of which "no authentication" is
chosen, and a request to connect to an address that no rule blocks. -/
def Admissible (cfg : Configs) (stream : List UInt8) : Prop :=
  ∃ methods payload r sa, MethodRequest methods (SocksRequest.octets r ++ payload) stream ∧
    selectMethod cfg methods = methNoauth ∧ r.cmd = cmdConn ∧ cfg.allowConnect = true ∧
    r.addr = some sa ∧ ¬ Blocked cfg sa

/-- The calls that the handler of the state makes succeed: what is reported can be received, and
the connection is established. -/
def World.Succeeds (v : World) (e : Side) (ev : Events) : Prop :=
  (v.shared.state = .waitingMethods ∨ v.shared.state = .waitingCommand →
    e = .client → ev.epollin = true → v.unread (v.shared.fd .client) ≠ [] ∧ v.ans.recv ≠ none) ∧
  (v.shared.state.sending = true → v.ans.send ≠ none) ∧
  (v.shared.state = .waitingCommand →
    v.ans.mallocData = true ∧ v.ans.epollAdd = true ∧ v.socketFd ≠ none ∧ v.Begins) ∧
  (v.shared.state = .connecting → v.ans.soError = some 0 ∧ v.ans.getsockname ≠ none)

instance (w : World) : Decidable w.Begins := inferInstanceAs (Decidable (_ ∨ _ ∨ _))

instance (v : World) (e : Side) (ev : Events) : Decidable (v.Succeeds e ev) :=
  inferInstanceAs (Decidable (_ ∧ _ ∧ _ ∧ _))

/-- The end that an event is for, and what is reported of it. -/
def Event.reported : Event → Option (Side × Events)
  | .peer _ (some e) ev => some (e, ev)
  | _ => none

/-- The client sends no more than `stream`, and the handlers' calls succeed. -/
def Cooperates (stream : List UInt8) (w : World) (i : Input) : Prop :=
  IpOnly w i ∧ Supplied w i ∧ match i with
    | .arrive fd bytes => (w.arrived fd bytes).clientStream <+: stream
    | .handle ans => (∀ b ∈ ans.epollMod, b = true) ∧
      ∀ r ∈ w.pending.head?.bind Event.reported, (w.taken w.pending.tail ans).Succeeds r.1 r.2
    | _ => True

instance (stream : List UInt8) (w : World) : DecidablePred (Cooperates stream w)
  | .arrive fd bytes => inferInstanceAs (Decidable (IpOnly w (.arrive fd bytes) ∧
      Supplied w (.arrive fd bytes) ∧ (w.arrived fd bytes).clientStream <+: stream))
  | .handle ans => inferInstanceAs (Decidable (IpOnly w (.handle ans) ∧ Supplied w (.handle ans) ∧
      (∀ b ∈ ans.epollMod, b = true) ∧
        ∀ r ∈ w.pending.head?.bind Event.reported, (w.taken w.pending.tail ans).Succeeds r.1 r.2))
  | .finish _ => .isTrue ⟨trivial, trivial, trivial⟩
  | .resolved gaiRet res => inferInstanceAs (Decidable (IpOnly w (.resolved gaiRet res) ∧
      Supplied w (.resolved gaiRet res) ∧ True))
  | .poll _ => .isTrue ⟨trivial, trivial, trivial⟩

/-- The handshake goes on, and nothing was refused. -/
def World.Promising (w : World) : Prop :=
  match w.shared.state with
  | .waitingMethods | .waitingCommand | .connecting => True
  | .sendingMethod => w.info.method = methNoauth
  | .sendingReply => w.info.rep = repSuccess ∧ w.info.cmd = cmdConn
  | _ => False

/-! ### The client's stream -/

section Stream

variable {w w' : World}

/-- What the client sent is received in order, or lost with its descriptor. -/
theorem Effect.stream_prefix {fd : Int} (h : Effect True w w') :
    bytesFrom fd w'.trace ++ w'.unread fd <+: bytesFrom fd w.trace ++ w.unread fd := by
  have hkept : ∀ {v : World}, bytesFrom fd v.trace = bytesFrom fd w.trace →
      v.unread fd = w.unread fd →
      bytesFrom fd v.trace ++ v.unread fd <+: bytesFrom fd w.trace ++ w.unread fd := by
    intro v htrace hunread
    rw [htrace, hunread]
  have hshut : ∀ {v : World} {fd' : Int}, v.trace = w.trace →
      v.fds = Function.update w.fds fd' none →
      bytesFrom fd v.trace ++ v.unread fd <+: bytesFrom fd w.trace ++ w.unread fd := by
    intro v fd' htrace hfds
    rw [htrace, World.unread, hfds]
    by_cases heq : fd = fd'
    · simp [heq]
    · simp [heq, World.unread]
  cases h with
  | note a ha =>
    refine hkept ?_ rfl
    cases a <;> simp [Act.isNote] at ha <;> simp [Act.bytesFrom]
  | state st hst => exact hkept (by simp [Act.bytesFrom]) rfl
  | info info hsa hai => exact hkept rfl rfl
  | address req hw => exact hkept rfl rfl
  | asked hidle => exact hkept rfl rfl
  | popMod => exact hkept rfl rfl
  | noted ss => exact hkept rfl rfl
  | flagged s flag => exact hkept rfl rfl
  | queue s bytes => exact hkept (by simp) (by simp [World.unread])
  | drop n => exact hkept rfl rfl
  | @received fd' n r _ hrecv =>
    cases hrecv with
    | failed hnone => exact hkept rfl rfl
    | zero hn => exact hkept rfl rfl
    | ended hsk hempty hfin => exact hkept (by simp [Act.bytesFrom]) rfl
    | @data sk bytes rest hsk hinbox hne hle hcount =>
      by_cases heq : fd = fd'
      · subst heq
        simp [World.unread, hsk, hinbox, Act.bytesFrom]
      · have hother : fd' ≠ fd := fun h => heq h.symm
        exact hkept (by simp [Act.bytesFrom, hother]) (by simp [World.unread, heq])
  | sent s k hw hd => exact hkept (by simp [World.sentTo, Act.bytesFrom]) rfl
  | sendFailed fd' => exact hkept (by simp [Act.bytesFrom]) rfl
  | watched fd' i hreg => exact hkept rfl World.unread_setInterest
  | added fd' i hnonblock => exact hkept rfl World.unread_setInterest
  | opened fd' nonblock hnew =>
    refine hkept rfl ?_
    by_cases heq : fd = fd'
    · simp only [World.unread, heq, hnew, World.opened_fds, Function.update_self,
        Option.elim_some, Option.elim_none]
      rfl
    · simp [World.unread, heq]
  | shutFd fd' => exact hshut rfl rfl
  | linked sfd => exact hkept rfl rfl
  | rehomed newFd => exact hshut rfl rfl
  | released e => exact hshut rfl rfl

/-- What was done stays done. -/
theorem Effect.trace_prefix (h : Effect True w w') : w.trace <+: w'.trace := by
  cases h with
  | note a ha => exact List.prefix_append _ _
  | state st hst => exact List.prefix_append _ _
  | queue s bytes =>
    unfold World.queue
    split
    · exact List.prefix_append _ _
    · exact List.prefix_refl _
  | received hrecv =>
    cases hrecv with
    | failed hnone => exact List.prefix_refl _
    | zero hn => exact List.prefix_refl _
    | ended hsk hempty hfin => exact List.prefix_append _ _
    | data hsk hinbox hne hle hcount => exact List.prefix_append _ _
  | sent s k hw hd => exact List.prefix_append _ _
  | sendFailed fd => exact List.prefix_append _ _
  | _ => exact List.prefix_refl _

/-- A receive with room gets something of what waits. -/
theorem World.readable_ne_nil {fd : Int} {n : Nat} (hunread : w.unread fd ≠ [])
    (hrecv : w.ans.recv ≠ none) (hn : 1 ≤ n) : w.readable fd n ≠ [] := by
  obtain ⟨k, hk⟩ := Option.ne_none_iff_exists'.mp hrecv
  cases hsk : w.fds fd with
  | none => simp [World.unread, hsk] at hunread
  | some sk =>
    have hinbox : sk.inbox ≠ [] := by simpa [World.unread, hsk] using hunread
    simp only [World.readable, hsk, hk, ne_eq, List.take_eq_nil_iff, hinbox, or_false]
    omega

/-- A receive does not change which descriptors are open. -/
theorem Recv.socketFd_queue {fd : Int} {n : Nat} {bytes : List UInt8} {w₁ : World}
    (h : Recv w fd n (some bytes) w₁) : (w₁.queue .server bytes).socketFd = w.socketFd := by
  have hnew : (w₁.queue .server bytes).newFd = w.newFd := by
    funext fd'
    rw [World.newFd, World.newFd, World.queue_fds, h.isNone]
  rw [World.socketFd, World.socketFd, World.queue_ans, h.ans, hnew]

theorem World.modAnswer_of_all (h : ∀ b ∈ w.ans.epollMod, b = true) : w.modAnswer = true :=
  (World.modAnswer_of_take (n := 0) fun b hb => h b (List.mem_of_mem_take hb)).1

end Stream

/-! ### Handlers -/

section Handlers

variable {cfg : Configs} {w w' : World} {e : Side} {ev : Events} {f : Option Fault}
  {fd : Int} {stream : List UInt8}

theorem WaitingMethods.promising (hadm : Admissible cfg stream)
    (hs : w.shared.state = .waitingMethods) (hself : w.shared.fd .client = fd)
    (hg : Gated cfg fd w) (hstream : bytesFrom fd w.trace ++ w.unread fd <+: stream)
    (hread : w.readable fd (w.shared.out .server).free ≠ []) (hmod : w.modAnswer = true)
    (hwant : ev.epollin = true ∧ e = .client) (h : WaitingMethods cfg w e ev w') :
    w'.Promising := by
  subst hself
  obtain ⟨methods, payload, r, sa, ⟨nmethods, hlen, rfl⟩, hselect, -⟩ := hadm
  -- What the buffer holds after a receive is a beginning of the stream.
  have hbegun : ∀ {bytes w₁},
      Recv w (w.shared.fd .client) (w.shared.out .server).free (some bytes) w₁ →
      (w.shared.out .server).contents ++ bytes <+:
        socks5Version :: nmethods :: (methods ++ (r.octets ++ payload)) := by
    intro bytes w₁ hrecv
    rw [(hg.methods hs).1, hrecv.unread, ← List.append_assoc] at hstream
    exact (List.prefix_append _ _).trans hstream
  cases h with
  | idle hidle => simp [hwant] at hidle
  | ended hrecv hr =>
    have hsome := hrecv.of_readable hread
    rcases hr with rfl | rfl
    · cases hsome
    · exact absurd (Option.some.inj hsome).symm hread
  | part hrecv hgot hpart => simp [World.Promising, hrecv.shared, hs]
  | badVersion hrecv hgot hcomplete hversion =>
    subst hgot
    have hall := (methodsComplete_iff hlen (hbegun hrecv)).mp hcomplete
    exact absurd (offered_of_complete hlen (hbegun hrecv) hall).2.2 hversion
  | unwatched hrecv hgot hcomplete hversion hno =>
    rw [hmod] at hno
    cases hno
  | @chosen bytes got w₁ hrecv hgot hcomplete hversion hmods =>
    subst hgot
    have hall := (methodsComplete_iff hlen (hbegun hrecv)).mp hcomplete
    have hoffered := (offered_of_complete hlen (hbegun hrecv) hall).1
    show selectMethod cfg (offered ((w.shared.out .server).contents ++ bytes)) = methNoauth
    rw [hoffered, hselect]

theorem SendStopped.sends {n : Nat} (hsend : w.ans.send ≠ none) (hmod : w.modAnswer = true)
    (h : SendStopped w n w') : ∃ k, w' = w.sentPart n k := by
  cases h with
  | failed hnone => exact absurd hnone hsend
  | part hk => exact ⟨_, rfl⟩
  | unwatched hno =>
    rw [hmod] at hno
    cases hno

theorem SendingMethod.promising (hs : w.shared.state = .sendingMethod)
    (hmethod : w.info.method = methNoauth) (hsend : w.ans.send ≠ none)
    (hmod : w.modAnswer = true) (h : SendingMethod w e ev w') : w'.Promising := by
  cases h with
  | idle hidle => simp [World.Promising, hs, hmethod]
  | stopped h =>
    obtain ⟨k, rfl⟩ := h.sends hsend hmod
    simp [World.Promising, hs, hmethod]
  | refused hmod hno => exact absurd hmethod hno
  | accepted hmod hmethod hsent => exact trivial

theorem SendingReply.promising (hs : w.shared.state = .sendingReply)
    (hrep : w.info.rep = repSuccess) (hcmd : w.info.cmd = cmdConn) (hsend : w.ans.send ≠ none)
    (hmod : w.modAnswer = true) (h : SendingReply w e ev w') :
    w'.Promising ∨ .state .full ∈ w'.trace := by
  cases h with
  | idle hidle => exact .inl (by simp [World.Promising, hs, hrep, hcmd])
  | stopped h =>
    obtain ⟨k, rfl⟩ := h.sends hsend hmod
    exact .inl (by simp [World.Promising, hs, hrep, hcmd])
  | refused hmod hno => exact absurd hrep hno
  | connected hmod hrep hcmd => exact .inr (by simp)
  | listening hmod hrep hbind hstate =>
    rw [hcmd] at hbind
    cases hbind
  | associated hmod hrep hudpa =>
    rw [hcmd] at hudpa
    cases hudpa
  | odd hmod hrep hodd hbind => exact absurd hcmd hodd.1

/-- A socket is opened for a literal address, and `connect` on it has begun. -/
theorem InitConnect.begins {sa : SockAddr} (hsa : w.info.sa = some sa) (hip : IpFamily sa.family)
    (hsock : w.socketFd ≠ none) (hbegins : w.Begins) (hmalloc : w.ans.mallocData = true)
    (hadd : w.ans.epollAdd = true) (h : InitConnect w w') :
    w'.shared.state = .connecting ∧ w'.info.rep = w.info.rep := by
  have hdial : ∀ {r w₁}, FirstAttempt (w.emit (.invoked .connect)) r w₁ →
      ∃ w₂, OpenConnect (w.emit (.invoked .connect)) sa r w₂ ∧ w₁.fds = w₂.fds ∧
        w₁.info.rep = w₂.info.rep := by
    intro r w₁ h
    cases h with
    | @unsupported f data ne hother =>
      have heq : some sa = some _ := hsa.symm.trans hother
      cases heq
      exact (hip.elim ne.1 ne.2).elim
    | literal hsome h =>
      have heq : some sa = some _ := hsa.symm.trans hsome
      cases heq
      exact ⟨_, h, rfl, rfl⟩
    | resolvedFailed hnone hai h => cases hsa.symm.trans hnone
    | resolved hnone hai h => cases hsa.symm.trans hnone
  cases h with
  | noAddr hai hnone =>
    rw [hsa] at hnone
    cases hnone
  | notOpened h =>
    obtain ⟨w₂, ho, -⟩ := hdial h
    cases ho with
    | noSocket hno => exact absurd hno hsock
    | refused hans hpos hnew herr =>
      rcases hbegins with hok | hok | hok
      · exact absurd hok herr.1
      · exact absurd hok herr.2.1
      · exact absurd hok herr.2.2
  | noMemory h hno =>
    rw [hmalloc] at hno
    cases hno
  | @unwatched sfd w₁ h hmalloc hno =>
    obtain ⟨w₂, ho, hfds, -⟩ := hdial h
    cases ho with
    | started hans hpos hnew hok =>
      have hfalse := hno { Sock.opened with nonblock := true } (by simp [hfds]) rfl
      rw [hadd] at hfalse
      cases hfalse
  | connecting h hmalloc hadd hopen =>
    obtain ⟨w₂, ho, -, hrep⟩ := hdial h
    have hsame : w₂.info.rep = w.info.rep := ho.begun.2.2.2.2
    exact ⟨rfl, hrep.trans hsame⟩

theorem CommandDone.promising {o : Obj} {sa : SockAddr} (hcmd : w.info.cmd = cmdConn)
    (hallow : cfg.allowConnect = true) (hsa : w.info.sa = some sa) (hip : IpFamily sa.family)
    (hrep : w.info.rep = repUnset) (hsock : w.socketFd ≠ none) (hbegins : w.Begins)
    (hmalloc : w.ans.mallocData = true) (hadd : w.ans.epollAdd = true)
    (h : CommandDone cfg w o f w') : w'.Promising := by
  have hallows : cfg.allows w.info.cmd = true := by simp [Configs.allows, hcmd, hallow]
  have hinit : ∀ {w₁}, Init cfg w w₁ → w₁.shared.state = .connecting ∧ w₁.info.rep = repUnset := by
    intro w₁ h
    cases h with
    | connect hconn hallow h =>
      obtain ⟨hstate, hkept⟩ := h.begins hsa hip hsock hbegins hmalloc hadd
      exact ⟨hstate, hkept.trans hrep⟩
    | bind hbind hallow h =>
      rw [hcmd] at hbind
      cases hbind
    | udpa hudpa hallow h =>
      rw [hcmd] at hudpa
      cases hudpa
  cases h with
  | refusedLost hno h =>
    rw [hallows] at hno
    cases hno
  | refused hno hroom hmod h =>
    rw [hallows] at hno
    cases hno
  | started h hstarted =>
    rw [World.Promising, (hinit h).1]
    trivial
  | failed h hfailed hreply => exact absurd (hinit h).2 hfailed.1

/-- The firewall lets a request pass that names an address that no rule blocks. -/
theorem reqAddr_passes {req more : List UInt8} {r : SocksRequest} {sa : SockAddr}
    (hreq : req <+: r.octets ++ more) (hlen : r.octets.length ≤ req.length)
    (hsa : r.addr = some sa) (hfree : ¬ Blocked cfg sa) {info : Info}
    (hinfo : info.sa = some (reqAddr req)) : firewall info cfg = false := by
  have haddressed : info.Addressed := by
    rw [Info.Addressed, hinfo]
    exact reqAddr_ipFamily req
  rw [reqAddr_begun hreq hlen hsa] at hinfo
  refine Bool.eq_false_iff.mpr fun hblocked => ?_
  obtain ⟨-, a, ha, hcovered⟩ := (firewall_iff haddressed).mp hblocked
  rw [Info.requested, hinfo, List.mem_singleton] at ha
  exact hfree (ha ▸ hcovered)

theorem CommandRequest.promising {req more : List UInt8} {r : SocksRequest} {sa : SockAddr}
    (hs : w.shared.state = .waitingCommand) (hreq : req <+: r.octets ++ more)
    (hcmd : r.cmd = cmdConn) (hsa : r.addr = some sa) (hfree : ¬ Blocked cfg sa)
    (hallow : cfg.allowConnect = true) (hrep : w.info.rep = repUnset) (hsock : w.socketFd ≠ none)
    (hbegins : w.Begins) (hsupplied : w.ans.mallocSa = true) (hmalloc : w.ans.mallocData = true)
    (hadd : w.ans.epollAdd = true) (h : CommandRequest cfg w req f w') : w'.Promising := by
  have hkept : w.Promising := by simp [World.Promising, hs]
  have hsome : r.addr ≠ none := by simp [hsa]
  have hliteral : r.dest.atyp ≠ atypDomn := r.atyp_ne_domn hsome
  have htotals : ∀ {total : Option Nat}, 5 ≤ req.length → totalLen cfg req = total →
      total = some r.octets.length := by
    intro total hlen htotal
    have hfits : r.Fits := fun name hname => by
      rw [hname] at hliteral
      exact absurd rfl hliteral
    have hawaited : r.awaited = r.octets.length := by
      cases hdest : r.dest with
      | domain name => exact absurd (by rw [hdest]; rfl) hliteral
      | _ => simp [SocksRequest.awaited, hdest]
    rw [← htotal, totalLen_begun hreq hlen hfits fun hdomain => absurd hdomain hliteral, hawaited]
  cases h with
  | short hlen => exact hkept
  | badAtyp hlen htotal h => cases htotals hlen htotal
  | part hlen htotal hpart => exact hkept
  | badVersion hlen htotal hcomplete hversion =>
    exact absurd (reqAt_begun hreq (by omega)) hversion
  | run hlen htotal hcomplete hversion h =>
    obtain rfl := Option.some.inj (htotals hlen htotal)
    have hat : reqAt req 3 = r.dest.atyp := reqAt_begun hreq (by omega)
    cases h with
    | domain hatyp => exact absurd (hat.symm.trans hatyp) hliteral
    | noMemory hatyp hno =>
      have hnone : w.ans.mallocSa = false := hno
      rw [hsupplied] at hnone
      cases hnone
    | dropped hatyp hfirewall h =>
      rw [reqAddr_passes hreq hcomplete hsa hfree rfl] at hfirewall
      cases hfirewall
    | passed hatyp hfirewall h =>
      have hconn : reqAt req 1 = cmdConn := (reqAt_begun hreq (by omega)).trans hcmd
      refine h.promising ?_ hallow ?_ (reqAddr_ipFamily req) ?_ ?_ ?_ ?_ ?_
      · exact hconn
      · rfl
      · exact hrep
      · exact hsock
      · exact hbegins
      · exact hmalloc
      · exact hadd

theorem WaitingCommand.promising (hadm : Admissible cfg stream)
    (hs : w.shared.state = .waitingCommand) (hself : w.shared.fd .client = fd)
    (hg : Gated cfg fd w) (hstream : bytesFrom fd w.trace ++ w.unread fd <+: stream)
    (hread : w.readable fd (w.shared.out .server).free ≠ []) (hrep : w.info.rep = repUnset)
    (hret : w.info.resolverRet = -1) (hsock : w.socketFd ≠ none) (hbegins : w.Begins)
    (hsupplied : w.ans.mallocSa = true) (hmalloc : w.ans.mallocData = true)
    (hadd : w.ans.epollAdd = true) (h : WaitingCommand cfg w e ev f w') : w'.Promising := by
  subst hself
  obtain ⟨methods, payload, r, sa, hmethods, -, hcmd, hallow, hsa, hfree⟩ := hadm
  cases h with
  | idle hidle => simp [World.Promising, hs]
  | resolver hne h => exact absurd hret hne
  | ended hret hrecv hr =>
    have hsome := hrecv.of_readable hread
    rcases hr with rfl | rfl
    · cases hsome
    · exact absurd (Option.some.inj hsome).symm hread
  | @data bytes got w₁ _ _ hret hrecv hgot h hne =>
    subst hgot
    -- What the buffer holds after the receive is a beginning of the request.
    have hbegun : (w.shared.out .server).contents ++ bytes <+: r.octets ++ payload := by
      obtain ⟨methods', hrequest, -, -⟩ := hg.command (.inl hs)
      rw [hrecv.unread] at hstream
      obtain ⟨more, rfl⟩ := hstream
      rw [List.append_assoc] at hmethods
      have hall := (hrequest.append _).unique hmethods
      refine ⟨w₁.unread (w.shared.fd .client) ++ more, ?_⟩
      simpa using hall
    have hans : (w₁.queue .server bytes).ans = w.ans := by rw [World.queue_ans, hrecv.ans]
    refine h.promising ?_ ((List.take_prefix _ _).trans hbegun) hcmd hsa hfree hallow
      ?_ ?_ ?_ ?_ ?_ ?_
    · simpa [hrecv.shared] using hs
    · simpa [hrecv.info] using hrep
    · rw [hrecv.socketFd_queue]
      exact hsock
    · rw [World.Begins, hans]
      exact hbegins
    · rw [hans]
      exact hsupplied
    · rw [hans]
      exact hmalloc
    · rw [hans]
      exact hadd

/-- The connection is established, and the reply to it begun. -/
theorem Connecting.promising (hs : w.shared.state = .connecting) (hself : w.selfFd .server =
      w.shared.fd .server) (hreg : w.Registered (w.shared.fd .server))
    (hcmd : w.info.cmd = cmdConn) (hso : w.ans.soError = some 0)
    (hsome : w.ans.getsockname ≠ none) (hip : ∀ ss ∈ w.ans.getsockname, IpFamily ss.family)
    (hmods : ∀ b ∈ w.ans.epollMod, b = true) (h : Connecting w e ev w') : w'.Promising := by
  cases h with
  | idle hidle => simp [World.Promising, hs]
  | unknown hnone h =>
    rw [hso] at hnone
    cases hnone
  | failed herror hne h =>
    rw [hso] at herror
    exact absurd (Option.some.inj herror).symm hne
  | unnamed hso hnone h => exact absurd hnone hsome
  | oddFamily hso hname haddr h =>
    obtain ⟨a, ha⟩ := SockAddr.replyAddr_isSome.mpr (hip _ hname)
    rw [haddr] at ha
    cases ha
  | @unanswered ss a w₁ _ hso hname haddr hreply h =>
    cases hreply with
    | unwatched hno =>
      have hanswer : (w.connectedTo ss).modAnswer = w.modAnswer := by
        simp [World.connectedTo, World.queueHead, World.modAnswer]
      rw [hanswer, World.modAnswer_of_all hmods] at hno
      cases hno
  | unwatched hso hname haddr hreply hmod h =>
    cases hreply.watched hself hreg (fun b hb => hmods b (List.mem_of_mem_tail
      (List.mem_of_mem_take hb))) hmod
  | @connected ss a w₁ _ hso hname haddr hreply hmod =>
    obtain ⟨-, hinfo, -, -, hstate⟩ := hreply.server
    have hconnected : w'.shared.state = .sendingReply :=
      (congrArg Shared.state hmod.shared).trans hstate
    have hsame : w'.info = (w.connectedTo ss).info := hmod.info.trans hinfo
    rw [World.Promising, hconnected]
    constructor
    · simp [hsame, World.connectedTo, World.queueHead]
    · simpa [hsame, World.connectedTo, World.queueHead] using hcmd

end Handlers

/-! ### The invariant -/

/-- The connection of a client that was not turned away so far. -/
structure Unrefused (cfg : Configs) (fd : Int) (stream : List UInt8) (w : World) : Prop where
  isOpen : Open w
  promising : w.Promising
  stream : bytesFrom fd w.trace ++ w.unread fd <+: stream
  gated : Gated cfg fd w
  roomy : w.Roomy
  alert : Alert w
  addrs : w.IpAddrs

section Runs

variable {cfg : Configs} {w w' : World} {e : Side} {ev : Events} {f : Option Fault}
  {fd : Int} {stream : List UInt8}

theorem Unrefused.taken (h : Unrefused cfg fd stream w) (rest : List Event) (ans : Answers) :
    Unrefused cfg fd stream (w.taken rest ans) where
  isOpen := h.isOpen.taken rest ans
  promising := h.promising
  stream := h.stream
  gated := h.gated.congr rfl rfl rfl rfl rfl
  roomy := h.roomy.congr rfl rfl
  alert := h.alert.congr rfl rfl rfl fun _ => rfl
  addrs := h.addrs

theorem Unrefused.handled (h : Unrefused cfg fd stream w) (hs : Sane w)
    (hself : w.selfFd .client = fd) (hadm : Admissible cfg stream) (hsucc : w.Succeeds e ev)
    (hmods : ∀ b ∈ w.ans.epollMod, b = true) (hsupplied : w.ans.mallocSa = true)
    (hip : ∀ ss ∈ w.ans.getsockname, IpFamily ss.family) (hwant : w' = w ∨ w.Wants e ev)
    (hh : Handled cfg w e ev f w') : w'.Promising ∨ .state .full ∈ w'.trace := by
  have hw := h.isOpen
  have hp := hs.phase hw
  have hgoes := h.promising
  have hmod := World.modAnswer_of_all hmods
  have hclient : w.shared.fd .client = fd := hw.self_client.symm.trans hself
  obtain ⟨hreads, hsends, hdials, hconnects⟩ := hsucc
  have hreadable : w.Receives → e = .client → ev.epollin = true →
      w.readable fd (w.shared.out .server).free ≠ [] := by
    intro hreceives he hin
    obtain ⟨hunread, hrecv⟩ := hreads (hreceives.imp id And.left) he hin
    rw [hclient] at hunread
    exact World.readable_ne_nil hunread hrecv (h.roomy.hasRoom hw hreceives).free
  rcases hwant with rfl | hwant
  · exact .inl hgoes
  cases hh with
  | still hstate =>
    rcases hstate with hst | hst | hst | hst <;> simp [World.Promising, hst] at hgoes
  | waitingMethods hstate hc =>
    simp only [World.Wants, hstate] at hwant
    exact .inl (hc.promising hadm hstate hclient h.gated h.stream
      (hreadable (.inl hstate) hwant.2 hwant.1) hmod hwant)
  | sendingMethod hstate hc =>
    have hmethod : w.info.method = methNoauth := by simpa [World.Promising, hstate] using hgoes
    exact .inl (hc.promising hstate hmethod (hsends (by rw [hstate]; rfl)) hmod)
  | waitingCommand hstate hc =>
    simp only [World.Wants, hstate] at hwant
    obtain ⟨hrep, -, hret, -⟩ := hp.early (by simp [hstate])
    obtain ⟨hmalloc, hadd, hsock, hbegins⟩ := hdials hstate
    exact .inl (hc.promising hadm hstate hclient h.gated h.stream
      (hreadable (.inr ⟨hstate, hret⟩) hwant.2 hwant.1) hrep hret hsock hbegins hsupplied hmalloc
      hadd)
  | sendingReply hstate hc =>
    rcases hstate with hstate | hstate
    · obtain ⟨hrep, hcmd⟩ : w.info.rep = repSuccess ∧ w.info.cmd = cmdConn := by
        simpa [World.Promising, hstate] using hgoes
      exact hc.promising hstate hrep hcmd (hsends (by rw [hstate]; rfl)) hmod
    · simp [World.Promising, hstate] at hgoes
  | connecting hstate hc =>
    obtain ⟨hso, hname⟩ := hconnects hstate
    have hlive := hp.server (.inl (.inl hstate))
    have hself' := hw.self .server hlive
    have hreg : w.Registered (w.shared.fd .server) := by
      have hwatched := h.alert.connecting hstate
      rw [World.interest, hself', Option.bind_eq_some_iff] at hwatched
      obtain ⟨sk, hsk, hi⟩ := hwatched
      exact ⟨sk, _, hsk, hi⟩
    exact .inl (hc.promising hstate hself' hreg (hp.connecting hstate).1 hso hname hip hmods)
  | bindListening hstate hc => simp [World.Promising, hstate] at hgoes
  | full hstate hc => simp [World.Promising, hstate] at hgoes
  | halfClose hstate => simp [World.Promising, hstate] at hgoes
  | closed hstate => simp [World.Promising, hstate] at hgoes

/-- **The client is not turned away.** -/
theorem Unrefused.stepped {i : Input} (h : Unrefused cfg fd stream w) (hs : Sane w)
    (hself : w.selfFd .client = fd) (hadm : Admissible cfg stream) (hc : Cooperates stream w i)
    (hstep : Stepped cfg w i f w') : Unrefused cfg fd stream w' ∨ .state .full ∈ w'.trace := by
  obtain ⟨hip, hsupplied, hc⟩ := hc
  have hself' : w.shared.fd .client = fd := h.isOpen.self_client.symm.trans hself
  have hgoing : w'.Promising → bytesFrom fd w'.trace ++ w'.unread fd <+: stream →
      Unrefused cfg fd stream w' := by
    intro hgoes hstream
    have hopen : Open w' := by
      refine (hstep.conn hs).elim And.left fun hclosed => ?_
      simp [World.Promising, hclosed] at hgoes
    exact
      { isOpen := hopen
        promising := hgoes
        stream := hstream
        gated := h.gated.stepped hs hself hstep
        roomy := h.roomy.stepped hs hsupplied hstep
        alert := hstep.alert hs (fun _ => h.alert) h.addrs hip hopen
        addrs := h.addrs.stepped hs hip hstep }
  have hgoes := h.promising
  cases i with
  | arrive fd' bytes =>
    have hcore := w.core_arrived fd' bytes
    cases hstep
    simp only [World.core, Prod.mk.injEq] at hcore
    obtain ⟨htrace, hstate, -, hfd, hinfo⟩ := hcore
    refine .inl (hgoing ?_ ?_)
    · simpa [World.Promising, hstate, hinfo] using hgoes
    · simpa [World.clientStream, hfd, hself'] using hc
  | finish fd' =>
    cases hstep
    refine .inl (hgoing hgoes ?_)
    rw [World.unread_finished]
    exact h.stream
  | resolved gaiRet res =>
    cases hstep with
    | unasked hdns => exact .inl h
    | resolved hdns =>
      have hasync := (hs.dns (by simp [hdns])).2
      simp [World.Promising, hasync] at hgoes
  | poll batch =>
    cases hstep with
    | unpolled => exact .inl h
    | polled hpending hlegal => exact .inl (hgoing hgoes h.stream)
  | handle ans =>
    have hstream : bytesFrom fd w'.trace ++ w'.unread fd <+: stream := by
      rcases hstep.effects hs (fun _ _ _ => trivial) with ⟨-, rfl | rfl⟩ | ⟨v, hv, heffects⟩
      · exact h.stream
      · exact h.stream
      · have hkept : bytesFrom fd w'.trace ++ w'.unread fd <+:
            bytesFrom fd v.trace ++ v.unread fd :=
          heffects.invariant (P := fun x => bytesFrom fd x.trace ++ x.unread fd <+:
            bytesFrom fd v.trace ++ v.unread fd) (fun hx he => he.stream_prefix.trans hx)
            (List.prefix_refl _)
        rcases w.mem_next hv with rfl | ⟨gaiRet, hdns, -⟩
        · exact hkept.trans h.stream
        · have hasync := (hs.dns (by simp [hdns])).2
          simp [World.Promising, hasync] at hgoes
    suffices hgoes' : w'.Promising ∨ .state .full ∈ w'.trace from
      hgoes'.imp_left fun hgoes' => hgoing hgoes' hstream
    cases hstep with
    | waiting hpending => exact .inl hgoes
    | @handled _ event rest _ _ hpending hd =>
      cases hd with
      | ignored => exact .inl hgoes
      | stale hgone => exact .inl hgoes
      | masked hd hev => exact .inl hgoes
      | handled hw hd hh hwant =>
        have hsucc := hc.2 _ (by rw [hpending]; exact Option.mem_some_self _)
        rw [hpending] at hsucc
        exact (h.taken rest ans).handled (hs.taken hpending ans) hself hadm hsucc hc.1 hsupplied hip
          hwant hh
      | shut hshut hd =>
        have hclosed : w.shared.state = .closed := hshut.state
        simp [World.Promising, hclosed] at hgoes
      | quiet hdns => exact .inl hgoes
      | resolver hw hdns hc =>
        have hasync := (hs.dns (show w.dns ≠ .idle by rw [show w.dns = _ from hdns]; simp)).2
        simp [World.Promising, hasync] at hgoes

theorem newClient_unrefused (hfd : 0 ≤ fd) (ss : SockAddr) (bufs : Side → OutBuff) :
    Unrefused cfg fd stream (newClient fd ss bufs) where
  isOpen := newClient_open hfd ss bufs
  promising := trivial
  stream := by
    simp only [newClient, World.unread, Act.bytesFrom, bytesFrom_cons, bytesFrom_nil, if_true,
      List.append_nil, List.nil_append, Option.elim_some]
    exact List.nil_prefix
  gated := newClient_gated fd ss bufs
  roomy := newClient_roomy fd ss bufs
  alert := newClient_alert fd ss bufs
  addrs := nofun

/-- A relay that began has begun. -/
theorem Stepped.full_stays {w w' : World} {i : Input} {f : Option Fault} (hs : Sane w)
    (hmem : .state .full ∈ w.trace) (h : Stepped cfg w i f w') : .state .full ∈ w'.trace := by
  have heffect : ∀ {v v' : World}, .state .full ∈ v.trace → Effect True v v' →
      .state .full ∈ v'.trace := fun hmem he => he.trace_prefix.subset hmem
  refine h.keeps (P := fun v => .state .full ∈ v.trace) heffect (fun hmem hl => ?_) hs hmem
    fun _ _ _ _ _ => trivial
  cases hl <;> simpa using hmem

/-- **A client that follows the protocol is not turned away.** While the calls of the handlers
succeed, and whatever of the client's stream has arrived, received in pieces of any size and
answered in pieces of any size, the connection stays in the handshake with nothing refused until
the relay begins. -/
theorem never_turned_away {ss : SockAddr} {bufs : Side → OutBuff} {mallocs epollAdd : Bool}
    {w₀ : World} {is : List Input} (hadm : Admissible cfg stream)
    (hw₀ : acceptNewClient fd ss bufs mallocs epollAdd = some w₀)
    (hmeets : Lib.Meets (step cfg)
      (fun w i => .state .full ∈ w.trace ∨ Cooperates stream w i) is w₀) :
    (Lib.run (step cfg) is w₀).state.Promising ∨
      .state .full ∈ (Lib.run (step cfg) is w₀).state.trace := by
  have hsane := acceptNewClient_sane hw₀
  obtain ⟨hfd, rfl⟩ := acceptNewClient_eq hw₀
  have hrun : Lib.wp (Lib.run (step cfg) is)
      (fun _ v => Sane v ∧ v.selfFd .client = fd ∧
        (Unrefused cfg fd stream v ∨ .state .full ∈ v.trace))
      (fun _ v => Unrefused cfg fd stream v ∨ .state .full ∈ v.trace) (newClient fd ss bufs) := by
    refine Lib.run_wp_of_meets (fun v i hv hC => ?_)
      ⟨hsane, rfl, .inl (newClient_unrefused hfd ss bufs)⟩ hmeets
    obtain ⟨hs, hself, hkept⟩ := hv
    refine wp_step hs.toSound fun f v' hstep => ?_
    have hnext : Unrefused cfg fd stream v' ∨ .state .full ∈ v'.trace := by
      rcases hkept with h | hmem
      · rcases hC with hmem | hc
        · exact .inr (hstep.full_stays hs hmem)
        · exact h.stepped hs hself hadm hc hstep
      · exact .inr (hstep.full_stays hs hmem)
    cases f with
    | none => exact ⟨hstep.sane hs, (hstep.client hs).trans hself, hnext⟩
    | some f => exact hnext
  have hend := Lib.wp.state (P := fun v => Unrefused cfg fd stream v ∨ .state .full ∈ v.trace)
    (hrun.mono (fun _ _ h => h.2.2) fun _ _ h => h)
  exact hend.imp_left Unrefused.promising

end Runs

theorem connectStream_admissible : Admissible openConfigs connectStream :=
  ⟨[methNoauth], [71, 69, 84], connectRequest, .inet ![0, 80] ![10, 0, 0, 1],
    connectStream_request, rfl, rfl, rfl, rfl, by simp [Blocked, openConfigs, Configs.cleared]⟩

theorem never_turned_away_late :
    (Lib.run (step openConfigs) payloadLate
      (newClient 5 (.inet ![4, 0] ![127, 0, 0, 1]) fun _ => .zero)).state.Promising ∨
    .state .full ∈ (Lib.run (step openConfigs) payloadLate
      (newClient 5 (.inet ![4, 0] ![127, 0, 0, 1]) fun _ => .zero)).state.trace := by
  have haccept : acceptNewClient 5 (.inet ![4, 0] ![127, 0, 0, 1]) (fun _ => .zero) true true =
      some (newClient 5 (.inet ![4, 0] ![127, 0, 0, 1]) fun _ => .zero) := rfl
  have hmeets : Lib.Meets (step openConfigs)
      (fun w i => .state .full ∈ w.trace ∨ Cooperates connectStream w i) payloadLate
        (newClient 5 (.inet ![4, 0] ![127, 0, 0, 1]) fun _ => .zero) := by
    decide +kernel
  exact never_turned_away connectStream_admissible haccept hmeets

end Socksprox
