import Socksprox.Proxy
import Socksprox.Run.Gate

/-!
Which descriptors block. The loop has one thread, and every descriptor it sends on, receives
from or accepts on is one that epoll knows.
-/

namespace Socksprox

/-! ### One connection -/

/-- The descriptors that epoll knows do not block. -/
def World.Nonblocking (w : World) : Prop :=
  ∀ fd sk, w.fds fd = some sk → sk.interest ≠ none → sk.nonblock = true

section Connection

variable {w w' : World}

/-- Each descriptor is one from before with the same flag, known already or not known now. -/
theorem World.Nonblocking.of_fds (h : w.Nonblocking)
    (hfds : ∀ fd sk', w'.fds fd = some sk' → sk'.interest ≠ none →
      ∃ sk, w.fds fd = some sk ∧ sk.interest ≠ none ∧ sk'.nonblock = sk.nonblock) :
    w'.Nonblocking := by
  intro fd sk' hsk' hi'
  obtain ⟨sk, hsk, hi, heq⟩ := hfds fd sk' hsk' hi'
  rw [heq]
  exact h fd sk hsk hi

theorem World.Nonblocking.shutFd (h : w.Nonblocking) (fd : Int) :
    (w.setFd fd none).Nonblocking := by
  refine h.of_fds fun fd' sk' hsk' hi' => ?_
  by_cases hfd : fd' = fd
  · simp [hfd] at hsk'
  · exact ⟨sk', by simpa [hfd] using hsk', hi', rfl⟩

theorem World.Nonblocking.setInterest (h : w.Nonblocking) {fd : Int} {i : Events × Option Side}
    (hnonblock : ∀ sk, w.fds fd = some sk → sk.nonblock = true) :
    (w.setInterest fd (some i)).Nonblocking := by
  intro fd' sk' hsk' hi'
  by_cases hfd : fd' = fd
  · subst hfd
    cases hsk : w.fds fd' with
    | none => simp [hsk] at hsk'
    | some sk =>
      obtain rfl : _ = sk' := by simpa [hsk] using hsk'
      exact hnonblock sk hsk
  · exact h fd' sk' (by simpa [hfd] using hsk') hi'

theorem World.Nonblocking.received (h : w.Nonblocking) {fd : Int} {n : Nat}
    {r : Option (List UInt8)} (hrecv : Recv w fd n r w') : w'.Nonblocking := by
  cases hrecv with
  | failed => exact h
  | zero hn => exact h
  | ended hsk hempty hfin => exact h
  | data hsk hinbox hne hle =>
    refine h.of_fds fun fd' sk' hsk' hi' => ?_
    by_cases hfd : fd' = fd
    · subst hfd
      obtain rfl : _ = sk' := by simpa [hsk] using hsk'
      exact ⟨_, hsk, hi', rfl⟩
    · exact ⟨sk', by simpa [hfd] using hsk', hi', rfl⟩

theorem World.Nonblocking.effect (h : w.Nonblocking) (he : Effect False w w') :
    w'.Nonblocking := by
  cases he with
  | queue s bytes => exact h.of_fds fun fd sk hsk hi => ⟨sk, by simpa using hsk, hi, rfl⟩
  | received hrecv => exact h.received hrecv
  | watched fd i hreg =>
    obtain ⟨sk, j, hsk, hj⟩ := hreg
    refine h.setInterest fun sk' hsk' => ?_
    obtain rfl : sk = sk' := Option.some.inj (hsk.symm.trans hsk')
    exact h fd sk hsk (by simp [hj])
  | added fd i hnonblock =>
    exact h.setInterest fun sk hsk => (hnonblock sk hsk).resolve_right id
  | opened fd nonblock hnew =>
    refine h.of_fds fun fd' sk' hsk' hi' => ?_
    by_cases hfd : fd' = fd
    · subst hfd
      obtain rfl : _ = sk' := by simpa using hsk'
      exact absurd rfl hi'
    · exact ⟨sk', by simpa [hfd] using hsk', hi', rfl⟩
  | shutFd fd => exact h.shutFd fd
  | rehomed newFd => exact h.shutFd _
  | released e => exact h.shutFd _
  | _ => exact h

theorem World.Nonblocking.looped (h : w.Nonblocking) (hl : Looped w w') : w'.Nonblocking := by
  cases hl with
  | outside fds hfds =>
    refine h.of_fds fun fd sk' hsk' hi' => ?_
    have hmap := hfds fd
    have hsk₁ : fds fd = some sk' := hsk'
    rw [hsk₁] at hmap
    cases hsk : w.fds fd with
    | none => simp [hsk] at hmap
    | some sk =>
      rw [hsk] at hmap
      obtain ⟨hnonblock, hinterest⟩ : sk'.nonblock = sk.nonblock ∧ sk'.interest = sk.interest := by
        simpa using hmap
      exact ⟨sk, rfl, hinterest ▸ hi', hnonblock⟩
  | _ => exact h

theorem newClient_nonblocking (fd : Int) (ss : SockAddr) (bufs : Side → OutBuff) :
    (newClient fd ss bufs).Nonblocking := by
  intro fd' sk hsk hi
  by_cases hfd : fd' = fd
  · obtain rfl : _ = sk := by simpa [newClient, hfd] using hsk
    rfl
  · simp [newClient, hfd] at hsk

end Connection

/-! ### The server -/

/-- The listeners and the connections' descriptors that epoll knows do not block. -/
structure Proxy.Nonblocking (p : Proxy) : Prop where
  listeners : ∀ fd l, p.listeners fd = some l → l.registered = true → l.nonblock = true
  conns : ∀ w ∈ p.conns, w.Nonblocking

/-- No handler registers the relay socket of UDP ASSOCIATE or the peer accepted for BIND. -/
def RegistersNone (cfg : Configs) (pipes : Pipes) (p : Proxy) (i : ProxyInput) : Prop :=
  ∀ w ∈ p.handled pipes i, ¬ w.Registers cfg

section Listeners

variable {fds fds' : Int → Option Listener} {log : List Logger.Call}

theorem initListener_nonblocking {sa : SockAddr} {ans : ListenAnswers} {ret : Int}
    (h : ∀ fd l, fds fd = some l → l.registered = true → l.nonblock = true)
    (hinit : initListener fds sa ans = (ret, fds', log)) :
    ∀ fd l, fds' fd = some l → l.registered = true → l.nonblock = true := by
  have hnew : ∀ {sfd : Int} {l : Listener}, (l.registered = true → l.nonblock = true) →
      ∀ fd l', Function.update fds sfd (some l) fd = some l' → l'.registered = true →
        l'.nonblock = true := by
    intro sfd l hl fd l' hl'
    by_cases hfd : fd = sfd
    · obtain rfl : l = l' := by simpa [hfd] using hl'
      exact hl
    · exact h fd l' (by simpa [hfd] using hl')
  unfold initListener at hinit
  split at hinit
  · cases hinit
    exact h
  · split_ifs at hinit <;> cases hinit <;> exact hnew (by decide)

theorem initListenersFrom_nonblocking {l : List (SockAddr × ListenAnswers)} {ret : Int}
    (h : ∀ fd l, fds fd = some l → l.registered = true → l.nonblock = true)
    (hinit : initListenersFrom fds l = (ret, fds', log)) :
    ∀ fd l, fds' fd = some l → l.registered = true → l.nonblock = true := by
  induction l generalizing fds log with
  | nil =>
    cases hinit
    exact h
  | cons first rest ih =>
    obtain ⟨sa, ans⟩ := first
    rw [initListenersFrom] at hinit
    split at hinit
    · rename_i fds₁ log₁ hfirst
      cases hinit
      exact ih (initListener_nonblocking h hfirst) rfl
    · rename_i ret₁ fds₁ log₁ hne hfirst
      cases hinit
      exact initListener_nonblocking h hfirst

end Listeners

section Server

variable {cfg : Configs} {pipes : Pipes} {p p' : Proxy} {w w' : World}

theorem startProxy_nonblocking {l : List (SockAddr × ListenAnswers)} {p₀ : Proxy}
    (h : startProxy l = some p₀) : p₀.Nonblocking := by
  obtain ⟨⟨log, hlisteners⟩, hp₀⟩ := startProxy_eq h
  refine ⟨?_, fun w hw => by rw [hp₀] at hw; cases hw⟩
  unfold initListeners at hlisteners
  split at hlisteners
  · cases hlisteners
  · exact initListenersFrom_nonblocking (fun fd l hl => by cases hl) hlisteners

theorem Proxy.Nonblocking.moved {k : Nat} {v : World} (h : p.Nonblocking) (hw : w'.Nonblocking) :
    (p.moved k v w').Nonblocking := by
  refine ⟨h.listeners, fun u hu => ?_⟩
  rcases List.mem_or_eq_of_mem_set hu with hu | rfl
  · exact h.conns u hu
  · exact hw

theorem World.Nonblocking.stepped {i : Input} {f : Option Fault} (h : w.Nonblocking) (hs : Sane w)
    (hnone : ∀ ans, i = .handle ans → ∀ v ∈ w.next ans, ¬ v.Registers cfg)
    (hstep : Stepped cfg w i f w') : w'.Nonblocking :=
  hstep.keeps (fun h he => h.effect he) (fun h hl => h.looped hl) hs h fun ans hi v hv hreg =>
    hnone ans hi v hv hreg

theorem Proxy.Nonblocking.stepped {i : ProxyInput} {f : Option Fault} (h : p.Nonblocking)
    (hp : Orderly p) (hnone : RegistersNone cfg pipes p i)
    (hstep : ProxyStepped cfg pipes p i f p') : p'.Nonblocking := by
  cases hstep with
  | idle => exact h
  | accepted hw =>
    obtain ⟨-, rfl⟩ := acceptNewClient_eq hw
    refine ⟨h.listeners, fun u hu => ?_⟩
    rcases List.mem_append.mp hu with hu | hu
    · exact h.conns u hu
    · obtain rfl := List.mem_singleton.mp hu
      exact newClient_nonblocking _ _ _
  | @moved k i _ w w' hk hown hstep =>
    refine h.moved ((h.conns w (List.mem_of_getElem? hk)).stepped (hp.getElem hk).1 ?_ hstep)
    intro ans hi v hv
    cases i with
    | handle ans' =>
      cases hi
      exact hnone v (by simpa [Proxy.handled, hk] using hv)
    | _ => cases hi
  | lookup hresolving hrequests => exact ⟨h.listeners, h.conns⟩
  | looked hresolving hk =>
    refine ⟨h.listeners, fun u hu => ?_⟩
    rcases List.mem_or_eq_of_mem_set hu with hu | rfl
    · exact h.conns u hu
    · have hw := h.conns _ (List.mem_of_getElem? hk)
      exact fun fd sk hsk hi => hw fd sk hsk hi
  | @answered ans a rest _ w w' hresponses hk hstep =>
    obtain ⟨v, hv, hdns⟩ := hp.answered a (by simp [hresponses])
    obtain rfl : w = v := Option.some.inj (hk.symm.trans hv)
    have hread : (p.answerRead a rest w).Nonblocking := ⟨h.listeners, h.conns⟩
    have hw : (w.notified a.gaiRet).Nonblocking := h.conns w (List.mem_of_getElem? hk)
    refine hread.moved (hw.stepped ((hp.getElem hk).1.notified hdns) ?_ hstep)
    intro ans' hi u hu
    cases hi
    exact hnone u (by simpa [Proxy.handled, hresponses, hk] using hu)

/-- **No registered descriptor blocks.** In every run of the server in which no relay socket of
UDP ASSOCIATE and no peer accepted for BIND is registered, every descriptor that epoll knows,
a listener or an end of a connection, is non-blocking. -/
theorem registered_nonblocking {l : List (SockAddr × ListenAnswers)} {p₀ : Proxy}
    {is : List ProxyInput} (hp₀ : startProxy l = some p₀)
    (hmeets : Lib.Meets (proxyStep cfg pipes) (RegistersNone cfg pipes) is p₀) :
    (Lib.run (proxyStep cfg pipes) is p₀).state.Nonblocking :=
  proxy_invariant (startProxy_orderly hp₀) (startProxy_nonblocking hp₀) hmeets
    fun hp h hnone hstep => h.stepped hp hnone hstep

end Server

instance (cfg : Configs) (w : World) : Decidable (w.Associates cfg) :=
  inferInstanceAs (Decidable (_ ∧ _))

instance (cfg : Configs) (w : World) : Decidable (w.Registers cfg) :=
  inferInstanceAs (Decidable (_ ∨ _))

instance (cfg : Configs) (pipes : Pipes) (p : Proxy) (i : ProxyInput) :
    Decidable (RegistersNone cfg pipes p i) :=
  inferInstanceAs (Decidable (∀ w ∈ p.handled pipes i, ¬ w.Registers cfg))

theorem registered_nonblocking_connect :
    (Lib.run (proxyStep openConfigs ⟨1, 1⟩)
      (oneClient literalConnect) listening).state.Nonblocking :=
  registered_nonblocking (l := oneListener) rfl (by decide +kernel)

/-- A UDP ASSOCIATE for 10.0.0.1, port 80. -/
def associate : List Input :=
  greeting 5 ++ clientSends 5 [5, cmdUdpa, 0, atypIpv4, 10, 0, 0, 1, 0, 80]
    { Answers.idle with socket := some 6 }

/-- The relay socket blocks, and epoll knows it. -/
theorem registered_blocking_associate :
    ¬ ∀ (cfg : Configs) (pipes : Pipes) (l : List (SockAddr × ListenAnswers)) (p₀ : Proxy)
      (is : List ProxyInput), startProxy l = some p₀ →
        (Lib.run (proxyStep cfg pipes) is p₀).state.Nonblocking := by
  intro h
  have hconns := (h openConfigs ⟨1, 1⟩ oneListener listening (oneClient associate) rfl).conns
  have hblocks : ((Lib.run (proxyStep openConfigs ⟨1, 1⟩) (oneClient associate)
      listening).state.conns.any fun w =>
        (w.fds 6).any fun sk => sk.interest.isSome && !sk.nonblock) = true := by
    decide +kernel
  obtain ⟨w, hw, hsk⟩ := List.any_eq_true.mp hblocks
  cases hfd : w.fds 6 with
  | none => simp [hfd] at hsk
  | some sk =>
    have hregistered : sk.interest.isSome = true ∧ sk.nonblock = false := by simpa [hfd] using hsk
    have hnonblock := hconns w hw 6 sk hfd (Option.isSome_iff_ne_none.mp hregistered.1)
    simp [hnonblock] at hregistered

end Socksprox
