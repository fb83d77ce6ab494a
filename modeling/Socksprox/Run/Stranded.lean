import Socksprox.Run.Wakeup

/-!
A request that nobody reads. `waitingmethods` receives all that has come, and what follows the
method request stays in `server_out`; the handler of the next state runs only when more arrives.
-/

namespace Socksprox

/-! ### Requests in the buffer -/

/-- A whole request is in the buffer in STATE_WAITING_COMMAND, and nothing is left to receive. -/
structure World.Unserved (w : World) : Prop where
  state : w.shared.state = .waitingCommand
  unasked : w.info.resolverRet = -1
  request : HoldsRequest (w.shared.out .server).contents
  unread : w.unread (w.shared.fd .client) = []

/-- Nothing will happen before the client sends more. -/
structure World.Stranded (w : World) : Prop extends w.Unserved where
  watched : w.Receiving .client

/-- The method reply goes out while a whole request waits behind the method request and nothing
is left to receive. -/
structure World.AnswersOver (w : World) (ev : Events) : Prop where
  state : w.shared.state = .sendingMethod
  writable : ev.epollout = true
  noauth : w.info.method = methNoauth
  watched : w.modAnswer = true
  sent : w.SendsFront 2
  request : HoldsRequest (w.shared.out .server).contents
  unread : w.unread (w.shared.fd .client) = []

/-- All that is left to receive completes a request, and there is no memory for its address. -/
structure World.Forgets (w : World) (ev : Events) : Prop where
  state : w.shared.state = .waitingCommand
  readable : ev.epollin = true
  noMemory : w.ans.mallocSa = false
  request : HoldsRequest w.gathered
  literal : reqAt w.gathered 3 ≠ atypDomn
  unread : w.unread (w.shared.fd .client) =
    w.readable (w.shared.fd .client) (w.shared.out .server).free

/-- The condition of a step: it neither answers over a request nor forgets one. -/
def ServesRequest (w : World) : Input → Prop
  | .handle ans => match w.pending with
    | .peer _ (some .client) ev :: rest =>
      ¬ (w.taken rest ans).AnswersOver ev ∧ ¬ (w.taken rest ans).Forgets ev
    | _ => True
  | _ => True

section Decidable

variable (w : World) (ev : Events)

instance (n : Nat) : Decidable (w.SendsFront n) :=
  decidable_of_iff (w.ans.send.any
      (fun k => decide (((w.shared.out .client).peek n).length ≤ k)) = true) (by
    unfold World.SendsFront
    cases w.ans.send <;> simp)

instance : Decidable (w.AnswersOver ev) :=
  decidable_of_iff (w.shared.state = .sendingMethod ∧ ev.epollout = true ∧
      w.info.method = methNoauth ∧ w.modAnswer = true ∧ w.SendsFront 2 ∧
      HoldsRequest (w.shared.out .server).contents ∧ w.unread (w.shared.fd .client) = [])
    ⟨fun ⟨h₁, h₂, h₃, h₄, h₅, h₆, h₇⟩ => ⟨h₁, h₂, h₃, h₄, h₅, h₆, h₇⟩,
      fun ⟨h₁, h₂, h₃, h₄, h₅, h₆, h₇⟩ => ⟨h₁, h₂, h₃, h₄, h₅, h₆, h₇⟩⟩

instance : Decidable (w.Forgets ev) :=
  decidable_of_iff (w.shared.state = .waitingCommand ∧ ev.epollin = true ∧
      w.ans.mallocSa = false ∧ HoldsRequest w.gathered ∧ reqAt w.gathered 3 ≠ atypDomn ∧
      w.unread (w.shared.fd .client) =
        w.readable (w.shared.fd .client) (w.shared.out .server).free)
    ⟨fun ⟨h₁, h₂, h₃, h₄, h₅, h₆⟩ => ⟨h₁, h₂, h₃, h₄, h₅, h₆⟩,
      fun ⟨h₁, h₂, h₃, h₄, h₅, h₆⟩ => ⟨h₁, h₂, h₃, h₄, h₅, h₆⟩⟩

instance : DecidablePred (ServesRequest w)
  | .handle ans => match h : w.pending with
    | .peer _ (some .client) ev :: rest =>
      decidable_of_iff (¬ (w.taken rest ans).AnswersOver ev ∧ ¬ (w.taken rest ans).Forgets ev)
        (by simp [ServesRequest, h])
    | [] => .isTrue (by simp [ServesRequest, h])
    | .resolver :: _ => .isTrue (by simp [ServesRequest, h])
    | .peer _ none _ :: _ => .isTrue (by simp [ServesRequest, h])
    | .peer _ (some .server) _ :: _ => .isTrue (by simp [ServesRequest, h])
  | .arrive .. | .finish _ | .resolved .. | .poll _ => .isTrue trivial

end Decidable

/-! ### The invariant -/

section Unserved

variable {cfg : Configs} {w w' : World} {e : Side} {ev : Events} {f : Option Fault}

/-- Bytes are not taken back. -/
theorem World.Unserved.of_kept (h : w'.Unserved) (hcore : w'.core = w.core)
    (hunread : w'.unread (w.shared.fd .client) = [] → w.unread (w.shared.fd .client) = []) :
    w.Unserved := by
  simp only [World.core, Prod.mk.injEq] at hcore
  obtain ⟨-, hstate, hout, hfd, hinfo⟩ := hcore
  constructor
  · exact hstate.symm.trans h.state
  · rw [← hinfo]
    exact h.unasked
  · rw [← hout]
    exact h.request
  · have hnil := h.unread
    rw [hfd] at hnil
    exact hunread hnil

theorem World.unread_arrived {fd fd' : Int} {bytes : List UInt8}
    (h : (w.arrived fd bytes).unread fd' = []) : w.unread fd' = [] := by
  unfold World.arrived at h
  cases hsk : w.fds fd with
  | none => simpa [hsk] using h
  | some sk =>
    rw [hsk] at h
    by_cases hfin : sk.fin = true
    · simpa [hfin] using h
    · by_cases heq : fd' = fd
      · subst heq
        simp only [hfin, World.unread, World.setFd_fds, Function.update_self, Bool.false_eq_true,
          if_false, Option.elim_some, List.append_eq_nil_iff] at h
        simp [World.unread, hsk, h.1]
      · simpa [hfin, World.unread, heq] using h

theorem World.unread_finished {fd fd' : Int} : (w.finished fd).unread fd' = w.unread fd' := by
  by_cases heq : fd' = fd
  · subst heq
    cases hsk : w.fds fd' <;> simp [World.unread, World.finished, hsk]
  · simp [World.unread, World.finished, heq]

theorem Recv.unread {fd : Int} {n : Nat} {bytes : List UInt8} {w₁ : World}
    (h : Recv w fd n (some bytes) w₁) : w.unread fd = bytes ++ w₁.unread fd := by
  cases h with
  | zero hn => rfl
  | ended hsk hempty hfin => rfl
  | data hsk hinbox hne hle hcount => simp [World.unread, hsk, hinbox]

theorem World.unread_setInterest {fd fd' : Int} {i : Option (Events × Option Side)} :
    (w.setInterest fd i).unread fd' = w.unread fd' := by
  by_cases heq : fd' = fd
  · subst heq
    cases hsk : w.fds fd' <;> simp [World.unread, hsk]
  · simp [World.unread, heq]

/-- A request is handled once it is there, unless its address finds no memory. -/
theorem WaitingCommand.served (hw : Open w)
    (hidle : ev.epollin = false ∨ e = .server → ¬ w.Unserved)
    (hkept : w.ans.mallocSa = false → HoldsRequest w.gathered →
      reqAt w.gathered 3 ≠ atypDomn → w.unread (w.shared.fd .client) ≠
        w.readable (w.shared.fd .client) (w.shared.out .server).free)
    (h : WaitingCommand cfg w e ev f w') : ¬ w'.Unserved := by
  intro hunserved
  have hstate := hunserved.state
  cases h with
  | idle hi => exact hidle hi hunserved
  | resolver hret h => rcases h.state hw with hst | hst | hst <;> simp [hst] at hstate
  | ended hret hrecv hr => cases hstate
  | @data bytes got w₁ _ _ hret hrecv hgot h =>
    have hw₁ : Open (w₁.queue .server bytes) := by simpa using hrecv.open hw
    have hcontents : ((w₁.queue .server bytes).shared.out .server).contents = got := by
      rw [World.queue_contents (by simpa [hrecv.shared] using hrecv.length_le), hrecv.shared, hgot]
    obtain rfl : got = w.gathered := hgot.trans hrecv.gathered
    cases h with
    | short hlen =>
      have hrequest := hunserved.request
      rw [hcontents, holdsRequest_iff] at hrequest
      rw [List.length_take] at hlen
      omega
    | badAtyp hlen htotal h => rcases h.state with hst | hst <;> simp [hst] at hstate
    | part hlen htotal hpart =>
      have hrequest := hunserved.request
      rw [hcontents] at hrequest
      exact absurd (hrequest.complete htotal) (by omega)
    | badVersion hlen htotal hcomplete hversion => cases hstate
    | run hlen htotal hcomplete hversion h =>
      have hw₂ : Open ((w₁.queue .server bytes).commandStored (w.gathered.take 300)) :=
        hw₁.setInfo rfl rfl
      cases h with
      | domain hatyp => cases hstate
      | noMemory hatyp hmalloc =>
        have hrequest : HoldsRequest w.gathered := hcontents ▸ hunserved.request
        have hall : w₁.unread (w.shared.fd .client) = [] := by
          simpa [World.unread, hrecv.shared] using hunserved.unread
        have hunread := hrecv.unread
        rw [hall, List.append_nil, hrecv.readable] at hunread
        rw [reqAt_take (by decide)] at hatyp
        exact hkept (by simpa [hrecv.ans] using hmalloc) hrequest hatyp hunread
      | dropped hatyp hfirewall h => rcases h.state with hst | hst <;> simp [hst] at hstate
      | passed hatyp hfirewall h =>
        rcases h.state (by simpa using hw₂.addrStored (w.gathered.take 300))
          with hst | hst | hst <;>
          simp [hst] at hstate

theorem SendingMethod.served (hs : w.shared.state = .sendingMethod)
    (hunread : w.modAnswer = true → w.info.method = methNoauth → w.SendsFront 2 →
      HoldsRequest (w.shared.out .server).contents → w.unread (w.shared.fd .client) ≠ [])
    (h : SendingMethod w e ev w') : ¬ w'.Unserved := by
  intro hunserved
  have hstate := hunserved.state
  cases h with
  | idle hidle => simp [hs] at hstate
  | stopped hstop =>
    cases hstop with
    | failed => cases hstate
    | part hk => simp [hs] at hstate
    | unwatched hmod => cases hstate
  | refused hmod hmethod => cases hstate
  | accepted hmod hnoauth hsent =>
    refine hunread hmod hnoauth hsent (by simpa using hunserved.request) ?_
    have hnil : (w.sentFront 2).watchRecv.unread (w.shared.fd .client) = [] := hunserved.unread
    rw [World.watchRecv, World.unread_setInterest] at hnil
    exact hnil

/-- A handler that does not go on to wait for a request leaves none. -/
theorem World.not_unserved_of_does {K : Act → Bool} (hdoes : Does K w w')
    (hne : w.shared.state ≠ .waitingCommand) (hK : K (.state .waitingCommand) = false) :
    ¬ w'.Unserved := by
  intro hunserved
  rcases hdoes.state with heq | hin
  · exact hne (heq.symm.trans hunserved.state)
  · simp [hunserved.state, hK] at hin

theorem Handled.served (hw : Open w) (h : ¬ w.Unserved)
    (hmethod : w.shared.state = .sendingMethod → w.modAnswer = true → w.info.method = methNoauth →
      w.SendsFront 2 → HoldsRequest (w.shared.out .server).contents →
        w.unread (w.shared.fd .client) ≠ [])
    (hkept : w.shared.state = .waitingCommand → w.ans.mallocSa = false → HoldsRequest w.gathered →
      reqAt w.gathered 3 ≠ atypDomn → w.unread (w.shared.fd .client) ≠
        w.readable (w.shared.fd .client) (w.shared.out .server).free)
    (hh : Handled cfg w e ev f w') : ¬ w'.Unserved := by
  cases hh with
  | still hstate => exact h
  | waitingMethods hstate hh =>
    intro hunserved
    rcases hh.state hstate with hst | hst | hst <;> simp [hunserved.state] at hst
  | sendingMethod hstate hh => exact hh.served hstate (hmethod hstate)
  | waitingCommand hstate hh => exact hh.served hw (fun _ => h) (hkept hstate)
  | sendingReply hstate hh =>
    intro hunserved
    have hlate := hh.late (by rcases hstate with hst | hst <;> simp [hst])
    simp [hunserved.state] at hlate
  | connecting hstate hh => exact World.not_unserved_of_does hh.does (by simp [hstate]) rfl
  | bindListening hstate hh => exact World.not_unserved_of_does hh.does (by simp [hstate]) rfl
  | full hstate hh => exact World.not_unserved_of_does hh.does (by simp [hstate]) rfl
  | halfClose hstate =>
    intro hunserved
    cases hunserved.state
  | closed hstate =>
    intro hunserved
    have hst := hunserved.state
    simp [hstate] at hst

/-- The step lemma. -/
theorem World.served_stepped {i : Input} (hs : Sane w) (hasks : w.AsksDomain) (h : ¬ w.Unserved)
    (hserves : ServesRequest w i) (hstep : Stepped cfg w i f w') : ¬ w'.Unserved := by
  cases hstep with
  | arrive =>
    intro hunserved
    exact h (hunserved.of_kept (World.core_arrived _ _ _) World.unread_arrived)
  | finish =>
    intro hunserved
    refine h (hunserved.of_kept rfl fun hnil => ?_)
    rwa [World.unread_finished] at hnil
  | unasked hdns => exact h
  | resolved hdns =>
    intro hunserved
    obtain ⟨-, hasync⟩ := hs.dns (by simp [hdns])
    have hst : w.shared.state = .waitingCommand := hunserved.state
    simp [hasync] at hst
  | unpolled => exact h
  | polled hpending hlegal =>
    intro hunserved
    exact h (hunserved.of_kept rfl id)
  | waiting hpending => exact h
  | @handled ans event rest _ _ hpending hd =>
    have htaken : ¬ (w.taken rest ans).Unserved := by
      intro hunserved
      exact h (hunserved.of_kept rfl id)
    cases hd with
    | ignored => exact htaken
    | stale hgone => exact htaken
    | masked hd hev => exact htaken
    | @handled fd e ev _ _ hw hd hh hwant =>
      rcases hwant with rfl | hwant
      · exact htaken
      · refine hh.served hw htaken ?_ ?_
        · intro hstate hmod hnoauth hsent hrequest hunread
          have hstate' : w.shared.state = .sendingMethod := hstate
          obtain ⟨hout, rfl⟩ : ev.epollout = true ∧ e = .client := by
            simpa [World.Wants, hstate'] using hwant
          simp only [ServesRequest, hpending] at hserves
          exact hserves.1 ⟨hstate, hout, hnoauth, hmod, hsent, hrequest, hunread⟩
        · intro hstate hmalloc hrequest hatyp hunread
          have hstate' : w.shared.state = .waitingCommand := hstate
          obtain ⟨hin, rfl⟩ : ev.epollin = true ∧ e = .client := by
            simpa [World.Wants, hstate'] using hwant
          simp only [ServesRequest, hpending] at hserves
          exact hserves.2 ⟨hstate, hin, hmalloc, hrequest, hatyp, hunread⟩
    | shut hw hd =>
      intro hunserved
      cases hw.state.symm.trans hunserved.state
    | quiet hdns => exact htaken
    | @resolver gaiRet _ _ hw hdns hh =>
      -- The name that was asked for is still in the buffer, and needs no memory.
      obtain ⟨hlen, hatyp⟩ := hasks (hs.dns (by rw [show w.dns = _ from hdns]; simp)).2
      refine hh.served (hw.resumed gaiRet) (fun hidle => ?_) fun _ _ hne => absurd ?_ hne
      · rcases hidle with hin | he
        · cases hin
        · cases he
      · rw [World.gathered, reqAt, List.getD_append _ _ _ _ (by exact hlen)]
        exact hatyp

end Unserved

/-! ### Runs -/

/-- **No request is stranded while none is answered over or forgotten.** In every run whose steps
send no method reply over a whole request behind which nothing is left to receive, and find
memory for the address of a request that nothing follows, no state reached waits for the client
with a whole request in the buffer and nothing left to receive. -/
theorem never_stranded {cfg : Configs} {fd : Int} {ss : SockAddr} {bufs : Side → OutBuff}
    {mallocs epollAdd : Bool}
    {w₀ : World} {is : List Input} (hw₀ : acceptNewClient fd ss bufs mallocs epollAdd = some w₀)
    (hmeets : Lib.Meets (step cfg) ServesRequest is w₀) :
    ¬ (Lib.run (step cfg) is w₀).state.Stranded := by
  have hsane := acceptNewClient_sane hw₀
  obtain ⟨-, rfl⟩ := acceptNewClient_eq hw₀
  have hstart : (newClient fd ss bufs).AsksDomain ∧ ¬ (newClient fd ss bufs).Unserved := by
    constructor
    · intro hasync
      cases hasync
    · intro hunserved
      cases hunserved.state
  have hrun := client_invariant (P := fun v => v.AsksDomain ∧ ¬ v.Unserved) hsane rfl hstart hmeets
    fun hs hself hP hserves hstep =>
      ⟨hP.1.stepped hstep, World.served_stepped hs hP.1 hP.2 hserves hstep⟩
  intro hstranded
  exact hrun.2 hstranded.toUnserved

/-- The method request and the request in one segment. -/
def segmentTogether : List Input :=
  clientSends 5 ([socks5Version, 1, methNoauth] ++ [5, cmdConn, 0, atypIpv4, 10, 0, 0, 1, 0, 80])
    .idle ++ clientTakes 5 .idle

theorem never_stranded_literal :
    ¬ (Lib.run (step openConfigs) literalConnect
      (newClient 5 (.inet ![4, 0] ![127, 0, 0, 1]) fun _ => .zero)).state.Stranded := by
  have haccept : acceptNewClient 5 (.inet ![4, 0] ![127, 0, 0, 1]) (fun _ => .zero) true true =
      some (newClient 5 (.inet ![4, 0] ![127, 0, 0, 1]) fun _ => .zero) := rfl
  have hmeets : Lib.Meets (step openConfigs) ServesRequest literalConnect
      (newClient 5 (.inet ![4, 0] ![127, 0, 0, 1]) fun _ => .zero) := by
    decide +kernel
  exact never_stranded haccept hmeets

/-- The request that comes along with the method request is stranded. -/
theorem request_stranded :
    ¬ ∀ (cfg : Configs) (fd : Int) (ss : SockAddr) (bufs : Side → OutBuff) (mallocs epollAdd : Bool)
      (w₀ : World) (is : List Input), acceptNewClient fd ss bufs mallocs epollAdd = some w₀ →
        ¬ (Lib.run (step cfg) is w₀).state.Stranded := by
  intro h
  refine h openConfigs 5 (.inet ![4, 0] ![127, 0, 0, 1]) (fun _ => .zero) true true _
    segmentTogether rfl ?_
  exact
    { state := by decide +kernel
      unasked := by decide +kernel
      request := by decide +kernel
      unread := by decide +kernel
      watched := by
        rw [World.Receiving]
        decide +kernel }

end Socksprox
