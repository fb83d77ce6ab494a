import Socksprox.Effects
import Socksprox.Run.Parsing

/-!
Room for the handshake. What one state leaves in `server_out` the next one finds there, so the
space that a receive finds depends on how much a message can hold before it is complete, and on
how much of a full buffer the method request was.
-/

namespace Socksprox

open Lib (wp)

/-! ### Receives of the handshake -/

/-- What `getaddrinfo` answers to flags it does not know. -/
def eaiBadflags : Int := -1

/-- There is memory for the address of a request, and `getaddrinfo` does not refuse its flags:
`resolver_th` passes none. -/
def Supplied : World → Input → Prop
  | _, .handle ans => ans.mallocSa = true
  | _, .resolved gaiRet _ => gaiRet ≠ eaiBadflags
  | _, _ => True

instance (w : World) : DecidablePred (Supplied w)
  | .handle _ => inferInstanceAs (Decidable (_ = true))
  | .resolved .. => inferInstanceAs (Decidable (¬ _))
  | .arrive .. | .finish _ | .poll _ => .isTrue trivial

/-- The handler receives from the client: the method request is awaited, or a request for which no
answer of the resolver is there. -/
def World.Receives (w : World) : Prop :=
  w.shared.state = .waitingMethods ∨
    w.shared.state = .waitingCommand ∧ w.info.resolverRet = -1

/-- The receive has room, a receive of nothing is the end of the client's stream, and
`write_ringbuff` stores all that is received. -/
structure World.HasRoom (w : World) : Prop where
  free : 1 ≤ (w.shared.out .server).free
  ended : ∀ w₁, recv (w.selfFd .client) (w.shared.out .server).free w = .ok (some []) w₁ →
    ∃ sk, w.fds (w.selfFd .client) = some sk ∧ sk.inbox = [] ∧ sk.fin = true
  stored : ∀ bytes w₁, recv (w.selfFd .client) (w.shared.out .server).free w = .ok (some bytes) w₁ →
    ∃ w₂, writeOut .server bytes w₁ = .ok bytes.length w₂ ∧
      (w₂.shared.out .server).contents = (w.shared.out .server).contents ++ bytes

/-! ### What the buffer holds -/

section Messages

variable {cfg : Configs} {got req : List UInt8} {total : Nat}

/-- A method request that is not complete is shorter than the longest one. -/
theorem length_of_not_methodsComplete (h : ¬ MethodsComplete got) : got.length ≤ 256 := by
  have hcount := (got.getD 1 0).toNat_lt
  by_contra hlong
  refine h ⟨?_, ?_⟩
  · omega
  · omega

/-- A request that `waitingcommand` waits on is shorter than what it looks at. -/
theorem length_of_part (htotal : totalLen cfg (got.take 300) = some total)
    (hpart : (got.take 300).length < total) : got.length ≤ 260 := by
  have hle := (totalLen_le htotal).1
  rw [List.length_take] at hpart
  omega

end Messages

/-- What `server_out` holds state by state, and that the resolver's answer is none that the
server takes for no answer. -/
structure World.Roomy (w : World) : Prop where
  methods : w.shared.state = .waitingMethods → ¬ MethodsComplete (w.shared.out .server).contents
  command : w.shared.state = .sendingMethod ∨ w.shared.state = .waitingCommand →
    (w.shared.out .server).used + 2 ≤ outbuffsize
  answer : w.shared.state = .asyncDns → w.dns ≠ .answered eaiBadflags

section Roomy

variable {cfg : Configs} {w w₁ w' : World} {e : Side} {ev : Events} {f : Option Fault}

theorem World.Roomy.of_late (hlate : w.shared.state.early = false) : w.Roomy where
  methods := fun hs => by simp [hs] at hlate
  command := fun hs => by rcases hs with hs | hs <;> simp [hs] at hlate
  answer := fun hs => by simp [hs] at hlate

theorem World.Roomy.congr (h : w.Roomy) (hshared : w'.shared = w.shared) (hdns : w'.dns = w.dns) :
    w'.Roomy where
  methods := by simpa [hshared] using h.methods
  command := by simpa [hshared] using h.command
  answer := by simpa [hshared, hdns] using h.answer

/-- A request is awaited with little in the buffer. -/
theorem World.Roomy.of_command (hs : w.shared.state = .waitingCommand)
    (hlen : (w.shared.out .server).contents.length ≤ 260) : w.Roomy where
  methods := fun hst => by simp [hs] at hst
  command := fun _ => by
    rw [Ring.contents_length] at hlen
    show _ ≤ 4096
    omega
  answer := fun hst => by simp [hs] at hst

/-- What is received goes behind what the buffer held. -/
theorem Recv.queued {bytes : List UInt8}
    (hrecv : Recv w (w.shared.fd .client) (w.shared.out .server).free (some bytes) w₁) :
    ((w₁.queue .server bytes).shared.out .server).contents =
      (w.shared.out .server).contents ++ bytes := by
  rw [World.queue_contents (by simpa [hrecv.shared] using hrecv.length_le), hrecv.shared]

/-- The method request takes at least its first two octets with it. -/
theorem WaitingMethods.roomy (hw : Open w) (hs : w.shared.state = .waitingMethods) (h : w.Roomy)
    (hwait : WaitingMethods cfg w e ev w') : w'.Roomy := by
  cases hwait with
  | idle hidle => exact h
  | ended hrecv hr => exact .of_late rfl
  | @part bytes got w₁ hrecv hgot hpart =>
    refine ⟨fun _ => ?_, fun hst => ?_, fun hst => ?_⟩
    · rwa [hrecv.queued, ← hgot]
    · simp [hrecv.shared, hs] at hst
    · simp [hrecv.shared, hs] at hst
  | badVersion hrecv hgot hcomplete hversion => exact .of_late rfl
  | unwatched hrecv hgot hcomplete hversion hmod => exact .of_late rfl
  | @chosen bytes got w₁ hrecv hgot hcomplete hversion hmod =>
    have hw₁ : Open (w₁.queue .server bytes) := by simpa using hrecv.open hw
    have hfull : got.length ≤ outbuffsize := by
      rw [hgot, ← hrecv.queued, Ring.contents_length, ← hw₁.capacity .server]
      exact Ring.used_le _
    have hleft : (((w₁.queue .server bytes).methodChosen cfg got).shared.out .server).used =
        got.length - (2 + (got.getD 1 0).toNat) := by
      rw [← Ring.contents_length, methodChosen_server, hrecv.queued, ← hgot, List.length_drop]
    refine ⟨nofun, fun _ => ?_, nofun⟩
    have hlong := hcomplete.1
    show (((w₁.queue .server bytes).methodChosen cfg got).shared.out .server).used + 2 ≤ outbuffsize
    omega

/-- The reply goes out and leaves `server_out` as it was. -/
theorem SendingMethod.roomy (hs : w.shared.state = .sendingMethod) (h : w.Roomy)
    (hsend : SendingMethod w e ev w') : w'.Roomy := by
  have hroom := h.command (.inl hs)
  cases hsend with
  | idle hidle => exact h
  | stopped hstop =>
    cases hstop with
    | failed => exact .of_late rfl
    | part hk =>
      refine ⟨fun hst => ?_, fun _ => ?_, fun hst => ?_⟩
      · simp [hs] at hst
      · simpa using hroom
      · simp [hs] at hst
    | unwatched hmod => exact .of_late rfl
  | refused hmod hmethod => exact .of_late rfl
  | accepted hmod hmethod hsent =>
    refine ⟨nofun, fun _ => ?_, nofun⟩
    simpa using hroom

/-- A request is waited on only while it is short. -/
theorem CommandRequest.roomy {got : List UInt8} (hw : Open w)
    (hs : w.shared.state = .waitingCommand) (hdns : w.dns = .idle)
    (hmalloc : w.ans.mallocSa = true) (hgot : (w.shared.out .server).contents = got)
    (h : CommandRequest cfg w (got.take 300) f w') : w'.Roomy := by
  cases h with
  | short hlen =>
    refine .of_command hs ?_
    rw [List.length_take] at hlen
    rw [hgot]
    omega
  | badAtyp hlen htotal hreply =>
    exact .of_late (by rcases hreply.state with hst | hst <;> simp [hst])
  | part hlen htotal hpart =>
    refine .of_command hs ?_
    rw [hgot]
    exact length_of_part htotal hpart
  | badVersion hlen htotal hcomplete hversion => exact .of_late rfl
  | run hlen htotal hcomplete hversion hrun =>
    have hstored : Open (w.commandStored (got.take 300)) := hw.setInfo rfl rfl
    cases hrun with
    | domain hatyp =>
      refine ⟨nofun, fun hst => ?_, fun _ => ?_⟩
      · rcases hst with hst | hst <;> cases hst
      · rw [World.asked_dns]
        split
        · exact nofun
        · simp [hdns]
    | noMemory hatyp hno => exact nomatch hno.symm.trans hmalloc
    | dropped hatyp hfirewall hreply =>
      exact .of_late (by rcases hreply.state with hst | hst <;> simp [hst])
    | passed hatyp hfirewall hdone =>
      refine .of_late (hdone.late ?_)
      simpa using hstored.addrStored (got.take 300)

theorem WaitingCommand.roomy (hw : Open w) (hs : w.shared.state = .waitingCommand)
    (hdns : w.dns = .idle) (hmalloc : w.ans.mallocSa = true)
    (hidle : ev.epollin = false ∨ e = .server → w.Roomy)
    (hwait : WaitingCommand cfg w e ev f w') : w'.Roomy := by
  cases hwait with
  | idle hunwanted => exact hidle hunwanted
  | resolver hret hreturned => exact .of_late (hreturned.late hw)
  | ended hret hrecv hr => exact .of_late rfl
  | @data bytes got w₁ _ _ hret hrecv hgot hrequest hne =>
    have hframe : w₁.dns = w.dns ∧ w₁.ans = w.ans := by
      obtain ⟨fds, trace, rfl⟩ := hrecv.frame
      exact ⟨rfl, rfl⟩
    refine hrequest.roomy ?_ ?_ ?_ ?_ (hrecv.queued.trans hgot.symm)
    · simpa using hrecv.open hw
    · simpa [hrecv.shared] using hs
    · simpa [hframe.1] using hdns
    · simpa [hframe.2] using hmalloc

theorem Handled.roomy (hw : Open w) (h : w.Roomy)
    (hdns : w.dns ≠ .idle → w.shared.state = .asyncDns)
    (hmalloc : w.ans.mallocSa = true) (hh : Handled cfg w e ev f w') : w'.Roomy := by
  have hlate : ∀ {K : Act → Bool}, Does K w w' → w.shared.state.early = false →
      (∀ st, st.early = true → K (.state st) = false) → w'.Roomy := fun hdoes hl hst =>
    .of_late (hdoes.late hl hst)
  cases hh with
  | still hstate => exact h
  | waitingMethods hstate hh => exact hh.roomy hw hstate h
  | sendingMethod hstate hh => exact hh.roomy hstate h
  | waitingCommand hstate hh =>
    have hidle : w.dns = .idle := not_not.mp fun hne => nomatch hstate.symm.trans (hdns hne)
    exact hh.roomy hw hstate hidle hmalloc fun _ => h
  | sendingReply hstate hh =>
    exact .of_late (hh.late (by rcases hstate with hs | hs <;> simp [hs]))
  | connecting hstate hh =>
    exact hlate hh.does (by simp [hstate]) fun st hst => by cases st <;> first | rfl | cases hst
  | bindListening hstate hh =>
    exact hlate hh.does (by simp [hstate]) fun st hst => by cases st <;> first | rfl | cases hst
  | full hstate hh =>
    exact hlate hh.does (by simp [hstate]) fun st hst => by cases st <;> first | rfl | cases hst
  | halfClose hstate => exact .of_late rfl
  | closed hstate => exact .of_late (by simp [hstate])

/-! ### Runs -/

/-- The step lemma. -/
theorem World.Roomy.stepped {i : Input} (hs : Sane w) (h : w.Roomy) (hsupplied : Supplied w i)
    (hstep : Stepped cfg w i f w') : w'.Roomy := by
  cases hstep with
  | @arrive fd bytes =>
    obtain ⟨fds, heq, -⟩ := w.arrived_interest fd bytes
    rw [heq]
    exact h.congr rfl rfl
  | finish => exact h.congr rfl rfl
  | unasked hdns => exact h
  | resolved hdns =>
    refine ⟨h.methods, h.command, fun _ hanswered => hsupplied ?_⟩
    cases hanswered
    rfl
  | unpolled => exact h
  | polled hpending hlegal => exact h.congr rfl rfl
  | waiting hpending => exact h
  | @handled ans event rest _ _ hpending hd =>
    have htaken : (w.taken rest ans).Roomy := h.congr rfl rfl
    cases hd with
    | ignored => exact htaken
    | stale hgone => exact htaken
    | masked hd hev => exact htaken
    | handled hw hd hh => exact hh.roomy hw htaken (fun hne => (hs.dns hne).2) hsupplied
    | shut hw hd =>
      have hclosed : w.shared.state = .closed := hw.state
      exact .of_late (by simp [hclosed])
    | quiet hdns => exact htaken
    | @resolver gaiRet _ _ hw hdns hh =>
      refine hh.roomy (hw.resumed gaiRet) rfl rfl hsupplied fun hidle => ?_
      rcases hidle with hin | he
      · cases hin
      · cases he

theorem newClient_roomy (fd : Int) (ss : SockAddr) (bufs : Side → OutBuff) :
    (newClient fd ss bufs).Roomy where
  methods := fun _ hcomplete => by cases hcomplete.1
  command := fun hst => by rcases hst with hst | hst <;> cases hst
  answer := fun hst => by cases hst

/-- The connection as its next handler finds it, where that one receives, is as it was. -/
theorem World.Roomy.next {ans : Answers} {v : World} (hs : Sane w) (h : w.Roomy)
    (hv : v ∈ w.next ans) (hreceives : v.Receives) :
    Open v ∧ v.Roomy := by
  rcases w.mem_next hv with rfl | ⟨gaiRet, hdns, -, rfl⟩
  · have hopen : Open w := by
      refine hs.open_of_state ?_
      rcases hreceives with hst | ⟨hst, -⟩
      · exact fun hclosed => nomatch hclosed.symm.trans hst
      · exact fun hclosed => nomatch hclosed.symm.trans hst
    exact ⟨hopen.taken _ ans, h.congr rfl rfl⟩
  · have hasync := (hs.dns (by simp [hdns])).2
    rcases hreceives with hst | ⟨-, hret⟩
    · cases hst
    · obtain rfl : gaiRet = eaiBadflags := hret
      exact absurd hdns (h.answer hasync)

/-- Room for one byte is enough: what is received fits. -/
theorem World.Roomy.hasRoom (hw : Open w) (h : w.Roomy) (hreceives : w.Receives) : w.HasRoom := by
  have hself := hw.self_client
  have hcapacity := hw.capacity .server
  have hfree : 1 ≤ (w.shared.out .server).free := by
    rw [Ring.free, hcapacity]
    rcases hreceives with hst | ⟨hst, -⟩
    · have hlen := length_of_not_methodsComplete (h.methods hst)
      rw [Ring.contents_length] at hlen
      show 1 ≤ 4096 - _
      omega
    · have hused := h.command (.inr hst)
      omega
  have hrecv : ∀ {r w₁}, recv (w.selfFd .client) (w.shared.out .server).free w = .ok r w₁ →
      Recv w (w.shared.fd .client) (w.shared.out .server).free r w₁ := by
    intro r w₁ hok
    rw [hself] at hok
    have hrule := wp_recv (w := w) (E := fun _ _ => True) fun r w' (h : Recv w (w.shared.fd .client)
      (w.shared.out .server).free r w') => h
    rwa [Lib.wp_eq_ok hok] at hrule
  refine ⟨hfree, fun w₁ hok => ?_, fun bytes w₁ hok => ?_⟩
  · rw [hself]
    cases hrecv hok with
    | zero hn => omega
    | ended hsk hempty hfin => exact ⟨_, hsk, hempty, hfin⟩
    | data hsk hinbox hne hle => exact absurd rfl hne
  · have hgot := hrecv hok
    have hw₁ := hgot.open hw
    have hfits : bytes.length ≤ (w₁.shared.out .server).free := by
      rw [hgot.shared]
      exact hgot.length_le
    have hwrite : wp (writeOut .server bytes) (fun n w₂ => n = bytes.length ∧
        (w₂.shared.out .server).contents = (w.shared.out .server).contents ++ bytes)
        (fun _ _ => False) w₁ :=
      (wp_writeOut _ hw₁.shared (hw₁.buff .server)).mpr ⟨(Ring.write_fits hfits).2, hgot.queued⟩
    obtain ⟨n, w₂, hok₂, rfl, hcontents⟩ := hwrite.returns
    exact ⟨w₂, hok₂, hcontents⟩

/-- **The handshake always has room.** In every run in which there is memory for the addresses of
requests, whatever the client sends and however it is cut, each receive of `waitingmethods` and
`waitingcommand` finds space in `server_out`, and all that it brings is stored there. -/
theorem handshake_room {fd : Int} {ss : SockAddr} {bufs : Side → OutBuff}
    {mallocs epollAdd : Bool} {w₀ v : World} {is : List Input} {ans : Answers}
    (hw₀ : acceptNewClient fd ss bufs mallocs epollAdd = some w₀)
    (hmeets : Lib.Meets (step cfg) Supplied is w₀) (hrun : Lib.run (step cfg) is w₀ = .ok () w)
    (hv : v ∈ w.next ans) (hreceives : v.Receives) : v.HasRoom := by
  have hsane := acceptNewClient_sane hw₀
  obtain ⟨-, rfl⟩ := acceptNewClient_eq hw₀
  obtain ⟨hs, -, hroomy⟩ := run_reaches hsane rfl (newClient_roomy fd ss bufs) hmeets
    (fun hs _ h hsupplied hstep => h.stepped hs hsupplied hstep) hrun
  obtain ⟨hopen, hroomy'⟩ := hroomy.next hs hv hreceives
  exact hroomy'.hasRoom hopen hreceives

end Roomy

/-- The first octet of a request, after the negotiation. -/
def requestBegins : List Input :=
  greeting 5 ++ [.arrive 5 [5], .poll [.peer 5 (some .client) epollIn]]

theorem handshake_room_request :
    ∃ w v, Lib.run (step openConfigs) requestBegins
        (newClient 5 (.inet ![4, 0] ![127, 0, 0, 1]) fun _ => .zero) = .ok () w ∧
      v ∈ w.next { Answers.idle with recv := some 1 } ∧ v.Receives ∧ v.HasRoom := by
  have haccept : acceptNewClient 5 (.inet ![4, 0] ![127, 0, 0, 1]) (fun _ => .zero) true true =
      some (newClient 5 (.inet ![4, 0] ![127, 0, 0, 1]) fun _ => .zero) := rfl
  have hmeets : Lib.Meets (step openConfigs) Supplied requestBegins
      (newClient 5 (.inet ![4, 0] ![127, 0, 0, 1]) fun _ => .zero) := by
    decide +kernel
  have hok : (Lib.run (step openConfigs) requestBegins
      (newClient 5 (.inet ![4, 0] ![127, 0, 0, 1]) fun _ => .zero)).fault? = none := by
    decide +kernel
  obtain ⟨⟨⟩, hrun⟩ := Lib.Outcome.eq_ok hok
  obtain ⟨v, hv, hreceives⟩ : ∃ v ∈ (Lib.run (step openConfigs) requestBegins
      (newClient 5 (.inet ![4, 0] ![127, 0, 0, 1]) fun _ => .zero)).state.next
        { Answers.idle with recv := some 1 }, v.Receives := by
    have hpending : (Lib.run (step openConfigs) requestBegins
        (newClient 5 (.inet ![4, 0] ![127, 0, 0, 1]) fun _ => .zero)).state.pending =
          [.peer 5 (some .client) epollIn] := by
      decide +kernel
    refine ⟨_, World.next_taken hpending _, .inr ⟨?_, ?_⟩⟩
    · decide +kernel
    · decide +kernel
  exact ⟨_, v, hrun, hv, hreceives, handshake_room haccept hmeets hrun hv hreceives⟩

end Socksprox
