import Socksprox.Outcome.Loop

/-!
The invariant of a connection: `Sound`, and for an open connection the facts about
buffers, request and server end that go with its state (`Phase`). `Next` says what one
handler keeps of it; `Sane` is kept by every input.
-/

namespace Socksprox

open Lib (wp wp_bind wp_pure wp_pure_eq wp_get wp_modify wp_throw wp_ite wp.mono)

/-! ### What goes with a state -/

/-- The states before the request is answered or carried out. -/
@[simp] def State.early : State → Bool
  | .waitingMethods | .sendingMethod | .waitingCommand | .asyncDns => true
  | _ => false

/-- The states in which a reply to the request is on its way. -/
@[simp] def State.replying : State → Bool
  | .sendingReply | .sendingReply2 => true
  | _ => false

/-- The states that wait with an empty output buffer to the client. -/
@[simp] def State.quiet : State → Bool
  | .waitingMethods | .waitingCommand | .asyncDns | .connecting | .bindListening => true
  | _ => false

/-- The server end is set up, and the handshake's bytes are gone. -/
def World.served (w : World) : Prop :=
  w.shared.state = .connecting ∨ w.shared.state = .bindListening ∨
    w.shared.state.replying = true ∧ w.info.rep = repSuccess

structure Phase (w : World) : Prop where
  early : w.shared.state.early = true → w.info.rep = repUnset ∧ w.info.sa = none ∧
    w.info.resolverRet = -1 ∧ w.mem (.data .server) ≠ .live
  ai : w.shared.state.early = true → (∀ r, w.dns = .answered r → r ≠ 0) → w.info.ai = []
  quiet : w.shared.state.quiet = true → (w.shared.out .client).contents = []
  method : w.shared.state = .sendingMethod → (w.shared.out .client).used ≤ 2
  reply : w.shared.state.replying = true → (w.shared.out .client).used ≤ 60
  server : w.served ∨ w.shared.state = .full ∨ w.shared.state = .halfClose →
    w.mem (.data .server) = .live
  drained : w.served → (w.shared.out .server).contents = []
  connecting : w.shared.state = .connecting → w.info.cmd = cmdConn ∧ w.info.rep = repUnset
  listening : w.shared.state = .bindListening → w.info.cmd = cmdBind ∧ w.info.rep = repUnset
  second : w.shared.state = .sendingReply2 → w.info.cmd = cmdBind ∧ w.info.rep = repSuccess

section Phases

variable {w : World}

/-- The request is still awaited or being looked up. -/
theorem Phase.of_early (hs : w.shared.state.early = true)
    (hinfo : w.info.rep = repUnset ∧ w.info.sa = none ∧ w.info.resolverRet = -1 ∧
      w.mem (.data .server) ≠ .live)
    (hai : (∀ r, w.dns = .answered r → r ≠ 0) → w.info.ai = [])
    (hquiet : w.shared.state.quiet = true → (w.shared.out .client).contents = [])
    (hmethod : w.shared.state = .sendingMethod → (w.shared.out .client).used ≤ 2) : Phase w := by
  have hserved : ¬ w.served := by
    cases hst : w.shared.state <;> simp_all [World.served, State.early, State.replying]
  have hlate : ¬ (w.served ∨ w.shared.state = .full ∨ w.shared.state = .halfClose) := by
    cases hst : w.shared.state <;> simp_all [State.early]
  exact
    { early := fun _ => hinfo
      ai := fun _ => hai
      quiet := hquiet
      method := hmethod
      reply := fun hr => by cases hst : w.shared.state <;> simp_all [State.early, State.replying]
      server := fun h => absurd h hlate
      drained := fun h => absurd h hserved
      connecting := fun h => by simp [h, State.early] at hs
      listening := fun h => by simp [h, State.early] at hs
      second := fun h => by simp [h, State.early] at hs }

/-- An error reply is on its way. -/
theorem Phase.of_failing (hs : w.shared.state = .sendingReply) (hrep : w.info.rep ≠ repSuccess)
    (hlen : (w.shared.out .client).used ≤ 60) : Phase w := by
  have hserved : ¬ w.served := by simp [World.served, hs, hrep]
  constructor <;> simp [hs, State.early, State.quiet, State.replying, hserved, hlen]

/-- A success reply is on its way. -/
theorem Phase.of_success (hs : w.shared.state = .sendingReply ∨ w.shared.state = .sendingReply2)
    (hrep : w.info.rep = repSuccess) (hlen : (w.shared.out .client).used ≤ 60)
    (hserver : w.mem (.data .server) = .live) (hdrained : (w.shared.out .server).contents = [])
    (hcmd : w.shared.state = .sendingReply2 → w.info.cmd = cmdBind) : Phase w := by
  rcases hs with hs | hs
  · constructor <;> simp [hs, State.early, State.quiet, State.replying, hlen, hserver, hdrained]
  · have hcmd' := hcmd hs
    constructor <;>
      simp [hs, State.early, State.quiet, State.replying, hlen, hserver, hdrained, hcmd', hrep]

/-- The server end is awaited. -/
theorem Phase.of_waiting (hs : w.shared.state = .connecting ∧ w.info.cmd = cmdConn ∨
      w.shared.state = .bindListening ∧ w.info.cmd = cmdBind)
    (hrep : w.info.rep = repUnset) (hempty : (w.shared.out .client).contents = [])
    (hserver : w.mem (.data .server) = .live) (hdrained : (w.shared.out .server).contents = []) :
    Phase w := by
  rcases hs with ⟨hs, hcmd⟩ | ⟨hs, hcmd⟩
  · constructor <;> simp [hs, State.early, State.replying, hempty, hserver, hdrained, hcmd, hrep]
  · constructor <;> simp [hs, State.early, State.replying, hempty, hserver, hdrained, hcmd, hrep]

/-- States with nothing left to say about the handshake. -/
theorem Phase.of_late (hs : w.shared.state = .fullUdpa ∨ w.shared.state = .closed ∨
    (w.shared.state = .full ∨ w.shared.state = .halfClose) ∧ w.mem (.data .server) = .live) :
    Phase w := by
  rcases hs with hs | hs | ⟨hs | hs, hserver⟩
  · constructor <;> simp [hs, State.early, State.quiet, State.replying, World.served]
  · constructor <;> simp [hs, State.early, State.quiet, State.replying, World.served]
  · constructor <;> simp [hs, hserver, State.early, State.quiet, State.replying, World.served]
  · constructor <;> simp [hs, hserver, State.early, State.quiet, State.replying, World.served]

/-- `Phase` says nothing about descriptors, trace and batch, nor about how many resolved
addresses were tried. -/
theorem Phase.congr {w' : World} {k : Nat} (h : Phase w) (hshared : w'.shared = w.shared)
    (hinfo : w'.info = { w.info with aiIndex := k }) (hmem : w'.mem = w.mem)
    (hdns : w'.dns = w.dns) : Phase w' := by
  have hserved : w'.served ↔ w.served := by simp [World.served, hshared, hinfo]
  exact
    { early := by simpa [hshared, hinfo, hmem] using h.early
      ai := by simpa [hshared, hinfo, hdns] using h.ai
      quiet := by simpa [hshared] using h.quiet
      method := by simpa [hshared] using h.method
      reply := by simpa [hshared] using h.reply
      server := by simpa [hshared, hmem, hserved] using h.server
      drained := by simpa [hshared, hserved] using h.drained
      connecting := by simpa [hshared, hinfo] using h.connecting
      listening := by simpa [hshared, hinfo] using h.listening
      second := by simpa [hshared, hinfo] using h.second }

end Phases

/-! ### What a handler keeps -/

/-- A world inside the handler of an event for `e` that began in `w`: open, registrations
in order, no request at the resolver; the batch is as it was, and its other events still
carry a `Data` and its descriptor. -/
structure Mid (e : Side) (w w₁ : World) : Prop where
  isOpen : Open w₁
  regs : Regs w₁
  dns : w₁.dns = .idle
  pending : w₁.pending = w.pending
  self : ∀ s, w₁.selfFd s = w.selfFd s ∨ s = .server ∧ (e = .server ∨ w.mem (.data .server) ≠ .live)
  live : ∀ s, w.mem (.data s) = .live → w₁.mem (.data s) = .live

/-- The same of the world in which the handler ends. -/
structure Next (e : Side) (w w' : World) : Prop where
  conn : Open w' ∧ Phase w' ∨ Shut w'
  dns : w'.dns ≠ .idle → Open w' ∧ w'.shared.state = .asyncDns
  regs : Regs w'
  pending : w'.pending = w.pending
  self : ∀ s, w'.selfFd s = w.selfFd s ∨ s = .server ∧ (e = .server ∨ w.mem (.data .server) ≠ .live)
  live : Open w' → ∀ s, w.mem (.data s) = .live → w'.mem (.data s) = .live

/-! ### Registrations -/

section Regs

variable {w : World}

@[simp] theorem regs_emit {a : Act} : Regs (w.emit a) ↔ Regs w := Iff.rfl

@[simp] theorem regs_setState {st : State} : Regs (w.setState st) ↔ Regs w := Iff.rfl

@[simp] theorem regs_setRep {rep : UInt8} : Regs (w.setRep rep) ↔ Regs w := Iff.rfl

@[simp] theorem regs_setInfo {info : Info} : Regs (w.setInfo info) ↔ Regs w := Iff.rfl

@[simp] theorem regs_drop {s : Side} {n : Nat} : Regs (w.drop s n) ↔ Regs w := Iff.rfl

@[simp] theorem regs_popMod : Regs w.popMod ↔ Regs w := Iff.rfl

@[simp] theorem regs_noted {ss : SockAddr} : Regs (w.noted ss) ↔ Regs w := Iff.rfl

@[simp] theorem regs_flagged {s : Side} {flag : UInt8} : Regs (w.flagged s flag) ↔ Regs w := Iff.rfl

@[simp] theorem regs_queue {s : Side} {bytes : List UInt8} : Regs (w.queue s bytes) ↔ Regs w := by
  simp [Regs]

theorem Regs.congr {w' : World} (h : Regs w) (hfds : ∀ fd sk', w'.fds fd = some sk' →
    ∃ sk, w.fds fd = some sk ∧ (sk'.interest = sk.interest ∨ sk'.interest = none))
    (hself : w'.selfFd = w.selfFd) (hmem : ∀ s, w'.mem (.data s) = w.mem (.data s)) : Regs w' := by
  intro fd sk' evs e hsk' hi'
  obtain ⟨sk, hsk, hi | hi⟩ := hfds fd sk' hsk'
  · rw [hself, hmem]
    exact h fd sk evs e hsk (hi ▸ hi')
  · simp [hi] at hi'

theorem Regs.received (h : Regs w) (fd : Int) (bytes rest : List UInt8) :
    Regs (w.received fd bytes rest) := by
  refine h.congr (fun fd' sk' hsk' => ?_) rfl fun _ => rfl
  by_cases hfd : fd' = fd
  · subst hfd
    cases hsk : w.fds fd' with
    | none => simp [hsk] at hsk'
    | some sk =>
      refine ⟨sk, rfl, .inl ?_⟩
      obtain rfl : _ = sk' := by simpa [hsk] using hsk'
      rfl
  · exact ⟨sk', by simpa [hfd] using hsk', .inl rfl⟩

theorem Regs.setInterest (h : Regs w) {fd : Int} {evs : Events} {ptr : Option Side}
    (hptr : ∀ e, ptr = some e → fd = w.selfFd e ∧ w.mem (.data e) = .live) :
    Regs (w.setInterest fd (some (evs, ptr))) := by
  intro fd' sk' evs' e hsk' hi'
  by_cases hfd : fd' = fd
  · subst hfd
    cases hsk : w.fds fd' with
    | none => simp [hsk] at hsk'
    | some sk =>
      obtain rfl : _ = sk' := by simpa [hsk] using hsk'
      exact hptr e (by simpa using congrArg Prod.snd (Option.some.inj hi'))
  · exact h fd' sk' evs' e (by simpa [hfd] using hsk') hi'

theorem Regs.opened (h : Regs w) (fd : Int) (nonblock : Bool) : Regs (w.opened fd nonblock) := by
  intro fd' sk' evs e hsk' hi'
  by_cases hfd : fd' = fd
  · subst hfd
    obtain rfl : _ = sk' := by simpa using hsk'
    simp [Sock.opened] at hi'
  · exact h fd' sk' evs e (by simpa [hfd] using hsk') hi'

theorem Regs.setFd_none (h : Regs w) (fd : Int) : Regs (w.setFd fd none) := by
  refine h.congr (fun fd' sk' hsk' => ?_) rfl fun _ => rfl
  by_cases hfd : fd' = fd
  · simp [hfd] at hsk'
  · exact ⟨sk', by simpa [hfd] using hsk', .inl rfl⟩

/-- A new server end: epoll knew no old one. -/
theorem Regs.linkServer (h : Regs w) (hnone : w.mem (.data .server) ≠ .live) (sfd : Int) :
    Regs (w.linkServer sfd) := by
  intro fd sk evs e hsk hi
  obtain ⟨hfd, hlive⟩ := h fd sk evs e hsk hi
  cases e with
  | client => exact ⟨by simpa using hfd, by simpa using hlive⟩
  | server => exact absurd hlive hnone

/-- The old descriptor of the server end is closed, and no other one was known. -/
theorem Regs.rehomed (h : Regs w) (newFd : Int) : Regs (w.rehomed newFd) := by
  intro fd sk evs e hsk hi
  by_cases hfd : fd = w.selfFd .server
  · simp [hfd] at hsk
  · obtain ⟨heq, hlive⟩ := h fd sk evs e (by simpa [hfd] using hsk) hi
    cases e with
    | client => exact ⟨by simpa using heq, hlive⟩
    | server => exact absurd heq hfd

theorem Regs.released (h : Regs w) (e : Side) : Regs (w.released e) := by
  intro fd sk evs e' hsk hi
  by_cases hfd : fd = w.selfFd e
  · simp [hfd] at hsk
  · obtain ⟨heq, hlive⟩ := h fd sk evs e' (by simpa [hfd] using hsk) hi
    have hne : e' ≠ e := by
      rintro rfl
      exact hfd heq
    exact ⟨heq, by simpa [World.memFreed, hne] using hlive⟩

theorem Regs.watchSend (h : Regs w) (hw : Open w) : Regs w.watchSend := by
  refine Regs.setInterest (regs_popMod.mpr h) fun e he => ?_
  obtain rfl : Side.client = e := by simpa [hw.data_client] using he
  exact ⟨hw.self_client.symm, hw.client⟩

theorem Regs.watchRecv (h : Regs w) (hw : Open w) : Regs w.watchRecv := by
  refine Regs.setInterest (regs_popMod.mpr h) fun e he => ?_
  obtain rfl : Side.client = e := by simpa [hw.data_client] using he
  exact ⟨hw.self_client.symm, hw.client⟩

theorem Regs.recv {fd : Int} {n : Nat} {r : Option (List UInt8)} {w₁ : World} (h : Regs w)
    (hrecv : Recv w fd n r w₁) : Regs w₁ := by
  cases hrecv with
  | failed => exact h
  | zero hn => exact h
  | ended hsk hempty hfin => exact h
  | data hsk hinbox hne hle => exact h.received _ _ _

theorem Regs.modified {fd : Int} {evs : Events} {ptr : Option Side} {r : Bool} {w' : World}
    (h : Regs w) (hptr : ∀ e, ptr = some e → fd = w.selfFd e ∧ w.mem (.data e) = .live)
    (hmod : Modified w fd (evs, ptr) r w') : Regs w' := by
  cases hmod with
  | done hmod => exact Regs.setInterest (regs_popMod.mpr h) hptr
  | failed hmod => exact h

theorem Regs.added {fd : Int} {evs : Events} {ptr : Option Side} {r : Bool} {w' : World}
    (h : Regs w) (hptr : ∀ e, ptr = some e → fd = w.selfFd e ∧ w.mem (.data e) = .live)
    (hadd : Added w fd (evs, ptr) r w') : Regs w' := by
  cases hadd with
  | done hsk hi hans => exact h.setInterest hptr
  | failed hans => exact h

end Regs

/-! ### Effects inside a handler -/

/-- An error reply never carries the code for success. -/
theorem normRep_ne_success (rep : UInt8) : normRep rep ≠ repSuccess := by
  unfold normRep
  split
  · decide
  · rename_i h
    rintro rfl
    exact h (.inl (by decide))

theorem errReplied_used {w : World} : (w.errReplied.shared.out .client).used ≤
    (w.shared.out .client).used + 10 :=
  World.queue_used_le _ _ _

namespace Mid

variable {e : Side} {w w₁ : World}

theorem refl (hw : Open w) (hr : Regs w) (hdns : w.dns = .idle) : Mid e w w :=
  ⟨hw, hr, hdns, rfl, fun _ => .inl rfl, fun _ h => h⟩

variable (h : Mid e w w₁)
include h

theorem emit (a : Act) : Mid e w (w₁.emit a) :=
  ⟨open_emit.mpr h.isOpen, h.regs, h.dns, h.pending, h.self, h.live⟩

theorem setState (st : State) : Mid e w (w₁.setState st) :=
  ⟨open_setState.mpr h.isOpen, h.regs, h.dns, h.pending, h.self, h.live⟩

theorem setRep (rep : UInt8) : Mid e w (w₁.setRep rep) :=
  ⟨open_setRep.mpr h.isOpen, h.regs, h.dns, h.pending, h.self, h.live⟩

theorem setInfo {info : Info} (hsa : info.sa = w₁.info.sa) (hai : info.ai = w₁.info.ai) :
    Mid e w (w₁.setInfo info) :=
  ⟨h.isOpen.setInfo hsa hai, h.regs, h.dns, h.pending, h.self, h.live⟩

theorem popMod : Mid e w w₁.popMod :=
  ⟨open_popMod.mpr h.isOpen, h.regs, h.dns, h.pending, h.self, h.live⟩

theorem drop (s : Side) (n : Nat) : Mid e w (w₁.drop s n) :=
  ⟨open_drop.mpr h.isOpen, h.regs, h.dns, h.pending, h.self, h.live⟩

theorem noted (ss : SockAddr) : Mid e w (w₁.noted ss) :=
  ⟨h.isOpen.noted ss, h.regs, h.dns, h.pending, h.self, h.live⟩

theorem flagged (s : Side) (flag : UInt8) : Mid e w (w₁.flagged s flag) :=
  ⟨h.isOpen.flagged s flag, h.regs, h.dns, h.pending, h.self, h.live⟩

theorem queue (s : Side) (bytes : List UInt8) : Mid e w (w₁.queue s bytes) where
  isOpen := open_queue.mpr h.isOpen
  regs := regs_queue.mpr h.regs
  dns := by simpa using h.dns
  pending := by simpa using h.pending
  self := by simpa using h.self
  live := by simpa using h.live

theorem watchSend : Mid e w w₁.watchSend :=
  ⟨h.isOpen.watchSend, h.regs.watchSend h.isOpen, h.dns, h.pending, h.self, h.live⟩

theorem watchRecv : Mid e w w₁.watchRecv :=
  ⟨h.isOpen.watchRecv, h.regs.watchRecv h.isOpen, h.dns, h.pending, h.self, h.live⟩

theorem recv {fd : Int} {n : Nat} {r : Option (List UInt8)} {w₂ : World}
    (hrecv : Recv w₁ fd n r w₂) : Mid e w w₂ := by
  have hopen := hrecv.open h.isOpen
  have hregs := h.regs.recv hrecv
  obtain ⟨fds, trace, rfl⟩ := hrecv.frame
  exact ⟨hopen, hregs, h.dns, h.pending, h.self, h.live⟩

theorem opened {fd : Int} (hnew : w₁.fds fd = none) (nonblock : Bool) :
    Mid e w (w₁.opened fd nonblock) :=
  ⟨h.isOpen.opened hnew nonblock, h.regs.opened fd nonblock, h.dns, h.pending, h.self, h.live⟩

theorem setFd_none {fd : Int} (hne : fd ≠ w₁.shared.fd .client) : Mid e w (w₁.setFd fd none) :=
  ⟨h.isOpen.setFd hne none, h.regs.setFd_none fd, h.dns, h.pending, h.self, h.live⟩

theorem linkServer {sfd : Int} (hne : sfd ≠ w₁.shared.fd .client)
    (hnone : w.mem (.data .server) ≠ .live) (hnone₁ : w₁.mem (.data .server) ≠ .live) :
    Mid e w (w₁.linkServer sfd) where
  isOpen := h.isOpen.linkServer hne
  regs := h.regs.linkServer hnone₁ sfd
  dns := h.dns
  pending := h.pending
  self := by
    intro s
    cases s with
    | client => simpa using h.self .client
    | server => exact .inr ⟨rfl, .inr hnone⟩
  live := by
    intro s hs
    cases s with
    | client => simpa using h.live .client hs
    | server => simp

theorem rehomed {newFd : Int} (he : e = .server) (hne : newFd ≠ w₁.shared.fd .client)
    (hd : w₁.mem (.data .server) = .live) : Mid e w (w₁.rehomed newFd) where
  isOpen := h.isOpen.rehomed hne hd
  regs := h.regs.rehomed newFd
  dns := h.dns
  pending := h.pending
  self := by
    intro s
    cases s with
    | client => simpa using h.self .client
    | server => exact .inr ⟨rfl, .inl he⟩
  live := h.live

theorem addrStored (req : List UInt8) : Mid e w (w₁.addrStored req) where
  isOpen := h.isOpen.addrStored req
  regs := h.regs.congr (fun fd sk hsk => ⟨sk, hsk, .inl rfl⟩) rfl fun s => by simp
  dns := h.dns
  pending := h.pending
  self := h.self
  live := by simpa using h.live

theorem setInterest {fd : Int} {evs : Events} {ptr : Option Side}
    (hptr : ∀ e, ptr = some e → fd = w₁.selfFd e ∧ w₁.mem (.data e) = .live) :
    Mid e w (w₁.setInterest fd (some (evs, ptr))) :=
  ⟨h.isOpen.setInterest _ _, h.regs.setInterest hptr, h.dns, h.pending, h.self, h.live⟩

theorem modified {fd : Int} {evs : Events} {ptr : Option Side} {r : Bool} {w₂ : World}
    (hptr : ∀ e, ptr = some e → fd = w₁.selfFd e ∧ w₁.mem (.data e) = .live)
    (hmod : Modified w₁ fd (evs, ptr) r w₂) : Mid e w w₂ := by
  have hopen := hmod.open h.isOpen
  have hregs := h.regs.modified hptr hmod
  cases hmod with
  | done hmod => exact ⟨hopen, hregs, h.dns, h.pending, h.self, h.live⟩
  | failed hmod => exact ⟨hopen, hregs, h.dns, h.pending, h.self, h.live⟩

theorem added {fd : Int} {evs : Events} {ptr : Option Side} {r : Bool} {w₂ : World}
    (hptr : ∀ e, ptr = some e → fd = w₁.selfFd e ∧ w₁.mem (.data e) = .live)
    (hadd : Added w₁ fd (evs, ptr) r w₂) : Mid e w w₂ := by
  have hopen := hadd.open h.isOpen
  have hregs := h.regs.added hptr hadd
  cases hadd with
  | done hsk hi hans => exact ⟨hopen, hregs, h.dns, h.pending, h.self, h.live⟩
  | failed hans => exact ⟨hopen, hregs, h.dns, h.pending, h.self, h.live⟩

/-! ### The end of a handler -/

theorem next (hphase : Phase w₁) : Next e w w₁ :=
  ⟨.inl ⟨h.isOpen, hphase⟩, fun hdns => absurd h.dns hdns, h.regs, h.pending, h.self,
    fun _ => h.live⟩

theorem released {s : Side} (hstate : w₁.shared.state = .closed) : Next e w (w₁.released s) := by
  have hshut : Shut (w₁.released s) :=
    freedData_shut ⟨h.isOpen.fd_ne, h.isOpen.self, h.isOpen.ptr⟩ h.isOpen.shared hstate
  refine ⟨.inr hshut, fun hdns => absurd h.dns hdns, h.regs.released s, h.pending, h.self, ?_⟩
  intro hopen
  simpa using hopen.infoPtr

theorem hungUp (s : Side) : Next e w (w₁.hungUp s) := (h.setState .closed).released rfl

theorem replyLost {s : Side} {w' : World} (hlost : ReplyLost w₁ s w') : Next e w w' := by
  cases hlost with
  | noRoom hroom => exact (h.setRep _).hungUp s
  | unwatched hroom hmod => exact ((h.setRep _).queue _ _).popMod.hungUp s

theorem errReplied : Mid e w w₁.errReplied := (((h.setRep _).queue _ _).watchSend).setState _

theorem replyWithErr {s : Side} {w' : World}
    (hlen : (w₁.shared.out .client).used ≤ 50) (hr : ReplyWithErr w₁ s w') :
    Next e w w' := by
  cases hr with
  | lost hlost => exact h.replyLost hlost
  | replied hroom hmod =>
    have hrep : w₁.errReplied.info.rep = normRep w₁.info.rep := by simp [World.errReplied]
    refine h.errReplied.next (Phase.of_failing rfl (hrep ▸ normRep_ne_success _) ?_)
    have hused := errReplied_used (w := w₁)
    omega

end Mid

end Socksprox
