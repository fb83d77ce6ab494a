import Socksprox.Run.Gate
import Socksprox.Effects

/-!
The handshake's output. `client_out` carries the method reply, the replies to the request
and then the relayed bytes; what each of these leaves behind would go out with the next.
-/

namespace Socksprox

/-! ### The states in a trace -/

def Act.state? : Act → Option State
  | .state st => some st
  | _ => none

/-- The state that a trace leads to. -/
def stateAfter (trace : List Act) : Option State := trace.reverse.findSome? Act.state?

@[simp] theorem stateAfter_concat (trace : List Act) (a : Act) :
    stateAfter (trace ++ [a]) = a.state?.or (stateAfter trace) := by
  simp only [stateAfter, List.reverse_append, List.reverse_cons, List.reverse_nil, List.nil_append,
    List.singleton_append, List.findSome?_cons]
  cases a.state? <;> rfl

/-- Replies are being sent, and a state other than `closed` follows. -/
def Leaves (before : List Act) (st : State) : Prop :=
  (stateAfter before).any State.sending = true ∧ st ≠ .closed ∧ stateAfter before ≠ some st

instance (before : List Act) (st : State) : Decidable (Leaves before st) :=
  inferInstanceAs (Decidable (_ ∧ _))

/-! ### The invariant -/

/-- What was sent to the client and what is still in its buffer is what was queued, and a
state in which replies are sent was left with nothing in the buffer. -/
structure Drained (fd : Int) (w : World) : Prop where
  self : w.selfFd .client = fd
  state : stateAfter w.trace = some w.shared.state
  queued : bytesTo fd w.trace ++ (w.shared.out .client).contents = bytesQueued .client w.trace
  left : Lib.Always (fun before a => ∀ st, a = .state st → Leaves before st →
    bytesTo fd before = bytesQueued .client before) w.trace

section Drained

variable {cfg : Configs} {fd : Int} {w w' : World}

/-- An act that sends nothing to the client, queues nothing for it and enters no state. -/
theorem Drained.emit {a : Act} (h : Drained fd w) (hstate : a.state? = none)
    (hto : a.bytesTo fd = []) (hqueued : a.bytesQueued .client = []) : Drained fd (w.emit a) where
  self := h.self
  state := by simpa [hstate] using h.state
  queued := by simpa [hto, hqueued] using h.queued
  left := by
    refine Lib.always_concat.mpr ⟨h.left, fun st hst => ?_⟩
    rw [hst] at hstate
    cases hstate

theorem Drained.congr (h : Drained fd w) (hself : w'.selfFd .client = w.selfFd .client)
    (hstate : w'.shared.state = w.shared.state)
    (hout : w'.shared.out .client = w.shared.out .client) (htrace : w'.trace = w.trace) :
    Drained fd w' where
  self := hself.trans h.self
  state := by rw [htrace, hstate, h.state]
  queued := by rw [htrace, hout, h.queued]
  left := htrace ▸ h.left

theorem Drained.setState {st : State} (h : Drained fd w) (hst : w.MayEnter st) :
    Drained fd (w.setState st) where
  self := h.self
  state := by simp [Act.state?]
  queued := by simpa [Act.bytesTo, Act.bytesQueued] using h.queued
  left := by
    refine Lib.always_concat.mpr ⟨h.left, ?_⟩
    rintro st' ⟨⟩ ⟨hsending, hopen, hnew⟩
    rw [h.state] at hsending hnew
    rcases hst hsending with rfl | rfl | hempty
    · exact absurd rfl hopen
    · exact absurd rfl hnew
    · have hqueued := h.queued
      rwa [hempty, List.append_nil] at hqueued

theorem Drained.queue {s : Side} {bytes : List UInt8} (h : Drained fd w) :
    Drained fd (w.queue s bytes) := by
  by_cases hfit : bytes.length ≤ (w.shared.out s).free
  · have htrace : (w.queue s bytes).trace = w.trace ++ [.queued s bytes] := by
      rw [World.queue_fits hfit]
      rfl
    refine ⟨by simpa using h.self, by simpa [htrace, Act.state?] using h.state, ?_, ?_⟩
    · cases s with
      | client =>
        rw [World.queue_contents hfit, htrace, ← List.append_assoc]
        simp [Act.bytesTo, Act.bytesQueued, ← h.queued]
      | server => simpa [htrace, Act.bytesTo, Act.bytesQueued] using h.queued
    · rw [htrace]
      exact Lib.always_concat.mpr ⟨h.left, fun st hst => by cases hst⟩
  · rwa [World.queue_full (Nat.lt_of_not_le hfit)]

theorem Drained.sent {s : Side} {k : Nat} (h : Drained fd w) (hw : Open w)
    (hd : w.mem (.data s) = .live) : Drained fd (w.sentTo s k) := by
  cases s with
  | client =>
    refine ⟨h.self, by simpa [Act.state?] using h.state, ?_, ?_⟩
    · simp [Act.bytesTo, Act.bytesQueued, h.self, ← h.queued]
    · exact Lib.always_concat.mpr ⟨h.left, fun st hst => by cases hst⟩
  | server =>
    have hne : w.selfFd .server ≠ fd := by
      rw [← h.self, hw.self_client, hw.self .server hd]
      exact hw.fd_ne.symm
    have hact := h.emit (a := .sent (w.selfFd .server) ((w.shared.out .server).contents.take k))
      rfl (if_neg hne) rfl
    refine hact.congr rfl rfl ?_ rfl
    simp

theorem Drained.effect (h : Drained fd w) (he : Effect True w w') : Drained fd w' := by
  cases he with
  | note a ha => cases a <;> first | exact h.emit rfl rfl rfl | cases ha
  | state st hst => exact h.setState hst
  | info info hsa hai => exact h.congr rfl rfl rfl rfl
  | address req hw => exact h.congr rfl rfl rfl rfl
  | asked => exact h.congr rfl rfl rfl rfl
  | popMod => exact h.congr rfl rfl rfl rfl
  | noted ss => exact h.congr rfl rfl rfl rfl
  | flagged s flag => exact h.congr rfl rfl rfl rfl
  | queue s bytes => exact h.queue
  | drop n => exact h.congr rfl rfl (by simp) rfl
  | received hrecv =>
    cases hrecv with
    | failed => exact h
    | zero hn => exact h
    | ended hsk hempty hfin => exact h.emit rfl rfl rfl
    | @data sk bytes rest hsk hinbox hne hle =>
      exact (h.emit (a := .recv _ bytes) rfl rfl rfl).congr rfl rfl rfl rfl
  | sent s k hw hd => exact h.sent hw hd
  | sendFailed fd => exact h.emit rfl rfl rfl
  | watched fd i hreg => exact h.congr rfl rfl rfl rfl
  | added fd i hnonblock => exact h.congr rfl rfl rfl rfl
  | opened fd nonblock hnew => exact h.congr rfl rfl rfl rfl
  | shutFd fd => exact h.congr rfl rfl rfl rfl
  | linked sfd => exact h.congr (by simp) rfl rfl rfl
  | rehomed newFd => exact h.congr (by simp) rfl rfl rfl
  | released e => exact h.congr rfl rfl rfl rfl

theorem Drained.looped (h : Drained fd w) (hl : Looped w w') : Drained fd w' := by
  cases hl with
  | outside fds hfds => exact h.congr rfl rfl rfl rfl
  | answered gaiRet ai hw hai => exact h.congr rfl rfl rfl rfl
  | polled batch => exact h.congr rfl rfl rfl rfl
  | taken rest ans => exact h.congr rfl rfl rfl rfl
  | resumed gaiRet hs =>
    have hmay : w.MayEnter .waitingCommand := by
      intro hsending
      rw [hs] at hsending
      cases hsending
    exact (h.setState hmay).congr rfl rfl rfl rfl

theorem newClient_drained (fd : Int) (ss : SockAddr) (bufs : Side → OutBuff) :
    Drained fd (newClient fd ss bufs) where
  self := rfl
  state := rfl
  queued := rfl
  left := Lib.always_concat.mpr ⟨Lib.always_nil, fun st _ hleaves => by cases hleaves.1⟩

end Drained

/-- Both buffers are empty when the relay begins. -/
theorem SendingReply.empty {w w' : World} {e : Side} {ev : Events} (hp : Phase w)
    (hs : w.shared.state.replying = true) (h : SendingReply w e ev w')
    (hnew : w.shared.state ≠ w'.shared.state)
    (hfull : w'.shared.state = .full ∨ w'.shared.state = .fullUdpa) :
    (w'.shared.out .client).contents = [] ∧ (w'.shared.out .server).contents = [] := by
  have hsent := World.sentFront_contents ((hp.reply hs).trans (by decide : 60 ≤ 300))
  have hserver : w.info.rep = repSuccess → (w.shared.out .server).contents = [] := fun hrep =>
    hp.drained (.inr (.inr ⟨hs, hrep⟩))
  cases h with
  | idle hunwanted => exact absurd rfl hnew
  | stopped h =>
    cases h with
    | failed => rcases hfull with hs | hs <;> cases hs
    | part hk => exact absurd rfl hnew
    | unwatched hmod => rcases hfull with hs | hs <;> cases hs
  | refused hmod hrep => rcases hfull with hs | hs <;> cases hs
  | connected hmod hrep hcmd => exact ⟨hsent, by simpa using hserver hrep⟩
  | listening hmod hrep hcmd hstate => rcases hfull with hs | hs <;> cases hs
  | associated hmod hrep hcmd => exact ⟨hsent, by simpa using hserver hrep⟩
  | odd hmod hrep hcmd hbind => exact absurd rfl hnew

/-- **The handshake's output is drained.** In every run, when a state in which replies are sent
is left for one other than `closed`, what was sent to the client is what was queued for it;
and when the relay is entered, both buffers are empty. -/
theorem handshake_drained {cfg : Configs} {fd : Int} {ss : SockAddr} {bufs : Side → OutBuff}
    {mallocs epollAdd : Bool} {w₀ : World}
    (hw₀ : acceptNewClient fd ss bufs mallocs epollAdd = some w₀) :
    (∀ is before st after, (Lib.run (step cfg) is w₀).state.trace = before ++ .state st :: after →
      Leaves before st → bytesTo fd before = bytesQueued .client before) ∧
    ∀ is i w w', (Lib.run (step cfg) is w₀).state = w →
      (Lib.run (step cfg) (is ++ [i]) w₀).state = w' → w.shared.state ≠ w'.shared.state →
      w'.shared.state = .full ∨ w'.shared.state = .fullUdpa →
      (w'.shared.out .client).contents = [] ∧ (w'.shared.out .server).contents = [] := by
  have hsane := acceptNewClient_sane hw₀
  obtain ⟨-, rfl⟩ := acceptNewClient_eq hw₀
  refine ⟨fun is before st after htrace hleaves => ?_, fun is i w w' hw hw' hnew hfull => ?_⟩
  · have hrun : Drained fd (Lib.run (step cfg) is (newClient fd ss bufs)).state :=
      run_invariant (C := fun _ _ => True) hsane (newClient_drained fd ss bufs)
        (Lib.meets_of_forall (fun _ _ => trivial) is _) fun hs h _ hstep =>
          hstep.keeps (fun h he => h.effect he)
            (fun h hl => h.looped hl) hs h fun _ _ _ _ _ => trivial
    exact hrun.left before _ after htrace st rfl hleaves
  · have hlast := run_transition (P := fun _ => True) (C := fun _ _ => True) hsane rfl trivial
      (Lib.meets_of_forall (fun _ _ => trivial) (is ++ [i]) _) (fun _ _ _ _ _ => trivial) hw hw'
    rcases hlast with rfl | ⟨⟨hs, -, -⟩, -, f, hstep⟩
    · exact absurd rfl hnew
    · obtain ⟨rest, ans, e, ev, htaken, hopen, hreplying, h⟩ := hstep.entered hs hfull hnew
      exact h.empty (htaken.phase hopen) hreplying hnew hfull

/-- The connection to 10.0.0.1 is there, and the client takes the reply. -/
def connectDone : List Input :=
  .poll [.peer 6 (some .server) epollOut] ::
    .handle { Answers.idle with
      soError := some 0, getsockname := some (.inet ![4, 1] ![127, 0, 0, 1]) } ::
    clientTakes 5 .idle

theorem handshake_drained_connect :
    (∃ before after, (Lib.run (step openConfigs) (literalConnect ++ connectDone)
        (newClient 5 (.inet ![4, 0] ![127, 0, 0, 1]) fun _ => .zero)).state.trace =
          before ++ .state .full :: after ∧ Leaves before .full ∧
        bytesTo 5 before = bytesQueued .client before) := by
  have haccept : acceptNewClient 5 (.inet ![4, 0] ![127, 0, 0, 1]) (fun _ => .zero) true true =
      some (newClient 5 (.inet ![4, 0] ![127, 0, 0, 1]) fun _ => .zero) := rfl
  have hleft : (Lib.run (step openConfigs) (literalConnect ++ connectDone)
      (newClient 5 (.inet ![4, 0] ![127, 0, 0, 1]) fun _ => .zero)).state.trace.getLast? =
        some (.state .full) ∧
      Leaves (Lib.run (step openConfigs) (literalConnect ++ connectDone)
        (newClient 5 (.inet ![4, 0] ![127, 0, 0, 1]) fun _ =>
          .zero)).state.trace.dropLast .full := by
    decide +kernel
  obtain ⟨before, hbefore⟩ := List.getLast?_eq_some_iff.mp hleft.1
  have hleaves := hleft.2
  rw [hbefore, List.dropLast_concat] at hleaves
  exact ⟨before, [], hbefore, hleaves, (handshake_drained haccept).1 _ before _ [] hbefore hleaves⟩

end Socksprox
