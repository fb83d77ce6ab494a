import Socksprox.Replies
import Socksprox.Run.Parsing
import Mathlib.Data.List.TakeWhile

/-!
The attempts to connect. What SO_ERROR says of an attempt is a code, and `connecting` tests it
bit by bit; the addresses of a resolved list are tried one by one, each from an event of its
own.
-/

namespace Socksprox

/-! ### The code of a failed attempt -/

/-- The reply code that the errors of a connection attempt stand for. -/
def failureRep (error : BitVec 32) : UInt8 :=
  if error = enetunreach then repNunrech
  else if error = ehostunreach then repHunrech
  else if error = etimedout then repTtlexpr
  else if error = econnrefused then repRefused
  else repGenfail

/-- The bits of the four errors. -/
def errorBits : BitVec 32 := 127

section Codes

variable {error : BitVec 32}

/-- The tests see no other bits. -/
theorem connectRep_bits (error : BitVec 32) :
    connectRep (error &&& errorBits) = connectRep error := by
  have hmask : ∀ code, errorBits &&& code = code →
      error &&& errorBits &&& code = error &&& code := by
    intro code hcode
    rw [BitVec.and_assoc, hcode]
  unfold connectRep
  rw [hmask enetunreach (by decide), hmask ehostunreach (by decide), hmask etimedout (by decide),
    hmask econnrefused (by decide)]

/-- Every bit belongs to one of the four. -/
theorem connectRep_genfail : connectRep error = repGenfail ↔ error &&& errorBits = 0 := by
  have hsmall : ∀ n : Fin 128,
      connectRep (BitVec.ofNat 32 n) = repGenfail ↔ BitVec.ofNat 32 n = 0 := by
    decide +kernel
  have hlt : (error &&& errorBits).toNat < 128 :=
    lt_of_le_of_lt Nat.and_le_right (by decide)
  have hbits := hsmall ⟨_, hlt⟩
  rwa [BitVec.ofNat_toNat, BitVec.setWidth_eq, connectRep_bits] at hbits

theorem connectRep_eq_iff :
    connectRep error = failureRep error ↔ error = enetunreach ∨ error &&& errorBits = 0 := by
  rw [← connectRep_genfail]
  constructor
  · intro heq
    unfold failureRep at heq
    -- the other three errors share a bit with an earlier test
    split at heq
    · rename_i hnet
      exact .inl hnet
    · split at heq
      · rename_i hhost
        subst hhost
        exact absurd heq (by decide)
      · split at heq
        · rename_i htime
          subst htime
          exact absurd heq (by decide)
        · split at heq
          · rename_i hrefused
            subst hrefused
            exact absurd heq (by decide)
          · exact .inr heq
  · rintro (rfl | hgen)
    · rfl
    · rw [hgen]
      unfold failureRep
      split
      · rename_i hnet
        subst hnet
        exact absurd hgen (by decide)
      · split
        · rename_i hhost
          subst hhost
          exact absurd hgen (by decide)
        · split
          · rename_i htime
            subst htime
            exact absurd hgen (by decide)
          · split
            · rename_i hrefused
              subst hrefused
              exact absurd hgen (by decide)
            · rfl

/-- `reply_with_err` sends the code as it is. -/
theorem normRep_connectRep (error : BitVec 32) : normRep (connectRep error) = connectRep error := by
  unfold connectRep
  split
  · rfl
  · split
    · rfl
    · split
      · rfl
      · split <;> rfl

end Codes

section Failed

variable {cfg : Configs} {w w' : World} {e : Side} {ev : Events} {error : BitVec 32}

theorem ReplyWithErr.chunks (hroom : 10 ≤ (w.shared.out .client).free)
    (h : ReplyWithErr w e w') : w'.chunks = w.chunks ++ [errReply (normRep w.info.rep)] := by
  cases h with
  | replied _ hmod => exact errReplied_chunks hroom
  | lost h =>
    cases h with
    | noRoom hno => omega
    | unwatched _ hmod =>
      rw [World.chunks_hungUp, World.chunks_popMod, World.chunks_queue]
      · rfl
      · exact hroom

theorem Connecting.of_error (hso : w.ans.soError = some error) (herr : error ≠ 0)
    (hout : ev.epollout = true) (h : Connecting w .server ev w') : ConnectFailed w error w' := by
  have hother : ∀ {r : Option (BitVec 32)}, w.ans.soError = r → r ≠ some error → False := by
    intro r hr hne
    exact hne (hr.symm.trans hso)
  have hzero : ∀ {P : Prop}, w.ans.soError = some 0 → P := by
    intro P hr
    exact (hother hr (by simpa using herr.symm)).elim
  cases h with
  | idle hidle => simp [hout] at hidle
  | unknown hnone h => exact (hother hnone (by simp)).elim
  | failed hsome _ h =>
    rw [hso, Option.some.injEq] at hsome
    exact hsome ▸ h
  | unnamed hr hname h => exact hzero hr
  | oddFamily hr hname haddr h => exact hzero hr
  | unanswered hr hname haddr hreply h => exact hzero hr
  | unwatched hr hname haddr hreply hmod h => exact hzero hr
  | connected hr hname haddr hreply hmod => exact hzero hr

/-- What the event that reports the failure comes to. -/
theorem Sane.connectFailed {fd : Int} {ans : Answers} {rest : List Event} (hsane : Sane w)
    (hs : w.shared.state = .connecting) (hpending : w.pending = .peer fd (some .server) ev :: rest)
    (hout : ev.epollout = true) (hso : ans.soError = some error) (herr : error ≠ 0) :
    ConnectFailed (w.taken rest ans) error (step cfg (.handle ans) w).state := by
  have hw := hsane.open_of_state (by simp [hs])
  obtain ⟨f, hstep⟩ : ∃ f, Stepped cfg w (.handle ans) f (step cfg (.handle ans) w).state :=
    step_stepped hsane _
  have hlive := (hsane.pend fd .server ev (by simp [hpending])).2 hw
  have hh := (hstep.peer hw hpending hlive (by simp [hout])).handlerOf
  rw [show (w.taken rest ans).shared.state = .connecting from hs] at hh
  exact Connecting.of_error (w := w.taken rest ans) hso herr hout hh.2

/-- With no address left the error is answered. -/
theorem ConnectFailed.chunks (hroom : 10 ≤ (w.shared.out .client).free)
    (hlast : w.info.ai[w.info.aiIndex + 1]? = none) (h : ConnectFailed w error w') :
    w'.chunks = w.chunks ++ [errReply (connectRep error)] := by
  have hreply : ∀ {w₁}, ReplyWithErr w₁ .server w' → w₁.chunks = w.chunks →
      w₁.info.rep = connectRep error → w₁.shared.out .client = w.shared.out .client →
      w'.chunks = w.chunks ++ [errReply (connectRep error)] := by
    intro w₁ hr hchunks hrep hout
    rw [hr.chunks (by rw [hout]; exact hroom), hchunks, hrep, normRep_connectRep]
  cases h with
  | retry hlen hget => simp [hlast] at hget
  | exhausted hlen hget h => exact hreply h rfl rfl rfl
  | single hlen h => exact hreply h rfl rfl rfl

end Failed

/-- **Only ENETUNREACH is answered with its own code.** A connection attempt that failed with
`error`, no address being left, is answered with the code that the error stands for if and only
if it is ENETUNREACH or shares no bit with the four errors: each of the others is taken for an
earlier one. -/
theorem failure_classified_iff {cfg : Configs} {fd sfd : Int} {w : World} {ans : Answers}
    {ev : Events} {rest : List Event} {error : BitVec 32} (hreached : Reached cfg fd w)
    (hs : w.shared.state = .connecting)
    (hpending : w.pending = .peer sfd (some .server) ev :: rest) (hout : ev.epollout = true)
    (hso : ans.soError = some error) (herr : error ≠ 0)
    (hlast : w.info.ai[w.info.aiIndex + 1]? = none) :
    (step cfg (.handle ans) w).state.chunks = w.chunks ++ [errReply (failureRep error)] ↔
      error = enetunreach ∨ error &&& errorBits = 0 := by
  obtain ⟨hsane, -, -⟩ := hreached.gated
  have hw := hsane.open_of_state (by simp [hs])
  have hfailed : ConnectFailed (w.taken rest ans) error (step cfg (.handle ans) w).state :=
    hsane.connectFailed hs hpending hout hso herr
  have hempty := (hsane.phase hw).quiet (by simp [hs])
  have hroom : 10 ≤ (w.shared.out .client).free := by
    rw [World.free_of_open _ hw, Ring.contents_eq_nil.mp hempty]
    decide
  have hchunks : (step cfg (.handle ans) w).state.chunks =
    w.chunks ++ [errReply (connectRep error)] :=
    ConnectFailed.chunks (w := w.taken rest ans) hroom hlast hfailed
  rw [hchunks, ← connectRep_eq_iff]
  simp [errReply]

/-- A CONNECT to 10.0.0.1 whose attempt has ended. -/
def attemptEnded : World :=
  (Lib.run (step openConfigs) (literalConnect ++ [.poll [.peer 6 (some .server) epollOut]])
    (newClient 5 (.inet ![4, 0] ![127, 0, 0, 1]) fun _ => .zero)).state

theorem attemptEnded_reached : Reached openConfigs 5 attemptEnded := by
  have hfault : (Lib.run (step openConfigs)
      (literalConnect ++ [.poll [.peer 6 (some .server) epollOut]])
      (newClient 5 (.inet ![4, 0] ![127, 0, 0, 1]) fun _ => .zero)).fault? = none := by
    decide +kernel
  obtain ⟨⟨⟩, hok⟩ := Lib.Outcome.eq_ok hfault
  exact ⟨.inet ![4, 0] ![127, 0, 0, 1], fun _ => .zero, true, true, _, _, rfl, hok⟩

theorem failure_classified_unreachable :
    (step openConfigs (.handle { Answers.idle with soError := some enetunreach })
      attemptEnded).state.chunks = attemptEnded.chunks ++ [errReply (failureRep enetunreach)] := by
  have hs : attemptEnded.shared.state = .connecting := by decide +kernel
  have hpending : attemptEnded.pending = [.peer 6 (some .server) epollOut] := by decide +kernel
  have hlast : attemptEnded.info.ai[attemptEnded.info.aiIndex + 1]? = none := by decide +kernel
  exact (failure_classified_iff attemptEnded_reached hs hpending rfl rfl (by decide) hlast).mpr
    (.inl rfl)

/-- A refused connection is answered as an unreachable network. -/
theorem refused_misclassified :
    ¬ ∀ (cfg : Configs) (fd sfd : Int) (w : World) (ans : Answers) (ev : Events)
      (rest : List Event) (error : BitVec 32), Reached cfg fd w → w.shared.state = .connecting →
        w.pending = .peer sfd (some .server) ev :: rest → ev.epollout = true →
        ans.soError = some error → error ≠ 0 → w.info.ai[w.info.aiIndex + 1]? = none →
          (step cfg (.handle ans) w).state.chunks = w.chunks ++ [errReply (failureRep error)] := by
  intro h
  have hs : attemptEnded.shared.state = .connecting := by decide +kernel
  have hpending : attemptEnded.pending = [.peer 6 (some .server) epollOut] := by decide +kernel
  have hlast : attemptEnded.info.ai[attemptEnded.info.aiIndex + 1]? = none := by decide +kernel
  have hchunks := h _ _ _ _ { Answers.idle with soError := some econnrefused } _ _ _
    attemptEnded_reached hs hpending rfl rfl (by decide) hlast
  exact absurd hchunks (by decide +kernel)

/-! ### The addresses of a list -/

/-- How an attempt to connect ends: `connect` fails at once, SO_ERROR reports a failure later, or
the connection is there. -/
inductive Attempt where
  | refused
  | failed (error : BitVec 32) (hne : error ≠ 0)
  | connected
  deriving DecidableEq

/-- What SO_ERROR says after the attempt. -/
def Attempt.soError : Attempt → BitVec 32
  | .failed error _ => error
  | _ => 0

def Act.attempted? : Act → Option SockAddr
  | .connect _ dst => some dst
  | _ => none

namespace World

variable (w : World)

/-- The addresses that were attempted. -/
def attempts : List SockAddr := w.trace.filterMap Act.attempted?

/-- What was queued to the client before the relay. -/
def replies : List (List UInt8) :=
  (w.trace.takeWhile fun a => decide (a ≠ .state .full)).filterMap Act.chunk?

theorem attempts_emit (a : Act) : (w.emit a).attempts = w.attempts ++ a.attempted?.toList := by
  rw [attempts, emit_trace, List.filterMap_append]
  cases h : a.attempted? <;> simp [attempts, h]

end World

/-- The kernel answers as the attempts end, and other calls succeed. -/
structure AnswersAs (o : Nat → Attempt) (w : World) (ans : Answers) : Prop where
  errno : o w.attempts.length ≠ .refused ↔
    ans.connectErrno = 0 ∨ ans.connectErrno = eagain ∨ ans.connectErrno = einprogress
  soError : ∀ k, w.attempts.length = k + 1 → ans.soError = some (o k).soError
  socket : ∃ fd, ans.socket = some fd ∧ w.newFd fd = true
  mallocData : ans.mallocData = true
  epollAdd : ans.epollAdd = true
  epollMod : ∀ b ∈ ans.epollMod, b = true
  getsockname : ∃ ss, ans.getsockname = some ss ∧ IpFamily ss.family

instance (af : Nat) : Decidable (IpFamily af) := inferInstanceAs (Decidable (_ ∨ _))

instance (o : Nat → Attempt) (w : World) (ans : Answers) : Decidable (AnswersAs o w ans) :=
  decidable_of_iff
    ((o w.attempts.length ≠ .refused ↔ ans.connectErrno = 0 ∨ ans.connectErrno = eagain ∨
        ans.connectErrno = einprogress) ∧
      (∀ k < w.attempts.length, w.attempts.length = k + 1 → ans.soError = some (o k).soError) ∧
      ans.socket.any w.newFd = true ∧ ans.mallocData = true ∧ ans.epollAdd = true ∧
      (∀ b ∈ ans.epollMod, b = true) ∧ ∃ ss ∈ ans.getsockname, IpFamily ss.family)
    ⟨fun ⟨h₁, h₂, h₃, h₄, h₅, h₆, h₇⟩ =>
      ⟨h₁, fun k hk => h₂ k (by omega) hk, by simpa [Option.any_eq_true] using h₃, h₄, h₅, h₆, h₇⟩,
    fun h => ⟨h.errno, fun k _ => h.soError k, by simpa [Option.any_eq_true] using h.socket,
      h.mallocData, h.epollAdd, h.epollMod, h.getsockname⟩⟩

/-- The condition on the steps of a run: the attempts end as `o` says. -/
def AttemptsEnd (o : Nat → Attempt) (w : World) : Input → Prop
  | .handle ans => w.shared.state = .asyncDns ∨ w.shared.state = .connecting → AnswersAs o w ans
  | _ => True

instance (o : Nat → Attempt) (w : World) (i : Input) : Decidable (AttemptsEnd o w i) :=
  match i with
  | .handle ans => inferInstanceAs (Decidable (w.shared.state = .asyncDns ∨
      w.shared.state = .connecting → AnswersAs o w ans))
  | .arrive _ _ | .finish _ | .resolved _ _ | .poll _ => .isTrue trivial

/-- The addresses are attempted in order until one succeeds, a success reply means that the last
attempt did, and an error reply that none did. The attempts are over when one succeeded or none of
the addresses did, and not before. -/
structure FallsBack (o : Nat → Attempt) (w : World) : Prop where
  inOrder : w.attempts <+: w.info.ai.map AddrInfo.aiAddr
  untilOne : ∀ k, k + 1 < w.attempts.length → o k ≠ .connected
  success : successHead ∈ w.replies → ∃ k, w.attempts.length = k + 1 ∧ o k = .connected
  error : ∀ rep, errReply rep ∈ w.replies →
    w.attempts.length = w.info.ai.length ∧ ∀ k < w.info.ai.length, o k ≠ .connected
  ended : w.shared.state ≠ .connecting → (∃ k, w.attempts.length = k + 1 ∧ o k = .connected) ∨
    w.attempts.length = w.info.ai.length ∧ ∀ k < w.info.ai.length, o k ≠ .connected

/-- The event that reports the failure of an attempt makes the attempt at the next address, when
there is one. -/
def Onward (cfg : Configs) (o : Nat → Attempt) (w : World) : Prop :=
  ∀ (ans : Answers) (fd : Int) (ev : Events) (rest : List Event) (k : Nat) (error : BitVec 32)
    (hne : error ≠ 0), w.shared.state = .connecting → w.attempts.length = k + 1 →
    o k = .failed error hne → k + 1 < w.info.ai.length →
    w.pending = .peer fd (some .server) ev :: rest → ev.epollout = true → AnswersAs o w ans →
      (step cfg (.handle ans) w).state.attempts = (w.info.ai.take (k + 2)).map AddrInfo.aiAddr

/-- No attempt that is made fails at once, but for the only one. -/
def NoneRefused (o : Nat → Attempt) (n : Nat) : Prop :=
  n = 1 ∨ ∀ k < n, (∀ j < k, ∃ error hne, o j = .failed error hne) → o k ≠ .refused

/-- Acts that come before `init_connect` is called. -/
def Act.isBefore : Act → Bool
  | .connect .. | .invoked .connect => false
  | .queued .client bytes => bytes.length == 2
  | _ => true

/-- Acts other than the call of `init_connect`. -/
def Act.isUncalled : Act → Bool
  | .invoked .connect => false
  | _ => true

/-- The attempt at the current address is under way, and those before it failed. -/
structure World.Trying (o : Nat → Attempt) (w : World) : Prop where
  attempts : w.attempts = (w.info.ai.take (w.info.aiIndex + 1)).map AddrInfo.aiAddr
  index : w.info.aiIndex < w.info.ai.length
  before : ∀ j < w.info.aiIndex, ∃ error hne, o j = .failed error hne
  current : o w.info.aiIndex ≠ .refused
  unanswered : ∀ b ∈ w.chunks, b.length = 2
  registered : w.Registered (w.shared.fd .server)

/-- The invariant, for a CONNECT to a list of addresses. -/
structure World.Falling (o : Nat → Attempt) (w : World) : Prop where
  early : w.shared.state.early = true → ∀ a ∈ w.trace, a.isBefore = true
  cmd : .invoked .connect ∈ w.trace → w.info.cmd = cmdConn ∧ w.shared.state.early = false
  dialing : w.shared.state = .connecting → w.info.ai ≠ [] → NoneRefused o w.info.ai.length →
    w.Trying o
  done : .invoked .connect ∈ w.trace → w.shared.state ≠ .connecting → w.info.ai ≠ [] →
    NoneRefused o w.info.ai.length → FallsBack o w
  relay : w.shared.state = .full → .state .full ∈ w.trace

section Lists

variable {cfg : Configs} {o : Nat → Attempt} {w w₁ w' : World} {e : Side} {ev : Events}
  {f : Option Fault}

/-! ### Histories -/

theorem Adds.attempts {K : Act → Bool} (h : Adds K w w')
    (hK : ∀ fd dst, K (.connect fd dst) = false) :
    w'.attempts = w.attempts := by
  refine h.filterMap fun a ha => ?_
  cases a with
  | connect fd dst => simp [hK] at ha
  | _ => rfl

theorem World.replies_subset (w : World) : w.replies ⊆ w.chunks := by
  refine List.Sublist.subset ?_
  exact (List.takeWhile_sublist _).filterMap _

/-- What is done without a reply, or after the relay began, replies nothing. -/
theorem Adds.replies {K : Act → Bool} (h : Adds K w w')
    (hK : (∀ bytes, K (.queued .client bytes) = false) ∨ .state .full ∈ w.trace) :
    w'.replies = w.replies := by
  obtain ⟨acts, htrace, hacts⟩ := h
  rw [World.replies, World.replies, htrace, List.takeWhile_append]
  split
  · rename_i hall
    have hself := (List.takeWhile_prefix _).eq_of_length hall
    rcases hK with hK | hfull
    · have hnil : (acts.takeWhile fun a =>
        decide (a ≠ .state .full)).filterMap Act.chunk? = [] := by
        refine List.filterMap_eq_nil_iff.mpr fun a ha => ?_
        have hin := hacts a ((List.takeWhile_sublist _).subset ha)
        unfold Act.chunk?
        split
        · rw [hK] at hin
          cases hin
        · rfl
      rw [List.filterMap_append, hnil, List.append_nil, hself]
    · have hbefore := List.takeWhile_eq_self_iff.mp hself _ hfull
      simp at hbefore
  · rfl

theorem FallsBack.congr (h : FallsBack o w) (hs : w.shared.state ≠ .connecting)
    (hattempts : w'.attempts = w.attempts) (hreplies : w'.replies = w.replies)
    (hai : w'.info.ai = w.info.ai) : FallsBack o w' := by
  refine ⟨?_, ?_, ?_, ?_, fun _ => ?_⟩
  · rw [hattempts, hai]
    exact h.inOrder
  · rw [hattempts]
    exact h.untilOne
  · rw [hattempts, hreplies]
    exact h.success
  · rw [hattempts, hreplies, hai]
    exact h.error
  · rw [hattempts, hai]
    exact h.ended hs

/-- Where the command was not called there is nothing to show. -/
theorem World.Falling.of_uncalled (hlate : w.shared.state.early = false)
    (hcalled : .invoked .connect ∉ w.trace) (hs : w.shared.state ≠ .connecting)
    (hfull : w.shared.state ≠ .full) : w.Falling o where
  early h := absurd h (Bool.eq_false_iff.mp hlate)
  cmd h := absurd h hcalled
  dialing h := absurd h hs
  done h := absurd h hcalled
  relay h := absurd h hfull

/-- Nor where there is no list. -/
theorem World.Falling.of_noList (hlate : w.shared.state.early = false)
    (hcmd : .invoked .connect ∈ w.trace → w.info.cmd = cmdConn) (hai : w.info.ai = [])
    (hfull : w.shared.state ≠ .full) : w.Falling o where
  early h := absurd h (Bool.eq_false_iff.mp hlate)
  cmd h := ⟨hcmd h, hlate⟩
  dialing _ h := absurd hai h
  done _ _ h := absurd hai h
  relay h := absurd h hfull

/-- Nothing was called yet. -/
theorem uncalled_of_before (h : ∀ a ∈ w.trace, a.isBefore = true) : .invoked .connect ∉ w.trace :=
  fun hin => by simpa [Act.isBefore] using h _ hin

theorem attempts_of_before (h : ∀ a ∈ w.trace, a.isBefore = true) : w.attempts = [] := by
  refine List.filterMap_eq_nil_iff.mpr fun a ha => ?_
  have hin := h a ha
  cases a with
  | connect fd dst => simp [Act.isBefore] at hin
  | _ => rfl

theorem chunks_of_before (h : ∀ a ∈ w.trace, a.isBefore = true) : ∀ b ∈ w.chunks, b.length = 2 := by
  intro b hb
  obtain ⟨a, ha, hchunk⟩ := List.mem_filterMap.mp hb
  have hin := h a ha
  unfold Act.chunk? at hchunk
  split at hchunk
  · obtain rfl := Option.some.inj hchunk
    simpa [Act.isBefore] using hin
  · cases hchunk

/-- A state before the command is called in. -/
theorem World.Falling.of_early (hs : w.shared.state.early = true)
    (h : ∀ a ∈ w.trace, a.isBefore = true) : w.Falling o where
  early _ := h
  cmd hin := absurd hin (uncalled_of_before h)
  dialing hst := by simp [hst] at hs
  done hin := absurd hin (uncalled_of_before h)
  relay hst := by simp [hst] at hs

/-! ### The first address -/

/-- A list is about to be tried. -/
structure World.Listed (o : Nat → Attempt) (w : World) : Prop where
  before : ∀ a ∈ w.trace, a.isBefore = true
  sa : w.info.sa = none
  rep : w.info.rep = repUnset
  answers : AnswersAs o w w.ans
  room : 10 ≤ (w.shared.out .client).free

theorem FirstAttempt.of_list {a : AddrInfo} {rest : List AddrInfo} {r : Option Int}
    (hsa : w.info.sa = none) (hai : w.info.ai = a :: rest) (h : FirstAttempt w r w') :
    (r = none ∧ OpenConnect w a.aiAddr none w') ∨
      ∃ sfd w₁, r = some sfd ∧ OpenConnect w a.aiAddr (some sfd) w₁ ∧
        w' = w₁.setInfo { w₁.info with aiIndex := 0 } := by
  cases h with
  | unsupported hsa' => simp [hsa] at hsa'
  | literal hsa' h hip => simp [hsa] at hsa'
  | resolvedFailed hsa' hai' h =>
    obtain ⟨rfl, rfl⟩ := List.cons.inj (hai.symm.trans hai')
    exact .inl ⟨rfl, h⟩
  | resolved hsa' hai' h =>
    obtain ⟨rfl, rfl⟩ := List.cons.inj (hai.symm.trans hai')
    exact .inr ⟨_, _, rfl, h, rfl⟩

/-- The first attempt fails at once, or it is under way. -/
theorem InitConnect.of_list {a : AddrInfo} {rest : List AddrInfo} (hl : w.Listed o)
    (hai : w.info.ai = a :: rest) (h : InitConnect w w') :
    (o 0 = .refused ∧ w'.attempts = [a.aiAddr] ∧
        w'.shared.out .client = w.shared.out .client ∧ w'.info.rep = repGenfail) ∨
      (w'.Trying o ∧ w'.shared.state = .connecting ∧ w'.info.rep = repUnset) := by
  have hnone := attempts_of_before hl.before
  have hzero : w.attempts.length = 0 := by rw [hnone, List.length_nil]
  have herrno := hl.answers.errno
  rw [hzero] at herrno
  obtain ⟨fd, hfd, hnewFd⟩ := hl.answers.socket
  have hsock : w.socketFd ≠ none := by
    simp [World.socketFd, hfd, Option.filter, hnewFd]
  have hstarted : ∀ {sfd w₁}, OpenConnect (w.emit (.invoked .connect)) a.aiAddr (some sfd) w₁ →
      o 0 ≠ .refused ∧ w₁ = ((w.emit (.invoked .connect)).opened sfd true).emit
        (.connect sfd a.aiAddr) := by
    intro sfd w₁ ho
    cases ho with
    | started hans hpos hnew hok => exact ⟨herrno.mpr hok, rfl⟩
  cases h with
  | noAddr hnil hsa => simp [hai] at hnil
  | notOpened h =>
    obtain ⟨-, ho⟩ | ⟨sfd, w₁, hr, -⟩ := h.of_list (w := w.emit (.invoked .connect)) hl.sa hai
    · cases ho with
      | noSocket hno => exact absurd hno hsock
      | refused hans hpos hnew herr =>
        refine .inl ⟨?_, ?_, rfl, rfl⟩
        · by_contra hne
          rcases herrno.mp hne with heq | heq | heq
          · exact herr.1 heq
          · exact herr.2.1 heq
          · exact herr.2.2 heq
        · show ((w.emit (.invoked .connect)).emit (.connect _ a.aiAddr)).attempts = _
          rw [World.attempts_emit, World.attempts_emit, hnone]
          rfl
    · cases hr
  | noMemory h hmalloc =>
    have hok := hl.answers.mallocData
    simp [hok] at hmalloc
  | @unwatched sfd w₁ h hmalloc hadd =>
    obtain ⟨hr, -⟩ | ⟨sfd', w₂, hr, ho, rfl⟩ :=
      h.of_list (w := w.emit (.invoked .connect)) hl.sa hai
    · cases hr
    cases hr
    obtain ⟨-, rfl⟩ := hstarted ho
    have hno := hadd { Sock.opened with nonblock := true } (by simp) rfl
    have hok := hl.answers.epollAdd
    simp [hok] at hno
  | @connecting sfd w₁ h hmalloc hadd hopen =>
    obtain ⟨hr, -⟩ | ⟨sfd', w₂, hr, ho, rfl⟩ :=
      h.of_list (w := w.emit (.invoked .connect)) hl.sa hai
    · cases hr
    cases hr
    obtain ⟨hne, rfl⟩ := hstarted ho
    refine .inr ⟨?_, rfl, hl.rep⟩
    exact
      { attempts := by
          show (((w.emit (.invoked .connect)).emit (.connect sfd a.aiAddr)).emit
            (.state .connecting)).attempts = (w.info.ai.take 1).map AddrInfo.aiAddr
          rw [World.attempts_emit, World.attempts_emit, World.attempts_emit, hnone, hai]
          rfl
        index := by simp [hai]
        before := fun j hj => by simp at hj
        current := hne
        unanswered := by
          have hchunks := chunks_of_before hl.before
          simpa [World.chunks, Act.chunk?] using hchunks
        registered := by simp [World.Registered] }

theorem Does.ai {K : Act → Bool} (h : Does K w w') : w'.info.ai = w.info.ai :=
  congrArg (fun r : UInt8 × UInt8 × UInt8 × Int × List AddrInfo × Option SockAddr => r.2.2.2.2.1)
    h.request

theorem Does.cmd {K : Act → Bool} (h : Does K w w') : w'.info.cmd = w.info.cmd :=
  congrArg (fun r : UInt8 × UInt8 × UInt8 × Int × List AddrInfo × Option SockAddr => r.2.1)
    h.request

/-- The error reply to a list of one address. -/
theorem FallsBack.of_refused {a : AddrInfo} (hai : w.info.ai = [a]) (hrefused : o 0 = .refused)
    (hattempts : w.attempts = [a.aiAddr]) (hchunks : successHead ∉ w.chunks) : FallsBack o w where
  inOrder := by simp [hattempts, hai]
  untilOne k hk := by simp [hattempts] at hk
  success h := absurd (w.replies_subset h) hchunks
  error rep _ := ⟨by simp [hattempts, hai], by simp [hai, hrefused]⟩
  ended _ := .inr ⟨by simp [hattempts, hai], by simp [hai, hrefused]⟩

theorem successHead_notMem {chunks : List (List UInt8)} (h : ∀ b ∈ chunks, b.length = 2) :
    successHead ∉ chunks :=
  fun hin => absurd (h _ hin) (by decide)

/-- A command that is over, or a list of which the first address is tried. -/
theorem CommandDone.falling {ob : Obj} (hw : Open w) (hcalled : .invoked .connect ∉ w.trace)
    (hlist : w.info.ai ≠ [] → w.Listed o) (h : CommandDone cfg w ob f w') : w'.Falling o := by
  have hstate := h.state hw
  have hlate := h.late hw
  have hfull : w'.shared.state ≠ .full := by
    rcases hstate with hs | hs | hs <;> simp [hs]
  have hover : ∀ {K : Act → Bool}, Adds K w w' → K (.invoked .connect) = false →
      w'.shared.state = .sendingReply ∨ w'.shared.state = .closed → w'.Falling o := by
    intro K hadds hK hs
    refine .of_uncalled hlate (fun hin => hcalled (hadds.mem_trace hK hin)) ?_ hfull
    rcases hs with hs | hs <;> simp [hs]
  have hlisten : ∀ {g w₁}, g ≠ .connect → InitListen cfg g w w₁ →
      Adds Act.isUncalled w w₁ := by
    intro g w₁ hg hi
    have hcall : Adds Act.isUncalled w (w.emit (.invoked g)) :=
      (Adds.refl w).emit _ (by cases g <;> simp_all [Act.isUncalled])
    exact hcall.trans (.of_does hi.does fun a ha =>
      by cases a <;> simp_all [Act.isError, Act.isUncalled])
  have hlistened : ∀ {g w₁}, InitListen cfg g w w₁ →
      (w₁.info.rep = repUnset ∨ w₁.info.rep = repSuccess) → w₁.shared.state = .sendingReply := by
    intro g w₁ hi hrep
    rcases hi.done hw with hbad | ⟨hs, -⟩
    · rcases hbad with hbad | hbad <;> rw [hbad] at hrep <;> exact absurd hrep (by decide)
    · exact hs
  have herror : ∀ a, Act.isError a = true → Act.isUncalled a = true := fun a ha => by
    cases a <;> simp_all [Act.isError, Act.isUncalled]
  have hset : Does Act.isError w (w.setRep repBadcomm) := (Does.refl w).setRep _
  cases h with
  | refusedLost hno hlost =>
    exact hover (.of_does (hset.trans hlost.does) herror) rfl (.inr hlost.state)
  | refused hno hroom hmod hreply =>
    exact hover (.of_does ((hset.trans does_errReplied).trans hreply.does) herror) rfl hreply.state
  | started hinit hrep =>
    cases hinit with
    | connect hcmd hallow hi =>
      have hdoes := hi.does
      cases hai : w.info.ai with
      | nil =>
        refine .of_noList hlate (fun _ => ?_) (hdoes.ai.trans hai) hfull
        exact hdoes.cmd.trans hcmd
      | cons a rest =>
        obtain ⟨-, -, -, hbad⟩ | ⟨htrying, hs, -⟩ := hi.of_list (hlist (by simp [hai])) hai
        · rw [hbad] at hrep
          exact absurd hrep (by decide)
        · exact
            { early := fun h => by simp [hs] at h
              cmd := fun _ => ⟨hdoes.cmd.trans hcmd, hlate⟩
              dialing := fun _ _ _ => htrying
              done := fun _ hne => absurd hs hne
              relay := fun h => absurd h hfull }
    | bind hcmd hallow hi => exact hover (hlisten (by simp) hi) rfl (.inl (hlistened hi hrep))
    | udpa hcmd hallow hi => exact hover (hlisten (by simp) hi) rfl (.inl (hlistened hi hrep))
  | @failed w₁ _ hinit hrep hreply =>
    have hreplied : Adds Act.isUncalled w₁ w' := .of_does hreply.does herror
    cases hinit with
    | connect hcmd hallow hi =>
      have hdoes := hi.does
      have hai' : w'.info.ai = w.info.ai := hreply.does.ai.trans hdoes.ai
      have hcmd' : w'.info.cmd = cmdConn := hreply.does.cmd.trans (hdoes.cmd.trans hcmd)
      cases hai : w.info.ai with
      | nil => exact .of_noList hlate (fun _ => hcmd') (hai'.trans hai) hfull
      | cons a rest =>
        have hl := hlist (by simp [hai])
        obtain ⟨hrefused, hattempts, hout, hgen⟩ | ⟨-, -, hunset⟩ := hi.of_list hl hai
        · refine ⟨fun h => absurd h (Bool.eq_false_iff.mp hlate), fun _ => ⟨hcmd', hlate⟩,
            fun hs => ?_, fun _ _ _ hnone => ?_, fun h => absurd h hfull⟩
          · rcases hreply.state with hs' | hs' <;> simp [hs] at hs'
          · have hsingle : w'.info.ai = [a] := by
              rw [hai', hai] at hnone ⊢
              rcases hnone with hone | hnone
              · simpa using hone
              · exact absurd hrefused (hnone 0 (by simp) fun j hj => by simp at hj)
            refine .of_refused hsingle hrefused ?_ ?_
            · exact (Adds.attempts hreply.does.trace fun _ _ => rfl).trans hattempts
            · rw [hreply.chunks (by rw [hout]; exact hl.room), hi.chunks]
              refine fun hin => ?_
              rcases List.mem_append.mp hin with hin | hin
              · exact successHead_notMem (chunks_of_before hl.before) hin
              · simp [errReply, successHead] at hin
        · exact absurd hunset hrep.1
    | bind hcmd hallow hi =>
      exact hover ((hlisten (by simp) hi).trans hreplied) rfl hreply.state
    | udpa hcmd hallow hi =>
      exact hover ((hlisten (by simp) hi).trans hreplied) rfl hreply.state

theorem Act.isError_uncalled (a : Act) (h : a.isError = true) : a.isUncalled = true := by
  cases a <;> simp_all [Act.isError, Act.isUncalled]

/-- A request that is over without a call. -/
theorem World.Falling.of_over {K : Act → Bool} (hcalled : .invoked .connect ∉ w.trace)
    (h : Adds K w w') (hK : K (.invoked .connect) = false)
    (hs : w'.shared.state = .sendingReply ∨ w'.shared.state = .closed) : w'.Falling o := by
  refine .of_uncalled ?_ (fun hin => hcalled (h.mem_trace hK hin)) ?_ ?_
  · rcases hs with hs | hs <;> simp [hs]
  · rcases hs with hs | hs <;> simp [hs]
  · rcases hs with hs | hs <;> simp [hs]

theorem ResolverReturned.falling (hw : Open w) (hcalled : .invoked .connect ∉ w.trace)
    (hlist : w.info.ai ≠ [] → w.info.resolverRet = 0 ∧ w.Listed o)
    (h : ResolverReturned cfg w f w') : w'.Falling o := by
  have hset : Does Act.isError w (w.setRep repGenfail) := (Does.refl w).setRep _
  cases h with
  | lost hret hlost =>
    exact .of_over hcalled (Adds.of_does (hset.trans hlost.does) Act.isError_uncalled) rfl
      (.inr hlost.state)
  | failed hret hroom hmod hdone =>
    have hreplied := hset.trans does_errReplied
    refine hdone.falling (open_errReplied (open_setRep.mpr hw)) (fun hin => ?_) fun hai => ?_
    · exact hcalled (hreplied.mem_trace rfl hin)
    · rw [hreplied.ai] at hai
      exact absurd (hlist hai).1 hret
  | resolved hret hdone => exact hdone.falling hw hcalled fun hai => (hlist hai).2

theorem CommandRequest.falling {req : List UInt8} (hw : Open w)
    (hs : w.shared.state = .waitingCommand) (hbefore : ∀ a ∈ w.trace, a.isBefore = true)
    (hai : w.info.ai = []) (h : CommandRequest cfg w req f w') : w'.Falling o := by
  have hcalled := uncalled_of_before hbefore
  have hstay : w.Falling o := .of_early (by simp [hs]) hbefore
  cases h with
  | short hlen => exact hstay
  | badAtyp hlen htotal hreply =>
    exact .of_over (w := w.setRep repBadatyp) hcalled
      (Adds.of_does hreply.does Act.isError_uncalled) rfl hreply.state
  | part hlen htotal hpart => exact hstay
  | badVersion hlen htotal hcomplete hversion =>
    have hclosed : Does Act.isRelay (w.commandStored req) ((w.commandStored req).hungUp .client) :=
      (Does.refl _).hungUp .client rfl
    exact .of_over (w := w.commandStored req) hcalled hclosed.trace rfl (.inr rfl)
  | run hlen htotal hcomplete hversion h =>
    have hstored : Open (w.commandStored req) := hw.setInfo rfl rfl
    have hcalled' : .invoked .connect ∉
        (((w.commandStored req).addrStored req).emit
          (.firewall ((w.commandStored req).addrStored req).info)).trace := by
      simpa using hcalled
    cases h with
    | domain hatyp =>
      refine .of_early rfl (Adds.forall_mem ?_ hbefore)
      exact .of_does (w := w.commandStored req) does_asked fun a ha => by
        cases a <;> simp_all [Act.isAsk, Act.isBefore]
    | noMemory hatyp hmalloc => exact .of_early (by simp [hs]) hbefore
    | dropped hatyp hfirewall hreply =>
      exact .of_over hcalled' (Adds.of_does (((Does.refl _).setRep _).trans hreply.does)
        Act.isError_uncalled) rfl hreply.state
    | passed hatyp hfirewall hdone =>
      refine hdone.falling ?_ hcalled' fun hne => absurd hai hne
      simpa using hstored.addrStored req

/-- What the request leaves, of the resolver's or of the client's. -/
theorem WaitingCommand.falling (hw : Open w) (hs : w.shared.state = .waitingCommand)
    (hbefore : ∀ a ∈ w.trace, a.isBefore = true)
    (hlist : w.info.ai ≠ [] → w.info.resolverRet = 0 ∧ w.Listed o)
    (h : WaitingCommand cfg w e ev f w') : w'.Falling o := by
  have hcalled := uncalled_of_before hbefore
  have hnone : w.info.resolverRet = -1 → w.info.ai = [] := by
    intro hret
    by_contra hne
    have hzero := (hlist hne).1
    rw [hret] at hzero
    cases hzero
  cases h with
  | idle hidle => exact .of_early (by simp [hs]) hbefore
  | resolver hret h => exact h.falling hw hcalled hlist
  | ended hret hrecv hr =>
    have hclosed : Does Act.isRelay w _ :=
      ((Does.refl w).recv hrecv (fun _ => rfl) rfl).hungUp .client rfl
    exact .of_over hcalled hclosed.trace rfl (.inr rfl)
  | @data bytes got w₁ _ _ hret hrecv hgot h =>
    have hqueued : Does Act.isBefore w (w₁.queue .server bytes) :=
      ((Does.refl w).recv hrecv (fun _ => rfl) rfl).queue .server bytes rfl
    refine h.falling (by simpa using hrecv.open hw) ?_ (Adds.forall_mem hqueued.trace hbefore) ?_
    · simpa [hrecv.shared] using hs
    · rw [hqueued.ai]
      exact hnone hret

/-! ### The next addresses -/

theorem World.Trying.length (h : w.Trying o) : w.attempts.length = w.info.aiIndex + 1 := by
  have hindex := h.index
  rw [h.attempts, List.length_map, List.length_take]
  omega

/-- All attempts so far failed. -/
theorem World.Trying.failed (h : w.Trying o) {error : BitVec 32} {hne : error ≠ 0}
    (hlast : o w.info.aiIndex = .failed error hne) :
    ∀ j < w.info.aiIndex + 1, ∃ error hne, o j = .failed error hne := by
  intro j hj
  rcases Nat.lt_succ_iff_lt_or_eq.mp hj with hlt | rfl
  · exact h.before j hlt
  · exact ⟨error, hne, hlast⟩

/-- What SO_ERROR says of the attempt under way. -/
theorem AnswersAs.current (h : AnswersAs o w w.ans) (htrying : w.Trying o) :
    w.ans.soError = some (o w.info.aiIndex).soError :=
  h.soError _ htrying.length

theorem Attempt.failed_of_soError {a : Attempt} {error : BitVec 32} (h : a.soError = error)
    (hne : error ≠ 0) : a = .failed error hne := by
  cases a with
  | refused => exact absurd h.symm hne
  | failed error' hne' => cases h; rfl
  | connected => exact absurd h.symm hne

theorem Attempt.connected_of_soError {a : Attempt} (h : a.soError = 0) (hrefused : a ≠ .refused) :
    a = .connected := by
  cases a with
  | refused => exact absurd rfl hrefused
  | failed error hne => exact absurd h hne
  | connected => rfl

/-- With every address tried and failed, the error is answered. -/
theorem FallsBack.of_exhausted (h : w.Trying o) {error : BitVec 32} {hne : error ≠ 0}
    (hlast : o w.info.aiIndex = .failed error hne)
    (hnext : w.info.ai[w.info.aiIndex + 1]? = none) (hattempts : w'.attempts = w.attempts)
    (hai : w'.info.ai = w.info.ai) (hchunks : successHead ∉ w'.chunks) : FallsBack o w' := by
  have hall := h.failed hlast
  have hindex := h.index
  have hlen : w.info.ai.length = w.info.aiIndex + 1 := by
    rw [List.getElem?_eq_none_iff] at hnext
    omega
  have hnot : ∀ k < w.info.aiIndex + 1, o k ≠ .connected := by
    intro k hk heq
    obtain ⟨error, hne, hfailed⟩ := hall k hk
    rw [heq] at hfailed
    cases hfailed
  have hover : w'.attempts.length = w'.info.ai.length ∧
      ∀ k < w'.info.ai.length, o k ≠ .connected := by
    rw [hattempts, hai, h.length, hlen]
    exact ⟨rfl, hnot⟩
  refine ⟨?_, fun k hk => ?_, fun hin => absurd (w'.replies_subset hin) hchunks, fun rep _ => hover,
    fun _ => .inr hover⟩
  · rw [hattempts, hai, h.attempts]
    exact (List.take_prefix _ _).map _
  · rw [hattempts, h.length] at hk
    exact hnot k (by omega)

theorem SockAddr.replyAddr_lengths {sa : SockAddr} {port : Octets 2} {a : ReplyAddr}
    (h : sa.replyAddr port = some a) : a.addr.length ≠ 10 ∧ a.port.length ≠ 10 := by
  cases sa with
  | inet p addr => cases h; simp
  | inet6 p addr => cases h; simp
  | other f data ne => cases h

theorem connectedTo_chunks (hw : Open w) (hused : (w.shared.out .client).used ≤ 900)
    (ss : SockAddr) : (w.connectedTo ss).chunks = w.chunks ++ [successHead] ∧
      ((w.connectedTo ss).shared.out .client).used ≤ 1000 := by
  have hnoted : Open ((w.setRep repSuccess).noted ss) := (open_setRep.mpr hw).noted ss
  simpa [World.connectedTo] using hnoted.chunks_queueHead hused

/-- A success reply to the attempt that connected. -/
theorem FallsBack.of_connected (h : w.Trying o) (hlast : o w.info.aiIndex = .connected)
    {a : ReplyAddr} (haddr : a.addr.length ≠ 10) (hport : a.port.length ≠ 10)
    (hattempts : w'.attempts = w.attempts) (hai : w'.info.ai = w.info.ai)
    (hchunks : w'.chunks = w.chunks ++ successHead :: a.chunks) : FallsBack o w' := by
  have hlength : w'.attempts.length = w.info.aiIndex + 1 := by
    rw [hattempts]
    exact h.length
  refine ⟨?_, fun k hk => ?_, fun _ => ⟨_, hlength, hlast⟩, fun rep hin => ?_,
    fun _ => .inl ⟨_, hlength, hlast⟩⟩
  · rw [hattempts, hai, h.attempts]
    exact (List.take_prefix _ _).map _
  · rw [hlength] at hk
    obtain ⟨error, hne, hfailed⟩ := h.before k (by omega)
    rw [hfailed]
    simp
  · have hmem := w'.replies_subset hin
    rw [hchunks, List.mem_append] at hmem
    rcases hmem with hmem | hmem
    · exact absurd (h.unanswered _ hmem) (by simp)
    · exfalso
      simp only [ReplyAddr.chunks, List.mem_cons, List.not_mem_nil, or_false] at hmem
      rcases hmem with hmem | hmem | hmem | hmem
      · simp [errReply, successHead] at hmem
      · simp [errReply] at hmem
      · exact haddr (by rw [← hmem]; rfl)
      · exact hport (by rw [← hmem]; rfl)

theorem modAnswer_of_forall {ans : Answers} (h : ∀ b ∈ ans.epollMod, b = true) :
    ans.epollMod.headD true = true := by
  cases hmods : ans.epollMod with
  | nil => rfl
  | cons b bs => exact h b (by simp [hmods])

theorem FinishReply.epollMod {a : Option ReplyAddr} {r : Bool} (h : FinishReply w a r w') :
    ∀ b ∈ w'.ans.epollMod, b ∈ w.ans.epollMod := by
  cases h with
  | skipped => exact fun b hb => hb
  | sent hmod => exact fun b hb => List.mem_of_mem_tail (by simpa [World.queueAddr] using hb)
  | unwatched hmod => exact fun b hb => List.mem_of_mem_tail (by simpa [World.queueAddr] using hb)

/-- The second `epoll_ctl` behind a success reply that is taken does not fail either: the server's
descriptor is registered. -/
theorem FinishReply.watched {ss : SockAddr} {a : ReplyAddr} {i : Events × Option Side} {r : Bool}
    (hself : w.selfFd .server = w.shared.fd .server) (hreg : w.Registered (w.shared.fd .server))
    (hmods : ∀ b ∈ w.ans.epollMod.tail.take 1, b = true)
    (hr : FinishReply (w.connectedTo ss) (some a) true w₁)
    (hmod : Modified w₁ (w₁.selfFd .server) i r w') : r = true := by
  cases hr with
  | sent hmod₁ =>
    cases hmod with
    | done hmod hreg => rfl
    | failed hmod =>
      have hreg' : ((w.connectedTo ss).queueAddr a).watchSend.Registered (w.selfFd .server) := by
        have hnoted : ((w.setRep repSuccess).noted ss).Registered (w.selfFd .server) := by
          rw [hself]
          exact hreg
        refine World.Registered.setInterest ?_ _
        simpa [World.queueAddr, World.connectedTo, World.queueHead] using hnoted
      have hself' : ((w.connectedTo ss).queueAddr a).watchSend.selfFd .server =
        w.selfFd .server := by
        simp [World.queueAddr, World.connectedTo, World.queueHead]
      have hanswers : ((w.connectedTo ss).queueAddr a).watchSend.ans.epollMod =
        w.ans.epollMod.tail := by
        simp [World.queueAddr, World.connectedTo, World.queueHead]
      have hnext : ((w.connectedTo ss).queueAddr a).watchSend.modAnswer = true := by
        rw [World.modAnswer, hanswers]
        cases htail : w.ans.epollMod.tail with
        | nil => rfl
        | cons b bs => exact hmods b (by simp [htail])
      rw [hself'] at hmod
      simp [hmod hreg'] at hnext

/-- The attempt under way is waited for, its failure leads to the next address or to the error
reply, and its end to the success reply. -/
theorem Connecting.tried (hw : Open w) (hs : w.shared.state = .connecting)
    (hd : w.mem (.data .server) = .live) (hempty : (w.shared.out .client).contents = [])
    (htrying : w.Trying o) (hnone : NoneRefused o w.info.ai.length) (hans : AnswersAs o w w.ans)
    (h : Connecting w e ev w') :
    w'.shared.state = .connecting ∧ w'.Trying o ∨ w'.shared.state ≠ .connecting ∧
      FallsBack o w' := by
  have hcurrent := hans.current htrying
  have hdoes := h.does
  have hused : (w.shared.out .client).used ≤ 900 := by
    rw [Ring.contents_eq_nil.mp hempty]
    decide
  have hroom : 10 ≤ (w.shared.out .client).free := by
    rw [World.free_of_open _ hw, Ring.contents_eq_nil.mp hempty]
    decide
  obtain ⟨ss, hss, hip⟩ := hans.getsockname
  have hsame : ∀ {r}, w.ans.soError = some r → (o w.info.aiIndex).soError = r := by
    intro r hr
    exact Option.some.inj (hcurrent.symm.trans hr)
  have hmod₀ : (w.connectedTo ss).modAnswer = true := by
    have hmod : w.modAnswer = true := modAnswer_of_forall hans.epollMod
    simpa [World.connectedTo, World.queueHead, World.modAnswer] using hmod
  cases h with
  | idle hidle => exact .inl ⟨hs, htrying⟩
  | unknown hso h => simp [hso] at hcurrent
  | failed hso herr hfail =>
    have hlast := Attempt.failed_of_soError (hsame hso) herr
    have hreplied : ∀ {w₁}, ReplyWithErr w₁ .server w' → w₁.attempts = w.attempts →
        w.info.ai[w.info.aiIndex + 1]? = none →
        w'.shared.state ≠ .connecting ∧ FallsBack o w' := by
      intro w₁ hr hattempts hnext
      have hkept := Adds.attempts hr.does.trace fun _ _ => rfl
      refine ⟨by rcases hr.state with hs' | hs' <;> simp [hs'], ?_⟩
      refine .of_exhausted htrying hlast hnext (hkept.trans hattempts) hdoes.ai ?_
      rw [hfail.chunks hroom hnext]
      intro hin
      rcases List.mem_append.mp hin with hin | hin
      · exact successHead_notMem htrying.unanswered hin
      · simp [errReply, successHead] at hin
    cases hfail with
    | @retry current hlen hget =>
      have hlt : w.info.aiIndex + 1 < w.info.ai.length := (List.getElem?_eq_some_iff.mp hget).1
      refine .inl ⟨hs, ?_⟩
      exact
        { attempts := by
            rw [World.attempts_emit]
            show w.attempts ++ [current.aiAddr] =
              (w.info.ai.take (w.info.aiIndex + 1 + 1)).map AddrInfo.aiAddr
            rw [List.take_add_one, hget, List.map_append, htrying.attempts]
            rfl
          index := hlt
          before := htrying.failed hlast
          current := by
            rcases hnone with hone | hnone
            · omega
            · exact hnone _ hlt (htrying.failed hlast)
          unanswered := by
            have hchunks : (w.nextAddr.emit (.connect (w.selfFd .server) current.aiAddr)).chunks =
                w.chunks := by
              rw [World.chunks_emit]
              exact List.append_nil _
            rw [hchunks]
            exact htrying.unanswered
          registered := htrying.registered }
    | exhausted hlen hget h => exact .inr (hreplied h rfl hget)
    | single hlen h =>
      refine .inr (hreplied h rfl ?_)
      rw [List.getElem?_eq_none_iff]
      omega
  | unnamed hso hname h => simp [hss] at hname
  | oddFamily hso hname haddr h =>
    obtain rfl : ss = _ := Option.some.inj (hss.symm.trans hname)
    obtain ⟨a, ha⟩ := (@SockAddr.replyAddr_isSome ss ss.port).mpr hip
    simp [haddr] at ha
  | unanswered hso hname haddr hr h =>
    obtain rfl : ss = _ := Option.some.inj (hss.symm.trans hname)
    cases hr with
    | unwatched hmod => simp [hmod₀] at hmod
  | unwatched hso hname haddr hr hmod h =>
    cases hr.watched (hw.self .server hd) htrying.registered
      (fun b hb => hans.epollMod b (List.mem_of_mem_tail (List.mem_of_mem_take hb))) hmod
  | connected hso hname haddr hr hmod =>
    obtain rfl : ss = _ := Option.some.inj (hss.symm.trans hname)
    have hlast := Attempt.connected_of_soError (hsame hso) htrying.current
    obtain ⟨hhead, hused'⟩ := connectedTo_chunks hw hused ss
    have hreplied := (does_connectedReply hr).modified hmod
    have hstate : w'.shared.state = .sendingReply := by
      cases hmod
      cases hr
      simp [World.queueAddr, World.connectedTo, World.queueHead]
    obtain ⟨haddr', hport⟩ := SockAddr.replyAddr_lengths haddr
    refine .inr ⟨by simp [hstate], .of_connected htrying hlast haddr' hport
      (Adds.attempts hreplied.trace fun _ _ => rfl) hdoes.ai ?_⟩
    have hchunks := hr.chunks (hw.connectedTo ss) hused' fun a' ha' => by
      cases ha'
      exact SockAddr.replyAddr_length haddr
    calc w'.chunks = _ := by cases hmod; rfl
      _ = _ := hchunks
      _ = _ := by rw [hhead, List.append_assoc]; rfl

theorem Connecting.falling (hw : Open w) (hp : Phase w) (hs : w.shared.state = .connecting)
    (hf : w.Falling o) (hans : AnswersAs o w w.ans) (h : Connecting w e ev w') : w'.Falling o := by
  have hdoes := h.does
  have hlate : w'.shared.state.early = false :=
    hdoes.late (by simp [hs]) fun st hst => by
      cases st <;> simp_all [Act.isWait, Act.isError]
  have htried : w'.info.ai ≠ [] → NoneRefused o w'.info.ai.length →
      w'.shared.state = .connecting ∧ w'.Trying o ∨
        w'.shared.state ≠ .connecting ∧ FallsBack o w' := by
    intro hai hnone
    rw [hdoes.ai] at hai hnone
    exact h.tried hw hs (hp.server (.inl (.inl hs))) (hp.quiet (by simp [hs]))
      (hf.dialing hs hai hnone) hnone hans
  exact
    { early := fun hearly => absurd hearly (Bool.eq_false_iff.mp hlate)
      cmd := fun hin => ⟨hdoes.cmd.trans (hf.cmd (hdoes.mem_trace rfl hin)).1, hlate⟩
      dialing := fun hs' hai hnone => (htried hai hnone).elim (·.2) fun h => absurd hs' h.1
      done := fun _ hs' hai hnone => (htried hai hnone).elim (fun h => absurd h.1 hs') (·.2)
      relay := fun hfull => by
        rcases hdoes.state with heq | hin
        · rw [hs, hfull] at heq
          cases heq
        · rw [hfull] at hin
          cases hin }

/-! ### Before and after -/

theorem WaitingMethods.before (h : WaitingMethods cfg w e ev w') : Adds Act.isBefore w w' := by
  refine h.adds_of fun a ha hreply => ?_
  cases a with
  | queued s bytes =>
    cases s with
    | client => simpa [Act.isBefore] using hreply bytes rfl
    | server => rfl
  | connect => cases ha
  | invoked f => cases ha
  | _ => rfl

/-- A handler of a state before the command. -/
theorem World.Falling.before (hbefore : ∀ a ∈ w.trace, a.isBefore = true)
    (h : Adds Act.isBefore w w') (hs : w'.shared.state.early = true ∨ w'.shared.state = .closed) :
    w'.Falling o := by
  rcases hs with hs | hs
  · exact .of_early hs (h.forall_mem hbefore)
  · exact .of_over (uncalled_of_before hbefore) h rfl (.inr hs)

/-- A handler of a state after the attempts. -/
theorem World.Falling.after {K : Act → Bool} (hf : w.Falling o) (h : Does K w w')
    (hs : w.shared.state ≠ .connecting) (hlate : w'.shared.state.early = false)
    (hs' : w'.shared.state ≠ .connecting) (hK : ∀ fd dst, K (.connect fd dst) = false)
    (hcall : K (.invoked .connect) = false)
    (hreplies : (∀ bytes, K (.queued .client bytes) = false) ∨ .state .full ∈ w.trace)
    (hrelay : w'.shared.state = .full → .state .full ∈ w'.trace) : w'.Falling o where
  early hearly := absurd hearly (Bool.eq_false_iff.mp hlate)
  cmd hin := ⟨h.cmd.trans (hf.cmd (h.mem_trace hcall hin)).1, hlate⟩
  dialing hst := absurd hst hs'
  done hin _ hai hnone := by
    rw [h.ai] at hai hnone
    exact (hf.done (h.mem_trace hcall hin) hs hai hnone).congr hs (Adds.attempts h.trace hK)
      (Adds.replies h.trace hreplies) h.ai
  relay := hrelay

theorem Adds.mem {K : Act → Bool} {a : Act} (h : Adds K w w') (ha : a ∈ w.trace) :
    a ∈ w'.trace := by
  obtain ⟨acts, htrace, -⟩ := h
  rw [htrace]
  exact List.mem_append_left _ ha

theorem SendingReply.falling (hs : w.shared.state.replying = true) (hf : w.Falling o)
    (h : SendingReply w e ev w') : w'.Falling o := by
  have hlate : w.shared.state.early = false := by
    cases hst : w.shared.state <;> simp_all
  have hne : w.shared.state ≠ .connecting := by
    rintro hst
    simp [hst] at hs
  refine hf.after h.does hne (h.late hlate) ?_ (fun _ _ => rfl) rfl (.inl fun _ => rfl) ?_
  · rcases h.does.state with heq | hin
    · rw [heq]
      exact hne
    · rintro hst
      simp [hst, Act.isReply] at hin
  · intro hfull
    have hold : ∀ {st}, w.shared.state = st → st = .full → False := by
      rintro st hst rfl
      simp [hst] at hs
    cases h with
    | idle hidle => exact (hold rfl hfull).elim
    | stopped h =>
      cases h with
      | failed => cases hfull
      | part hk => exact (hold rfl hfull).elim
      | unwatched hmod => cases hfull
    | refused hmod hrep => cases hfull
    | connected hmod hrep hcmd => simp
    | listening hmod hrep hcmd hstate => cases hfull
    | associated hmod hrep hcmd => cases hfull
    | odd hmod hrep hcmd hbind => exact (hold rfl hfull).elim

theorem Handled.falling (hw : Open w) (hp : Phase w) (hf : w.Falling o)
    (hidle : w.shared.state ≠ .asyncDns → w.dns = .idle)
    (hans : w.shared.state = .connecting → AnswersAs o w w.ans) (h : Handled cfg w e ev f w') :
    w'.Falling o := by
  cases h with
  | still hstate => exact hf
  | waitingMethods hstate h =>
    refine .before (hf.early (by simp [hstate])) h.before ?_
    rcases h.state hstate with hs | hs | hs <;> simp [hs]
  | sendingMethod hstate h =>
    refine .before (hf.early (by simp [hstate])) (.of_does h.does fun a ha => ?_) ?_
    · cases a <;> simp_all [Act.isReply, Act.isBefore]
    · rcases h.state hstate with hs | hs | hs <;> simp [hs]
  | waitingCommand hstate h =>
    refine h.falling hw hstate (hf.early (by simp [hstate])) fun hai => ?_
    have hdns := hidle (by simp [hstate])
    exact absurd (hp.ai (by simp [hstate]) (by simp [hdns])) hai
  | sendingReply hstate h =>
    exact h.falling (by rcases hstate with hs | hs <;> simp [hs]) hf
  | connecting hstate h => exact h.falling hw hp hstate hf (hans hstate)
  | bindListening hstate h =>
    have hcmd := (hp.listening hstate).1
    have huncalled : .invoked .connect ∉ w'.trace := fun hin => by
      have hconn := (hf.cmd (h.does.mem_trace rfl hin)).1
      rw [hcmd] at hconn
      exact absurd hconn (by decide)
    have hne : ∀ st, w'.shared.state = st →
      st = .bindListening ∨ Act.isAccept (.state st) = true := by
      rintro st rfl
      rcases h.does.state with heq | hin
      · exact .inl (heq.trans hstate)
      · exact .inr hin
    refine .of_uncalled ?_ huncalled (fun hs => ?_) fun hs => ?_
    · rcases hne _ rfl with hs | hs
      · simp [hs]
      · cases hst : w'.shared.state <;> simp_all [Act.isAccept, Act.isError]
    · rcases hne _ hs with h | h <;> cases h
    · rcases hne _ hs with h | h <;> cases h
  | full hstate h =>
    have hfull := hf.relay hstate
    have hst : ∀ st, w'.shared.state = st → st = .full ∨ Act.isRelay (.state st) = true := by
      rintro st rfl
      rcases h.does.state with heq | hin
      · exact .inl (heq.trans hstate)
      · exact .inr hin
    refine hf.after h.does (by simp [hstate]) ?_ (fun hs => ?_) (fun _ _ => rfl) rfl (.inr hfull)
      fun _ => Adds.mem h.does.trace hfull
    · rcases hst _ rfl with hs | hs
      · simp [hs]
      · cases hst' : w'.shared.state <;> simp_all [Act.isRelay]
    · rcases hst _ hs with h | h <;> cases h
  | halfClose hstate =>
    have hclosed : Does (fun a => decide (a = .state .closed)) w (w.setState .closed) :=
      (Does.refl w).setState _ rfl
    exact hf.after hclosed (by simp [hstate]) rfl (by simp) (fun _ _ => rfl) rfl (.inl fun _ => rfl)
      fun hfull => by cases hfull
  | closed hstate =>
    refine hf.after (K := fun _ => false) ⟨⟨[], by simp⟩, .inl rfl, rfl⟩ (by simp [hstate]) ?_ ?_
      (fun _ _ => rfl) rfl (.inl fun _ => rfl) fun hfull => ?_
    · simp [hstate]
    · simp [hstate]
    · simp [hstate] at hfull

theorem World.Falling.congr (hf : w.Falling o) (hcore : w'.core = w.core)
    (hreg : w.shared.state = .connecting → ∀ fd, w.Registered fd → w'.Registered fd) :
    w'.Falling o := by
  simp only [World.core, Prod.mk.injEq] at hcore
  obtain ⟨htrace, hstate, -, hfd, hinfo⟩ := hcore
  have hattempts : w'.attempts = w.attempts := by rw [World.attempts, htrace, World.attempts]
  have hchunks : w'.chunks = w.chunks := by rw [World.chunks, htrace, World.chunks]
  have hreplies : w'.replies = w.replies := by rw [World.replies, htrace, World.replies]
  refine ⟨?_, ?_, fun hs hai hnone => ?_, fun hin hs hai hnone => ?_, ?_⟩
  · rw [hstate, htrace]
    exact hf.early
  · rw [hstate, htrace, hinfo]
    exact hf.cmd
  · rw [hstate] at hs
    rw [hinfo] at hai hnone
    obtain ⟨h₁, h₂, h₃, h₄, h₅, h₆⟩ := hf.dialing hs hai hnone
    refine ⟨?_, ?_, ?_, ?_, ?_, ?_⟩
    · rw [hattempts, hinfo, h₁]
    · rwa [hinfo]
    · rwa [hinfo]
    · rwa [hinfo]
    · rwa [hchunks]
    · rw [hfd]
      exact hreg hs _ h₆
  · rw [hstate] at hs
    rw [htrace] at hin
    rw [hinfo] at hai hnone
    exact (hf.done hin hs hai hnone).congr hs hattempts hreplies (by rw [hinfo])
  · rw [hstate, htrace]
    exact hf.relay

theorem Stepped.falling {i : Input} (hs : Sane w) (hf : w.Falling o) (hends : AttemptsEnd o w i)
    (h : Stepped cfg w i f w') : w'.Falling o := by
  cases h.moved with
  | idle hcore hreg =>
    exact hf.congr hcore fun hst => hreg (hs.open_of_state (by simp [hst]))
  | answered hdns =>
    have hasync := (hs.dns (by simp [hdns])).2
    have hearly : w.shared.state.early = true := by simp [hasync]
    exact .of_early hearly (hf.early hearly)
  | @handled ans rest _ _ _ _ _ hpending hw hd hh =>
    have htaken := hs.taken hpending ans
    refine hh.falling hw (htaken.phase hw) (hf.congr rfl fun _ _ h => h)
      (fun hne => ?_) fun hst => ?_
    · by_contra hdns
      exact hne (htaken.dns hdns).2
    · obtain ⟨h₁, h₂, h₃, h₄, h₅, h₆, h₇⟩ := hends (.inr hst)
      exact ⟨h₁, h₂, h₃, h₄, h₅, h₆, h₇⟩
  | @resumed ans rest gaiRet _ _ hpending hw hdns hh =>
    have htaken := hs.taken hpending ans
    have hasync := (htaken.dns (by rw [World.taken_dns, hdns]; simp)).2
    have hearly : (w.taken rest ans).shared.state.early = true := by rw [hasync]; rfl
    have hp := htaken.phase hw
    obtain ⟨hrep, hsa, -, -⟩ := hp.early hearly
    have hadds : Adds Act.isBefore w ((w.taken rest ans).resumed gaiRet) :=
      ⟨[.state .waitingCommand], rfl, by simp [Act.isBefore]⟩
    have hbefore := hadds.forall_mem (hf.early hearly)
    have hattempts := hadds.attempts fun _ _ => rfl
    refine hh.falling (hw.resumed gaiRet) rfl hbefore fun hai => ⟨?_, hbefore, hsa, hrep, ?_, ?_⟩
    · by_contra hret
      refine hai (hp.ai hearly fun r hr => ?_)
      rw [World.taken_dns, hdns] at hr
      cases hr
      exact hret
    · obtain ⟨h₁, h₂, h₃, h₄, h₅, h₆, h₇⟩ := hends (.inl hasync)
      rw [← hattempts] at h₁ h₂
      exact ⟨h₁, h₂, h₃, h₄, h₅, h₆, h₇⟩
    · have hempty : (w.shared.out .client).contents = [] := hp.quiet (by rw [hasync]; rfl)
      show 10 ≤ (w.shared.out .client).free
      have hfree := (w.taken rest ans).free_of_open hw
      simp only [World.taken_shared] at hfree
      rw [hfree, Ring.contents_eq_nil.mp hempty]
      decide

end Lists

theorem World.Trying.fallsBack {o : Nat → Attempt} {w : World} (h : w.Trying o)
    (hs : w.shared.state = .connecting) : FallsBack o w where
  inOrder := by
    rw [h.attempts]
    exact (List.take_prefix _ _).map _
  untilOne k hk := by
    rw [h.length] at hk
    obtain ⟨error, hne, hfailed⟩ := h.before k (by omega)
    simp [hfailed]
  success hin := absurd (w.replies_subset hin) (successHead_notMem h.unanswered)
  error rep hin := by
    have hlen := h.unanswered _ (w.replies_subset hin)
    simp at hlen
  ended hne := absurd hs hne

/-- With another address the failure leads to the attempt at it. -/
theorem ConnectFailed.attempts {w w' : World} {error : BitVec 32}
    (hnext : w.info.aiIndex + 1 < w.info.ai.length) (h : ConnectFailed w error w') :
    w'.attempts = w.attempts ++ [w.info.ai[w.info.aiIndex + 1].aiAddr] := by
  cases h with
  | @retry current hlen hget =>
    have hcurrent : w.info.ai[w.info.aiIndex + 1] = current := by
      rw [List.getElem?_eq_getElem hnext, Option.some.injEq] at hget
      exact hget
    rw [hcurrent, World.attempts_emit]
    rfl
  | exhausted hlen hget h =>
    rw [List.getElem?_eq_getElem hnext] at hget
    cases hget
  | single hlen h => omega

theorem World.Trying.onward {cfg : Configs} {o : Nat → Attempt} {fd : Int} {w : World}
    (h : w.Trying o) (hreached : Reached cfg fd w) : Onward cfg o w := by
  intro ans sfd ev rest k error hne hs hlen hfailed hnext hpending hout hans
  obtain ⟨hsane, -, -⟩ := hreached.gated
  have hindex : k = w.info.aiIndex := by
    rw [h.length] at hlen
    omega
  subst hindex
  have hso : ans.soError = some error := by
    rw [hans.soError _ hlen, hfailed]
    rfl
  have hmade : ((step cfg (.handle ans) w).state).attempts = w.attempts ++
      [w.info.ai[w.info.aiIndex + 1].aiAddr] :=
    ConnectFailed.attempts (w := w.taken rest ans) hnext
      (hsane.connectFailed hs hpending hout hso hne)
  rw [hmade, h.attempts, List.take_add_one (i := w.info.aiIndex + 1),
    List.getElem?_eq_getElem hnext, List.map_append]
  rfl

/-- **Addresses are tried until one answers, when none is refused at once.** In every run in
which attempts end as `o` says and no attempt that is made fails at once, unless it is the only
one, the addresses of the list are tried in order until one succeeds, and the success or error
reply says how they ended. A failure that is reported with an address left leads to the attempt at
it. -/
theorem falls_back {cfg : Configs} {o : Nat → Attempt} {fd : Int} {ss : SockAddr}
    {bufs : Side → OutBuff} {mallocs epollAdd : Bool} {w₀ : World}
    (hw₀ : acceptNewClient fd ss bufs mallocs epollAdd = some w₀) {is : List Input}
    (hends : Lib.Meets (step cfg) (AttemptsEnd o) is w₀) {w : World}
    (hw : (Lib.run (step cfg) is w₀).state = w) (hinvoked : .invoked .connect ∈ w.trace)
    (hai : w.info.ai ≠ []) (hnone : NoneRefused o w.info.ai.length) :
    FallsBack o w ∧ ((Lib.run (step cfg) is w₀).fault? = none → Onward cfg o w) := by
  have hsane := acceptNewClient_sane hw₀
  have hreached : (Lib.run (step cfg) is w₀).fault? = none → Reached cfg fd w := by
    intro hfault
    obtain ⟨⟨⟩, hok⟩ := Lib.Outcome.eq_ok hfault
    rw [hw] at hok
    exact ⟨ss, bufs, mallocs, epollAdd, w₀, is, hw₀, hok⟩
  obtain ⟨-, rfl⟩ := acceptNewClient_eq hw₀
  have hstart : (newClient fd ss bufs).Falling o := by
    refine .of_early rfl fun a ha => ?_
    obtain rfl := List.mem_singleton.mp ha
    rfl
  have hf : w.Falling o := by
    rw [← hw]
    exact run_invariant hsane hstart hends fun hs hf hC hstep => hstep.falling hs hf hC
  by_cases hs : w.shared.state = .connecting
  · have htrying := hf.dialing hs hai hnone
    exact ⟨htrying.fallsBack hs, fun hfault => htrying.onward (hreached hfault)⟩
  · exact ⟨hf.done hinvoked hs hai hnone, fun _ _ _ _ _ _ _ _ hs' => absurd hs' hs⟩

/-- A CONNECT to a name with two addresses. -/
def namedConnect : List Input :=
  greeting 5 ++ clientSends 5 [5, cmdConn, 0, atypDomn, 1, 97, 0, 80] .idle ++
    [.resolved 0 [⟨.inet ![0, 80] ![10, 0, 0, 1]⟩, ⟨.inet ![0, 80] ![10, 0, 0, 2]⟩],
      .poll [.resolver]]

/-- Answers to an attempt and to the last one's SO_ERROR. -/
def attemptAnswers (fd errno : Int) (soError : BitVec 32) : Answers :=
  { Answers.idle with
    socket := some fd, connectErrno := errno, soError := some soError
    getsockname := some (.inet ![4, 1] ![127, 0, 0, 1]) }

/-- The first address refuses the connection, the second accepts it. -/
def secondAnswers : Nat → Attempt
  | 0 => .failed econnrefused (by decide)
  | _ => .connected

/-- The first attempt has ended. -/
def firstConnect : List Input :=
  namedConnect ++
    [.handle (attemptAnswers 6 einprogress 0), .poll [.peer 6 (some .server) epollOut]]

/-- The run in which the second connects. -/
def secondConnect : List Input :=
  firstConnect ++
    [.handle (attemptAnswers 7 einprogress econnrefused), .poll [.peer 6 (some .server) epollOut],
      .handle (attemptAnswers 7 einprogress 0)]

theorem secondAnswers_noneRefused (n : Nat) : NoneRefused secondAnswers n := by
  refine .inr fun k _ _ => ?_
  cases k with
  | zero => simp [secondAnswers]
  | succ k => simp [secondAnswers]

theorem falls_back_second :
    FallsBack secondAnswers (Lib.run (step openConfigs) secondConnect
      (newClient 5 (.inet ![4, 0] ![127, 0, 0, 1]) fun _ => .zero)).state ∧
    ∃ w, (Lib.run (step openConfigs) firstConnect
        (newClient 5 (.inet ![4, 0] ![127, 0, 0, 1]) fun _ => .zero)).state = w ∧
      (step openConfigs (.handle (attemptAnswers 7 einprogress econnrefused)) w).state.attempts =
        (w.info.ai.take 2).map AddrInfo.aiAddr := by
  have hsecond : Lib.Meets (step openConfigs) (AttemptsEnd secondAnswers) secondConnect
        (newClient 5 (.inet ![4, 0] ![127, 0, 0, 1]) fun _ => .zero) ∧
      .invoked .connect ∈ (Lib.run (step openConfigs) secondConnect
        (newClient 5 (.inet ![4, 0] ![127, 0, 0, 1]) fun _ => .zero)).state.trace ∧
      (Lib.run (step openConfigs) secondConnect
        (newClient 5 (.inet ![4, 0] ![127, 0, 0, 1]) fun _ => .zero)).state.info.ai ≠ [] := by
    decide +kernel
  have hfirst : Lib.Meets (step openConfigs) (AttemptsEnd secondAnswers) firstConnect
        (newClient 5 (.inet ![4, 0] ![127, 0, 0, 1]) fun _ => .zero) ∧
      (Lib.run (step openConfigs) firstConnect
        (newClient 5 (.inet ![4, 0] ![127, 0, 0, 1]) fun _ => .zero)).fault? = none := by
    decide +kernel
  refine ⟨?_, _, rfl, ?_⟩
  · obtain ⟨hends, hinvoked, hai⟩ := hsecond
    exact (@falls_back openConfigs secondAnswers 5 (.inet ![4, 0] ![127, 0, 0, 1]) (fun _ => .zero)
      true true _ rfl _ hends _ rfl hinvoked hai (secondAnswers_noneRefused _)).1
  · have honward := (@falls_back openConfigs secondAnswers 5 (.inet ![4, 0] ![127, 0, 0, 1])
      (fun _ => .zero) true true _ rfl _ hfirst.1 _ rfl (by decide +kernel) (by decide +kernel)
      (secondAnswers_noneRefused _)).2 hfirst.2
    exact honward _ 6 epollOut [] 0 econnrefused (by decide) (by decide +kernel)
      (by decide +kernel) rfl (by decide +kernel) (by decide +kernel) rfl (by decide +kernel)

/-- The first address of two is refused at once: the second is not attempted. -/
theorem second_not_attempted :
    ¬ ∀ (cfg : Configs) (o : Nat → Attempt) (fd : Int) (ss : SockAddr) (bufs : Side → OutBuff)
      (mallocs epollAdd : Bool) (w₀ : World),
      acceptNewClient fd ss bufs mallocs epollAdd = some w₀ → ∀ is : List Input,
        Lib.Meets (step cfg) (AttemptsEnd o) is w₀ → ∀ w : World,
          (Lib.run (step cfg) is w₀).state = w → .invoked .connect ∈ w.trace →
            w.info.ai ≠ [] → FallsBack o w := by
  intro h
  have hends : Lib.Meets (step openConfigs) (AttemptsEnd fun _ => .refused)
      (namedConnect ++ [.handle (attemptAnswers 6 111 0)])
      (newClient 5 (.inet ![4, 0] ![127, 0, 0, 1]) fun _ => .zero) := by
    decide +kernel
  have hfalls := h openConfigs (fun _ => .refused) 5 (.inet ![4, 0] ![127, 0, 0, 1])
    (fun _ => .zero)
    true true _ rfl _ hends _ rfl (by decide +kernel) (by decide +kernel)
  have hreply : errReply repGenfail ∈ (Lib.run (step openConfigs)
      (namedConnect ++ [.handle (attemptAnswers 6 111 0)])
      (newClient 5 (.inet ![4, 0] ![127, 0, 0, 1]) fun _ => .zero)).state.replies := by
    decide +kernel
  exact absurd (hfalls.error repGenfail hreply).1 (by decide +kernel)

end Socksprox
