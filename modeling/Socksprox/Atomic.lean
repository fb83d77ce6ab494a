import Socksprox.Sane
import Mathlib.Data.Fin.VecNotation

/-!
What a failed command leaves behind. The three `init` functions report a failure in
`info->rep`, and their caller answers it; the server side that they had begun to set up by then is
undone on some of the ways out only.
-/

namespace Socksprox

open Lib (wp)

/-- The function that carries out a command. -/
def InitFn.run (cfg : Configs) : InitFn → Proc Unit
  | .connect => initConnect
  | .bind => initBind cfg
  | .udpa => initUdpa cfg

namespace World

/-- An error code in `info->rep`. -/
def Errs (w : World) : Prop := w.info.rep ≠ repUnset ∧ w.info.rep ≠ repSuccess

/-- There is an address to connect to, of a family that `init_connect` opens a socket for. -/
def Dials (w : World) : Prop :=
  (∃ sa, w.info.sa = some sa ∧ IpFamily sa.family) ∨ (w.info.sa = none ∧ w.info.ai ≠ [])

/-- `connect` on a non-blocking socket has begun. -/
def Begins (w : World) : Prop :=
  w.ans.connectErrno = 0 ∨ w.ans.connectErrno = eagain ∨ w.ans.connectErrno = einprogress

end World

/-- Nothing of a server side is left between `w` and `w'`. -/
structure Undone (w w' : World) : Prop where
  fds : ∀ fd, w'.fds fd ≠ none → w.fds fd ≠ none
  serverFd : w'.shared.fd .server = w.shared.fd .server
  serverData : w'.shared.data .server = w.shared.data .server
  clientOut : (w'.shared.out .client).contents = (w.shared.out .client).contents
  state : w'.shared.state = w.shared.state

/-- An error that the function notes leaves nothing behind. -/
def FailsAtomically (cfg : Configs) (w : World) (g : InitFn) : Prop :=
  ((g.run cfg) w).state.Errs → Undone w ((g.run cfg) w).state

/-- The ways through the functions that close what they opened, or do not fail. -/
def FailsCleanly (cfg : Configs) (w : World) : InitFn → Prop
  | .connect => (w.info.sa = none ∧ w.info.ai = []) ∨
      ((∃ sa, w.info.sa = some sa ∧ ¬ IpFamily sa.family) ∧ w.ans.mallocData = false) ∨
      w.Dials ∧ (w.socketFd = none ∨
        w.Begins ∧ w.ans.mallocData = true ∧ w.ans.epollAdd = true ∧ ¬ w.Errs)
  | g => (w.info.sa = none ∧ w.info.ai = []) ∨ w.socketFd = none ∨ ¬ ListensOn cfg w g ∨
      (g = .bind → w.ans.getsockname ≠ none) ∧ (IpFamily w.info.af → w.modAnswer = true) ∧
        w.ans.epollAdd = true

section Init

variable {cfg : Configs} {w w' : World} {g : InitFn}

theorem not_undone_linked (hserver : w.shared.data .server = none)
    (hlinked : w'.shared.data .server = some .server) : ¬ Undone w w' := by
  intro h
  have heq := h.serverData
  rw [hlinked, hserver] at heq
  cases heq

theorem not_undone_open {fd : Int} (hnew : w.fds fd = none) (hopen : w'.fds fd ≠ none) :
    ¬ Undone w w' :=
  fun h => h.fds fd hopen hnew

/-- An error noted, and something left behind. -/
theorem left_iff {P : Prop} (hrep : w'.info.rep = repGenfail) (hleft : ¬ Undone w w') (hP : ¬ P) :
    (w'.Errs → Undone w w') ↔ P := by
  have herrs : w'.Errs := by
    rw [World.Errs, hrep]
    decide
  constructor
  · intro h
    exact absurd (h herrs) hleft
  · intro h
    exact absurd h hP

/-! ### `init_connect` -/

/-- The first attempt is made on a new socket, but for a literal address of another family. -/
theorem FirstAttempt.dials {r : Option Int} (h : FirstAttempt w r w') :
    (r = some (-1) ∧ w' = w ∧ ∃ sa, w.info.sa = some sa ∧ ¬ IpFamily sa.family) ∨
      w.Dials ∧ ∃ dst w₁, OpenConnect w dst r w₁ ∧ w'.fds = w₁.fds ∧ w'.shared = w₁.shared ∧
        w'.info.rep = w₁.info.rep := by
  cases h with
  | @unsupported f data ne hsa =>
    refine .inl ⟨rfl, rfl, _, hsa, ?_⟩
    rintro (hf | hf)
    · exact ne.1 hf
    · exact ne.2 hf
  | literal hsa h hip => exact .inr ⟨.inl ⟨_, hsa, hip⟩, _, _, h, rfl, rfl, rfl⟩
  | resolvedFailed hsa hai h =>
    exact .inr ⟨.inr ⟨hsa, by simp [hai]⟩, _, _, h, rfl, rfl, rfl⟩
  | resolved hsa hai h => exact .inr ⟨.inr ⟨hsa, by simp [hai]⟩, _, _, h, rfl, rfl, rfl⟩

theorem World.Dials.some_addr (h : w.Dials) :
    ¬ (w.info.sa = none ∧ w.info.ai = []) ∧ ¬ ∃ sa, w.info.sa = some sa ∧ ¬ IpFamily sa.family := by
  rcases h with ⟨sa, hsa, hip⟩ | ⟨hsa, hai⟩
  · refine ⟨fun h => ?_, ?_⟩
    · rw [hsa] at h
      cases h.1
    · rintro ⟨sa', hsa', hno⟩
      rw [hsa] at hsa'
      cases hsa'
      exact hno hip
  · refine ⟨fun h => hai h.2, ?_⟩
    rintro ⟨sa, hsa', -⟩
    rw [hsa] at hsa'
    cases hsa'

/-- Where there is an address to connect to, only the socket and the calls after it matter. -/
theorem World.Dials.cleanly_iff (h : w.Dials) : FailsCleanly cfg w .connect ↔ w.socketFd = none ∨
    w.Begins ∧ w.ans.mallocData = true ∧ w.ans.epollAdd = true ∧ ¬ w.Errs := by
  obtain ⟨hsome, hip⟩ := h.some_addr
  simp only [FailsCleanly, hsome, hip, h, false_and, false_or, true_and]

/-- The socket of an attempt that has begun. -/
theorem OpenConnect.begun {dst : SockAddr} {fd : Int} (h : OpenConnect w dst (some fd) w') :
    w.socketFd = some fd ∧ w.fds fd = none ∧ w.Begins ∧ w'.fds fd ≠ none ∧
      w'.info.rep = w.info.rep := by
  cases h with
  | started hans hpos hnew hok =>
    exact ⟨World.socketFd_eq_some.mpr ⟨hans, hpos, hnew⟩, hnew, hok, by simp, rfl⟩

theorem InitConnect.atomic_iff (hserver : w.shared.data .server = none)
    (hfds : ∀ fd, w.fds fd ≠ none → 0 ≤ fd) (h : InitConnect w w') :
    (w'.Errs → Undone w w') ↔ FailsCleanly cfg w .connect := by
  cases h with
  | noAddr hai hsa =>
    refine ⟨fun _ => .inl ⟨hsa, hai⟩, fun _ _ => ⟨fun fd h => h, rfl, rfl, rfl, rfl⟩⟩
  | notOpened h =>
    obtain ⟨hr, -, -⟩ | ⟨hdials, dst, w₁, ho, hfd, hshared, hrep⟩ := h.dials
    · cases hr
    have hdials' : w.Dials := hdials
    rw [hdials'.cleanly_iff]
    cases ho with
    | noSocket hno =>
      refine ⟨fun _ => .inl hno, fun _ _ => ⟨fun fd h => ?_, ?_, ?_, ?_, ?_⟩⟩
      · rwa [hfd] at h
      all_goals rw [hshared]; rfl
    | @refused fd hans hpos hnew herr =>
      refine left_iff hrep (not_undone_open hnew (by simp [hfd])) ?_
      have hsock : w.socketFd = some fd := World.socketFd_eq_some.mpr ⟨hans, hpos, hnew⟩
      rintro (hno | ⟨hbegins, -⟩)
      · rw [hsock] at hno
        cases hno
      · rcases hbegins with h | h | h
        · exact herr.1 h
        · exact herr.2.1 h
        · exact herr.2.2 h
  | @noMemory sfd w₁ h hmalloc =>
    obtain ⟨hr, rfl, hip⟩ | ⟨hdials, dst, w₂, ho, hfd, hshared, hrep⟩ := h.dials
    · refine ⟨fun _ => .inr (.inl ⟨hip, hmalloc⟩), fun _ _ => ⟨fun fd h => h, rfl, rfl, rfl, rfl⟩⟩
    obtain ⟨hsock, hnew, -, hopen, -⟩ := ho.begun
    have hdials' : w.Dials := hdials
    have hsock' : w.socketFd = some sfd := hsock
    rw [hdials'.cleanly_iff]
    refine left_iff rfl (not_undone_open hnew ?_) ?_
    · rw [World.setRep_fds, hfd]
      exact hopen
    · simp [hsock', hmalloc]
  | @unwatched sfd w₁ h hmalloc hadd =>
    refine left_iff rfl (not_undone_linked hserver (by simp)) ?_
    obtain ⟨-, -, sa, hsa, hno⟩ | ⟨hdials, dst, w₂, ho, hfd, hshared, hrep⟩ := h.dials
    · have hsa' : w.info.sa = some sa := hsa
      have hdials : ¬ w.Dials := fun hd => hd.some_addr.2 ⟨sa, hsa', hno⟩
      simp [FailsCleanly, hsa', hmalloc, hdials]
    · have hdials' : w.Dials := hdials
      rw [hdials'.cleanly_iff]
      cases ho with
      | @started _ hans hpos hnew hok =>
        have hsock : w.socketFd = some sfd := World.socketFd_eq_some.mpr ⟨hans, hpos, hnew⟩
        have hno : w.ans.epollAdd = false := by
          refine hadd { Sock.opened with nonblock := true } ?_ rfl
          rw [hfd]
          simp
        simp [hsock, hno]
  | @connecting sfd w₁ h hmalloc hadd hopen =>
    obtain ⟨hr, rfl, -⟩ | ⟨hdials, dst, w₂, ho, hfd, hshared, hrep⟩ := h.dials
    · cases hr
      exact absurd (hfds _ hopen) (by decide)
    have hdials' : w.Dials := hdials
    obtain ⟨hsock, hnew, hbegins, -, hrep'⟩ := ho.begun
    have hsock' : w.socketFd = some sfd := hsock
    have hbegins' : w.Begins := hbegins
    rw [hdials'.cleanly_iff]
    have hleft : ¬ Undone w (((w₁.connectStarted sfd).setInterest sfd
        (some (epollOut, some .server))).setState .connecting) :=
      not_undone_linked hserver (by simp)
    have herrs : (((w₁.connectStarted sfd).setInterest sfd
        (some (epollOut, some .server))).setState .connecting).Errs ↔ w.Errs := by
      show (w₁.info.rep ≠ _ ∧ w₁.info.rep ≠ _) ↔ _
      rw [hrep, hrep']
      rfl
    simp [hsock', hbegins', hmalloc, hadd, hleft, herrs]

/-! ### `init_bind` and `init_udpa` -/

theorem FinishReply.data_server {a : Option ReplyAddr} {r : Bool} (h : FinishReply w a r w') :
    w'.shared.data = w.shared.data := by
  cases h <;> simp [World.queueAddr]

theorem FinishReply.rep {a : Option ReplyAddr} {r : Bool} (h : FinishReply w a r w') :
    w'.info.rep = w.info.rep := by
  cases h <;> simp [World.queueAddr]

/-- Past its checks, only the calls that follow the linking matter. -/
theorem ListensOn.cleanly_iff (h : ListensOn cfg w g) {sfd : Int} (hsock : w.socketFd = some sfd)
    (haddr : w.info.sa ≠ none ∨ w.info.ai ≠ []) : FailsCleanly cfg w g ↔
      (g = .bind → w.ans.getsockname ≠ none) ∧ (IpFamily w.info.af → w.modAnswer = true) ∧
        w.ans.epollAdd = true := by
  have hsome : ¬ (w.info.sa = none ∧ w.info.ai = []) := not_and_or.mpr haddr
  cases g with
  | connect => exact h.elim
  | bind => simp [FailsCleanly, hsome, hsock, h]
  | udpa => simp [FailsCleanly, hsome, hsock, h]

theorem InitListen.atomic_iff (hg : g ≠ .connect) (hserver : w.shared.data .server = none)
    (h : InitListen cfg g w w') : (w'.Errs → Undone w w') ↔ FailsCleanly cfg w g := by
  have hstarted : ∀ {sfd a r w₁}, FinishReply (w.listenStarted g sfd) a r w₁ →
      w₁.shared.data .server = some .server := by
    intro sfd a r w₁ h
    rw [h.data_server]
    simp [World.listenStarted, World.queueHead]
  have hmod : ∀ {sfd a r w₁}, ListenReply cfg w g a →
      FinishReply (w.listenStarted g sfd) a r w₁ →
      (r = true ↔ (IpFamily w.info.af → w.modAnswer = true)) := by
    intro sfd a r w₁ ha h
    have hanswer : (w.listenStarted g sfd).modAnswer = w.modAnswer := by
      simp [World.listenStarted, World.queueHead, World.modAnswer]
    rw [h.modAnswer, hanswer, ha.isSome_iff]
  cases h with
  | notOpened hno =>
    refine ⟨fun _ => ?_, fun _ _ => ⟨fun fd h => h, rfl, rfl, rfl, rfl⟩⟩
    cases g with
    | connect => exact absurd rfl hg
    | bind => exact hno.imp id .inl
    | udpa => exact hno.imp id .inl
  | @failed sfd rep haddr hnew hrep hbad =>
    refine ⟨fun _ => ?_, fun _ _ => ⟨fun fd h => ?_, rfl, rfl, rfl, rfl⟩⟩
    · cases g with
      | connect => exact absurd rfl hg
      | bind => exact .inr (.inr (.inl hbad))
      | udpa => exact .inr (.inr (.inl hbad))
    · by_cases heq : fd = sfd <;> simp_all
  | unnamed haddr hnew hsock hready hbind hname =>
    rw [hready.cleanly_iff hsock haddr]
    exact left_iff rfl (not_undone_linked hserver (by simp)) fun h => h.1 hbind hname
  | unanswered haddr hnew ha h hsock hready =>
    rw [hready.cleanly_iff hsock haddr]
    refine left_iff rfl (not_undone_linked hserver (by simpa using hstarted h)) fun hall => ?_
    cases (hmod ha h).mpr hall.2.1
  | unlistened haddr hnew ha h hsock hready hadd =>
    rw [hready.cleanly_iff hsock haddr]
    refine left_iff rfl (not_undone_linked hserver (by simpa using hstarted h)) fun hall => ?_
    rw [hadd] at hall
    cases hall.2.2
  | listening haddr hnew ha h hans hadd hsock hready =>
    rw [hready.cleanly_iff hsock haddr]
    refine ⟨fun _ => ⟨?_, (hmod ha h).mp rfl, hadd⟩, fun _ herrs => ?_⟩
    · rintro rfl hname
      cases ha with
      | bind hadv hss => simp [hname] at hss
    · have hrep := h.rep
      simp [World.listenStarted, World.queueHead] at hrep
      simp [World.Errs, hrep] at herrs

end Init

/-- **When a failed command leaves nothing behind.** `init_connect`, `init_bind` and `init_udpa`,
called without a server side yet, leave neither a socket nor a server end, reply or state behind
an error they note if and only if they stop before the first thing that they do not undo. -/
theorem fails_atomically_iff {cfg : Configs} {w : World} {g : InitFn} (hw : Open w)
    (hserver : w.shared.data .server = none) (hfds : ∀ fd, w.fds fd ≠ none → 0 ≤ fd) :
    FailsAtomically cfg w g ↔ FailsCleanly cfg w g := by
  have hall : wp (g.run cfg) (fun _ w' => (w'.Errs → Undone w w') ↔ FailsCleanly cfg w g)
      (fun _ w' => (w'.Errs → Undone w w') ↔ FailsCleanly cfg w g) w := by
    cases g with
    | connect => exact wp_initConnect hw fun w' h => h.atomic_iff hserver hfds
    | bind => exact wp_initBind hw fun w' h => h.atomic_iff (by simp) hserver
    | udpa => exact wp_initUdpa hw fun w' h => h.atomic_iff (by simp) hserver
  exact hall.state

/-- A client that asks for 10.0.0.1, port 80, and the kernel's answers. -/
def askedFor (ans : Answers) : World :=
  ((newClient 5 (.inet ![4, 0] ![127, 0, 0, 1]) fun _ => .zero).taken [] ans).addrStored
    [5, cmdConn, 0, atypIpv4, 10, 0, 0, 1, 0, 80]

theorem askedFor_open (ans : Answers) : Open (askedFor ans) :=
  ((newClient_open (by decide) _ _).taken [] ans).addrStored _

theorem askedFor_fds (ans : Answers) (fd : Int) (h : (askedFor ans).fds fd ≠ none) : 0 ≤ fd := by
  by_cases hfd : fd = 5
  · simp [hfd]
  · exact absurd (if_neg hfd) h

/-- BIND without a configured address. -/
theorem fails_atomically_no_address :
    FailsAtomically .cleared (askedFor { Answers.idle with socket := some 6 }) .bind := by
  refine (fails_atomically_iff (askedFor_open _) rfl (askedFor_fds _)).mpr ?_
  refine .inr (.inr (.inl ?_))
  rintro ⟨⟨a, ha⟩, -⟩
  cases ha

/-- The socket of an attempt that is refused at once stays open. -/
theorem refused_socket_open :
    ¬ ∀ (cfg : Configs) (w : World) (g : InitFn), Open w → w.shared.data .server = none →
      (∀ fd, w.fds fd ≠ none → 0 ≤ fd) → FailsAtomically cfg w g := by
  intro h
  have hundone := h .cleared
    (askedFor { Answers.idle with socket := some 6, connectErrno := 111 }) .connect
    (askedFor_open _) rfl (askedFor_fds _) ⟨by decide +kernel, by decide +kernel⟩
  exact hundone.fds 6 (by decide +kernel) rfl

end Socksprox
