import Socksprox.Run.Attempts
import Socksprox.Run.Lifecycle

/-!
How often a request is answered. Six functions store replies into `client_out`, and both
`init_command` and its caller decide whether to send an error.
-/

namespace Socksprox

open Lib (wp)

/-! ### What the replies say -/

inductive Verdict where
  | success
  | failure
  deriving DecidableEq

/-- The message that begins with a chunk: the head of a success reply, or an error reply. -/
def verdict? (chunk : List UInt8) : Option Verdict :=
  if chunk = successHead then some .success
  else if chunk = errReply (chunk.getD 1 0) then some .failure
  else none

/-- A turn of the dialogue: a reply, or BIND beginning to wait for its peer. -/
inductive Turn where
  | reply (v : Verdict)
  | listening
  deriving DecidableEq

def Act.turn? : Act → Option Turn
  | .queued .client bytes => (verdict? bytes).map .reply
  | .state .bindListening => some .listening
  | _ => none

namespace World

variable (w : World)

/-- What was said to the client, reply by reply. -/
def verdicts : List Verdict := w.chunks.filterMap verdict?

/-- The dialogue up to the relay. -/
def turns : List Turn := (w.trace.takeWhile fun a => decide (a ≠ .state .full)).filterMap Act.turn?

end World

/-- The dialogues about a request that was answered: one reply, or for BIND a failure, or a success
and a second reply once the peer was waited for. -/
inductive Answered (cmd : UInt8) : List Turn → Prop where
  | failed : Answered cmd [.reply .failure]
  | served (hcmd : cmd ≠ cmdBind) : Answered cmd [.reply .success]
  | bound (hcmd : cmd = cmdBind) (v : Verdict) :
      Answered cmd [.reply .success, .listening, .reply v]

/-- Each request is answered once: nothing is said before it is carried out, and then what is said
is such a dialogue, or the beginning of one while BIND waits for its peer or its first reply is
still to be sent. -/
def World.AnsweredOnce (w : World) : Prop :=
  match w.shared.state with
  | .sendingReply =>
    if w.info.rep = repSuccess then w.turns = [.reply .success] else Answered w.info.cmd w.turns
  | .bindListening => w.info.cmd = cmdBind ∧ w.turns = [.reply .success, .listening]
  | .sendingReply2 | .full | .halfClose | .fullUdpa => Answered w.info.cmd w.turns
  | .closed => (∃ l, Answered w.info.cmd l ∧ w.turns <+: l) ∧
      (w.turns = [] → ∀ g, .invoked g ∉ w.trace)
  | _ => w.turns = []

section Verdicts

variable {cfg : Configs} {w w₁ w' : World} {e : Side} {ev : Events} {f : Option Fault} {g : InitFn}
  {a : Option ReplyAddr} {r : Bool}

theorem verdict?_eq_none {chunk : List UInt8} (h : chunk.length ≠ 3 ∧ chunk.length ≠ 10) :
    verdict? chunk = none := by
  unfold verdict?
  rw [if_neg, if_neg]
  · intro heq
    rw [heq, errReply_length] at h
    exact h.2 rfl
  · rintro rfl
    exact h.1 rfl

@[simp] theorem verdict?_successHead : verdict? successHead = some .success := if_pos rfl

@[simp] theorem verdict?_errReply (rep : UInt8) : verdict? (errReply rep) = some .failure := by
  simp [verdict?, errReply, successHead]

theorem World.verdicts_congr (h : w'.chunks = w.chunks) : w'.verdicts = w.verdicts := by
  rw [World.verdicts, h, World.verdicts]

/-- Address and port say nothing on their own. -/
def ReplyAddr.Silent (a : ReplyAddr) : Prop :=
  a.addr.length ≠ 3 ∧ a.addr.length ≠ 10 ∧ a.port.length ≠ 3 ∧ a.port.length ≠ 10

theorem SockAddr.replyAddr_silent {sa : SockAddr} {port : Octets 2} {a : ReplyAddr}
    (h : sa.replyAddr port = some a) : a.Silent := by
  cases sa with
  | inet p addr =>
    cases h
    simp [ReplyAddr.Silent]
  | inet6 p addr =>
    cases h
    simp [ReplyAddr.Silent]
  | other f data ne => cases h

theorem ListenReply.silent {a : ReplyAddr} (h : ListenReply cfg w g (some a)) : a.Silent := by
  generalize ha : some a = o at h
  cases h with
  | bind hadv hss => exact SockAddr.replyAddr_silent ha.symm
  | @udpa advertise hadv =>
    cases hsa : advertise.sa <;>
      simp_all [SockaddrLl.nodeReplyAddr, SockaddrLl.nodeOctets, ReplyAddr.Silent]

theorem ReplyAddr.Silent.chunks {a : ReplyAddr} (h : a.Silent) :
    a.chunks.filterMap verdict? = [] := by
  obtain ⟨h₁, h₂, h₃, h₄⟩ := h
  rw [ReplyAddr.chunks, List.filterMap_cons_none (verdict?_eq_none (by simp)),
    List.filterMap_cons_none (verdict?_eq_none ⟨h₁, h₂⟩),
    List.filterMap_cons_none (verdict?_eq_none ⟨h₃, h₄⟩), List.filterMap_nil]

theorem addrChunks_silent (h : ∀ a', a = some a' → a'.Silent) :
    (addrChunks a).filterMap verdict? = [] := by
  cases a with
  | none => rfl
  | some a => exact (h a rfl).chunks

/-- A success reply is one message. -/
theorem FinishReply.verdicts (hw : Open w₁) (hhead : w₁.chunks = w.chunks ++ [successHead])
    (hused : (w₁.shared.out .client).used ≤ 1000)
    (hshape : ∀ a', a = some a' → a'.octets.length ≤ 19 ∧ a'.Silent) (h : FinishReply w₁ a r w') :
    w'.verdicts = w.verdicts ++ [.success] := by
  rw [World.verdicts, h.chunks hw hused fun a' ha => (hshape a' ha).1, List.filterMap_append,
    addrChunks_silent fun a' ha => (hshape a' ha).2, List.append_nil, hhead, List.filterMap_append]
  rfl

/-- An error reply is one message, whether it reaches the client or not. -/
theorem ReplyWithErr.verdicts (hroom : 10 ≤ (w.shared.out .client).free) (h : ReplyWithErr w e w') :
    w'.verdicts = w.verdicts ++ [.failure] := by
  have hchunks : w'.chunks = w.chunks ++ [errReply (normRep w.info.rep)] := by
    cases h with
    | replied hroom hmod => exact errReplied_chunks hroom
    | lost h =>
      cases h with
      | noRoom hfull => omega
      | unwatched hroom hmod =>
        rw [World.chunks_hungUp, World.chunks_popMod, World.chunks_queue]
        · rfl
        · exact hroom
  simp [World.verdicts, hchunks]

/-- It is sent, or the connection ends. -/
theorem ReplyWithErr.ends (h : ReplyWithErr w e w') :
    w'.shared.state = .sendingReply ∧ w'.info.rep ≠ repSuccess ∨ w'.shared.state = .closed := by
  cases h with
  | replied hroom hmod =>
    refine .inl ⟨rfl, ?_⟩
    have hrep : w.errReplied.info.rep = normRep w.info.rep := by simp [World.errReplied]
    rw [hrep, normRep]
    split
    · decide
    · rename_i hin
      rintro heq
      simp [heq, repSuccess] at hin
  | lost h => exact .inr h.state

end Verdicts

/-! ### One answer -/

/-- A success reply is on its way, and nothing else was said. -/
structure Granted (w w' : World) : Prop where
  state : w'.shared.state = .sendingReply
  rep : w'.info.rep = repSuccess
  verdicts : w'.verdicts = w.verdicts ++ [.success]

/-- An error reply was queued, and nothing else was said. -/
structure Denied (w w' : World) : Prop where
  ends : w'.shared.state = .sendingReply ∧ w'.info.rep ≠ repSuccess ∨ w'.shared.state = .closed
  verdicts : w'.verdicts = w.verdicts ++ [.failure]

/-- The server's connection is awaited, and nothing was said. -/
structure Awaiting (w w' : World) : Prop where
  state : w'.shared.state = .connecting
  registered : w'.Registered (w'.shared.fd .server)
  verdicts : w'.verdicts = w.verdicts

/-- A success reply that is begun for BIND or UDP ASSOCIATE is finished, and the descriptor is
watched. -/
def World.Completes (cfg : Configs) (w : World) : Prop :=
  w.Promises cfg → w.ans.epollAdd = true ∧ (IpFamily w.info.af → w.modAnswer = true)

section Commands

variable {cfg : Configs} {w w₁ w' : World} {e : Side} {ev : Events} {f : Option Fault} {g : InitFn}

theorem ReplyWithErr.denied {v : World} {rep : UInt8} (hroom : 10 ≤ (v.shared.out .client).free)
    (hsame : v.verdicts = w.verdicts) (h : ReplyWithErr (v.setRep rep) e w') : Denied w w' where
  ends := h.ends
  verdicts := by
    have hrep : (v.setRep rep).verdicts = w.verdicts := hsame
    rw [ReplyWithErr.verdicts (w := v.setRep rep) hroom h, hrep]

theorem InitListen.verdicts (hw : Open w) (hused : (w.shared.out .client).used ≤ 900)
    (hcmd : w.info.cmd = g.cmd) (hallow : cfg.allow g = true) (hkeeps : w.Completes cfg)
    (h : InitListen cfg g w w') :
    Granted w w' ∨ (w'.info.rep = repGenfail ∨ w'.info.rep = repBadatyp) ∧
      w'.verdicts = w.verdicts := by
  have hpromised : ∀ {sfd a}, (w.info.sa ≠ none ∨ w.info.ai ≠ []) → w.socketFd = some sfd →
      ListensOn cfg w g → ListenReply cfg w g a → w.Promises cfg := fun haddr hsock hready ha =>
    ha.promises hcmd hallow haddr hsock hready
  cases h with
  | notOpened hno => exact .inr ⟨.inl rfl, World.verdicts_congr (by simp [Act.chunk?])⟩
  | failed haddr hnew hrep hbad => exact .inr ⟨hrep, World.verdicts_congr (by simp [Act.chunk?])⟩
  | unnamed haddr hnew hsock hready hbind hname =>
    exact .inr ⟨.inl rfl, World.verdicts_congr (by simp [Act.chunk?])⟩
  | @unanswered sfd a _ haddr hnew ha hr hsock hready =>
    have hmod := (hkeeps (hpromised haddr hsock hready ha)).2
    have hanswer : (w.listenStarted g sfd).modAnswer = w.modAnswer := by
      simp [World.listenStarted, World.queueHead, World.modAnswer]
    cases hr.modAnswer.mpr fun hsome => hanswer.trans (hmod (ha.isSome_iff.mp hsome))
  | unlistened haddr hnew ha hr hsock hready hadd =>
    have hok := (hkeeps (hpromised haddr hsock hready ha)).1
    rw [hadd] at hok
    cases hok
  | @listening sfd a w₁ haddr hnew ha hr hans hadd hsock hready =>
    have hopened : Open ((w.emit (.invoked g)).opened sfd (g == .bind)) :=
      (open_emit.mpr hw).opened hnew _
    have hlinked := hopened.linkServer (hw.ne_client hnew)
    have hstarted : Open ((((w.emit (.invoked g)).opened sfd (g == .bind)).linkServer sfd).setRep
        repSuccess) := open_setRep.mpr hlinked
    obtain ⟨hhead, hused'⟩ : (w.listenStarted g sfd).chunks = w.chunks ++ [successHead] ∧
        ((w.listenStarted g sfd).shared.out .client).used ≤ 1000 := by
      simpa [World.listenStarted, Act.chunk?] using hstarted.chunks_queueHead hused
    have hsaid : w₁.verdicts = w.verdicts ++ [.success] := by
      refine hr.verdicts ?_ hhead hused' ?_
      · simpa [World.listenStarted, World.queueHead] using hlinked
      · rintro a' rfl
        exact ⟨ha.length, ha.silent⟩
    have hrep := hr.rep
    refine .inl ⟨rfl, by simpa [World.listenStarted, World.queueHead] using hrep, ?_⟩
    rw [← hsaid]
    exact World.verdicts_congr (by simp)

theorem InitConnect.awaiting (hrep : w'.info.rep = repUnset ∨ w'.info.rep = repSuccess)
    (h : InitConnect w w') : Awaiting w w' := by
  have hverdicts := World.verdicts_congr h.chunks
  have hne : w'.info.rep ≠ repGenfail := by
    rcases hrep with hrep | hrep <;> rw [hrep] <;> decide
  cases h with
  | noAddr hai hsa => exact absurd rfl hne
  | notOpened h => exact absurd h.rep hne
  | noMemory h hmalloc => exact absurd rfl hne
  | unwatched h => exact absurd rfl hne
  | @connecting sfd w₁ h hmalloc hadd hopen =>
    refine ⟨rfl, ?_, hverdicts⟩
    obtain ⟨sk, hsk⟩ := Option.ne_none_iff_exists'.mp hopen
    simp [World.Registered, hsk]

/-- A command that is allowed is answered once. -/
theorem CommandDone.answered {o : Obj} (hw : Open w) (hused : (w.shared.out .client).used ≤ 900)
    (hallow : cfg.allows w.info.cmd = true) (hkeeps : w.Completes cfg)
    (h : CommandDone cfg w o f w') :
    Awaiting w w' ∨ Granted w w' ∨ Denied w w' := by
  have hlisten : ∀ {g : InitFn} {w'}, w.info.cmd = g.cmd → cfg.allow g = true →
    InitListen cfg g w w' →
      Granted w w' ∨ (w'.info.rep = repGenfail ∨ w'.info.rep = repBadatyp) ∧
        w'.verdicts = w.verdicts := fun hcmd hallow h => h.verdicts hw hused hcmd hallow hkeeps
  have hbad : ∀ {w' : World}, (w'.info.rep = repGenfail ∨ w'.info.rep = repBadatyp) →
      ¬ (w'.info.rep = repUnset ∨ w'.info.rep = repSuccess) := by
    rintro w' (hrep | hrep) <;> rw [hrep] <;> decide
  cases h with
  | refusedLost hno h =>
    rw [hallow] at hno
    cases hno
  | refused hno hroom hmod h =>
    rw [hallow] at hno
    cases hno
  | started h hrep =>
    cases h with
    | connect hcmd hallow h => exact .inl (h.awaiting hrep)
    | bind hcmd hallow h =>
      exact .inr (.inl ((hlisten (g := .bind) hcmd hallow h).resolve_right fun h => hbad h.1 hrep))
    | udpa hcmd hallow h =>
      exact .inr (.inl ((hlisten (g := .udpa) hcmd hallow h).resolve_right fun h => hbad h.1 hrep))
  | @failed w₁ _ h hrep hreply =>
    have hnothing : ∀ {g : InitFn}, w.info.cmd = g.cmd → cfg.allow g = true →
      InitListen cfg g w w₁ →
        w₁.verdicts = w.verdicts := fun hcmd hallow h =>
      ((hlisten hcmd hallow h).resolve_left fun h => hrep.2 h.rep).2
    have hused₁ := h.used
    have hroom : 10 ≤ (w₁.shared.out .client).free := by
      rw [World.free_of_open _ (h.open hw), outbuffsize]
      omega
    refine .inr (.inr ⟨hreply.ends, ?_⟩)
    rw [hreply.verdicts hroom]
    cases h with
    | connect hcmd hallow h => rw [World.verdicts_congr h.chunks]
    | bind hcmd hallow h => rw [hnothing (g := .bind) hcmd hallow h]
    | udpa hcmd hallow h => rw [hnothing (g := .udpa) hcmd hallow h]

end Commands

/-! ### The handshake -/

/-- Nothing was said, and no command was carried out. -/
structure Silent (w w' : World) : Prop where
  state : w'.shared.state.early = true ∨ w'.shared.state = .closed
  verdicts : w'.verdicts = w.verdicts
  invoked : ∀ g, .invoked g ∈ w'.trace → .invoked g ∈ w.trace

/-- A request that is carried out is answered once: its lookup did not fail, its command is allowed,
and a success reply that is begun for it is finished. -/
def World.KeepsRequest (cfg : Configs) (w : World) : Prop :=
  w.Carries cfg → (w.info.resolverRet = 0 ∨ w.info.resolverRet = -1) ∧
    cfg.allows w.asking.cmd = true ∧ (w.setInfo w.asking).Completes cfg

section Handshake

variable {cfg : Configs} {w w₁ w' : World} {e : Side} {ev : Events} {f : Option Fault}

theorem World.verdicts_queue {bytes : List UInt8} (h : verdict? bytes = none) :
    (w.queue .client bytes).verdicts = w.verdicts := by
  unfold World.queue
  split
  · rw [World.verdicts, World.chunks_emit, List.filterMap_append]
    simp only [Act.chunk?, Option.toList_some, List.filterMap_cons_none h, List.filterMap_nil,
      List.append_nil]
    rfl
  · rfl

theorem WaitingMethods.silent (hs : w.shared.state = .waitingMethods)
    (h : WaitingMethods cfg w e ev w') : Silent w w' where
  state := by rcases h.state hs with hs' | hs' | hs' <;> simp [hs']
  invoked g := h.adds.mem_trace rfl
  verdicts := by
    have hchosen : ∀ {got bytes r w₁},
        Recv w (w.shared.fd .client) (w.shared.out .server).free r w₁ →
          ((w₁.queue .server bytes).methodChosen cfg got).verdicts = w.verdicts := by
      intro got bytes r w₁ hrecv
      rw [World.methodChosen, World.verdicts_congr (World.chunks_setInfo _ _),
        World.verdicts_congr (World.chunks_setState _ _),
          World.verdicts_queue (verdict?_eq_none (by simp))]
      exact World.verdicts_congr (by simp [hrecv.chunks])
    cases h with
    | idle hunwanted => rfl
    | ended hrecv hr => exact World.verdicts_congr (by simp [hrecv.chunks])
    | part hrecv hgot hpart => exact World.verdicts_congr (by simp [hrecv.chunks])
    | badVersion hrecv hgot hcomplete hversion =>
      exact World.verdicts_congr (by simp [hrecv.chunks])
    | unwatched hrecv hgot hcomplete hversion hmod =>
      rw [World.verdicts_congr (World.chunks_hungUp _ _),
        World.verdicts_congr (World.chunks_popMod _)]
      exact hchosen hrecv
    | chosen hrecv hgot hcomplete hversion hmod =>
      rw [World.verdicts_congr (World.chunks_watchSend _)]
      exact hchosen hrecv

theorem SendingMethod.silent (hs : w.shared.state = .sendingMethod) (h : SendingMethod w e ev w') :
    Silent w w' where
  state := by rcases h.state hs with hs' | hs' | hs' <;> simp [hs']
  invoked g := h.does.mem_trace rfl
  verdicts := World.verdicts_congr (h.does.chunks fun _ => rfl)

theorem Carried.keeps {x : World} (hx : Carried cfg w x) (hkeeps : w.KeepsRequest cfg) :
    x.Completes cfg := by
  intro hpromises
  have hnew : ∀ fd, x.newFd fd = w.newFd fd := fun fd => by
    have hfd := hx.fds fd
    simp only [World.newFd, hfd]
  have hsock : x.socketFd = w.socketFd := by
    rw [World.socketFd, World.socketFd, hx.ans]
    congr 1
    exact funext hnew
  have hsame : (w.setInfo w.asking).Promises cfg := by
    obtain ⟨g, hcmd, hallow, haddr, hfd, hready, hname⟩ := hpromises
    rw [hx.info] at hcmd haddr
    rw [hsock] at hfd
    rw [hx.ans] at hname
    refine ⟨g, hcmd, hallow, haddr, hfd, ?_, hname⟩
    cases g with
    | connect => exact hready.elim
    | bind => simpa [ListensOn, hx.info, hx.ans] using hready
    | udpa => simpa [ListensOn, hx.info, hx.ans] using hready
  have hok := (hkeeps hx.carries).2.2 hsame
  simpa [World.modAnswer, hx.ans, hx.info] using hok

/-- A request is answered once, if at all. -/
theorem WaitingCommand.answered (hw : Open w) (hs : w.shared.state = .waitingCommand)
    (hempty : (w.shared.out .client).contents = []) (hkeeps : w.KeepsRequest cfg)
    (h : WaitingCommand cfg w e ev f w') :
    Silent w w' ∨ Awaiting w w' ∨ Granted w w' ∨ Denied w w' := by
  have hused : (w.shared.out .client).used = 0 := Ring.contents_eq_nil.mp hempty
  have hearly : ∀ {st : State}, st = .waitingCommand → st.early = true := by
    rintro st rfl
    rfl
  cases h with
  | idle hidle => exact .inl ⟨.inl (hearly hs), rfl, fun g hg => hg⟩
  | resolver hret h =>
    obtain ⟨hzero | hone, hallow, hkept⟩ := hkeeps (.inl hret)
    · have hasking : w.asking = w.info := if_neg hret
      rw [hasking] at hallow hkept
      cases h with
      | lost hne h => exact absurd hzero hne
      | failed hne hroom hmod h => exact absurd hzero hne
      | resolved hzero h => exact .inr (h.answered hw (by omega) hallow hkept)
    · exact absurd hone hret
  | ended hret hrecv hr =>
    refine .inl ⟨.inr rfl, World.verdicts_congr (by simp [hrecv.chunks]), fun g => ?_⟩
    exact Adds.mem_trace (K := Act.isRelay)
      (((Does.refl w).recv hrecv (fun _ => rfl) rfl).hungUp .client rfl).trace rfl
  | @data bytes got w₁ _ _ hret hrecv hgot h hne =>
    obtain rfl : got = w.gathered := hgot.trans hrecv.gathered
    have hverdicts : (w₁.queue .server bytes).verdicts = w.verdicts :=
      World.verdicts_congr (by simp [hrecv.chunks])
    have hstate : (w₁.queue .server bytes).shared.state = .waitingCommand := by
      simpa [hrecv.shared] using hs
    have hqueued : Adds Act.isRelay w (w₁.queue .server bytes) :=
      (((Does.refl w).recv hrecv (fun _ => rfl) rfl).queue .server bytes rfl).trace
    have hroom : 10 ≤ ((w₁.queue .server bytes).shared.out .client).free := by
      have hout : (w₁.queue .server bytes).shared.out .client = w.shared.out .client := by
        simp [hrecv.shared]
      rw [hout, World.free_of_open _ hw, hused]
      decide
    cases h with
    | short hlen => exact .inl ⟨.inl (hearly hstate), hverdicts, fun g => hqueued.mem_trace rfl⟩
    | badAtyp hlen htotal h => exact .inr (.inr (.inr (h.denied hroom hverdicts)))
    | part hlen htotal hpart =>
      exact .inl ⟨.inl (hearly hstate), hverdicts, fun g => hqueued.mem_trace rfl⟩
    | badVersion hlen htotal hcomplete hversion =>
      refine .inl ⟨.inr rfl, ?_, fun g => ?_⟩
      · rw [← hverdicts]
        exact World.verdicts_congr (World.chunks_hungUp _ _)
      · exact Adds.mem_trace (K := Act.isRelay)
          (hqueued.trans ((Does.refl _).hungUp .client rfl).trace) rfl
    | run hlen htotal hcomplete hversion h =>
      cases h with
      | domain hatyp =>
        refine .inl ⟨.inl rfl, ?_, fun g hg => ?_⟩
        · rw [← hverdicts]
          exact World.verdicts_congr (does_asked.chunks fun _ => rfl)
        · have hstored : .invoked g ∈ ((w₁.queue .server bytes).commandStored
              (w.gathered.take 300)).trace :=
            does_asked.mem_trace rfl hg
          exact hqueued.mem_trace rfl hstored
      | noMemory hatyp hmalloc =>
        exact .inl ⟨.inl (hearly hstate), hverdicts, fun g => hqueued.mem_trace rfl⟩
      | dropped hatyp hfirewall h =>
        refine .inr (.inr (.inr (h.denied ?_ ?_)))
        · exact hroom
        rw [← hverdicts]
        exact World.verdicts_congr
          (by simp [World.addrStored, World.setMem, World.chunks, Act.chunk?])
      | passed hatyp hfirewall h hmalloc =>
        have hx := hrecv.carried hw hret hne rfl hlen htotal hcomplete hversion hatyp
          (by simpa [hrecv.ans] using hmalloc) hfirewall
        have hallow := (hkeeps hx.carries).2.1
        rw [← hx.info] at hallow
        have hanswered := h.answered hx.isOpen (by rw [hx.out]; omega) hallow (hx.keeps hkeeps)
        have hsame := World.verdicts_congr hx.chunks
        rcases hanswered with ha | ha | ha
        · exact .inr (.inl ⟨ha.state, ha.registered, ha.verdicts.trans hsame⟩)
        · exact .inr (.inr (.inl ⟨ha.state, ha.rep, hsame ▸ ha.verdicts⟩))
        · exact .inr (.inr (.inr ⟨ha.ends, hsame ▸ ha.verdicts⟩))

end Handshake

/-! ### The server's descriptor -/

/-- The success reply to CONNECT is finished: `getsockname` names a family that a reply can say,
and epoll takes the reply and the server's descriptor. Without such a family the next address is
tried. -/
def World.KeepsConnected (w : World) : Prop :=
  w.ans.soError = some 0 → ∀ ss, w.ans.getsockname = some ss →
    (IpFamily ss.family → ∀ b ∈ w.ans.epollMod.take 2, b = true) ∧
      (¬ IpFamily ss.family → w.info.ai[w.info.aiIndex + 1]? ≠ none)

/-- The second reply to BIND is finished. -/
def World.KeepsPeer (w : World) : Prop :=
  w.PeerMatches → w.ans.epollAdd = true → ∀ fd ss, w.ans.accept = some (fd, ss) →
    IpFamily ss.family ∧ w.modAnswer = true

section Server

variable {w w₁ w' : World} {e : Side} {ev : Events}

theorem Connecting.answered (hw : Open w) (hs : w.shared.state = .connecting)
    (hd : w.mem (.data .server) = .live) (hempty : (w.shared.out .client).contents = [])
    (hreg : w.Registered (w.shared.fd .server)) (hkeeps : w.KeepsConnected)
    (h : Connecting w e ev w') : Awaiting w w' ∨ Granted w w' ∨ Denied w w' := by
  have hused : (w.shared.out .client).used ≤ 900 := by
    rw [Ring.contents_eq_nil.mp hempty]
    decide
  have hroom : 10 ≤ (w.shared.out .client).free := by
    rw [World.free_of_open _ hw, Ring.contents_eq_nil.mp hempty]
    decide
  have hgranted : ∀ {ss a r w₁}, ss.replyAddr ss.port = a → FinishReply (w.connectedTo ss) a r w₁ →
      Granted w w₁ := by
    intro ss a r w₁ haddr hr
    obtain ⟨hhead, hused'⟩ := connectedTo_chunks hw hused ss
    obtain ⟨-, hinfo, -, -, hstate⟩ := hr.server
    refine ⟨hstate, ?_, hr.verdicts (hw.connectedTo ss) hhead hused' ?_⟩
    · rw [hinfo]
      simp [World.connectedTo, World.queueHead]
    · rintro a' rfl
      exact ⟨SockAddr.replyAddr_length haddr, SockAddr.replyAddr_silent haddr⟩
  cases h with
  | idle hidle => exact .inl ⟨hs, hreg, rfl⟩
  | unknown hso h => exact .inr (.inr (h.denied hroom rfl))
  | failed hso herr h =>
    cases h with
    | retry hlen hget =>
      refine .inl ⟨hs, hreg, World.verdicts_congr ?_⟩
      rw [World.chunks_emit]
      exact List.append_nil _
    | exhausted hlen hget h => exact .inr (.inr (h.denied (v := w.nextAddr) hroom rfl))
    | single hlen h => exact .inr (.inr (h.denied hroom rfl))
  | unnamed hso hname h => exact .inr (.inr (h.denied (v := w.setRep repSuccess) hroom rfl))
  | @oddFamily ss _ hso hname haddr h =>
    have hodd : ¬ IpFamily ss.family := fun hip => by
      obtain ⟨a, ha⟩ := (@SockAddr.replyAddr_isSome ss ss.port).mpr hip
      rw [haddr] at ha
      cases ha
    have hnext := (hkeeps hso ss hname).2 hodd
    have hinfo : (w.connectedTo ss).info.ai = w.info.ai ∧
        (w.connectedTo ss).info.aiIndex = w.info.aiIndex := by
      simp [World.connectedTo, World.queueHead]
    have hg := hgranted haddr .skipped
    cases h with
    | retry hlen hget =>
      refine .inr (.inl ⟨hg.state, hg.rep, ?_⟩)
      rw [← hg.verdicts]
      refine World.verdicts_congr ?_
      rw [World.chunks_emit]
      exact List.append_nil _
    | exhausted hlen hget h =>
      rw [hinfo.1, hinfo.2] at hget
      exact absurd hget hnext
    | single hlen h =>
      rw [hinfo.1] at hlen
      exact absurd (List.getElem?_eq_none_iff.mpr (by omega)) hnext
  | @unanswered ss a w₁ _ hso hname haddr hr h =>
    have hmods := (hkeeps hso ss hname).1 (SockAddr.replyAddr_isSome.mp ⟨a, haddr⟩)
    cases hr with
    | unwatched hmod =>
      have hanswer : (w.connectedTo ss).modAnswer = w.modAnswer := by
        simp [World.connectedTo, World.queueHead, World.modAnswer]
      rw [hanswer, (World.modAnswer_of_take hmods).1] at hmod
      cases hmod
  | @unwatched ss a w₁ w₂ _ hso hname haddr hr hmod h =>
    have hmods := (hkeeps hso ss hname).1 (SockAddr.replyAddr_isSome.mp ⟨a, haddr⟩)
    have htail := (World.modAnswer_of_take hmods).2
    rw [World.popMod_ans_epollMod] at htail
    cases hr.watched (hw.self .server hd) hreg htail hmod
  | connected hso hname haddr hr hmod =>
    have hg := hgranted haddr hr
    refine .inr (.inl ⟨?_, ?_, ?_⟩)
    · rw [hmod.shared]
      exact hg.state
    · rw [hmod.info]
      exact hg.rep
    · rw [← hg.verdicts]
      exact World.verdicts_congr (by cases hmod; rfl)

/-- The second reply to BIND, which is the last one. -/
theorem BindListening.answered (hw : Open w) (hd : w.mem (.data .server) = .live)
    (hempty : (w.shared.out .client).contents = []) (hkeeps : w.KeepsPeer)
    (h : BindListening w e ev w') :
    w' = w ∨ Denied w w' ∨
      w'.shared.state = .sendingReply2 ∧ w'.verdicts = w.verdicts ++ [.success] := by
  have hused : (w.shared.out .client).used ≤ 900 := by
    rw [Ring.contents_eq_nil.mp hempty]
    decide
  have hroom : 10 ≤ (w.shared.out .client).free := by
    rw [World.free_of_open _ hw, Ring.contents_eq_nil.mp hempty]
    decide
  have hpeer : ∀ fd ss, (w.acceptedPeer fd ss).verdicts = w.verdicts := fun fd ss =>
    World.verdicts_congr (w.chunks_acceptedPeer fd ss)
  have hanswers : ∀ {fd ss req}, w.ans.accept = some (fd, ss) → w.info.reqAddr = some req →
      peerDiffers req ss = false → w.ans.epollAdd = true →
        IpFamily ss.family ∧ w.modAnswer = true :=
    fun hans hreq hsame hadd =>
      hkeeps (by simp [World.PeerMatches, hans, hreq, hsame]) hadd _ _ hans
  have hadded : ∀ {fd ss w₁},
      Added ((w.acceptedPeer fd ss).rehomed fd) fd (epollIn, some .server) true w₁ →
        w.ans.epollAdd = true := by
    intro fd ss w₁ hadd
    cases hadd with
    | done hsk hi hadd => exact hadd
  cases h with
  | idle hidle => exact .inl rfl
  | noPeer hnone h => exact .inr (.inl (h.denied hroom rfl))
  | @noRequest fd ss _ hans hnew hreq h =>
    exact .inr (.inl (h.denied (v := w.acceptedPeer fd ss) hroom (hpeer fd ss)))
  | @otherPeer fd ss _ _ hans hnew hreq hdiff h =>
    exact .inr (.inl (h.denied (v := w.acceptedPeer fd ss) hroom (hpeer fd ss)))
  | @unwatched fd ss _ _ hans hnew hreq hsame he hadd h =>
    exact .inr (.inl (h.denied (v := (w.acceptedPeer fd ss).rehomed fd) hroom (hpeer fd ss)))
  | @oddFamily fd ss req w₁ _ hans hnew hreq hsame he hadd haddr h =>
    have hip := (hanswers hans hreq hsame (hadded hadd)).1
    obtain ⟨a, ha⟩ := (@SockAddr.replyAddr_isSome ss ss.port).mpr hip
    rw [haddr] at ha
    cases ha
  | @unanswered fd ss req a w₁ w₂ _ hans hnew hreq hsame he hadd haddr hr h =>
    have hmod := (hanswers hans hreq hsame (hadded hadd)).2
    cases hr with
    | unwatched hno =>
      have hanswer : ((w₁.setRep repSuccess).queueHead repSuccess).modAnswer = w.modAnswer := by
        cases hadd
        simp [World.queueHead, World.modAnswer, World.acceptedPeer]
      rw [hanswer, hmod] at hno
      cases hno
  | @accepted fd ss req a w₁ w₂ hans hnew hreq hsame he hadd haddr hr =>
    have hopen : Open (w.acceptedPeer fd ss) :=
      Open.noted (open_emit.mpr (hw.setFd (hw.ne_client hnew) _)) ss
    have hset : Open (w₁.setRep repSuccess) :=
      open_setRep.mpr (hadd.open (hopen.rehomed (hw.ne_client hnew) hd))
    have hkept : (w₁.setRep repSuccess).chunks = w.chunks ∧
        ((w₁.setRep repSuccess).shared.out .client).used ≤ 900 := by
      cases hadd
      exact ⟨w.chunks_acceptedPeer fd ss, hused⟩
    obtain ⟨hhead, hused'⟩ := hset.chunks_queueHead hkept.2
    rw [hkept.1] at hhead
    refine .inr (.inr ⟨rfl, ?_⟩)
    have hsaid : w₂.verdicts = w.verdicts ++ [.success] := by
      refine hr.verdicts (by simpa [World.queueHead] using hset) hhead hused' fun a' ha => ?_
      cases ha
      exact ⟨SockAddr.replyAddr_length haddr, SockAddr.replyAddr_silent haddr⟩
    rw [← hsaid]
    exact World.verdicts_congr (by simp)

end Server

/-! ### The dialogue -/

/-- Each request is answered once, and what goes with the state of the connection. -/
structure World.Answering (w : World) : Prop where
  once : w.AnsweredOnce
  early : w.shared.state.early = true → ∀ g, .invoked g ∉ w.trace
  relayed : .state .full ∈ w.trace → w.shared.state = .full ∨ w.shared.state = .halfClose ∨
    w.shared.state = .closed
  relays : w.shared.state = .full ∨ w.shared.state = .halfClose → .state .full ∈ w.trace
  registered : w.shared.state = .connecting → w.Registered (w.shared.fd .server)

section Dialogue

variable {cfg : Configs} {w w₁ w' : World} {e : Side} {ev : Events} {f : Option Fault}
  {K : Act → Bool}

theorem Answered.ne_nil {cmd : UInt8} {l : List Turn} (h : Answered cmd l) : l ≠ [] := by
  cases h <;> simp

/-- Before the relay all acts count. -/
theorem World.turns_of_notMem (h : .state .full ∉ w.trace) :
    w.turns = w.trace.filterMap Act.turn? := by
  rw [World.turns, List.takeWhile_eq_self_iff.mpr]
  intro a ha
  simp only [ne_eq, decide_eq_true_eq]
  rintro rfl
  exact h ha

theorem World.turns_concat {a : Act} (hfull : .state .full ∉ w.trace)
    (htrace : w'.trace = w.trace ++ [a]) : w'.turns = w.turns ++ a.turn?.toList := by
  have hall := w.turns_of_notMem hfull
  rw [World.turns_of_notMem hfull, World.turns, htrace, List.takeWhile_append_of_pos]
  · rw [List.filterMap_append]
    congr 1
    by_cases ha : a = .state .full
    · subst ha
      rfl
    · rw [List.takeWhile_cons_of_pos (by simpa using ha)]
      cases h : a.turn? <;> simp [h]
  · intro b hb
    simp only [ne_eq, decide_eq_true_eq]
    rintro rfl
    exact hfull hb

/-- What is said before the relay, and while no peer is waited for. -/
theorem Adds.turns {l : List Verdict} (h : Adds K w w') (hfull : .state .full ∉ w.trace)
    (hK : K (.state .full) = false) (hlisten : K (.state .bindListening) = false)
    (hl : w'.verdicts = w.verdicts ++ l) : w'.turns = w.turns ++ l.map .reply := by
  have hfull' : .state .full ∉ w'.trace := fun hin => hfull (h.mem_trace hK hin)
  obtain ⟨acts, htrace, hacts⟩ := h
  have hsaid : (acts.filterMap Act.chunk?).filterMap verdict? = l := by
    rw [World.verdicts, World.chunks, htrace, List.filterMap_append, List.filterMap_append] at hl
    exact List.append_cancel_left hl
  have hturns : acts.filterMap Act.turn? = l.map .reply := by
    rw [← hsaid, List.filterMap_filterMap, List.map_filterMap]
    refine List.filterMap_congr fun a ha => ?_
    have hkind := hacts a ha
    cases a with
    | queued s bytes => cases s <;> rfl
    | state st =>
      cases st with
      | bindListening =>
        rw [hlisten] at hkind
        cases hkind
      | _ => rfl
    | _ => rfl
  rw [World.turns_of_notMem hfull', World.turns_of_notMem hfull, htrace,
    List.filterMap_append, hturns]

/-- Nothing is said after the relay began. -/
theorem Adds.turns_relay (h : Adds K w w') (hfull : .state .full ∈ w.trace) :
    w'.turns = w.turns := by
  obtain ⟨acts, htrace, -⟩ := h
  rw [World.turns, World.turns, htrace, List.takeWhile_append]
  split
  · rename_i hall
    have hself := (List.takeWhile_prefix _).eq_of_length hall
    have hbefore := List.takeWhile_eq_self_iff.mp hself _ hfull
    simp at hbefore
  · rfl

/-- Before the request is carried out nothing was said. -/
theorem World.AnsweredOnce.turns_nil (h : w.AnsweredOnce)
    (hs : w.shared.state.early = true ∨ w.shared.state = .connecting) : w.turns = [] := by
  unfold World.AnsweredOnce at h
  cases hst : w.shared.state <;> simp_all

theorem World.Answering.notMem_full (h : w.Answering)
    (hs : w.shared.state ≠ .full ∧ w.shared.state ≠ .halfClose ∧ w.shared.state ≠ .closed) :
    .state .full ∉ w.trace := fun hin => by
  rcases h.relayed hin with hst | hst | hst
  · exact hs.1 hst
  · exact hs.2.1 hst
  · exact hs.2.2 hst

/-- A step of the handshake. -/
theorem World.Answering.silent (h : w.Answering) (hearly : w.shared.state.early = true)
    (hadds : Adds K w w') (hK : K (.state .full) = false)
    (hlisten : K (.state .bindListening) = false)
    (hsilent : Silent w w') : w'.Answering := by
  have hfull : .state .full ∉ w.trace := h.notMem_full (by
    cases hst : w.shared.state <;> simp_all)
  have hturns : w'.turns = [] := by
    rw [hadds.turns (l := []) hfull hK hlisten (by simpa using hsilent.verdicts),
      h.once.turns_nil (.inl hearly)]
    rfl
  have huncalled : ∀ g, .invoked g ∉ w'.trace :=
    fun g hin => h.early hearly g (hsilent.invoked g hin)
  have hfull' : .state .full ∉ w'.trace := fun hin => hfull (hadds.mem_trace hK hin)
  refine ⟨?_, fun _ => huncalled, fun hin => absurd hin hfull', fun hst => ?_, fun hst => ?_⟩
  · rcases hsilent.state with hs | hs
    · unfold World.AnsweredOnce
      cases hst : w'.shared.state <;> simp_all
    · unfold World.AnsweredOnce
      rw [hs, hturns]
      exact ⟨⟨_, .failed, List.nil_prefix⟩, fun _ => huncalled⟩
  · rcases hsilent.state with hs | hs <;> rcases hst with hst | hst <;> simp [hst] at hs
  · rcases hsilent.state with hs | hs <;> simp [hst] at hs

/-- Where the reply is all that the connection waits for, or it is over. -/
theorem World.Answering.of_late (honce : w.AnsweredOnce) (hfull : .state .full ∉ w.trace)
    (hearly : w.shared.state.early = false) (hs : w.shared.state ≠ .connecting)
    (hrelay : ¬ (w.shared.state = .full ∨ w.shared.state = .halfClose)) : w.Answering where
  once := honce
  early h := absurd h (Bool.eq_false_iff.mp hearly)
  relayed h := absurd h hfull
  relays h := absurd h hrelay
  registered h := absurd h hs

/-- A dialogue that ends with the connection. -/
theorem World.Answering.of_closed (hst : w.shared.state = .closed) (hfull : .state .full ∉ w.trace)
    {l : List Turn} (hl : Answered w.info.cmd l) (hbegun : w.turns <+: l) (hne : w.turns ≠ []) :
    w.Answering := by
  refine .of_late ?_ hfull (by simp [hst]) (by simp [hst]) (by simp [hst])
  unfold World.AnsweredOnce
  rw [hst]
  exact ⟨⟨l, hl, hbegun⟩, fun hnil => absurd hnil hne⟩

/-- An error reply ends the dialogue. -/
theorem World.Answering.denied (ha : Denied w w') (hfull : .state .full ∉ w'.trace)
    (hl : Answered w'.info.cmd w'.turns) : w'.Answering := by
  rcases ha.ends with ⟨hst, hrep⟩ | hst
  · refine .of_late ?_ hfull (by simp [hst]) (by simp [hst]) (by simp [hst])
    unfold World.AnsweredOnce
    rw [hst]
    exact (if_neg hrep).mpr hl
  · exact .of_closed hst hfull hl List.prefix_rfl hl.ne_nil

/-- The answer to a request. -/
theorem World.Answering.answer (h : w.Answering)
    (hs : w.shared.state.early = true ∨ w.shared.state = .connecting) (hadds : Adds K w w')
    (hK : K (.state .full) = false) (hlisten : K (.state .bindListening) = false)
    (hanswer : Awaiting w w' ∨ Granted w w' ∨ Denied w w') : w'.Answering := by
  have hfull : .state .full ∉ w.trace := h.notMem_full (by
    cases hst : w.shared.state <;> simp_all)
  have hfull' : .state .full ∉ w'.trace := fun hin => hfull (hadds.mem_trace hK hin)
  have hturns : ∀ {l}, w'.verdicts = w.verdicts ++ l → w'.turns = l.map .reply := fun hl => by
    rw [hadds.turns hfull hK hlisten hl, h.once.turns_nil hs]
    rfl
  rcases hanswer with ha | ha | ha
  · have hnil := hturns (l := []) (by simpa using ha.verdicts)
    refine ⟨?_, by simp [ha.state], fun hin => absurd hin hfull', by simp [ha.state],
      fun _ => ha.registered⟩
    unfold World.AnsweredOnce
    rw [ha.state]
    exact hnil
  · refine .of_late ?_ hfull' (by simp [ha.state]) (by simp [ha.state]) (by simp [ha.state])
    unfold World.AnsweredOnce
    rw [ha.state]
    exact (if_pos ha.rep).mpr (hturns ha.verdicts)
  · refine .denied ha hfull' ?_
    rw [hturns ha.verdicts]
    exact .failed

/-- The peer of BIND, or an error in its place. -/
theorem World.Answering.peer (h : w.Answering) (hs : w.shared.state = .bindListening)
    (hdoes : Does Act.isAccept w w')
    (hanswer : w' = w ∨ Denied w w' ∨
      w'.shared.state = .sendingReply2 ∧
        w'.verdicts = w.verdicts ++ [.success]) : w'.Answering := by
  have hfull : .state .full ∉ w.trace := h.notMem_full (by simp [hs])
  have hfull' : .state .full ∉ w'.trace := fun hin => hfull (hdoes.mem_trace rfl hin)
  have honce := h.once
  unfold World.AnsweredOnce at honce
  simp only [hs] at honce
  obtain ⟨hcmd, hturns⟩ := honce
  have hbound : ∀ {v}, w'.verdicts = w.verdicts ++ [v] → Answered w'.info.cmd w'.turns := by
    intro v hl
    rw [Adds.turns hdoes.trace hfull rfl rfl hl, hturns]
    exact .bound (hdoes.cmd.trans hcmd) v
  rcases hanswer with rfl | ha | ⟨hst, hl⟩
  · exact h
  · exact .denied ha hfull' (hbound ha.verdicts)
  · refine .of_late ?_ hfull' (by simp [hst]) (by simp [hst]) (by simp [hst])
    unfold World.AnsweredOnce
    rw [hst]
    exact hbound hl

/-! ### Replies on their way -/

/-- What was said when a reply is on its way. -/
theorem World.AnsweredOnce.replying (h : w.AnsweredOnce) (hs : w.shared.state.replying = true) :
    (w.info.rep = repSuccess ∧ w.shared.state = .sendingReply ∧ w.turns = [.reply .success]) ∨
      Answered w.info.cmd w.turns ∧
        (w.info.rep = repSuccess → w.shared.state = .sendingReply2) := by
  unfold World.AnsweredOnce at h
  cases hst : w.shared.state <;> simp only [hst] at h hs
  case sendingReply =>
    split at h
    · rename_i hrep
      exact .inl ⟨hrep, rfl, h⟩
    · rename_i hrep
      exact .inr ⟨h, fun hrep' => absurd hrep' hrep⟩
  case sendingReply2 => exact .inr ⟨h, fun _ => rfl⟩
  all_goals cases hs

/-- It is the beginning of a dialogue. -/
theorem World.AnsweredOnce.begun (h : w.AnsweredOnce) (hs : w.shared.state.replying = true) :
    ∃ l, Answered w.info.cmd l ∧ w.turns <+: l ∧ w.turns ≠ [] := by
  rcases h.replying hs with ⟨-, -, hturns⟩ | ⟨hanswered, -⟩
  · by_cases hcmd : w.info.cmd = cmdBind
    · exact ⟨_, .bound hcmd .failure, by simp [hturns], by simp [hturns]⟩
    · exact ⟨_, .served hcmd, by simp [hturns], by simp [hturns]⟩
  · exact ⟨_, hanswered, List.prefix_rfl, hanswered.ne_nil⟩

/-- For a command other than BIND it is the whole of it. -/
theorem World.AnsweredOnce.whole (h : w.AnsweredOnce) (hs : w.shared.state.replying = true)
    (hcmd : w.info.cmd ≠ cmdBind ∨ w.shared.state = .sendingReply2) :
    Answered w.info.cmd w.turns := by
  rcases h.replying hs with ⟨-, hst, hturns⟩ | ⟨hanswered, -⟩
  · rw [hturns]
    refine .served (hcmd.resolve_right ?_)
    simp [hst]
  · exact hanswered

/-- A reply that is still on its way. -/
theorem World.Answering.resent (h : w.Answering) (hs : w.shared.state.replying = true)
    (hst : w'.shared.state = w.shared.state) (hturns : w'.turns = w.turns)
    (hinfo : w'.info = w.info)
    (hfull : .state .full ∉ w'.trace) : w'.Answering := by
  have honce := h.once
  refine .of_late ?_ hfull ?_ ?_ ?_
  · unfold World.AnsweredOnce at honce ⊢
    rw [hst, hturns, hinfo]
    cases hst' : w.shared.state <;> simp_all
  all_goals
    rw [hst]
    cases hst' : w.shared.state <;> simp_all

/-- Sending what is in `client_out` where neither the relay nor the wait for a peer comes next. -/
def Act.isDelivery : Act → Bool
  | .sent .. | .sendFailed _ | .state .closed | .state .waitingCommand | .state .fullUdpa => true
  | _ => false

/-- Sending says nothing new. -/
theorem Does.delivered (h : Does Act.isDelivery w w') (hfull : .state .full ∉ w.trace) :
    w'.turns = w.turns ∧ .state .full ∉ w'.trace := by
  have hfull' : .state .full ∉ w'.trace := fun hin => hfull (h.mem_trace rfl hin)
  refine ⟨?_, hfull'⟩
  rw [World.turns_of_notMem hfull', World.turns_of_notMem hfull]
  refine Adds.filterMap h.trace fun a ha => ?_
  unfold Act.turn?
  split
  · cases ha
  · cases ha
  · rfl

/-- A connection that was given up while a reply was on its way. -/
theorem World.Answering.abandoned (h : w.Answering) (hs : w.shared.state.replying = true)
    (hfull : .state .full ∉ w.trace) (hdoes : Does Act.isDelivery w w')
    (hst : w'.shared.state = .closed) : w'.Answering := by
  obtain ⟨l, hl, hbegun, hne⟩ := h.once.begun hs
  obtain ⟨hturns, hfull'⟩ := hdoes.delivered hfull
  exact .of_closed hst hfull' (hdoes.cmd.symm ▸ hl) (hturns ▸ hbegun) (hturns ▸ hne)

theorem SendingReply.answering (h : w.Answering) (hs : w.shared.state.replying = true)
    (hr : SendingReply w e ev w') : w'.Answering := by
  have hfull : .state .full ∉ w.trace := h.notMem_full (by
    cases hst : w.shared.state <;> simp_all)
  have hsent : Does Act.isDelivery w (w.sentFront 300).watchRecv :=
    (((Does.refl w).emit _ rfl).drop _ _).watchRecv
  obtain ⟨hturns, hfull'⟩ := hsent.delivered hfull
  cases hr with
  | idle hidle => exact h
  | stopped hstop =>
    cases hstop with
    | failed => exact h.abandoned hs hfull (((Does.refl w).emit _ rfl).hungUp _ rfl) rfl
    | part hk =>
      obtain ⟨hturns, hfull'⟩ := (((Does.refl (K := Act.isDelivery) w).emit
        (.sent (w.shared.fd .client) _) rfl).drop .client _).delivered hfull
      exact h.resent hs rfl hturns rfl hfull'
    | unwatched hmod =>
      exact h.abandoned hs hfull ((((Does.refl w).emit _ rfl).drop _ _).popMod.hungUp _ rfl) rfl
  | refused hmod hrep => exact h.abandoned hs hfull (hsent.hungUp _ rfl) rfl
  | connected hmod hrep hcmd =>
    have hconcat : ((w.sentFront 300).watchRecv.setState .full).turns =
        (w.sentFront 300).watchRecv.turns ++ (Act.state .full).turn?.toList :=
      World.turns_concat hfull' rfl
    have hwhole := h.once.whole hs (hcmd.imp (fun hcmd => by rw [hcmd]; decide) (·.2))
    refine ⟨?_, (fun hearly => by cases hearly), fun _ => .inl rfl, fun _ => by simp,
      fun hst => by cases hst⟩
    show Answered w.info.cmd _
    rw [hconcat, hturns]
    simpa [Act.turn?] using hwhole
  | listening hmod hrep hcmd hstate =>
    have hconcat : (((w.sentFront 300).watchRecv.setRep repUnset).setState .bindListening).turns =
        ((w.sentFront 300).watchRecv.setRep repUnset).turns ++
          (Act.state .bindListening).turn?.toList :=
      World.turns_concat hfull' rfl
    have hone : w.turns = [.reply .success] := by
      rcases h.once.replying hs with ⟨-, -, hone⟩ | ⟨-, hsecond⟩
      · exact hone
      · exact nomatch hstate.symm.trans (hsecond hrep)
    refine .of_late ⟨hcmd, ?_⟩ ?_ rfl (fun hst => by cases hst) (by simp)
    · rw [hconcat]
      show (w.sentFront 300).watchRecv.turns ++ _ = _
      rw [hturns, hone]
      rfl
    · simpa using hfull
  | associated hmod hrep hcmd =>
    obtain ⟨hturns, hfull'⟩ := (hsent.setState .fullUdpa rfl).delivered hfull
    refine .of_late ?_ hfull' rfl (fun hst => by cases hst) (by simp)
    show Answered w.info.cmd _
    rw [hturns]
    exact h.once.whole hs (.inl (by rw [hcmd]; decide))
  | odd hmod hrep hcmd hbind => exact h.resent hs rfl hturns rfl hfull'

/-- While the relay runs and after it, what was said stays the same. -/
theorem World.Answering.relay (h : w.Answering)
    (hs : w.shared.state = .full ∨ w.shared.state = .halfClose) (hdoes : Does K w w')
    (hst : w'.shared.state = .full ∨ w'.shared.state = .halfClose ∨ w'.shared.state = .closed) :
    w'.Answering := by
  have hfull := h.relays hs
  have hfull' : .state .full ∈ w'.trace := Adds.mem hdoes.trace hfull
  have hturns := Adds.turns_relay hdoes.trace hfull
  have hanswered : Answered w'.info.cmd w'.turns := by
    have honce := h.once
    unfold World.AnsweredOnce at honce
    rw [hturns, hdoes.cmd]
    rcases hs with hs | hs
    · simpa only [hs] using honce
    · simpa only [hs] using honce
  refine ⟨?_, fun hearly => ?_, fun _ => hst, fun _ => hfull', fun hconn => ?_⟩
  · unfold World.AnsweredOnce
    rcases hst with hst | hst | hst
    · simpa only [hst] using hanswered
    · simpa only [hst] using hanswered
    · rw [hst]
      exact ⟨⟨_, hanswered, List.prefix_rfl⟩, fun hnil => absurd hnil hanswered.ne_nil⟩
  · rcases hst with hst | hst | hst <;> simp [hst] at hearly
  · rcases hst with hst | hst | hst <;> simp [hst] at hconn

/-! ### Inputs -/

/-- The condition on an event for an open connection. -/
def World.KeepsReply (cfg : Configs) (w : World) : Prop :=
  match w.shared.state with
  | .waitingCommand => w.KeepsRequest cfg
  | .connecting => w.KeepsConnected
  | .bindListening => w.KeepsPeer
  | _ => True

theorem Handled.answering (hw : Open w) (hp : Phase w) (ha : w.Answering)
    (hkeeps : w' = w ∨ w.KeepsReply cfg) (h : Handled cfg w e ev f w') : w'.Answering := by
  rcases hkeeps with rfl | hkeeps
  · exact ha
  unfold World.KeepsReply at hkeeps
  cases h with
  | still hstate => exact ha
  | waitingMethods hstate h =>
    exact ha.silent (by simp [hstate]) h.adds rfl rfl (h.silent hstate)
  | sendingMethod hstate h =>
    have hadds : Adds Act.isDelivery w w' := by
      cases h with
      | idle hidle => exact .refl w
      | stopped h =>
        cases h with
        | failed => exact (((Does.refl w).emit _ rfl).hungUp _ rfl).trace
        | part hk => exact (((Does.refl w).emit _ rfl).drop _ _).trace
        | unwatched hmod => exact ((((Does.refl w).emit _ rfl).drop _ _).popMod.hungUp _ rfl).trace
      | refused hmod hmethod =>
        exact ((((Does.refl w).emit _ rfl).drop _ _).watchRecv.hungUp _ rfl).trace
      | accepted hmod hmethod =>
        exact ((((Does.refl w).emit _ rfl).drop _ _).watchRecv.setState _ rfl).trace
    exact ha.silent (by simp [hstate]) hadds rfl rfl (h.silent hstate)
  | waitingCommand hstate h =>
    rw [hstate] at hkeeps
    rcases h.answered hw hstate (hp.quiet (by simp [hstate])) hkeeps with hr | hr
    · exact ha.silent (by simp [hstate]) h.adds rfl rfl hr
    · exact ha.answer (.inl (by simp [hstate])) h.adds rfl rfl hr
  | sendingReply hstate h =>
    exact h.answering ha (by rcases hstate with hs | hs <;> simp [hs])
  | connecting hstate h =>
    rw [hstate] at hkeeps
    exact ha.answer (.inr hstate) h.does.trace rfl rfl (h.answered hw hstate
      (hp.server (.inl (.inl hstate))) (hp.quiet (by simp [hstate])) (ha.registered hstate) hkeeps)
  | bindListening hstate h =>
    rw [hstate] at hkeeps
    exact ha.peer hstate h.does (h.answered hw (hp.server (.inl (.inr (.inl hstate))))
      (hp.quiet (by simp [hstate])) hkeeps)
  | full hstate h =>
    refine ha.relay (.inl hstate) h.does ?_
    rcases h.does.state with heq | hin
    · exact .inl (heq.trans hstate)
    · cases hst : w'.shared.state <;> simp_all [Act.isRelay]
  | halfClose hstate =>
    exact ha.relay (K := Act.isRelay) (.inr hstate) ((Does.refl w).setState .closed rfl)
      (.inr (.inr rfl))
  | closed hstate =>
    have honce := ha.once
    unfold World.AnsweredOnce at honce
    refine ⟨?_, ha.early, ha.relayed, ha.relays, fun hst => ?_⟩
    · unfold World.AnsweredOnce
      simp only [World.released_shared_state, hstate] at honce ⊢
      exact honce
    · simp [hstate] at hst

/-- The condition on a step: what waits for the event finishes the success reply that it begins, and
a request is not carried out whose lookup failed or whose command is not allowed. -/
def RepliesOnce (cfg : Configs) (w : World) : Input → Prop
  | .handle ans => match w.pending with
    | .peer _ (some e) ev :: rest =>
      (w.taken rest ans).Wants e ev → (w.taken rest ans).KeepsReply cfg
    | .resolver :: rest => ∀ gaiRet, w.dns = .answered gaiRet →
      ((w.taken rest ans).resumed gaiRet).KeepsRequest cfg
    | _ => True
  | _ => True

instance (cfg : Configs) (w : World) : Decidable (w.Carries cfg) :=
  inferInstanceAs (Decidable (_ ∨ _))

instance (cfg : Configs) (w : World) (g : InitFn) : Decidable (ListensOn cfg w g) :=
  match g with
  | .connect => .isFalse id
  | .bind => decidable_of_iff ((firstOf w.info.af cfg.bindListen).isSome = true ∧
      (firstOf w.info.af cfg.bindAdvertise).isSome = true ∧ w.ans.bind = true ∧
        w.ans.listen = true ∧ w.ans.mallocData = true)
          (by simp only [Option.isSome_iff_exists]; rfl)
  | .udpa => decidable_of_iff ((firstOf w.info.af cfg.udpaListen).isSome = true ∧
      (firstOf w.info.af cfg.udpaAdvertise).isSome = true ∧ w.ans.bind = true ∧
        w.ans.mallocData = true) (by simp only [Option.isSome_iff_exists]; rfl)

instance (cfg : Configs) (w : World) : Decidable (w.Promises cfg) :=
  decidable_of_iff (∃ g ∈ [InitFn.connect, .bind, .udpa], w.info.cmd = g.cmd ∧ cfg.allow g = true ∧
      (w.info.sa.isSome = true ∨ w.info.ai.isEmpty = false) ∧ w.socketFd ≠ none ∧
        ListensOn cfg w g ∧ (g = .bind → w.ans.getsockname.isSome = true)) <| by
    constructor
    · rintro ⟨g, -, hcmd, hallow, haddr, hsock, hready, hname⟩
      exact ⟨g, hcmd, hallow, by simpa [Option.isSome_iff_ne_none] using haddr, hsock, hready,
        by simpa [Option.isSome_iff_ne_none] using hname⟩
    · rintro ⟨g, hcmd, hallow, haddr, hsock, hready, hname⟩
      exact ⟨g, by cases g <;> simp, hcmd, hallow, by simpa [Option.isSome_iff_ne_none] using haddr,
        hsock, hready, by simpa [Option.isSome_iff_ne_none] using hname⟩

instance (cfg : Configs) (w : World) : Decidable (w.Completes cfg) :=
  inferInstanceAs (Decidable (_ → _))

instance (cfg : Configs) (w : World) : Decidable (w.KeepsRequest cfg) :=
  inferInstanceAs (Decidable (_ → _))

instance (w : World) : Decidable w.KeepsConnected :=
  decidable_of_iff (w.ans.soError = some 0 → ∀ ss ∈ w.ans.getsockname,
    (IpFamily ss.family → ∀ b ∈ w.ans.epollMod.take 2, b = true) ∧
      (¬ IpFamily ss.family → w.info.ai[w.info.aiIndex + 1]?.isSome = true)) <| by
    simp only [World.KeepsConnected, Option.mem_def, Option.isSome_iff_ne_none]

instance (w : World) : Decidable w.KeepsPeer :=
  decidable_of_iff (w.PeerMatches → w.ans.epollAdd = true → ∀ peer ∈ w.ans.accept,
    IpFamily peer.2.family ∧ w.modAnswer = true) <| by
    simp only [World.KeepsPeer, Option.mem_def, Prod.forall]

instance (cfg : Configs) (w : World) : Decidable (w.KeepsReply cfg) :=
  decidable_of_iff ((w.shared.state = .waitingCommand → w.KeepsRequest cfg) ∧
      (w.shared.state = .connecting → w.KeepsConnected) ∧
        (w.shared.state = .bindListening → w.KeepsPeer)) <| by
    unfold World.KeepsReply
    cases w.shared.state <;> simp

instance (w : World) (e : Side) (ev : Events) : Decidable (w.Wants e ev) :=
  decidable_of_iff ((w.shared.state = .waitingMethods ∨ w.shared.state = .waitingCommand →
        ev.epollin = true ∧ e = .client) ∧
      (w.shared.state = .sendingMethod ∨ w.shared.state.replying = true →
        ev.epollout = true ∧ e = .client) ∧
      (w.shared.state = .connecting → ev.epollout = true ∧ e = .server) ∧
        (w.shared.state = .bindListening → ev.epollin = true ∧ e = .server)) <| by
    unfold World.Wants
    cases w.shared.state <;> simp

instance (cfg : Configs) (w : World) (i : Input) : Decidable (RepliesOnce cfg w i) :=
  match i with
  | .handle ans => match hp : w.pending with
    | .peer _ (some e) ev :: rest =>
      decidable_of_iff ((w.taken rest ans).Wants e ev → (w.taken rest ans).KeepsReply cfg)
        (by rw [RepliesOnce, hp])
    | .resolver :: rest => match hdns : w.dns with
      | .answered gaiRet =>
        decidable_of_iff (((w.taken rest ans).resumed gaiRet).KeepsRequest cfg)
          (by simp [RepliesOnce, hp, hdns])
      | .idle | .requested => .isTrue (by simp [RepliesOnce, hp, hdns])
    | .peer _ none _ :: _ | [] => .isTrue (by simp [RepliesOnce, hp])
  | .arrive _ _ | .finish _ | .resolved _ _ | .poll _ => .isTrue trivial

theorem World.Answering.congr (h : w.Answering) (hcore : w'.core = w.core)
    (hreg : w.shared.state = .connecting → ∀ fd, w.Registered fd → w'.Registered fd) :
    w'.Answering := by
  simp only [World.core, Prod.mk.injEq] at hcore
  obtain ⟨htrace, hstate, -, hfd, hinfo⟩ := hcore
  have hturns : w'.turns = w.turns := by rw [World.turns, htrace, World.turns]
  refine ⟨?_, ?_, ?_, ?_, fun hst => ?_⟩
  · have honce := h.once
    unfold World.AnsweredOnce at honce ⊢
    rwa [hstate, hturns, hinfo, htrace]
  · rw [hstate, htrace]
    exact h.early
  · rw [hstate, htrace]
    exact h.relayed
  · rw [hstate, htrace]
    exact h.relays
  · rw [hstate] at hst
    rw [hfd]
    exact hreg hst _ (h.registered hst)

theorem Stepped.answering {i : Input} (hs : Sane w) (ha : w.Answering)
    (hkeeps : RepliesOnce cfg w i)
    (h : Stepped cfg w i f w') : w'.Answering := by
  cases h.moved with
  | idle hcore hreg => exact ha.congr hcore fun hst => hreg (hs.open_of_state (by simp [hst]))
  | answered hdns => exact ⟨ha.once, ha.early, ha.relayed, ha.relays, ha.registered⟩
  | @handled ans rest fd e ev _ _ hpending hw hd hh hwant =>
    have htaken : (w.taken rest ans).Answering :=
      ⟨ha.once, ha.early, ha.relayed, ha.relays, ha.registered⟩
    rw [RepliesOnce, hpending] at hkeeps
    exact hh.answering hw ((hs.taken hpending ans).phase hw) htaken (hwant.imp_right hkeeps)
  | @resumed ans rest gaiRet _ _ hpending hw hdns hh =>
    have hasync := (hs.dns (by simp [hdns])).2
    have hearly : (w.taken rest ans).shared.state.early = true := by simp [hasync]
    have htaken : (w.taken rest ans).Answering :=
      ⟨ha.once, ha.early, ha.relayed, ha.relays, ha.registered⟩
    have hresumes : Adds Act.isDelivery (w.taken rest ans) ((w.taken rest ans).resumed gaiRet) :=
      ⟨[.state .waitingCommand], rfl, by simp [Act.isDelivery]⟩
    have hresumed : ((w.taken rest ans).resumed gaiRet).Answering := by
      refine htaken.silent hearly hresumes rfl rfl ⟨.inl rfl, World.verdicts_congr ?_, fun g => ?_⟩
      · simp [World.chunks, Act.chunk?]
      · exact hresumes.mem_trace rfl
    have hempty : (w.shared.out .client).contents = [] :=
      ((hs.taken hpending ans).phase hw).quiet (by simp [hasync])
    rw [RepliesOnce, hpending] at hkeeps
    rcases hh.answered (hw.resumed gaiRet) rfl hempty (hkeeps gaiRet hdns) with hr | hr
    · exact hresumed.silent rfl hh.adds rfl rfl hr
    · exact hresumed.answer (.inl rfl) hh.adds rfl rfl hr

theorem newClient_answering (fd : Int) (ss : SockAddr) (bufs : Side → OutBuff) :
    (newClient fd ss bufs).Answering where
  once := rfl
  early _ g hin := by simp [newClient] at hin
  relayed hin := by simp [newClient] at hin
  relays hst := by rcases hst with hst | hst <;> cases hst
  registered hst := by cases hst

/-- **Each request is answered once.** In every run in which no lookup fails, commands that are not
allowed are not asked for, and the success replies that are begun are finished, the replies behind
the method reply are one, or for BIND a failure, or a success and one more after the peer was waited
for. -/
theorem answered_once {fd : Int} {ss : SockAddr} {bufs : Side → OutBuff} {mallocs epollAdd : Bool}
    {w₀ : World} {is : List Input} (hw₀ : acceptNewClient fd ss bufs mallocs epollAdd = some w₀)
    (hmeets : Lib.Meets (step cfg) (RepliesOnce cfg) is w₀) :
    (Lib.run (step cfg) is w₀).state.AnsweredOnce := by
  have hsane := acceptNewClient_sane hw₀
  obtain ⟨-, rfl⟩ := acceptNewClient_eq hw₀
  exact (run_invariant (P := World.Answering) hsane (newClient_answering fd ss bufs) hmeets
    fun hs h hC hstep => hstep.answering hs h hC).once

end Dialogue

attribute [irreducible] World.AnsweredOnce

theorem answered_once_connect :
    (Lib.run (step openConfigs) (literalConnect ++ connectDone)
      (newClient 5 (.inet ![4, 0] ![127, 0, 0, 1]) fun _ => .zero)).state.AnsweredOnce := by
  have haccept : acceptNewClient 5 (.inet ![4, 0] ![127, 0, 0, 1]) (fun _ => .zero) true true =
      some (newClient 5 (.inet ![4, 0] ![127, 0, 0, 1]) fun _ => .zero) := rfl
  have hmeets : Lib.Meets (step openConfigs) (RepliesOnce openConfigs)
    (literalConnect ++ connectDone)
      (newClient 5 (.inet ![4, 0] ![127, 0, 0, 1]) fun _ => .zero) := by
    decide +kernel
  exact answered_once haccept hmeets

/-- A CONNECT that is not allowed. -/
def refusedConnect : List Input :=
  greeting 5 ++ clientSends 5 [5, cmdConn, 0, atypIpv4, 10, 0, 0, 1, 0, 80] .idle

/-- `init_command` answers it, and so does `waitingcommand`. -/
theorem refused_twice :
    ¬ ∀ (cfg : Configs) (fd : Int) (ss : SockAddr) (bufs : Side → OutBuff)
      (mallocs epollAdd : Bool) (w₀ : World) (is : List Input),
      acceptNewClient fd ss bufs mallocs epollAdd = some w₀ →
        (Lib.run (step cfg) is w₀).state.AnsweredOnce := by
  intro h
  have honce := h closedConfigs 5 (.inet ![4, 0] ![127, 0, 0, 1]) (fun _ => .zero) true true _
    refusedConnect rfl
  have hrun : (Lib.run (step closedConfigs) refusedConnect
        (newClient 5 (.inet ![4, 0] ![127, 0, 0, 1]) fun _ => .zero)).state.shared.state =
          .sendingReply ∧
      (Lib.run (step closedConfigs) refusedConnect
        (newClient 5 (.inet ![4, 0] ![127, 0, 0, 1]) fun _ => .zero)).state.info.rep ≠ repSuccess ∧
      (Lib.run (step closedConfigs) refusedConnect
        (newClient 5 (.inet ![4, 0] ![127, 0, 0, 1]) fun _ => .zero)).state.turns =
          [.reply .failure, .reply .failure] := by
    decide +kernel
  obtain ⟨hstate, hrep, hturns⟩ := hrun
  rcases honce.replying (by rw [hstate]; rfl) with ⟨hsuccess, -⟩ | ⟨hanswered, -⟩
  · exact hrep hsuccess
  · rw [hturns] at hanswered
    cases hanswered

end Socksprox
