import Socksprox.Lib.Blind
import Socksprox.Sane

/-!
The batch of events is the loop's own: no handler looks at the events that are still to come.
What a handler does is the same whatever else the batch holds.
-/

namespace Socksprox

open Lib (Blind)
open Lib.Exec (get modify throw)

/-- The program neither reads nor writes the batch. -/
abbrev BatchFree {α : Type} (P : List Event) (m : Proc α) : Prop :=
  Blind (fun w : World => w.polled P) m

namespace BatchFree

variable {P : List Event}

/-! ### Memory -/

theorem touch (o : Obj) : BatchFree P (touch o) := by
  refine ⟨fun w => ?_⟩
  by_cases h : w.mem o = .live <;> simp [Socksprox.touch, h]

theorem free (o : Obj) : BatchFree P (free o) := by
  refine ⟨fun w => ?_⟩
  by_cases h : w.mem o = .live
  · simp only [Socksprox.free, World.polled_mem, if_pos h]
    rfl
  · simp [Socksprox.free, h]

theorem alloc (o : Obj) : BatchFree P (alloc o) := .modify fun _ => rfl

theorem emit (a : Act) : BatchFree P (emit a) := .modify fun _ => rfl

theorem sharedVal : BatchFree P sharedVal :=
  .bind (touch _) fun _ => .get_bind (fun _ => rfl) fun _ => .pure _

theorem dataShared (e : Side) : BatchFree P (dataShared e) := .bind (touch _) fun _ => sharedVal

theorem dataSelfFd (e : Side) : BatchFree P (dataSelfFd e) :=
  .bind (touch _) fun _ => .get_bind (fun _ => rfl) fun _ => .pure _

theorem modifyShared (f : Shared → Shared) : BatchFree P (modifyShared f) :=
  .bind (touch _) fun _ => .modify fun _ => rfl

theorem setState (s : State) : BatchFree P (setState s) :=
  .bind (touch _) fun _ => .modify fun _ => rfl

theorem infoVal : BatchFree P infoVal :=
  .bind (touch _) fun _ => .get_bind (fun _ => rfl) fun _ => .pure _

theorem modifyInfo (f : Info → Info) : BatchFree P (modifyInfo f) :=
  .bind (touch _) fun _ => .modify fun _ => rfl

theorem setRep (rep : UInt8) : BatchFree P (setRep rep) :=
  .bind (touch _) fun _ => .modify fun _ => rfl

theorem sharedInfo : BatchFree P sharedInfo :=
  .bind sharedVal fun _ => .ite infoVal (.throw _)

theorem queue (s : Side) (bytes : List UInt8) :
    BatchFree P (modify fun w => w.queue s bytes) := by
  refine .modify fun w => ?_
  by_cases h : bytes.length ≤ (w.shared.out s).free
  · rw [World.queue_fits h, World.queue_fits (w := w.polled P) h]
    rfl
  · have hfull := Nat.lt_of_not_le h
    rw [World.queue_full hfull, World.queue_full (w := w.polled P) hfull]

theorem writeOut (s : Side) (bytes : List UInt8) : BatchFree P (writeOut s bytes) :=
  .bind sharedVal fun _ => .bind (touch _) fun _ => .bind (queue _ _) fun _ => .pure _

theorem peekOut (s : Side) (n : Nat) : BatchFree P (peekOut s n) :=
  .bind sharedVal fun _ => .bind (touch _) fun _ => .pure _

theorem consumeOut (s : Side) (n : Nat) : BatchFree P (consumeOut s n) :=
  .bind (touch _) fun _ => .modify fun _ => rfl

theorem logAccess : BatchFree P logAccess := .bind (touch _) fun _ => touch _

/-! ### System calls -/

theorem recv (fd : Int) (n : Nat) : BatchFree P (recv fd n) := by
  refine ⟨fun w => ?_⟩
  unfold Socksprox.recv
  simp only [World.polled_fds, World.polled_ans]
  split
  · split
    · rfl
    · split
      · split <;> rfl
      · rfl
  · rfl

theorem send (fd : Int) (bytes : List UInt8) : BatchFree P (send fd bytes) := by
  refine ⟨fun w => ?_⟩
  unfold Socksprox.send
  simp only [World.polled_fds, World.polled_ans]
  split <;> rfl

theorem epollCtlAdd (fd : Int) (events : Events) (ptr : Option Side) :
    BatchFree P (epollCtlAdd fd events ptr) := by
  refine ⟨fun w => ?_⟩
  unfold Socksprox.epollCtlAdd
  simp only [World.polled_fds, World.polled_ans]
  split
  · split <;> rfl
  · rfl

theorem epollCtlMod (fd : Int) (events : Events) (ptr : Option Side) :
    BatchFree P (epollCtlMod fd events ptr) := by
  refine ⟨fun w => ?_⟩
  have hans : (w.polled P).modAnswer = w.modAnswer := rfl
  unfold Socksprox.epollCtlMod
  simp only [World.polled_fds, hans]
  split
  · split <;> rfl
  · rfl

theorem epollCtlDel (fd : Int) : BatchFree P (epollCtlDel fd) := .modify fun _ => rfl

theorem closeFd (fd : Int) : BatchFree P (closeFd fd) := .modify fun _ => rfl

theorem fdNonblocking (fd : Int) : BatchFree P (fdNonblocking fd) := .modify fun _ => rfl

theorem socket : BatchFree P socket := by
  refine ⟨fun w => ?_⟩
  have hnew : ∀ fd, (w.polled P).newFd fd = w.newFd fd := fun _ => rfl
  unfold Socksprox.socket
  simp only [World.polled_ans, hnew]
  split
  · split <;> rfl
  · rfl

theorem accept (lfd : Int) : BatchFree P (accept lfd) := by
  refine ⟨fun w => ?_⟩
  have hnew : ∀ fd, (w.polled P).newFd fd = w.newFd fd := fun _ => rfl
  unfold Socksprox.accept
  simp only [World.polled_fds, World.polled_ans, hnew]
  split
  · split <;> rfl
  · rfl

theorem connect (fd : Int) (dst : SockAddr) : BatchFree P (connect fd dst) :=
  .bind (emit _) fun _ => .get_bind (fun _ => rfl) fun _ => .pure _

/-! ### Closing and error replies -/

theorem freeIf (c : Bool) (o : Obj) : BatchFree P (freeIf c o) := .ite (free o) (.pure _)

theorem freeBuff (s : Side) : BatchFree P (freeBuff s) :=
  .bind sharedVal fun _ => .bind (freeIf _ _) fun _ => modifyShared _

theorem freeInfo : BatchFree P freeInfo :=
  .bind sharedVal fun _ => .ite (.pure _) (.bind infoVal fun _ => .bind (freeIf _ _) fun _ =>
    .bind (freeIf _ _) fun _ => .bind (free _) fun _ => modifyShared _)

theorem freeData (e : Side) : BatchFree P (freeData e) :=
  .bind (touch _) fun _ => .bind freeInfo fun _ => .bind (freeBuff _) fun _ =>
    .bind (freeBuff _) fun _ => .bind (dataSelfFd _) fun _ => .bind (modifyShared _) fun _ =>
      .bind (dataShared _) fun _ => .bind (freeIf _ _) fun _ => free _

theorem handshakeErr (e : Side) : BatchFree P (handshakeErr e) :=
  .bind (touch _) fun _ => .bind logAccess fun _ => .bind (setState _) fun _ =>
    .bind (dataSelfFd _) fun _ => .bind (epollCtlDel _) fun _ => .bind (closeFd _) fun _ =>
      freeData e

theorem replyWithErr (e : Side) : BatchFree P (replyWithErr e) :=
  .bind (touch _) fun _ => .bind sharedInfo fun _ => .bind (setRep _) fun _ =>
    .bind (writeOut _ _) fun _ => .ite (.bind (handshakeErr _) fun _ => .pure _)
      (.bind (dataShared _) fun _ => .bind (epollCtlMod _ _ _) fun _ =>
        .ite (.bind (handshakeErr _) fun _ => .pure _) (.bind (touch _) fun _ => setState _))

/-- An error code noted and sent. -/
theorem refuse (rep : UInt8) (e : Side) :
    BatchFree P (Socksprox.setRep rep >>= fun _ => Socksprox.replyWithErr e) :=
  .bind (setRep _) fun _ => replyWithErr e

/-! ### Handshake -/

theorem receive (e : Side) {next : Proc Unit} (hnext : BatchFree P next) :
    BatchFree P (receive e next) := by
  refine .bind (dataShared _) fun shared => .bind (dataSelfFd _) fun self =>
    .bind (recv _ _) fun r => ?_
  split
  · exact handshakeErr e
  · exact handshakeErr e
  · exact .bind (writeOut _ _) fun _ => .ite (.bind (handshakeErr _) fun _ => .pure _) hnext

theorem sendFront (e : Side) (n : Nat) {next : Proc Unit} (hnext : BatchFree P next) :
    BatchFree P (sendFront e n next) := by
  refine .bind (dataSelfFd _) fun self => .bind (peekOut _ _) fun reply =>
    .bind (send _ _) fun r => ?_
  split
  · exact handshakeErr e
  · refine .ite (.bind (consumeOut _ _) fun _ => .pure _) (.bind (consumeOut _ _) fun _ => ?_)
    exact .bind (epollCtlMod _ _ _) fun _ => .ite (.bind (handshakeErr _) fun _ => .pure _) hnext

/-- The guard of a handler that waits for one kind of event on one descriptor. -/
theorem guarded (e : Side) {c : Shared → Int → Bool} {m : Proc Unit} (hm : BatchFree P m) :
    BatchFree P (do
      let shared ← Socksprox.dataShared e
      let self ← Socksprox.dataSelfFd e
      if c shared self then return
      m) :=
  .bind (dataShared _) fun _ => .bind (dataSelfFd _) fun _ => .ite (.pure _) hm

theorem methodRequest (cfg : Configs) (e : Side) : BatchFree P (methodRequest cfg e) :=
  .bind (dataShared _) fun _ => .ite (.pure _) <| .bind (peekOut _ _) fun _ => .ite (.pure _) <|
    .bind (consumeOut _ _) fun _ =>
      .ite (.bind logAccess fun _ => .bind (handshakeErr _) fun _ => .pure _) <|
        .bind (peekOut _ _) fun _ => .bind (consumeOut _ _) fun _ => .bind (writeOut _ _) fun _ =>
          .bind (setState _) fun _ => .bind sharedInfo fun _ => .bind (modifyInfo _) fun _ =>
            .bind (dataSelfFd _) fun _ => .bind (epollCtlMod _ _ _) fun _ =>
              .ite (handshakeErr _) (.pure _)

theorem waitingMethods (cfg : Configs) (e : Side) (ev : Events) :
    BatchFree P (waitingMethods cfg e ev) := guarded e (receive e (methodRequest cfg e))

theorem methodSent (e : Side) : BatchFree P (methodSent e) :=
  .bind sharedInfo fun _ => .ite (.bind logAccess fun _ => setState _)
    (.ite (.bind logAccess fun _ => handshakeErr e) (handshakeErr e))

theorem sendingMethod (e : Side) (ev : Events) : BatchFree P (sendingMethod e ev) :=
  guarded e (sendFront e 2 (methodSent e))

/-! ### Commands -/

theorem openConnect (dst : SockAddr) : BatchFree P (openConnect dst) := by
  refine .bind socket fun r => ?_
  split
  · exact .bind (setRep _) fun _ => .pure _
  · exact .bind (fdNonblocking _) fun _ => .bind (connect _ _) fun _ =>
      .ite (.bind (setRep _) fun _ => .pure _) (.pure _)

theorem firstAttempt (info : Info) : BatchFree P (firstAttempt info) := by
  unfold Socksprox.firstAttempt
  split
  · exact .pure _
  · exact openConnect _
  · refine .bind (openConnect _) fun r => ?_
    split
    · exact .pure _
    · exact .bind (modifyInfo _) fun _ => .pure _
  · exact .pure _

theorem newServerData (sfd : Int) : BatchFree P (newServerData sfd) :=
  .bind (touch _) fun _ => .modify fun _ => rfl

theorem initConnect : BatchFree P initConnect := by
  refine .bind (emit _) fun _ => .bind sharedInfo fun info =>
    .ite (.bind (setRep _) fun _ => .pure _) (.bind (firstAttempt _) fun r => ?_)
  split
  · exact .pure _
  · refine .get_bind (fun _ => rfl) fun w => .ite (.bind (setRep _) fun _ => .pure _) ?_
    exact .bind (newServerData _) fun _ => .bind (consumeOut _ _) fun _ =>
      .bind (epollCtlAdd _ _ _) fun _ => .ite (.bind (setRep _) fun _ => .pure _) (setState _)

theorem failClosing (sfd : Int) (rep : UInt8) : BatchFree P (failClosing sfd rep) :=
  .bind (setRep _) fun _ => closeFd _

theorem writeReplyHead (rep : UInt8) : BatchFree P (writeReplyHead rep) :=
  .bind (writeOut _ _) fun _ => .pure _

theorem finishReply (a : Option ReplyAddr) : BatchFree P (finishReply a) := by
  cases a with
  | none => exact .pure _
  | some a =>
    have haddr : BatchFree P (writeReplyAddr a) :=
      .bind (writeOut _ _) fun _ => .bind (writeOut _ _) fun _ => .bind (writeOut _ _) fun _ =>
        .pure _
    exact .bind haddr fun _ => .bind sharedVal fun _ => epollCtlMod _ _ _

theorem answerListen (sfd : Int) (a : Option ReplyAddr) : BatchFree P (answerListen sfd a) :=
  .bind (setRep _) fun _ => .bind (writeReplyHead _) fun _ => .bind (finishReply _) fun _ =>
    .ite (.bind (setRep _) fun _ => .pure _) <| .bind (consumeOut _ _) fun _ =>
      .bind (epollCtlAdd _ _ _) fun _ =>
        .ite (.bind (setRep _) fun _ => setState _) (setState _)

theorem initBind (cfg : Configs) : BatchFree P (initBind cfg) := by
  refine .bind (emit _) fun _ => .bind sharedInfo fun info =>
    .ite (.bind (setRep _) fun _ => .pure _) (.bind socket fun r => ?_)
  split
  · exact setRep _
  refine .bind (fdNonblocking _) fun _ => ?_
  split
  · refine .get_bind (fun _ => rfl) fun w => .ite (.bind (failClosing _ _) fun _ => .pure _) <|
      .ite (.bind (failClosing _ _) fun _ => .pure _) <|
        .ite (.bind (failClosing _ _) fun _ => .pure _) <| .bind (newServerData _) fun _ => ?_
    split
    · exact failClosing _ _
    · exact answerListen _ _
  · exact failClosing _ _

theorem initUdpa (cfg : Configs) : BatchFree P (initUdpa cfg) := by
  refine .bind (emit _) fun _ => .bind sharedInfo fun info =>
    .ite (.bind (setRep _) fun _ => .pure _) (.bind socket fun r => ?_)
  split
  · exact setRep _
  split
  · exact .get_bind (fun _ => rfl) fun w => .ite (.bind (failClosing _ _) fun _ => .pure _) <|
      .ite (.bind (failClosing _ _) fun _ => .pure _) <| .bind (newServerData _) fun _ =>
        answerListen _ _
  · exact failClosing _ _

theorem initCommand (cfg : Configs) (e : Side) : BatchFree P (initCommand cfg e) := by
  have hrefuse : BatchFree P (Socksprox.setRep repBadcomm >>= fun _ =>
      Socksprox.replyWithErr e >>= fun _ => pure ()) :=
    .bind (setRep _) fun _ => .bind (replyWithErr _) fun _ => .pure _
  exact .bind (touch _) fun _ => .bind sharedInfo fun _ =>
    .ite (.bind logAccess fun _ => .ite hrefuse initConnect) <|
      .ite (.bind logAccess fun _ => .ite hrefuse (initBind cfg)) <|
        .ite (.bind logAccess fun _ => .ite hrefuse (initUdpa cfg)) (refuse _ _)

/-! ### Requests -/

theorem afterInit (e : Side) (rep : UInt8) : BatchFree P (afterInit e rep) :=
  .ite (replyWithErr e) (.pure _)

theorem resolverReturned (cfg : Configs) (e : Side) (ret : Int) :
    BatchFree P (resolverReturned cfg e ret) := by
  have hrest : BatchFree P (Socksprox.initCommand cfg e >>= fun _ =>
      Socksprox.touch (.data e) >>= fun _ => Socksprox.sharedInfo >>= fun info =>
        Socksprox.afterInit e info.rep) :=
    .bind (initCommand _ _) fun _ => .bind (touch _) fun _ => .bind sharedInfo fun _ =>
      afterInit _ _
  exact .ite (.bind (setRep _) fun _ => .bind (replyWithErr _) fun _ => hrest) hrest

theorem resolve (input : List UInt8) : BatchFree P (resolve input) := by
  refine .bind (setState _) fun _ => .bind (emit _) fun _ => .modify fun w => ?_
  rw [World.polled_ans, apply_ite (World.polled · P)]
  rfl

theorem runRequest (cfg : Configs) (e : Side) (req : List UInt8) :
    BatchFree P (runRequest cfg e req) :=
  .ite (.bind (touch _) fun _ => .bind (setState _) fun _ => .bind (resolve _) fun _ => .pure _) <|
    .get_bind (fun _ => rfl) fun _ => .ite (.pure _) <| .bind (alloc _) fun _ =>
      .bind (modifyInfo _) fun _ => .bind infoVal fun _ => .bind (emit _) fun _ =>
        .ite (.bind logAccess fun _ => .bind (setRep _) fun _ => .bind (replyWithErr _) fun _ =>
          .pure _) <|
            .bind (initCommand _ _) fun _ => .bind infoVal fun _ => afterInit _ _

theorem commandRequest (cfg : Configs) (e : Side) : BatchFree P (commandRequest cfg e) := by
  refine .bind (peekOut _ _) fun req => .ite (.pure _) ?_
  split
  · exact refuse _ _
  · exact .ite (.pure _) <| .bind sharedInfo fun _ => .bind (modifyInfo _) fun _ =>
      .ite (.bind logAccess fun _ => .bind (handshakeErr _) fun _ => .pure _) (runRequest _ _ _)

theorem waitingCommand (cfg : Configs) (e : Side) (ev : Events) :
    BatchFree P (waitingCommand cfg e ev) :=
  guarded e <| .bind sharedInfo fun _ =>
    .ite (.bind (resolverReturned _ _ _) fun _ => .pure _) (receive e (commandRequest cfg e))

/-! ### Replies -/

theorem replySent (e : Side) : BatchFree P (replySent e) :=
  .bind (dataShared _) fun _ => .bind sharedInfo fun _ =>
    .ite (.bind (handshakeErr _) fun _ => .pure _) <| .ite (.bind logAccess fun _ => setState _) <|
      .ite (.ite (.bind (setRep _) fun _ => setState _)
        (.ite (.bind logAccess fun _ => setState _) (.pure _))) (.ite (setState _) (.pure _))

theorem sendingReply (e : Side) (ev : Events) : BatchFree P (sendingReply e ev) :=
  guarded e (sendFront e 300 (replySent e))

/-! ### The server's descriptor -/

theorem connectedReply (e : Side) (a : ReplyAddr) : BatchFree P (connectedReply e a) :=
  .bind (finishReply _) fun _ =>
    .ite (.bind (setRep _) fun _ => .bind (replyWithErr _) fun _ => .pure _) <|
      .bind (dataSelfFd _) fun _ => .bind (epollCtlMod _ _ _) fun _ =>
        .ite (refuse _ _) (.pure _)

theorem connectFailed (e : Side) (error : BitVec 32) : BatchFree P (connectFailed e error) := by
  refine .bind infoVal fun info => .ite (.bind (modifyInfo _) fun _ => ?_) (refuse _ _)
  split
  · exact .bind (dataSelfFd _) fun _ => .bind (connect _ _) fun _ => .pure _
  · exact refuse _ _

theorem connecting (e : Side) (ev : Events) : BatchFree P (connecting e ev) := by
  refine guarded e (.get_bind (fun _ => rfl) fun w => ?_)
  split
  · exact .bind sharedInfo fun _ => refuse _ _
  refine .bind sharedInfo fun _ => .ite (.bind (setRep _) fun _ => ?_) (connectFailed _ _)
  refine .get_bind (fun _ => rfl) fun w => ?_
  split
  · exact refuse _ _
  refine .bind (touch _) fun _ => .bind (.modify fun _ => rfl) fun _ =>
    .bind (writeReplyHead _) fun _ => .bind (setState _) fun _ => ?_
  split
  · exact connectedReply _ _
  · exact connectFailed _ _

theorem bindListening (e : Side) (ev : Events) : BatchFree P (bindListening e ev) := by
  have hrefuse : ∀ rep, BatchFree P (Socksprox.setRep rep >>= fun _ =>
      Socksprox.replyWithErr e >>= fun _ => pure ()) := fun rep =>
    .bind (setRep _) fun _ => .bind (replyWithErr _) fun _ => .pure _
  refine .bind (dataShared _) fun _ => .bind (dataSelfFd _) fun _ => .ite (.pure _) <|
    .bind sharedInfo fun info => .bind (accept _) fun r => ?_
  split
  · exact refuse _ _
  refine .bind (touch _) fun _ => .bind (.modify fun _ => rfl) fun _ => ?_
  split
  · exact refuse _ _
  exact .ite (hrefuse _) <| .bind (closeFd _) fun _ => .bind (epollCtlDel _) fun _ =>
    .bind (touch _) fun _ => .bind (.modify fun _ => rfl) fun _ => .bind (touch _) fun _ =>
      .bind (.modify fun _ => rfl) fun _ => .bind (epollCtlAdd _ _ _) fun _ =>
        .ite (hrefuse _) <| .bind (setRep _) fun _ => .bind (writeReplyHead _) fun _ =>
          .ite (hrefuse _) <| .bind (finishReply _) fun _ => .ite (hrefuse _) <|
            .bind (touch _) fun _ => setState _

/-! ### Relay and teardown -/

theorem sendTraffic (fd : Int) : BatchFree P (sendTraffic fd) := by
  refine .bind sharedVal fun shared => ?_
  split
  · exact .pure _
  refine .bind (peekOut _ _) fun buffer => .bind (send _ _) fun r => ?_
  split
  · exact .bind (modifyShared _) fun _ => .pure _
  · exact .bind (consumeOut _ _) fun _ => .bind sharedVal fun _ => .pure _

theorem readTraffic (fd : Int) : BatchFree P (readTraffic fd) := by
  refine .bind sharedVal fun shared => ?_
  split
  · exact .pure _
  refine .bind (recv _ _) fun r => ?_
  split
  · exact .bind (modifyShared _) fun _ => .bind (modifyShared _) fun _ => .pure _
  · exact .bind (modifyShared _) fun _ => .bind (modifyShared _) fun _ => .pure _
  · exact .bind (writeOut _ _) fun _ => .pure _

theorem full (e : Side) (ev : Events) : BatchFree P (full e ev) := by
  have hwatched : ∀ self, BatchFree P (do
      let shared ← Socksprox.dataShared e
      let peer : Side := if self = shared.fd .client then .server else .client
      let _ ← epWaitingSend (shared.fd peer) (shared.data peer)) := fun self =>
    .bind (dataShared _) fun _ => .bind (epollCtlMod _ _ _) fun _ => .pure _
  refine .ite ?_ (.ite ?_ (.pure _))
  · refine .bind (dataSelfFd _) fun self => .bind (sendTraffic _) fun ret =>
      .ite (.bind (setState _) fun _ => ?_) ?_
    all_goals
      exact .ite (.bind (epollCtlMod _ _ _) fun _ =>
        .ite (.bind (setState _) fun _ => .pure _) (.pure _)) (.pure _)
  · refine .bind (dataSelfFd _) fun self => .bind (readTraffic _) fun ret => .ite ?_ ?_
    · exact .bind (setState _) fun _ => hwatched self
    · exact hwatched self

theorem socks5 (cfg : Configs) (e : Side) (ev : Events) : BatchFree P (socks5 cfg e ev) := by
  refine .bind (dataShared _) fun shared => ?_
  split
  · exact .pure _
  · exact waitingMethods cfg e ev
  · exact sendingMethod e ev
  · exact .pure _
  · exact waitingCommand cfg e ev
  · exact .pure _
  · exact sendingReply e ev
  · exact sendingReply e ev
  · exact connecting e ev
  · exact bindListening e ev
  · exact full e ev
  · exact .pure _
  · exact .bind (touch _) fun _ => setState _
  · exact .bind (dataSelfFd _) fun _ => .bind (closeFd _) fun _ => .bind (epollCtlDel _) fun _ =>
      freeData e

theorem resolverTh (gaiRet : Int) (res : List AddrInfo) : BatchFree P (resolverTh gaiRet res) :=
  .get_bind (fun _ => rfl) fun _ =>
    .ite (.bind sharedInfo fun _ => .modify fun _ => rfl) (.pure _)

theorem resolveRet (cfg : Configs) : BatchFree P (resolveRet cfg) := by
  refine .get_bind (fun _ => rfl) fun w => ?_
  split
  · refine .bind sharedInfo fun _ => .bind (.modify fun _ => rfl) fun _ =>
      .bind sharedVal fun shared => ?_
    split
    · exact socks5 _ _ _
    · exact .throw _
  · exact .pure _

theorem dispatch (cfg : Configs) (event : Event) : BatchFree P (dispatch cfg event) := by
  unfold Socksprox.dispatch
  split
  · exact .pure _
  · exact .bind (touch _) fun _ => .ite (socks5 _ _ _) (.pure _)
  · exact resolveRet cfg

end BatchFree

/-- The batch after a program that does not look at it. -/
theorem BatchFree.pending {m : Proc Unit} (hm : ∀ P, BatchFree P m) (w : World) :
    (m w).state.pending = w.pending := by
  have h := (hm w.pending).comm w
  have hself : w.polled w.pending = w := rfl
  rw [hself] at h
  rw [h, Lib.Outcome.mapState_state]
  rfl

end Socksprox
