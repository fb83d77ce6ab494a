import Socksprox.Outcome.Request

/-!
What the handlers of the server's descriptor do to an open connection (`connecting` and
`bindlistening`), and what the relay and its teardown do (`full`, `half_close` and
`closed`).
-/

namespace Socksprox

open Lib (wp wp_bind wp_pure wp_pure_eq wp_get wp_modify wp_throw wp_ite wp.mono)
open Lib.Exec (get modify throw)

/-! ### `connecting` -/

namespace World

/-- The connection is there: the head of the success reply queued. -/
def connectedTo (w : World) (ss : SockAddr) : World :=
  (((w.setRep repSuccess).noted ss).queueHead repSuccess).setState .sendingReply

/-- The next resolved address is counted as tried. -/
@[simps! -fullyApplied] def nextAddr (w : World) : World :=
  w.setInfo { w.info with aiIndex := w.info.aiIndex + 1 }

end World

/-- What a failed attempt comes to: the next address of a list of two or more, or the
error reply. -/
inductive ConnectFailed (w : World) (error : BitVec 32) : World → Prop where
  | retry {current : AddrInfo} (hlen : 2 ≤ w.info.ai.length)
      (hget : w.info.ai[w.info.aiIndex + 1]? = some current) :
      ConnectFailed w error (w.nextAddr.emit (.connect (w.selfFd .server) current.aiAddr))
  | exhausted {w' : World} (hlen : 2 ≤ w.info.ai.length)
      (hget : w.info.ai[w.info.aiIndex + 1]? = none)
      (h : ReplyWithErr (w.nextAddr.setRep (connectRep error)) .server w') :
      ConnectFailed w error w'
  | single {w' : World} (hlen : w.info.ai.length < 2)
      (h : ReplyWithErr (w.setRep (connectRep error)) .server w') : ConnectFailed w error w'

/-- What `connecting` comes to. -/
inductive Connecting (w : World) (e : Side) (ev : Events) : World → Prop where
  | idle (hidle : ev.epollout = false ∨ e = .client) : Connecting w e ev w
  | unknown {w' : World} (hso : w.ans.soError = none)
      (h : ReplyWithErr (w.setRep repGenfail) .server w') : Connecting w e ev w'
  | failed {error : BitVec 32} {w' : World} (hso : w.ans.soError = some error) (herr : error ≠ 0)
      (h : ConnectFailed w error w') : Connecting w e ev w'
  | unnamed {w' : World} (hso : w.ans.soError = some 0) (hname : w.ans.getsockname = none)
      (h : ReplyWithErr ((w.setRep repSuccess).setRep repGenfail) .server w') : Connecting w e ev w'
  | oddFamily {ss : SockAddr} {w' : World} (hso : w.ans.soError = some 0)
      (hname : w.ans.getsockname = some ss) (haddr : ss.replyAddr ss.port = none)
      (h : ConnectFailed (w.connectedTo ss) 0 w') : Connecting w e ev w'
  | unanswered {ss : SockAddr} {a : ReplyAddr} {w₁ w' : World} (hso : w.ans.soError = some 0)
      (hname : w.ans.getsockname = some ss) (haddr : ss.replyAddr ss.port = some a)
      (hreply : FinishReply (w.connectedTo ss) (some a) false w₁)
      (h : ReplyWithErr (w₁.setRep repGenfail) .server w') : Connecting w e ev w'
  | unwatched {ss : SockAddr} {a : ReplyAddr} {w₁ w₂ w' : World} (hso : w.ans.soError = some 0)
      (hname : w.ans.getsockname = some ss) (haddr : ss.replyAddr ss.port = some a)
      (hreply : FinishReply (w.connectedTo ss) (some a) true w₁)
      (hmod : Modified w₁ (w₁.selfFd .server) (epollIn, some .server) false w₂)
      (h : ReplyWithErr (w₂.setRep repGenfail) .server w') : Connecting w e ev w'
  | connected {ss : SockAddr} {a : ReplyAddr} {w₁ w' : World} (hso : w.ans.soError = some 0)
      (hname : w.ans.getsockname = some ss) (haddr : ss.replyAddr ss.port = some a)
      (hreply : FinishReply (w.connectedTo ss) (some a) true w₁)
      (hmod : Modified w₁ (w₁.selfFd .server) (epollIn, some .server) true w') :
      Connecting w e ev w'

/-! ### `bindlistening` -/

namespace World

/-- The first peer accepted. -/
def acceptedPeer (w : World) (newFd : Int) (ss : SockAddr) : World :=
  ((w.setFd newFd (some .opened)).emit (.accepted newFd ss)).noted ss

/-- The server end moved from its listening descriptor to the accepted one. -/
@[simps -fullyApplied] def rehomed (w : World) (newFd : Int) : World :=
  { w with
    fds := Function.update w.fds (w.selfFd .server) none
    selfFd := Function.update w.selfFd .server newFd
    shared := { w.shared with fd := Function.update w.shared.fd .server newFd } }

end World

/-- What `bindlistening` comes to. -/
inductive BindListening (w : World) (e : Side) (ev : Events) : World → Prop where
  | idle (hidle : ev.epollin = false ∨ e = .client) : BindListening w e ev w
  | noPeer {w' : World} (hnone : w.accepts (w.selfFd .server) = none)
      (h : ReplyWithErr (w.setRep repGenfail) .server w') : BindListening w e ev w'
  | noRequest {newFd : Int} {ss : SockAddr} {w' : World}
      (hans : w.ans.accept = some (newFd, ss)) (hnew : w.fds newFd = none)
      (hreq : w.info.reqAddr = none)
      (h : ReplyWithErr ((w.acceptedPeer newFd ss).setRep repGenfail) .server w') :
      BindListening w e ev w'
  | otherPeer {newFd : Int} {ss req : SockAddr} {w' : World}
      (hans : w.ans.accept = some (newFd, ss)) (hnew : w.fds newFd = none)
      (hreq : w.info.reqAddr = some req) (hdiff : peerDiffers req ss = true)
      (h : ReplyWithErr ((w.acceptedPeer newFd ss).setRep repRuleset) .server w') :
      BindListening w e ev w'
  | unwatched {newFd : Int} {ss req : SockAddr} {w' : World}
      (hans : w.ans.accept = some (newFd, ss)) (hnew : w.fds newFd = none)
      (hreq : w.info.reqAddr = some req) (hsame : peerDiffers req ss = false) (he : e = .server)
      (hadd : w.ans.epollAdd = false)
      (h : ReplyWithErr (((w.acceptedPeer newFd ss).rehomed newFd).setRep repGenfail) .server w') :
      BindListening w e ev w'
  | oddFamily {newFd : Int} {ss req : SockAddr} {w₁ w' : World}
      (hans : w.ans.accept = some (newFd, ss)) (hnew : w.fds newFd = none)
      (hreq : w.info.reqAddr = some req) (hsame : peerDiffers req ss = false) (he : e = .server)
      (hadd : Added ((w.acceptedPeer newFd ss).rehomed newFd) newFd (epollIn, some .server) true w₁)
      (haddr : ss.replyAddr ss.port = none)
      (h : ReplyWithErr (((w₁.setRep repSuccess).queueHead repSuccess).setRep repGenfail) .server
        w') : BindListening w e ev w'
  | unanswered {newFd : Int} {ss req : SockAddr} {a : ReplyAddr} {w₁ w₂ w' : World}
      (hans : w.ans.accept = some (newFd, ss)) (hnew : w.fds newFd = none)
      (hreq : w.info.reqAddr = some req) (hsame : peerDiffers req ss = false) (he : e = .server)
      (hadd : Added ((w.acceptedPeer newFd ss).rehomed newFd) newFd (epollIn, some .server) true w₁)
      (haddr : ss.replyAddr ss.port = some a)
      (hreply : FinishReply ((w₁.setRep repSuccess).queueHead repSuccess) (some a) false w₂)
      (h : ReplyWithErr (w₂.setRep repGenfail) .server w') : BindListening w e ev w'
  | accepted {newFd : Int} {ss req : SockAddr} {a : ReplyAddr} {w₁ w₂ : World}
      (hans : w.ans.accept = some (newFd, ss)) (hnew : w.fds newFd = none)
      (hreq : w.info.reqAddr = some req) (hsame : peerDiffers req ss = false) (he : e = .server)
      (hadd : Added ((w.acceptedPeer newFd ss).rehomed newFd) newFd (epollIn, some .server) true w₁)
      (haddr : ss.replyAddr ss.port = some a)
      (hreply : FinishReply ((w₁.setRep repSuccess).queueHead repSuccess) (some a) true w₂) :
      BindListening w e ev (w₂.setState .sendingReply2)

/-! ### `full`, `half_close` and `closed` -/

namespace World

@[simps -fullyApplied] def flagged (w : World) (s : Side) (flag : UInt8) : World :=
  { w with shared := { w.shared with
      flags := Function.update w.shared.flags s (w.shared.flags s ||| flag) } }

/-- Bytes of an end's buffer sent to it and consumed. -/
@[simps! -fullyApplied] def sentTo (w : World) (e : Side) (k : Nat) : World :=
  (w.emit (.sent (w.selfFd e) ((w.shared.out e).contents.take k))).drop e k

end World

/-- What `full` comes to. A sending event hides a receiving one. -/
inductive Full (w : World) (e : Side) (ev : Events) : World → Prop where
  | idle (hidle : ev.epollout = false ∧ ev.epollin = false) : Full w e ev w
  | sendFailed (hout : ev.epollout = true) :
      Full w e ev
        (((w.emit (.sendFailed (w.selfFd e))).flagged e flagWriteClosed).setState .halfClose)
  | sentPart {k : Nat} (hout : ev.epollout = true) (hk : k < (w.shared.out e).used) :
      Full w e ev (w.sentTo e k)
  | drained {r : Bool} {w' : World} (hout : ev.epollout = true)
      (hmod : Modified (w.sentTo e (w.shared.out e).used) (w.selfFd e) (epollIn, some e) r w') :
      Full w e ev (if r then w' else w'.setState .closed)
  | ended {r : Option (List UInt8)} {b : Bool} {w₁ w' : World} (hin : ev.epollin = true)
      (hout : ev.epollout = false) (hrecv : Recv w (w.selfFd e) 1024 r w₁)
      (hr : r = none ∨ r = some [])
      (hmod : Modified (((w₁.flagged e flagReadClosed).flagged e.peer flagFlushing).setState
        .halfClose) (w.shared.fd e.peer) (epollInOut, w.shared.data e.peer) b w') : Full w e ev w'
  | received {bytes : List UInt8} {b : Bool} {w₁ w' : World} (hin : ev.epollin = true)
      (hout : ev.epollout = false) (hrecv : Recv w (w.selfFd e) 1024 (some bytes) w₁)
      (hne : bytes ≠ [])
      (hmod : Modified (w₁.queue e.peer bytes) (w.shared.fd e.peer)
        (epollInOut, w.shared.data e.peer) b w') : Full w e ev w'

section Rules

variable {E : Fault → World → Prop} {w : World} {e : Side} {ev : Events}

/-- The test that guards the handlers of the server's descriptor. -/
theorem Open.guard_server (hw : Open w) (hd : w.mem (.data e) = .live) (want : Bool) :
    (!want || decide (w.selfFd e ≠ w.shared.fd .server)) = true ↔ want = false ∨ e = .client := by
  have hself := hw.self e hd
  have hne := hw.fd_ne
  cases e <;> simp [hself, hne]

theorem Open.noted (hw : Open w) (ss : SockAddr) : Open (w.noted ss) := hw.frame rfl id

theorem Open.nextAddr (hw : Open w) : Open w.nextAddr := hw.setInfo rfl rfl

theorem Open.connectedTo (hw : Open w) (ss : SockAddr) : Open (w.connectedTo ss) := by
  simpa [World.connectedTo, World.queueHead] using Open.noted (open_setRep.mpr hw) ss

theorem wp_connectFailed {error : BitVec 32} {Q : Unit → World → Prop} (hw : Open w)
    (hd : w.mem (.data .server) = .live) (h : ∀ w', ConnectFailed w error w' → Q () w') :
    wp (connectFailed .server error) Q E w := by
  have hreply : ∀ {w₁}, Open w₁ → w₁.mem (.data .server) = .live →
      (∀ w', ReplyWithErr (w₁.setRep (connectRep error)) .server w' → Q () w') →
      wp (setRep (connectRep error) >>= fun _ => replyWithErr .server) Q E w₁ := by
    intro w₁ hw₁ hd₁ h
    rw [wp_bind, wp_setRep _ hw₁.info]
    exact wp_replyWithErr (by simp [hw₁]) hd₁ h
  rw [connectFailed, wp_bind, wp_infoVal _ hw.info]
  by_cases hlen : 2 ≤ w.info.ai.length
  · have hnext := hw.nextAddr
    rw [if_pos hlen, wp_bind, wp_modifyInfo _ hw.info]
    cases hget : w.info.ai[w.info.aiIndex + 1]? with
    | some current => simpa [hd, World.nextAddr] using h _ (.retry hlen hget)
    | none => exact hreply hnext hd fun w' hr => h _ (.exhausted hlen hget hr)
  · rw [if_neg hlen]
    exact hreply hw hd fun w' hr => h _ (.single (by omega) hr)

theorem FinishReply.data {a : Option ReplyAddr} {r : Bool} {w' : World} {s : Side}
    (h : FinishReply w a r w') (hd : w.mem (.data s) = .live) : w'.mem (.data s) = .live := by
  cases h with
  | skipped => exact hd
  | sent hmod => simpa [World.queueAddr] using hd
  | unwatched hmod => simpa [World.queueAddr] using hd

theorem Modified.open {fd : Int} {i : Events × Option Side} {r : Bool} {w' : World} (hw : Open w)
    (h : Modified w fd i r w') : Open w' := by
  cases h with
  | done hmod => simp [hw]
  | failed hmod => simpa using hw

theorem Modified.mem {fd : Int} {i : Events × Option Side} {r : Bool} {w' : World}
    (h : Modified w fd i r w') : w'.mem = w.mem := by
  cases h <;> rfl

theorem wp_connecting {Q : Unit → World → Prop} (hw : Open w) (hd : w.mem (.data e) = .live)
    (h : ∀ w', Connecting w e ev w' → Q () w') : wp (connecting e ev) Q E w := by
  rw [connecting, wp_bind, wp_dataShared _ hd hw.shared, wp_bind, wp_dataSelfFd _ hd, wp_ite,
    hw.guard_server hd, wp_pure]
  refine ⟨fun hidle => h _ (.idle hidle), fun hgo => ?_⟩
  obtain rfl : e = .server := by
    cases e <;> simp_all
  rw [wp_bind, wp_get]
  cases hso : w.ans.soError with
  | none =>
    simp only [wp_bind, wp_sharedInfo _ hw.shared hw.infoPtr hw.info, wp_setRep _ hw.info]
    exact wp_replyWithErr (by simp [hw]) hd fun w' hr => h _ (.unknown hso hr)
  | some error =>
    simp only [wp_bind, wp_sharedInfo _ hw.shared hw.infoPtr hw.info]
    by_cases herr : error = 0
    · subst herr
      have hrep : Open (w.setRep repSuccess) := by simp [hw]
      rw [if_pos rfl, wp_bind, wp_setRep _ hw.info, wp_bind, wp_get]
      cases hname : w.ans.getsockname with
      | none =>
        simp only [World.setRep_ans, hname, wp_bind, wp_setRep _ hrep.info]
        exact wp_replyWithErr (by simp [hw]) hd fun w' hr => h _ (.unnamed hso hname hr)
      | some ss =>
        have hconn := hw.connectedTo ss
        have hstart : ((((w.setRep repSuccess).noted ss).queue .client
            [socks5Version, repSuccess, socks5Resv]).setState .sendingReply) =
              w.connectedTo ss := rfl
        have hnoted' : Open ((w.setRep repSuccess).noted ss) := hrep.noted ss
        simp only [World.setRep_ans, hname, wp_bind, wp_touch, wp_modify, hrep, Open.access,
          writeReplyHead, wp_writeOut, wp_pure, hnoted', Open.shared, Open.buff, wp_setState,
          open_queue, hstart]
        have hd' : (w.connectedTo ss).mem (.data .server) = .live := by
          simpa [World.connectedTo, World.queueHead] using hd
        cases haddr : ss.replyAddr ss.port with
        | none => exact wp_connectFailed hconn hd' fun w' hf => h _ (.oddFamily hso hname haddr hf)
        | some a =>
          simp only [connectedReply, wp_bind]
          refine wp_finishReply hconn fun r w₁ hreply => ?_
          have hw₁ := hreply.open hconn
          have hd₁ := hreply.data hd'
          cases r with
          | false =>
            simp only [Bool.not_false, if_true, wp_bind, wp_setRep _ hw₁.info, wp_pure_eq]
            exact wp_replyWithErr (by simp [hw₁]) hd₁ fun w' hr =>
              h _ (.unanswered hso hname haddr hreply hr)
          | true =>
            simp only [Bool.not_true, Bool.false_eq_true, if_false, wp_bind, wp_dataSelfFd _ hd₁,
              epDoneSending]
            refine wp_modify_interest fun r w₂ hmod => ?_
            have hw₂ := hmod.open hw₁
            cases r with
            | false =>
              simp only [Bool.not_false, if_true, wp_bind, wp_setRep _ hw₂.info]
              exact wp_replyWithErr (by simp [hw₂]) (by simpa [hmod.mem] using hd₁) fun w' hr =>
                h _ (.unwatched hso hname haddr hreply hmod hr)
            | true => simpa using h _ (.connected hso hname haddr hreply hmod)
    · rw [if_neg herr]
      exact wp_connectFailed hw hd fun w' hf => h _ (.failed hso herr hf)

/-- The server end at another descriptor. -/
theorem Open.rehomed (hw : Open w) {newFd : Int} (hne : newFd ≠ w.shared.fd .client)
    (hd : w.mem (.data .server) = .live) : Open (w.rehomed newFd) := by
  have hself := hw.self .server hd
  have hfd := hw.fd_ne
  exact
    { fd_ne := by simpa using hne.symm
      self := by
        intro s hs
        cases s with
        | client => simpa using hw.self .client hw.client
        | server => simp
      ptr := hw.ptr
      shared := hw.shared
      info := hw.info
      infoPtr := hw.infoPtr
      buff := hw.buff
      outBuff := hw.outBuff
      capacity := hw.capacity
      access := hw.access
      client := hw.client
      sa := hw.sa
      ai := hw.ai
      fd_nonneg := by simpa using hw.fd_nonneg
      registered := by
        obtain ⟨sk, i, hsk, hi⟩ := hw.registered
        exact ⟨sk, i, by simp [hself, hfd, hsk], hi⟩ }

theorem Added.open {fd : Int} {i : Events × Option Side} {r : Bool} {w' : World} (hw : Open w)
    (h : Added w fd i r w') : Open w' := by
  cases h with
  | done hsk hi hans => simp [hw]
  | failed hans => exact hw

theorem Added.mem {fd : Int} {i : Events × Option Side} {r : Bool} {w' : World}
    (h : Added w fd i r w') : w'.mem = w.mem := by
  cases h <;> rfl

theorem wp_bindListening {Q : Unit → World → Prop} (hw : Open w) (hd : w.mem (.data e) = .live)
    (h : ∀ w', BindListening w e ev w' → Q () w') : wp (bindListening e ev) Q E w := by
  rw [bindListening, wp_bind, wp_dataShared _ hd hw.shared, wp_bind, wp_dataSelfFd _ hd, wp_ite,
    hw.guard_server hd, wp_pure]
  refine ⟨fun hidle => h _ (.idle hidle), fun hgo => ?_⟩
  obtain rfl : e = .server := by
    cases e <;> simp_all
  rw [wp_bind, wp_sharedInfo _ hw.shared hw.infoPtr hw.info, wp_bind]
  refine wp_accept (fun hnone => ?_) fun newFd ss hans hlfd hnew => ?_
  · simp only [wp_bind, wp_setRep _ hw.info]
    exact wp_replyWithErr (by simp [hw]) hd fun w' hr => h _ (.noPeer hnone hr)
  have hopen : Open ((w.setFd newFd (some .opened)).emit (.accepted newFd ss)) :=
    open_emit.mpr (hw.setFd (hw.ne_client hnew) _)
  have hpeer : Open (w.acceptedPeer newFd ss) := hopen.noted ss
  have hacc : ((w.setFd newFd (some .opened)).emit (.accepted newFd ss)).noted ss =
      w.acceptedPeer newFd ss := rfl
  simp only [wp_bind, wp_touch, wp_modify, hopen, Open.access, hacc]
  cases hreq : w.info.reqAddr with
  | none =>
    simp only [wp_bind, wp_setRep _ hpeer.info]
    exact wp_replyWithErr (by simp [hpeer]) hd fun w' hr => h _ (.noRequest hans hnew hreq hr)
  | some req =>
    simp only [wp_ite]
    refine ⟨fun hdiff => ?_, fun hsame => ?_⟩
    · simp only [wp_bind, wp_setRep _ hpeer.info, wp_pure_eq]
      exact wp_replyWithErr (by simp [hpeer]) hd fun w' hr =>
        h _ (.otherPeer hans hnew hreq hdiff hr)
    · have hsame' : peerDiffers req ss = false := by simpa using hsame
      have hne : newFd ≠ (w.acceptedPeer newFd ss).shared.fd .client := hw.ne_client hnew
      have hhome := hpeer.rehomed hne hd
      have hmoved : ((((w.acceptedPeer newFd ss).setFd (w.selfFd .server) none).setInterest
          (w.selfFd .server) none).setSelf .server newFd).setServerFd newFd =
          (w.acceptedPeer newFd ss).rehomed newFd := by
        refine World.ext rfl rfl rfl rfl rfl ?_ rfl rfl rfl rfl
        simp [World.acceptedPeer]
      have hd' : (w.acceptedPeer newFd ss).mem (.data .server) = .live := hd
      simp only [wp_bind, wp_closeFd, epDeleteFd, wp_epollCtlDel, wp_touch, World.setInterest_mem,
        World.setFd_mem, World.setSelf_mem, hd', hpeer, Open.shared, wp_modify, hmoved,
        epAddNewClient]
      refine wp_epollCtlAdd fun r w₁ hadd => ?_
      have hw₁ := hadd.open hhome
      have hd₁ : w₁.mem (.data .server) = .live := by simpa [hadd.mem] using hd'
      cases r with
      | false =>
        have hmoved : newFd ≠ w.selfFd .server := fun heq => hlfd (heq ▸ hnew)
        have hfail : w.ans.epollAdd = false := by
          cases hadd with
          | failed hadd => exact hadd Sock.opened (by simp [World.acceptedPeer, hmoved]) rfl
        cases hadd
        simp only [Bool.not_false, if_true, wp_bind, wp_setRep _ hw₁.info, wp_pure_eq]
        exact wp_replyWithErr (by simp [hw₁]) hd₁ fun w' hr =>
          h _ (.unwatched hans hnew hreq hsame' rfl hfail hr)
      | true =>
        have hhead : Open ((w₁.setRep repSuccess).queueHead repSuccess) := by
          simp [World.queueHead, hw₁]
        have hdhead : ((w₁.setRep repSuccess).queueHead repSuccess).mem (.data .server) =
          .live := by
          simpa [World.queueHead] using hd₁
        have hqueue : (w₁.setRep repSuccess).queue .client [socks5Version, repSuccess, socks5Resv] =
            (w₁.setRep repSuccess).queueHead repSuccess := rfl
        simp only [Bool.not_true, Bool.false_eq_true, if_false, wp_bind, writeReplyHead, wp_setRep,
          wp_writeOut, hw₁, open_setRep, Open.info, Open.shared, Open.buff, wp_pure, hqueue]
        cases haddr : ss.replyAddr ss.port with
        | none =>
          simp only [Option.isNone_none, if_true, wp_bind, wp_setRep _ hhead.info, wp_pure_eq]
          exact wp_replyWithErr (by simp [hhead]) hdhead fun w' hr =>
            h _ (.oddFamily hans hnew hreq hsame' rfl hadd haddr hr)
        | some a =>
          simp only [Option.isNone_some, Bool.false_eq_true, if_false, wp_bind]
          refine wp_finishReply hhead fun r w₂ hreply => ?_
          have hw₂ := hreply.open hhead
          have hd₂ := hreply.data hdhead
          cases r with
          | false =>
            simp only [Bool.not_false, if_true, wp_bind, wp_setRep _ hw₂.info, wp_pure_eq]
            exact wp_replyWithErr (by simp [hw₂]) hd₂ fun w' hr =>
              h _ (.unanswered hans hnew hreq hsame' rfl hadd haddr hreply hr)
          | true =>
            simpa [hd₂, hw₂] using h _ (.accepted hans hnew hreq hsame' rfl hadd haddr hreply)

/-- The end of a live `Data` is found by its descriptor. -/
theorem Open.sideOf (hw : Open w) (hd : w.mem (.data e) = .live) :
    w.shared.sideOf (w.selfFd e) = some e := by
  have hself := hw.self e hd
  have hne := hw.fd_ne.symm
  cases e <;> simp [Shared.sideOf, hself, hne]

theorem Open.flagged (hw : Open w) (s : Side) (flag : UInt8) : Open (w.flagged s flag) :=
  hw.frame rfl id

theorem wp_setFlag {s : Side} {flag : UInt8} (Q : Unit → World → Prop) (hw : Open w) :
    wp (setFlag s flag) Q E w ↔ Q () (w.flagged s flag) := by
  rw [setFlag, wp_modifyShared _ hw.shared]
  rfl

theorem wp_full_send {Q : Unit → World → Prop} (hw : Open w) (hd : w.mem (.data e) = .live)
    (hout : ev.epollout = true) (h : ∀ w', Full w e ev w' → Q () w') :
    wp (full e ev) Q E w := by
  have hpeek : (w.shared.out e).peek (w.shared.out e).used = (w.shared.out e).contents := by
    rw [Ring.peek, List.take_of_length_le (by simp)]
  rw [full, if_pos hout, wp_bind, wp_dataSelfFd _ hd, wp_bind, sendTraffic, wp_bind,
    wp_sharedVal _ hw.shared]
  simp only [hw.sideOf hd, wp_bind, wp_peekOut _ hw.shared (hw.buff _), hpeek]
  refine wp_send fun r w' hsend => ?_
  cases hsend with
  | failed =>
    have hemit : Open (w.emit (.sendFailed (w.selfFd e))) := by simp [hw]
    simpa [wp_setFlag _ hemit, hemit.flagged] using h _ (.sendFailed hout)
  | @sent k hle =>
    have hsent : Open (w.sentTo e k) := by simp [World.sentTo, hw]
    have hlen : k ≤ (w.shared.out e).used := by simpa using hle
    have hleft : ((w.sentTo e k).shared.out e).used = (w.shared.out e).used - k := by
      rw [← Ring.contents_length]
      simp
    have hsent' : (w.emit (.sent (w.selfFd e) ((w.shared.out e).contents.take k))).drop e k =
        w.sentTo e k := rfl
    simp only [wp_bind, wp_consumeOut, wp_sharedVal, hw, open_emit, hsent', hsent, Open.shared,
      wp_pure, hleft]
    by_cases hk : k < (w.shared.out e).used
    · have hne : ((w.shared.out e).used - k : ℕ) ≠ 0 := by omega
      have hret : (((w.shared.out e).used - k : ℕ) : Int) ≠ -1 := by omega
      simpa [hret, hne] using h _ (.sentPart hout hk)
    · obtain rfl : k = (w.shared.out e).used := by omega
      simp [epDoneSending]
      refine wp_modify_interest fun r w' hmod => ?_
      have hw' := hmod.open hsent
      cases r with
      | true => simpa using h _ (.drained hout hmod)
      | false => simpa [hw'] using h _ (.drained hout hmod)

theorem wp_full_recv {Q : Unit → World → Prop} (hw : Open w) (hd : w.mem (.data e) = .live)
    (hout : ev.epollout = false) (h : ∀ w', Full w e ev w' → Q () w') :
    wp (full e ev) Q E w := by
  rw [full, if_neg (by simp [hout])]
  cases hin : ev.epollin with
  | false => simpa using h _ (.idle ⟨hout, hin⟩)
  | true =>
    have hpeer : (if w.selfFd e = w.shared.fd .client then Side.server else Side.client) =
      e.peer := by
      have hself := hw.self e hd
      have hne := hw.fd_ne.symm
      cases e <;> simp [Side.peer, hself, hne]
    rw [if_pos rfl, wp_bind, wp_dataSelfFd _ hd, wp_bind, readTraffic, wp_bind,
      wp_sharedVal _ hw.shared]
    simp only [hw.sideOf hd, wp_bind]
    refine wp_recv fun r w₁ hrecv => ?_
    have hw₁ := hrecv.open hw
    obtain ⟨fds, trace, hw₁eq⟩ := hrecv.frame
    have hself₁ : w₁.selfFd = w.selfFd := by rw [hw₁eq]
    have hshared₁ : w₁.shared = w.shared := by rw [hw₁eq]
    have hd₁ : w₁.mem (.data e) = .live := by rw [hw₁eq]; exact hd
    have hended : r = none ∨ r = some [] →
        wp (epollCtlMod (w.shared.fd e.peer) epollInOut (w.shared.data e.peer))
          (fun _ w' => Q () w') E
          (((w₁.flagged e flagReadClosed).flagged e.peer flagFlushing).setState .halfClose) :=
      fun hr => wp_modify_interest fun b w' hmod => h _ (.ended hin hout hrecv hr hmod)
    have hreceived : ∀ bytes, r = some bytes → bytes ≠ [] →
        wp (epollCtlMod (w.shared.fd e.peer) epollInOut (w.shared.data e.peer))
          (fun _ w' => Q () w') E
          (w₁.queue e.peer bytes) := by
      rintro bytes rfl hne
      exact wp_modify_interest fun b w' hmod => h _ (.received hin hout hrecv hne hmod)
    have hflag := hw₁.flagged e flagReadClosed
    have hflag' := hflag.flagged e.peer flagFlushing
    obtain _ | _ | ⟨b, bs⟩ := r
    · simpa [wp_setFlag, hw₁, hflag, hflag', hd₁, epWaitingSend, hshared₁, hpeer] using
        hended (.inl rfl)
    · simpa [wp_setFlag, hw₁, hflag, hflag', hd₁, epWaitingSend, hshared₁, hpeer] using
        hended (.inr rfl)
    · have hpos : ((bs.length : Int) + 1) ≠ -1 := by omega
      simpa [hw₁, hd₁, epWaitingSend, hshared₁, hpeer, hpos] using
        hreceived (b :: bs) rfl (List.cons_ne_nil _ _)

theorem wp_halfClose {Q : Unit → World → Prop} (hw : Open w) (hd : w.mem (.data e) = .live)
    (h : Q () (w.setState .closed)) : wp (halfClose e) Q E w := by
  simpa [halfClose, hd, hw] using h

theorem wp_closed {Q : Unit → World → Prop} (hrel : Releasable w e) (h : Q () (w.released e)) :
    wp (closed e) Q E w := by
  have hclosed : (w.setFd (w.selfFd e) none).setInterest (w.selfFd e) none =
      w.setFd (w.selfFd e) none := by
    simp [World.setInterest, World.setFd]
  rw [closed, wp_bind, wp_dataSelfFd _ hrel.data, wp_bind, wp_closeFd, wp_bind, epDeleteFd,
    wp_epollCtlDel, hclosed]
  refine (wp_freeData _ ?_).mpr h
  exact ⟨hrel.data, hrel.shared, hrel.info, hrel.sa, hrel.ai, hrel.buff, hrel.self, hrel.peer⟩

end Rules

end Socksprox
