import Socksprox.Connection

/-!
What closing and replying with an error do to an open connection.

From here on the effect of a handler is a relation between the world before and the
world after, with one constructor for each way through the code. The new world is
written as the effects in the order in which the code has them.
-/

namespace Socksprox

open Lib (wp wp_bind wp_pure wp_pure_eq wp_get wp_modify wp_throw wp_ite wp.mono)
open Lib.Exec (get modify throw)

/-! ### Effects -/

namespace World

/-- The end `e` closes its descriptor and releases what it holds. -/
@[simps! -fullyApplied] def released (w : World) (e : Side) : World :=
  (w.setFd (w.selfFd e) none).freedData e

/-- `handshake_err`. -/
@[simps! -fullyApplied] def hungUp (w : World) (e : Side) : World := (w.setState .closed).released e

/-- The client's descriptor is watched for sending as well. -/
@[simps! -fullyApplied] def watchSend (w : World) : World :=
  w.popMod.setInterest (w.shared.fd .client) (some (epollInOut, w.shared.data .client))

/-- The client's descriptor is watched for receiving only. -/
@[simps! -fullyApplied] def watchRecv (w : World) : World :=
  w.popMod.setInterest (w.shared.fd .client) (some (epollIn, w.shared.data .client))

end World

@[simp] theorem Open.watchSend {w : World} (hw : Open w) : Open w.watchSend := by
  simp [World.watchSend, hw]

@[simp] theorem Open.watchRecv {w : World} (hw : Open w) : Open w.watchRecv := by
  simp [World.watchRecv, hw]

/-- The error reply queued, the client watched for sending. -/
def World.errReplied (w : World) : World :=
  (((w.setRep (normRep w.info.rep)).queue .client
    (errReply (normRep w.info.rep))).watchSend).setState
    .sendingReply

@[simp] theorem open_errReplied {w : World} (hw : Open w) : Open w.errReplied := by
  simp [World.errReplied, hw]

/-- The error reply does not reach the client: its buffer has no room for it, or
`epoll_ctl` fails. The end is given up. -/
inductive ReplyLost (w : World) (e : Side) : World → Prop where
  | noRoom (hroom : (w.shared.out .client).free < 10) :
      ReplyLost w e ((w.setRep (normRep w.info.rep)).hungUp e)
  | unwatched (hroom : 10 ≤ (w.shared.out .client).free) (hmod : w.modAnswer = false) :
      ReplyLost w e (((w.setRep (normRep w.info.rep)).queue .client
        (errReply (normRep w.info.rep))).popMod.hungUp e)

/-- What `reply_with_err` comes to. -/
inductive ReplyWithErr (w : World) (e : Side) : World → Prop where
  | replied (hroom : 10 ≤ (w.shared.out .client).free) (hmod : w.modAnswer = true) :
      ReplyWithErr w e w.errReplied
  | lost {w' : World} (h : ReplyLost w e w') : ReplyWithErr w e w'

/-! ### Rules -/

@[simp] theorem errReply_length (rep : UInt8) : (errReply rep).length = 10 := rfl

section Rules

variable {E : Fault → World → Prop} {w : World} {e : Side}

@[simp] theorem wp_handshakeErr (Q : Unit → World → Prop) (hw : Open w)
    (hd : w.mem (.data e) = .live) :
    wp (handshakeErr e) Q E w ↔ Q () (w.hungUp e) := by
  have hclosed : ((w.setState .closed).setInterest (w.selfFd e) none).setFd (w.selfFd e) none =
      (w.setState .closed).setFd (w.selfFd e) none := by
    simp [World.setInterest, World.setFd]
  have hrel := hw.releasable hd
  simp only [handshakeErr, epDeleteFd, wp_bind, wp_touch, wp_logAccess, wp_setState,
    wp_dataSelfFd, wp_epollCtlDel, wp_closeFd, hw, hd, Open.shared, Open.access,
    World.setState_selfFd, World.setState_mem, hclosed]
  exact wp_freeData Q
    ⟨hrel.data, hrel.shared, hrel.info, hrel.sa, hrel.ai, hrel.buff, hrel.self, hrel.peer⟩

/-- What the code reads next is gone when the reply was lost. -/
theorem ReplyLost.freed {w' : World} (hw : Open w) (h : ReplyLost w e w') :
    w'.mem (.data e) = .freed ∧ w'.mem .info = .freed := by
  cases h with
  | noRoom hroom => simp [World.memFreed, hw]
  | unwatched hroom hmod => simp [World.memFreed, hw]

theorem wp_replyWithErr {Q : Unit → World → Prop} (hw : Open w) (hd : w.mem (.data e) = .live)
    (h : ∀ w', ReplyWithErr w e w' → Q () w') : wp (replyWithErr e) Q E w := by
  by_cases hroom : 10 ≤ (w.shared.out .client).free
  · have hfit : (errReply (normRep w.info.rep)).length ≤ (w.shared.out .client).free := hroom
    have hwrite := (Ring.write_fits hfit).2
    have hmods := And.intro (fun hmod => h _ (.replied hroom hmod))
      fun hmod => h _ (.lost (.unwatched hroom hmod))
    simpa [replyWithErr, epWaitingSend, hw, hd, hwrite, World.errReplied, World.watchSend]
      using hmods
  · have hfull : (w.shared.out .client).free < (errReply (normRep w.info.rep)).length :=
      Nat.lt_of_not_le hroom
    have hwrite := Ring.write_full hfull
    have hqueue : (w.setRep (normRep w.info.rep)).queue .client (errReply (normRep w.info.rep)) =
        w.setRep (normRep w.info.rep) := World.queue_full hfull
    simpa [replyWithErr, hw, hd, hwrite, hqueue] using
      h _ (.lost (.noRoom (Nat.lt_of_not_le hroom)))

end Rules

end Socksprox
