import Socksprox.Server

/-!
Rules for the primitives: what each access and each system call does to the world,
as weakest preconditions. With them a handler is executed symbolically, statement by
statement. `Recv`, `Send` and the two outcomes of `epoll_ctl` are the kernel's
choices a proof has to consider.
-/

namespace Socksprox

open Lib (wp wp_bind wp_pure wp_get wp_modify wp_throw wp_ite Outcome)
open Lib.Exec (get modify throw)

/-! ### The output buffers -/

namespace World

variable (w : World) (s : Side) (bytes : List UInt8)

theorem queue_fits {w : World} {s : Side} {bytes : List UInt8}
    (h : bytes.length ≤ (w.shared.out s).free) :
    w.queue s bytes = (w.setOut s ((w.shared.out s).write bytes).1).emit (.queued s bytes) :=
  if_pos h

theorem queue_full {w : World} {s : Side} {bytes : List UInt8}
    (h : (w.shared.out s).free < bytes.length) : w.queue s bytes = w :=
  if_neg (Nat.not_le.mpr h)

/-- A queue changes one buffer and the trace, whether or not the bytes fit. -/
theorem queue_eq : ∃ r t, w.queue s bytes = { w.setOut s r with trace := t } := by
  unfold queue
  split
  · exact ⟨_, _, rfl⟩
  · refine ⟨w.shared.out s, w.trace, ?_⟩
    simp [setOut]

@[simp] theorem queue_state : (w.queue s bytes).shared.state = w.shared.state := by
  obtain ⟨r, t, h⟩ := w.queue_eq s bytes
  rw [h]
  rfl

@[simp] theorem queue_fd : (w.queue s bytes).shared.fd = w.shared.fd := by
  obtain ⟨r, t, h⟩ := w.queue_eq s bytes
  rw [h]
  rfl

@[simp] theorem queue_outBuff : (w.queue s bytes).shared.outBuff = w.shared.outBuff := by
  obtain ⟨r, t, h⟩ := w.queue_eq s bytes
  rw [h]
  rfl

@[simp] theorem queue_data : (w.queue s bytes).shared.data = w.shared.data := by
  obtain ⟨r, t, h⟩ := w.queue_eq s bytes
  rw [h]
  rfl

@[simp] theorem queue_infoPtr : (w.queue s bytes).shared.info = w.shared.info := by
  obtain ⟨r, t, h⟩ := w.queue_eq s bytes
  rw [h]
  rfl

@[simp] theorem queue_selfFd : (w.queue s bytes).selfFd = w.selfFd := by
  obtain ⟨r, t, h⟩ := w.queue_eq s bytes
  rw [h]
  rfl

@[simp] theorem queue_info : (w.queue s bytes).info = w.info := by
  obtain ⟨r, t, h⟩ := w.queue_eq s bytes
  rw [h]
  rfl

@[simp] theorem queue_mem : (w.queue s bytes).mem = w.mem := by
  obtain ⟨r, t, h⟩ := w.queue_eq s bytes
  rw [h]
  rfl

@[simp] theorem queue_fds : (w.queue s bytes).fds = w.fds := by
  obtain ⟨r, t, h⟩ := w.queue_eq s bytes
  rw [h]
  rfl

@[simp] theorem queue_ans : (w.queue s bytes).ans = w.ans := by
  obtain ⟨r, t, h⟩ := w.queue_eq s bytes
  rw [h]
  rfl

@[simp] theorem queue_dns : (w.queue s bytes).dns = w.dns := by
  obtain ⟨r, t, h⟩ := w.queue_eq s bytes
  rw [h]
  rfl

@[simp] theorem queue_pending : (w.queue s bytes).pending = w.pending := by
  obtain ⟨r, t, h⟩ := w.queue_eq s bytes
  rw [h]
  rfl

@[simp] theorem queue_out_ne {s' : Side} (h : s' ≠ s) :
    (w.queue s bytes).shared.out s' = w.shared.out s' := by
  unfold queue
  split
  · simp [h]
  · rfl

/-- What fits is appended. -/
theorem queue_contents {w : World} {s : Side} {bytes : List UInt8}
    (h : bytes.length ≤ (w.shared.out s).free) :
    ((w.queue s bytes).shared.out s).contents = (w.shared.out s).contents ++ bytes := by
  rw [queue_fits h]
  simpa using (Ring.write_fits h).1

theorem queue_used_le :
    ((w.queue s bytes).shared.out s).used ≤ (w.shared.out s).used + bytes.length := by
  by_cases hfit : bytes.length ≤ (w.shared.out s).free
  · rw [← Ring.contents_length, queue_contents hfit, List.length_append, Ring.contents_length]
  · rw [queue_full (by omega)]
    omega

/-- Capacities do not change. -/
@[simp] theorem queue_capacity (s' : Side) :
    ((w.queue s bytes).shared.out s').capacity = (w.shared.out s').capacity := by
  unfold queue
  split
  · by_cases hs : s' = s
    · simp [hs]
    · simp [hs]
  · rfl

theorem drop_capacity (n : Nat) (s' : Side) :
    ((w.drop s n).shared.out s').capacity = (w.shared.out s').capacity := by
  by_cases hs : s' = s
  · simp [hs]
  · simp [hs]

/-! ### Registrations -/

variable {w : World} {fd fd' : Int}

@[simp] theorem registered_emit {a : Act} : (w.emit a).Registered fd ↔ w.Registered fd := Iff.rfl

@[simp] theorem registered_setState {st : State} :
    (w.setState st).Registered fd ↔ w.Registered fd := Iff.rfl

@[simp] theorem registered_setRep {rep : UInt8} :
    (w.setRep rep).Registered fd ↔ w.Registered fd := Iff.rfl

@[simp] theorem registered_setInfo {info : Info} :
    (w.setInfo info).Registered fd ↔ w.Registered fd := Iff.rfl

@[simp] theorem registered_drop {n : Nat} : (w.drop s n).Registered fd ↔ w.Registered fd := Iff.rfl

@[simp] theorem registered_popMod : w.popMod.Registered fd ↔ w.Registered fd := Iff.rfl

@[simp] theorem registered_queue : (w.queue s bytes).Registered fd ↔ w.Registered fd := by
  simp [Registered]

/-- Replacing one registration by another deletes none. -/
@[simp] theorem Registered.setInterest (h : w.Registered fd) (i : Events × Option Side) :
    (w.setInterest fd' (some i)).Registered fd := by
  obtain ⟨sk, j, hsk, hj⟩ := h
  by_cases hfd : fd = fd'
  · subst hfd
    exact ⟨{ sk with interest := some i }, i, by simp [hsk], rfl⟩
  · exact ⟨sk, j, by simp [hfd, hsk], hj⟩

@[simp] theorem registered_received (rest : List UInt8) :
    (w.received fd' bytes rest).Registered fd ↔ w.Registered fd := by
  by_cases hfd : fd = fd'
  · subst hfd
    cases hsk : w.fds fd <;> simp [Registered, hsk]
  · simp [Registered, hfd]

/-! ### The answer to the next `EPOLL_CTL_MOD` -/

@[simp] theorem modAnswer_emit (a : Act) : (w.emit a).modAnswer = w.modAnswer := rfl

@[simp] theorem modAnswer_setState (st : State) : (w.setState st).modAnswer = w.modAnswer := rfl

@[simp] theorem modAnswer_setRep (rep : UInt8) : (w.setRep rep).modAnswer = w.modAnswer := rfl

@[simp] theorem modAnswer_setInfo (info : Info) : (w.setInfo info).modAnswer = w.modAnswer := rfl

@[simp] theorem modAnswer_drop (n : Nat) : (w.drop s n).modAnswer = w.modAnswer := rfl

@[simp] theorem modAnswer_received (rest : List UInt8) :
    (w.received fd bytes rest).modAnswer = w.modAnswer := rfl

@[simp] theorem modAnswer_queue : (w.queue s bytes).modAnswer = w.modAnswer := by
  simp [modAnswer]

end World

/-! ### Memory -/

/-- Both ways a handler can end, as one condition on the fault it stopped at. -/
@[simp] def Ends (Q : Unit → World → Prop) (E : Fault → World → Prop) : Option Fault → World → Prop
  | none, w => Q () w
  | some f, w => E f w

section Memory

variable {E : Fault → World → Prop} {w : World}

@[simp] theorem wp_touch {o : Obj} (Q : Unit → World → Prop) (h : w.mem o = .live) :
    wp (touch o) Q E w ↔ Q () w := by
  simp [wp, touch, h, Outcome.Sat]

theorem wp_touch_dead {o : Obj} (Q : Unit → World → Prop) (h : w.mem o ≠ .live) :
    wp (touch o) Q E w ↔ E (.dangling o) w := by
  simp [wp, touch, h, Outcome.Sat]

theorem wp_touch_freed {o : Obj} (Q : Unit → World → Prop) (h : w.mem o = .freed) :
    wp (touch o) Q E w ↔ E (.dangling o) w :=
  wp_touch_dead Q (by simp [h])

@[simp] theorem wp_free {o : Obj} (Q : Unit → World → Prop) (h : w.mem o = .live) :
    wp (free o) Q E w ↔ Q () (w.setMem o .freed) := by
  simp [wp, free, h, Outcome.Sat]

@[simp] theorem wp_sharedVal (Q : Shared → World → Prop) (h : w.mem .shared = .live) :
    wp sharedVal Q E w ↔ Q w.shared w := by
  simp [sharedVal, wp_touch, h]

@[simp] theorem wp_dataShared {e : Side} (Q : Shared → World → Prop) (hd : w.mem (.data e) = .live)
    (h : w.mem .shared = .live) : wp (dataShared e) Q E w ↔ Q w.shared w := by
  simp [dataShared, wp_touch, wp_sharedVal, h, hd]

@[simp] theorem wp_dataSelfFd {e : Side} (Q : Int → World → Prop) (hd : w.mem (.data e) = .live) :
    wp (dataSelfFd e) Q E w ↔ Q (w.selfFd e) w := by
  simp [dataSelfFd, wp_touch, hd]

@[simp] theorem wp_modifyShared {f : Shared → Shared} (Q : Unit → World → Prop)
    (h : w.mem .shared = .live) :
    wp (modifyShared f) Q E w ↔ Q () { w with shared := f w.shared } := by
  simp [modifyShared, wp_touch, h]

@[simp] theorem wp_setState {s : State} (Q : Unit → World → Prop) (h : w.mem .shared = .live) :
    wp (setState s) Q E w ↔ Q () (w.setState s) := by
  simp [setState, wp_touch, h]

@[simp] theorem wp_infoVal (Q : Info → World → Prop) (h : w.mem .info = .live) :
    wp infoVal Q E w ↔ Q w.info w := by
  simp [infoVal, wp_touch, h]

@[simp] theorem wp_sharedInfo (Q : Info → World → Prop) (h : w.mem .shared = .live)
    (hptr : w.shared.info = true) (hinfo : w.mem .info = .live) :
    wp sharedInfo Q E w ↔ Q w.info w := by
  simp [sharedInfo, wp_sharedVal, wp_infoVal, h, hptr, hinfo]

@[simp] theorem wp_modifyInfo {f : Info → Info} (Q : Unit → World → Prop)
    (h : w.mem .info = .live) :
    wp (modifyInfo f) Q E w ↔ Q () (w.setInfo (f w.info)) := by
  simp [modifyInfo, wp_touch, h]

@[simp] theorem wp_setRep {rep : UInt8} (Q : Unit → World → Prop) (h : w.mem .info = .live) :
    wp (setRep rep) Q E w ↔ Q () (w.setRep rep) := by
  simp [setRep, wp_touch, h]

@[simp] theorem wp_writeOut {s : Side} {bytes : List UInt8} (Q : Nat → World → Prop)
    (h : w.mem .shared = .live) (hb : w.mem (.buff s) = .live) :
    wp (writeOut s bytes) Q E w ↔ Q ((w.shared.out s).write bytes).2 (w.queue s bytes) := by
  simp [writeOut, wp_touch, wp_sharedVal, h, hb]

@[simp] theorem wp_peekOut {s : Side} {n : Nat} (Q : List UInt8 → World → Prop)
    (h : w.mem .shared = .live) (hb : w.mem (.buff s) = .live) :
    wp (peekOut s n) Q E w ↔ Q ((w.shared.out s).peek n) w := by
  simp [peekOut, wp_touch, wp_sharedVal, h, hb]

@[simp] theorem wp_consumeOut {s : Side} {n : Nat} (Q : Unit → World → Prop)
    (h : w.mem .shared = .live) : wp (consumeOut s n) Q E w ↔ Q () (w.drop s n) := by
  simp [consumeOut, wp_touch, h]

@[simp] theorem wp_logAccess (Q : Unit → World → Prop) (h : w.mem .shared = .live)
    (ha : w.mem .access = .live) : wp logAccess Q E w ↔ Q () w := by
  simp [logAccess, wp_touch, h, ha]

@[simp] theorem wp_emit {a : Act} (Q : Unit → World → Prop) :
    wp (emit a) Q E w ↔ Q () (w.emit a) := by
  simp [emit]

end Memory

/-! ### System calls -/

/-- What waits at a descriptor. -/
def World.unread (w : World) (fd : Int) : List UInt8 := (w.fds fd).elim [] Sock.inbox

/-- What a receive of at most `n` bytes hands over. -/
def World.readable (w : World) (fd : Int) (n : Nat) : List UInt8 :=
  match w.fds fd, w.ans.recv with
  | some sk, some k => sk.inbox.take (min n (max 1 k))
  | _, _ => []

/-- The outcomes of `recv` on `fd` with room for `n` bytes. -/
inductive Recv (w : World) (fd : Int) (n : Nat) : Option (List UInt8) → World → Prop where
  | failed (hnone : w.readable fd n = []) : Recv w fd n none w
  | zero (h : n = 0) : Recv w fd n (some []) w
  | ended {sk : Sock} (hsk : w.fds fd = some sk) (hempty : sk.inbox = []) (hfin : sk.fin = true) :
      Recv w fd n (some []) (w.emit (.eof fd))
  | data {sk : Sock} {bytes rest : List UInt8} (hsk : w.fds fd = some sk)
      (hinbox : sk.inbox = bytes ++ rest) (hne : bytes ≠ []) (hle : bytes.length ≤ n)
      (hcount : ∃ k, w.ans.recv = some k ∧ bytes = sk.inbox.take (min n (max 1 k))) :
      Recv w fd n (some bytes) (w.received fd bytes rest)

/-- A receive changes nothing but the inbox and the trace. -/
theorem Recv.frame {w w₁ : World} {fd : Int} {n : Nat} {r : Option (List UInt8)}
    (h : Recv w fd n r w₁) : ∃ fds trace, w₁ = { w with fds := fds, trace := trace } := by
  cases h with
  | failed => exact ⟨w.fds, w.trace, rfl⟩
  | zero => exact ⟨w.fds, w.trace, rfl⟩
  | ended => exact ⟨w.fds, _, rfl⟩
  | data => exact ⟨_, _, rfl⟩

theorem Recv.modAnswer {w w₁ : World} {fd : Int} {n : Nat} {r : Option (List UInt8)}
    (h : Recv w fd n r w₁) : w₁.modAnswer = w.modAnswer := by
  obtain ⟨fds, trace, rfl⟩ := h.frame
  rfl

theorem Recv.ans {w w₁ : World} {fd : Int} {n : Nat} {r : Option (List UInt8)}
    (h : Recv w fd n r w₁) : w₁.ans = w.ans := by
  obtain ⟨fds, trace, rfl⟩ := h.frame
  rfl

theorem Recv.readable {w : World} {fd : Int} {n : Nat} {bytes : List UInt8} {w₁ : World}
    (h : Recv w fd n (some bytes) w₁) : bytes = w.readable fd n := by
  unfold World.readable
  cases h with
  | zero hn =>
    split
    · simp [hn]
    · rfl
  | ended hsk hempty hfin =>
    rw [hsk]
    split
    · rename_i hsk' hk
      cases hsk'
      simp [hempty]
    · rfl
  | data hsk hinbox hne hle hcount =>
    obtain ⟨k, hk, hbytes⟩ := hcount
    simp only [hsk, hk]
    exact hbytes

/-- What is there is received. -/
theorem Recv.of_readable {w w₁ : World} {fd : Int} {n : Nat} {r : Option (List UInt8)}
    (h : Recv w fd n r w₁) (hne : w.readable fd n ≠ []) : r = some (w.readable fd n) := by
  cases r with
  | none =>
    cases h with
    | failed hnone => exact absurd hnone hne
  | some bytes => rw [h.readable]

/-- The outcomes of `send`. -/
inductive Send (w : World) (fd : Int) (bytes : List UInt8) : Option Nat → World → Prop where
  | failed (hnone : w.fds fd ≠ none → w.ans.send = none) :
      Send w fd bytes none (w.emit (.sendFailed fd))
  | sent {k : Nat} (hle : k ≤ bytes.length)
      (hcount : ∃ n, w.ans.send = some n ∧ k = min n bytes.length) :
      Send w fd bytes (some k) (w.emit (.sent fd (bytes.take k)))

/-- The outcomes of `EPOLL_CTL_MOD`. -/
inductive Modified (w : World) (fd : Int) (i : Events × Option Side) : Bool → World → Prop where
  | done (hmod : w.modAnswer = true) (hreg : w.Registered fd) :
      Modified w fd i true (w.popMod.setInterest fd (some i))
  | failed (hmod : w.Registered fd → w.modAnswer = false) : Modified w fd i false w.popMod

/-- The outcomes of `EPOLL_CTL_ADD`. -/
inductive Added (w : World) (fd : Int) (i : Events × Option Side) : Bool → World → Prop where
  | done {sk : Sock} (hsk : w.fds fd = some sk) (hi : sk.interest = none)
      (hadd : w.ans.epollAdd = true) : Added w fd i true (w.setInterest fd (some i))
  | failed (hadd : ∀ sk, w.fds fd = some sk → sk.interest = none → w.ans.epollAdd = false) :
      Added w fd i false w

section Kernel

variable {E : Fault → World → Prop} {w : World}

theorem wp_recv {fd : Int} {n : Nat} {Q : Option (List UInt8) → World → Prop}
    (h : ∀ r w', Recv w fd n r w' → Q r w') : wp (recv fd n) Q E w := by
  unfold wp recv
  split
  · rename_i sk k hsk hk
    split
    · rename_i hn
      exact h _ _ (.zero hn)
    · rename_i hn
      split
      · rename_i hinbox
        split
        · rename_i hfin
          exact h _ _ (.ended hsk hinbox hfin)
        · exact h _ _ (.failed (by simp [World.readable, hsk, hk, hinbox]))
      · rename_i b bs hinbox
        have hw : (w.setFd fd (some { sk with inbox := (b :: bs).drop (min n (max 1 k)) })).emit
            (.recv fd ((b :: bs).take (min n (max 1 k)))) =
            w.received fd ((b :: bs).take (min n (max 1 k)))
              ((b :: bs).drop (min n (max 1 k))) := by
          simp [World.received, World.setFd, World.emit, hsk]
        rw [Outcome.Sat, hw]
        refine h _ _ (.data hsk ?_ ?_ ?_ ⟨k, hk, by rw [hinbox]⟩)
        · rw [hinbox, List.take_append_drop]
        · have hpos : 0 < min n (max 1 k) := by omega
          intro hnil
          have hlen := congrArg List.length hnil
          simp only [List.length_take, List.length_cons, List.length_nil] at hlen
          omega
        · rw [List.length_take]
          omega
  · rename_i hnone
    refine h _ _ (.failed ?_)
    unfold World.readable
    split
    · rename_i sk k hsk hk
      exact absurd hk (hnone sk k hsk)
    · rfl

theorem wp_send {fd : Int} {bytes : List UInt8} {Q : Option Nat → World → Prop}
    (h : ∀ r w', Send w fd bytes r w' → Q r w') : wp (send fd bytes) Q E w := by
  unfold wp send
  split
  · rename_i k hfd hsend
    exact h _ _ (.sent (Nat.min_le_right _ _) ⟨k, hsend, rfl⟩)
  · rename_i hnot
    refine h _ _ (.failed fun hopen => ?_)
    obtain ⟨sk, hsk⟩ := Option.ne_none_iff_exists'.mp hopen
    by_contra hsome
    obtain ⟨k, hk⟩ := Option.ne_none_iff_exists'.mp hsome
    exact hnot sk k hsk hk

/-- `EPOLL_CTL_MOD` on a registered descriptor does what the kernel answers. -/
@[simp] theorem wp_epollCtlMod {fd : Int} {events : Events} {ptr : Option Side}
    (Q : Bool → World → Prop) (hreg : w.Registered fd) :
    wp (epollCtlMod fd events ptr) Q E w ↔
      (w.modAnswer = true → Q true (w.popMod.setInterest fd (some (events, ptr)))) ∧
        (w.modAnswer = false → Q false w.popMod) := by
  obtain ⟨sk, i, hsk, hi⟩ := hreg
  unfold wp epollCtlMod
  simp only [hsk, hi, ne_eq, reduceCtorEq, not_false_eq_true, true_and]
  cases w.modAnswer with
  | true => simp [Outcome.Sat]
  | false => simp [Outcome.Sat]

/-- The same on any descriptor. -/
theorem wp_modify_interest {fd : Int} {events : Events} {ptr : Option Side}
    {Q : Bool → World → Prop} (h : ∀ r w', Modified w fd (events, ptr) r w' → Q r w') :
    wp (epollCtlMod fd events ptr) Q E w := by
  unfold wp epollCtlMod
  split
  · rename_i sk hsk
    split
    · rename_i hok
      obtain ⟨i, hi⟩ := Option.ne_none_iff_exists'.mp hok.1
      exact h _ _ (.done hok.2 ⟨sk, i, hsk, hi⟩)
    · rename_i hfail
      refine h _ _ (.failed fun ⟨sk', i, hsk', hi⟩ => ?_)
      obtain rfl : sk = sk' := by simpa [hsk] using hsk'
      simpa [hi] using hfail
  · rename_i hnone
    exact h _ _ (.failed fun ⟨sk', i, hsk', hi⟩ => by simp [hnone] at hsk')

theorem wp_epollCtlAdd {fd : Int} {events : Events} {ptr : Option Side}
    {Q : Bool → World → Prop} (h : ∀ r w', Added w fd (events, ptr) r w' → Q r w') :
    wp (epollCtlAdd fd events ptr) Q E w := by
  unfold wp epollCtlAdd
  split
  · rename_i sk hsk
    split
    · rename_i hok
      exact h _ _ (.done hsk hok.1 hok.2)
    · rename_i hfail
      refine h _ _ (.failed fun sk' hsk' hi => ?_)
      obtain rfl : sk = sk' := by simpa [hsk] using hsk'
      simpa [hi] using hfail
  · rename_i hnone
    exact h _ _ (.failed fun sk' hsk' _ => by simp [hnone] at hsk')

/-- `socket` opens a new descriptor or fails. -/
theorem wp_socket {Q : Option Int → World → Prop} (hfail : w.socketFd = none → Q none w)
    (hopen : ∀ fd, w.ans.socket = some fd → 0 ≤ fd → w.fds fd = none →
      Q (some fd) (w.setFd fd (some .opened))) :
    wp socket Q E w := by
  unfold wp socket
  split
  · rename_i fd hans
    split
    · rename_i hnew
      simp only [World.newFd, Bool.and_eq_true, decide_eq_true_eq,
        Option.isNone_iff_eq_none] at hnew
      exact hopen fd hans hnew.1 hnew.2
    · rename_i hold
      exact hfail (by simp [World.socketFd, hans, Option.filter, hold])
  · rename_i hnone
    exact hfail (by simp [World.socketFd, hnone])

theorem World.socketFd_eq_some {fd : Int} :
    w.socketFd = some fd ↔ w.ans.socket = some fd ∧ 0 ≤ fd ∧ w.fds fd = none := by
  simp [World.socketFd, World.newFd, Option.filter_eq_some_iff]

theorem wp_accept {lfd : Int} {Q : Option (Int × SockAddr) → World → Prop}
    (hfail : w.accepts lfd = none → Q none w)
    (hopen : ∀ fd ss, w.ans.accept = some (fd, ss) → w.fds lfd ≠ none → w.fds fd = none →
      Q (some (fd, ss)) ((w.setFd fd (some .opened)).emit (.accepted fd ss))) :
    wp (accept lfd) Q E w := by
  unfold wp accept
  split
  · rename_i fd ss hlfd hans
    split
    · rename_i hnew
      simp only [World.newFd, Bool.and_eq_true, decide_eq_true_eq,
        Option.isNone_iff_eq_none] at hnew
      exact hopen fd ss hans (by simp [hlfd]) hnew.2
    · rename_i hold
      exact hfail (by simp [World.accepts, hlfd, hans, hold])
  · rename_i hnone
    refine hfail ?_
    unfold World.accepts
    split
    · rename_i hlfd
      obtain ⟨sk, hsk⟩ := Option.isSome_iff_exists.mp hlfd
      cases hans : w.ans.accept with
      | none => rfl
      | some peer => exact absurd hans (hnone sk peer.1 peer.2 hsk)
    · rfl

@[simp] theorem wp_fdNonblocking {fd : Int} (Q : Unit → World → Prop) :
    wp (fdNonblocking fd) Q E w ↔
      Q () (w.setFd fd ((w.fds fd).map fun sk => { sk with nonblock := true })) := by
  simp [fdNonblocking]

@[simp] theorem wp_closeFd {fd : Int} (Q : Unit → World → Prop) :
    wp (closeFd fd) Q E w ↔ Q () (w.setFd fd none) := by
  simp [closeFd]

@[simp] theorem wp_epollCtlDel {fd : Int} (Q : Unit → World → Prop) :
    wp (epollCtlDel fd) Q E w ↔ Q () (w.setInterest fd none) := by
  simp [epollCtlDel]

@[simp] theorem wp_connect {fd : Int} {dst : SockAddr} (Q : Int → World → Prop) :
    wp (connect fd dst) Q E w ↔ Q w.ans.connectErrno (w.emit (.connect fd dst)) := by
  simp [connect, emit]

end Kernel

end Socksprox
