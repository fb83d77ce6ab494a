import Socksprox.Rules

/-!
The objects of a connection: what is live while it is open, what is left after one
end was released, and what the release of an end does.
-/

namespace Socksprox

open Lib (wp wp_bind wp_pure wp_get wp_modify wp_throw wp_ite wp.mono)
open Lib.Exec (get modify throw)

/-! ### Release of one end -/

/-- What `free_data` relies on: what it frees is live, and the two ends have
different descriptors. -/
structure Releasable (w : World) (e : Side) : Prop where
  data : w.mem (.data e) = .live
  shared : w.mem .shared = .live
  info : w.shared.info = true → w.mem .info = .live
  sa : w.shared.info = true → w.info.sa.isSome = true → w.mem .sa = .live
  ai : w.shared.info = true → w.info.ai ≠ [] → w.mem .ai = .live
  buff : ∀ s, w.shared.outBuff s = true → w.mem (.buff s) = .live
  self : w.selfFd e = w.shared.fd e
  peer : w.shared.fd .client ≠ w.shared.fd .server

/-- The objects after `free_data` on end `e`: its `Data`, everything the two ends
shared that was not freed before, and `Shared` when the other end is gone. -/
def World.memFreed (w : World) (e : Side) : Obj → Life
  | .data s => if s = e then .freed else w.mem (.data s)
  | .shared => if w.shared.data e.peer = none then .freed else w.mem .shared
  | .info => if w.shared.info then .freed else w.mem .info
  | .buff s => if w.shared.outBuff s then .freed else w.mem (.buff s)
  | .access => w.mem .access
  | .sa => if w.shared.info && w.info.sa.isSome then .freed else w.mem .sa
  | .ai => if w.shared.info && !w.info.ai.isEmpty then .freed else w.mem .ai

@[simps -fullyApplied] def World.freedData (w : World) (e : Side) : World :=
  { w with
    shared := { w.shared with
      info := false
      outBuff := fun _ => false
      data := Function.update w.shared.data e none }
    mem := w.memFreed e }

/-- The steps of `free_data` before it comes to `Shared`. -/
@[simps -fullyApplied] def World.freedIf (w : World) (c : Bool) (o : Obj) : World :=
  { w with mem := if c then Function.update w.mem o .freed else w.mem }

@[simps -fullyApplied] def World.freedInfo (w : World) : World :=
  { w with
    shared := { w.shared with info := false }
    mem := fun o => match o with
      | .info => if w.shared.info then .freed else w.mem .info
      | .sa => if w.shared.info && w.info.sa.isSome then .freed else w.mem .sa
      | .ai => if w.shared.info && !w.info.ai.isEmpty then .freed else w.mem .ai
      | o => w.mem o }

@[simps -fullyApplied] def World.freedBuff (w : World) (s : Side) : World :=
  { w with
    shared := { w.shared with outBuff := Function.update w.shared.outBuff s false }
    mem := if w.shared.outBuff s then Function.update w.mem (.buff s) .freed else w.mem }

@[simps -fullyApplied] def World.unlinked (w : World) (self : Int) : World :=
  { w with shared := { w.shared with
      data := fun s => if self = w.shared.fd s then none else w.shared.data s } }

section Release

variable {E : Fault → World → Prop} {w : World} {e : Side}

theorem wp_freeIf {c : Bool} {o : Obj} (Q : Unit → World → Prop)
    (h : c = true → w.mem o = .live) : wp (freeIf c o) Q E w ↔ Q () (w.freedIf c o) := by
  cases c with
  | true =>
    rw [freeIf, if_pos rfl, wp_free _ (h rfl)]
    rfl
  | false => simp [freeIf, World.freedIf]

theorem wp_freeInfo (Q : Unit → World → Prop) (h : Releasable w e) :
    wp freeInfo Q E w ↔ Q () w.freedInfo := by
  rw [freeInfo, wp_bind, wp_sharedVal _ h.shared]
  cases hptr : w.shared.info with
  | false =>
    rw [Bool.not_false, if_pos rfl, wp_pure]
    have hw : w.freedInfo = w := by
      cases w with
      | mk shared selfFd info access mem fds ans dns pending trace =>
        simp only [World.freedInfo, World.mk.injEq, true_and, and_true]
        refine ⟨?_, ?_⟩
        · cases shared
          simp_all
        · funext o
          cases o <;> simp_all
    rw [hw]
  | true =>
    have hinfo := h.info hptr
    have hsa := h.sa hptr
    have hai := h.ai hptr
    have hshared := h.shared
    rw [Bool.not_true, if_neg Bool.false_ne_true, wp_bind, wp_infoVal _ hinfo, wp_bind,
      wp_freeIf _ hsa, wp_bind, wp_freeIf _, wp_bind, wp_free _, wp_modifyShared _]
    · refine iff_of_eq (congrArg _ ?_)
      cases w with
      | mk shared selfFd info access mem fds ans dns pending trace =>
        simp only [World.setMem, World.freedIf, World.freedInfo, World.mk.injEq, true_and, and_true]
        funext o
        cases o <;> cases info.sa.isSome <;> cases info.ai.isEmpty <;> simp_all
    · simp [hshared, ite_apply]
    · simp [hinfo, ite_apply]
    · intro ha
      have hai' : w.mem .ai = .live := hai (by simpa using ha)
      simp [hai', ite_apply]

theorem wp_freeBuff {s : Side} (Q : Unit → World → Prop) (hshared : w.mem .shared = .live)
    (hbuff : w.shared.outBuff s = true → w.mem (.buff s) = .live) :
    wp (freeBuff s) Q E w ↔ Q () (w.freedBuff s) := by
  rw [freeBuff, wp_bind, wp_sharedVal _ hshared, wp_bind, wp_freeIf _ hbuff, wp_modifyShared _]
  · rfl
  · cases w.shared.outBuff s <;> simp [hshared]

theorem wp_unlinkData {self : Int} (Q : Unit → World → Prop) (hshared : w.mem .shared = .live) :
    wp (unlinkData self) Q E w ↔ Q () (w.unlinked self) := by
  rw [unlinkData, wp_modifyShared _ hshared]
  rfl

/-- The steps of `free_data` one after the other are its effect. -/
theorem freedData_eq (h : Releasable w e) :
    ((((w.freedInfo.freedBuff .client).freedBuff .server).unlinked (w.selfFd e)).freedIf
      (w.shared.data e.peer == none) .shared).setMem (.data e) .freed = w.freedData e := by
  have hself := h.self
  have hpeer := h.peer
  refine World.ext (Shared.ext rfl rfl rfl ?_ ?_ rfl rfl) rfl rfl rfl ?_ rfl rfl rfl rfl rfl
  · funext s
    cases s <;> simp
  · funext s
    cases e <;> cases s <;> simp [hself, hpeer, hpeer.symm]
  · funext o
    cases o with
    | buff s => cases s <;> simp [ite_apply, World.memFreed]
    | _ => simp [ite_apply, World.memFreed, Function.update_apply]

theorem wp_freeData (Q : Unit → World → Prop) (h : Releasable w e) :
    wp (freeData e) Q E w ↔ Q () (w.freedData e) := by
  have hdata := h.data
  have hshared := h.shared
  have hbuff := h.buff
  have hself := h.self
  have hpeer := h.peer
  rw [freeData, wp_bind, wp_touch _ hdata, wp_bind, wp_freeInfo _ h, wp_bind, wp_freeBuff _,
    wp_bind, wp_freeBuff _, wp_bind, wp_dataSelfFd _, wp_bind, wp_unlinkData _,
    wp_bind, wp_dataShared _, wp_bind, wp_freeIf _, wp_free _]
  · rw [← freedData_eq h]
    cases e <;> simp [hself, hpeer, hpeer.symm, Side.peer]
  all_goals simp [ite_apply, hdata, hshared]
  all_goals exact hbuff _

end Release

/-! ### Open and shut connections -/

/-- The two ends: different descriptors, and `Shared` points to the `Data` objects that
are live. -/
structure Linked (w : World) : Prop where
  fd_ne : w.shared.fd .client ≠ w.shared.fd .server
  self : ∀ s, w.mem (.data s) = .live → w.selfFd s = w.shared.fd s
  ptr : ∀ s, w.shared.data s = if w.mem (.data s) = .live then some s else none

/-- A connection that no end has left. The server end may not be there yet. -/
structure Open (w : World) : Prop extends Linked w where
  shared : w.mem .shared = .live
  info : w.mem .info = .live
  infoPtr : w.shared.info = true
  buff : ∀ s, w.mem (.buff s) = .live
  outBuff : ∀ s, w.shared.outBuff s = true
  capacity : ∀ s, (w.shared.out s).capacity = outbuffsize
  access : w.mem .access = .live
  client : w.mem (.data .client) = .live
  sa : w.info.sa.isSome = true → w.mem .sa = .live
  ai : w.info.ai ≠ [] → w.mem .ai = .live
  fd_nonneg : 0 ≤ w.shared.fd .client
  registered : w.Registered (w.shared.fd .client)

/-- A connection that one end or both have left: what was not freed before is gone. -/
structure Shut (w : World) : Prop extends Linked w where
  state : w.shared.state = .closed
  info : w.shared.info = false
  outBuff : ∀ s, w.shared.outBuff s = false
  shared : ∀ s, w.mem (.data s) = .live → w.mem .shared = .live

attribute [simp] Open.shared Open.info Open.infoPtr Open.buff Open.access Open.client
  Open.registered

/-- What `Open` says something about, the epoll registrations apart. -/
def World.links (w : World) :=
  (w.mem, w.selfFd, w.shared.fd, w.shared.data, w.shared.info, w.shared.outBuff,
    fun s => (w.shared.out s).capacity, w.info.sa, w.info.ai)

theorem Open.frame {w w' : World} (hw : Open w) (hlinks : w'.links = w.links)
    (hreg : w.Registered (w.shared.fd .client) →
      w'.Registered (w.shared.fd .client)) : Open w' := by
  simp only [World.links, Prod.mk.injEq] at hlinks
  obtain ⟨hmem, hself, hfd, hdata, hinfo, hbuff, hcap, hsa, hai⟩ := hlinks
  exact
    { fd_ne := by rw [hfd]; exact hw.fd_ne
      self := by rw [hmem, hself, hfd]; exact hw.self
      ptr := by rw [hmem, hdata]; exact hw.ptr
      shared := by rw [hmem]; exact hw.shared
      info := by rw [hmem]; exact hw.info
      infoPtr := by rw [hinfo]; exact hw.infoPtr
      buff := by rw [hmem]; exact hw.buff
      outBuff := by rw [hbuff]; exact hw.outBuff
      capacity := fun s => (congrFun hcap s).trans (hw.capacity s)
      access := by rw [hmem]; exact hw.access
      client := by rw [hmem]; exact hw.client
      sa := by rw [hmem, hsa]; exact hw.sa
      ai := by rw [hmem, hai]; exact hw.ai
      fd_nonneg := by rw [hfd]; exact hw.fd_nonneg
      registered := by rw [hfd]; exact hreg hw.registered }

section Frame

variable {w : World}

@[simp] theorem open_emit {a : Act} : Open (w.emit a) ↔ Open w :=
  ⟨fun h => h.frame rfl id, fun h => h.frame rfl id⟩

@[simp] theorem open_setState {s : State} : Open (w.setState s) ↔ Open w :=
  ⟨fun h => h.frame rfl id, fun h => h.frame rfl id⟩

@[simp] theorem open_setRep {rep : UInt8} : Open (w.setRep rep) ↔ Open w :=
  ⟨fun h => h.frame rfl id, fun h => h.frame rfl id⟩

@[simp] theorem open_popMod : Open w.popMod ↔ Open w :=
  ⟨fun h => h.frame rfl id, fun h => h.frame rfl id⟩

@[simp] theorem open_queue {s : Side} {bytes : List UInt8} : Open (w.queue s bytes) ↔ Open w := by
  have hlinks : (w.queue s bytes).links = w.links := by simp [World.links]
  exact ⟨fun h => h.frame hlinks.symm (by simp), fun h => h.frame hlinks (by simp)⟩

@[simp] theorem open_drop {s : Side} {n : Nat} : Open (w.drop s n) ↔ Open w := by
  have hlinks : (w.drop s n).links = w.links := by
    simp only [World.links, World.drop_capacity]
    rfl
  exact ⟨fun h => h.frame hlinks.symm id, fun h => h.frame hlinks id⟩

@[simp] theorem open_received {fd : Int} {bytes rest : List UInt8} :
    Open (w.received fd bytes rest) ↔ Open w :=
  ⟨fun h => h.frame rfl (by simp), fun h => h.frame rfl (by simp)⟩

/-- The request's address and the resolved list are unchanged. -/
@[simp] theorem Open.setInfo {info : Info} (hw : Open w) (hsa : info.sa = w.info.sa)
    (hai : info.ai = w.info.ai) : Open (w.setInfo info) :=
  hw.frame (by simp [World.links, hsa, hai]) id

@[simp] theorem Open.setInterest (hw : Open w) (fd : Int) (i : Events × Option Side) :
    Open (w.setInterest fd (some i)) :=
  hw.frame rfl fun h => h.setInterest i

/-- The client's descriptor is another one. -/
theorem Open.setFd (hw : Open w) {fd : Int} (hne : fd ≠ w.shared.fd .client) (s : Option Sock) :
    Open (w.setFd fd s) :=
  hw.frame rfl fun ⟨sk, i, hsk, hi⟩ => ⟨sk, i, by simp [hne.symm, hsk], hi⟩

theorem Open.linkServer (hw : Open w) {sfd : Int} (hne : sfd ≠ w.shared.fd .client) :
    Open (w.linkServer sfd) where
  fd_ne := by simpa using hne.symm
  self := by
    intro s hd
    cases s with
    | client => simpa using hw.self .client hw.client
    | server => simp
  ptr := by
    intro s
    cases s with
    | client => simpa [hw.client] using hw.ptr .client
    | server => simp
  shared := by simpa using hw.shared
  info := by simpa using hw.info
  infoPtr := hw.infoPtr
  buff := fun s => by simpa using hw.buff s
  outBuff := hw.outBuff
  capacity := hw.capacity
  access := by simpa using hw.access
  client := by simpa using hw.client
  sa := fun h => by simpa using hw.sa h
  ai := fun h => by simpa using hw.ai h
  fd_nonneg := by simpa using hw.fd_nonneg
  registered := by simpa [World.Registered] using hw.registered

/-- A descriptor that is not open is not the client's. -/
theorem Open.ne_client (hw : Open w) {fd : Int} (hnew : w.fds fd = none) :
    fd ≠ w.shared.fd .client := by
  rintro rfl
  obtain ⟨sk, i, hsk, -⟩ := hw.registered
  simp [hnew] at hsk

theorem Open.opened (hw : Open w) {fd : Int} (hnew : w.fds fd = none) (nonblock : Bool) :
    Open (w.opened fd nonblock) :=
  hw.setFd (hw.ne_client hnew) _

theorem Recv.open {fd : Int} {n : Nat} {r : Option (List UInt8)} {w₁ : World} (hw : Open w)
    (h : Recv w fd n r w₁) : Open w₁ := by
  cases h with
  | failed => exact hw
  | zero hn => exact hw
  | ended hsk hempty hfin => simpa using hw
  | data hsk hinbox hne hle => simpa using hw

end Frame

theorem Open.self_client {w : World} (hw : Open w) : w.selfFd .client = w.shared.fd .client :=
  hw.self .client hw.client

theorem Open.data_client {w : World} (hw : Open w) : w.shared.data .client = some .client := by
  rw [hw.ptr, if_pos hw.client]

theorem Open.not_shut {w : World} (hw : Open w) : ¬ Shut w := fun hshut => by
  have hgone := hshut.info
  simp [hw.infoPtr] at hgone

theorem Open.releasable {w : World} (hw : Open w) {e : Side} (hd : w.mem (.data e) = .live) :
    Releasable w e :=
  { data := hd
    shared := hw.shared
    info := fun _ => hw.info
    sa := fun _ => hw.sa
    ai := fun _ => hw.ai
    buff := fun s _ => hw.buff s
    self := hw.self e hd
    peer := hw.fd_ne }

theorem Shut.releasable {w : World} (hw : Shut w) {e : Side} (hd : w.mem (.data e) = .live) :
    Releasable w e :=
  { data := hd
    shared := hw.shared e hd
    info := fun h => absurd h (by simp [hw.info])
    sa := fun h => absurd h (by simp [hw.info])
    ai := fun h => absurd h (by simp [hw.info])
    buff := fun s h => absurd h (by simp [hw.outBuff s])
    self := hw.self e hd
    peer := hw.fd_ne }

/-- Releasing an end of a closed connection leaves it shut. -/
theorem freedData_shut {w : World} {e : Side} (hw : Linked w) (hs : w.mem .shared = .live)
    (hstate : w.shared.state = .closed) : Shut (w.freedData e) where
  fd_ne := hw.fd_ne
  self := by
    intro s hd
    refine hw.self s ?_
    by_cases hse : s = e
    · simp [World.memFreed, hse] at hd
    · simpa [World.memFreed, hse] using hd
  ptr := by
    intro s
    have hptr := hw.ptr s
    by_cases hse : s = e
    · simp [World.memFreed, hse]
    · simpa [World.memFreed, hse] using hptr
  state := hstate
  info := rfl
  outBuff := fun _ => rfl
  shared := by
    intro s hd
    have hptr := hw.ptr e.peer
    by_cases hse : s = e
    · simp [World.memFreed, hse] at hd
    · have hpeer : s = e.peer := by
        cases s <;> cases e <;> simp_all [Side.peer]
      subst hpeer
      simp only [World.freedData_mem, World.memFreed, hse, if_false] at hd ⊢
      rw [hptr, if_pos hd, if_neg (Option.some_ne_none _)]
      exact hs

end Socksprox
