import Socksprox.Run.Gate
import Socksprox.Effects
import Mathlib.Data.Fin.VecNotation

/-!
What a connection holds, and what is left of it at the end. `mem` and `fds` are the ledger:
every object and descriptor that was acquired for the connection, until it is released.
-/

namespace Socksprox

/-! ### The ledger -/

/-- Whatever is live can be reached from what is not freed yet: `Info` and what hangs on it and
the buffers through `Shared`, while the client's end is there; `Shared` through an end. -/
structure Ledger (w : World) : Prop where
  access : w.mem .access = .live
  sa : w.mem .sa = .live → w.shared.info = true ∧ w.info.sa.isSome = true
  ai : w.mem .ai = .live → w.shared.info = true ∧ w.info.ai ≠ []
  info : w.mem .info = .live → w.shared.info = true
  buff : ∀ s, w.mem (.buff s) = .live → w.shared.outBuff s = true
  infoPtr : w.shared.info = true → w.mem (.data .client) = .live
  outBuff : ∀ s, w.shared.outBuff s = true → w.mem (.data .client) = .live
  shared : w.mem .shared = .live → ∃ s, w.shared.data s ≠ none
  ptr : ∀ s, w.shared.data s ≠ none → w.mem (.data s) = .live

section Ledger

variable {blocking : Prop} {w w' : World}

theorem Ledger.congr (h : Ledger w) (hmem : w'.mem = w.mem) (hinfo : w'.shared.info = w.shared.info)
    (hbuff : w'.shared.outBuff = w.shared.outBuff) (hdata : w'.shared.data = w.shared.data)
    (hsa : w'.info.sa = w.info.sa) (hai : w'.info.ai = w.info.ai) : Ledger w' where
  access := by rw [hmem, h.access]
  sa := by simpa only [hmem, hinfo, hsa] using h.sa
  ai := by simpa only [hmem, hinfo, hai] using h.ai
  info := by simpa only [hmem, hinfo] using h.info
  buff := by simpa only [hmem, hbuff] using h.buff
  infoPtr := by simpa only [hmem, hinfo] using h.infoPtr
  outBuff := by simpa only [hmem, hbuff] using h.outBuff
  shared := by simpa only [hmem, hdata] using h.shared
  ptr := by simpa only [hmem, hdata] using h.ptr

/-- The request's address is entered with the pointer to it. -/
theorem Ledger.addrStored (h : Ledger w) (req : List UInt8) (hw : Open w) :
    Ledger (w.addrStored req) where
  access := by simpa using h.access
  sa := fun _ => ⟨hw.infoPtr, rfl⟩
  ai := by simpa using h.ai
  info := by simpa using h.info
  buff := by simpa using h.buff
  infoPtr := by simpa using h.infoPtr
  outBuff := by simpa using h.outBuff
  shared := by simpa using h.shared
  ptr := by simpa using h.ptr

/-- So is the list that the resolver's thread stores, which replaces none. -/
theorem Ledger.answered (h : Ledger w) (gaiRet : Int) (ai : List AddrInfo) (hw : Open w)
    (hnone : w.info.ai = []) : Ledger (w.answered gaiRet ai) := by
  by_cases hai : ai = []
  · subst hai
    refine h.congr ?_ rfl rfl rfl rfl hnone.symm
    simp
  · have hmem : (w.answered gaiRet ai).mem = Function.update w.mem .ai .live := by simp [hai]
    have hkept : ∀ o, o ≠ .ai → (w.answered gaiRet ai).mem o = w.mem o := fun o ho => by
      rw [hmem, Function.update_of_ne ho]
    exact
      { access := by simpa [hkept] using h.access
        sa := by simpa [hkept] using h.sa
        ai := fun _ => ⟨hw.infoPtr, hai⟩
        info := by simpa [hkept] using h.info
        buff := by simpa [hkept] using h.buff
        infoPtr := by simpa [hkept] using h.infoPtr
        outBuff := by simpa [hkept] using h.outBuff
        shared := by simpa [hkept] using h.shared
        ptr := by simpa [hkept] using h.ptr }

theorem Ledger.linkServer (h : Ledger w) (sfd : Int) : Ledger (w.linkServer sfd) where
  access := by simpa using h.access
  sa := by simpa using h.sa
  ai := by simpa using h.ai
  info := by simpa using h.info
  buff := by simpa using h.buff
  infoPtr := by simpa using h.infoPtr
  outBuff := by simpa using h.outBuff
  shared := fun _ => ⟨.server, by simp⟩
  ptr := by
    intro s hs
    cases s with
    | client => simpa using h.ptr .client (by simpa using hs)
    | server => simp

/-- The release of an end strikes out all that hangs on `Shared`, and `Shared` with the last
end. -/
theorem Ledger.released (h : Ledger w) (e : Side) : Ledger (w.released e) := by
  have hgone : ∀ {o : Obj} {c : Bool}, (w.mem o = .live → c = true) →
      (if c then Life.freed else w.mem o) ≠ .live := by
    intro o c hc hlive
    cases c with
    | true => cases hlive
    | false => cases hc hlive
  refine ⟨h.access, fun hlive => ?_, fun hlive => ?_, fun hlive => ?_, fun s hlive => ?_,
    fun hptr => ?_, fun s hptr => ?_, fun hlive => ⟨e.peer, ?_⟩, fun s hptr => ?_⟩
  · refine absurd hlive (hgone fun hsa => ?_)
    simp [h.sa hsa]
  · refine absurd hlive (hgone fun hai => ?_)
    simp [h.ai hai]
  · exact absurd hlive (hgone h.info)
  · exact absurd hlive (hgone (h.buff s))
  · cases hptr
  · cases hptr
  · have hpeer : e.peer ≠ e := by cases e <;> decide
    intro hnone
    simp [World.memFreed, hpeer] at hlive hnone
    simp [hnone] at hlive
  · by_cases hs : s = e
    · simp [hs] at hptr
    · have hlive := h.ptr s (by simpa [hs] using hptr)
      simpa [World.memFreed, hs] using hlive

theorem Ledger.effect (h : Ledger w) (he : Effect blocking w w') : Ledger w' := by
  cases he with
  | info info hsa hai => exact h.congr rfl rfl rfl rfl hsa hai
  | address req hw => exact h.addrStored req hw
  | queue s bytes => exact h.congr (by simp) (by simp) (by simp) (by simp) (by simp) (by simp)
  | received hrecv =>
    obtain ⟨fds, trace, rfl⟩ := hrecv.frame
    exact h.congr rfl rfl rfl rfl rfl rfl
  | linked sfd => exact h.linkServer sfd
  | released e => exact h.released e
  | _ => exact h.congr rfl rfl rfl rfl rfl rfl

theorem Ledger.looped (h : Ledger w) (hl : Looped w w') : Ledger w' := by
  cases hl with
  | answered gaiRet ai hw hai => exact h.answered gaiRet ai hw hai
  | _ => exact h.congr rfl rfl rfl rfl rfl rfl

theorem newClient_ledger (fd : Int) (ss : SockAddr) (bufs : Side → OutBuff) :
    Ledger (newClient fd ss bufs) where
  access := rfl
  sa := fun hlive => by cases hlive
  ai := fun hlive => by cases hlive
  info := fun _ => rfl
  buff := fun _ _ => rfl
  infoPtr := fun _ => rfl
  outBuff := fun _ _ => rfl
  shared := fun _ => ⟨.client, by simp [newClient]⟩
  ptr := by
    intro s hs
    cases s with
    | client => rfl
    | server => exact absurd rfl hs

end Ledger

/-! ### Teardown -/

/-- Both ends are gone. -/
def World.TornDown (w : World) : Prop :=
  w.mem (.data .client) = .freed ∧ w.mem (.data .server) ≠ .live

/-- Every object is freed and every descriptor closed. -/
def World.AllReleased (w : World) : Prop := (∀ o, w.mem o ≠ .live) ∧ ∀ fd, w.fds fd = none

instance (w : World) : Decidable w.TornDown := inferInstanceAs (Decidable (_ ∧ _))

/-- With both ends gone the access log is all that is left. -/
theorem Ledger.tornDown {w : World} (h : Ledger w) (hdown : w.TornDown) (o : Obj) :
    w.mem o = .live ↔ o = .access := by
  have hclient : w.mem (.data .client) ≠ .live := by simp [hdown.1]
  have hinfo : w.shared.info ≠ true := fun hptr => hclient (h.infoPtr hptr)
  have hends : ∀ s, w.mem (.data s) ≠ .live := fun s => by
    cases s with
    | client => exact hclient
    | server => exact hdown.2
  cases o with
  | access => exact iff_of_true h.access rfl
  | data s => exact iff_of_false (hends s) (by simp)
  | shared =>
    refine iff_of_false (fun hlive => ?_) (by simp)
    obtain ⟨s, hs⟩ := h.shared hlive
    exact hends s (h.ptr s hs)
  | info => exact iff_of_false (fun hlive => hinfo (h.info hlive)) (by simp)
  | buff s => exact iff_of_false (fun hlive => hclient (h.outBuff s (h.buff s hlive))) (by simp)
  | sa => exact iff_of_false (fun hlive => hinfo (h.sa hlive).1) (by simp)
  | ai => exact iff_of_false (fun hlive => hinfo (h.ai hlive).1) (by simp)

/-- **A connection never releases everything.** In every run that comes to the end of both
ends, every object of the connection has been freed but the access log, which nothing frees. -/
theorem teardown_leaks {cfg : Configs} {fd : Int} {ss : SockAddr} {bufs : Side → OutBuff}
    {mallocs epollAdd : Bool} {w₀ : World} {is : List Input}
    (hw₀ : acceptNewClient fd ss bufs mallocs epollAdd = some w₀)
    (hdown : (Lib.run (step cfg) is w₀).state.TornDown) :
    (∀ o, (Lib.run (step cfg) is w₀).state.mem o = .live ↔ o = .access) ∧
      ¬ (Lib.run (step cfg) is w₀).state.AllReleased := by
  have hsane := acceptNewClient_sane hw₀
  obtain ⟨-, rfl⟩ := acceptNewClient_eq hw₀
  have hrun : Ledger (Lib.run (step cfg) is (newClient fd ss bufs)).state :=
    run_invariant (C := fun _ _ => True) hsane (newClient_ledger fd ss bufs)
      (Lib.meets_of_forall (fun _ _ => trivial) is _) fun hs h _ hstep =>
        hstep.keeps (fun h he => h.effect he)
          (fun h hl => h.looped hl) hs h fun _ _ _ _ _ => trivial
  exact ⟨hrun.tornDown hdown, fun hall => hall.1 .access hrun.access⟩

/-- A client that connects and hangs up. -/
def hangUp : List Input :=
  [.finish 5, .poll [.peer 5 (some .client) epollIn], .handle { Answers.idle with recv := some 1 }]

theorem teardown_leaks_hangUp :
    (Lib.run (step openConfigs) hangUp
      (newClient 5 (.inet ![4, 0] ![127, 0, 0, 1]) fun _ => .zero)).state.TornDown ∧
    ¬ (Lib.run (step openConfigs) hangUp
      (newClient 5 (.inet ![4, 0] ![127, 0, 0, 1]) fun _ => .zero)).state.AllReleased := by
  have hdown : (Lib.run (step openConfigs) hangUp
      (newClient 5 (.inet ![4, 0] ![127, 0, 0, 1]) fun _ => .zero)).state.TornDown := by
    decide +kernel
  have haccept : acceptNewClient 5 (.inet ![4, 0] ![127, 0, 0, 1]) (fun _ => .zero) true true =
      some (newClient 5 (.inet ![4, 0] ![127, 0, 0, 1]) fun _ => .zero) := rfl
  exact ⟨hdown, (teardown_leaks haccept hdown).2⟩

/-- Nothing but the access log of this client is left, and that is never freed. -/
theorem teardown_not_released :
    ¬ ∀ (cfg : Configs) (fd : Int) (ss : SockAddr) (bufs : Side → OutBuff)
      (mallocs epollAdd : Bool) (w₀ : World) (is : List Input),
      acceptNewClient fd ss bufs mallocs epollAdd = some w₀ →
        (Lib.run (step cfg) is w₀).state.TornDown →
          (Lib.run (step cfg) is w₀).state.AllReleased := by
  intro h
  have hlive : (Lib.run (step openConfigs) hangUp
      (newClient 5 (.inet ![4, 0] ![127, 0, 0, 1]) fun _ => .zero)).state.TornDown ∧
    (Lib.run (step openConfigs) hangUp
      (newClient 5 (.inet ![4, 0] ![127, 0, 0, 1]) fun _ => .zero)).state.mem .access = .live := by
    decide +kernel
  exact (h openConfigs 5 (.inet ![4, 0] ![127, 0, 0, 1]) (fun _ => .zero) true true _ hangUp rfl
    hlive.1).1 .access hlive.2

end Socksprox
