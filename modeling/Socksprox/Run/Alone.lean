import Socksprox.BatchFree
import Socksprox.Proxy
import Socksprox.Run.Gate

/-!
A connection of the server is a connection by itself.

The server takes the batch of `epoll_wait` apart: each connection has its own events, and the
answer of the resolver is read whenever its event comes up among those of other connections.
Seen from one connection the answer then comes in between two of its own events, at a place
that nobody knew when the batch was polled. The run of the connection alone is found from
its end: the event of the response pipe is put into each batch where the answer will be read.
-/

namespace Socksprox

open Lib (run)

/-! ### What happens to one connection -/

/-- An input of one connection of the server. -/
inductive Local where
  | own (i : Input)
  | notified (gaiRet : Int) (ans : Answers)

/-- The input can come now: the events of the response pipe are not the connection's own, and an
answer is read once it was written. -/
def Local.due (w : World) : Local → Prop
  | .own (.poll batch) => .resolver ∉ batch
  | .own _ => True
  | .notified gaiRet _ => w.dns = .answered gaiRet

def localStep (cfg : Configs) : Local → Proc Unit
  | .own i => step cfg i
  | .notified gaiRet ans => fun w => step cfg (.handle ans) (w.notified gaiRet)

/-- The batch with events of the response pipe put in. -/
def Padded (P batch : List Event) : Prop := P.filter (· ≠ .resolver) = batch

section Padding

variable {cfg : Configs} {P P₁ batch rest : List Event} {event : Event} {w : World}

theorem Padded.refl (h : .resolver ∉ batch) : Padded batch batch :=
  List.filter_eq_self.mpr fun _ hmem => decide_eq_true (ne_of_mem_of_not_mem hmem h)

theorem Padded.cons (hne : event ≠ .resolver) (h : Padded P rest) :
    Padded (event :: P) (event :: rest) := by
  rw [Padded, List.filter_cons_of_pos (by simpa using hne), h]

theorem Padded.resolver (h : Padded P rest) : Padded (.resolver :: P) rest := by
  rw [Padded, List.filter_cons_of_neg (by simp), h]

/-- The response pipe has no descriptor of the connection. -/
theorem Padded.fds (h : Padded P batch) : P.filterMap Event.fd? = batch.filterMap Event.fd? := by
  subst h
  induction P with
  | nil => rfl
  | cons event P ih =>
    cases event with
    | peer fd ptr ev =>
      rw [List.filter_cons_of_pos (by simp)]
      exact congrArg (fd :: ·) ih
    | resolver => rw [List.filter_cons_of_neg (by simp), List.filterMap_cons_none rfl, ih]

/-- `epoll_wait` may report the response pipe with any batch. -/
theorem Padded.legal (h : Padded P batch) (hlegal : w.LegalBatch batch) : w.LegalBatch P := by
  refine ⟨fun event hmem => ?_, h.fds ▸ hlegal.2⟩
  cases event with
  | peer fd ptr ev => exact hlegal.1 _ (h ▸ List.mem_filter.mpr ⟨hmem, by simp⟩)
  | resolver => trivial

theorem step_handle_nil {ans : Answers} (h : w.pending = []) :
    step cfg (.handle ans) w = .ok () w := by
  obtain ⟨shared, selfFd, info, access, mem, fds, ans', dns, pending, trace⟩ := w
  obtain rfl : pending = [] := h
  rfl

theorem step_handle_cons {ans : Answers} (h : w.pending = event :: rest) :
    step cfg (.handle ans) w = dispatch cfg event (w.taken rest ans) := by
  obtain ⟨shared, selfFd, info, access, mem, fds, ans', dns, pending, trace⟩ := w
  obtain rfl : pending = event :: rest := h
  rfl

/-- One input of the connection, as inputs of the connection alone: whatever is put into what
is left of the batch was put into the batch before. -/
theorem localStep_alone {l : Local} (hl : l.due w) (hw : .resolver ∉ w.pending) :
    .resolver ∉ (localStep cfg l w).state.pending ∧
      ∀ P₁, Padded P₁ (localStep cfg l w).state.pending → ∃ P js, Padded P w.pending ∧
        run (step cfg) js (w.polled P) =
          (localStep cfg l w).mapState fun w' => w'.polled P₁ := by
  have hsame : ∀ i : Input, (∀ Q, BatchFree Q (step cfg i)) →
      .resolver ∉ (step cfg i w).state.pending ∧
        ∀ P₁, Padded P₁ (step cfg i w).state.pending → ∃ P js, Padded P w.pending ∧
          run (step cfg) js (w.polled P) = (step cfg i w).mapState fun w' => w'.polled P₁ := by
    intro i hfree
    have hpending := BatchFree.pending hfree w
    refine ⟨hpending ▸ hw, fun P₁ hP₁ => ⟨P₁, [i], hpending ▸ hP₁, ?_⟩⟩
    rw [Lib.run_singleton]
    exact (hfree P₁).comm w
  have hhandled : ∀ event rest ans, .resolver ∉ rest →
      .resolver ∉ (dispatch cfg event (w.taken rest ans)).state.pending ∧
        ∀ P₁, Padded P₁ (dispatch cfg event (w.taken rest ans)).state.pending →
          Padded P₁ rest ∧ step cfg (.handle ans) (w.polled (event :: P₁)) =
            (dispatch cfg event (w.taken rest ans)).mapState fun w' => w'.polled P₁ := by
    intro event rest ans hrest
    have hpending : (dispatch cfg event (w.taken rest ans)).state.pending = rest :=
      BatchFree.pending (fun Q => BatchFree.dispatch cfg event) _
    rw [hpending]
    refine ⟨hrest, fun P₁ hP₁ => ⟨hP₁, ?_⟩⟩
    exact (BatchFree.dispatch cfg event).comm (w.taken rest ans)
  cases l with
  | notified gaiRet ans =>
    have hnotified : w.notified gaiRet = w.polled (.resolver :: w.pending) := by
      rw [World.notified, ← show w.dns = .answered gaiRet from hl]
      rfl
    obtain ⟨hfirst, hrest⟩ := hhandled .resolver w.pending ans hw
    have hstep : localStep cfg (.notified gaiRet ans) w =
        dispatch cfg .resolver (w.taken w.pending ans) := by
      show step cfg (.handle ans) (w.notified gaiRet) = _
      rw [hnotified]
      rfl
    rw [hstep]
    refine ⟨hfirst, fun P₁ hP₁ => ?_⟩
    obtain ⟨hpadded, heq⟩ := hrest P₁ hP₁
    exact ⟨.resolver :: P₁, [.handle ans], hpadded.resolver, by rw [Lib.run_singleton, heq]⟩
  | own i =>
    cases i with
    | arrive fd bytes =>
      refine hsame (.arrive fd bytes) fun Q =>
        .modify (g := fun w : World => w.arrived fd bytes) fun w => ?_
      unfold World.arrived
      cases hfd : w.fds fd with
      | none => simp [hfd]
      | some sk =>
        cases hfin : sk.fin
        · simp [hfd, hfin]
          rfl
        · simp [hfd, hfin]
    | finish fd =>
      exact hsame (.finish fd) fun Q =>
        .modify (g := fun w : World => w.finished fd) fun _ => rfl
    | resolved gaiRet res =>
      exact hsame (.resolved gaiRet res) fun Q => BatchFree.resolverTh gaiRet res
    | poll batch =>
      have hstep : localStep cfg (.own (.poll batch)) w =
          .ok () (if w.pending = [] ∧ w.LegalBatch batch then w.polled batch else w) := rfl
      rw [hstep]
      by_cases hpoll : w.pending = [] ∧ w.LegalBatch batch
      · rw [if_pos hpoll]
        refine ⟨hl, fun P₁ hP₁ => ⟨[], [.poll P₁], by rw [hpoll.1]; rfl, ?_⟩⟩
        have hlegal : (w.polled []).LegalBatch P₁ := Padded.legal hP₁ hpoll.2
        show Lib.run (step cfg) [.poll P₁] (w.polled []) = _
        rw [Lib.run_singleton]
        show Lib.Outcome.ok () (if _ then _ else _) = _
        rw [if_pos ⟨rfl, hlegal⟩]
        rfl
      · rw [if_neg hpoll]
        exact ⟨hw, fun P₁ hP₁ => ⟨P₁, [], hP₁, rfl⟩⟩
    | handle ans =>
      cases hpending : w.pending with
      | nil =>
        have hstep : localStep cfg (.own (.handle ans)) w = .ok () w := step_handle_nil hpending
        rw [hstep]
        exact ⟨hw, fun P₁ hP₁ => ⟨P₁, [], hpending ▸ hP₁, rfl⟩⟩
      | cons event rest =>
        rw [hpending, List.mem_cons, not_or] at hw
        have hstep : localStep cfg (.own (.handle ans)) w =
            dispatch cfg event (w.taken rest ans) := step_handle_cons hpending
        obtain ⟨hfirst, hrest⟩ := hhandled event rest ans hw.2
        rw [hstep]
        refine ⟨hfirst, fun P₁ hP₁ => ?_⟩
        obtain ⟨hpadded, heq⟩ := hrest P₁ hP₁
        exact ⟨event :: P₁, [.handle ans], hpadded.cons (Ne.symm hw.1),
          by rw [Lib.run_singleton, heq]⟩

/-- A run of such inputs, as a run of the connection alone, from a batch with the right events
put in. -/
theorem locals_alone : ∀ {ls : List Local} {w : World}, .resolver ∉ w.pending →
    Lib.Meets (localStep cfg) Local.due ls w → ∃ P js, Padded P w.pending ∧
      run (step cfg) js (w.polled P) = run (localStep cfg) ls w
  | [], w, hw, _ => ⟨w.pending, [], .refl hw, rfl⟩
  | l :: ls, w, hw, hm => by
    obtain ⟨hpending, hfirst⟩ := localStep_alone hm.1 hw
    have hrest := hm.2
    rw [show run (localStep cfg) (l :: ls) w =
      Lib.Exec.andThen (localStep cfg l) (fun _ => run (localStep cfg) ls) w from rfl]
    unfold Lib.Exec.andThen
    cases hl : localStep cfg l w with
    | ok a w' =>
      rw [hl] at hpending hfirst hrest
      obtain ⟨P₁, js, hP₁, hjs⟩ := locals_alone hpending hrest
      obtain ⟨P, is, hP, his⟩ := hfirst P₁ hP₁
      exact ⟨P, is ++ js, hP, by rw [Lib.run_append, his]; exact hjs⟩
    | fault f w' =>
      rw [hl] at hpending hfirst
      obtain ⟨P, is, hP, his⟩ := hfirst w'.pending (.refl hpending)
      exact ⟨P, is, hP, his⟩

end Padding

/-! ### The connections of the server -/

/-- What a connection comes to that was accepted and then had these inputs. -/
def Lived (cfg : Configs) (o : Lib.Outcome Fault World Unit) : Prop :=
  ∃ fd ss bufs mallocs epollAdd w₀ ls, acceptNewClient fd ss bufs mallocs epollAdd = some w₀ ∧
    Lib.Meets (localStep cfg) Local.due ls w₀ ∧ run (localStep cfg) ls w₀ = o

section Server

variable {cfg : Configs} {pipes : Pipes} {p : Proxy} {w : World}
  {o : Lib.Outcome Fault World Unit}

/-- One more input. -/
theorem Lived.snoc {l : Local} (h : Lived cfg (.ok () w)) (hl : l.due w) :
    Lived cfg (localStep cfg l w) := by
  obtain ⟨fd, ss, bufs, mallocs, epollAdd, w₀, ls, hw₀, hm, hrun⟩ := h
  refine ⟨fd, ss, bufs, mallocs, epollAdd, w₀, ls ++ [l], hw₀, hm.snoc fun w' hw' => ?_, ?_⟩
  · obtain rfl : w = w' := by simpa [hrun] using hw'
    exact hl
  · rw [Lib.run_concat, hrun]

/-- A connection of the server, as a run of a connection alone. -/
theorem Lived.alone (h : Lived cfg o) :
    ∃ fd ss bufs mallocs epollAdd w₀ js, acceptNewClient fd ss bufs mallocs epollAdd = some w₀ ∧
      run (step cfg) js w₀ = o := by
  obtain ⟨fd, ss, bufs, mallocs, epollAdd, w₀, ls, hw₀, hm, hrun⟩ := h
  have hpending : w₀.pending = [] := by
    obtain ⟨-, rfl⟩ := acceptNewClient_eq hw₀
    rfl
  obtain ⟨P, js, hP, hjs⟩ := locals_alone (by simp [hpending]) hm
  have hempty : w₀.LegalBatch [] := ⟨fun _ hmem => absurd hmem List.not_mem_nil, List.nodup_nil⟩
  have hlegal : w₀.LegalBatch P := Padded.legal (hpending ▸ hP) hempty
  have hpoll : step cfg (.poll P) w₀ = .ok () (w₀.polled P) := by
    show Lib.Outcome.ok () (if _ then _ else _) = _
    rw [if_pos ⟨hpending, hlegal⟩]
  refine ⟨fd, ss, bufs, mallocs, epollAdd, w₀, .poll P :: js, hw₀, ?_⟩
  rw [show run (step cfg) (.poll P :: js) w₀ =
    Lib.Exec.andThen (step cfg (.poll P)) (fun _ => run (step cfg) js) w₀ from rfl]
  unfold Lib.Exec.andThen
  rw [hpoll]
  exact hjs.trans hrun

/-- Connection `k` moves on, and the others are as they were. -/
theorem moved_lived {k : Nat} {v w : World} {l : Local} {i : Input}
    (h : ∀ u ∈ p.conns, Lived cfg (.ok () u)) (hlast : Lived cfg (localStep cfg l w))
    (hstep : localStep cfg l w = step cfg i v) {Q : Proxy} (hconns : Q.conns = p.conns) :
    (Q.onConn k v (step cfg i)).Sat (fun _ p' => ∀ u ∈ p'.conns, Lived cfg (.ok () u))
      (fun _ p' => ∀ u ∈ p'.conns, ∃ o, Lived cfg o ∧ o.state = u) := by
  rw [hstep] at hlast
  have hold : ∀ {w' u : World}, u ∈ (Q.moved k v w').conns → u ∈ p.conns ∨ u = w' := by
    intro w' u hu
    rw [← hconns]
    exact List.mem_or_eq_of_mem_set hu
  unfold Proxy.onConn
  cases hv : step cfg i v with
  | ok a w' =>
    rw [hv] at hlast
    intro u hu
    rcases hold hu with hu | rfl
    · exact h u hu
    · exact hlast
  | fault f w' =>
    rw [hv] at hlast
    intro u hu
    rcases hold hu with hu | rfl
    · exact ⟨.ok () u, h u hu, rfl⟩
    · exact ⟨.fault f u, hlast, rfl⟩

/-- What the resolver's thread stores in a connection that waits for it. -/
theorem resolverTh_requested {gaiRet : Int} {res : List AddrInfo} (hs : Sane w)
    (hdns : w.dns = .requested) :
    resolverTh gaiRet res w = .ok () (w.answered gaiRet (if gaiRet = 0 then res else [])) := by
  have hw := (hs.dns (by simp [hdns])).1
  have hwp : Lib.wp (resolverTh gaiRet res)
      (fun _ w' => w' = w.answered gaiRet (if gaiRet = 0 then res else []))
      (fun _ _ => False) w := by
    rw [resolverTh, Lib.wp_bind, Lib.wp_get, if_pos hdns, Lib.wp_bind,
      wp_sharedInfo _ hw.shared hw.infoPtr hw.info, Lib.wp_modify]
  obtain ⟨⟨⟩, w', hw', rfl⟩ := hwp.returns
  exact hw'

/-- One input of the server. -/
theorem wp_proxyStep_lived {i : ProxyInput} (hp : Orderly p)
    (h : ∀ w ∈ p.conns, Lived cfg (.ok () w)) :
    Lib.wp (proxyStep cfg pipes i) (fun _ p' => ∀ w ∈ p'.conns, Lived cfg (.ok () w))
      (fun _ p' => ∀ w ∈ p'.conns, ∃ o, Lived cfg o ∧ o.state = w) p := by
  unfold Lib.wp proxyStep
  cases i with
  | accept fd ss bufs mallocs epollAdd =>
    dsimp only
    split
    · rename_i w hw
      intro u hu
      rcases List.mem_append.mp hu with hu | hu
      · exact h u hu
      · obtain rfl := List.mem_singleton.mp hu
        exact ⟨fd, ss, bufs, mallocs, epollAdd, u, [], hw, trivial, rfl⟩
    · exact h
  | conn k i =>
    dsimp only
    split
    · rename_i w hk
      split
      · rename_i hown
        have hdue : (Local.own (i.withRoom (p.room pipes))).due w := by
          cases i with
          | poll batch =>
            have hnot : .resolver ∉ batch := by simpa [Input.own] using hown
            exact hnot
          | _ => trivial
        exact moved_lived h ((h w (List.mem_of_getElem? hk)).snoc hdue) rfl rfl
      · exact h
    · exact h
  | lookup =>
    dsimp only
    split
    · exact h
    · exact h
  | looked gaiRet res =>
    dsimp only
    split
    · rename_i q hresolving
      obtain ⟨w, hk, hdns⟩ := hp.asked q (by simp [Proxy.questions, hresolving])
      have hlast := (h w (List.mem_of_getElem? hk)).snoc (l := .own (.resolved gaiRet res)) trivial
      rw [show localStep cfg (.own (.resolved gaiRet res)) w = resolverTh gaiRet res w from rfl,
        resolverTh_requested (hp.getElem hk).1 hdns] at hlast
      simp only [hk]
      split
      · intro u hu
        rcases List.mem_or_eq_of_mem_set hu with hu | rfl
        · exact h u hu
        · exact hlast
      · exact fun u hu => ⟨.ok () u, h u hu, rfl⟩
    · exact h
  | answer ans =>
    dsimp only
    split
    · rename_i a rest hresponses
      obtain ⟨w, hk, hdns⟩ := hp.answered a (by simp [hresponses])
      have hlast := (h w (List.mem_of_getElem? hk)).snoc
        (l := .notified a.gaiRet { ans with pipeWrite := p.room pipes }) hdns
      rw [hk]
      exact moved_lived h hlast rfl rfl
    · exact h

/-- Every connection of the server has lived. -/
theorem conns_lived {l : List (SockAddr × ListenAnswers)} {p₀ : Proxy}
    (hp₀ : startProxy l = some p₀) (is : List ProxyInput) :
    ∀ w ∈ (run (proxyStep cfg pipes) is p₀).state.conns, ∃ o, Lived cfg o ∧ o.state = w := by
  have hnone : p₀.conns = [] := by
    obtain ⟨-, heq⟩ := startProxy_eq hp₀
    rw [heq]
  have hrun : Lib.wp (run (proxyStep cfg pipes) is)
      (fun _ p => Orderly p ∧ ∀ w ∈ p.conns, Lived cfg (.ok () w))
      (fun _ p => ∀ w ∈ p.conns, ∃ o, Lived cfg o ∧ o.state = w) p₀ := by
    refine Lib.run_wp_of_meets (C := fun _ _ => True) (fun p i hp _ => ?_)
      ⟨startProxy_orderly hp₀, by simp [hnone]⟩ (Lib.meets_of_forall (fun _ _ => trivial) is _)
    have horderly : Lib.wp (proxyStep cfg pipes i) (fun _ p' => Orderly p') (fun _ _ => True) p :=
      wp_proxyStep hp.1 (fun p' hstep => hstep.orderly hp.1) fun _ _ _ => trivial
    exact (horderly.and (wp_proxyStep_lived hp.1 hp.2)).mono (fun _ _ h => h) fun _ _ h => h.2
  exact Lib.wp.state (P := fun p => ∀ w ∈ p.conns, ∃ o, Lived cfg o ∧ o.state = w) <|
    hrun.mono (fun _ p h w hw => ⟨.ok () w, h.2 w hw, rfl⟩) fun _ _ h => h

end Server

end Socksprox
