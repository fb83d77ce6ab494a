import Socksprox.Proxy
import Socksprox.Run.Gate

/-!
Requests for the resolver. A connection asks and waits; the thread looks its request up, and
the answer resumes it. The results of the writes to both pipes are ignored, so that a message
that does not fit is lost, and the connection waits for ever.
-/

namespace Socksprox

/-! ### When a connection asks -/

/-- A request for a domain name is there in full when the handler looks at it. -/
def World.Asks (cfg : Configs) (w : World) : Prop :=
  w.shared.state = .waitingCommand ∧ w.info.resolverRet = -1 ∧
    RequestComplete cfg (w.gathered.take 300) ∧ reqAt (w.gathered.take 300) 3 = atypDomn

section Asking

variable {cfg : Configs} {w w' : World} {e : Side} {ev : Events} {f : Option Fault}

theorem WaitingCommand.asked (hw : Open w) (hs : w.shared.state = .waitingCommand)
    (h : WaitingCommand cfg w e ev f w') (hasync : w'.shared.state = .asyncDns) :
    w.Asks cfg ∧ (w.ans.pipeWrite = true → w'.dns = .requested) := by
  have hbusy : ∀ {v : World}, v.shared.state = .connecting ∨ v.shared.state = .sendingReply ∨
      v.shared.state = .closed → v.shared.state ≠ .asyncDns := by
    intro v hv heq
    rw [heq] at hv
    rcases hv with hv | hv | hv <;> cases hv
  cases h with
  | idle hunwanted => exact nomatch hs.symm.trans hasync
  | resolver hret h => exact absurd hasync (hbusy (h.state hw))
  | ended hret hrecv hr => cases hasync
  | @data bytes got w₁ _ _ hret hrecv hgot h =>
    obtain rfl : got = w.gathered := hgot.trans hrecv.gathered
    have hs₁ : (w₁.queue .server bytes).shared.state = .waitingCommand := by
      simpa [hrecv.shared] using hs
    have hw₁ : Open (w₁.queue .server bytes) := by simpa using hrecv.open hw
    cases h with
    | short hlen => exact nomatch hs₁.symm.trans hasync
    | badAtyp hlen htotal h => exact absurd hasync (hbusy (.inr h.state))
    | part hlen htotal hpart => exact nomatch hs₁.symm.trans hasync
    | badVersion hlen htotal hcomplete hversion => cases hasync
    | run hlen htotal hcomplete hversion h =>
      have hcomplete' : RequestComplete cfg (w.gathered.take 300) :=
        ⟨hlen, by simpa [htotal] using hcomplete, hversion⟩
      cases h with
      | domain hatyp =>
        refine ⟨⟨hs, hret, hcomplete', hatyp⟩, fun hroom => ?_⟩
        have hans : w₁.ans = w.ans := by
          obtain ⟨fds, trace, rfl⟩ := hrecv.frame
          rfl
        simp [hans, hroom]
      | noMemory hatyp hmalloc => exact nomatch hs₁.symm.trans hasync
      | dropped hatyp hfirewall h => exact absurd hasync (hbusy (.inr h.state))
      | passed hatyp hfirewall h =>
        have hw₂ : Open ((w₁.queue .server bytes).commandStored (w.gathered.take 300)) :=
          hw₁.setInfo rfl rfl
        refine absurd hasync (hbusy (h.state ?_))
        simpa using hw₂.addrStored (w.gathered.take 300)

theorem Handled.asked (hw : Open w) (h : Handled cfg w e ev f w')
    (hasync : w'.shared.state = .asyncDns) :
    w' = w ∨ w.Asks cfg ∧ (w.ans.pipeWrite = true → w'.dns = .requested) := by
  have hlate : w'.shared.state.early ≠ false := by simp [hasync]
  have hdoes : ∀ {K : Act → Bool}, Does K w w' → w.shared.state.early = false →
      (∀ st, st.early = true → K (.state st) = false) → False := fun h hs hK =>
    hlate (h.late hs hK)
  cases h with
  | still hstate => exact .inl rfl
  | waitingMethods hstate h => rcases h.state hstate with hs | hs | hs <;> simp [hs] at hasync
  | sendingMethod hstate h => rcases h.state hstate with hs | hs | hs <;> simp [hs] at hasync
  | waitingCommand hstate h => exact .inr (h.asked hw hstate hasync)
  | sendingReply hstate h =>
    exact absurd (h.late (by rcases hstate with hs | hs <;> simp [hs])) hlate
  | connecting hstate h =>
    exact (hdoes h.does (by simp [hstate]) fun st hst =>
      by cases st <;> first | rfl | cases hst).elim
  | bindListening hstate h =>
    exact (hdoes h.does (by simp [hstate]) fun st hst =>
      by cases st <;> first | rfl | cases hst).elim
  | full hstate h =>
    exact (hdoes h.does (by simp [hstate]) fun st hst =>
      by cases st <;> first | rfl | cases hst).elim
  | halfClose hstate => cases hasync
  | closed hstate => exact nomatch hstate.symm.trans hasync

/-- A connection that waits for the resolver has waited before, or asks in this step. -/
theorem Stepped.asked {i : Input} (h : Stepped cfg w i f w')
    (hasync : w'.shared.state = .asyncDns) :
    (w.shared.state = .asyncDns ∧
      ∀ ans, i = .handle ans → ∀ v ∈ w.next ans, v.shared.state = .asyncDns) ∨
    ∃ ans, i = .handle ans ∧ ∃ v ∈ w.next ans,
      v.Asks cfg ∧ (ans.pipeWrite = true → w'.dns = .requested) := by
  have hpeer : ∀ {fd : Int} {e : Option Side} {ev : Events} {rest : List Event} {ans : Answers},
      w.pending = .peer fd e ev :: rest → w.shared.state = .asyncDns →
      ∀ ans', Input.handle ans = .handle ans' → ∀ v ∈ w.next ans', v.shared.state = .asyncDns := by
    intro fd e ev rest ans hp hs ans' _ v hv
    obtain rfl : w.taken rest ans' = v := by simpa [World.next, hp] using hv
    exact hs
  cases h with
  | @arrive fd bytes =>
    obtain ⟨fds, heq, -⟩ := w.arrived_interest fd bytes
    rw [heq] at hasync
    exact .inl ⟨hasync, fun ans hi => by cases hi⟩
  | finish => exact .inl ⟨hasync, fun ans hi => by cases hi⟩
  | unasked hdns => exact .inl ⟨hasync, fun ans hi => by cases hi⟩
  | resolved hdns => exact .inl ⟨hasync, fun ans hi => by cases hi⟩
  | unpolled => exact .inl ⟨hasync, fun ans hi => by cases hi⟩
  | polled hp hlegal => exact .inl ⟨hasync, fun ans hi => by cases hi⟩
  | waiting hp => exact .inl ⟨hasync, fun ans hi v hv => by simp [World.next, hp] at hv⟩
  | @handled ans ev rest _ _ hp h =>
    cases h with
    | ignored => exact .inl ⟨hasync, hpeer hp hasync⟩
    | stale hgone => exact .inl ⟨hasync, hpeer hp hasync⟩
    | masked hd hev => exact .inl ⟨hasync, hpeer hp hasync⟩
    | handled hw hd h =>
      rcases h.asked hw hasync with rfl | hasks
      · exact .inl ⟨hasync, hpeer hp hasync⟩
      · exact .inr ⟨ans, rfl, _, w.next_taken hp ans, hasks⟩
    | shut hw hd => exact .inl ⟨hasync, hpeer hp hasync⟩
    | quiet hquiet =>
      refine .inl ⟨hasync, fun ans' hi v hv => ?_⟩
      rcases w.mem_next hv with rfl | ⟨gaiRet, hans, -⟩
      · exact hasync
      · exact absurd hans (hquiet gaiRet)
    | resolver hw hans h =>
      exact .inr ⟨ans, rfl, _, w.next_resumed hp hans ans, h.asked (hw.resumed _) rfl hasync⟩

end Asking

/-! ### Nobody waits in vain -/

/-- The pipes have room for what is written to them: for a request when the handler finds one
for a domain name complete, and for an answer when the thread has one. -/
def HasRoom (cfg : Configs) (pipes : Pipes) (p : Proxy) : ProxyInput → Prop
  | .looked _ _ => p.resolving = none ∨ p.responses.length < pipes.responses
  | i => ∀ w ∈ p.handled pipes i, w.Asks cfg → p.room pipes = true

/-- Every connection that waits for the resolver has a message in flight. -/
def Awaited (p : Proxy) : Prop :=
  ∀ k w, p.conns[k]? = some w → w.shared.state = .asyncDns → k ∈ p.inFlight

section Waiting

variable {cfg : Configs} {pipes : Pipes} {p p' : Proxy} {w w' : World}

theorem mem_moved {k j : Nat} {v : World} (h : j ∈ p.inFlight) :
    j ∈ (p.moved k v w').inFlight := by
  simp only [Proxy.inFlight, Proxy.questions, Proxy.moved, List.mem_append, List.map_append] at h ⊢
  tauto

/-- Connection `k` moves on, and asks if it waits. -/
theorem Awaited.moved {k : Nat} {v : World} (hk : p.conns[k]? = some w)
    (hother : ∀ j u, j ≠ k → p.conns[j]? = some u → u.shared.state = .asyncDns → j ∈ p.inFlight)
    (hself : w'.shared.state = .asyncDns →
      k ∈ p.inFlight ∨ v.dns ≠ .requested ∧ w'.dns = .requested) : Awaited (p.moved k v w') := by
  intro j u hu hasync
  have hconns : (p.moved k v w').conns[j]? = if j = k then some w' else p.conns[j]? := set_conns hk
  rw [hconns] at hu
  split at hu
  · rename_i hjk
    cases hu
    rcases hself hasync with hmem | hnew
    · exact mem_moved (hjk ▸ hmem)
    · refine mem_inFlight_question (q := ⟨j, w'.lastAsked⟩) ?_
      simp [Proxy.questions, Proxy.moved, newQuestion, hnew, hjk]
  · rename_i hjk
    exact mem_moved (hother j u hjk hu hasync)

theorem Awaited.stepped {i : ProxyInput} (h : Awaited p) (hp : Orderly p)
    (hroom : HasRoom cfg pipes p i) (hstep : ProxyStepped cfg pipes p i none p') : Awaited p' := by
  cases hstep with
  | idle => exact h
  | @accepted _ _ _ _ _ w hw =>
    intro j u hu hasync
    rw [List.getElem?_append] at hu
    split at hu
    · exact h j u hu hasync
    · obtain rfl := List.mem_singleton.mp (List.mem_of_getElem? hu)
      obtain ⟨-, rfl⟩ := acceptNewClient_eq hw
      cases hasync
  | @moved k i _ w w' hk hown hstep =>
    refine Awaited.moved hk (fun j u _ hu hasync => h j u hu hasync) fun hasync => ?_
    rcases hstep.asked hasync with ⟨hs, -⟩ | ⟨ans, hi, v, hv, hasks, hdns⟩
    · exact .inl (h k w hk hs)
    · obtain ⟨hs, hpending⟩ := hp.getElem hk
      cases i with
      | handle ans' =>
        cases hi
        have hstate : w.shared.state = .waitingCommand := by
          rcases w.mem_next hv with rfl | ⟨gaiRet, -, hmem, -⟩
          · exact hasks.1
          · exact absurd hmem hpending
        refine .inr ⟨fun hdns => ?_, hdns (hroom v ?_ hasks)⟩
        · exact nomatch hstate.symm.trans (hs.dns (by simp [hdns])).2
        · simpa [Proxy.handled, hk] using hv
      | _ => cases hi
  | @lookup q rest hresolving hrequests =>
    have hquestions : p.questions = q :: rest := by simp [Proxy.questions, hresolving, hrequests]
    intro j u hu hasync
    have hmem := h j u hu hasync
    rw [Proxy.inFlight, hquestions] at hmem
    exact hmem
  | @looked q w gaiRet res hresolving hk =>
    have hfits : p.responses.length < pipes.responses :=
      hroom.resolve_left fun hnone => by simp [hnone] at hresolving
    have hmoves : ∀ {j}, j ∈ p.inFlight →
        j ∈ (p.lookedUp pipes q w gaiRet (if gaiRet = 0 then res else [])).inFlight := by
      intro j hj
      simp only [Proxy.inFlight, Proxy.questions, Proxy.lookedUp, hresolving, hfits, if_true,
        List.mem_append, List.map_append, Option.toList_some, Option.toList_none, List.map_cons,
        List.map_nil, List.mem_singleton, List.not_mem_nil, false_or] at hj ⊢
      tauto
    intro j u hu hasync
    have hconns : (p.lookedUp pipes q w gaiRet (if gaiRet = 0 then res else [])).conns[j]? =
        if j = q.conn then some _ else p.conns[j]? := set_conns hk
    rw [hconns] at hu
    split at hu
    · rename_i hjq
      cases hu
      exact hmoves (h j w (hjq ▸ hk) hasync)
    · exact hmoves (h j u hu hasync)
  | @answered ans a rest _ w w' hresponses hk hstep =>
    obtain ⟨hs, hpending⟩ := hp.getElem hk
    have hresumed : ((w.taken w.pending { ans with pipeWrite := p.room pipes }).resumed a.gaiRet) ∈
        (w.notified a.gaiRet).next { ans with pipeWrite := p.room pipes } := rfl
    refine Awaited.moved (p := p.answerRead a rest w) hk (fun j u hne hu hasync => ?_)
      fun hasync => .inr ?_
    · have hmem := h j u hu hasync
      simp only [Proxy.inFlight, Proxy.questions, Proxy.answerRead, hresponses, List.map_cons,
        List.mem_append, List.mem_cons] at hmem ⊢
      tauto
    · rcases hstep.asked hasync with ⟨-, hstate⟩ | ⟨ans', hi, v, hv, hasks, hdns⟩
      · cases hstate _ rfl _ hresumed
      · cases hi
        refine ⟨?_, hdns (hroom v ?_ hasks)⟩
        · intro heq
          cases heq
        · simpa [Proxy.handled, hresponses, hk] using hv

end Waiting

/-! ### Each answer goes to the connection that asked -/

def Note.conn : Note → Nat
  | .asked k _ => k
  | .looked k _ _ _ => k
  | .resumed k _ _ => k

/-- The notes about connection `k`. -/
def Proxy.notesOf (p : Proxy) (k : Nat) : List Note := p.notes.filter fun n => n.conn == k

/-- How far a connection is with the resolver. -/
inductive Stage where
  | idle
  | asked (input : List UInt8)
  | looked (gaiRet : Int) (ai : List AddrInfo)

/-- Connection `k` asks, what it asked is looked up, and it is resumed with what was found, once
or several times. -/
inductive Exchange (k : Nat) : List Note → Stage → Prop where
  | start : Exchange k [] .idle
  | asked {notes : List Note} (input : List UInt8) (h : Exchange k notes .idle) :
      Exchange k (notes ++ [.asked k input]) (.asked input)
  | looked {notes : List Note} {input : List UInt8} (gaiRet : Int) (ai : List AddrInfo)
      (h : Exchange k notes (.asked input)) :
      Exchange k (notes ++ [.looked k input gaiRet ai]) (.looked gaiRet ai)
  | resumed {notes : List Note} {gaiRet : Int} {ai : List AddrInfo}
      (h : Exchange k notes (.looked gaiRet ai)) :
      Exchange k (notes ++ [.resumed k gaiRet ai]) .idle

/-- The notes about connection `k` say what it waits for. -/
def Proxy.Told (p : Proxy) (k : Nat) (w : World) : Prop :=
  match w.dns with
  | .idle => Exchange k (p.notesOf k) .idle
  | .requested => ∀ q ∈ p.questions, q.conn = k → Exchange k (p.notesOf k) (.asked q.input)
  | .answered gaiRet => Exchange k (p.notesOf k) (.looked gaiRet w.info.ai)

/-- They do so for every connection, and there are none about others. -/
structure Noted (p : Proxy) : Prop where
  told : ∀ k w, p.conns[k]? = some w → p.Told k w
  others : ∀ k, p.conns.length ≤ k → p.notesOf k = []

section Notes

variable {cfg : Configs} {pipes : Pipes} {p p' : Proxy} {w w' : World}

/-- Nothing was noted about the connection, and it has asked nothing new. -/
theorem Proxy.Told.congr {k : Nat} (h : p.Told k w) (hdns : w'.dns = w.dns)
    (hinfo : w.dns ≠ .idle → w'.info = w.info) (hnotes : p'.notesOf k = p.notesOf k)
    (hquestions : ∀ q ∈ p'.questions, q.conn = k → q ∈ p.questions) : p'.Told k w' := by
  unfold Proxy.Told at h ⊢
  rw [hdns, hnotes]
  cases hd : w.dns with
  | idle => simpa only [hd] using h
  | requested =>
    simp only [hd] at h ⊢
    exact fun q hq hk => h q (hquestions q hq hk) hk
  | answered gaiRet =>
    rw [hinfo (by simp [hd])]
    simpa only [hd] using h

theorem notesOf_moved {k j : Nat} {v : World} : (p.moved k v w').notesOf j =
    p.notesOf j ++ if j = k then (newQuestion k v w').toList.map fun q => .asked k q.input
      else [] := by
  unfold Proxy.notesOf Proxy.moved
  rw [List.filter_append]
  congr 1
  cases hnew : newQuestion k v w' with
  | none => simp
  | some q =>
    obtain ⟨rfl, -, -⟩ := newQuestion_eq hnew
    by_cases hj : j = k
    · simp [Note.conn, hj]
    · simp [Note.conn, hj, Ne.symm hj]

theorem notesOf_concat {j : Nat} {n : Note} (h : p'.notes = p.notes ++ [n]) :
    p'.notesOf j = p.notesOf j ++ if j = n.conn then [n] else [] := by
  unfold Proxy.notesOf
  rw [h, List.filter_append]
  congr 1
  by_cases hj : j = n.conn
  · simp [hj]
  · simp [hj, Ne.symm hj]

/-- Connection `k` moves on, and the others stay as they are. -/
theorem Noted.moved {k : Nat} {v : World} (hk : p.conns[k]? = some w)
    (hother : ∀ j u, j ≠ k → p.conns[j]? = some u → p.Told j u)
    (hnone : ∀ j, p.conns.length ≤ j → p.notesOf j = [])
    (hself : (p.moved k v w').Told k w') : Noted (p.moved k v w') := by
  have hlt := (List.getElem?_eq_some_iff.mp hk).1
  refine ⟨fun j u hu => ?_, fun j hj => ?_⟩
  · have hconns : (p.moved k v w').conns[j]? = if j = k then some w' else p.conns[j]? :=
      set_conns hk
    rw [hconns] at hu
    split at hu
    · rename_i hjk
      cases hu
      exact hjk ▸ hself
    · rename_i hjk
      refine (hother j u hjk hu).congr rfl (fun _ => rfl) (by simp [notesOf_moved, hjk]) ?_
      intro q hq hqj
      have hmem : q ∈ p.questions ∨ newQuestion k v w' = some q := by
        simpa [Proxy.questions, Proxy.moved, or_assoc] using hq
      rcases hmem with hmem | hnew
      · exact hmem
      · exact absurd (hqj.symm.trans (congrArg Question.conn (newQuestion_eq hnew).1)) hjk
  · have hlen : p.conns.length ≤ j := by simpa [Proxy.moved] using hj
    have hjk : j ≠ k := by omega
    simp [notesOf_moved, hjk, hnone j hlen]

/-- A connection that asks anew is told so. -/
theorem Proxy.told_asked {k : Nat} {v : World} (hidle : Exchange k (p.notesOf k) .idle)
    (hnot : k ∉ p.inFlight) (hv : v.dns ≠ .requested) (hdns : w'.dns = .requested) :
    (p.moved k v w').Told k w' := by
  have hnew : newQuestion k v w' = some ⟨k, w'.lastAsked⟩ := if_pos ⟨hv, hdns⟩
  unfold Proxy.Told
  rw [hdns]
  intro q hq hqk
  have hmem : q ∈ p.questions ∨ newQuestion k v w' = some q := by
    simpa [Proxy.questions, Proxy.moved, or_assoc] using hq
  rcases hmem with hmem | heq
  · exact absurd (hqk ▸ mem_inFlight_question hmem) hnot
  · obtain rfl := Option.some.inj (hnew.symm.trans heq)
    rw [notesOf_moved, if_pos rfl, hnew]
    exact hidle.asked _

theorem Noted.stepped {i : ProxyInput} (h : Noted p) (hp : Orderly p)
    (hstep : ProxyStepped cfg pipes p i none p') : Noted p' := by
  cases hstep with
  | idle => exact h
  | @accepted _ _ _ _ _ w hw =>
    refine ⟨fun j u hu => ?_, fun j hj => h.others j ?_⟩
    · rw [List.getElem?_append] at hu
      split at hu
      · exact h.told j u hu
      · rename_i hlen
        obtain rfl := List.mem_singleton.mp (List.mem_of_getElem? hu)
        obtain ⟨-, rfl⟩ := acceptNewClient_eq hw
        show Exchange j (p.notesOf j) .idle
        rw [h.others j (Nat.le_of_not_lt hlen)]
        exact .start
    · have hlen : p.conns.length + 1 ≤ j := by simpa using hj
      omega
  | @moved k i _ w w' hk hown hstep =>
    obtain ⟨hs, hpending⟩ := hp.getElem hk
    have hown' : (i.withRoom (p.room pipes)).own = true := by
      cases i <;> exact hown
    refine Noted.moved hk (fun j u _ hu => h.told j u hu) h.others ?_
    rcases (hstep.own hs hown' hpending).2 with ⟨hdns, hinfo⟩ | ⟨hidle, hdns⟩
    · have hnew : newQuestion k w w' = none := if_neg fun hnew => hnew.1 (hdns ▸ hnew.2)
      refine (h.told k w hk).congr hdns hinfo (by simp [notesOf_moved, hnew]) fun q hq _ => ?_
      simpa [Proxy.questions, Proxy.moved, hnew] using hq
    · have htold := h.told k w hk
      simp only [Proxy.Told, hidle] at htold
      exact Proxy.told_asked htold (fun hmem => hp.dns hk hmem hidle) (by simp [hidle]) hdns
  | @lookup q rest hresolving hrequests =>
    have hquestions : p.questions = q :: rest := by simp [Proxy.questions, hresolving, hrequests]
    refine ⟨fun j u hu => (h.told j u hu).congr rfl (fun _ => rfl) rfl fun r hr _ => ?_, h.others⟩
    exact hquestions ▸ hr
  | @looked q w gaiRet res hresolving hk =>
    generalize (if gaiRet = 0 then res else []) = ai
    have hlt := (List.getElem?_eq_some_iff.mp hk).1
    have hnotes : ∀ j, (p.lookedUp pipes q w gaiRet ai).notesOf j =
        p.notesOf j ++ if j = q.conn then [.looked q.conn q.input gaiRet ai] else [] := fun j =>
      notesOf_concat (n := .looked q.conn q.input gaiRet ai) rfl
    have hquestions : p.questions = q :: p.requests := by simp [Proxy.questions, hresolving]
    refine ⟨fun j u hu => ?_, fun j hj => ?_⟩
    · have hconns : (p.lookedUp pipes q w gaiRet ai).conns[j]? =
          if j = q.conn then some (w.answered gaiRet ai) else p.conns[j]? := set_conns hk
      rw [hconns] at hu
      split at hu
      · rename_i hjq
        obtain rfl := Option.some.inj hu
        obtain ⟨v, hv, hdns⟩ := hp.asked q (by simp [hquestions])
        obtain rfl : w = v := Option.some.inj (hk.symm.trans hv)
        have htold := h.told q.conn w hk
        simp only [Proxy.Told, hdns] at htold
        show Exchange j ((p.lookedUp pipes q w gaiRet ai).notesOf j) (.looked gaiRet ai)
        rw [hnotes, if_pos hjq, hjq]
        exact (htold q (by simp [hquestions]) rfl).looked gaiRet ai
      · rename_i hjq
        refine (h.told j u hu).congr rfl (fun _ => rfl) (by simp [hnotes, hjq]) fun r hr _ => ?_
        rw [hquestions]
        exact List.mem_cons_of_mem q hr
    · have hlen : p.conns.length ≤ j := by simpa [Proxy.lookedUp] using hj
      have hjq : j ≠ q.conn := by omega
      rw [hnotes, if_neg hjq, h.others j hlen, List.append_nil]
  | @answered ans a rest _ w w' hresponses hk hstep =>
    obtain ⟨hs, hpending⟩ := hp.getElem hk
    obtain ⟨v, hv, hdns⟩ := hp.answered a (by simp [hresponses])
    obtain rfl : w = v := Option.some.inj (hk.symm.trans hv)
    have hlt := (List.getElem?_eq_some_iff.mp hk).1
    have hnotes : ∀ j, (p.answerRead a rest w).notesOf j =
        p.notesOf j ++ if j = a.conn then [.resumed a.conn a.gaiRet w.info.ai] else [] := fun j =>
      notesOf_concat (n := .resumed a.conn a.gaiRet w.info.ai) rfl
    have htold := h.told a.conn w hk
    simp only [Proxy.Told, hdns] at htold
    have hidle : Exchange a.conn ((p.answerRead a rest w).notesOf a.conn) .idle := by
      rw [hnotes, if_pos rfl]
      exact htold.resumed
    refine Noted.moved (p := p.answerRead a rest w) hk (fun j u hne hu => ?_) (fun j hj => ?_) ?_
    · exact (h.told j u hu).congr rfl (fun _ => rfl) (by simp [hnotes, hne]) fun q hq _ => hq
    · have hlen : p.conns.length ≤ j := hj
      have hne : j ≠ a.conn := by omega
      rw [hnotes, if_neg hne, h.others j hlen, List.append_nil]
    · rcases (hstep.resumed hs hdns hpending).2 with hnew | hnew
      · have hnone : newQuestion a.conn (w.notified a.gaiRet) w' = none :=
          if_neg fun hasked => by simp [hnew] at hasked
        simp only [Proxy.Told, hnew, notesOf_moved, hnone]
        simpa using hidle
      · refine Proxy.told_asked hidle (hp.answerRead hresponses).2 ?_ hnew
        intro heq
        cases heq

/-- **No request is lost or duplicated.** In every run in which the pipes have room for what is
written to them, a connection has exactly one message in flight while it waits for the
resolver and none otherwise, and every answer resumes the connection that asked, with what
was found for its request. -/
theorem waiting_iff_in_flight {l : List (SockAddr × ListenAnswers)} {p₀ : Proxy}
    {is : List ProxyInput} (hp₀ : startProxy l = some p₀)
    (hmeets : Lib.Meets (proxyStep cfg pipes) (HasRoom cfg pipes) is p₀)
    (hrun : Lib.run (proxyStep cfg pipes) is p₀ = .ok () p) {k : Nat} {w : World}
    (hk : p.conns[k]? = some w) :
    (w.shared.state = .asyncDns ↔ p.inFlight.count k = 1) ∧ p.inFlight.count k ≤ 1 ∧
      ∃ stage, Exchange k (p.notesOf k) stage := by
  have hstart : Awaited p₀ ∧ Noted p₀ := by
    obtain ⟨-, heq⟩ := startProxy_eq hp₀
    rw [heq]
    exact ⟨fun k w hk => by simp at hk, fun k w hk => by simp at hk, fun k _ => rfl⟩
  have hwp : Lib.wp (Lib.run (proxyStep cfg pipes) is)
      (fun _ p' => Orderly p' ∧ Awaited p' ∧ Noted p') (fun _ _ => True) p₀ := by
    refine Lib.run_wp_of_meets (fun p i hp hroom => ?_) ⟨startProxy_orderly hp₀, hstart⟩ hmeets
    refine wp_proxyStep hp.1 (fun p' hstep => ?_) fun _ _ _ => trivial
    exact ⟨hstep.orderly hp.1, hp.2.1.stepped hp.1 hroom hstep, hp.2.2.stepped hp.1 hstep⟩
  rw [Lib.wp_eq_ok hrun] at hwp
  obtain ⟨hp, hawaited, hnoted⟩ := hwp
  have hcount : p.inFlight.count k ≤ 1 := List.nodup_iff_count_le_one.mp hp.nodup k
  have hwaits : w.shared.state = .asyncDns ↔ k ∈ p.inFlight :=
    ⟨hawaited k w hk, fun hmem => ((hp.getElem hk).1.dns (hp.dns hk hmem)).2⟩
  refine ⟨?_, hcount, ?_⟩
  · rw [hwaits, ← List.count_pos_iff]
    omega
  · have htold := hnoted.told k w hk
    unfold Proxy.Told at htold
    cases hdns : w.dns with
    | idle => exact ⟨_, by simpa only [hdns] using htold⟩
    | answered gaiRet => exact ⟨_, by simpa only [hdns] using htold⟩
    | requested =>
      simp only [hdns] at htold
      have hmem := hwaits.mp ((hp.getElem hk).1.dns (by simp [hdns])).2
      rcases List.mem_append.mp hmem with hmem | hmem
      · obtain ⟨q, hq, hqk⟩ := List.mem_map.mp hmem
        exact ⟨_, htold q hq hqk⟩
      · obtain ⟨a, ha, hak⟩ := List.mem_map.mp hmem
        obtain ⟨v, hv, hans⟩ := hp.answered a ha
        obtain rfl : w = v := Option.some.inj (hk.symm.trans (hak ▸ hv))
        exact nomatch hdns.symm.trans hans

end Notes

/-! ### One client and one name -/

/-- The client asks for a connection to the name "a". -/
def askOnce : List Input :=
  greeting 5 ++ clientSends 5 [5, cmdConn, 0, atypDomn, 1, 97, 0, 80] .idle

/-- The pipes have room, whatever is written to them. -/
def AlwaysRoom (pipes : Pipes) (p : Proxy) (_ : ProxyInput) : Prop :=
  p.requests.length < pipes.requests ∧ p.responses.length < pipes.responses

instance (pipes : Pipes) (p : Proxy) (i : ProxyInput) : Decidable (AlwaysRoom pipes p i) :=
  inferInstanceAs (Decidable (_ ∧ _))

theorem AlwaysRoom.hasRoom {cfg : Configs} {pipes : Pipes} {p : Proxy} {i : ProxyInput}
    (h : AlwaysRoom pipes p i) : HasRoom cfg pipes p i := by
  have hroom : p.room pipes = true := decide_eq_true h.1
  cases i with
  | looked gaiRet res => exact .inr h.2
  | _ => exact fun _ _ _ => hroom

theorem waiting_iff_in_flight_once :
    ∃ p w, Lib.run (proxyStep openConfigs ⟨2, 2⟩) (oneClient askOnce) listening = .ok () p ∧
      p.conns[0]? = some w ∧ w.shared.state = .asyncDns ∧ p.inFlight.count 0 = 1 := by
  have hmeets : Lib.Meets (proxyStep openConfigs ⟨2, 2⟩) (AlwaysRoom ⟨2, 2⟩) (oneClient askOnce)
      listening := by
    decide +kernel
  have hasync : ((Lib.run (proxyStep openConfigs ⟨2, 2⟩) (oneClient askOnce)
      listening).state.conns[0]?.map fun w => w.shared.state) = some .asyncDns := by
    decide +kernel
  have hok : (Lib.run (proxyStep openConfigs ⟨2, 2⟩) (oneClient askOnce) listening).fault? =
      none := by
    decide +kernel
  obtain ⟨_, hrun⟩ := Lib.Outcome.eq_ok hok
  obtain ⟨w, hk, hs⟩ := Option.map_eq_some_iff.mp hasync
  have hflight := waiting_iff_in_flight (l := oneListener) rfl
    (hmeets.mono fun _ _ h => h.hasRoom) hrun hk
  exact ⟨_, w, hrun, hk, hs, hflight.1.mp hs⟩

/-- Two clients ask, one after the other. -/
def askTwice : List ProxyInput :=
  oneClient askOnce ++
    .accept 7 (.inet ![4, 1] ![127, 0, 0, 1]) (fun _ => .zero) true true ::
      (greeting 7 ++ clientSends 7 [5, cmdConn, 0, atypDomn, 1, 97, 0, 80] .idle).map (.conn 1)

/-- When the first request fills the pipe, the second client waits for nothing. -/
theorem waiting_not_in_flight :
    ¬ ∀ (cfg : Configs) (pipes : Pipes) (l : List (SockAddr × ListenAnswers)) (p₀ p : Proxy)
      (is : List ProxyInput), startProxy l = some p₀ →
        Lib.run (proxyStep cfg pipes) is p₀ = .ok () p → ∀ k w, p.conns[k]? = some w →
          (w.shared.state = .asyncDns ↔ p.inFlight.count k = 1) := by
  intro h
  have hasync : ((Lib.run (proxyStep openConfigs ⟨1, 1⟩) askTwice
      listening).state.conns[1]?.map fun w => w.shared.state) = some .asyncDns := by
    decide +kernel
  have hlost : (Lib.run (proxyStep openConfigs ⟨1, 1⟩) askTwice listening).fault? = none ∧
      (Lib.run (proxyStep openConfigs ⟨1, 1⟩) askTwice listening).state.inFlight = [0] := by
    decide +kernel
  obtain ⟨_, hrun⟩ := Lib.Outcome.eq_ok hlost.1
  obtain ⟨w, hk, hs⟩ := Option.map_eq_some_iff.mp hasync
  have hcount := (h openConfigs ⟨1, 1⟩ oneListener listening _ askTwice rfl hrun 1 w hk).mp hs
  rw [hlost.2] at hcount
  cases hcount

end Socksprox
