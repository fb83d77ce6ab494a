import Socksprox.Effects
import Socksprox.Logger
import Mathlib.Data.Fin.VecNotation

/-!
The whole server (`src/socksprox.c`, `src/resolver.c`, `init_listeners`): its listeners, its
connections, and the resolver's thread with the two pipes between it and the loop.

Connections share nothing but the resolver. A pipe is a bounded queue of messages, written
whole or not at all and read back as they were written. The batch of the loop is kept in
pieces, one with each connection; the event of the response pipe is an input of its own.
-/

namespace Socksprox

open Logger (Call)

/-! ### Listeners -/

/-- A listening descriptor: `O_NONBLOCK`, and whether epoll knows it. -/
structure Listener where
  nonblock : Bool
  registered : Bool

/-- The answers to the calls of one turn of the loop in `init_listeners`. -/
structure ListenAnswers where
  socket : Option Int
  v6flag : Bool
  bind : Bool
  malloc : Bool
  epollAdd : Bool

/-- `ep_add_listener`: what it returns, and what it logs. -/
def epAddListener (ans : ListenAnswers) : Int × List Call :=
  if !ans.malloc then (-1, [lMallocerror])
  else if !ans.epollAdd then (-1, [lEpollerroradd])
  else (0, [])

/-- One turn of the loop in `init_listeners`: what it returns, 0 to go on, the descriptors, and what
it logs. -/
def initListener (fds : Int → Option Listener) (sa : SockAddr) (ans : ListenAnswers) :
    Int × (Int → Option Listener) × List Call :=
  match ans.socket with
  | none => (1, fds, [])
  | some fd =>
    if sa.family = afInet6 ∧ !ans.v6flag then
      (-1, Function.update fds fd (some ⟨false, false⟩), [])
    else if !ans.bind then (-1, Function.update fds fd (some ⟨false, false⟩), [])
    else if (epAddListener ans).1 ≠ 0 then
      (-1, Function.update fds fd (some ⟨true, false⟩), lBindlistener :: (epAddListener ans).2)
    else (0, Function.update fds fd (some ⟨true, true⟩), lBindlistener :: (epAddListener ans).2)

/-- The loop in `init_listeners`. -/
def initListenersFrom (fds : Int → Option Listener) :
    List (SockAddr × ListenAnswers) → Int × (Int → Option Listener) × List Call
  | [] => (0, fds, [])
  | (sa, ans) :: rest =>
    match initListener fds sa ans with
    | (0, fds', log) =>
      let r := initListenersFrom fds' rest
      (r.1, r.2.1, log ++ r.2.2)
    | (ret, fds', log) => (ret, fds', log)

/-- `init_listeners`. -/
def initListeners (l : List (SockAddr × ListenAnswers)) :
    Int × (Int → Option Listener) × List Call :=
  if l = [] then (-1, fun _ => none, []) else initListenersFrom (fun _ => none) l

/-! ### The state of the server -/

/-- A message in the request pipe: the connection that asks, and what `resolve` was given. -/
structure Question where
  conn : Nat
  input : List UInt8
  deriving DecidableEq

/-- A message in the response pipe. -/
structure Answer where
  gaiRet : Int
  conn : Nat
  deriving DecidableEq

/-- What happens to the requests for the resolver, for stating properties of whole runs. -/
inductive Note where
  | asked (conn : Nat) (input : List UInt8)
  | looked (conn : Nat) (input : List UInt8) (gaiRet : Int) (ai : List AddrInfo)
  | resumed (conn : Nat) (gaiRet : Int) (ai : List AddrInfo)
  deriving DecidableEq

/-- A connection is known by its place in the order of acceptance, which stands for the
address of its `Shared`. -/
structure Proxy where
  listeners : Int → Option Listener
  conns : List World
  requests : List Question
  resolving : Option Question
  responses : List Answer
  notes : List Note

/-- How many messages the pipes hold. -/
structure Pipes where
  requests : Nat
  responses : Nat

/-- There is room for a message in the request pipe. -/
def Proxy.room (p : Proxy) (pipes : Pipes) : Bool := decide (p.requests.length < pipes.requests)

/-- `main` up to the loop: without its listeners the server does not run. -/
def startProxy (l : List (SockAddr × ListenAnswers)) : Option Proxy :=
  match initListeners l with
  | (0, fds, _) => some
    { listeners := fds, conns := [], requests := [], resolving := none,
      responses := [], notes := [] }
  | _ => none

/-! ### Steps -/

inductive ProxyInput where
  | accept (fd : Int) (ss : SockAddr) (bufs : Side → OutBuff) (mallocs epollAdd : Bool)
  | conn (k : Nat) (i : Input)
  | lookup
  | looked (gaiRet : Int) (res : List AddrInfo)
  | answer (ans : Answers)

/-- What happens to a connection by itself: the resolver's part is the server's. -/
def Input.own : Input → Bool
  | .resolved _ _ => false
  | .poll batch => !batch.contains .resolver
  | _ => true

/-- The write to the request pipe fails when there is no room. -/
def Input.withRoom (room : Bool) : Input → Input
  | .handle ans => .handle { ans with pipeWrite := room }
  | i => i

def Act.resolve? : Act → Option (List UInt8)
  | .resolve input => some input
  | _ => none

/-- What `resolve` was last given. -/
def World.lastAsked (w : World) : List UInt8 := (w.trace.reverse.findSome? Act.resolve?).getD []

/-- What a step of connection `k` wrote into the request pipe. -/
def newQuestion (k : Nat) (w w' : World) : Option Question :=
  if w.dns ≠ .requested ∧ w'.dns = .requested then some ⟨k, w'.lastAsked⟩ else none

/-- Connection `k` after a step. -/
def Proxy.moved (p : Proxy) (k : Nat) (w w' : World) : Proxy :=
  { p with
    conns := p.conns.set k w'
    requests := p.requests ++ (newQuestion k w w').toList
    notes := p.notes ++ (newQuestion k w w').toList.map fun q => .asked q.conn q.input }

/-- A step of connection `k`, as a step of the server. -/
def Proxy.onConn (p : Proxy) (k : Nat) (w : World) (m : Proc Unit) :
    Lib.Outcome Fault Proxy Unit :=
  match m w with
  | .ok _ w' => .ok () (p.moved k w w')
  | .fault f w' => .fault f (p.moved k w w')

/-- The answer read from the pipe, and the event handled at once. -/
def World.notified (w : World) (gaiRet : Int) : World :=
  { w with dns := .answered gaiRet, pending := .resolver :: w.pending }

/-- The answer for connection `w` taken out of the pipe. -/
def Proxy.answerRead (p : Proxy) (a : Answer) (rest : List Answer) (w : World) : Proxy :=
  { p with
    responses := rest
    notes := p.notes ++ [.resumed a.conn a.gaiRet w.info.ai] }

/-- The thread has looked `q` up: the list stored in the connection that asked, and the answer
written, if there is room for it. -/
def Proxy.lookedUp (p : Proxy) (pipes : Pipes) (q : Question) (w : World) (gaiRet : Int)
    (ai : List AddrInfo) : Proxy :=
  { p with
    conns := p.conns.set q.conn (w.answered gaiRet ai)
    resolving := none
    responses := p.responses ++
      if p.responses.length < pipes.responses then [⟨gaiRet, q.conn⟩] else []
    notes := p.notes ++ [.looked q.conn q.input gaiRet ai] }

/-- One input. What the thread and the loop cannot do at the time is no input. -/
def proxyStep (cfg : Configs) (pipes : Pipes) (i : ProxyInput) : Lib.Exec Fault Proxy Unit :=
  fun p => match i with
  | .accept fd ss bufs mallocs epollAdd =>
    match acceptNewClient fd ss bufs mallocs epollAdd with
    | some w => .ok () { p with conns := p.conns ++ [w] }
    | none => .ok () p
  | .conn k i =>
    match p.conns[k]? with
    | some w =>
      if i.own then
        p.onConn k w (step cfg (i.withRoom (p.room pipes)))
      else .ok () p
    | none => .ok () p
  | .lookup =>
    match p.resolving, p.requests with
    | none, q :: rest => .ok () { p with resolving := some q, requests := rest }
    | _, _ => .ok () p
  | .looked gaiRet res =>
    match p.resolving with
    | some q =>
      match p.conns[q.conn]? with
      | some w =>
        match sharedInfo w with
        | .ok _ _ => .ok () (p.lookedUp pipes q w gaiRet (if gaiRet = 0 then res else []))
        | .fault f _ => .fault f p
      | none => .ok () p
    | none => .ok () p
  | .answer ans =>
    match p.responses with
    | a :: rest =>
      match p.conns[a.conn]? with
      | some w =>
        (p.answerRead a rest w).onConn a.conn (w.notified a.gaiRet)
          (step cfg (.handle { ans with
            pipeWrite := p.room pipes }))
      | none => .ok () p
    | [] => .ok () p

/-- The connection as the handler of an input finds it. -/
def Proxy.handled (p : Proxy) (pipes : Pipes) : ProxyInput → Option World
  | .conn k (.handle ans) =>
    p.conns[k]?.bind fun w => w.next { ans with pipeWrite := p.room pipes }
  | .answer ans =>
    p.responses.head?.bind fun a => p.conns[a.conn]?.bind fun w =>
      (w.notified a.gaiRet).next { ans with pipeWrite := p.room pipes }
  | _ => none

/-! ### Usual inputs -/

/-- One listener, on descriptor 3. -/
def oneListener : List (SockAddr × ListenAnswers) :=
  [(.inet ![4, 56] ![0, 0, 0, 0],
    { socket := some 3, v6flag := true, bind := true, malloc := true, epollAdd := true })]

/-- The server with that listener. -/
def listening : Proxy :=
  { listeners := (initListeners oneListener).2.1, conns := [], requests := [], resolving := none
    responses := [], notes := [] }

/-- One client on descriptor 5, and what happens to its connection. -/
def oneClient (is : List Input) : List ProxyInput :=
  .accept 5 (.inet ![4, 0] ![127, 0, 0, 1]) (fun _ => .zero) true true :: is.map (.conn 0)

/-! ### What an input comes to -/

inductive ProxyStepped (cfg : Configs) (pipes : Pipes) (p : Proxy) :
    ProxyInput → Option Fault → Proxy → Prop where
  | idle {i : ProxyInput} : ProxyStepped cfg pipes p i none p
  | accepted {fd : Int} {ss : SockAddr} {bufs : Side → OutBuff} {mallocs epollAdd : Bool}
      {w : World}
      (hw : acceptNewClient fd ss bufs mallocs epollAdd = some w) :
      ProxyStepped cfg pipes p (.accept fd ss bufs mallocs epollAdd) none
        { p with conns := p.conns ++ [w] }
  | moved {k : Nat} {i : Input} {f : Option Fault} {w w' : World} (hk : p.conns[k]? = some w)
      (hown : i.own = true)
      (h : Stepped cfg w (i.withRoom (p.room pipes)) f w') :
      ProxyStepped cfg pipes p (.conn k i) f (p.moved k w w')
  | lookup {q : Question} {rest : List Question} (hresolving : p.resolving = none)
      (hrequests : p.requests = q :: rest) :
      ProxyStepped cfg pipes p .lookup none { p with resolving := some q, requests := rest }
  | looked {q : Question} {w : World} {gaiRet : Int} {res : List AddrInfo}
      (hresolving : p.resolving = some q) (hk : p.conns[q.conn]? = some w) :
      ProxyStepped cfg pipes p (.looked gaiRet res) none
        (p.lookedUp pipes q w gaiRet (if gaiRet = 0 then res else []))
  | answered {ans : Answers} {a : Answer} {rest : List Answer} {f : Option Fault} {w w' : World}
      (hresponses : p.responses = a :: rest) (hk : p.conns[a.conn]? = some w)
      (h : Stepped cfg (w.notified a.gaiRet)
        (.handle { ans with pipeWrite := p.room pipes }) f w') :
      ProxyStepped cfg pipes p (.answer ans) f
        ((p.answerRead a rest w).moved a.conn (w.notified a.gaiRet) w')

/-! ### Requests in flight -/

/-- The requests with the thread and in the pipe, the oldest first. -/
def Proxy.questions (p : Proxy) : List Question := p.resolving.toList ++ p.requests

/-- The connections whose request or answer is in flight. -/
def Proxy.inFlight (p : Proxy) : List Nat :=
  p.questions.map Question.conn ++ p.responses.map Answer.conn

/-- What holds between any two inputs: the connections are sane, and a message that is in
flight is the only one of a connection that waits for it. -/
structure Orderly (p : Proxy) : Prop where
  sane : ∀ w ∈ p.conns, Sane w ∧ .resolver ∉ w.pending
  asked : ∀ q ∈ p.questions, ∃ w, p.conns[q.conn]? = some w ∧ w.dns = .requested
  answered : ∀ a ∈ p.responses, ∃ w, p.conns[a.conn]? = some w ∧ w.dns = .answered a.gaiRet
  nodup : p.inFlight.Nodup

section Order

variable {cfg : Configs} {pipes : Pipes} {p p' : Proxy} {w w' : World}

/-- The event of the response pipe comes on top of the connection's own. -/
theorem Sane.notified {gaiRet : Int} (hs : Sane w) (hdns : w.dns = .answered gaiRet) :
    Sane (w.notified gaiRet) := by
  have hopen : Open (w.notified gaiRet) → Open w := fun h => h.frame rfl id
  refine ⟨⟨?_, fun _ => ?_, hs.regs, ?_, ?_⟩, fun h => ?_⟩
  · refine hs.conn.imp (fun h => h.frame rfl id) fun h => ?_
    exact ⟨⟨h.fd_ne, h.self, h.ptr⟩, h.state, h.info, h.outBuff, h.shared⟩
  · obtain ⟨hw, hstate⟩ := hs.dns (by simp [hdns])
    exact ⟨hw.frame rfl id, hstate⟩
  · show ((Event.resolver :: w.pending).filterMap Event.fd?).Nodup
    rw [List.filterMap_cons_none rfl]
    exact hs.nodup
  · intro fd e ev hmem
    obtain ⟨hfd, hlive⟩ := hs.pend fd e ev (by simpa [World.notified] using hmem)
    exact ⟨hfd, fun h => hlive (hopen h)⟩
  · exact (hs.phase (hopen h)).congr rfl rfl rfl hdns.symm

theorem stepped_of_ok {i : Input} (hs : Sane w) (h : step cfg i w = .ok () w') :
    Stepped cfg w i none w' := by
  have hwp : Lib.wp (step cfg i) (fun _ w' => Stepped cfg w i none w') (fun _ _ => True) w := by
    refine wp_step hs.toSound fun f w' hstep => ?_
    cases f with
    | none => exact hstep
    | some f => trivial
  rwa [Lib.wp_eq_ok h] at hwp

theorem stepped_of_fault {i : Input} {f : Fault} (hs : Sane w) (h : step cfg i w = .fault f w') :
    Stepped cfg w i (some f) w' := by
  have hwp : Lib.wp (step cfg i) (fun _ _ => True) (fun f w' => Stepped cfg w i (some f) w') w := by
    refine wp_step hs.toSound fun f w' hstep => ?_
    cases f with
    | none => trivial
    | some f => exact hstep
  rwa [Lib.wp_eq_fault h] at hwp

theorem sat_onConn {k : Nat} {i : Input} {Q : Unit → Proxy → Prop} {E : Fault → Proxy → Prop}
    (hs : Sane w)
    (hok : ∀ w', Stepped cfg w i none w' → Q () (p.moved k w w'))
    (hfault : ∀ f w', Stepped cfg w i (some f) w' → E f (p.moved k w w')) :
    (p.onConn k w (step cfg i)).Sat Q E := by
  unfold Proxy.onConn
  cases hstep : step cfg i w with
  | ok _ w' => exact hok w' (stepped_of_ok hs hstep)
  | fault f w' => exact hfault f w' (stepped_of_fault hs hstep)

theorem Orderly.getElem {k : Nat} (hp : Orderly p) (hk : p.conns[k]? = some w) :
    Sane w ∧ .resolver ∉ w.pending := hp.sane w (List.mem_of_getElem? hk)

/-- Every input comes to one of these. -/
theorem wp_proxyStep {i : ProxyInput} {Q : Unit → Proxy → Prop} {E : Fault → Proxy → Prop}
    (hp : Orderly p) (hok : ∀ p', ProxyStepped cfg pipes p i none p' → Q () p')
    (hfault : ∀ f p', ProxyStepped cfg pipes p i (some f) p' → E f p') :
    Lib.wp (proxyStep cfg pipes i) Q E p := by
  unfold Lib.wp proxyStep
  cases i with
  | accept fd ss bufs mallocs epollAdd =>
    dsimp only
    split
    · rename_i w hw
      exact hok _ (.accepted hw)
    · exact hok _ .idle
  | conn k i =>
    dsimp only
    split
    · rename_i w hk
      split
      · rename_i hown
        exact sat_onConn (hp.getElem hk).1 (fun w' h => hok _ (.moved hk hown h))
          fun f w' h => hfault f _ (.moved hk hown h)
      · exact hok _ .idle
    · exact hok _ .idle
  | lookup =>
    dsimp only
    split
    · rename_i q rest hresolving hrequests
      exact hok _ (.lookup hresolving hrequests)
    · exact hok _ .idle
  | looked gaiRet res =>
    dsimp only
    split
    · rename_i q hresolving
      obtain ⟨w, hk, hdns⟩ := hp.asked q (by simp [Proxy.questions, hresolving])
      have hopen := ((hp.getElem hk).1.dns (by simp [hdns])).1
      have hinfo : Lib.wp sharedInfo (fun _ _ => True) (fun _ _ => False) w := by
        rw [wp_sharedInfo _ hopen.shared hopen.infoPtr hopen.info]
        trivial
      simp only [hk]
      cases hread : sharedInfo w with
      | ok _ _ => exact hok _ (.looked hresolving hk)
      | fault f w' =>
        rw [Lib.wp_eq_fault hread] at hinfo
        exact hinfo.elim
    · exact hok _ .idle
  | answer ans =>
    dsimp only
    split
    · rename_i a rest hresponses
      obtain ⟨w, hk, hdns⟩ := hp.answered a (by simp [hresponses])
      rw [hk]
      exact sat_onConn ((hp.getElem hk).1.notified hdns)
        (fun w' h => hok _ (.answered hresponses hk h))
        fun f w' h => hfault f _ (.answered hresponses hk h)
    · exact hok _ .idle

/-! ### One connection's requests -/

/-- A handler asks once, when nothing is asked yet, and leaves the batch alone. -/
theorem Effects.dns {blocking : Prop} (h : Effects blocking w w') :
    w'.pending = w.pending ∧ (w'.dns = w.dns ∨ w.dns = .idle ∧ w'.dns = .requested) := by
  refine h.invariant (P := fun v => v.pending = w.pending ∧
    (v.dns = w.dns ∨ w.dns = .idle ∧ v.dns = .requested)) (fun {v v'} hv he => ?_) ⟨rfl, .inl rfl⟩
  cases he with
  | asked hidle =>
    refine ⟨hv.1, ?_⟩
    by_cases hroom : v.ans.pipeWrite = true
    · rcases hv.2 with hdns | ⟨-, hdns⟩
      · exact .inr ⟨hdns.symm.trans hidle, by simp [hroom]⟩
      · rw [hdns] at hidle
        cases hidle
    · simpa [hroom] using hv.2
  | queue s bytes => simpa using hv
  | received hrecv =>
    obtain ⟨fds, trace, rfl⟩ := hrecv.frame
    exact hv
  | _ => exact hv

/-- Nothing of its own moves a connection that waits for the resolver. -/
theorem Stepped.parked {i : Input} {f : Option Fault} (hs : Sane w) (hdns : w.dns ≠ .idle)
    (hown : i.own = true) (hpending : .resolver ∉ w.pending) (h : Stepped cfg w i f w') :
    w'.dns = w.dns ∧ w'.info = w.info := by
  have hasync := (hs.dns hdns).2
  cases h with
  | @arrive fd bytes =>
    obtain ⟨fds, heq, -⟩ := w.arrived_interest fd bytes
    rw [heq]
    exact ⟨rfl, rfl⟩
  | finish => exact ⟨rfl, rfl⟩
  | unasked hdns => exact ⟨rfl, rfl⟩
  | resolved hdns => cases hown
  | unpolled => exact ⟨rfl, rfl⟩
  | polled hp hlegal => exact ⟨rfl, rfl⟩
  | waiting hp => exact ⟨rfl, rfl⟩
  | handled hp h =>
    cases h with
    | ignored => exact ⟨rfl, rfl⟩
    | stale hgone => exact ⟨rfl, rfl⟩
    | masked hd hev => exact ⟨rfl, rfl⟩
    | handled hw hd h =>
      cases h with
      | still hstate => exact ⟨rfl, rfl⟩
      | sendingReply hstate h => rcases hstate with hs | hs <;> exact nomatch hasync.symm.trans hs
      | _ hstate => exact nomatch hasync.symm.trans hstate
    | shut hw hd => exact absurd hw ((hs.dns hdns).1.taken _ _).not_shut
    | quiet hquiet => exact ⟨rfl, rfl⟩
    | resolver hw hans h => exact absurd (by simp [hp]) hpending

/-- What a connection does by itself: it asks at most, and the event of the response pipe is
not in its batch. -/
theorem Stepped.own {i : Input} {f : Option Fault} (hs : Sane w) (hown : i.own = true)
    (hpending : .resolver ∉ w.pending) (h : Stepped cfg w i f w') :
    .resolver ∉ w'.pending ∧ (w'.dns = w.dns ∧ (w.dns ≠ .idle → w'.info = w.info) ∨
      w.dns = .idle ∧ w'.dns = .requested) := by
  have hsame : w'.dns = w.dns → w'.dns = w.dns ∧ (w.dns ≠ .idle → w'.info = w.info) := fun heq =>
    ⟨heq, fun hdns => (h.parked hs hdns hown hpending).2⟩
  cases i with
  | arrive fd bytes =>
    cases h
    obtain ⟨fds, heq, -⟩ := w.arrived_interest fd bytes
    rw [heq] at hsame ⊢
    exact ⟨hpending, .inl (hsame rfl)⟩
  | finish fd =>
    cases h
    exact ⟨hpending, .inl (hsame rfl)⟩
  | resolved gaiRet res => cases hown
  | poll batch =>
    cases h with
    | unpolled => exact ⟨hpending, .inl (hsame rfl)⟩
    | polled hp hlegal => exact ⟨by simpa [Input.own] using hown, .inl (hsame rfl)⟩
  | handle ans =>
    have htail : .resolver ∉ w.pending.tail := fun hmem => hpending (List.mem_of_mem_tail hmem)
    rcases h.effects hs fun _ _ _ => trivial with ⟨-, rfl | rfl⟩ | ⟨v, hv, heffects⟩
    · exact ⟨hpending, .inl (hsame rfl)⟩
    · exact ⟨htail, .inl (hsame rfl)⟩
    · rcases w.mem_next hv with rfl | ⟨gaiRet, -, hmem, -⟩
      · obtain ⟨hpend, hdns⟩ := heffects.dns
        exact ⟨hpend ▸ htail, hdns.imp_left hsame⟩
      · exact absurd hmem hpending

/-- A connection that is resumed has its answer, and may ask again. -/
theorem Stepped.resumed {gaiRet : Int} {ans : Answers} {f : Option Fault} (hs : Sane w)
    (hdns : w.dns = .answered gaiRet) (hpending : .resolver ∉ w.pending)
    (h : Stepped cfg (w.notified gaiRet) (.handle ans) f w') :
    .resolver ∉ w'.pending ∧ (w'.dns = .idle ∨ w'.dns = .requested) := by
  have hresume : (w.notified gaiRet).next ans = some ((w.taken w.pending ans).resumed gaiRet) := rfl
  rcases h.effects (hs.notified hdns) fun _ _ _ => trivial with ⟨hnone, -⟩ | ⟨v, hv, heffects⟩
  · rw [hresume] at hnone
    cases hnone
  · obtain rfl : _ = v := Option.some.inj (hresume.symm.trans hv)
    obtain ⟨hpend, hnew⟩ := heffects.dns
    exact ⟨hpend ▸ hpending, hnew.imp_right And.right⟩

/-! ### Order is kept -/

theorem newQuestion_eq {k : Nat} {q : Question} (h : newQuestion k w w' = some q) :
    q = ⟨k, w'.lastAsked⟩ ∧ w.dns ≠ .requested ∧ w'.dns = .requested := by
  unfold newQuestion at h
  split at h
  · rename_i hdns
    cases h
    exact ⟨rfl, hdns⟩
  · cases h

theorem set_conns {k j : Nat} (hk : p.conns[k]? = some w) :
    (p.conns.set k w')[j]? = if j = k then some w' else p.conns[j]? := by
  have hlt := (List.getElem?_eq_some_iff.mp hk).1
  by_cases hj : j = k
  · subst hj
    simp [hlt]
  · simp [hj, Ne.symm hj]

theorem mem_inFlight_question {q : Question} (h : q ∈ p.questions) : q.conn ∈ p.inFlight :=
  List.mem_append_left _ (List.mem_map_of_mem h)

theorem mem_inFlight_answer {a : Answer} (h : a ∈ p.responses) : a.conn ∈ p.inFlight :=
  List.mem_append_right _ (List.mem_map_of_mem h)

/-- A connection in flight is not idle. -/
theorem Orderly.dns {k : Nat} (hp : Orderly p) (hk : p.conns[k]? = some w) (hmem : k ∈ p.inFlight) :
    w.dns ≠ .idle := by
  rcases List.mem_append.mp hmem with hmem | hmem
  · obtain ⟨q, hq, rfl⟩ := List.mem_map.mp hmem
    obtain ⟨v, hv, hdns⟩ := hp.asked q hq
    obtain rfl : w = v := Option.some.inj (hk.symm.trans hv)
    simp [hdns]
  · obtain ⟨a, ha, rfl⟩ := List.mem_map.mp hmem
    obtain ⟨v, hv, hdns⟩ := hp.answered a ha
    obtain rfl : w = v := Option.some.inj (hk.symm.trans hv)
    simp [hdns]

/-- Connection `k` moves on: it keeps what it waits for, or has nothing in flight. -/
theorem Orderly.moved {k : Nat} {v : World} (hp : Orderly p) (hk : p.conns[k]? = some w)
    (hs : Sane w') (hpending : .resolver ∉ w'.pending)
    (hkept : k ∈ p.inFlight → w'.dns = w.dns ∧ newQuestion k v w' = none) :
    Orderly (p.moved k v w') := by
  have hquestions : (p.moved k v w').questions = p.questions ++ (newQuestion k v w').toList :=
    (List.append_assoc _ _ _).symm
  have hsame : ∀ {j u}, j ∈ p.inFlight → p.conns[j]? = some u →
      ∃ u', (p.moved k v w').conns[j]? = some u' ∧ u'.dns = u.dns := by
    intro j u hj hu
    by_cases hjk : j = k
    · subst hjk
      obtain rfl : u = w := Option.some.inj (hu.symm.trans hk)
      exact ⟨w', by simp [Proxy.moved, set_conns hk], (hkept hj).1⟩
    · exact ⟨u, by simp [Proxy.moved, set_conns hk, hjk, hu], rfl⟩
  refine ⟨fun u hu => ?_, fun q hq => ?_, fun a ha => ?_, ?_⟩
  · rcases List.mem_or_eq_of_mem_set hu with hu | rfl
    · exact hp.sane u hu
    · exact ⟨hs, hpending⟩
  · rw [hquestions] at hq
    rcases List.mem_append.mp hq with hq | hq
    · obtain ⟨u, hu, hdns⟩ := hp.asked q hq
      obtain ⟨u', hu', heq⟩ := hsame (mem_inFlight_question hq) hu
      exact ⟨u', hu', heq.trans hdns⟩
    · obtain ⟨rfl, -, hdns⟩ := newQuestion_eq (Option.mem_toList.mp hq)
      exact ⟨w', by simp [Proxy.moved, set_conns hk], hdns⟩
  · obtain ⟨u, hu, hdns⟩ := hp.answered a ha
    obtain ⟨u', hu', heq⟩ := hsame (mem_inFlight_answer ha) hu
    exact ⟨u', hu', heq.trans hdns⟩
  · show ((p.moved k v w').questions.map Question.conn ++ p.responses.map Answer.conn).Nodup
    rw [hquestions]
    cases hnew : newQuestion k v w' with
    | none => simpa [Proxy.inFlight] using hp.nodup
    | some q =>
      obtain ⟨rfl, -, -⟩ := newQuestion_eq hnew
      have hnot : k ∉ p.inFlight := fun hmem => by simp [hnew] at hkept; exact hkept hmem
      rw [List.map_append, List.append_assoc]
      exact List.nodup_middle.mpr (List.nodup_cons.mpr ⟨hnot, hp.nodup⟩)

theorem Orderly.answerRead {a : Answer} {rest : List Answer} (hp : Orderly p)
    (hresponses : p.responses = a :: rest) :
    Orderly (p.answerRead a rest w) ∧ a.conn ∉ (p.answerRead a rest w).inFlight := by
  have hnodup := hp.nodup
  rw [Proxy.inFlight, hresponses, List.map_cons, List.nodup_middle, List.nodup_cons] at hnodup
  refine ⟨⟨hp.sane, hp.asked, fun b hb => ?_, hnodup.2⟩, hnodup.1⟩
  exact hp.answered b (by rw [hresponses]; exact List.mem_cons_of_mem a hb)

theorem Orderly.lookedUp {q : Question} {gaiRet : Int} {res : List AddrInfo} (hp : Orderly p)
    (hresolving : p.resolving = some q) (hk : p.conns[q.conn]? = some w) :
    Orderly (p.lookedUp pipes q w gaiRet (if gaiRet = 0 then res else [])) := by
  have hquestions : p.questions = q :: p.requests := by simp [Proxy.questions, hresolving]
  have hnodup := hp.nodup
  rw [Proxy.inFlight, hquestions, List.map_cons, List.cons_append, List.nodup_cons] at hnodup
  obtain ⟨v, hv, hdns⟩ := hp.asked q (by simp [hquestions])
  obtain rfl : w = v := Option.some.inj (hk.symm.trans hv)
  have hother : ∀ {j}, j ≠ q.conn →
      (p.lookedUp pipes q w gaiRet (if gaiRet = 0 then res else [])).conns[j]? = p.conns[j]? :=
    fun hj => by simp [Proxy.lookedUp, set_conns hk, hj]
  refine ⟨fun u hu => ?_, fun r hr => ?_, fun a ha => ?_, ?_⟩
  · rcases List.mem_or_eq_of_mem_set hu with hu | rfl
    · exact hp.sane u hu
    · exact ⟨(hp.getElem hk).1.answered hdns, (hp.getElem hk).2⟩
  · have hmem : r ∈ p.requests := hr
    obtain ⟨u, hu, hdns⟩ := hp.asked r (by simp [hquestions, hmem])
    have hne : r.conn ≠ q.conn :=
      fun heq => hnodup.1 (List.mem_append_left _ (heq ▸ List.mem_map_of_mem hmem))
    exact ⟨u, (hother hne).trans hu, hdns⟩
  · rcases List.mem_append.mp ha with ha | ha
    · obtain ⟨u, hu, hdns⟩ := hp.answered a ha
      have hne : a.conn ≠ q.conn := fun heq =>
        hnodup.1 (List.mem_append_right _ (heq ▸ List.mem_map_of_mem ha))
      exact ⟨u, (hother hne).trans hu, hdns⟩
    · split at ha
      · obtain rfl := List.mem_singleton.mp ha
        exact ⟨w.answered gaiRet (if gaiRet = 0 then res else []),
          by simp [Proxy.lookedUp, set_conns hk], rfl⟩
      · cases ha
  · show (p.requests.map Question.conn ++ (p.responses ++ _).map Answer.conn).Nodup
    rw [List.map_append, ← List.append_assoc]
    split
    · refine List.nodup_append_comm.mp ?_
      simpa using List.nodup_cons.mpr hnodup
    · simpa using hnodup.2

theorem ProxyStepped.orderly {i : ProxyInput} (hp : Orderly p)
    (h : ProxyStepped cfg pipes p i none p') : Orderly p' := by
  cases h with
  | idle => exact hp
  | @accepted _ _ _ _ _ w hw =>
    have hold : ∀ {j u}, p.conns[j]? = some u → (p.conns ++ [w])[j]? = some u := fun hu =>
      (List.getElem?_append_left (List.getElem?_eq_some_iff.mp hu).1).trans hu
    refine ⟨fun u hu => ?_, fun q hq => ?_, fun a ha => ?_, hp.nodup⟩
    · rcases List.mem_append.mp hu with hu | hu
      · exact hp.sane u hu
      · obtain rfl := List.mem_singleton.mp hu
        refine ⟨acceptNewClient_sane hw, ?_⟩
        obtain ⟨-, rfl⟩ := acceptNewClient_eq hw
        exact List.not_mem_nil
    · obtain ⟨u, hu, hdns⟩ := hp.asked q hq
      exact ⟨u, hold hu, hdns⟩
    · obtain ⟨u, hu, hdns⟩ := hp.answered a ha
      exact ⟨u, hold hu, hdns⟩
  | @moved k i _ w w' hk hown h =>
    obtain ⟨hs, hpending⟩ := hp.getElem hk
    have hown' : (i.withRoom (p.room pipes)).own = true := by
      cases i <;> exact hown
    obtain ⟨hpend, hdns⟩ := h.own hs hown' hpending
    refine hp.moved hk (h.sane hs) hpend fun hmem => ?_
    have hne := hp.dns hk hmem
    rcases hdns with ⟨heq, -⟩ | ⟨hidle, -⟩
    · refine ⟨heq, if_neg fun hnew => hnew.1 (heq ▸ hnew.2)⟩
    · exact absurd hidle hne
  | @lookup q rest hresolving hrequests =>
    have hquestions : p.questions = q :: rest := by simp [Proxy.questions, hresolving, hrequests]
    have hnodup := hp.nodup
    rw [Proxy.inFlight, hquestions] at hnodup
    exact ⟨hp.sane, fun r hr => hp.asked r (hquestions ▸ hr), hp.answered, hnodup⟩
  | looked hresolving hk => exact hp.lookedUp hresolving hk
  | @answered ans a rest _ w w' hresponses hk h =>
    obtain ⟨hs, hpending⟩ := hp.getElem hk
    obtain ⟨v, hv, hdns⟩ := hp.answered a (by simp [hresponses])
    obtain rfl : w = v := Option.some.inj (hk.symm.trans hv)
    obtain ⟨hread, hnot⟩ := hp.answerRead (w := w) hresponses
    obtain ⟨hpend, -⟩ := h.resumed hs hdns hpending
    exact hread.moved hk (h.sane (hs.notified hdns)) hpend fun hmem => absurd hmem hnot

/-! ### Runs -/

theorem startProxy_eq {l : List (SockAddr × ListenAnswers)} {p₀ : Proxy}
    (h : startProxy l = some p₀) :
    (∃ log, initListeners l = (0, p₀.listeners, log)) ∧
      p₀ = { listeners := p₀.listeners, conns := [], requests := [], resolving := none
             responses := [], notes := [] } := by
  unfold startProxy at h
  split at h
  · rename_i fds log hfds
    cases h
    exact ⟨⟨log, hfds⟩, rfl⟩
  · cases h

theorem startProxy_orderly {l : List (SockAddr × ListenAnswers)} {p₀ : Proxy}
    (h : startProxy l = some p₀) : Orderly p₀ := by
  obtain ⟨-, heq⟩ := startProxy_eq h
  rw [heq]
  exact ⟨fun w hw => (List.not_mem_nil hw).elim, fun q hq => (List.not_mem_nil hq).elim,
    fun a ha => (List.not_mem_nil ha).elim, List.nodup_nil⟩

/-- **The invariant rule for runs of the server.** -/
theorem proxy_invariant {P : Proxy → Prop} {C : Proxy → ProxyInput → Prop} {p₀ : Proxy}
    {is : List ProxyInput} (horderly : Orderly p₀) (hP : P p₀)
    (hmeets : Lib.Meets (proxyStep cfg pipes) C is p₀)
    (hstep : ∀ {p p' i f}, Orderly p → P p → C p i → ProxyStepped cfg pipes p i f p' → P p') :
    P (Lib.run (proxyStep cfg pipes) is p₀).state := by
  have h : Lib.wp (Lib.run (proxyStep cfg pipes) is) (fun _ p' => Orderly p' ∧ P p')
      (fun _ p' => P p') p₀ := by
    refine Lib.run_wp_of_meets (fun p i hp hC => ?_) ⟨horderly, hP⟩ hmeets
    exact wp_proxyStep hp.1 (fun p' h => ⟨h.orderly hp.1, hstep hp.1 hp.2 hC h⟩)
      fun f p' h => hstep hp.1 hp.2 hC h
  exact Lib.wp.state (h.mono (fun _ _ h => h.2) fun _ _ h => h)

end Order

end Socksprox
