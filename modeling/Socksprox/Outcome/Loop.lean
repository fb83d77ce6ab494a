import Socksprox.Outcome.Server
import Socksprox.Server

/-!
What one input does to a connection: the handler of its state, the resolver's answer, and
the event loop around them.
-/

namespace Socksprox

open Lib (wp wp_bind wp_pure wp_pure_eq wp_get wp_modify wp_throw wp_ite wp.mono)
open Lib.Exec (get modify throw)

/-! ### One event for an open connection -/

/-- What an event for the end `e` comes to, by the state of the connection. -/
inductive Handled (cfg : Configs) (w : World) (e : Side) (ev : Events) :
    Option Fault → World → Prop where
  | still (hstate : w.shared.state = .noState ∨ w.shared.state = .authenticating ∨
      w.shared.state = .asyncDns ∨ w.shared.state = .fullUdpa) : Handled cfg w e ev none w
  | waitingMethods {w' : World} (hstate : w.shared.state = .waitingMethods)
      (h : WaitingMethods cfg w e ev w') : Handled cfg w e ev none w'
  | sendingMethod {w' : World} (hstate : w.shared.state = .sendingMethod)
      (h : SendingMethod w e ev w') : Handled cfg w e ev none w'
  | waitingCommand {f : Option Fault} {w' : World} (hstate : w.shared.state = .waitingCommand)
      (h : WaitingCommand cfg w e ev f w') : Handled cfg w e ev f w'
  | sendingReply {w' : World}
      (hstate : w.shared.state = .sendingReply ∨ w.shared.state = .sendingReply2)
      (h : SendingReply w e ev w') : Handled cfg w e ev none w'
  | connecting {w' : World} (hstate : w.shared.state = .connecting) (h : Connecting w e ev w') :
      Handled cfg w e ev none w'
  | bindListening {w' : World} (hstate : w.shared.state = .bindListening)
      (h : BindListening w e ev w') : Handled cfg w e ev none w'
  | full {w' : World} (hstate : w.shared.state = .full) (h : Full w e ev w') :
      Handled cfg w e ev none w'
  | halfClose (hstate : w.shared.state = .halfClose) : Handled cfg w e ev none (w.setState .closed)
  | closed (hstate : w.shared.state = .closed) : Handled cfg w e ev none (w.released e)

/-- What the handler of a state does. -/
def HandlerOf (cfg : Configs) (w : World) (e : Side) (ev : Events) (f : Option Fault)
    (w' : World) : State → Prop
  | .waitingMethods => f = none ∧ WaitingMethods cfg w e ev w'
  | .sendingMethod => f = none ∧ SendingMethod w e ev w'
  | .waitingCommand => WaitingCommand cfg w e ev f w'
  | .sendingReply | .sendingReply2 => f = none ∧ SendingReply w e ev w'
  | .connecting => f = none ∧ Connecting w e ev w'
  | .bindListening => f = none ∧ BindListening w e ev w'
  | .full => f = none ∧ Full w e ev w'
  | .halfClose => f = none ∧ w' = w.setState .closed
  | .closed => f = none ∧ w' = w.released e
  | _ => f = none ∧ w' = w

/-- The handler of the state does something: a handler that waits for one kind of event on one
descriptor returns at once from any other. -/
def World.Wants (w : World) (e : Side) (ev : Events) : Prop :=
  match w.shared.state with
  | .waitingMethods | .waitingCommand => ev.epollin = true ∧ e = .client
  | .sendingMethod | .sendingReply | .sendingReply2 => ev.epollout = true ∧ e = .client
  | .connecting => ev.epollout = true ∧ e = .server
  | .bindListening => ev.epollin = true ∧ e = .server
  | _ => True

/-! ### Events and inputs -/

/-- A `Data` that epoll knows is live, and known by its own descriptor. -/
def Regs (w : World) : Prop :=
  ∀ fd sk evs e, w.fds fd = some sk → sk.interest = some (evs, some e) →
    fd = w.selfFd e ∧ w.mem (.data e) = .live

/-- What holds between any two inputs: the connection is open or shut, the resolver has
its request only in STATE_ASYNC_DNS, and an event of the batch carries a `Data` and its
descriptor. An event whose `Data` was released since the batch was polled is stale. -/
structure Sound (w : World) : Prop where
  conn : Open w ∨ Shut w
  dns : w.dns ≠ .idle → Open w ∧ w.shared.state = .asyncDns
  regs : Regs w
  nodup : (w.pending.filterMap Event.fd?).Nodup
  pend : ∀ fd e ev, .peer fd (some e) ev ∈ w.pending →
    fd = w.selfFd e ∧ (Open w → w.mem (.data e) = .live)

/-- What an event of the batch comes to. -/
inductive Dispatched (cfg : Configs) (w : World) : Event → Option Fault → World → Prop where
  | ignored {fd : Int} {ev : Events} : Dispatched cfg w (.peer fd none ev) none w
  | stale {fd : Int} {e : Side} {ev : Events} (hgone : w.mem (.data e) ≠ .live) :
      Dispatched cfg w (.peer fd (some e) ev) (some (.dangling (.data e))) w
  | masked {fd : Int} {e : Side} {ev : Events} (hd : w.mem (.data e) = .live)
      (hev : (ev.epollin || ev.epollout) = false) : Dispatched cfg w (.peer fd (some e) ev) none w
  | handled {fd : Int} {e : Side} {ev : Events} {f : Option Fault} {w' : World} (hw : Open w)
      (hd : w.mem (.data e) = .live) (h : Handled cfg w e ev f w')
      (hwant : w' = w ∨ w.Wants e ev) : Dispatched cfg w (.peer fd (some e) ev) f w'
  | shut {fd : Int} {e : Side} {ev : Events} (hw : Shut w) (hd : w.mem (.data e) = .live) :
      Dispatched cfg w (.peer fd (some e) ev) none (w.released e)
  | quiet (hdns : ∀ gaiRet, w.dns ≠ .answered gaiRet) : Dispatched cfg w .resolver none w
  | resolver {gaiRet : Int} {f : Option Fault} {w' : World} (hw : Open w)
      (hdns : w.dns = .answered gaiRet)
      (h : WaitingCommand cfg (w.resumed gaiRet) .client epollIn f w') :
      Dispatched cfg w .resolver f w'

/-- What an input comes to. -/
inductive Stepped (cfg : Configs) (w : World) : Input → Option Fault → World → Prop where
  | arrive {fd : Int} {bytes : List UInt8} :
      Stepped cfg w (.arrive fd bytes) none (w.arrived fd bytes)
  | finish {fd : Int} : Stepped cfg w (.finish fd) none (w.finished fd)
  | unasked {gaiRet : Int} {res : List AddrInfo} (hdns : w.dns ≠ .requested) :
      Stepped cfg w (.resolved gaiRet res) none w
  | resolved {gaiRet : Int} {res : List AddrInfo} (hdns : w.dns = .requested) :
      Stepped cfg w (.resolved gaiRet res) none (w.answered gaiRet (if gaiRet = 0 then res else []))
  | unpolled {batch : List Event} : Stepped cfg w (.poll batch) none w
  | polled {batch : List Event} (hpending : w.pending = []) (hlegal : w.LegalBatch batch) :
      Stepped cfg w (.poll batch) none (w.polled batch)
  | waiting {ans : Answers} (hpending : w.pending = []) : Stepped cfg w (.handle ans) none w
  | handled {ans : Answers} {ev : Event} {rest : List Event} {f : Option Fault} {w' : World}
      (hpending : w.pending = ev :: rest) (h : Dispatched cfg (w.taken rest ans) ev f w') :
      Stepped cfg w (.handle ans) f w'

/-- What properties of traces and buffers look at. -/
def World.core (w : World) :=
  (w.trace, w.shared.state, w.shared.out, w.shared.fd, w.info)

/-- What an input comes to: nothing that these properties look at, the resolver's answer, or
an event for an open connection. -/
inductive Moved (cfg : Configs) (w : World) : Input → Option Fault → World → Prop where
  | idle {i : Input} {f : Option Fault} {w' : World} (hcore : w'.core = w.core)
      (hreg : Open w → ∀ fd, w.Registered fd → w'.Registered fd) : Moved cfg w i f w'
  | answered {gaiRet : Int} {res : List AddrInfo} (hdns : w.dns = .requested) :
      Moved cfg w (.resolved gaiRet res) none (w.answered gaiRet (if gaiRet = 0 then res else []))
  | handled {ans : Answers} {rest : List Event} {fd : Int} {e : Side} {ev : Events}
      {f : Option Fault} {w' : World} (hpending : w.pending = .peer fd (some e) ev :: rest)
      (hw : Open (w.taken rest ans)) (hd : w.mem (.data e) = .live)
      (h : Handled cfg (w.taken rest ans) e ev f w')
      (hwant : w' = w.taken rest ans ∨ w.Wants e ev) : Moved cfg w (.handle ans) f w'
  | resumed {ans : Answers} {rest : List Event} {gaiRet : Int} {f : Option Fault} {w' : World}
      (hpending : w.pending = .resolver :: rest) (hw : Open (w.taken rest ans))
      (hdns : w.dns = .answered gaiRet)
      (h : WaitingCommand cfg ((w.taken rest ans).resumed gaiRet) .client epollIn f w') :
      Moved cfg w (.handle ans) f w'

/-- What is sent to the server changes no registration. -/
theorem World.arrived_interest (w : World) (fd : Int) (bytes : List UInt8) :
    ∃ fds, w.arrived fd bytes = { w with fds := fds } ∧
      ∀ fd', (fds fd').map Sock.interest = (w.fds fd').map Sock.interest := by
  unfold World.arrived
  cases hfd : w.fds fd with
  | none => exact ⟨w.fds, rfl, fun _ => rfl⟩
  | some sk =>
    by_cases hfin : sk.fin = true
    · exact ⟨w.fds, by simp [hfin], fun _ => rfl⟩
    · refine ⟨_, by dsimp only; rw [if_neg hfin]; rfl, fun fd' => ?_⟩
      by_cases heq : fd' = fd
      · subst heq
        simp [hfd]
      · simp [heq]

theorem World.finished_interest (w : World) (fd : Int) :
    ∃ fds, w.finished fd = { w with fds := fds } ∧
      ∀ fd', (fds fd').map Sock.interest = (w.fds fd').map Sock.interest := by
  refine ⟨_, rfl, fun fd' => ?_⟩
  by_cases heq : fd' = fd
  · subst heq
    cases hfd : w.fds fd' <;> simp
  · simp [heq]

theorem World.Registered.outside {w : World} {fd : Int} {fds : Int → Option Sock}
    (h : w.Registered fd)
    (hfds : ∀ fd, (fds fd).map Sock.interest = (w.fds fd).map Sock.interest) :
    { w with fds := fds }.Registered fd := by
  obtain ⟨sk, i, hsk, hi⟩ := h
  have hsame := hfds fd
  rw [hsk, Option.map_some, Option.map_eq_some_iff] at hsame
  obtain ⟨sk', hsk', hi'⟩ := hsame
  exact ⟨sk', i, hsk', hi'.trans hi⟩

theorem World.core_arrived (w : World) (fd : Int) (bytes : List UInt8) :
    (w.arrived fd bytes).core = w.core := by
  unfold World.arrived
  split
  · split <;> rfl
  · rfl

section Rules

variable {cfg : Configs} {E : Fault → World → Prop} {w : World} {e : Side} {ev : Events}

theorem wp_socks5 {Q : Unit → World → Prop} (hw : Open w) (hd : w.mem (.data e) = .live)
    (h : ∀ f w', Handled cfg w e ev f w' → Ends Q E f w') : wp (socks5 cfg e ev) Q E w := by
  rw [socks5, wp_bind, wp_dataShared _ hd hw.shared]
  cases hstate : w.shared.state with
  | noState => simpa [fullUdpa] using h _ _ (.still (by simp [hstate]))
  | waitingMethods => exact wp_waitingMethods hw hd fun w' hr => h _ _ (.waitingMethods hstate hr)
  | sendingMethod => exact wp_sendingMethod hw hd fun w' hr => h _ _ (.sendingMethod hstate hr)
  | authenticating => simpa [fullUdpa] using h _ _ (.still (by simp [hstate]))
  | waitingCommand =>
    exact wp_waitingCommand hw hd fun f w' hr => h _ _ (.waitingCommand hstate hr)
  | asyncDns => simpa [fullUdpa] using h _ _ (.still (by simp [hstate]))
  | sendingReply =>
    exact wp_sendingReply hw hd fun w' hr => h _ _ (.sendingReply (.inl hstate) hr)
  | sendingReply2 =>
    exact wp_sendingReply hw hd fun w' hr => h _ _ (.sendingReply (.inr hstate) hr)
  | connecting => exact wp_connecting hw hd fun w' hr => h _ _ (.connecting hstate hr)
  | bindListening => exact wp_bindListening hw hd fun w' hr => h _ _ (.bindListening hstate hr)
  | full =>
    cases hout : ev.epollout with
    | true => exact wp_full_send hw hd hout fun w' hr => h _ _ (.full hstate hr)
    | false => exact wp_full_recv hw hd hout fun w' hr => h _ _ (.full hstate hr)
  | fullUdpa => simpa [fullUdpa] using h _ _ (.still (by simp [hstate]))
  | halfClose => exact wp_halfClose hw hd (h _ _ (.halfClose hstate))
  | closed => exact wp_closed (hw.releasable hd) (h _ _ (.closed hstate))

theorem Handled.handlerOf {f : Option Fault} {w' : World} (h : Handled cfg w e ev f w') :
    HandlerOf cfg w e ev f w' w.shared.state := by
  cases h with
  | still hstate => rcases hstate with hs | hs | hs | hs <;> simp [hs, HandlerOf]
  | sendingReply hstate h => rcases hstate with hs | hs <;> simpa [hs, HandlerOf]
  | waitingCommand hstate h => simpa [hstate, HandlerOf]
  | waitingMethods hstate h => simpa [hstate, HandlerOf]
  | sendingMethod hstate h => simpa [hstate, HandlerOf]
  | connecting hstate h => simpa [hstate, HandlerOf]
  | bindListening hstate h => simpa [hstate, HandlerOf]
  | full hstate h => simpa [hstate, HandlerOf]
  | halfClose hstate => simp [hstate, HandlerOf]
  | closed hstate => simp [hstate, HandlerOf]

/-- An event that the state has no use for. -/
theorem handled_unwanted (h : ¬ w.Wants e ev) : Handled cfg w e ev none w := by
  have hin : ¬ (ev.epollin = true ∧ e = .client) → ev.epollin = false ∨ e = .server := by
    cases e <;> simp
  have hout : ¬ (ev.epollout = true ∧ e = .client) → ev.epollout = false ∨ e = .server := by
    cases e <;> simp
  have hout' : ¬ (ev.epollout = true ∧ e = .server) → ev.epollout = false ∨ e = .client := by
    cases e <;> simp
  have hin' : ¬ (ev.epollin = true ∧ e = .server) → ev.epollin = false ∨ e = .client := by
    cases e <;> simp
  unfold World.Wants at h
  split at h
  · rename_i hs
    exact .waitingMethods hs (.idle (hin h))
  · rename_i hs
    exact .waitingCommand hs (.idle (hin h))
  · rename_i hs
    exact .sendingMethod hs (.idle (hout h))
  · rename_i hs
    exact .sendingReply (.inl hs) (.idle (hout h))
  · rename_i hs
    exact .sendingReply (.inr hs) (.idle (hout h))
  · rename_i hs
    exact .connecting hs (.idle (hout' h))
  · rename_i hs
    exact .bindListening hs (.idle (hin' h))
  · exact absurd trivial h

theorem wp_socks5_unwanted {Q : Unit → World → Prop} (hw : Open w) (hd : w.mem (.data e) = .live)
    (h : ¬ w.Wants e ev) (hQ : Q () w) : wp (socks5 cfg e ev) Q E w := by
  rw [socks5, wp_bind, wp_dataShared _ hd hw.shared]
  have hclient := hw.guard_client hd
  have hserver := hw.guard_server hd
  unfold World.Wants at h
  split at h <;> rename_i hs
  all_goals first
    | exact absurd trivial h
    | (simp only [hs, waitingMethods, waitingCommand, sendingMethod, sendingReply, connecting,
        bindListening, wp_bind, wp_dataShared _ hd hw.shared, wp_dataSelfFd _ hd, wp_ite, wp_pure]
       refine ⟨fun _ => hQ, fun hgo => absurd ?_ hgo⟩
       first
         | (refine (hclient _).mpr ?_; cases e <;> simp_all)
         | (refine (hserver _).mpr ?_; cases e <;> simp_all))

theorem Open.taken (hw : Open w) (rest : List Event) (ans : Answers) : Open (w.taken rest ans) :=
  hw.frame rfl id

theorem Open.resumed (hw : Open w) (gaiRet : Int) : Open (w.resumed gaiRet) := hw.frame rfl id

theorem Shut.taken (hw : Shut w) (rest : List Event) (ans : Answers) : Shut (w.taken rest ans) where
  fd_ne := hw.fd_ne
  self := hw.self
  ptr := hw.ptr
  state := hw.state
  info := hw.info
  outBuff := hw.outBuff
  shared := hw.shared

/-- The handler of a connection that was shut is `closed`. -/
theorem wp_socks5_shut {Q : Unit → World → Prop} (hw : Shut w) (hd : w.mem (.data e) = .live)
    (h : Q () (w.released e)) : wp (socks5 cfg e ev) Q E w := by
  rw [socks5, wp_bind, wp_dataShared _ hd (hw.shared e hd)]
  simp only [hw.state]
  exact wp_closed (hw.releasable hd) h

theorem wp_dispatch {event : Event} {Q : Unit → World → Prop} (hconn : Open w ∨ Shut w)
    (hdns : w.dns ≠ .idle → Open w)
    (h : ∀ f w', Dispatched cfg w event f w' → Ends Q E f w') : wp (dispatch cfg event) Q E w := by
  cases event with
  | peer fd ptr ev =>
    cases ptr with
    | none => simpa [dispatch] using h _ _ .ignored
    | some e =>
      by_cases hd : w.mem (.data e) = .live
      · rw [dispatch, wp_bind, wp_touch _ hd]
        cases hev : ev.epollin || ev.epollout with
        | false => simpa using h _ _ (.masked hd hev)
        | true =>
          rw [if_pos rfl]
          rcases hconn with hw | hw
          · by_cases hwant : w.Wants e ev
            · exact wp_socks5 hw hd fun f w' hh => h _ _ (.handled hw hd hh (.inr hwant))
            · exact wp_socks5_unwanted hw hd hwant
                (h _ _ (.handled hw hd (handled_unwanted hwant) (.inl rfl)))
          · exact wp_socks5_shut hw hd (h _ _ (.shut hw hd))
      · rw [dispatch, wp_bind, wp_touch_dead _ hd]
        exact h _ _ (.stale hd)
  | resolver =>
    rw [dispatch, resolveRet, wp_bind, wp_get]
    cases hans : w.dns with
    | idle => simpa using h _ _ (.quiet (by simp [hans]))
    | requested => simpa using h _ _ (.quiet (by simp [hans]))
    | answered gaiRet =>
      have hw := hdns (by simp [hans])
      have hw' := hw.resumed gaiRet
      simp only [wp_bind, wp_sharedInfo _ hw.shared hw.infoPtr hw.info, wp_modify,
        wp_sharedVal _ hw'.shared, hw'.data_client]
      have hstate : (w.resumed gaiRet).shared.state = .waitingCommand := rfl
      rw [socks5, wp_bind, wp_dataShared _ hw'.client hw'.shared]
      simp only [hstate]
      exact wp_waitingCommand hw' hw'.client fun f w' hc => h _ _ (.resolver hw hans hc)

/-- Every input comes to one of these, and only a handler that met a released object
faults. -/
theorem wp_step {i : Input} {Q : Unit → World → Prop} (hw : Sound w)
    (h : ∀ f w', Stepped cfg w i f w' → Ends Q E f w') : wp (step cfg i) Q E w := by
  cases i with
  | arrive fd bytes => simpa [step] using h _ _ .arrive
  | finish fd => simpa [step] using h _ _ .finish
  | resolved gaiRet res =>
    rw [step, resolverTh, wp_bind, wp_get]
    by_cases hdns : w.dns = .requested
    · obtain ⟨hopen, -⟩ := hw.dns (by simp [hdns])
      simpa [hdns, hopen] using h _ _ (.resolved hdns)
    · simpa [hdns] using h _ _ (.unasked hdns)
  | poll batch =>
    rw [step, wp_modify]
    split
    · rename_i hok
      exact h _ _ (.polled hok.1 hok.2)
    · exact h _ _ .unpolled
  | handle ans =>
    rw [step, wp_bind, wp_get]
    cases hpending : w.pending with
    | nil => simpa using h _ _ (.waiting hpending)
    | cons ev rest =>
      rw [wp_bind, wp_modify]
      refine wp_dispatch (hw.conn.imp (·.taken rest ans) (·.taken rest ans)) (fun hdns => ?_)
        fun f w' hd => h _ _ (.handled hpending hd)
      exact (hw.dns hdns).1.taken rest ans

/-- An event for an end of an open connection goes to the handler of the state. -/
theorem Stepped.peer {ans : Answers} {fd : Int} {rest : List Event} {f : Option Fault} {w' : World}
    (hw : Open w) (hpending : w.pending = .peer fd (some e) ev :: rest)
    (hd : w.mem (.data e) = .live) (hev : (ev.epollin || ev.epollout) = true)
    (h : Stepped cfg w (.handle ans) f w') : Handled cfg (w.taken rest ans) e ev f w' := by
  cases h with
  | waiting hnone => simp [hnone] at hpending
  | @handled _ event rest' _ _ hpending' hdis =>
    obtain ⟨rfl, rfl⟩ : event = .peer fd (some e) ev ∧ rest' = rest := by
      simpa [hpending'] using hpending
    cases hdis with
    | stale hgone => exact absurd hd hgone
    | masked hd hno => simp [hev] at hno
    | handled hw hd hh hwant => exact hh
    | shut hshut hd => exact absurd hshut (hw.taken rest' ans).not_shut

theorem Stepped.moved {i : Input} {f : Option Fault} {w' : World} (h : Stepped cfg w i f w') :
    Moved cfg w i f w' := by
  cases h with
  | @arrive fd bytes =>
    obtain ⟨fds, heq, hfds⟩ := w.arrived_interest fd bytes
    refine .idle (World.core_arrived _ _ _) fun _ fd' hreg => ?_
    rw [heq]
    exact hreg.outside hfds
  | @finish fd =>
    obtain ⟨fds, heq, hfds⟩ := w.finished_interest fd
    refine .idle rfl fun _ fd' hreg => ?_
    rw [heq]
    exact hreg.outside hfds
  | unasked hdns => exact .idle rfl fun _ _ h => h
  | resolved hdns => exact .answered hdns
  | unpolled => exact .idle rfl fun _ _ h => h
  | polled hpending hlegal => exact .idle rfl fun _ _ h => h
  | waiting hpending => exact .idle rfl fun _ _ h => h
  | handled hpending h =>
    cases h with
    | ignored => exact .idle rfl fun _ _ h => h
    | stale hgone => exact .idle rfl fun _ _ h => h
    | masked hd hev => exact .idle rfl fun _ _ h => h
    | handled hw hd h hwant => exact .handled hpending hw hd h hwant
    | @shut fd e ev hw hd =>
      exact .idle rfl fun hopen => absurd hw (hopen.taken _ _).not_shut
    | quiet hdns => exact .idle rfl fun _ _ h => h
    | resolver hw hdns h => exact .resumed hpending hw hdns h

end Rules

end Socksprox
