import Socksprox.Run.Wakeup

/-!
The relayed streams. Each end's buffer stands between what was received from the other end and
what is sent to it.
-/

namespace Socksprox

/-! ### The acts of a state -/

/-- What the connection did since its state changed last. -/
def sinceState (trace : List Act) : List Act :=
  (trace.reverse.takeWhile fun a => a.state?.isNone).reverse

@[simp] theorem sinceState_state (trace : List Act) (st : State) :
    sinceState (trace ++ [.state st]) = [] := by
  simp [sinceState, Act.state?]

theorem sinceState_concat {a : Act} (trace : List Act) (ha : a.state? = none) :
    sinceState (trace ++ [a]) = sinceState trace ++ [a] := by
  simp [sinceState, ha]

theorem sinceState_append {acts : List Act} (trace : List Act)
    (hacts : ∀ a ∈ acts, a.state? = none) :
    sinceState (trace ++ acts) = sinceState trace ++ acts := by
  induction acts generalizing trace with
  | nil => simp
  | cons a rest ih =>
    have hrest := ih (trace ++ [a]) fun b hb => hacts b (List.mem_cons_of_mem a hb)
    rw [List.append_cons, hrest, sinceState_concat _ (hacts a List.mem_cons_self)]
    simp

theorem World.queue_bytesFrom_since (w : World) (s : Side) (bytes : List UInt8) (fd : Int) :
    bytesFrom fd (sinceState (w.queue s bytes).trace) = bytesFrom fd (sinceState w.trace) := by
  unfold World.queue
  split
  · show bytesFrom fd (sinceState (w.trace ++ [.queued s bytes])) = _
    rw [sinceState_concat _ rfl]
    simp [Act.bytesFrom]
  · rfl

theorem World.queue_bytesTo_since (w : World) (s : Side) (bytes : List UInt8) (fd : Int) :
    bytesTo fd (sinceState (w.queue s bytes).trace) = bytesTo fd (sinceState w.trace) := by
  unfold World.queue
  split
  · show bytesTo fd (sinceState (w.trace ++ [.queued s bytes])) = _
    rw [sinceState_concat _ rfl]
    simp [Act.bytesTo]
  · rfl

/-! ### The streams -/

/-- What was sent to an end and what its buffer holds is what was received from the other end, in
order. -/
def World.IntactTo (w : World) (s : Side) : Prop :=
  bytesTo (w.shared.fd s) (sinceState w.trace) ++ (w.shared.out s).contents =
    bytesFrom (w.shared.fd s.peer) (sinceState w.trace)

/-- What was sent to each end and what its buffer holds is what was received from the other
end, in order. -/
def World.Intact (w : World) : Prop := ∀ s, w.IntactTo s

instance (w : World) : Decidable w.Intact := inferInstanceAs (Decidable (∀ _, _ = _))

/-- What a receiving event of the relay receives fits behind what the other end's buffer
holds. -/
def ReadsFit (w : World) : Input → Prop
  | .handle ans => match w.pending with
    | .peer _ (some e) ev :: rest =>
      w.shared.state = .full → ev.epollin = true → ev.epollout = false →
        ((w.taken rest ans).readable (w.selfFd e) 1024).length ≤ (w.shared.out e.peer).free
    | _ => True
  | _ => True

instance (w : World) : DecidablePred (ReadsFit w)
  | .handle ans => match h : w.pending with
    | .peer _ (some e) ev :: rest =>
      decidable_of_iff (w.shared.state = .full → ev.epollin = true → ev.epollout = false →
        ((w.taken rest ans).readable (w.selfFd e) 1024).length ≤ (w.shared.out e.peer).free)
        (by simp [ReadsFit, h])
    | [] => .isTrue (by simp [ReadsFit, h])
    | .resolver :: _ => .isTrue (by simp [ReadsFit, h])
    | .peer _ none _ :: _ => .isTrue (by simp [ReadsFit, h])
  | .arrive .. | .finish _ | .resolved .. | .poll _ => .isTrue trivial

/-- The step is a receiving event of the end `s`. -/
def World.ReadsFrom (w : World) (s : Side) : Input → Prop
  | .handle _ => match w.pending with
    | .peer _ (some e) _ :: _ => e = s
    | _ => False
  | _ => False

instance (w : World) (s : Side) : DecidablePred (w.ReadsFrom s)
  | .handle _ => match h : w.pending with
    | .peer _ (some e) _ :: _ => decidable_of_iff (e = s) (by simp [World.ReadsFrom, h])
    | [] => .isFalse (by simp [World.ReadsFrom, h])
    | .resolver :: _ => .isFalse (by simp [World.ReadsFrom, h])
    | .peer _ none _ :: _ => .isFalse (by simp [World.ReadsFrom, h])
  | .arrive .. | .finish _ | .resolved .. | .poll _ => .isFalse (by simp [World.ReadsFrom])

section Relay

variable {cfg : Configs} {w w' : World} {e s : Side} {ev : Events} {f : Option Fault}

theorem World.IntactTo.congr (h : w.IntactTo s) (hfd : w'.shared.fd = w.shared.fd)
    (hout : w'.shared.out = w.shared.out) (htrace : w'.trace = w.trace) : w'.IntactTo s := by
  unfold World.IntactTo
  rw [hfd, hout, htrace]
  exact h

/-- When a state is entered with the buffer empty, nothing was received yet. -/
theorem World.IntactTo.entered {before : List Act} {st : State}
    (htrace : w.trace = before ++ [.state st]) (hempty : (w.shared.out s).contents = []) :
    w.IntactTo s := by
  simp [World.IntactTo, htrace, hempty]

/-- Sending takes bytes from the front of the buffer. -/
theorem World.IntactTo.sentTo (hw : Open w) (hd : ∀ s, w.mem (.data s) = .live)
    (h : w.IntactTo s) (k : Nat) : (w.sentTo e k).IntactTo s := by
  unfold World.IntactTo at h ⊢
  have hself : w.selfFd e = w.shared.fd e := hw.self e (hd e)
  have hne := hw.self_ne_peer hd e
  rw [hself, hw.self _ (hd _)] at hne
  have htrace : (w.sentTo e k).trace =
      w.trace ++ [.sent (w.shared.fd e) ((w.shared.out e).contents.take k)] := by
    simp [hself]
  rw [htrace, sinceState_concat _ rfl]
  rcases s.eq_or_peer e with rfl | rfl
  · simp [Act.bytesTo, Act.bytesFrom, h]
  · simpa [Act.bytesTo, Act.bytesFrom, e.peer_ne, hne.symm] using h

/-- What was received goes behind what is in the other end's buffer. The stream to `s` needs room
only for what comes from its peer. -/
theorem World.IntactTo.received {bytes : List UInt8} {w₁ : World} (hw : Open w)
    (hd : ∀ s, w.mem (.data s) = .live) (h : w.IntactTo s)
    (hrecv : Recv w (w.selfFd e) 1024 (some bytes) w₁) (hne : bytes ≠ [])
    (hfit : e = s.peer → bytes.length ≤ (w.shared.out s).free) :
    (w₁.queue e.peer bytes).IntactTo s := by
  unfold World.IntactTo at h ⊢
  have hself : w.selfFd e = w.shared.fd e := hw.self e (hd e)
  have hpeer := hw.self_ne_peer hd e
  rw [hself, hw.self _ (hd _)] at hpeer
  cases hrecv with
  | zero hn => exact absurd rfl hne
  | ended hsk hempty hfin => exact absurd rfl hne
  | @data sk _ rest hsk hinbox _ hle =>
    have htrace : (w.received (w.selfFd e) bytes rest).trace =
        w.trace ++ [.recv (w.shared.fd e) bytes] := by
      simp [hself]
    rw [World.queue_bytesTo_since, World.queue_bytesFrom_since, htrace, sinceState_concat _ rfl]
    rcases s.eq_or_peer e with rfl | rfl
    · have hout : (((w.received (w.selfFd s) bytes rest).queue s.peer bytes).shared.out s) =
          w.shared.out s := World.queue_out_ne _ _ _ s.peer_ne.symm
      simpa [Act.bytesTo, Act.bytesFrom, hout, hpeer.symm] using h
    · have hpp : e.peer.peer = e := by cases e <;> rfl
      have hout :
          (((w.received (w.selfFd e) bytes rest).queue e.peer bytes).shared.out e.peer).contents =
            (w.shared.out e.peer).contents ++ bytes :=
        World.queue_contents (by exact hfit hpp.symm)
      rw [hout]
      rw [hpp] at h
      simp [Act.bytesTo, Act.bytesFrom, hpp, ← h]

theorem Full.intactTo (hw : Open w) (hd : ∀ s, w.mem (.data s) = .live) (h : w.IntactTo s)
    (hfit : e = s.peer → ev.epollin = true → ev.epollout = false →
      (w.readable (w.selfFd e) 1024).length ≤ (w.shared.out e.peer).free)
    (hf : Full w e ev w') (hfull : w'.shared.state = .full) : w'.IntactTo s := by
  cases hf with
  | idle hidle => exact h
  | sendFailed hout => cases hfull
  | sentPart hout hk => exact h.sentTo hw hd _
  | @drained r w₁ hout hmod =>
    have hsent : (w.sentTo e (w.shared.out e).used).IntactTo s := h.sentTo hw hd _
    cases hmod with
    | done hmod hreg => exact hsent.congr rfl rfl rfl
    | failed hmod => cases hfull
  | ended hin hout hrecv hr hmod =>
    rw [hmod.shared] at hfull
    cases hfull
  | received hin hout hrecv hne hmod =>
    have hreceived := h.received hw hd hrecv hne fun he => by
      have hpeer : e.peer = s := by rw [he]; cases s <;> rfl
      have hroom := hfit he hin hout
      rwa [← hrecv.readable, hpeer] at hroom
    cases hmod with
    | done hmod hreg => exact hreceived.congr rfl rfl rfl
    | failed hmod => exact hreceived.congr rfl rfl rfl

/-- The step lemma: the relay is entered with nothing received and nothing buffered, and each of
its events keeps the stream to `s`, when what is received from the other end fits. -/
theorem World.IntactTo.stepped {i : Input} (hs : Sane w)
    (h : w.shared.state = .full → w.IntactTo s) (hfit : w.ReadsFrom s.peer i → ReadsFit w i)
    (hstep : Stepped cfg w i f w') (hfull : w'.shared.state = .full) : w'.IntactTo s := by
  by_cases hsame : w.shared.state = .full
  · have hintact := h hsame
    cases hstep.moved with
    | idle hcore =>
      simp only [World.core, Prod.mk.injEq] at hcore
      exact hintact.congr hcore.2.2.2.1 hcore.2.2.1 hcore.1
    | answered hdns => exact hintact.congr rfl rfl rfl
    | @handled ans rest fd e ev _ _ hpending hw hd hh hwant =>
      have hp := (hs.taken hpending ans).phase hw
      have hlive : ∀ s, w.mem (.data s) = .live := fun s => by
        cases s with
        | client => exact hw.client
        | server => exact hp.server (.inr (.inl hsame))
      have htaken : (w.taken rest ans).IntactTo s := hintact.congr rfl rfl rfl
      simp only [ReadsFit, World.ReadsFrom, hpending] at hfit
      cases hh with
      | full hstate hf => exact hf.intactTo hw hlive htaken (fun he => hfit he hsame) hfull
      | still hstate => exact htaken
      | closed hstate => exact htaken.congr rfl rfl rfl
      | _ => simp_all
    | resumed hpending hw hdns hc =>
      have hasync := (hs.dns (by simp [hdns])).2
      rw [hsame] at hasync
      cases hasync
  · obtain ⟨rest, ans, e, ev, htaken, hopen, hreplying, hreply⟩ :=
      hstep.entered hs (.inl hfull) fun heq => hsame (heq.trans hfull)
    obtain ⟨hclient, hserver⟩ := hreply.empty (htaken.phase hopen) hreplying
      (fun heq => hsame (heq.trans hfull)) (.inl hfull)
    have hempty : (w'.shared.out s).contents = [] := by
      cases s with
      | client => exact hclient
      | server => exact hserver
    cases hreply with
    | idle hidle => exact absurd hfull hsame
    | stopped hstop =>
      cases hstop with
      | failed => cases hfull
      | part hk => exact absurd hfull hsame
      | unwatched hmod => cases hfull
    | refused hmod hrep => cases hfull
    | connected hmod hrep hcmd => exact .entered rfl hempty
    | listening hmod hrep hcmd hstate => cases hfull
    | associated hmod hrep hcmd => cases hfull
    | odd hmod hrep hcmd hbind => exact absurd hfull hsame

/-- **The relay keeps the streams while its buffers have room.** In every run in which each
receiving event of the relay has room for what it receives, at every moment of the relay what
was sent to an end and what its buffer holds is what was received from the other end. -/
theorem relay_intact {fd : Int} {ss : SockAddr} {bufs : Side → OutBuff} {mallocs epollAdd : Bool}
    {w₀ : World} {is : List Input} (hw₀ : acceptNewClient fd ss bufs mallocs epollAdd = some w₀)
    (hmeets : Lib.Meets (step cfg) ReadsFit is w₀)
    (hfull : (Lib.run (step cfg) is w₀).state.shared.state = .full) :
    (Lib.run (step cfg) is w₀).state.Intact := by
  have hsane := acceptNewClient_sane hw₀
  obtain ⟨-, rfl⟩ := acceptNewClient_eq hw₀
  exact run_invariant (C := ReadsFit) (P := fun v => v.shared.state = .full → v.Intact) hsane
    (fun hfull => by cases hfull) hmeets
    (fun hs h hfit hstep hfull s =>
      World.IntactTo.stepped hs (fun hsame => h hsame s) (fun _ => hfit) hstep hfull) hfull

end Relay

theorem relay_intact_part :
    (Lib.run (step openConfigs) (literalConnect ++ connectDone ++ relayPart)
      (newClient 5 (.inet ![4, 0] ![127, 0, 0, 1]) fun _ => .zero)).state.Intact := by
  have haccept : acceptNewClient 5 (.inet ![4, 0] ![127, 0, 0, 1]) (fun _ => .zero) true true =
      some (newClient 5 (.inet ![4, 0] ![127, 0, 0, 1]) fun _ => .zero) := rfl
  have hrun : Lib.Meets (step openConfigs) ReadsFit (literalConnect ++ connectDone ++ relayPart)
        (newClient 5 (.inet ![4, 0] ![127, 0, 0, 1]) fun _ => .zero) ∧
      (Lib.run (step openConfigs) (literalConnect ++ connectDone ++ relayPart)
        (newClient 5 (.inet ![4, 0] ![127, 0, 0, 1]) fun _ => .zero)).state.shared.state =
          .full := by
    decide +kernel
  exact relay_intact haccept hrun.1 hrun.2

/-- The server sends five times what one receive of the relay takes, to a client that takes
nothing. -/
def relayOverrun : List Input :=
  .arrive 6 (List.replicate 5120 0) ::
    (List.replicate 5 [.poll [.peer 6 (some .server) epollIn],
      .handle { Answers.idle with recv := some 1024 }]).flatten

/-- The fifth kilobyte does not fit, and is gone. -/
theorem relay_not_intact :
    ¬ ∀ (cfg : Configs) (fd : Int) (ss : SockAddr) (bufs : Side → OutBuff)
      (mallocs epollAdd : Bool) (w₀ : World) (is : List Input),
      acceptNewClient fd ss bufs mallocs epollAdd = some w₀ →
        (Lib.run (step cfg) is w₀).state.shared.state = .full →
        (Lib.run (step cfg) is w₀).state.Intact := by
  intro h
  have hrun : ∃ w, (Lib.run (step openConfigs) (literalConnect ++ connectDone ++ relayOverrun)
        (newClient 5 (.inet ![4, 0] ![127, 0, 0, 1]) fun _ => .zero)).state = w := ⟨_, rfl⟩
  obtain ⟨w, hw⟩ := hrun
  have hlost : w.shared.state = .full ∧ w.shared.fd .client = 5 ∧ w.shared.fd .server = 6 ∧
      (w.shared.out .client).used = 4096 ∧ (bytesTo 5 (sinceState w.trace)).length = 0 ∧
      (bytesFrom 6 (sinceState w.trace)).length = 5120 := by
    rw [← hw]
    decide +kernel
  obtain ⟨hfull, hclient, hserver, hused, hsent, hreceived⟩ := hlost
  have hintact := h openConfigs 5 (.inet ![4, 0] ![127, 0, 0, 1]) (fun _ => .zero) true true _
    (literalConnect ++ connectDone ++ relayOverrun) rfl (by rwa [hw]) .client
  rw [hw] at hintact
  have hlen := congrArg List.length hintact
  rw [List.length_append, Ring.contents_length, hclient, show Side.client.peer = .server from rfl,
    hserver, hused, hsent, hreceived] at hlen
  cases hlen

end Socksprox
