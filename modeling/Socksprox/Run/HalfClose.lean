import Socksprox.Run.Relay

/-!
The end of the relay. When one stream is at its end the relay stops at once: what is buffered
then is never sent, and what arrives afterwards is never received.
-/

namespace Socksprox

/-! ### The end of a stream -/

/-- The input handles a receiving event of the relay on the end `e`, and the receive finds that
stream at its end. -/
def World.readsEof (w : World) (e : Side) : Input → Bool
  | .handle ans => match w.pending with
    | .peer _ (some s) ev :: _ =>
      s == e && w.shared.state == .full && ev.epollin && !ev.epollout && ans.recv.isSome &&
        (w.fds (w.selfFd e)).any fun sk => sk.inbox.isEmpty && sk.fin
    | _ => false
  | _ => false

/-- The descriptor of an end is open and its buffer there. -/
def World.Reaches (w : World) (s : Side) : Prop :=
  w.fds (w.shared.fd s) ≠ none ∧ w.mem (.buff s) = .live

/-- What an input after the end of `e`'s stream must not lose: what is buffered for an end, while
no send to it failed, and what the other end sent. -/
structure World.Keeps (w w' : World) (e : Side) : Prop where
  buffered : ∀ s, w.Reaches s → ¬ w'.Reaches s →
    (w.shared.out s).contents = [] ∨ .sendFailed (w.shared.fd s) ∈ w.trace
  unread : ∀ sk, w.fds (w.shared.fd e.peer) = some sk → w'.fds (w.shared.fd e.peer) = none →
    sk.inbox = []

theorem World.Keeps.refl (w : World) (e : Side) : w.Keeps w e where
  buffered := fun _ h hnot => absurd h hnot
  unread := fun sk hsk hnone => by
    rw [hsk] at hnone
    cases hnone

/-- The relay is over. -/
def State.ending : State → Bool
  | .halfClose | .closed => true
  | _ => false

/-- A stream ends when nothing is buffered and the other end has nothing unread, and nothing
arrives after that. -/
def EndsQuietly (w : World) : Input → Prop
  | .handle ans => ∀ e, w.readsEof e (.handle ans) = true →
      (∀ s, (w.shared.out s).contents = []) ∧
        ((w.fds (w.shared.fd e.peer)).all fun sk => sk.inbox.isEmpty) = true
  | .arrive fd bytes => w.shared.state.ending = true →
      ((w.fds fd).all fun sk => sk.fin || bytes.isEmpty) = true
  | _ => True

instance (w : World) : DecidablePred (EndsQuietly w)
  | .handle ans => inferInstanceAs (Decidable (∀ e, w.readsEof e (.handle ans) = true → _ ∧ _))
  | .arrive .. => inferInstanceAs (Decidable (_ = true → _ = true))
  | .finish _ | .resolved .. | .poll _ => .isTrue trivial

/-! ### After it -/

/-- The stream of `e` was read to its end when there was nothing to lose, and nothing came
since. -/
structure World.Spent (e : Side) (w : World) : Prop where
  ending : w.shared.state.ending = true
  empty : ∀ s, (w.shared.out s).contents = []
  unread : ∀ sk, w.fds (w.shared.fd e.peer) = some sk → sk.inbox = []

section Spent

variable {cfg : Configs} {w w' : World} {e : Side} {f : Option Fault} {i : Input}

theorem World.Spent.keeps (h : w.Spent e) (w' : World) : w.Keeps w' e :=
  ⟨fun s _ _ => .inl (h.empty s), fun sk hsk _ => h.unread sk hsk⟩

theorem World.Spent.congr (h : w.Spent e) (hending : w'.shared.state.ending = true)
    (hout : w'.shared.out = w.shared.out) (hfd : w'.shared.fd = w.shared.fd)
    (hfds : ∀ fd sk', w'.fds fd = some sk' →
      ∃ sk, w.fds fd = some sk ∧ (sk.inbox = [] → sk'.inbox = [])) :
    w'.Spent e where
  ending := hending
  empty := by rw [hout]; exact h.empty
  unread := by
    intro sk' hsk'
    rw [hfd] at hsk'
    obtain ⟨sk, hsk, hinbox⟩ := hfds _ sk' hsk'
    exact hinbox (h.unread sk hsk)

theorem World.Spent.released (h : w.Spent e) (s : Side) : (w.released s).Spent e := by
  refine h.congr h.ending rfl rfl fun fd sk' hsk' => ?_
  by_cases hfd : fd = w.selfFd s
  · simp [hfd] at hsk'
  · exact ⟨sk', by simpa [hfd] using hsk', id⟩

/-- Nothing is received any more, so nothing new has to be sent. -/
theorem World.Spent.stepped (hs : Sane w) (h : w.Spent e) (hquiet : EndsQuietly w i)
    (hstep : Stepped cfg w i f w') : w'.Spent e := by
  have hidle : w.dns = .idle := not_not.mp fun hne => by
    have hasync := (hs.dns hne).2
    have hending := h.ending
    rw [hasync] at hending
    cases hending
  cases hstep with
  | @arrive fd bytes =>
    have hnone := hquiet h.ending
    unfold World.arrived
    cases hfd : w.fds fd with
    | none => exact h
    | some sk =>
      by_cases hfin : sk.fin = true
      · simpa [hfin] using h
      · have hbytes : bytes = [] := by simpa [hfd, hfin] using hnone
        simp only [hfin, Bool.false_eq_true, if_false, hbytes, List.append_nil]
        refine h.congr h.ending rfl rfl fun fd' sk' hsk' => ?_
        by_cases heq : fd' = fd
        · subst heq
          obtain rfl : _ = sk' := by simpa using hsk'
          exact ⟨sk, hfd, id⟩
        · exact ⟨sk', by simpa [heq] using hsk', id⟩
  | @finish fd =>
    refine h.congr h.ending rfl rfl fun fd' sk' hsk' => ?_
    by_cases heq : fd' = fd
    · subst heq
      cases hfd : w.fds fd' with
      | none => simp [World.finished, hfd] at hsk'
      | some sk =>
        obtain rfl : _ = sk' := by simpa [World.finished, hfd] using hsk'
        exact ⟨sk, rfl, id⟩
    · exact ⟨sk', by simpa [World.finished, heq] using hsk', id⟩
  | unasked hdns => exact h
  | resolved hdns =>
    rw [hidle] at hdns
    cases hdns
  | unpolled => exact h
  | polled hpending hlegal => exact h.congr h.ending rfl rfl fun _ sk hsk => ⟨sk, hsk, id⟩
  | waiting hpending => exact h
  | @handled ans event rest _ _ hpending hd =>
    have htaken : (w.taken rest ans).Spent e :=
      h.congr h.ending rfl rfl fun _ sk hsk => ⟨sk, hsk, id⟩
    cases hd with
    | ignored => exact htaken
    | stale hgone => exact htaken
    | masked hd hev => exact htaken
    | handled hw hd hh hwant =>
      have hending := h.ending
      cases hh with
      | halfClose hstate => exact htaken.congr rfl rfl rfl fun _ sk hsk => ⟨sk, hsk, id⟩
      | closed hstate => exact htaken.released _
      | still hstate => exact htaken
      | sendingReply hstate hh => rcases hstate with hs | hs <;> simp_all [State.ending]
      | _ => simp_all [State.ending]
    | shut hw hd => exact htaken.released _
    | quiet hdns => exact htaken
    | resolver hw hdns hc =>
      have hdns' : w.dns = .answered _ := hdns
      rw [hidle] at hdns'
      cases hdns'

/-- The input that reads the end of a stream is an event of the relay, for a descriptor with
nothing more to receive. -/
theorem World.readsEof_event (h : w.readsEof e i = true) : ∃ ans fd ev rest sk, i = .handle ans ∧
    w.pending = .peer fd (some e) ev :: rest ∧ w.shared.state = .full ∧ ev.epollin = true ∧
    ev.epollout = false ∧ w.fds (w.selfFd e) = some sk ∧ sk.inbox = [] := by
  cases i with
  | handle ans =>
    rw [World.readsEof] at h
    split at h
    · rename_i fd s ev rest hpending
      simp only [Bool.and_eq_true, beq_iff_eq, Bool.not_eq_true'] at h
      obtain ⟨⟨⟨⟨⟨rfl, hfull⟩, hin⟩, hout⟩, -⟩, hend⟩ := h
      cases hsk : w.fds (w.selfFd s) with
      | none => simp [hsk] at hend
      | some sk =>
        have hempty : sk.inbox = [] ∧ sk.fin = true := by simpa [hsk] using hend
        exact ⟨ans, fd, ev, rest, sk, rfl, hpending, hfull, hin, hout, rfl, hempty.1⟩
    · exact absurd h Bool.false_ne_true
  | arrive fd bytes => exact absurd h Bool.false_ne_true
  | finish fd => exact absurd h Bool.false_ne_true
  | resolved gaiRet res => exact absurd h Bool.false_ne_true
  | poll batch => exact absurd h Bool.false_ne_true

/-- A registration does not touch what waits in a descriptor. -/
theorem Modified.inbox {fd fd' : Int} {evs : Events × Option Side} {r : Bool} {sk' : Sock}
    (h : Modified w fd evs r w') (hsk' : w'.fds fd' = some sk') :
    ∃ sk, w.fds fd' = some sk ∧ sk'.inbox = sk.inbox := by
  cases h with
  | failed hmod => exact ⟨sk', hsk', rfl⟩
  | done hmod hreg =>
    by_cases heq : fd' = fd
    · subst heq
      cases hsk : w.fds fd' with
      | none => simp [hsk] at hsk'
      | some sk =>
        obtain rfl : _ = sk' := by simpa [hsk] using hsk'
        exact ⟨sk, rfl, rfl⟩
    · exact ⟨sk', by simpa [heq] using hsk', rfl⟩

/-- It ends the relay, with nothing to lose. -/
theorem World.readsEof_spent (heof : w.readsEof e i = true) (hquiet : EndsQuietly w i)
    (hstep : Stepped cfg w i none w') : w'.Spent e := by
  obtain ⟨ans, fd, ev, rest, sk, rfl, hpending, hfull, hin, hout, hsk, hinbox⟩ :=
    World.readsEof_event heof
  obtain ⟨hempty, hunread⟩ := hquiet e heof
  cases hstep with
  | waiting hnone => simp [hpending] at hnone
  | @handled _ event rest' _ _ hpending' hd =>
    obtain ⟨rfl, rfl⟩ : Event.peer fd (some e) ev = event ∧ rest = rest' := by
      simpa [hpending] using hpending'
    cases hd with
    | masked hd hev => simp [hin] at hev
    | shut hw hd =>
      have hclosed : w.shared.state = .closed := hw.state
      rw [hfull] at hclosed
      cases hclosed
    | handled hw hd hh hwant =>
      have hfull' : (w.taken rest ans).shared.state = .full := hfull
      cases hh with
      | full hstate hf =>
        cases hf with
        | idle hidle => simp [hin] at hidle
        | sendFailed hsend => simp [hout] at hsend
        | sentPart hsend hk => simp [hout] at hsend
        | drained hsend hmod => simp [hout] at hsend
        | received _ _ hrecv hne hmod =>
          cases hrecv with
          | zero hn => exact absurd rfl hne
          | ended hsk' hempty' hfin => exact absurd rfl hne
          | data hsk' hinbox' _ hle =>
            obtain rfl : sk = _ := Option.some.inj (hsk.symm.trans hsk')
            simp [hinbox, hne] at hinbox'
        | @ended r b w₁ _ _ _ hrecv hr hmod =>
          have hkept : w₁.shared = w.shared ∧ w₁.fds = w.fds := by
            cases hrecv with
            | failed => exact ⟨rfl, rfl⟩
            | zero hn => cases hn
            | ended hsk' hempty' hfin => exact ⟨rfl, rfl⟩
            | data hsk' hinbox' hne hle => rcases hr with hr | hr <;> simp_all
          obtain ⟨hshared, hfds⟩ := hkept
          refine ⟨by rw [hmod.shared]; rfl, fun s => ?_, fun sk' hsk' => ?_⟩
          · rw [hmod.shared]
            simpa [hshared] using hempty s
          · obtain ⟨sk₁, hsk₁, hkept⟩ := hmod.inbox hsk'
            have hpeer : w'.shared.fd e.peer = w.shared.fd e.peer := by
              rw [hmod.shared]
              simp [hshared]
            have hopen : w.fds (w.shared.fd e.peer) = some sk₁ := by
              rw [← hfds, ← hpeer]
              exact hsk₁
            have hnone : sk₁.inbox = [] := by simpa [hopen] using hunread
            rw [hkept, hnone]
      | sendingReply hstate hh => rcases hstate with hs | hs <;> simp_all
      | still hstate => rcases hstate with hs | hs | hs | hs <;> simp_all
      | _ => simp_all

/-- **The end of a stream loses nothing when there is nothing left.** In every run whose streams
end with nothing buffered and nothing unread, and without arrivals after that, no input after
the end of one stream closes a descriptor or frees a buffer that still has bytes to send or
to receive. -/
theorem half_close_keeps {fd : Int} {ss : SockAddr} {bufs : Side → OutBuff}
    {mallocs epollAdd : Bool} {w₀ : World} {before after : List Input} {j : Input}
    (hw₀ : acceptNewClient fd ss bufs mallocs epollAdd = some w₀)
    (hmeets : Lib.Meets (step cfg) EndsQuietly (before ++ i :: after) w₀)
    (heof : (Lib.run (step cfg) before w₀).state.readsEof e i = true) :
    (Lib.run (step cfg) (before ++ i :: after) w₀).state.Keeps
      (Lib.run (step cfg) (before ++ i :: after ++ [j]) w₀).state e := by
  have hsane := acceptNewClient_sane hw₀
  rw [Lib.run_concat]
  cases hrun : Lib.run (step cfg) (before ++ i :: after) w₀ with
  | fault f v => exact .refl v e
  | ok a v =>
    rw [Lib.run_append] at hrun
    cases hbefore : Lib.run (step cfg) before w₀ with
    | fault f w => simp [hbefore] at hrun
    | ok a w =>
      obtain ⟨hmeets₁, hmeets₂⟩ := hmeets.append
      obtain ⟨hquiet, hafter⟩ := hmeets₂ w hbefore
      rw [hbefore] at heof
      have hw : Sane w := (run_reaches (P := fun _ => True) hsane rfl trivial
        (Lib.meets_of_forall (C := fun _ _ => True) (fun _ _ => trivial) before _)
        (fun _ _ _ _ _ => trivial) hbefore).1
      simp only [hbefore] at hrun
      rw [show i :: after = [i] ++ after from rfl, Lib.run_append, Lib.run_singleton] at hrun
      cases hstep : step cfg i w with
      | fault f w' => simp [hstep] at hrun
      | ok a w' =>
        simp only [hstep] at hrun hafter
        have hstepped := step_returns hw hstep
        have hspent : w'.Spent e := World.readsEof_spent heof hquiet hstepped
        have hv := run_reaches (P := World.Spent e) (hstepped.sane hw) rfl hspent hafter
          (fun hs _ h hquiet hstep => h.stepped hs hquiet hstep) hrun
        exact hv.2.2.keeps _

end Spent

/-- A client that closes with nothing buffered. -/
def clientLeaves : List Input :=
  literalConnect ++ connectDone ++ [.finish 5, .poll [.peer 5 (some .client) epollIn]]

theorem half_close_keeps_client :
    (Lib.run (step openConfigs) (clientLeaves ++ .handle { Answers.idle with recv := some 1 } ::
        [.poll [.peer 6 (some .server) epollIn]])
      (newClient 5 (.inet ![4, 0] ![127, 0, 0, 1]) fun _ => .zero)).state.Keeps
    (Lib.run (step openConfigs) (clientLeaves ++ .handle { Answers.idle with recv := some 1 } ::
        [.poll [.peer 6 (some .server) epollIn]] ++ [.handle .idle])
      (newClient 5 (.inet ![4, 0] ![127, 0, 0, 1]) fun _ => .zero)).state .client := by
  have haccept : acceptNewClient 5 (.inet ![4, 0] ![127, 0, 0, 1]) (fun _ => .zero) true true =
      some (newClient 5 (.inet ![4, 0] ![127, 0, 0, 1]) fun _ => .zero) := rfl
  have hrun : Lib.Meets (step openConfigs) EndsQuietly (clientLeaves ++
        .handle { Answers.idle with recv := some 1 } :: [.poll [.peer 6 (some .server) epollIn]])
        (newClient 5 (.inet ![4, 0] ![127, 0, 0, 1]) fun _ => .zero) ∧
      (Lib.run (step openConfigs) clientLeaves
        (newClient 5 (.inet ![4, 0] ![127, 0, 0, 1]) fun _ => .zero)).state.readsEof .client
          (.handle { Answers.idle with recv := some 1 }) = true := by
    decide +kernel
  obtain ⟨hmeets, heof⟩ := hrun
  exact half_close_keeps haccept hmeets heof

/-- The server answers and closes; what it answered is still buffered for the client. -/
def serverLeaves : List Input :=
  literalConnect ++ connectDone ++ [.arrive 6 [104, 101, 108, 108, 111],
    .poll [.peer 6 (some .server) epollIn], .handle { Answers.idle with recv := some 5 }, .finish 6,
    .poll [.peer 6 (some .server) epollIn]]

/-- The client is ready to take it, twice; the second time its descriptor is closed. -/
def clientReady : List Input :=
  [.poll [.peer 5 (some .client) epollOut], .handle { Answers.idle with send := some 5 },
    .poll [.peer 5 (some .client) epollOut]]

/-- Five bytes are lost. -/
theorem half_close_loses :
    ¬ ∀ (cfg : Configs) (fd : Int) (ss : SockAddr) (bufs : Side → OutBuff)
      (mallocs epollAdd : Bool) (w₀ : World) (before after : List Input) (i j : Input) (e : Side),
      acceptNewClient fd ss bufs mallocs epollAdd = some w₀ →
        (Lib.run (step cfg) before w₀).state.readsEof e i = true →
        (Lib.run (step cfg) (before ++ i :: after) w₀).state.Keeps
          (Lib.run (step cfg) (before ++ i :: after ++ [j]) w₀).state e := by
  intro h
  have heof : (Lib.run (step openConfigs) serverLeaves
      (newClient 5 (.inet ![4, 0] ![127, 0, 0, 1]) fun _ => .zero)).state.readsEof .server
        (.handle { Answers.idle with recv := some 1 }) = true := by
    decide +kernel
  have hkeeps := h openConfigs 5 (.inet ![4, 0] ![127, 0, 0, 1]) (fun _ => .zero) true true _
    serverLeaves clientReady _ (.handle .idle) .server rfl heof
  have hrun : ∃ w w', (Lib.run (step openConfigs)
        (serverLeaves ++ .handle { Answers.idle with recv := some 1 } :: clientReady)
        (newClient 5 (.inet ![4, 0] ![127, 0, 0, 1]) fun _ => .zero)).state = w ∧
      (Lib.run (step openConfigs)
        (serverLeaves ++ .handle { Answers.idle with recv := some 1 } :: clientReady ++
          [.handle .idle])
        (newClient 5 (.inet ![4, 0] ![127, 0, 0, 1]) fun _ => .zero)).state = w' := ⟨_, _, rfl, rfl⟩
  obtain ⟨w, w', hw, hw'⟩ := hrun
  rw [hw, hw'] at hkeeps
  have hlost : (w.fds (w.shared.fd .client)).isSome = true ∧ w.mem (.buff .client) = .live ∧
      (w.shared.out .client).used = 5 ∧ .sendFailed (w.shared.fd .client) ∉ w.trace := by
    rw [← hw]
    decide +kernel
  have hfreed : w'.mem (.buff .client) = .freed := by
    rw [← hw']
    decide +kernel
  obtain ⟨hopen, hlive, hused, hsent⟩ := hlost
  have hbuffered := hkeeps.buffered .client ⟨Option.isSome_iff_ne_none.mp hopen, hlive⟩
    fun hreaches => by
      rw [World.Reaches, hfreed] at hreaches
      cases hreaches.2
  rcases hbuffered with hempty | hfailed
  · rw [Ring.contents_eq_nil.mp hempty] at hused
    cases hused
  · exact hsent hfailed

end Socksprox
