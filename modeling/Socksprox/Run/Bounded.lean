import Socksprox.Lib.Rank
import Socksprox.Run.Alert

/-!
The handshake comes to an end. What a state waits for is watched; here, each time that it happens
the handshake gets closer to its end, by a rank that nothing raises: the buffers fill up or run
empty, the next resolved address is tried, or a later state is entered.
-/

namespace Socksprox

/-! ### The rank of a connection -/

/-- The room left for the request. -/
def World.room (w : World) : Nat := outbuffsize - (w.shared.out .server).used

/-- How many events the handshake can still wait for, with at most `m` resolved addresses. After the
resolver's answer the request may have to be received again, so its bytes count twice. -/
def World.rank (m : Nat) (w : World) : Nat :=
  match w.shared.state with
  | .waitingMethods => 130 + m + 2 * outbuffsize + w.room
  | .sendingMethod => 127 + m + 2 * outbuffsize + (w.shared.out .client).used
  | .waitingCommand => 126 + m + 2 * w.room
  | .asyncDns => 127 + m + 2 * w.room
  | .connecting => 124 + (m - w.info.aiIndex)
  | .sendingReply => (w.shared.out .client).used + if w.info.rep = repSuccess then 63 else 1
  | .bindListening => 62
  | .sendingReply2 => (w.shared.out .client).used + 1
  | _ => 0

/-- The event that is handled is one that the state waits for, and the kernel takes something of
what is sent. -/
def World.awaited (w : World) : Input → Bool
  | .handle ans =>
    match w.pending with
    | .peer _ (some s) ev :: _ =>
      decide (ans.send ≠ some 0) &&
        w.shared.state.awaits.any fun a => decide (a.1 = s) && a.2.within ev
    | .resolver :: _ => (w.next ans).isSome
    | _ => false
  | _ => false

section Ranks

variable {cfg : Configs} {w w' : World} {e : Side} {ev : Events} {f : Option Fault} {m : Nat}

theorem World.rank_over (hs : w.shared.state = .full ∨ w.shared.state = .fullUdpa ∨
    w.shared.state = .halfClose ∨ w.shared.state = .closed) : w.rank m = 0 := by
  rcases hs with hs | hs | hs | hs <;> simp [World.rank, hs]

theorem World.rank_closed (hs : w.shared.state = .closed) : w.rank m = 0 :=
  World.rank_over (.inr (.inr (.inr hs)))

/-- A reply fits in a few bytes. -/
theorem Phase.rank_replying (hp : Phase w) (hs : w.shared.state.replying = true) :
    w.rank m ≤ 123 := by
  have hused := hp.reply hs
  cases hst : w.shared.state <;> simp_all [World.rank]
  · split <;> omega
  · omega

/-- The request is being carried out, or answered, or the connection was closed. -/
theorem World.rank_started (hend : Open w ∧ Phase w ∨ w.shared.state = .closed)
    (hs : w.shared.state = .connecting ∨ w.shared.state = .sendingReply ∨
      w.shared.state = .closed) : w.rank m ≤ 124 + m := by
  rcases hend with ⟨-, hp⟩ | hclosed
  · rcases hs with hs | hs | hs
    · simp only [World.rank, hs]
      omega
    · have hle : w.rank m ≤ 123 := hp.rank_replying (by simp [hs])
      omega
    · rw [World.rank_closed hs]
      omega
  · rw [World.rank_closed hclosed]
    omega

/-- After an error reply there is only its sending left. -/
theorem ReplyWithErr.rank (hend : Open w' ∧ Phase w' ∨ w'.shared.state = .closed)
    (h : ReplyWithErr w e w') : w'.rank m ≤ 61 := by
  rcases hend with ⟨hopen, hp⟩ | hclosed
  · cases h with
    | replied hroom hmod =>
      have hused := hp.reply rfl
      have hrep : w.errReplied.info.rep ≠ repSuccess := by
        rw [show w.errReplied.info.rep = normRep w.info.rep by simp [World.errReplied]]
        exact normRep_ne_success _
      have hrank : w.errReplied.rank m = (w.errReplied.shared.out .client).used + 1 := by
        rw [World.rank, show w.errReplied.shared.state = .sendingReply from rfl]
        simp only [if_neg hrep]
      omega
    | lost h =>
      rw [World.rank_closed h.state]
      omega
  · rw [World.rank_closed hclosed]
    omega

/-- What was received takes room. -/
theorem Recv.room_lt {fd : Int} {bytes : List UInt8} {w₁ : World} (hw : Open w)
    (h : Recv w fd (w.shared.out .server).free (some bytes) w₁) (hne : bytes ≠ []) :
    (w₁.queue .server bytes).room < w.room := by
  have hlen := h.length_le
  have hpos := List.length_pos_iff.mpr hne
  have hfree : (w.shared.out .server).free = outbuffsize - (w.shared.out .server).used := by
    rw [Ring.free, hw.capacity]
  have hfits : bytes.length ≤ (w₁.shared.out .server).free := by rwa [h.shared]
  have hused : ((w₁.queue .server bytes).shared.out .server).used =
      (w.shared.out .server).used + bytes.length := by
    rw [← Ring.contents_length, World.queue_contents hfits, List.length_append, h.shared,
      Ring.contents_length]
  rw [World.room, World.room, hused]
  omega

/-! ### Handlers -/

theorem WaitingMethods.rank (hw : Open w) (hs : w.shared.state = .waitingMethods)
    (hend : Open w' ∧ Phase w' ∨ w'.shared.state = .closed)
    (hwant : ev.epollin = true ∧ e = .client) (h : WaitingMethods cfg w e ev w') :
    w'.rank m < w.rank m := by
  have hrank : w.rank m = 130 + m + 2 * outbuffsize + w.room := by simp [World.rank, hs]
  have hclosed : w'.shared.state = .closed → w'.rank m < w.rank m := fun hclosed => by
    rw [World.rank_closed hclosed]
    omega
  cases h with
  | idle hidle => simp [hwant] at hidle
  | ended hrecv hr => exact hclosed rfl
  | @part bytes got w₁ hrecv hgot hpart hne =>
    have hlt := hrecv.room_lt hw hne
    have hstate : (w₁.queue .server bytes).shared.state = .waitingMethods := by
      simpa [hrecv.shared] using hs
    simp only [World.rank, hstate, hs]
    omega
  | badVersion hrecv hgot hcomplete hversion => exact hclosed rfl
  | unwatched hrecv hgot hcomplete hversion hmod => exact hclosed rfl
  | @chosen bytes got w₁ hrecv hgot hcomplete hversion hmod =>
    rcases hend with ⟨-, hp⟩ | hend
    · have hused := hp.method rfl
      have hchosen : ((w₁.queue .server bytes).methodChosen cfg got).watchSend.rank m =
          127 + m + 2 * outbuffsize + (((w₁.queue .server bytes).methodChosen cfg
            got).watchSend.shared.out .client).used := rfl
      omega
    · exact hclosed hend

/-- Sending lowers the rank by what was sent. -/
theorem World.rank_sentPart (hs : w.shared.state.sending = true) {n k : Nat}
    (hk : k ≤ (w.shared.out .client).used) : (w.sentPart n k).rank m + k = w.rank m := by
  have hused : ((w.sentPart n k).shared.out .client).used = (w.shared.out .client).used - k := by
    rw [← Ring.contents_length]
    simp
  have hstate : (w.sentPart n k).shared.state = w.shared.state := rfl
  have hrep : (w.sentPart n k).info.rep = w.info.rep := rfl
  simp only [World.rank, hstate, hused, hrep]
  cases hst : w.shared.state <;> simp [hst, State.sending] at hs <;> dsimp only <;> omega

theorem SendStopped.rank {n : Nat} (hs : w.shared.state.sending = true) (hpos : 0 < w.rank m)
    (h : SendStopped w n w') :
    w'.rank m < w.rank m ∨ w.ans.send = some 0 ∧ w'.rank m = w.rank m := by
  cases h with
  | failed => exact .inl hpos
  | @part k hk hnone =>
    have hle : k ≤ (w.shared.out .client).used := by
      rw [← Ring.contents_length]
      have hpeek : ((w.shared.out .client).peek n).length ≤
          (w.shared.out .client).contents.length :=
        List.length_take_le' _ _
      omega
    have hsent := w.rank_sentPart (m := m) (n := n) hs hle
    by_cases hzero : k = 0
    · exact .inr ⟨hnone hzero, by omega⟩
    · exact .inl (by omega)
  | unwatched hmod => exact .inl hpos

theorem SendingMethod.rank (hs : w.shared.state = .sendingMethod)
    (hwant : ev.epollout = true ∧ e = .client) (h : SendingMethod w e ev w') :
    w'.rank m < w.rank m ∨ w.ans.send = some 0 ∧ w'.rank m = w.rank m := by
  have hrank : w.rank m = 127 + m + 2 * outbuffsize + (w.shared.out .client).used := by
    simp [World.rank, hs]
  have hclosed : w'.shared.state = .closed → w'.rank m < w.rank m := fun hclosed => by
    rw [World.rank_closed hclosed]
    omega
  cases h with
  | idle hidle => simp [hwant] at hidle
  | stopped h => exact h.rank (by simp [hs, State.sending]) (by omega)
  | refused hmod hmethod => exact .inl (hclosed rfl)
  | accepted hmod hmethod hsent =>
    have hroom : ((w.sentFront 2).watchRecv.setState .waitingCommand).room ≤ outbuffsize :=
      Nat.sub_le _ _
    have haccepted : ((w.sentFront 2).watchRecv.setState .waitingCommand).rank m =
        126 + m + 2 * ((w.sentFront 2).watchRecv.setState .waitingCommand).room := rfl
    exact .inl (by omega)

theorem SendingReply.rank (ha : Alert w) (hs : w.shared.state.replying = true)
    (hwant : ev.epollout = true ∧ e = .client) (h : SendingReply w e ev w') :
    w'.rank m < w.rank m ∨ w.ans.send = some 0 ∧ w'.rank m = w.rank m := by
  have hpos : 0 < w.rank m := by
    cases hst : w.shared.state <;> simp_all [World.rank]
    split <;> omega
  have hover : w'.rank m = 0 → w'.rank m < w.rank m := fun hzero => by omega
  cases h with
  | idle hidle => simp [hwant] at hidle
  | stopped h =>
    refine h.rank ?_ hpos
    cases hst : w.shared.state <;> simp_all [State.sending]
  | refused hmod hrep => exact .inl (hover rfl)
  | connected hmod hrep hcmd => exact .inl (hover rfl)
  | listening hmod hrep hcmd hstate =>
    have hrank : w.rank m = (w.shared.out .client).used + 63 := by
      simp [World.rank, hstate, hrep]
    have hlistening : (((w.sentFront 300).watchRecv.setRep repUnset).setState .bindListening).rank
        m = 62 := rfl
    exact .inl (by omega)
  | associated hmod hrep hcmd => exact .inl (hover rfl)
  | odd hmod hrep hcmd hbind => exact (ha.command_known hs hrep hcmd hbind).elim

theorem CommandRequest.rank {req : List UInt8} (hs : w.shared.state = .waitingCommand)
    (hend : Open w' ∧ Phase w' ∨ w'.shared.state = .closed) (hw : Open w)
    (h : CommandRequest cfg w req f w') : w'.rank m ≤ 127 + m + 2 * w.room := by
  have hstarted : w'.shared.state = .connecting ∨ w'.shared.state = .sendingReply ∨
      w'.shared.state = .closed → w'.rank m ≤ 127 + m + 2 * w.room := fun hs' => by
    have hle : w'.rank m ≤ 124 + m := World.rank_started hend hs'
    omega
  have hkept : w.rank m ≤ 127 + m + 2 * w.room := by
    simp only [World.rank, hs]
    omega
  cases h with
  | short hlen => exact hkept
  | badAtyp hlen htotal h => exact hstarted (.inr h.state)
  | part hlen htotal hpart => exact hkept
  | badVersion hlen htotal hcomplete hversion => exact hstarted (.inr (.inr rfl))
  | run hlen htotal hcomplete hversion h =>
    cases h with
    | domain hatyp => exact Nat.le_refl _
    | noMemory hatyp hmalloc => exact hkept
    | dropped hatyp hfirewall h => exact hstarted (.inr h.state)
    | passed hatyp hfirewall h =>
      have hstored : Open (w.commandStored req) := hw.setInfo rfl rfl
      have hasked : Open (((w.commandStored req).addrStored req).emit
          (.firewall ((w.commandStored req).addrStored req).info)) := by
        simpa using hstored.addrStored req
      exact hstarted (h.state hasked)

/-- What goes on with the resolver's answer is no longer a request. -/
theorem WaitingCommand.rank (hw : Open w) (hs : w.shared.state = .waitingCommand)
    (hend : Open w' ∧ Phase w' ∨ w'.shared.state = .closed)
    (hwant : ev.epollin = true ∧ e = .client) (h : WaitingCommand cfg w e ev f w') :
    w'.rank m < w.rank m := by
  have hrank : w.rank m = 126 + m + 2 * w.room := by simp [World.rank, hs]
  cases h with
  | idle hidle => simp [hwant] at hidle
  | resolver hret h =>
    have hle : w'.rank m ≤ 124 + m := World.rank_started hend (h.state hw)
    omega
  | ended hret hrecv hr =>
    rw [World.rank_closed rfl]
    omega
  | @data bytes got w₁ _ _ hret hrecv hgot h hne =>
    have hlt := hrecv.room_lt hw hne
    have hw₁ : Open (w₁.queue .server bytes) := by simpa using hrecv.open hw
    have hle : w'.rank m ≤ 127 + m + 2 * (w₁.queue .server bytes).room :=
      h.rank (by simpa [hrecv.shared] using hs) hend hw₁
    omega

theorem ConnectFailed.rank {error : BitVec 32} (hs : w.shared.state = .connecting)
    (hend : Open w' ∧ Phase w' ∨ w'.shared.state = .closed) (hlen : w.info.ai.length ≤ m)
    (h : ConnectFailed w error w') : w'.rank m < w.rank m := by
  have hrank : w.rank m = 124 + (m - w.info.aiIndex) := by simp [World.rank, hs]
  cases h with
  | @retry current hmany hget =>
    have hindex : w.info.aiIndex + 1 < w.info.ai.length := (List.getElem?_eq_some_iff.mp hget).1
    have hnext : (w.nextAddr.emit (.connect (w.selfFd .server) current.aiAddr)).rank m =
        124 + (m - (w.info.aiIndex + 1)) := by simp [World.rank, hs]
    omega
  | exhausted hmany hget h =>
    have hle : w'.rank m ≤ 61 := h.rank hend
    omega
  | single hmany h =>
    have hle : w'.rank m ≤ 61 := h.rank hend
    omega

theorem Connecting.rank (hs : w.shared.state = .connecting)
    (hend : Open w' ∧ Phase w' ∨ w'.shared.state = .closed) (hlen : w.info.ai.length ≤ m)
    (hname : ∀ ss ∈ w.ans.getsockname, IpFamily ss.family)
    (hwant : ev.epollout = true ∧ e = .server) (h : Connecting w e ev w') :
    w'.rank m < w.rank m := by
  have hrank : w.rank m = 124 + (m - w.info.aiIndex) := by simp [World.rank, hs]
  have hrefused : ∀ {v : World}, ReplyWithErr v .server w' → w'.rank m < w.rank m := fun h => by
    have hle : w'.rank m ≤ 61 := h.rank hend
    omega
  cases h with
  | idle hidle => simp [hwant] at hidle
  | unknown hso h => exact hrefused h
  | failed hso herr h => exact h.rank hs hend hlen
  | unnamed hso hname h => exact hrefused h
  | oddFamily hso hss haddr h =>
    obtain ⟨a, hsome⟩ := SockAddr.replyAddr_isSome.mpr (hname _ hss)
    rw [haddr] at hsome
    cases hsome
  | unanswered hso hname haddr hreply h => exact hrefused h
  | unwatched hso hname haddr hreply hmod h => exact hrefused h
  | @connected ss a w₁ _ hso hname haddr hreply hmod =>
    obtain ⟨-, -, -, -, hstate⟩ := hreply.server
    have hconnected : w'.shared.state = .sendingReply :=
      (congrArg Shared.state hmod.shared).trans hstate
    rcases hend with ⟨-, hp⟩ | hclosed
    · have hle : w'.rank m ≤ 123 := hp.rank_replying (by simp [hconnected])
      omega
    · rw [hconnected] at hclosed
      cases hclosed

theorem BindListening.rank (hs : w.shared.state = .bindListening)
    (hend : Open w' ∧ Phase w' ∨ w'.shared.state = .closed)
    (hwant : ev.epollin = true ∧ e = .server) (h : BindListening w e ev w') :
    w'.rank m < w.rank m := by
  have hrank : w.rank m = 62 := by simp [World.rank, hs]
  have hrefused : ∀ {v : World}, ReplyWithErr v .server w' → w'.rank m < w.rank m := fun h => by
    have hle : w'.rank m ≤ 61 := h.rank hend
    omega
  cases h with
  | idle hidle => simp [hwant] at hidle
  | noPeer hnone h => exact hrefused h
  | noRequest hans hnew hreq h => exact hrefused h
  | otherPeer hans hnew hreq hdiff h => exact hrefused h
  | unwatched hans hnew hreq hsame he hadd h => exact hrefused h
  | oddFamily hans hnew hreq hsame he hadd haddr h => exact hrefused h
  | unanswered hans hnew hreq hsame he hadd haddr hreply h => exact hrefused h
  | @accepted newFd ss req a w₁ w₂ hans hnew hreq hsame he hadd haddr hreply =>
    rcases hend with ⟨-, hp⟩ | hclosed
    · have hused := hp.reply rfl
      have haccepted : (w₂.setState .sendingReply2).rank m =
          ((w₂.setState .sendingReply2).shared.out .client).used + 1 := rfl
      omega
    · cases hclosed

/-- A handler that has what it waits for lowers the rank, unless it sends nothing. -/
theorem Handled.rank (hw : Open w) (ha : Alert w) (hlen : w.info.ai.length ≤ m)
    (hname : ∀ ss ∈ w.ans.getsockname, IpFamily ss.family)
    (hend : Open w' ∧ Phase w' ∨ w'.shared.state = .closed) (hwant : w.Wants e ev)
    (h : Handled cfg w e ev f w') :
    w'.rank m < w.rank m ∨ w.ans.send = some 0 ∧ w'.rank m = w.rank m ∨
      w.shared.state.awaits = none ∧ w'.rank m ≤ w.rank m := by
  cases h with
  | still hstate =>
    refine .inr (.inr ⟨?_, Nat.le_refl _⟩)
    rcases hstate with hs | hs | hs | hs <;> rw [hs] <;> rfl
  | waitingMethods hstate h =>
    simp only [World.Wants, hstate] at hwant
    exact .inl (h.rank hw hstate hend hwant)
  | sendingMethod hstate h =>
    simp only [World.Wants, hstate] at hwant
    exact (h.rank hstate hwant).imp_right .inl
  | waitingCommand hstate h =>
    simp only [World.Wants, hstate] at hwant
    exact .inl (h.rank hw hstate hend hwant)
  | sendingReply hstate h =>
    have hreplying : w.shared.state.replying = true := by rcases hstate with hs | hs <;> simp [hs]
    refine (h.rank ha hreplying ?_).imp_right .inl
    rcases hstate with hs | hs <;> simpa [World.Wants, hs] using hwant
  | connecting hstate h =>
    simp only [World.Wants, hstate] at hwant
    exact .inl (h.rank hstate hend hlen hname hwant)
  | bindListening hstate h =>
    simp only [World.Wants, hstate] at hwant
    exact .inl (h.rank hstate hend hwant)
  | full hstate h =>
    have hover : w'.rank m = 0 := World.rank_over (h.over hstate)
    exact .inr (.inr ⟨by rw [hstate]; rfl, by omega⟩)
  | halfClose hstate => exact .inr (.inr ⟨by rw [hstate]; rfl, Nat.zero_le _⟩)
  | closed hstate =>
    have hclosed : (w.released e).rank m = 0 := World.rank_closed (by simp [hstate])
    exact .inr (.inr ⟨by rw [hstate]; rfl, by omega⟩)

/-- An awaited event is one that the handler of the state does something about. -/
theorem World.wants_of_awaits {s : Side} {want : Events}
    (hawaits : w.shared.state.awaits = some (s, want)) (hev : want.within ev = true) :
    w.Wants s ev := by
  cases hs : w.shared.state <;> rw [hs] at hawaits <;> cases hawaits <;>
    simp_all [World.Wants, Events.within, epollIn, epollOut]

/-! ### Inputs -/

/-- Addresses are of an IP family, and the resolver answers with at most `m` of them. -/
def Resolves (m : Nat) (w : World) (i : Input) : Prop :=
  IpOnly w i ∧ match i with
    | .resolved _ res => res.length ≤ m
    | _ => True

instance (w : World) (i : Input) : Decidable (Resolves m w i) :=
  match i with
  | .resolved gaiRet res =>
    inferInstanceAs (Decidable (IpOnly w (.resolved gaiRet res) ∧ res.length ≤ m))
  | .handle ans => inferInstanceAs (Decidable (IpOnly w (.handle ans) ∧ True))
  | .arrive _ _ | .finish _ | .poll _ => .isTrue ⟨trivial, trivial⟩

theorem Stepped.length_ai {i : Input} (hs : Sane w) (h : w.info.ai.length ≤ m)
    (hr : Resolves m w i) (hstep : Stepped cfg w i f w') : w'.info.ai.length ≤ m := by
  rcases hstep.ai hs with heq | ⟨gaiRet, res, rfl, heq | heq⟩ <;> rw [heq]
  · exact h
  · exact hr.2
  · exact Nat.zero_le _

theorem World.awaited_peer {ans : Answers} {fd : Int} {s : Side} {rest : List Event}
    (hpending : w.pending = .peer fd (some s) ev :: rest) : w.awaited (.handle ans) = true ↔
      ans.send ≠ some 0 ∧
        ∃ want, w.shared.state.awaits = some (s, want) ∧ want.within ev = true := by
  cases hawaits : w.shared.state.awaits <;> simp [World.awaited, hpending, hawaits]
  rename_i a
  obtain ⟨s', want⟩ := a
  simp

/-- The end that is waited for is there. -/
theorem Sane.live_of_awaits (hs : Sane w) {s : Side} {want : Events}
    (hawaits : w.shared.state.awaits = some (s, want)) : w.mem (.data s) = .live := by
  rcases hs.conn with hw | hshut
  · cases s with
    | client => exact hw.client
    | server =>
      refine (hs.phase hw).server (.inl ?_)
      cases hst : w.shared.state <;> rw [hst] at hawaits <;> cases hawaits
      · exact .inl hst
      · exact .inr (.inl hst)
  · rw [hshut.state] at hawaits
    cases hawaits

/-- **Every awaited event brings the handshake closer to its end.** -/
theorem Stepped.descends {i : Input} (hs : Sane w) (ha : Open w → Alert w)
    (hlen : w.info.ai.length ≤ m) (hip : IpOnly w i) (hstep : Stepped cfg w i f w') :
    Lib.Descends (World.rank m) (fun w i => w.awaited i = true) w i w' := by
  have hend := hstep.conn hs
  cases hstep with
  | @arrive fd bytes =>
    obtain ⟨fds, heq, -⟩ := w.arrived_interest fd bytes
    rw [heq]
    exact .of_eq rfl nofun
  | finish => exact .of_eq rfl nofun
  | unasked hdns => exact .of_eq rfl nofun
  | resolved hdns => exact .of_eq rfl nofun
  | unpolled => exact .of_eq rfl nofun
  | polled hpending hlegal => exact .of_eq rfl nofun
  | waiting hpending => exact .of_eq rfl (by simp [World.awaited, hpending])
  | @handled ans event rest _ _ hpending hd =>
    have htaken := hs.taken hpending ans
    have ha₁ : Open (w.taken rest ans) → Alert (w.taken rest ans) := fun hw =>
      (ha (hw.frame rfl id)).congr rfl rfl rfl fun _ => rfl
    cases hd with
    | ignored => exact .of_eq rfl (by simp [World.awaited, hpending])
    | stale hgone =>
      refine .of_eq rfl fun hawaited => ?_
      obtain ⟨-, want, hawaits, -⟩ := (w.awaited_peer hpending).mp hawaited
      exact hgone (hs.live_of_awaits hawaits)
    | masked hd hev =>
      refine .of_eq rfl fun hawaited => ?_
      obtain ⟨-, want, hawaits, hwithin⟩ := (w.awaited_peer hpending).mp hawaited
      cases hst : w.shared.state <;> rw [hst] at hawaits <;> cases hawaits <;>
        simp_all [Events.within, epollIn, epollOut]
    | @handled fd e ev _ _ hw hd hh hwant =>
      have hawaited : w.awaited (.handle ans) = true →
          ans.send ≠ some 0 ∧ (w.taken rest ans).Wants e ev ∧ w.shared.state.awaits ≠ none := by
        intro hawaited
        obtain ⟨hsend, want, hawaits, hwithin⟩ := (w.awaited_peer hpending).mp hawaited
        have hwants : (w.taken rest ans).Wants e ev := World.wants_of_awaits hawaits hwithin
        exact ⟨hsend, hwants, by simp [hawaits]⟩
      by_cases hwants : (w.taken rest ans).Wants e ev
      · rcases hh.rank hw (ha₁ hw) hlen hip hend hwants with hlt | ⟨hsend, heq⟩ | ⟨hnone, hle⟩
        · exact .of_lt hlt
        · exact .of_eq heq fun h => (hawaited h).1 hsend
        · exact ⟨hle, fun h => absurd hnone (hawaited h).2.2⟩
      · obtain rfl := hwant.resolve_right hwants
        exact .of_eq rfl fun h => hwants (hawaited h).2.1
    | @shut fd e ev hshut hd =>
      have hclosed : w.shared.state = .closed := hshut.state
      have hzero : w.rank m = 0 := World.rank_closed hclosed
      have hreleased : ((w.taken rest ans).released e).rank m = 0 :=
        World.rank_closed (by simp [hclosed])
      refine .of_eq (hreleased.trans hzero.symm) fun h => ?_
      obtain ⟨-, want, hawaits, -⟩ := (w.awaited_peer hpending).mp h
      rw [hclosed] at hawaits
      cases hawaits
    | quiet hdns =>
      refine .of_eq rfl fun h => ?_
      cases hanswer : w.dns with
      | answered gaiRet => exact hdns gaiRet hanswer
      | _ => simp [World.awaited, World.next, hpending, hanswer] at h
    | @resolver gaiRet _ _ hw hdns hc =>
      have hasync := (htaken.dns (by rw [hdns]; simp)).2
      have hlt : w'.rank m < ((w.taken rest ans).resumed gaiRet).rank m :=
        hc.rank (hw.resumed gaiRet) rfl hend ⟨rfl, rfl⟩
      have hresumed : ((w.taken rest ans).resumed gaiRet).rank m < w.rank m := by
        have hrank : w.rank m = 127 + m + 2 * w.room := by
          simp [World.rank, show w.shared.state = .asyncDns from hasync]
        have hsmaller : ((w.taken rest ans).resumed gaiRet).rank m = 126 + m + 2 * w.room := rfl
        omega
      exact .of_lt (hlt.trans hresumed)

/-- **The handshake ends.** Whatever calls fail, and however little is received and sent at a time,
a connection handles only so many events that its handshake waits for; two times the buffer of the
request, for two receptions of it, and one time for the methods. -/
theorem handshake_bounded {fd : Int} {ss : SockAddr} {bufs : Side → OutBuff}
    {mallocs epollAdd : Bool} {w₀ : World} {is : List Input}
    (hw₀ : acceptNewClient fd ss bufs mallocs epollAdd = some w₀)
    (hmeets : Lib.Meets (step cfg) (Resolves m) is w₀) :
    Lib.tally (step cfg) (fun w i => w.awaited i = true) is w₀ ≤ 130 + m + 3 * outbuffsize := by
  have hsane := acceptNewClient_sane hw₀
  obtain ⟨-, rfl⟩ := acceptNewClient_eq hw₀
  have hstart : (newClient fd ss bufs).rank m ≤ 130 + m + 3 * outbuffsize := by
    have hroom : (newClient fd ss bufs).room ≤ outbuffsize := Nat.sub_le _ _
    have hrank : (newClient fd ss bufs).rank m =
        130 + m + 2 * outbuffsize + (newClient fd ss bufs).room := rfl
    omega
  have hle : Lib.tally (step cfg) (fun w i => w.awaited i = true) is (newClient fd ss bufs) +
      (Lib.run (step cfg) is (newClient fd ss bufs)).state.rank m ≤
        (newClient fd ss bufs).rank m := by
    refine Lib.tally_add_rank_le
      (I := fun v => Sane v ∧ (Open v → Alert v) ∧ v.info.ai.length ≤ m ∧ v.IpAddrs)
      (fun v i hv hr => ?_)
      ⟨hsane, fun _ => newClient_alert fd ss bufs, Nat.zero_le _, List.forall_mem_nil _⟩ hmeets
    obtain ⟨hs, ha, hlen, hip⟩ := hv
    refine wp_step hs.toSound fun f v' hstep => ?_
    have hdescends := hstep.descends (m := m) hs ha hlen hr.1
    cases f with
    | none =>
      exact ⟨⟨hstep.sane hs, hstep.alert hs ha hip hr.1, hstep.length_ai hs hlen hr,
        hip.stepped hs hr.1 hstep⟩, hdescends⟩
    | some f => exact hdescends
  omega

end Ranks

/-- The methods, the request and the connection are awaited, and the replies are sent. -/
theorem handshake_bounded_connect :
    Lib.tally (step openConfigs) (fun w i => w.awaited i = true) (literalConnect ++ connectDone)
        (newClient 5 (.inet ![4, 0] ![127, 0, 0, 1]) fun _ => .zero) = 5 ∧
      Lib.tally (step openConfigs) (fun w i => w.awaited i = true) (literalConnect ++ connectDone)
        (newClient 5 (.inet ![4, 0] ![127, 0, 0, 1]) fun _ => .zero) ≤
          130 + 0 + 3 * outbuffsize := by
  have haccept : acceptNewClient 5 (.inet ![4, 0] ![127, 0, 0, 1]) (fun _ => .zero) true true =
      some (newClient 5 (.inet ![4, 0] ![127, 0, 0, 1]) fun _ => .zero) := rfl
  have hrun : Lib.tally (step openConfigs) (fun w i => w.awaited i = true)
    (literalConnect ++ connectDone) (newClient 5 (.inet ![4, 0] ![127, 0, 0, 1]) fun _ => .zero) =
      5 ∧ Lib.Meets (step openConfigs) (Resolves 0) (literalConnect ++ connectDone)
        (newClient 5 (.inet ![4, 0] ![127, 0, 0, 1]) fun _ => .zero) := by
    decide +kernel
  exact ⟨hrun.1, handshake_bounded haccept hrun.2⟩

end Socksprox
