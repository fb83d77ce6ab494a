import Socksprox.Replies
import Socksprox.Run.Drain

/-!
What success replies say. Four functions write them piece by piece, from the socket's name,
from the list of configured addresses or from the accepted peer.
-/

namespace Socksprox

/-! ### The replies of one event -/

/-- What the success reply of the handler of `w` says, if it queues one. -/
def World.Says (cfg : Configs) (w : World) (a : Option ReplyAddr) : Prop :=
  match w.shared.state with
  | .waitingCommand => Announces cfg (w.setInfo w.asking) a
  | .connecting => ∃ ss, w.ans.getsockname = some ss ∧ a = ss.replyAddr ss.port
  | .bindListening => ∃ fd ss, w.ans.accept = some (fd, ss) ∧ a = ss.replyAddr ss.port
  | _ => False

section Event

variable {cfg : Configs} {w w' : World} {e : Side} {ev : Events} {f : Option Fault}
  {P : Option ReplyAddr → Prop}

theorem queues_plain {bytes : List UInt8} (h : Plain [bytes]) :
    Replied P w (w.queue .client bytes) := by
  unfold World.queue
  split
  · refine .inl ⟨_, h, ?_⟩
    rw [World.chunks_emit]
    rfl
  · exact .of_eq rfl

/-- The method reply has two octets. -/
theorem queues_methodChosen (w : World) (got : List UInt8) :
    Replied P w (w.methodChosen cfg got) := by
  have hplain : Plain [[socks5Version, selectMethod cfg (offered got)]] := by
    intro b hb
    obtain rfl := List.mem_singleton.mp hb
    simp
  have hdrop : Replied (fun _ => False) w
      ((w.drop .server 2).drop .server (got.getD 1 0).toNat) := .of_eq rfl
  exact ((queues_plain hplain).after hdrop).andThen (.of_eq (by simp [World.methodChosen]))

theorem WaitingMethods.queues (h : WaitingMethods cfg w e ev w') : Replied P w w' := by
  have hchosen : ∀ {got bytes r w₁}, Recv w (w.shared.fd .client) (w.shared.out .server).free r w₁ →
      Replied P w ((w₁.queue .server bytes).methodChosen cfg got) := fun hrecv =>
    (queues_methodChosen _ _).after (.of_eq (by simp [hrecv.chunks]))
  cases h with
  | idle hunwanted => exact .of_eq rfl
  | ended hrecv hr => exact .of_eq (by simp [hrecv.chunks])
  | part hrecv hgot hpart => exact .of_eq (by simp [hrecv.chunks])
  | badVersion hrecv hgot hcomplete hversion => exact .of_eq (by simp [hrecv.chunks])
  | unwatched hrecv hgot hcomplete hversion hmod =>
    exact Replied.andThen (hchosen hrecv) (.of_eq (World.chunks_hungUp _ _))
  | chosen hrecv hgot hcomplete hversion hmod => exact (hchosen hrecv).andThen (.of_eq rfl)

/-- At most one success reply comes of an event before the relay. -/
theorem Handled.queues (hw : Open w) (hp : Phase w)
    (hs : w.shared.state ≠ .full)
    (h : Handled cfg w e ev f w') : Replied (w.Says cfg) w w' := by
  have hempty : w.shared.state.quiet = true → (w.shared.out .client).used ≤ 800 := fun hquiet => by
    rw [Ring.contents_eq_nil.mp (hp.quiet hquiet)]
    decide
  cases h with
  | still hstate => exact .of_eq rfl
  | waitingMethods hstate h => exact h.queues
  | sendingMethod hstate h => exact .of_eq (h.does.chunks fun _ => rfl)
  | waitingCommand hstate h =>
    obtain ⟨-, hsa, hret, -⟩ := hp.early (by simp [hstate])
    refine (h.queues hw (hempty (by simp [hstate])) hsa fun hne =>
      absurd hret hne).mono fun a ha => ?_
    rw [World.Says, hstate]
    exact ha
  | sendingReply hstate h => exact .of_eq (h.does.chunks fun _ => rfl)
  | connecting hstate h =>
    have hused := hempty (by simp [hstate])
    refine (h.queues hw (hused.trans (by decide))).mono fun a ha => ?_
    rw [World.Says, hstate]
    exact ha
  | bindListening hstate h =>
    have hused := hempty (by simp [hstate])
    have hserver := hp.server (.inl (.inr (.inl hstate)))
    refine (h.queues hw hserver (hused.trans (by decide))).mono fun a ha => ?_
    rw [World.Says, hstate]
    exact ha
  | full hstate h => exact absurd hstate hs
  | halfClose hstate => exact .of_eq (by simp)
  | closed hstate => exact .of_eq rfl

/-- Success replies come of handlers only. -/
theorem Stepped.queues {i : Input} (hs : Sane w) (hrelay : w.shared.state ≠ .full)
    (h : Stepped cfg w i f w') :
    w'.chunks = w.chunks ∨
      ∃ ans, i = .handle ans ∧ ∃ v ∈ w.next ans, Replied (v.Says cfg) w w' := by
  cases h.moved with
  | idle hcore =>
    simp only [World.core, Prod.mk.injEq] at hcore
    exact .inl (by rw [World.chunks, hcore.1, World.chunks])
  | answered hdns => exact .inl rfl
  | @handled ans rest _ _ _ _ _ hpending hw hd hh =>
    have hp := (hs.taken hpending ans).phase hw
    exact .inr ⟨ans, rfl, _, w.next_taken hpending ans, (hh.queues hw hp hrelay).after (.of_eq rfl)⟩
  | @resumed ans rest gaiRet _ _ hpending hw hdns hh =>
    have htaken := hs.taken hpending ans
    have hasync := (htaken.dns (by rw [World.taken_dns, hdns]; simp)).2
    have hp := htaken.phase hw
    have hearly : (w.taken rest ans).shared.state.early = true := by rw [hasync]; rfl
    have hempty : (w.shared.out .client).contents = [] := hp.quiet (by rw [hasync]; rfl)
    have hused : (w.shared.out .client).used ≤ 800 := by
      rw [Ring.contents_eq_nil.mp hempty]
      decide
    have hai : gaiRet ≠ -1 → gaiRet ≠ 0 → w.info.ai = [] := fun _ hret =>
      hp.ai hearly fun r hr => by
        rw [World.taken_dns, hdns] at hr
        cases hr
        exact hret
    have hkeep : Replied (fun _ => False) w ((w.taken rest ans).resumed gaiRet) :=
      .of_eq (by simp [World.chunks, Act.chunk?])
    refine .inr ⟨ans, rfl, _, w.next_resumed hpending hdns ans, ?_⟩
    exact (hh.queues (hw.resumed gaiRet) hused (hp.early hearly).2.1 hai).after hkeep

end Event

/-! ### The right address -/

/-- The configured address of the request's family, with the port of the new socket. -/
def advertised (l : List SockaddrLl) (af : Nat) (name : Option SockAddr) : Option ReplyAddr :=
  (firstOf af l).bind fun advertise => name.bind fun ss => advertise.sa.replyAddr ss.port

/-- The address that the success reply of the handler of `w` has to carry: the socket's own, the
configured one with the socket's port, or the accepted peer's. -/
def World.ownAddr (cfg : Configs) (w : World) : Option ReplyAddr :=
  match w.shared.state with
  | .waitingCommand =>
    if w.asking.cmd = cmdBind then advertised cfg.bindAdvertise w.asking.af w.ans.getsockname
    else advertised cfg.udpaAdvertise w.asking.af w.ans.getsockname
  | .connecting => w.ans.getsockname.bind fun ss => ss.replyAddr ss.port
  | .bindListening => w.ans.accept.bind fun peer => peer.2.replyAddr peer.2.port
  | _ => none

/-- The address is of a family that replies have a type for; and the list node of the address for
datagrams, read as an address, says what that address and the port of the relay socket say. -/
def World.Truthful (cfg : Configs) (w : World) : Prop :=
  match w.shared.state with
  | .waitingCommand => IpFamily w.asking.af ∧ (w.asking.cmd = cmdUdpa →
      ∀ advertise ∈ firstOf w.asking.af cfg.udpaAdvertise, ∃ ss ∈ w.ans.getsockname,
        advertise.nodeReplyAddr = advertise.sa.replyAddr ss.port)
  | .connecting => ∃ ss ∈ w.ans.getsockname, IpFamily ss.family
  | .bindListening => ∃ peer ∈ w.ans.accept, IpFamily peer.2.family
  | _ => True

/-- No chunk of an address is as long as the head. -/
theorem World.Says.length {cfg : Configs} {w : World} {a : Option ReplyAddr} (h : w.Says cfg a) :
    ∀ b ∈ addrChunks a, b.length ≠ 3 := by
  have haddr : ∀ (sa : SockAddr) port, ∀ b ∈ addrChunks (sa.replyAddr port), b.length ≠ 3 := by
    intro sa port
    cases sa <;> simp [addrChunks, SockAddr.replyAddr, ReplyAddr.chunks]
  unfold World.Says at h
  split at h
  · obtain ⟨g, -, ha⟩ := h
    cases ha with
    | bind hadv hss => exact haddr _ _
    | @udpa advertise hadv =>
      cases hsa : advertise.sa <;>
        simp [addrChunks, SockaddrLl.nodeReplyAddr, SockaddrLl.nodeOctets, ReplyAddr.chunks, hsa]
  · obtain ⟨ss, -, rfl⟩ := h
    exact haddr _ _
  · obtain ⟨fd, ss, -, rfl⟩ := h
    exact haddr _ _
  · exact h.elim

/-- The address that has to be said is said. -/
theorem said_iff {own a : Option ReplyAddr} (h : own = a) :
    (∃ a', own = some a' ∧ a = some a') ↔ ∃ a', a = some a' := by
  subst h
  simp

/-- What a handler says is right exactly under that condition. -/
theorem World.Says.right_iff {cfg : Configs} {w : World} {a : Option ReplyAddr}
    (h : w.Says cfg a) : (∃ a', w.ownAddr cfg = some a' ∧ a = some a') ↔ w.Truthful cfg := by
  unfold World.Says at h
  unfold World.ownAddr World.Truthful
  split at h
  · obtain ⟨g, hcmd, ha⟩ := h
    cases ha with
    | @bind advertise ss hadv hss =>
      have hbind : w.asking.cmd = cmdBind := hcmd
      have hudpa : w.asking.cmd ≠ cmdUdpa := by
        rw [hbind]
        decide
      have hadv' : firstOf w.asking.af cfg.bindAdvertise = some advertise := hadv
      have hss' : w.ans.getsockname = some ss := hss
      have hown : advertised cfg.bindAdvertise w.asking.af w.ans.getsockname =
          advertise.sa.replyAddr ss.port := by
        simp [advertised, hadv', hss']
      rw [if_pos hbind, said_iff hown, SockAddr.replyAddr_isSome, firstOf_family hadv']
      exact ⟨fun h => ⟨h, fun h => absurd h hudpa⟩, fun h => h.1⟩
    | @udpa advertise hadv =>
      have hudpa : w.asking.cmd = cmdUdpa := hcmd
      have hbind : w.asking.cmd ≠ cmdBind := by
        rw [hudpa]
        decide
      have hadv' : firstOf w.asking.af cfg.udpaAdvertise = some advertise := hadv
      have hfamily : advertise.sa.family = w.asking.af := firstOf_family hadv'
      have hown : advertised cfg.udpaAdvertise w.asking.af w.ans.getsockname =
          w.ans.getsockname.bind fun ss => advertise.sa.replyAddr ss.port := by
        simp [advertised, hadv']
      rw [if_neg hbind, hown, hadv', ← hfamily, ← SockaddrLl.nodeReplyAddr_isSome]
      constructor
      · rintro ⟨a', hown, hnode⟩
        obtain ⟨ss, hss, haddr⟩ := Option.bind_eq_some_iff.mp hown
        refine ⟨⟨a', hnode⟩, fun _ adv hmem => ⟨ss, hss, ?_⟩⟩
        cases hmem
        rw [hnode, haddr]
      · rintro ⟨⟨a', hnode⟩, hsame⟩
        obtain ⟨ss, hss, heq⟩ := hsame hudpa advertise rfl
        refine ⟨a', Option.bind_eq_some_iff.mpr ⟨ss, hss, ?_⟩, hnode⟩
        rw [← heq, hnode]
  · obtain ⟨ss, hname, rfl⟩ := h
    have hown : (w.ans.getsockname.bind fun ss => ss.replyAddr ss.port) = ss.replyAddr ss.port := by
      rw [hname]
      rfl
    rw [said_iff hown, SockAddr.replyAddr_isSome, hname]
    simp
  · obtain ⟨fd, ss, hans, rfl⟩ := h
    have hown : (w.ans.accept.bind fun peer => peer.2.replyAddr peer.2.port) =
        ss.replyAddr ss.port := by
      rw [hans]
      rfl
    rw [said_iff hown, SockAddr.replyAddr_isSome, hans]
    simp
  · exact h.elim

/-- What follows the head of a success reply determines its address. -/
theorem prefix_iff {a : Option ReplyAddr} {a' : ReplyAddr} {l : List (List UInt8)} (hl : Plain l) :
    a'.chunks <+: addrChunks a ++ l ↔ a = some a' := by
  constructor
  · intro h
    cases a with
    | none =>
      have hmem : [a'.atyp] ∈ l := h.subset (by simp [ReplyAddr.chunks])
      exact absurd rfl (hl _ hmem).1
    | some a =>
      obtain ⟨t, ht⟩ := h
      simp only [addrChunks, ReplyAddr.chunks, Option.elim_some, List.cons_append, List.nil_append,
        List.cons.injEq, and_true] at ht
      obtain ⟨hatyp, haddr, hport, -⟩ := ht
      cases a
      cases a'
      simp_all
  · rintro rfl
    exact List.prefix_append _ _

/-- **Success replies say the right address exactly when the configuration's memory does.** In
every run, a success reply that a step queues goes on with the address it has to carry if and
only if that address is IPv4 or IPv6 and, for UDP ASSOCIATE, the list node that stands in for the
configured address says the same. -/
theorem success_reply_iff {cfg : Configs} {fd : Int} {ss : SockAddr} {bufs : Side → OutBuff}
    {mallocs epollAdd : Bool} {w₀ : World}
    (hw₀ : acceptNewClient fd ss bufs mallocs epollAdd = some w₀) {is : List Input} {i : Input}
    {w w' : World} (hw : (Lib.run (step cfg) is w₀).state = w)
    (hw' : (Lib.run (step cfg) (is ++ [i]) w₀).state = w') (hrelay : w.shared.state ≠ .full)
    {before after : List (List UInt8)}
    (hqueued : w'.chunks = w.chunks ++ (before ++ successHead :: after)) :
    ∃ ans, i = .handle ans ∧ ∃ v ∈ w.next ans,
      ((∃ a, v.ownAddr cfg = some a ∧ a.chunks <+: after) ↔ v.Truthful cfg) := by
  have hlast := run_transition (P := fun _ => True) (C := fun _ _ => True)
    (acceptNewClient_sane hw₀)
    rfl trivial (Lib.meets_of_forall (fun _ _ => trivial) (is ++ [i]) _)
    (fun _ _ _ _ _ => trivial) hw hw'
  have hnew : w'.chunks ≠ w.chunks := fun heq => by
    have hlen := congrArg List.length hqueued
    simp [heq] at hlen
  rcases hlast with rfl | ⟨⟨hs, -, -⟩, -, f, hstep⟩
  · exact absurd rfl hnew
  · obtain heq | ⟨ans, hi, v, hv, hreplied⟩ := hstep.queues hs hrelay
    · exact absurd heq hnew
    · refine ⟨ans, hi, v, hv, ?_⟩
      rcases hreplied with ⟨l, hl, heq⟩ | ⟨a, l, l', ha, hl, hl', heq⟩
      · obtain rfl := List.append_cancel_left (hqueued.symm.trans heq)
        exact absurd (List.mem_append_right before List.mem_cons_self) hl.not_mem
      · have hsplit := List.append_cancel_left (hqueued.symm.trans heq)
        have hnone : successHead ∉ addrChunks a ++ l' := fun hmem =>
          (List.mem_append.mp hmem).elim (fun hmem => ha.length _ hmem rfl) hl'.not_mem
        obtain ⟨rfl, -, rfl⟩ := (List.append_cons_inj_of_notMem hl.not_mem hnone).mp hsplit.symm
        rw [← ha.right_iff]
        simp only [prefix_iff hl']

theorem success_reply_iff_connect :
    ∃ v ∈ (Lib.run (step openConfigs) (literalConnect ++ connectDone.take 1)
        (newClient 5 (.inet ![4, 0] ![127, 0, 0, 1]) fun _ => .zero)).state.next
          { Answers.idle with
            soError := some 0, getsockname := some (.inet ![4, 1] ![127, 0, 0, 1]) },
      ((∃ a, v.ownAddr openConfigs = some a ∧
        a.chunks <+: [[atypIpv4], [127, 0, 0, 1], [4, 1]]) ↔ v.Truthful openConfigs) := by
  have hstate : (Lib.run (step openConfigs) (literalConnect ++ connectDone.take 1)
      (newClient 5 (.inet ![4, 0] ![127, 0, 0, 1]) fun _ => .zero)).state.shared.state ≠ .full := by
    decide +kernel
  have hqueued : (Lib.run (step openConfigs) ((literalConnect ++ connectDone.take 1) ++
        [.handle { Answers.idle with
          soError := some 0, getsockname := some (.inet ![4, 1] ![127, 0, 0, 1]) }])
        (newClient 5 (.inet ![4, 0] ![127, 0, 0, 1]) fun _ => .zero)).state.chunks =
      (Lib.run (step openConfigs) (literalConnect ++ connectDone.take 1)
        (newClient 5 (.inet ![4, 0] ![127, 0, 0, 1]) fun _ => .zero)).state.chunks ++
          ([] ++ successHead :: [[atypIpv4], [127, 0, 0, 1], [4, 1]]) := by
    decide +kernel
  have haccept : acceptNewClient 5 (.inet ![4, 0] ![127, 0, 0, 1]) (fun _ => .zero) true true =
      some (newClient 5 (.inet ![4, 0] ![127, 0, 0, 1]) fun _ => .zero) := rfl
  obtain ⟨ans, hi, v, hv, hiff⟩ := success_reply_iff haccept rfl rfl hstate hqueued
  cases hi
  exact ⟨v, hv, hiff⟩

/-- The server of one address for relaying datagrams; the list node that holds it is the last of
its list. -/
def datagramConfigs : Configs :=
  { openConfigs with
    udpaAdvertise := [⟨.inet ![0, 0] ![192, 0, 2, 1],
      ![0, 0, 0, 0, 0, 0, 0, 0, 16, 0, 0, 0, 0, 0, 0, 0, 0x40, 0x12, 0x60, 0, 0x55, 0x55, 0, 0]⟩] }

/-- The relay socket is at port 8000. -/
def relayAnswers : Answers :=
  { Answers.idle with
    recv := some 10, socket := some 6, getsockname := some (.inet ![31, 64] ![0, 0, 0, 0]) }

/-- A UDP ASSOCIATE for 10.0.0.1, port 80, up to the event that it is handled in. -/
def associating : List Input :=
  greeting 5 ++ [.arrive 5 [5, cmdUdpa, 0, atypIpv4, 10, 0, 0, 1, 0, 80],
    .poll [.peer 5 (some .client) epollIn]]

/-- The reply to UDP ASSOCIATE says 0.0.0.0, port 0, and not 192.0.2.1, port 8000. -/
theorem success_reply_wrong :
    ¬ ∀ (cfg : Configs) (fd : Int) (ss : SockAddr) (bufs : Side → OutBuff) (mallocs epollAdd : Bool)
      (w₀ : World), acceptNewClient fd ss bufs mallocs epollAdd = some w₀ →
      ∀ (is : List Input) (i : Input) (w w' : World), (Lib.run (step cfg) is w₀).state = w →
        (Lib.run (step cfg) (is ++ [i]) w₀).state = w' → w.shared.state ≠ .full →
        ∀ before after, w'.chunks = w.chunks ++ (before ++ successHead :: after) →
          ∃ ans, i = .handle ans ∧ ∃ v ∈ w.next ans, ∃ a, v.ownAddr cfg = some a ∧
            a.chunks <+: after := by
  intro h
  have hqueued : (Lib.run (step datagramConfigs) (associating ++ [.handle relayAnswers])
        (newClient 5 (.inet ![4, 0] ![127, 0, 0, 1]) fun _ => .zero)).state.chunks =
      (Lib.run (step datagramConfigs) associating
        (newClient 5 (.inet ![4, 0] ![127, 0, 0, 1]) fun _ => .zero)).state.chunks ++
          ([] ++ successHead :: [[atypIpv4], [0, 0, 0, 0], [0, 0]]) := by
    decide +kernel
  have hright : (Lib.run (step datagramConfigs) associating
      (newClient 5 (.inet ![4, 0] ![127, 0, 0, 1]) fun _ => .zero)).state.shared.state ≠ .full ∧
      ((Lib.run (step datagramConfigs) associating (newClient 5 (.inet ![4, 0] ![127, 0, 0, 1])
        fun _ => .zero)).state.next relayAnswers).all (fun v => (v.ownAddr datagramConfigs).all
          fun a => a.chunks == [[atypIpv4], [192, 0, 2, 1], [31, 64]]) = true := by
    decide +kernel
  obtain ⟨ans, hi, v, hv, a, ha, hprefix⟩ := h datagramConfigs 5 (.inet ![4, 0] ![127, 0, 0, 1])
    (fun _ => .zero) true true _ rfl associating (.handle relayAnswers) _ _ rfl rfl hright.1
      [] _ hqueued
  cases hi
  have hall := hright.2
  rw [Option.mem_def.mp hv] at hall
  have hchunks : a.chunks = [[atypIpv4], [192, 0, 2, 1], [31, 64]] := by
    simpa [ha] using hall
  rw [hchunks] at hprefix
  simp at hprefix

end Socksprox
