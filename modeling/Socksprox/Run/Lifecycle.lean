import Socksprox.Atomic
import Socksprox.Replies
import Socksprox.Run.Wakeup
import Socksprox.Run.Gate

/-!
The life of a connection's objects. Freeing happens deep inside an error reply that does not reach
the client, and the callers of `reply_with_err` go on with the request as if it had.
-/

namespace Socksprox

open Lib (wp)

/-! ### The request that is carried out -/

/-- `waitingcommand` takes a request to `init_command`: the resolver has answered, or a request for
a literal address is there in full and passes the firewall. -/
def World.Carries (cfg : Configs) (w : World) : Prop :=
  w.info.resolverRet ≠ -1 ∨
    w.readable (w.shared.fd .client) (w.shared.out .server).free ≠ [] ∧
      RequestComplete cfg (w.gathered.take 300) ∧ reqAt (w.gathered.take 300) 3 ≠ atypDomn ∧
      w.ans.mallocSa = true ∧ firewall w.asking cfg = false

/-- How many error replies `waitingcommand` does not stop at: one to a failed lookup, and one to a
command that is not allowed. -/
def World.hasty (cfg : Configs) (w : World) : Nat :=
  (if w.info.resolverRet = 0 ∨ w.info.resolverRet = -1 then 0 else 1) +
    if cfg.allows w.asking.cmd = true then 0 else 1

/-- BIND or UDP ASSOCIATE gets as far as its success reply. -/
def World.Promises (cfg : Configs) (w : World) : Prop :=
  ∃ g : InitFn, w.info.cmd = g.cmd ∧ cfg.allow g = true ∧ (w.info.sa ≠ none ∨ w.info.ai ≠ []) ∧
    w.socketFd ≠ none ∧ ListensOn cfg w g ∧ (g = .bind → w.ans.getsockname ≠ none)

/-- The command leaves nothing to answer: the attempt to connect has begun, or the success reply is
in `client_out`. -/
def World.Starts (cfg : Configs) (w : World) : Prop :=
  cfg.allows w.info.cmd = true ∧ w.ans.epollAdd = true ∧
    (w.info.cmd = cmdConn ∧ w.Dials ∧ w.socketFd ≠ none ∧ w.Begins ∧ w.ans.mallocData = true ∨
      w.Promises cfg ∧ (IpFamily w.info.af → w.modAnswer = true))

/-- `init_command` is reached in `x` with the request of `w`. -/
structure Carried (cfg : Configs) (w x : World) : Prop where
  carries : w.Carries cfg
  isOpen : Open x
  info : x.info = w.asking
  ans : x.ans = w.ans
  fds : ∀ fd, (x.fds fd).isNone = (w.fds fd).isNone
  out : x.shared.out .client = w.shared.out .client
  state : x.shared.state = w.shared.state
  chunks : x.chunks = w.chunks

section Request

variable {cfg : Configs} {w w₁ w' : World} {e : Side} {ev : Events} {f : Option Fault}

/-- A receive closes and opens nothing. -/
theorem Recv.isNone {fd : Int} {n : Nat} {r : Option (List UInt8)} (h : Recv w fd n r w₁)
    (fd' : Int) :
    (w₁.fds fd').isNone = (w.fds fd').isNone := by
  cases h with
  | failed => rfl
  | zero hn => rfl
  | ended hsk hempty hfin => rfl
  | data hsk hinbox hne hle =>
    by_cases hfd : fd' = fd
    · subst hfd
      simp [hsk]
    · simp [hfd]

/-- A request from the client's bytes that gets past the firewall. -/
theorem Recv.carried {bytes req : List UInt8} {total : Nat} (hw : Open w)
    (hret : w.info.resolverRet = -1)
    (hrecv : Recv w (w.shared.fd .client) (w.shared.out .server).free (some bytes) w₁)
    (hne : bytes ≠ []) (hreq : req = w.gathered.take 300) (hlen : 5 ≤ req.length)
    (htotal : totalLen cfg req = some total) (hcomplete : total ≤ req.length)
    (hversion : reqAt req 0 = socks5Version) (hatyp : reqAt req 3 ≠ atypDomn)
    (hmalloc : w.ans.mallocSa = true)
    (hfirewall : firewall (((w₁.queue .server bytes).commandStored req).addrStored req).info cfg =
      false) :
    Carried cfg w ((((w₁.queue .server bytes).commandStored req).addrStored req).emit
      (.firewall (((w₁.queue .server bytes).commandStored req).addrStored req).info)) := by
  have hinfo : (((w₁.queue .server bytes).commandStored req).addrStored req).info = w.asking := by
    subst hreq
    have hkept : (w₁.queue .server bytes).info = w.info := by simpa using hrecv.info
    show { (w₁.queue .server bytes).info with
      cmd := reqAt (w.gathered.take 300) 1, atyp := reqAt (w.gathered.take 300) 3
      sa := some (reqAddr (w.gathered.take 300)) } = w.asking
    rw [hkept, World.asking, if_pos hret]
  have hopen : Open ((w₁.queue .server bytes).commandStored req) :=
    Open.setInfo (by simpa using hrecv.open hw) rfl rfl
  refine ⟨.inr ⟨?_, ?_, ?_, hmalloc, ?_⟩, ?_, hinfo, ?_, fun fd => ?_, ?_, ?_, ?_⟩
  · rw [← hrecv.readable]
    exact hne
  · subst hreq
    exact ⟨hlen, by simpa [htotal] using hcomplete, hversion⟩
  · rwa [← hreq]
  · rwa [← hinfo]
  · simpa using hopen.addrStored req
  · simpa using hrecv.ans
  · simpa using hrecv.isNone fd
  · simp [hrecv.shared]
  · simp [hrecv.shared]
  · rw [World.chunks_emit]
    have hstored : (((w₁.queue .server bytes).commandStored req).addrStored req).chunks =
        (w₁.queue .server bytes).chunks := rfl
    simp [hstored, hrecv.chunks, Act.chunk?]

end Request

/-! ### Success replies -/

section Promises

variable {cfg : Configs} {w w₁ w' : World} {g : InitFn} {a : Option ReplyAddr} {r : Bool}

/-- A success reply to BIND or UDP ASSOCIATE that is begun was promised. -/
theorem ListenReply.promises (hcmd : w.info.cmd = g.cmd) (hallow : cfg.allow g = true)
    (haddr : w.info.sa ≠ none ∨ w.info.ai ≠ []) {sfd : Int} (hsock : w.socketFd = some sfd)
    (hready : ListensOn cfg w g) (ha : ListenReply cfg w g a) : w.Promises cfg := by
  refine ⟨g, hcmd, hallow, haddr, by simp [hsock], hready, fun hbind => ?_⟩
  cases ha with
  | bind hadv hss => simp [hss]
  | udpa hadv => cases hbind

theorem InitFn.cmd_injective {g g' : InitFn} (h : g.cmd = g'.cmd) : g = g' := by
  cases g <;> cases g' <;> first | rfl | exact absurd h (by decide)

/-- With an address it is announced to epoll, once. -/
theorem FinishReply.mods (h : FinishReply w a r w') :
    w'.ans.epollMod = if a.isSome = true then w.ans.epollMod.tail else w.ans.epollMod := by
  cases h <;> simp [World.queueAddr]

theorem OpenConnect.ans {dst : SockAddr} {r : Option Int} (h : OpenConnect w dst r w') :
    w'.ans = w.ans := by
  cases h <;> rfl

theorem InitConnect.ans (h : InitConnect w w') : w'.ans = w.ans := by
  cases h with
  | noAddr hai hsa => rfl
  | notOpened h => exact h.ans
  | noMemory h hmalloc => exact h.ans
  | unwatched h => exact h.ans
  | connecting h => exact h.ans

/-- One answer to `EPOLL_CTL_MOD` goes to the success reply, if one with an address is begun. -/
def World.Announced (cfg : Configs) (w w' : World) : Prop :=
  (w.Promises cfg ∧ IpFamily w.info.af → w'.ans.epollMod = w.ans.epollMod.tail) ∧
    (¬ (w.Promises cfg ∧ IpFamily w.info.af) → w'.ans.epollMod = w.ans.epollMod)

/-- What was promised holds of the command. -/
theorem World.Promises.of_cmd (h : w.Promises cfg) (hcmd : w.info.cmd = g.cmd) :
    (w.info.sa ≠ none ∨ w.info.ai ≠ []) ∧ w.socketFd ≠ none ∧ ListensOn cfg w g ∧
      (g = .bind → w.ans.getsockname ≠ none) := by
  obtain ⟨g', hcmd', -, haddr, hsock, hready, hname⟩ := h
  obtain rfl := InitFn.cmd_injective (hcmd.symm.trans hcmd')
  exact ⟨haddr, hsock, hready, hname⟩

theorem InitListen.announced (hcmd : w.info.cmd = g.cmd) (hallow : cfg.allow g = true)
    (h : InitListen cfg g w w') : w.Announced cfg w' := by
  have hnone : ¬ w.Promises cfg → w'.ans.epollMod = w.ans.epollMod → w.Announced cfg w' :=
    fun hno heq => ⟨fun hp => absurd hp.1 hno, fun _ => heq⟩
  have hreply : ∀ {sfd a r w₁}, (w.info.sa ≠ none ∨ w.info.ai ≠ []) → w.socketFd = some sfd →
      ListensOn cfg w g → ListenReply cfg w g a → FinishReply (w.listenStarted g sfd) a r w₁ →
      w'.ans.epollMod = w₁.ans.epollMod → w.Announced cfg w' := by
    intro sfd a r w₁ haddr hsock hready ha hr heq
    have hpromises := ha.promises hcmd hallow haddr hsock hready
    have hstarted : (w.listenStarted g sfd).ans = w.ans := by
      simp [World.listenStarted, World.queueHead]
    rw [World.Announced, heq, hr.mods, hstarted, ← ha.isSome_iff, ← Option.isSome_iff_exists]
    exact ⟨fun hp => if_pos hp.2, fun hp => if_neg fun hsome => hp ⟨hpromises, hsome⟩⟩
  cases h with
  | notOpened hno =>
    refine hnone (fun hp => ?_) rfl
    obtain ⟨haddr, hsock, -, -⟩ := hp.of_cmd hcmd
    rcases hno with ⟨hsa, hai⟩ | hno
    · exact haddr.elim (absurd hsa) (absurd hai)
    · exact hsock hno
  | failed haddr hnew hrep hbad => exact hnone (fun hp => hbad (hp.of_cmd hcmd).2.2.1) rfl
  | unnamed haddr hnew hsock hready hbind hname =>
    exact hnone (fun hp => (hp.of_cmd hcmd).2.2.2 hbind hname) rfl
  | unanswered haddr hnew ha hr hsock hready => exact hreply haddr hsock hready ha hr rfl
  | unlistened haddr hnew ha hr hsock hready => exact hreply haddr hsock hready ha hr rfl
  | listening haddr hnew ha hr hans hadd hsock hready => exact hreply haddr hsock hready ha hr rfl

theorem Init.announced (h : Init cfg w w') : w.Announced cfg w' := by
  cases h with
  | connect hcmd hallow h =>
    have hno : ¬ w.Promises cfg := fun hp => (hp.of_cmd (g := .connect) hcmd).2.2.1
    exact ⟨fun hp => absurd hp.1 hno, fun _ => by rw [h.ans]⟩
  | bind hcmd hallow h => exact h.announced (g := .bind) hcmd hallow
  | udpa hcmd hallow h => exact h.announced (g := .udpa) hcmd hallow

theorem InitConnect.started (hrep : w.info.rep = repUnset) (hadd : w.ans.epollAdd = true)
    (hdials : w.Dials) (hsock : w.socketFd ≠ none) (hbegins : w.Begins)
    (hmalloc : w.ans.mallocData = true) (h : InitConnect w w') : w'.info.rep = repUnset := by
  cases h with
  | noAddr hai hsa => exact absurd ⟨hsa, hai⟩ hdials.some_addr.1
  | notOpened h =>
    obtain ⟨hr, -, -⟩ | ⟨-, dst, w₁, ho, -⟩ := h.dials
    · cases hr
    · cases ho with
      | noSocket hno => exact absurd hno hsock
      | refused hans hpos hnew herr =>
        rcases hbegins with h | h | h
        · exact absurd h herr.1
        · exact absurd h herr.2.1
        · exact absurd h herr.2.2
  | noMemory h hno =>
    rw [hmalloc] at hno
    cases hno
  | unwatched h _ hno =>
    obtain ⟨-, -, sa, hsa, hip⟩ | ⟨-, dst, w₁, ho, hfd, -⟩ := h.dials
    · exact absurd ⟨sa, hsa, hip⟩ hdials.some_addr.2
    · cases ho with
      | started hans hpos hnew hok =>
        have hfailed := hno { Sock.opened with nonblock := true } (by simp [hfd]) rfl
        rw [hadd] at hfailed
        cases hfailed
  | connecting h => exact h.info.1.trans hrep

theorem InitListen.started (hadd : w.ans.epollAdd = true) (hcmd : w.info.cmd = g.cmd)
    (hpromises : w.Promises cfg) (hmod : IpFamily w.info.af → w.modAnswer = true)
    (h : InitListen cfg g w w') : w'.info.rep = repSuccess := by
  obtain ⟨haddr, hsock, hready, hname⟩ := hpromises.of_cmd hcmd
  cases h with
  | notOpened hno =>
    rcases hno with ⟨hsa, hai⟩ | hno
    · exact haddr.elim (absurd hsa) (absurd hai)
    · exact absurd hno hsock
  | failed _ hnew hrep hbad => exact absurd hready hbad
  | unnamed _ hnew _ _ hbind hno => exact absurd hno (hname hbind)
  | @unanswered sfd _ _ _ hnew ha h =>
    have hanswer : (w.listenStarted g sfd).modAnswer = w.modAnswer := by
      simp [World.listenStarted, World.queueHead, World.modAnswer]
    cases h.modAnswer.mpr fun hsome => hanswer.trans (hmod (ha.isSome_iff.mp hsome))
  | unlistened _ hnew ha h _ _ hno =>
    rw [hadd] at hno
    cases hno
  | listening _ hnew ha h =>
    have hrep := h.rep
    simpa [World.listenStarted, World.queueHead] using hrep

/-- A command that starts is not answered with an error. -/
theorem Init.started (hrep : w.info.rep = repUnset) (hstarts : w.Starts cfg) (h : Init cfg w w') :
    w'.info.rep = repUnset ∨ w'.info.rep = repSuccess := by
  obtain ⟨-, hadd, ⟨hcmd', hdials, hsock, hbegins, hmalloc⟩ | ⟨hpromises, hmod⟩⟩ := hstarts
  · cases h with
    | connect hcmd hallow h => exact .inl (h.started hrep hadd hdials hsock hbegins hmalloc)
    | bind hcmd hallow h => exact nomatch hcmd.symm.trans hcmd'
    | udpa hcmd hallow h => exact nomatch hcmd.symm.trans hcmd'
  · cases h with
    | connect hcmd hallow h => exact (hpromises.of_cmd (g := .connect) hcmd).2.2.1.elim
    | bind hcmd hallow h => exact .inr (h.started (g := .bind) hadd hcmd hpromises hmod)
    | udpa hcmd hallow h => exact .inr (h.started (g := .udpa) hadd hcmd hpromises hmod)

end Promises

/-! ### Nothing released is touched -/

section Faults

variable {cfg : Configs} {w w₁ w' : World} {e : Side} {ev : Events} {f : Option Fault}

/-- The first of the answers to `EPOLL_CTL_MOD` that are known, and the rest. -/
theorem World.modAnswer_of_take {n : Nat} (h : ∀ b ∈ w.ans.epollMod.take (n + 1), b = true) :
    w.modAnswer = true ∧ ∀ b ∈ w.popMod.ans.epollMod.take n, b = true := by
  rw [World.modAnswer, World.popMod_ans_epollMod]
  cases hmod : w.ans.epollMod with
  | nil => simp
  | cons b bs =>
    rw [hmod, List.take_succ_cons] at h
    exact ⟨h b List.mem_cons_self, fun b' hb' => h b' (List.mem_cons_of_mem b hb')⟩

/-- An error reply with room for it that epoll takes is not lost. -/
theorem ReplyLost.not_heard (hroom : 10 ≤ (w.shared.out .client).free) (hmod : w.modAnswer = true)
    (h : ReplyLost w e w') : False := by
  cases h with
  | noRoom hfull => omega
  | unwatched hroom hlost => exact Bool.false_ne_true (hlost.symm.trans hmod)

theorem CommandDone.no_fault {o : Obj} (hroom : 10 ≤ (w.shared.out .client).free)
    (hheard : ∀ b ∈ w.ans.epollMod.take (if cfg.allows w.info.cmd = true then 0 else 1), b = true)
    (h : CommandDone cfg w o f w') : f = none := by
  cases h with
  | refusedLost hno h =>
    rw [if_neg (by simp [hno])] at hheard
    exact (h.not_heard (w := w.setRep repBadcomm) hroom (World.modAnswer_of_take hheard).1).elim
  | refused hno hroom hmod h => rfl
  | started h hrep => rfl
  | failed h hrep hreply => rfl

/-- The buffer is empty, and an error reply leaves room for another one. -/
theorem Open.room (hw : Open w) (hempty : (w.shared.out .client).contents = []) (rep : UInt8) :
    10 ≤ (w.shared.out .client).free ∧
      10 ≤ ((w.setRep rep).errReplied.shared.out .client).free := by
  have hused := Ring.contents_eq_nil.mp hempty
  have hreplied := errReplied_used (w := w.setRep rep)
  have hw' : Open (w.setRep rep).errReplied := open_errReplied (open_setRep.mpr hw)
  rw [World.setRep_shared] at hreplied
  rw [World.free_of_open _ hw, World.free_of_open _ hw', outbuffsize]
  omega

theorem ResolverReturned.no_fault (hw : Open w) (hempty : (w.shared.out .client).contents = [])
    (hret : w.info.resolverRet ≠ -1) (hheard : ∀ b ∈ w.ans.epollMod.take (w.hasty cfg), b = true)
    (h : ResolverReturned cfg w f w') : f = none := by
  have hroom := hw.room hempty repGenfail
  have hasking : w.asking = w.info := if_neg hret
  rw [World.hasty, hasking] at hheard
  cases h with
  | lost hne h =>
    rw [if_neg (by simp [hne, hret]), Nat.add_comm] at hheard
    exact (h.not_heard (w := w.setRep repGenfail) hroom.1 (World.modAnswer_of_take hheard).1).elim
  | failed hne _ hmod h =>
    rw [if_neg (by simp [hne, hret]), Nat.add_comm] at hheard
    refine h.no_fault hroom.2 ?_
    simpa [World.errReplied] using (World.modAnswer_of_take hheard).2
  | resolved hzero h =>
    rw [if_pos (.inl hzero), Nat.zero_add] at hheard
    exact h.no_fault hroom.1 hheard

/-- `waitingcommand` touches nothing that it released. -/
theorem WaitingCommand.no_fault (hw : Open w) (hempty : (w.shared.out .client).contents = [])
    (hheard : w.Carries cfg → ∀ b ∈ w.ans.epollMod.take (w.hasty cfg), b = true)
    (h : WaitingCommand cfg w e ev f w') : f = none := by
  cases h with
  | idle hunwanted => rfl
  | resolver hret h => exact h.no_fault hw hempty hret (hheard (.inl hret))
  | ended hret hrecv hr => rfl
  | @data bytes got w₁ _ _ hret hrecv hgot h hne =>
    obtain rfl : got = w.gathered := hgot.trans hrecv.gathered
    cases h with
    | short hlen => rfl
    | badAtyp hlen htotal h => rfl
    | part hlen htotal hpart => rfl
    | badVersion hlen htotal hcomplete hversion => rfl
    | run hlen htotal hcomplete hversion h =>
      cases h with
      | domain hatyp => rfl
      | noMemory hatyp hmalloc => rfl
      | dropped hatyp hfirewall h hmalloc => rfl
      | passed hatyp hfirewall h hmalloc =>
        have hx := hrecv.carried hw hret hne rfl hlen htotal hcomplete hversion hatyp
          (by simpa [hrecv.ans] using hmalloc) hfirewall
        have hcarried := hheard hx.carries
        rw [World.hasty, if_pos (.inr hret), Nat.zero_add, ← hx.info, ← hx.ans] at hcarried
        exact h.no_fault (hx.out ▸ (hw.room hempty 0).1) hcarried

end Faults

/-! ### The client's end is kept -/

/-- The request that the resolver's answer takes up again does not end the client's end: there is
something to receive where the request is read again, and epoll takes the last error reply if there
is one. -/
structure World.KeepsClient (cfg : Configs) (w : World) : Prop where
  received : w.info.resolverRet = -1 →
    w.readable (w.shared.fd .client) (w.shared.out .server).free ≠ []
  heard : w.info.resolverRet ≠ -1 → ¬ w.Starts cfg → ¬ (w.Promises cfg ∧ IpFamily w.info.af) →
    w.ans.epollMod.getD (w.hasty cfg) true = true
  heardBehind : w.info.resolverRet ≠ -1 → ¬ w.Starts cfg → w.Promises cfg ∧ IpFamily w.info.af →
    w.ans.epollMod.getD (w.hasty cfg + 1) true = true

section Kept

variable {cfg : Configs} {w w₁ w' : World} {e : Side} {ev : Events} {f : Option Fault}

theorem World.modAnswer_eq_getD (w : World) : w.modAnswer = w.ans.epollMod.getD 0 true := by
  rw [World.modAnswer, List.headD_eq_getD]

theorem World.getD_tail (l : List Bool) (n : Nat) : l.tail.getD n true = l.getD (n + 1) true := by
  cases l <;> rfl

/-- An error reply with room for it that epoll takes leaves the connection as it is. -/
theorem ReplyWithErr.heard (hroom : 10 ≤ (w.shared.out .client).free) (hmod : w.modAnswer = true)
    (h : ReplyWithErr w e w') : w' = w.errReplied := by
  cases h with
  | replied hroom hmod => rfl
  | lost h => exact (h.not_heard hroom hmod).elim

theorem CommandDone.not_closed {o : Obj} (hw : Open w) (hused : (w.shared.out .client).used ≤ 10)
    (hready : w.Starts cfg → w.info.rep = repUnset)
    (hheard : ¬ w.Starts cfg → ¬ (w.Promises cfg ∧ IpFamily w.info.af) →
      w.ans.epollMod.getD (if cfg.allows w.info.cmd = true then 0 else 1) true = true)
    (hbehind : ¬ w.Starts cfg → w.Promises cfg ∧ IpFamily w.info.af →
      w.ans.epollMod.getD 1 true = true)
    (h : CommandDone cfg w o none w') : w'.shared.state ≠ .closed := by
  cases h with
  | refused hno hroom hmod h =>
    have hreplied := errReplied_used (w := w.setRep repBadcomm)
    have hw' : Open (w.setRep repBadcomm).errReplied := open_errReplied (open_setRep.mpr hw)
    have hnone : ¬ (w.Promises cfg ∧ IpFamily w.info.af) := by
      rintro ⟨⟨g, hcmd, hallow, -⟩, -⟩
      rw [hcmd, cfg.allows_cmd, hallow] at hno
      cases hno
    have hstarts : ¬ w.Starts cfg := fun hs => nomatch hno.symm.trans hs.1
    have hsecond := hheard hstarts hnone
    rw [if_neg (by simp [hno])] at hsecond
    rw [World.setRep_shared] at hreplied
    rw [h.heard ?_ ?_]
    · exact fun h => by cases h
    · rw [World.free_of_open _ hw', outbuffsize]
      omega
    · rw [World.modAnswer_eq_getD]
      simpa [World.errReplied, World.getD_tail] using hsecond
  | started h hrep =>
    rcases h.done hw hrep with hs | hs <;> simp [hs]
  | @failed w₁ _ h hrep hreply =>
    have hused₁ := h.used
    rw [hreply.heard ?_ ?_]
    · exact fun h => by cases h
    · rw [World.free_of_open _ (h.open hw), outbuffsize]
      omega
    · rw [World.modAnswer_eq_getD]
      have hallow : cfg.allows w.info.cmd = true := by
        cases h with
        | connect hcmd hallow h => simp [Configs.allows, hcmd, hallow]
        | bind hcmd hallow h => simp [Configs.allows, hcmd, hallow]
        | udpa hcmd hallow h => simp [Configs.allows, hcmd, hallow]
      have hstarts : ¬ w.Starts cfg := fun hs =>
        (h.started (hready hs) hs).elim (absurd · hrep.1) (absurd · hrep.2)
      by_cases hpromises : w.Promises cfg ∧ IpFamily w.info.af
      · rw [h.announced.1 hpromises, World.getD_tail]
        exact hbehind hstarts hpromises
      · rw [h.announced.2 hpromises]
        simpa [hallow] using hheard hstarts hpromises

theorem ResolverReturned.not_closed (hw : Open w) (hempty : (w.shared.out .client).contents = [])
    (hret : w.info.resolverRet ≠ -1) (hrep : w.info.rep = repUnset) (hsa : w.info.sa = none)
    (hai : w.info.resolverRet ≠ 0 → w.info.ai = []) (hkeeps : w.KeepsClient cfg)
    (h : ResolverReturned cfg w none w') : w'.shared.state ≠ .closed := by
  have hused := Ring.contents_eq_nil.mp hempty
  have hheard := hkeeps.heard hret
  have hbehind := hkeeps.heardBehind hret
  have hasking : w.asking = w.info := if_neg hret
  rw [World.hasty, hasking] at hheard hbehind
  cases h with
  | failed hne hroom hmod h =>
    have hreplied := errReplied_used (w := w.setRep repGenfail)
    have hnone : ∀ {x : World}, x.info.sa = none → x.info.ai = [] →
        ¬ (x.Promises cfg ∧ IpFamily x.info.af) := by
      rintro x hsa hai ⟨⟨g, -, -, haddr, -⟩, -⟩
      exact haddr.elim (absurd hsa) (absurd hai)
    have hidle : ∀ {x : World}, x.info.sa = none → x.info.ai = [] → ¬ x.Starts cfg := by
      rintro x hsa hai ⟨-, -, ⟨-, hdials, -⟩ | ⟨⟨g, -, -, haddr, -⟩, -⟩⟩
      · exact hdials.some_addr.1 ⟨hsa, hai⟩
      · exact haddr.elim (absurd hsa) (absurd hai)
    have hsa' : (w.setRep repGenfail).errReplied.info.sa = none := by
      simpa [World.errReplied] using hsa
    have hai' : (w.setRep repGenfail).errReplied.info.ai = [] := by
      simpa [World.errReplied] using hai hne
    have hlast := hheard (hidle hsa (hai hne)) (hnone hsa (hai hne))
    rw [if_neg (by simp [hne, hret]), Nat.add_comm, ← World.getD_tail] at hlast
    rw [World.setRep_shared] at hreplied
    refine h.not_closed (open_errReplied (open_setRep.mpr hw)) (by omega)
      (fun hs => absurd hs (hidle hsa' hai')) (fun _ _ => ?_) fun _ hp =>
        absurd hp (hnone hsa' hai')
    simpa [World.errReplied] using hlast
  | resolved hzero h =>
    rw [if_pos (.inl hzero), Nat.zero_add] at hheard hbehind
    refine h.not_closed hw (by omega) (fun _ => hrep) hheard fun hs hp => ?_
    have hallow : cfg.allows w.info.cmd = true := by
      obtain ⟨g, hcmd, hallow, -⟩ := hp.1
      rw [hcmd, cfg.allows_cmd, hallow]
    simpa [hallow] using hbehind hs hp

/-- The request that was resumed is the one that `server_out` holds. -/
theorem WaitingCommand.not_closed {got : List UInt8} (hw : Open w)
    (hs : w.shared.state = .waitingCommand) (hempty : (w.shared.out .client).contents = [])
    (hrep : w.info.rep = repUnset) (hsa : w.info.sa = none)
    (hai : w.info.resolverRet ≠ 0 → w.info.ai = []) (hgot : (w.shared.out .server).contents = got)
    (hrequest : CommandFor cfg w.info.cmd got)
    (hdomain : reqAt got 3 = atypDomn) (hkeeps : w.KeepsClient cfg)
    (h : WaitingCommand cfg w .client epollIn none w') : w'.shared.state ≠ .closed := by
  cases h with
  | idle hunwanted => rcases hunwanted with h | h <;> cases h
  | resolver hret h => exact h.not_closed hw hempty hret hrep hsa hai hkeeps
  | ended hret hrecv hr =>
    have hreceived := hrecv.of_readable (hkeeps.received hret)
    rcases hr with rfl | rfl
    · cases hreceived
    · exact absurd (Option.some.inj hreceived).symm (hkeeps.received hret)
  | @data bytes all w₁ _ _ hret hrecv hall h =>
    obtain ⟨rsv, atyp, rest, hreq, hallow⟩ := hrequest
    have hfront : (all.take 300) = socks5Version :: w.info.cmd :: rsv :: atyp ::
        (rest ++ bytes).take 296 := by
      rw [hall, hgot, hreq]
      rfl
    have hatyp : atyp = atypDomn := by simpa [hreq, reqAt] using hdomain
    rw [hfront] at h
    have hstate : (w₁.queue .server bytes).shared.state ≠ .closed := by
      simp [hrecv.shared, hs]
    cases h with
    | short hlen => exact hstate
    | badAtyp hlen htotal h => simp [totalLen, reqAt, hatyp, hallow hatyp, atypDomn,
        atypIpv4] at htotal
    | part hlen htotal hpart => exact hstate
    | badVersion hlen htotal hcomplete hversion => exact absurd rfl hversion
    | run hlen htotal hcomplete hversion h =>
      cases h with
      | domain hdomn => exact fun h => by cases h
      | noMemory hdomn hmalloc => exact hstate
      | dropped hdomn hfirewall h => exact absurd hatyp hdomn
      | passed hdomn hfirewall h => exact absurd hatyp hdomn

end Kept

/-! ### The other end is kept -/

section Other

variable {cfg : Configs} {w w₁ w' : World} {e s : Side} {ev : Events} {f : Option Fault}

theorem World.hungUp_data (hs : s ≠ e) : (w.hungUp e).mem (.data s) = w.mem (.data s) := by
  simp [World.memFreed, hs]

theorem ReplyWithErr.data (hs : s ≠ e) (h : ReplyWithErr w e w') :
    w'.mem (.data s) = w.mem (.data s) := by
  cases h with
  | replied hroom hmod => simp [World.errReplied]
  | lost h =>
    cases h with
    | noRoom hroom => exact World.hungUp_data hs
    | unwatched hroom hmod => simp [World.memFreed, hs]

theorem ConnectFailed.data {error : BitVec 32} (hs : s ≠ .server) (h : ConnectFailed w error w') :
    w'.mem (.data s) = w.mem (.data s) := by
  cases h with
  | retry hlen hget => rfl
  | exhausted hlen hget h => exact (h.data hs).trans rfl
  | single hlen h => exact (h.data hs).trans rfl

theorem Connecting.data (hs : s ≠ .server) (h : Connecting w e ev w') :
    w'.mem (.data s) = w.mem (.data s) := by
  have hconnected : ∀ ss, (w.connectedTo ss).mem (.data s) = w.mem (.data s) := fun ss => by
    simp [World.connectedTo, World.queueHead]
  cases h with
  | idle hidle => rfl
  | unknown hso h => exact (h.data hs).trans rfl
  | failed hso herr h => exact h.data hs
  | unnamed hso hname h => exact (h.data hs).trans rfl
  | oddFamily hso hname haddr h => exact (h.data hs).trans (hconnected _)
  | unanswered hso hname haddr hreply h =>
    obtain ⟨-, -, hmem, -⟩ := hreply.server
    exact (h.data hs).trans ((congrFun hmem _).trans (hconnected _))
  | unwatched hso hname haddr hreply hmod h =>
    obtain ⟨-, -, hmem, -⟩ := hreply.server
    exact (h.data hs).trans ((congrFun (hmod.mem.trans hmem) _).trans (hconnected _))
  | connected hso hname haddr hreply hmod =>
    obtain ⟨-, -, hmem, -⟩ := hreply.server
    exact (congrFun (hmod.mem.trans hmem) _).trans (hconnected _)

theorem BindListening.data (hs : s ≠ .server) (h : BindListening w e ev w') :
    w'.mem (.data s) = w.mem (.data s) := by
  have hpeer : ∀ fd ss, (w.acceptedPeer fd ss).mem (.data s) = w.mem (.data s) := fun fd ss => by
    simp [World.acceptedPeer]
  have hmoved : ∀ {fd ss w₁},
      Added ((w.acceptedPeer fd ss).rehomed fd) fd (epollIn, some .server) true w₁ →
      ((w₁.setRep repSuccess).queueHead repSuccess).mem (.data s) = w.mem (.data s) := by
    intro fd ss w₁ hadd
    rw [World.queueHead, World.queue_mem, World.setRep_mem, hadd.mem]
    exact hpeer fd ss
  cases h with
  | idle hidle => rfl
  | noPeer hnone h => exact (h.data hs).trans rfl
  | @noRequest fd ss _ hans hnew hreq h => exact (h.data hs).trans (hpeer fd ss)
  | @otherPeer fd ss _ _ hans hnew hreq hdiff h => exact (h.data hs).trans (hpeer fd ss)
  | @unwatched fd ss _ _ hans hnew hreq hsame he hadd h => exact (h.data hs).trans (hpeer fd ss)
  | oddFamily hans hnew hreq hsame he hadd haddr h =>
    exact (h.data hs).trans (hmoved hadd)
  | unanswered hans hnew hreq hsame he hadd haddr hreply h =>
    obtain ⟨-, -, hmem, -⟩ := hreply.server
    exact (h.data hs).trans ((congrFun hmem _).trans (hmoved hadd))
  | accepted hans hnew hreq hsame he hadd haddr hreply =>
    obtain ⟨-, -, hmem, -⟩ := hreply.server
    exact (congrFun hmem _).trans (hmoved hadd)

/-- An event for one end releases no other. -/
theorem Handled.other (hp : Phase w) (hd : w.mem (.data e) = .live) (hs : s ≠ e)
    (hlive : w.mem (.data s) = .live) (hwant : w' = w ∨ w.Wants e ev)
    (h : Handled cfg w e ev f w') : w'.mem (.data s) = .live := by
  have hlate : w.shared.state.early = true → False := by
    intro hearly
    have hnone := (hp.early hearly).2.2.2
    cases e with
    | server => exact hnone hd
    | client =>
      cases s with
      | server => exact hnone hlive
      | client => exact hs rfl
  rcases hwant with rfl | hwant
  · exact hlive
  cases h with
  | still hstate => exact hlive
  | waitingMethods hstate h => exact (hlate (by simp [hstate])).elim
  | sendingMethod hstate h => exact (hlate (by simp [hstate])).elim
  | waitingCommand hstate h => exact (hlate (by simp [hstate])).elim
  | sendingReply hstate h =>
    have hclient : s ≠ .client := by
      rcases hstate with hst | hst <;>
      · rw [World.Wants, hst] at hwant
        exact hwant.2 ▸ hs
    cases h with
    | idle hidle => exact hlive
    | stopped h =>
      cases h with
      | failed => simpa [World.memFreed, hclient] using hlive
      | part hk => exact hlive
      | unwatched hmod => simpa [World.memFreed, hclient] using hlive
    | refused hmod hrep => simpa [World.memFreed, hclient] using hlive
    | connected hmod hrep hcmd => simpa using hlive
    | listening hmod hrep hcmd hst => simpa using hlive
    | associated hmod hrep hcmd => simpa using hlive
    | odd hmod hrep hcmd hbind => simpa using hlive
  | connecting hstate h =>
    rw [World.Wants, hstate] at hwant
    exact (h.data (hwant.2 ▸ hs)).trans hlive
  | bindListening hstate h =>
    rw [World.Wants, hstate] at hwant
    exact (h.data (hwant.2 ▸ hs)).trans hlive
  | full hstate h =>
    cases h with
    | idle hidle => exact hlive
    | sendFailed hout => exact hlive
    | sentPart hout hk => exact hlive
    | @drained r _ hout hmod =>
      have hmem := congrFun hmod.mem (.data s)
      cases r <;> exact hmem.trans hlive
    | ended hin hout hrecv hr hmod =>
      obtain ⟨fds, trace, rfl⟩ := hrecv.frame
      exact (congrFun hmod.mem _).trans hlive
    | received hin hout hrecv hne hmod =>
      obtain ⟨fds, trace, rfl⟩ := hrecv.frame
      exact (congrFun hmod.mem _).trans (by simpa using hlive)
  | halfClose hstate => exact hlive
  | closed hstate => simpa [World.memFreed, hs] using hlive

end Other

/-! ### Runs -/

/-- No event of the batch is for an end that was released. -/
def World.Fresh (w : World) : Prop :=
  ∀ fd e ev, .peer fd (some e) ev ∈ w.pending → w.mem (.data e) = .live

/-- epoll takes the error replies that the handler does not stop at. -/
def World.HeardOut (cfg : Configs) (w : World) : Prop :=
  w.Carries cfg → ∀ b ∈ w.ans.epollMod.take (w.hasty cfg), b = true

/-- The condition on a step: epoll takes the error replies that `waitingcommand` does not stop at,
and where an event of the client comes behind the resolver's, the last one as well. -/
def RepliesHeard (cfg : Configs) (w : World) : Input → Prop
  | .handle ans => match w.pending with
    | .peer _ (some _) ev :: rest => w.shared.state = .waitingCommand → ev.epollin = true →
      (w.taken rest ans).HeardOut cfg
    | .resolver :: rest => ∀ gaiRet, w.dns = .answered gaiRet →
      ((w.taken rest ans).resumed gaiRet).HeardOut cfg ∧
        ((∃ fd ev, .peer fd (some .client) ev ∈ rest) →
          ((w.taken rest ans).resumed gaiRet).KeepsClient cfg)
    | _ => True
  | _ => True

/-- `Shared` is there for as long as one of its ends is. -/
def World.SharedKept (w : World) : Prop := (∃ s, w.mem (.data s) = .live) → w.mem .shared = .live

section Runs

variable {cfg : Configs} {fd : Int} {w w' : World} {e : Side} {ev : Events} {f : Option Fault}

theorem Sane.sharedKept (hs : Sane w) : w.SharedKept := by
  rintro ⟨s, hlive⟩
  exact hs.conn.elim (fun hw => hw.shared) fun hw => hw.shared s hlive

theorem CommandDone.fault_closed {o : Obj} {x : Fault} (h : CommandDone cfg w o (some x) w') :
    w'.shared.state = .closed := by
  cases h with
  | refusedLost hno h => exact h.state

/-- Where `waitingcommand` faults the client's end was closed. -/
theorem WaitingCommand.fault_closed {x : Fault} (h : WaitingCommand cfg w e ev (some x) w') :
    w'.shared.state = .closed := by
  cases h with
  | resolver hret h =>
    cases h with
    | lost hne h => exact h.state
    | failed hne hroom hmod h => exact h.fault_closed
    | resolved hzero h => exact h.fault_closed
  | data hret hrecv hgot h hne =>
    cases h with
    | run hlen htotal hcomplete hversion h =>
      cases h with
      | passed hatyp hfirewall h hmalloc => exact h.fault_closed

/-- The handlers that fault are those of STATE_WAITING_COMMAND. -/
theorem Handled.no_fault (hw : Open w) (hp : Phase w) (hwant : w' = w ∨ w.Wants e ev)
    (hheard : w.shared.state = .waitingCommand → ev.epollin = true → w.HeardOut cfg)
    (h : Handled cfg w e ev f w') : f = none := by
  cases h with
  | waitingCommand hstate h =>
    have hempty := hp.quiet (by simp [hstate])
    rcases hwant with rfl | hwant
    · cases f with
      | none => rfl
      | some x => exact nomatch hstate.symm.trans h.fault_closed
    · rw [World.Wants, hstate] at hwant
      exact h.no_fault hw hempty (hheard hstate hwant.1)
  | _ => rfl

/-- What the condition leaves of the batch is fresh. -/
theorem Dispatched.fresh {event : Event} (hs : Sane w) (hf : w.Fresh)
    (hg : Gated cfg fd w) (ha : w.AsksDomain)
    (hothers : ∀ fd e ev, event = .peer fd (some e) ev →
      ∀ fd' s ev', .peer fd' (some s) ev' ∈ w.pending → s ≠ e)
    (hkeeps : ∀ gaiRet, event = .resolver → w.dns = .answered gaiRet →
      (∃ fd ev, .peer fd (some .client) ev ∈ w.pending) → (w.resumed gaiRet).KeepsClient cfg)
    (h : Dispatched cfg w event none w') : w'.Fresh := by
  have hnext := h.next hs
  intro fd' s ev' hmem
  rw [hnext.pending] at hmem
  have hlive := hf fd' s ev' hmem
  cases h with
  | ignored => exact hlive
  | masked hd hev => exact hlive
  | handled hw hd h hwant =>
    exact h.other (hs.phase hw) hd (hothers _ _ _ rfl _ _ _ hmem) hlive hwant
  | shut hw hd => simpa [World.memFreed, hothers _ _ _ rfl _ _ _ hmem] using hlive
  | quiet hdns => exact hlive
  | @resolver gaiRet _ _ hw hdns h =>
    have hasync := (hs.dns (by simp [hdns])).2
    have hp := hs.phase hw
    have hearly : w.shared.state.early = true := by simp [hasync]
    obtain ⟨hrep, hsa, -, hnone⟩ := hp.early hearly
    cases s with
    | server => exact absurd hlive hnone
    | client =>
      have hai : gaiRet ≠ 0 → w.info.ai = [] := fun hret => hp.ai hearly fun r hr => by
        rw [hdns] at hr
        cases hr
        exact hret
      have hclosed := h.not_closed (hw.resumed gaiRet) rfl
        (hp.quiet (by simp [hasync])) hrep hsa hai
        rfl (hg.asked hasync) (ha hasync).2 (hkeeps gaiRet rfl hdns ⟨_, _, hmem⟩)
      exact (hnext.conn.resolve_right fun hshut => hclosed hshut.state).1.client

theorem Dispatched.no_fault {event : Event} (hs : Sane w)
    (hfresh : ∀ fd e ev, event = .peer fd (some e) ev → w.mem (.data e) = .live)
    (hpeer : ∀ fd e ev, event = .peer fd (some e) ev → w.shared.state = .waitingCommand →
      ev.epollin = true → w.HeardOut cfg)
    (hresolver : ∀ gaiRet, event = .resolver → w.dns = .answered gaiRet →
      (w.resumed gaiRet).HeardOut cfg)
    (h : Dispatched cfg w event f w') : f = none := by
  cases h with
  | stale hgone => exact absurd (hfresh _ _ _ rfl) hgone
  | handled hw hd h hwant => exact h.no_fault hw (hs.phase hw) hwant (hpeer _ _ _ rfl)
  | @resolver gaiRet _ _ hw hdns h =>
    have hasync := (hs.dns (by simp [hdns])).2
    exact h.no_fault (hw.resumed gaiRet) ((hs.phase hw).quiet (by simp [hasync]))
      (hresolver gaiRet rfl hdns)
  | _ => rfl

/-- A step that meets the condition touches nothing that was released, and leaves the batch
fresh. -/
theorem Stepped.lifecycle {i : Input} (hs : Sane w) (hf : w.Fresh) (hg : Gated cfg fd w)
    (ha : w.AsksDomain) (hheard : RepliesHeard cfg w i) (h : Stepped cfg w i f w') :
    f = none ∧ w'.Fresh := by
  cases h with
  | @arrive fd' bytes =>
    obtain ⟨fds, heq, -⟩ := w.arrived_interest fd' bytes
    rw [heq]
    exact ⟨rfl, hf⟩
  | finish => exact ⟨rfl, hf⟩
  | unasked hdns => exact ⟨rfl, hf⟩
  | @resolved gaiRet res hdns =>
    refine ⟨rfl, fun fd' e ev hmem => ?_⟩
    have hlive := hf fd' e ev hmem
    simp only [World.answered_mem, ite_apply]
    split <;> simpa using hlive
  | unpolled => exact ⟨rfl, hf⟩
  | polled hpending hlegal =>
    refine ⟨rfl, fun fd' e ev hmem => ?_⟩
    obtain ⟨sk, interest, hsk, hi, -⟩ := hlegal.1 _ hmem
    exact (hs.regs fd' sk interest e hsk hi).2
  | waiting hpending => exact ⟨rfl, hf⟩
  | @handled ans event rest _ _ hpending h =>
    have htaken := hs.taken hpending ans
    have hrest : (w.taken rest ans).Fresh := fun fd' e ev hmem =>
      hf fd' e ev (by rw [hpending]; exact List.mem_cons_of_mem _ hmem)
    have hresolver : ∀ gaiRet, event = .resolver → w.dns = .answered gaiRet →
        ((w.taken rest ans).resumed gaiRet).HeardOut cfg ∧
          ((∃ fd ev, .peer fd (some .client) ev ∈ rest) →
            ((w.taken rest ans).resumed gaiRet).KeepsClient cfg) := by
      rintro gaiRet rfl hdns
      rw [RepliesHeard, hpending] at hheard
      exact hheard gaiRet hdns
    obtain rfl : f = none := by
      refine h.no_fault htaken ?_ ?_ fun gaiRet hevent hdns => (hresolver gaiRet hevent hdns).1
      · rintro fd' e ev rfl
        exact hf fd' e ev (by simp [hpending])
      · rintro fd' e ev rfl hstate hin
        rw [RepliesHeard, hpending] at hheard
        exact hheard hstate hin
    refine ⟨rfl, h.fresh htaken hrest (hg.congr rfl rfl rfl rfl rfl) ha ?_
      fun gaiRet hevent hdns => (hresolver gaiRet hevent hdns).2⟩
    rintro fd' e ev rfl fd'' s ev' hmem
    exact hs.others_ne hpending hmem

/-- epoll takes every reply, and no event of the client comes behind the resolver's. -/
theorem RepliesHeard.of_epollSucceeds {i : Input} (hok : EpollSucceeds w i)
    (hlast : .resolver ∉ w.pending) : RepliesHeard cfg w i := by
  cases i with
  | handle ans =>
    rw [RepliesHeard]
    split
    · exact fun _ _ _ b hb => hok.2 b (List.mem_of_mem_take hb)
    · rename_i hpending
      exact absurd (by simp [hpending]) hlast
    · trivial
  | _ => trivial

/-- **Nothing released is touched while the replies are heard.** In every run in which epoll takes
the error replies that `waitingcommand` does not stop at, and the last one too where the batch holds
an event of the client behind the resolver's, no handler touches or releases an object that was
released, and `Shared` is there for as long as one of its ends is. -/
theorem lifecycle_of_heard {fd : Int} {ss : SockAddr} {bufs : Side → OutBuff}
    {mallocs epollAdd : Bool} {w₀ : World} {is : List Input}
    (hw₀ : acceptNewClient fd ss bufs mallocs epollAdd = some w₀)
    (hheard : Lib.Meets (step cfg) (RepliesHeard cfg) is w₀) :
    (Lib.run (step cfg) is w₀).fault? = none ∧ (Lib.run (step cfg) is w₀).state.SharedKept := by
  have hsane := acceptNewClient_sane hw₀
  obtain ⟨-, rfl⟩ := acceptNewClient_eq hw₀
  have hstart : Sane (newClient fd ss bufs) ∧ (newClient fd ss bufs).selfFd .client = fd ∧
      Gated cfg fd (newClient fd ss bufs) ∧ (newClient fd ss bufs).AsksDomain ∧
      (newClient fd ss bufs).Fresh :=
    ⟨hsane, rfl, newClient_gated fd ss bufs, (fun hs => by cases hs),
      fun _ _ _ hmem => by cases hmem⟩
  have hrun : wp (Lib.run (step cfg) is)
      (fun _ w => Sane w ∧ w.selfFd .client = fd ∧ Gated cfg fd w ∧ w.AsksDomain ∧ w.Fresh)
      (fun _ _ => False) (newClient fd ss bufs) := by
    refine Lib.run_wp_of_meets (fun w i hw hC => ?_) hstart hheard
    obtain ⟨hs, hself, hg, ha, hf⟩ := hw
    refine wp_step hs.toSound fun f w' hstep => ?_
    obtain ⟨rfl, hfresh⟩ := hstep.lifecycle hs hf hg ha hC
    exact ⟨hstep.sane hs, (hstep.client hs).trans hself, hg.stepped hs hself hstep,
      ha.stepped hstep, hfresh⟩
  refine ⟨(hrun.mono (fun _ _ _ => trivial) fun _ _ h => h).no_fault, ?_⟩
  exact (hrun.mono (fun _ _ h => h.1.sharedKept) fun _ _ h => h.elim).state

end Runs

theorem lifecycle_of_heard_literal :
    (Lib.run (step openConfigs) literalConnect
      (newClient 5 (.inet ![4, 0] ![127, 0, 0, 1]) fun _ => .zero)).fault? = none := by
  have haccept : acceptNewClient 5 (.inet ![4, 0] ![127, 0, 0, 1]) (fun _ => .zero) true true =
      some (newClient 5 (.inet ![4, 0] ![127, 0, 0, 1]) fun _ => .zero) := rfl
  have hmeets : Lib.Meets (step openConfigs)
      (fun w i => EpollSucceeds w i ∧ .resolver ∉ w.pending) literalConnect
      (newClient 5 (.inet ![4, 0] ![127, 0, 0, 1]) fun _ => .zero) := by
    decide +kernel
  exact (lifecycle_of_heard haccept
    (hmeets.mono fun w i h => RepliesHeard.of_epollSucceeds h.1 h.2)).1

/-- Only BIND is allowed. -/
def closedConfigs : Configs :=
  { openConfigs with allowDomains := false, allowConnect := false, allowUdpassoc := false }

/-- A CONNECT that is not allowed, and epoll takes no reply. -/
def refusedUnheard : List Input :=
  greeting 5 ++ clientSends 5 [5, cmdConn, 0, atypIpv4, 10, 0, 0, 1, 0, 80]
    { Answers.idle with epollMod := [false] }

/-- `reply_with_err` releases the request that its caller goes on with. -/
theorem request_touched_after_release :
    ¬ ∀ (cfg : Configs) (fd : Int) (ss : SockAddr) (bufs : Side → OutBuff)
      (mallocs epollAdd : Bool) (w₀ : World) (is : List Input),
      acceptNewClient fd ss bufs mallocs epollAdd = some w₀ →
        (Lib.run (step cfg) is w₀).fault? = none ∧ (Lib.run (step cfg) is w₀).state.SharedKept := by
  intro h
  have hfault : (Lib.run (step closedConfigs) refusedUnheard
      (newClient 5 (.inet ![4, 0] ![127, 0, 0, 1]) fun _ => .zero)).fault? =
        some (.dangling .info) := by
    decide +kernel
  have hnone := (h closedConfigs 5 (.inet ![4, 0] ![127, 0, 0, 1]) (fun _ => .zero) true true _
    refusedUnheard rfl).1
  rw [hfault] at hnone
  cases hnone

end Socksprox
