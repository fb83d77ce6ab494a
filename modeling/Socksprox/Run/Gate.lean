import Socksprox.Trace
import Socksprox.Wire
import Mathlib.Data.Fin.VecNotation

/-!
What a client has to do before the server opens a socket for it: offer "no authentication"
so that it is chosen, take the reply, and name a command that is switched on.
-/

namespace Socksprox

/-! ### Requests of an admitted client -/

/-- The method is switched on in the table. -/
def Configs.Enabled (cfg : Configs) (m : UInt8) : Prop :=
  ∃ h : m.toNat < 255, cfg.methods ⟨m.toNat, h⟩ = 1

/-- Whether the command of a function is allowed. -/
def Configs.allow (cfg : Configs) : InitFn → Bool
  | .connect => cfg.allowConnect
  | .bind => cfg.allowBind
  | .udpa => cfg.allowUdpassoc

/-- `got` is a method request that offers `methods`, and what follows it. -/
def MethodRequest (methods rest got : List UInt8) : Prop :=
  ∃ nmethods : UInt8, methods.length = nmethods.toNat ∧
    got = socks5Version :: nmethods :: (methods ++ rest)

/-- `m` is the first of the offered methods that is switched on. -/
def FirstEnabled (cfg : Configs) (methods : List UInt8) (m : UInt8) : Prop :=
  cfg.Enabled m ∧ ∃ before after, methods = before ++ m :: after ∧ ∀ m' ∈ before, ¬ cfg.Enabled m'

/-- `req` begins with a request for the command, for a domain name only where these are
allowed. -/
def CommandFor (cfg : Configs) (cmd : UInt8) (req : List UInt8) : Prop :=
  ∃ rsv atyp rest, req = socks5Version :: cmd :: rsv :: atyp :: rest ∧
    (atyp = atypDomn → cfg.allowDomains = true)

/-- The client sent `got` and was sent `sent`: the handshake that has to come before `f`. -/
def Admitted (cfg : Configs) (f : InitFn) (got sent : List UInt8) : Prop :=
  ∃ methods req, MethodRequest methods req got ∧ FirstEnabled cfg methods methNoauth ∧
    sent = [socks5Version, methNoauth] ∧ CommandFor cfg f.cmd req ∧ cfg.allow f = true

theorem Configs.allows_cmd (cfg : Configs) (f : InitFn) : cfg.allows f.cmd = cfg.allow f := by
  cases f <;> simp [Configs.allows, Configs.allow, InitFn.cmd, cmdConn, cmdBind, cmdUdpa]

/-- A method that the table switches on is one the loop stops at. -/
theorem Configs.Enabled.methodAt {cfg : Configs} {m : UInt8} (h : cfg.Enabled m) :
    cfg.methodAt m = 1 := by
  obtain ⟨hlt, hone⟩ := h
  rw [Configs.methodAt, dif_pos hlt, hone]

theorem firstEnabled_of_select {cfg : Configs} {methods : List UInt8}
    (h : selectMethod cfg methods = methNoauth) : FirstEnabled cfg methods methNoauth := by
  induction methods with
  | nil => simp [selectMethod, methNoauth] at h
  | cons m rest ih =>
    rw [selectMethod] at h
    split at h
    · rename_i hm
      subst h
      refine ⟨⟨by decide, ?_⟩, [], rest, rfl, fun m' hm' => by cases hm'⟩
      rwa [Configs.methodAt, dif_pos (by decide)] at hm
    · rename_i hm
      obtain ⟨henabled, before, after, rfl, hbefore⟩ := ih h
      refine ⟨henabled, m :: before, after, rfl, fun m' hm' => ?_⟩
      rcases List.mem_cons.mp hm' with rfl | hin
      · exact fun hon => hm hon.methodAt
      · exact hbefore m' hin

section MethodRequest

variable {methods methods' rest rest' got : List UInt8}

theorem MethodRequest.append (h : MethodRequest methods rest got) (more : List UInt8) :
    MethodRequest methods (rest ++ more) (got ++ more) := by
  obtain ⟨nmethods, hlen, rfl⟩ := h
  exact ⟨nmethods, hlen, by simp⟩

/-- The length octet says where the method request ends. -/
theorem MethodRequest.unique (h : MethodRequest methods rest got)
    (h' : MethodRequest methods' rest' got) : rest = rest' := by
  obtain ⟨nmethods, hlen, rfl⟩ := h
  obtain ⟨nmethods', hlen', heq⟩ := h'
  simp only [List.cons.injEq, true_and] at heq
  obtain ⟨rfl, heq⟩ := heq
  exact (List.append_inj heq (hlen.trans hlen'.symm)).2

end MethodRequest

/-! ### The invariant -/

/-- The method reply is out, and "no authentication" was chosen. -/
def Negotiated (cfg : Configs) (rest got sent : List UInt8) : Prop :=
  ∃ methods, MethodRequest methods rest got ∧ selectMethod cfg methods = methNoauth ∧
    sent = [socks5Version, methNoauth]

/-- Every call was preceded by its handshake. -/
def CallsAdmitted (cfg : Configs) (fd : Int) : List Act → Prop :=
  Lib.Always fun before a => ∀ f, a = .invoked f →
    Admitted cfg f (bytesFrom fd before) (bytesTo fd before)

/-- What the client with descriptor `fd` has sent and got, state by state, and that every
call was preceded by its handshake. -/
structure Gated (cfg : Configs) (fd : Int) (w : World) : Prop where
  invoked : CallsAdmitted cfg fd w.trace
  methods : w.shared.state = .waitingMethods →
    bytesFrom fd w.trace = (w.shared.out .server).contents ∧ bytesTo fd w.trace = []
  method : w.shared.state = .sendingMethod → ∃ methods,
    MethodRequest methods (w.shared.out .server).contents (bytesFrom fd w.trace) ∧
      w.info.method = selectMethod cfg methods ∧
      bytesTo fd w.trace ++ (w.shared.out .client).contents = [socks5Version, w.info.method]
  command : w.shared.state = .waitingCommand ∨ w.shared.state = .asyncDns →
    Negotiated cfg (w.shared.out .server).contents (bytesFrom fd w.trace) (bytesTo fd w.trace)
  asked : w.shared.state = .asyncDns →
    CommandFor cfg w.info.cmd (w.shared.out .server).contents

section Gated

variable {cfg : Configs} {fd : Int} {w w₁ w' : World} {e : Side} {ev : Events} {f : Option Fault}

theorem Negotiated.admitted {rest got sent : List UInt8} {g : InitFn}
    (h : Negotiated cfg rest got sent) (hcmd : CommandFor cfg g.cmd rest)
    (hallow : cfg.allows g.cmd = true) : Admitted cfg g got sent := by
  obtain ⟨methods, hrequest, hselect, hsent⟩ := h
  exact ⟨methods, rest, hrequest, firstEnabled_of_select hselect, hsent, hcmd,
    (cfg.allows_cmd g).symm.trans hallow⟩

/-- Once the request is over, only the calls made so far matter. -/
theorem Gated.of_late (hinvoked : CallsAdmitted cfg fd w.trace)
    (hlate : w.shared.state.early = false) : Gated cfg fd w where
  invoked := hinvoked
  methods := fun hs => by simp [hs] at hlate
  method := fun hs => by simp [hs] at hlate
  command := fun hs => by rcases hs with hs | hs <;> simp [hs] at hlate
  asked := fun hs => by simp [hs] at hlate

/-- Acts that call nothing. -/
theorem CallsAdmitted.does {K : Act → Bool} (h : CallsAdmitted cfg fd w.trace)
    (hdoes : Does K w w') (hK : ∀ f, K (.invoked f) = false) : CallsAdmitted cfg fd w'.trace :=
  hdoes.always h fun before a ha f hf => by simp [hf, hK] at ha

theorem Gated.congr (h : Gated cfg fd w) (htrace : w'.trace = w.trace)
    (hstate : w'.shared.state = w.shared.state) (hout : w'.shared.out = w.shared.out)
    (hmethod : w'.info.method = w.info.method) (hcmd : w'.info.cmd = w.info.cmd) :
    Gated cfg fd w' where
  invoked := htrace ▸ h.invoked
  methods := by simpa [htrace, hstate, hout] using h.methods
  method := by simpa [htrace, hstate, hout, hmethod] using h.method
  command := by simpa [htrace, hstate, hout] using h.command
  asked := by simpa [hstate, hout, hcmd] using h.asked

/-! ### The request carried out -/

/-- Everything from the call on: the handshake before it is complete. -/
theorem Gated.commandDone {o : Obj} {rest : List UInt8} (hw : Open w)
    (hinvoked : CallsAdmitted cfg fd w.trace)
    (hneg : Negotiated cfg rest (bytesFrom fd w.trace) (bytesTo fd w.trace))
    (hcmd : CommandFor cfg w.info.cmd rest) (h : CommandDone cfg w o f w') : Gated cfg fd w' := by
  have hinit : ∀ {w₁}, Init cfg w w₁ → CallsAdmitted cfg fd w₁.trace := by
    intro w₁ hinit
    obtain ⟨g, hdoes, hg, hallow⟩ := hinit.does_invoked
    have hcall : CallsAdmitted cfg fd (w.emit (.invoked g)).trace := by
      refine Lib.always_concat.mpr ⟨hinvoked, fun f hf => ?_⟩
      cases hf
      exact hneg.admitted (hg ▸ hcmd) (hg ▸ hallow)
    exact hcall.does hdoes fun _ => rfl
  have hset : Does Act.isError w (w.setRep repBadcomm) := (Does.refl w).setRep _
  refine Gated.of_late ?_ (h.late hw)
  cases h with
  | refusedLost hno h => exact hinvoked.does (hset.trans h.does) fun _ => rfl
  | refused hno hroom hmod h =>
    exact hinvoked.does ((hset.trans does_errReplied).trans h.does) fun _ => rfl
  | started h hrep => exact hinit h
  | failed h hrep hreply => exact (hinit h).does hreply.does fun _ => rfl

theorem Gated.resolverReturned (h : Gated cfg fd w) (hw : Open w)
    (hs : w.shared.state = .waitingCommand)
    (hcmd : CommandFor cfg w.info.cmd (w.shared.out .server).contents)
    (hret : ResolverReturned cfg w f w') : Gated cfg fd w' := by
  have hneg := h.command (.inl hs)
  have hset : Does Act.isError w (w.setRep repGenfail) := (Does.refl w).setRep _
  have hlate := hret.late hw
  cases hret with
  | lost hne hlost => exact .of_late (h.invoked.does (hset.trans hlost.does) fun _ => rfl) hlate
  | failed hne hroom hmod hdone =>
    have hdoes := hset.trans does_errReplied
    have hneg' : Negotiated cfg (w.shared.out .server).contents
        (bytesFrom fd (w.setRep repGenfail).errReplied.trace)
        (bytesTo fd (w.setRep repGenfail).errReplied.trace) := by
      rwa [hdoes.bytesFrom fun _ => rfl, hdoes.bytesTo fun _ => rfl]
    refine Gated.commandDone (open_errReplied (open_setRep.mpr hw))
      (h.invoked.does hdoes fun _ => rfl) hneg' ?_ hdone
    simpa [World.errReplied] using hcmd
  | resolved hzero hdone => exact .commandDone hw h.invoked hneg hcmd hdone

/-- The head of a request that is long enough. -/
theorem commandFor_of_length {got : List UInt8} (hlen : 5 ≤ (got.take 300).length)
    (hversion : reqAt (got.take 300) 0 = socks5Version)
    (hdomain : reqAt (got.take 300) 3 = atypDomn → cfg.allowDomains = true) :
    CommandFor cfg (reqAt (got.take 300) 1) got := by
  match got, hlen with
  | a :: b :: c :: d :: rest, _ =>
    have ha : a = socks5Version := hversion
    exact ⟨c, d, rest, by rw [ha]; rfl, hdomain⟩

/-- A domain name has a length where domain names are allowed. -/
theorem allowDomains_of_totalLen {req : List UInt8} {total : Nat}
    (htotal : totalLen cfg req = some total) (hatyp : reqAt req 3 = atypDomn) :
    cfg.allowDomains = true := by
  have hne : ¬ atypDomn = atypIpv4 := by decide
  by_contra hno
  simp [totalLen, hatyp, hne, hno] at htotal

theorem Gated.runRequest {got req : List UInt8} (h : Gated cfg fd w) (hw : Open w)
    (hs : w.shared.state = .waitingCommand) (hgot : (w.shared.out .server).contents = got)
    (hcmd : CommandFor cfg w.info.cmd got) (hrun : RunRequest cfg w req f w') :
    Gated cfg fd w' := by
  have hneg := h.command (.inl hs)
  have hasked : CallsAdmitted cfg fd
      ((w.addrStored req).emit (.firewall (w.addrStored req).info)).trace :=
    Lib.always_concat.mpr ⟨h.invoked, fun f hf => by cases hf⟩
  have hstored : Open ((w.addrStored req).emit (.firewall (w.addrStored req).info)) := by
    simpa using hw.addrStored req
  cases hrun with
  | domain hatyp =>
    have hdoes : Does Act.isAsk w ((((w.setState .asyncDns).setState .asyncDns).emit
        (.resolve ((List.range 296).map fun i => reqAt req (4 + i)))).asked) := does_asked
    exact
      { invoked := h.invoked.does hdoes fun _ => rfl
        methods := fun hst => by cases hst
        method := fun hst => by cases hst
        command := fun _ => by
          rwa [hdoes.bytesFrom fun _ => rfl, hdoes.bytesTo fun _ => rfl]
        asked := fun _ => by simpa [hgot] using hcmd }
  | noMemory hatyp hmalloc => exact h
  | dropped hatyp hfirewall hreply =>
    have hdoes := ((Does.refl ((w.addrStored req).emit (.firewall (w.addrStored req).info))).setRep
      repRuleset).trans hreply.does
    exact .of_late (hasked.does hdoes fun _ => rfl)
      (by rcases hreply.state with hs | hs <;> simp [hs])
  | passed hatyp hfirewall hdone =>
    have hneg' : Negotiated cfg got
        (bytesFrom fd ((w.addrStored req).emit (.firewall (w.addrStored req).info)).trace)
        (bytesTo fd ((w.addrStored req).emit (.firewall (w.addrStored req).info)).trace) := by
      simpa [Act.bytesFrom, Act.bytesTo, hgot] using hneg
    exact Gated.commandDone hstored hasked hneg' (by simpa using hcmd) hdone

theorem Gated.commandRequest {got : List UInt8} (h : Gated cfg fd w) (hw : Open w)
    (hs : w.shared.state = .waitingCommand) (hgot : (w.shared.out .server).contents = got)
    (hrequest : CommandRequest cfg w (got.take 300) f w') : Gated cfg fd w' := by
  cases hrequest with
  | short hlen => exact h
  | badAtyp hlen htotal hreply =>
    have hdoes := ((Does.refl w).setRep repBadatyp).trans hreply.does
    exact .of_late (h.invoked.does hdoes fun _ => rfl)
      (by rcases hreply.state with hs | hs <;> simp [hs])
  | part hlen htotal hpart => exact h
  | badVersion hlen htotal hcomplete hversion =>
    exact .of_late (Lib.always_concat.mpr ⟨h.invoked, fun f hf => by cases hf⟩) rfl
  | run hlen htotal hcomplete hversion hrun =>
    have hstored : Gated cfg fd (w.commandStored (got.take 300)) :=
      { invoked := h.invoked
        methods := h.methods
        method := fun hst => by simp [hs] at hst
        command := h.command
        asked := fun hst => by simp [hs] at hst }
    exact hstored.runRequest (hw.setInfo rfl rfl) hs hgot
      (commandFor_of_length hlen hversion (allowDomains_of_totalLen htotal)) hrun

/-- What the client sends on goes behind what it sent before. -/
theorem Gated.received {n : Nat} {bytes : List UInt8} (h : Gated cfg fd w)
    (hs : w.shared.state = .waitingCommand) (hfit : bytes.length ≤ (w.shared.out .server).free)
    (hrecv : Recv w fd n (some bytes) w₁) : Gated cfg fd (w₁.queue .server bytes) := by
  have hshared := hrecv.shared
  have hcontents : ((w₁.queue .server bytes).shared.out .server).contents =
      (w.shared.out .server).contents ++ bytes := by
    rw [World.queue_contents (by rwa [hshared]), hshared]
  have hdoes := ((Does.refl (K := Act.isRelay) w).recv hrecv (fun _ => rfl) rfl).queue .server
    bytes rfl
  obtain ⟨methods, ⟨nmethods, hlen, hfrom⟩, hselect, hto⟩ := h.command (.inl hs)
  refine
    { invoked := h.invoked.does hdoes fun _ => rfl
      methods := fun hst => by simp [hshared, hs] at hst
      method := fun hst => by simp [hshared, hs] at hst
      command := fun _ => ⟨methods, ⟨nmethods, hlen, ?_⟩, hselect, ?_⟩
      asked := fun hst => by simp [hshared, hs] at hst }
  · rw [World.queue_bytesFrom, hrecv.bytesFrom, hfrom, hcontents]
    simp
  · rw [World.queue_bytesTo, hrecv.bytesTo, hto]

theorem Gated.waitingCommand (h : Gated cfg fd w) (hw : Open w) (hself : w.shared.fd .client = fd)
    (hs : w.shared.state = .waitingCommand)
    (hret : w.info.resolverRet ≠ -1 → CommandFor cfg w.info.cmd (w.shared.out .server).contents)
    (hwait : WaitingCommand cfg w e ev f w') : Gated cfg fd w' := by
  subst hself
  cases hwait with
  | idle hidle => exact h
  | resolver hne hwait => exact h.resolverReturned hw hs (hret hne) hwait
  | ended hunasked hrecv hr =>
    have hdoes := ((Does.refl (K := Act.isRelay) w).recv hrecv
      (fun _ => rfl) rfl).hungUp .client rfl
    exact .of_late (h.invoked.does hdoes fun _ => rfl) rfl
  | @data bytes got w₁ _ _ hunasked hrecv hgot hrequest =>
    have hqueued := h.received hs hrecv.length_le hrecv
    refine hqueued.commandRequest ?_ (by simpa [hrecv.shared] using hs) ?_ hrequest
    · simpa using hrecv.open hw
    · rw [World.queue_contents (by simpa [hrecv.shared] using hrecv.length_le), hrecv.shared, hgot]

/-! ### The negotiation -/

/-- A complete method message, taken apart. -/
theorem methodRequest_of_complete {got : List UInt8} (hcomplete : MethodsComplete got)
    (hversion : got.getD 0 0 = socks5Version) :
    MethodRequest (offered got) (got.drop (2 + (got.getD 1 0).toNat)) got := by
  match got, hcomplete with
  | version :: nmethods :: rest, ⟨_, hlen⟩ =>
    have hv : version = socks5Version := hversion
    have hlen' : nmethods.toNat ≤ rest.length := by
      simp only [List.getD_cons_succ, List.getD_cons_zero, List.length_cons] at hlen
      omega
    refine ⟨nmethods, by simp [offered, hlen'], ?_⟩
    rw [hv]
    simp [offered, Nat.add_comm 2]

/-- The choice of the method queues its reply and takes the message out of the buffer. -/
theorem methodChosen_does (cfg : Configs) (w : World) (got : List UInt8) :
    ∃ w₂, Does Act.isMethod w w₂ ∧ w₂.trace = (w.methodChosen cfg got).trace :=
  ⟨_, ((((Does.refl w).drop .server 2).drop .server (got.getD 1 0).toNat).queue .client
    [socks5Version, selectMethod cfg (offered got)] rfl).setState .sendingMethod rfl, rfl⟩

theorem methodChosen_server (cfg : Configs) (w : World) (got : List UInt8) :
    ((w.methodChosen cfg got).shared.out .server).contents =
      (w.shared.out .server).contents.drop (2 + (got.getD 1 0).toNat) := by
  simp [World.methodChosen]

theorem methodChosen_client (hempty : (w.shared.out .client).contents = [])
    (hcapacity : (w.shared.out .client).capacity = outbuffsize) (got : List UInt8) :
    ((w.methodChosen cfg got).shared.out .client).contents =
      [socks5Version, selectMethod cfg (offered got)] := by
  have hfree : 2 ≤ (w.shared.out .client).free := by
    rw [Ring.free, hcapacity, Ring.contents_eq_nil.mp hempty]
    decide
  have hcontents := @World.queue_contents ((w.drop .server 2).drop .server (got.getD 1 0).toNat)
    .client [socks5Version, selectMethod cfg (offered got)] (by simpa using hfree)
  simpa [World.methodChosen, hempty] using hcontents

theorem Gated.waitingMethods (h : Gated cfg fd w) (hself : w.shared.fd .client = fd)
    (hs : w.shared.state = .waitingMethods) (hempty : (w.shared.out .client).contents = [])
    (hcapacity : (w.shared.out .client).capacity = outbuffsize)
    (hwait : WaitingMethods cfg w e ev w') : Gated cfg fd w' := by
  subst hself
  obtain ⟨hfrom, hto⟩ := h.methods hs
  have hqueued : ∀ {bytes w₁},
      Recv w (w.shared.fd .client) (w.shared.out .server).free (some bytes) w₁ →
      CallsAdmitted cfg (w.shared.fd .client) (w₁.queue .server bytes).trace ∧
        bytesFrom (w.shared.fd .client) (w₁.queue .server bytes).trace =
          (w.shared.out .server).contents ++ bytes ∧
        ((w₁.queue .server bytes).shared.out .server).contents =
          (w.shared.out .server).contents ++ bytes ∧
        bytesTo (w.shared.fd .client) (w₁.queue .server bytes).trace = [] := by
    intro bytes w₁ hrecv
    have hdoes := ((Does.refl (K := Act.isRelay) w).recv hrecv (fun _ => rfl) rfl).queue .server
      bytes rfl
    refine ⟨h.invoked.does hdoes fun _ => rfl, ?_, ?_, ?_⟩
    · rw [World.queue_bytesFrom, hrecv.bytesFrom, hfrom]
    · rw [World.queue_contents (by simpa [hrecv.shared] using hrecv.length_le), hrecv.shared]
    · rw [World.queue_bytesTo, hrecv.bytesTo, hto]
  have hclosed : ∀ {w₁ w₂ : World} {s : Side}, CallsAdmitted cfg (w.shared.fd .client) w₁.trace →
      Does Act.isMethod w₁ w₂ → Gated cfg (w.shared.fd .client) (w₂.hungUp s) := by
    intro w₁ w₂ s hcalls hdoes
    refine .of_late (Lib.always_concat.mpr ⟨hcalls.does hdoes fun _ => rfl, fun f hf => ?_⟩) rfl
    cases hf
  cases hwait with
  | idle hidle => exact h
  | ended hrecv hr =>
    have hdoes := (Does.refl (K := Act.isRelay) w).recv hrecv (fun _ => rfl) rfl
    exact hclosed (h.invoked.does hdoes fun _ => rfl) (.refl _)
  | @part bytes got w₁ hrecv hgot hpart =>
    obtain ⟨hcalls, hfrom', hcontents, hto'⟩ := hqueued hrecv
    exact
      { invoked := hcalls
        methods := fun _ => ⟨hfrom'.trans hcontents.symm, hto'⟩
        method := fun hst => by simp [hrecv.shared, hs] at hst
        command := fun hst => by simp [hrecv.shared, hs] at hst
        asked := fun hst => by simp [hrecv.shared, hs] at hst }
  | badVersion hrecv hgot hcomplete hversion =>
    exact hclosed (hqueued hrecv).1 ((Does.refl _).drop _ _)
  | @unwatched bytes got w₁ hrecv hgot hcomplete hversion hmod =>
    obtain ⟨w₂, hdoes, htrace⟩ := methodChosen_does cfg (w₁.queue .server bytes) got
    have hcalls := (hqueued hrecv).1.does hdoes fun _ => rfl
    rw [htrace] at hcalls
    exact .of_late (Lib.always_concat.mpr ⟨hcalls, fun f hf => by cases hf⟩) rfl
  | @chosen bytes got w₁ hrecv hgot hcomplete hversion hmod =>
    obtain ⟨hcalls, hfrom', hcontents, hto'⟩ := hqueued hrecv
    obtain ⟨w₂, hdoes, htrace⟩ := methodChosen_does cfg (w₁.queue .server bytes) got
    have hbytesFrom : bytesFrom (w.shared.fd .client) w₂.trace = _ := hdoes.bytesFrom fun _ => rfl
    have hbytesTo : bytesTo (w.shared.fd .client) w₂.trace = _ := hdoes.bytesTo fun _ => rfl
    have hcalls' := hcalls.does hdoes fun _ => rfl
    rw [htrace] at hbytesFrom hbytesTo hcalls'
    have hclient : ((w₁.queue .server bytes).shared.out .client) = w.shared.out .client := by
      simp [hrecv.shared]
    refine
      { invoked := hcalls'
        methods := fun hst => by cases hst
        method := fun _ => ⟨offered got, ?_, rfl, ?_⟩
        command := fun hst => by rcases hst with hst | hst <;> cases hst
        asked := fun hst => by cases hst }
    · show MethodRequest _
        (((w₁.queue .server bytes).methodChosen cfg got).shared.out .server).contents
        (bytesFrom _ ((w₁.queue .server bytes).methodChosen cfg got).trace)
      rw [methodChosen_server, hbytesFrom, hfrom', hcontents, ← hgot]
      exact methodRequest_of_complete hcomplete hversion
    · show bytesTo _ ((w₁.queue .server bytes).methodChosen cfg got).trace ++
        (((w₁.queue .server bytes).methodChosen cfg got).shared.out .client).contents = _
      rw [hbytesTo, hto', methodChosen_client (by rw [hclient, hempty])
        (by rw [hclient, hcapacity])]
      rfl

theorem Gated.sendingMethod (h : Gated cfg fd w) (hself : w.shared.fd .client = fd)
    (hs : w.shared.state = .sendingMethod) (hused : (w.shared.out .client).used ≤ 2)
    (hsend : SendingMethod w e ev w') : Gated cfg fd w' := by
  subst hself
  obtain ⟨methods, hrequest, hmethod, hto⟩ := h.method hs
  have hclosed : ∀ {w₁ : World} {s : Side}, Does Act.isReply w w₁ →
      Gated cfg (w.shared.fd .client) (w₁.hungUp s) := by
    intro w₁ s hdoes
    refine .of_late (Lib.always_concat.mpr ⟨h.invoked.does hdoes fun _ => rfl, fun f hf => ?_⟩) rfl
    cases hf
  cases hsend with
  | idle hidle => exact h
  | stopped hstop =>
    cases hstop with
    | failed => exact hclosed ((Does.refl _).emit _ rfl)
    | @part k hk =>
      have hsent : ((w.shared.out .client).contents.take 2).take k =
          (w.shared.out .client).contents.take k := by
        rw [List.take_take]
        have hlen : k < 2 := by
          simp only [Ring.peek, List.length_take] at hk
          omega
        rw [Nat.min_eq_left hlen.le]
      exact
        { invoked := h.invoked.does (((Does.refl _).emit _ rfl).drop _ _ : Does Act.isReply w _)
            fun _ => rfl
          methods := fun hst => by simp [hs] at hst
          method := fun _ => ⟨methods, by simpa [Act.bytesFrom] using hrequest, hmethod, by
            simpa [Act.bytesTo, Ring.peek, hsent] using hto⟩
          command := fun hst => by simp [hs] at hst
          asked := fun hst => by simp [hs] at hst }
    | unwatched hmod => exact hclosed (((Does.refl _).emit _ rfl).drop _ _).popMod
  | refused hmod hne => exact hclosed does_sentFront
  | accepted hmod hnoauth =>
    have hall : (w.shared.out .client).contents.take 2 = (w.shared.out .client).contents :=
      List.take_of_length_le (by simpa using hused)
    refine
      { invoked := h.invoked.does (does_sentFront.setState .waitingCommand rfl) fun _ => rfl
        methods := fun hst => by cases hst
        method := fun hst => by cases hst
        command := fun _ => ⟨methods, ?_, hmethod.symm.trans hnoauth, ?_⟩
        asked := fun hst => by cases hst }
    · simpa [Act.bytesFrom] using hrequest
    · rw [← hnoauth]
      simpa [Act.bytesTo, Ring.peek, hall] using hto

/-! ### Runs -/

theorem Gated.handled (h : Gated cfg fd w) (hw : Open w) (hs : Sane w)
    (hself : w.shared.fd .client = fd) (hh : Handled cfg w e ev f w') : Gated cfg fd w' := by
  have hp := hs.phase hw
  have hlate : ∀ {K : Act → Bool}, Does K w w' → w.shared.state.early = false →
      (∀ st, st.early = true → K (.state st) = false) → (∀ f, K (.invoked f) = false) →
      Gated cfg fd w' := fun hdoes hl hst hK =>
    .of_late (h.invoked.does hdoes hK) (hdoes.late hl hst)
  cases hh with
  | still hstate => exact h
  | waitingMethods hstate hh =>
    exact h.waitingMethods hself hstate (hp.quiet (by simp [hstate])) (hw.capacity _) hh
  | sendingMethod hstate hh => exact h.sendingMethod hself hstate (hp.method hstate) hh
  | waitingCommand hstate hh =>
    refine h.waitingCommand hw hself hstate (fun hret => ?_) hh
    exact absurd (hp.early (by simp [hstate])).2.2.1 hret
  | sendingReply hstate hh =>
    have hl : w.shared.state.early = false := by rcases hstate with hs | hs <;> simp [hs]
    exact .of_late (h.invoked.does hh.does fun _ => rfl) (hh.late hl)
  | connecting hstate hh =>
    exact hlate hh.does (by simp [hstate]) (fun st hst => by cases st <;> first | rfl | cases hst)
      fun _ => rfl
  | bindListening hstate hh =>
    exact hlate hh.does (by simp [hstate]) (fun st hst => by cases st <;> first | rfl | cases hst)
      fun _ => rfl
  | full hstate hh =>
    exact hlate hh.does (by simp [hstate]) (fun st hst => by cases st <;> first | rfl | cases hst)
      fun _ => rfl
  | halfClose hstate =>
    exact .of_late (Lib.always_concat.mpr ⟨h.invoked, fun f hf => by cases hf⟩) rfl
  | closed hstate => exact h.congr rfl rfl rfl rfl rfl

theorem Gated.resumed (h : Gated cfg fd w) (hasync : w.shared.state = .asyncDns) (gaiRet : Int) :
    Gated cfg fd (w.resumed gaiRet) where
  invoked := Lib.always_concat.mpr ⟨h.invoked, fun f hf => by cases hf⟩
  methods := fun hst => by cases hst
  method := fun hst => by cases hst
  command := fun _ => by simpa [Act.bytesFrom, Act.bytesTo] using h.command (.inr hasync)
  asked := fun hst => by cases hst

theorem Gated.stepped {i : Input} (hs : Sane w) (hself : w.selfFd .client = fd)
    (h : Gated cfg fd w) (hstep : Stepped cfg w i f w') : Gated cfg fd w' := by
  cases hstep.moved with
  | idle hcore =>
    simp only [World.core, Prod.mk.injEq] at hcore
    obtain ⟨htrace, hstate, hout, -, hinfo⟩ := hcore
    exact h.congr htrace hstate hout (by rw [hinfo]) (by rw [hinfo])
  | answered hdns => exact h.congr rfl rfl rfl rfl rfl
  | @handled ans rest _ _ _ _ _ hpending hw hd hh =>
    have htaken : Gated cfg fd (w.taken rest ans) := h.congr rfl rfl rfl rfl rfl
    exact htaken.handled hw (hs.taken hpending ans) (hw.self_client.symm.trans hself) hh
  | @resumed ans rest gaiRet _ _ hpending hw hdns hh =>
    have hasync := (hs.dns (by simp [hdns])).2
    have htaken : Gated cfg fd (w.taken rest ans) := h.congr rfl rfl rfl rfl rfl
    exact (htaken.resumed hasync gaiRet).waitingCommand (hw.resumed gaiRet)
      (hw.self_client.symm.trans hself) rfl (fun _ => h.asked hasync) hh

theorem newClient_gated (fd : Int) (ss : SockAddr) (bufs : Side → OutBuff) :
    Gated cfg fd (newClient fd ss bufs) where
  invoked := Lib.always_concat.mpr ⟨Lib.always_nil, fun f hf => by cases hf⟩
  methods := fun _ => ⟨rfl, rfl⟩
  method := fun hst => by cases hst
  command := fun hst => by rcases hst with hst | hst <;> cases hst
  asked := fun hst => by cases hst

/-- **No socket without the handshake.** In every run, whatever the client sends and however
the kernel answers, a call of `init_connect`, `init_bind` or `init_udpa` comes after a
method request of version 5 whose first enabled method is "no authentication", after its
reply was sent, and after a request of version 5 for that command, which is switched on. -/
theorem invoked_admitted {fd : Int} {ss : SockAddr} {bufs : Side → OutBuff}
    {mallocs epollAdd : Bool} {w₀ : World} {is : List Input}
    (hw₀ : acceptNewClient fd ss bufs mallocs epollAdd = some w₀) {before after : List Act}
    {g : InitFn}
    (htrace : (Lib.run (step cfg) is w₀).state.trace = before ++ .invoked g :: after) :
    Admitted cfg g (bytesFrom fd before) (bytesTo fd before) := by
  have hstart : Gated cfg fd w₀ := by
    obtain ⟨-, rfl⟩ := acceptNewClient_eq hw₀
    exact newClient_gated fd ss bufs
  have hfd : w₀.selfFd .client = fd := by
    obtain ⟨-, rfl⟩ := acceptNewClient_eq hw₀
    rfl
  have hrun : Gated cfg fd (Lib.run (step cfg) is w₀).state :=
    client_invariant (C := fun _ _ => True) (acceptNewClient_sane hw₀) hfd hstart
      (Lib.meets_of_forall (fun _ _ => trivial) is w₀)
      fun hs hself h _ hstep => h.stepped hs hself hstep
  exact hrun.invoked before _ after htrace g rfl

end Gated

/-! ### The request at the resolver -/

/-- While the resolver looks up a name, the request for it is still in the buffer. -/
def World.AsksDomain (w : World) : Prop :=
  w.shared.state = .asyncDns → 4 ≤ (w.shared.out .server).contents.length ∧
    reqAt (w.shared.out .server).contents 3 = atypDomn

section Asked

variable {cfg : Configs} {w w' : World} {e : Side} {ev : Events} {f : Option Fault}

theorem WaitingCommand.asksDomain (hw : Open w) (hs : w.shared.state = .waitingCommand)
    (h : WaitingCommand cfg w e ev f w') : w'.AsksDomain := by
  intro hasync
  cases h with
  | idle hidle => simp [hs] at hasync
  | resolver hret h => rcases h.state hw with hst | hst | hst <;> simp [hst] at hasync
  | ended hret hrecv hr => cases hasync
  | @data bytes got w₁ _ _ hret hrecv hgot h =>
    have hw₁ : Open (w₁.queue .server bytes) := by simpa using hrecv.open hw
    have hs₁ : (w₁.queue .server bytes).shared.state = .waitingCommand := by
      simpa [hrecv.shared] using hs
    have hcontents : ((w₁.queue .server bytes).shared.out .server).contents = got := by
      rw [World.queue_contents (by simpa [hrecv.shared] using hrecv.length_le), hrecv.shared, hgot]
    have hwaiting : (w₁.queue .server bytes).shared.state ≠ .asyncDns := by
      rw [hs₁]
      decide
    cases h with
    | short hlen => exact absurd hasync hwaiting
    | badAtyp hlen htotal h => rcases h.state with hst | hst <;> simp [hst] at hasync
    | part hlen htotal hpart => exact absurd hasync hwaiting
    | badVersion hlen htotal hcomplete hversion => cases hasync
    | run hlen htotal hcomplete hversion h =>
      have hw₂ : Open ((w₁.queue .server bytes).commandStored (got.take 300)) :=
        hw₁.setInfo rfl rfl
      cases h with
      | domain hatyp =>
        rw [reqAt_take (by decide)] at hatyp
        have hlong : 4 ≤ got.length := by
          rw [List.length_take] at hlen
          omega
        rw [← hcontents] at hatyp hlong
        exact ⟨hlong, hatyp⟩
      | noMemory hatyp hmalloc => exact absurd hasync hwaiting
      | dropped hatyp hfirewall h => rcases h.state with hst | hst <;> simp [hst] at hasync
      | passed hatyp hfirewall h =>
        rcases h.state (by simpa using hw₂.addrStored (got.take 300)) with hst | hst | hst <;>
          simp [hst] at hasync

theorem World.AsksDomain.handled (h : w.AsksDomain) (hw : Open w) (hh : Handled cfg w e ev f w') :
    w'.AsksDomain := by
  have hlate : ∀ {K : Act → Bool}, Does K w w' → w.shared.state ≠ .asyncDns →
      K (.state .asyncDns) = false → w'.AsksDomain := by
    intro K hdoes hne hK hasync
    rcases hdoes.state with heq | hin
    · exact absurd (heq.symm.trans hasync) hne
    · simp [hasync, hK] at hin
  cases hh with
  | still hstate => exact h
  | waitingMethods hstate hh =>
    intro hasync
    rcases hh.state hstate with hst | hst | hst <;> simp [hst] at hasync
  | sendingMethod hstate hh => exact hlate hh.does (by simp [hstate]) rfl
  | waitingCommand hstate hh => exact hh.asksDomain hw hstate
  | sendingReply hstate hh =>
    exact hlate hh.does (by rcases hstate with hst | hst <;> simp [hst]) rfl
  | connecting hstate hh => exact hlate hh.does (by simp [hstate]) rfl
  | bindListening hstate hh => exact hlate hh.does (by simp [hstate]) rfl
  | full hstate hh => exact hlate hh.does (by simp [hstate]) rfl
  | halfClose hstate =>
    intro hasync
    cases hasync
  | closed hstate =>
    intro hasync
    simp [hstate] at hasync

theorem World.AsksDomain.stepped {i : Input} (h : w.AsksDomain) (hstep : Stepped cfg w i f w') :
    w'.AsksDomain := by
  cases hstep.moved with
  | idle hcore =>
    simp only [World.core, Prod.mk.injEq] at hcore
    obtain ⟨-, hstate, hout, -, -⟩ := hcore
    unfold World.AsksDomain
    rw [hstate, hout]
    exact h
  | answered hdns => exact h
  | @handled ans rest _ _ _ _ _ hpending hw hd hh =>
    have htaken : (w.taken rest ans).AsksDomain := h
    exact htaken.handled hw hh
  | resumed hpending hw hdns hh => exact hh.asksDomain (hw.resumed _) rfl

end Asked

/-! ### A client that is admitted -/

/-- Everything is allowed, from any address and with one to advertise. -/
def openConfigs : Configs :=
  { Configs.cleared with
    allowDomains := true, allowConnect := true, allowBind := true, allowUdpassoc := true
    methods := noauthMethods
    bindAdvertise := [⟨.inet ![0, 0] ![192, 0, 2, 1], fun _ => 0⟩]
    bindListen := [⟨.inet ![0, 0] ![0, 0, 0, 0], fun _ => 0⟩]
    udpaAdvertise := [⟨.inet ![0, 0] ![192, 0, 2, 1], fun _ => 0⟩]
    udpaListen := [⟨.inet ![0, 0] ![0, 0, 0, 0], fun _ => 0⟩] }

/-- A CONNECT to 10.0.0.1, port 80, over descriptor 6. -/
def literalConnect : List Input :=
  greeting 5 ++ clientSends 5 [5, cmdConn, 0, atypIpv4, 10, 0, 0, 1, 0, 80]
    { Answers.idle with socket := some 6 }

theorem invoked_admitted_literal :
    ∃ before after, (Lib.run (step openConfigs) literalConnect
        (newClient 5 (.inet ![4, 0] ![127, 0, 0, 1]) fun _ => .zero)).state.trace =
          before ++ .invoked .connect :: after ∧
      Admitted openConfigs .connect (bytesFrom 5 before) (bytesTo 5 before) := by
  have hcall : .invoked .connect ∈ (Lib.run (step openConfigs) literalConnect
      (newClient 5 (.inet ![4, 0] ![127, 0, 0, 1]) fun _ => .zero)).state.trace := by
    decide +kernel
  have haccept : acceptNewClient 5 (.inet ![4, 0] ![127, 0, 0, 1]) (fun _ => .zero) true true =
      some (newClient 5 (.inet ![4, 0] ![127, 0, 0, 1]) fun _ => .zero) := rfl
  obtain ⟨before, after, htrace⟩ := List.append_of_mem hcall
  exact ⟨before, after, htrace, invoked_admitted haccept htrace⟩

end Socksprox
