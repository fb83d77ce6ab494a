import Socksprox.Run.Gate

/-!
The messages of the client as they are received. Each receive in STATE_WAITING_METHODS and in
STATE_WAITING_COMMAND adds to what `server_out` holds, so that what a handler finds there is a
prefix of the client's stream, wherever the stream was cut before.
-/

namespace Socksprox

/-! ### Receives -/

/-- A connection of the client on descriptor `fd`, after a run that met no fault. -/
def Reached (cfg : Configs) (fd : Int) (w : World) : Prop :=
  ∃ ss bufs mallocs epollAdd w₀ is, acceptNewClient fd ss bufs mallocs epollAdd = some w₀ ∧
    Lib.run (step cfg) is w₀ = .ok () w

/-- The next event is that the client's descriptor can be read, and these bytes are received. -/
def World.Takes (w : World) (ans : Answers) (bytes : List UInt8) : Prop :=
  bytes ≠ [] ∧ ∃ fd ev rest, w.pending = .peer fd (some .client) ev :: rest ∧ ev.epollin = true ∧
    (w.taken rest ans).readable (w.shared.fd .client) (w.shared.out .server).free = bytes

section Receives

variable {cfg : Configs} {fd : Int} {w w' : World} {ans : Answers} {bytes : List UInt8}
  {f : Option Fault}

theorem Reached.gated (h : Reached cfg fd w) :
    Sane w ∧ w.selfFd .client = fd ∧ Gated cfg fd w := by
  obtain ⟨ss, bufs, mallocs, epollAdd, w₀, is, hw₀, hrun⟩ := h
  have hsane := acceptNewClient_sane hw₀
  obtain ⟨-, rfl⟩ := acceptNewClient_eq hw₀
  exact run_reaches (C := fun _ _ => True) hsane rfl (newClient_gated fd ss bufs)
    (Lib.meets_of_forall (fun _ _ => trivial) is _)
      (fun hs hself h _ hstep => h.stepped hs hself hstep)
    hrun

/-- A connection that was not closed is open. -/
theorem Sane.open_of_state (hs : Sane w) (hstate : w.shared.state ≠ .closed) : Open w := by
  rcases hs.conn with hw | hw
  · exact hw
  · exact absurd hw.state hstate

/-- The handler of the state is called for the bytes. -/
theorem World.Takes.handled (h : w.Takes ans bytes) (hw : Open w)
    (hstep : Stepped cfg w (.handle ans) f w') :
    ∃ ev rest, ev.epollin = true ∧ Open (w.taken rest ans) ∧
      (w.taken rest ans).readable (w.shared.fd .client) (w.shared.out .server).free = bytes ∧
      Handled cfg (w.taken rest ans) .client ev f w' := by
  obtain ⟨-, fd', ev, rest, hpending, hin, hreadable⟩ := h
  exact ⟨ev, rest, hin, hw.taken rest ans, hreadable,
    hstep.peer hw hpending hw.client (by simp [hin])⟩

theorem Handled.of_waitingCommand {e : Side} {ev : Events} (hs : w.shared.state = .waitingCommand)
    (h : Handled cfg w e ev f w') : WaitingCommand cfg w e ev f w' := by
  have hh := h.handlerOf
  rw [hs] at hh
  exact hh

/-- What is there to receive goes behind what the buffer holds. -/
theorem WaitingCommand.of_readable {ev : Events} {fd' : Int} {n : Nat}
    (hin : ev.epollin = true) (hret : w.info.resolverRet = -1) (hne : bytes ≠ [])
    (hfd : w.shared.fd .client = fd') (hn : (w.shared.out .server).free = n)
    (hreadable : w.readable fd' n = bytes) (h : WaitingCommand cfg w .client ev f w') :
    ∃ w₁, Recv w fd' n (some bytes) w₁ ∧
      CommandRequest cfg (w₁.queue .server bytes)
        (((w.shared.out .server).contents ++ bytes).take 300) f w' := by
  subst hfd hn hreadable
  cases h with
  | idle hidle => simp [hin] at hidle
  | resolver hne h => exact absurd hret hne
  | ended hret hrecv hr =>
    have hsome := hrecv.of_readable hne
    rcases hr with rfl | rfl
    · cases hsome
    · exact absurd (Option.some.inj hsome).symm hne
  | @data bytes' got w₁ _ _ hret hrecv hgot h =>
    obtain rfl : bytes' = _ := hrecv.readable
    subst hgot
    exact ⟨w₁, hrecv, h⟩

theorem Handled.of_waitingMethods {e : Side} {ev : Events} (hs : w.shared.state = .waitingMethods)
    (h : Handled cfg w e ev f w') : WaitingMethods cfg w e ev w' := by
  have hh := h.handlerOf
  rw [hs] at hh
  exact hh.2

end Receives

/-! ### The method request -/

/-- The first of the offered methods that is switched on, and 0xFF when none is. -/
def Chosen (cfg : Configs) (methods : List UInt8) (m : UInt8) : Prop :=
  FirstEnabled cfg methods m ∨ m = methNometh ∧ ∀ m' ∈ methods, ¬ cfg.Enabled m'

/-- The octets that the `methods` loop looks up in the table. -/
def lookedUp (cfg : Configs) : List UInt8 → List UInt8
  | [] => []
  | m :: ms => if cfg.methodAt m = 1 then [m] else m :: lookedUp cfg ms

/-- What is expected of a receive that leaves `got` of a method request in the buffer. -/
def SelectedExactly (cfg : Configs) (methods got : List UInt8) (w w' : World) : Prop :=
  (got.length < 2 + methods.length → w'.shared.state = .waitingMethods ∧
    w'.shared.out .client = w.shared.out .client ∧ (w'.shared.out .server).contents = got) ∧
  (2 + methods.length ≤ got.length → ∃ m, Chosen cfg methods m ∧
    (w'.shared.out .client).contents = (w.shared.out .client).contents ++ [socks5Version, m] ∧
    (w'.shared.out .server).contents = got.drop (2 + methods.length) ∧
    ∀ m' ∈ lookedUp cfg methods, m'.toNat < 255)

/-- No octet 0xFF is offered before the first method that is switched on. -/
def OffersBelow (cfg : Configs) (methods : List UInt8) : Prop :=
  ∀ before after, methods = before ++ 0xFF :: after → ∃ m ∈ before, cfg.Enabled m

section Methods

variable {cfg : Configs} {w w' : World} {methods got more : List UInt8} {m : UInt8}

theorem Configs.enabled_iff (hm : m.toNat < 255) : cfg.Enabled m ↔ cfg.methodAt m = 1 := by
  constructor
  · intro h
    exact h.methodAt
  · intro h
    rw [Configs.methodAt, dif_pos hm] at h
    exact ⟨hm, h⟩

theorem offersBelow_cons : OffersBelow cfg (m :: methods) ↔
    m ≠ 0xFF ∧ (cfg.Enabled m ∨ OffersBelow cfg methods) := by
  constructor
  · intro h
    have hne : m ≠ 0xFF := by
      rintro rfl
      obtain ⟨m', hm', -⟩ := h [] methods rfl
      cases hm'
    refine ⟨hne, ?_⟩
    by_cases henabled : cfg.Enabled m
    · exact .inl henabled
    · refine .inr fun before after heq => ?_
      obtain ⟨m', hm', hon⟩ := h (m :: before) after (by rw [heq, List.cons_append])
      rcases List.mem_cons.mp hm' with rfl | hin
      · exact absurd hon henabled
      · exact ⟨m', hin, hon⟩
  · rintro ⟨hne, h⟩ before after heq
    cases before with
    | nil =>
      rw [List.nil_append, List.cons.injEq] at heq
      exact absurd heq.1 hne
    | cons m' before =>
      rw [List.cons_append, List.cons.injEq] at heq
      obtain ⟨rfl, heq⟩ := heq
      rcases h with hon | h
      · exact ⟨m, List.mem_cons_self, hon⟩
      · obtain ⟨m', hin, hon⟩ := h before after heq
        exact ⟨m', List.mem_cons_of_mem m hin, hon⟩

theorem toNat_lt_255 (hne : m ≠ 0xFF) : m.toNat < 255 := by
  have hlt := m.toNat_lt
  have hne' : m.toNat ≠ (0xFF : UInt8).toNat := fun h => hne (UInt8.toNat_inj.mp h)
  simp at hne'
  omega

/-- The loop stays in the table exactly when no 0xFF comes too early. -/
theorem lookedUp_lt_iff :
    (∀ m ∈ lookedUp cfg methods, m.toNat < 255) ↔ OffersBelow cfg methods := by
  induction methods with
  | nil =>
    refine ⟨fun _ before after heq => ?_, fun _ m hm => by cases hm⟩
    simp at heq
  | cons m ms ih =>
    rw [offersBelow_cons, lookedUp]
    constructor
    · intro h
      have hm : m.toNat < 255 := h m (by split <;> simp)
      have hne : m ≠ 0xFF := by
        rintro rfl
        exact absurd hm (by decide)
      refine ⟨hne, ?_⟩
      split at h
      · rename_i hon
        exact .inl ((Configs.enabled_iff hm).mpr hon)
      · exact .inr (ih.mp fun m' hm' => h m' (List.mem_cons_of_mem m hm'))
    · rintro ⟨hne, h⟩
      have hm := toNat_lt_255 hne
      split
      · intro m' hm'
        rwa [List.mem_singleton.mp hm']
      · rename_i hoff
        intro m' hm'
        rcases List.mem_cons.mp hm' with rfl | hin
        · exact hm
        · rcases h with hon | h
          · exact absurd hon.methodAt hoff
          · exact ih.mpr h m' hin

/-- The loop selects what it should, where it stays in the table. -/
theorem chosen_of_offersBelow (h : OffersBelow cfg methods) :
    Chosen cfg methods (selectMethod cfg methods) := by
  induction methods with
  | nil => exact .inr ⟨rfl, fun m hm => by cases hm⟩
  | cons m ms ih =>
    obtain ⟨hne, h⟩ := offersBelow_cons.mp h
    have henabled : cfg.Enabled m ↔ cfg.methodAt m = 1 := Configs.enabled_iff (toNat_lt_255 hne)
    rw [selectMethod]
    split
    · rename_i hon
      exact .inl ⟨henabled.mpr hon, [], ms, rfl, fun m' hm' => by cases hm'⟩
    · rename_i hoff
      have hskip : ¬ cfg.Enabled m := fun hon => hoff (henabled.mp hon)
      rcases ih (h.resolve_left hskip) with ⟨hon, before, after, heq, hbefore⟩ | ⟨hnone, hall⟩
      · refine .inl ⟨hon, m :: before, after, by rw [List.cons_append, ← heq], fun m' hm' => ?_⟩
        rcases List.mem_cons.mp hm' with rfl | hin
        · exact hskip
        · exact hbefore m' hin
      · refine .inr ⟨hnone, fun m' hm' => ?_⟩
        rcases List.mem_cons.mp hm' with rfl | hin
        · exact hskip
        · exact hall m' hin

section Message

variable {nmethods : UInt8} (hlen : methods.length = nmethods.toNat)
  (hgot : got <+: socks5Version :: nmethods :: (methods ++ more))

include hlen hgot

theorem methodsComplete_iff : MethodsComplete got ↔ 2 + methods.length ≤ got.length := by
  have hcount : 2 ≤ got.length → got.getD 1 0 = nmethods := fun h => reqAt_begun hgot h
  constructor
  · rintro ⟨htwo, hall⟩
    rwa [hcount htwo, ← hlen] at hall
  · intro hall
    have htwo : 2 ≤ got.length := by omega
    exact ⟨htwo, by rwa [hcount htwo, ← hlen]⟩

theorem offered_of_complete (hall : 2 + methods.length ≤ got.length) :
    offered got = methods ∧ got.getD 1 0 = nmethods ∧ got.getD 0 0 = socks5Version := by
  have hcount : got.getD 1 0 = nmethods := reqAt_begun hgot (show 1 < got.length by omega)
  refine ⟨?_, hcount, reqAt_begun hgot (show 0 < got.length by omega)⟩
  obtain ⟨rest, hrest⟩ := hgot
  have hdrop : got.drop 2 ++ rest = methods ++ more := by
    rw [← List.drop_append_of_le_length (by omega), hrest]
    rfl
  rw [offered, hcount, ← hlen, ← List.take_append_of_le_length (by rw [List.length_drop]; omega),
    hdrop, List.take_left]

/-- A receive in STATE_WAITING_METHODS. -/
theorem WaitingMethods.selected {bytes : List UInt8} {ev : Events} (hw : Open w)
    (hs : w.shared.state = .waitingMethods) (hempty : (w.shared.out .client).contents = [])
    (hin : ev.epollin = true) (hmod : w.modAnswer = true) (hne : bytes ≠ [])
    (hreadable : w.readable (w.shared.fd .client) (w.shared.out .server).free = bytes)
    (hcontents : (w.shared.out .server).contents ++ bytes = got)
    (h : WaitingMethods cfg w .client ev w') :
    SelectedExactly cfg methods got w w' ↔
      (2 + methods.length ≤ got.length → OffersBelow cfg methods) := by
  have hcomplete := methodsComplete_iff hlen hgot
  subst hreadable
  have hqueued : ∀ {bytes' w₁}, Recv w (w.shared.fd .client) (w.shared.out .server).free
      (some bytes') w₁ → (w₁.queue .server bytes').shared.state = .waitingMethods ∧
        (w₁.queue .server bytes').shared.out .client = w.shared.out .client ∧
        ((w₁.queue .server bytes').shared.out .server).contents = got := by
    intro bytes' w₁ hrecv
    have hshared := hrecv.shared
    refine ⟨by simp [hshared, hs], by simp [hshared], ?_⟩
    rw [World.queue_contents (by rw [hshared]; exact hrecv.length_le), hshared, hrecv.readable,
      hcontents]
  have hbytes : ∀ {bytes' got'}, got' = (w.shared.out .server).contents ++ bytes' →
      bytes' = w.readable (w.shared.fd .client) (w.shared.out .server).free → got' = got := by
    intro bytes' got' heq hb
    rw [heq, hb, hcontents]
  cases h with
  | idle hidle => simp [hin] at hidle
  | ended hrecv hr =>
    have hsome := hrecv.of_readable hne
    rcases hr with rfl | rfl
    · cases hsome
    · exact absurd (Option.some.inj hsome).symm hne
  | part hrecv hgot' hpart =>
    obtain rfl := hbytes hgot' hrecv.readable
    rw [hcomplete] at hpart
    exact ⟨fun _ hall => absurd hall hpart, fun _ =>
      ⟨fun _ => hqueued hrecv, fun hall => absurd hall hpart⟩⟩
  | badVersion hrecv hgot' hall hversion =>
    obtain rfl := hbytes hgot' hrecv.readable
    exact absurd (offered_of_complete hlen hgot (hcomplete.mp hall)).2.2 hversion
  | unwatched hrecv hgot' hall hversion hno => simp [hmod] at hno
  | chosen hrecv hgot' hall hversion _ =>
    obtain rfl := hbytes hgot' hrecv.readable
    have hlong := hcomplete.mp hall
    obtain ⟨hoffered, hcount, -⟩ := offered_of_complete hlen hgot hlong
    obtain ⟨-, hclient, hserver⟩ := hqueued hrecv
    constructor
    · intro hselected _
      obtain ⟨m, -, -, -, hbelow⟩ := hselected.2 hlong
      exact lookedUp_lt_iff.mp hbelow
    · intro hbelow
      refine ⟨fun hshort => by omega, fun _ => ?_⟩
      refine ⟨selectMethod cfg methods, chosen_of_offersBelow (hbelow hlong), ?_, ?_,
        lookedUp_lt_iff.mpr (hbelow hlong)⟩
      · show (((_ : World).methodChosen cfg _).shared.out .client).contents = _
        rw [methodChosen_client (by rw [hclient, hempty]) (by rw [hclient, hw.capacity]), hoffered,
          hempty, List.nil_append]
      · show (((_ : World).methodChosen cfg _).shared.out .server).contents = _
        rw [methodChosen_server, hserver, hcount, ← hlen]

end Message

end Methods

/-- **The method is selected exactly unless 0xFF is offered too early.** Let a receive in
STATE_WAITING_METHODS leave `got` in the buffer, the beginning of a method request with any bytes
behind it, wherever the receives before cut it, and let `epoll_ctl` succeed. Nothing is answered
before the message is complete, and then the message is taken out of the buffer and the first
method that is switched on, or 0xFF, is the answer, without a look behind the table, if and only
if no octet 0xFF comes before the first method that is switched on. -/
theorem method_selected_iff {cfg : Configs} {fd : Int} {w : World} {ans : Answers}
    {methods got bytes more : List UInt8} {nmethods : UInt8} (hreached : Reached cfg fd w)
    (hs : w.shared.state = .waitingMethods) (htakes : w.Takes ans bytes)
    (hepoll : ∀ b ∈ ans.epollMod, b = true) (hlen : methods.length = nmethods.toNat)
    (hfrom : bytesFrom fd w.trace ++ bytes = got)
    (hgot : got <+: socks5Version :: nmethods :: (methods ++ more)) :
    SelectedExactly cfg methods got w (step cfg (.handle ans) w).state ↔
      (2 + methods.length ≤ got.length → OffersBelow cfg methods) := by
  obtain ⟨hsane, hself, hgated⟩ := hreached.gated
  have hw := hsane.open_of_state (by simp [hs])
  obtain ⟨f, hstep⟩ : ∃ f, Stepped cfg w (.handle ans) f (step cfg (.handle ans) w).state :=
    step_stepped hsane _
  obtain ⟨ev, rest, hin, hopen, hreadable, hh⟩ := htakes.handled hw hstep
  have hwait := Handled.of_waitingMethods (w := w.taken rest ans) hs hh
  have hmod : (w.taken rest ans).modAnswer = true := by
    show ans.epollMod.headD true = true
    cases hmods : ans.epollMod with
    | nil => rfl
    | cons b bs => exact hepoll b (by simp [hmods])
  rw [(hgated.methods hs).1] at hfrom
  exact WaitingMethods.selected (w := w.taken rest ans) hlen hgot hopen hs
    ((hsane.phase hw).quiet (by simp [hs])) hin hmod htakes.1 hreadable hfrom hwait

/-- A client that sent these bytes, and none of them received. -/
def methodsArrived (bytes : List UInt8) : World :=
  (Lib.run (step openConfigs) [.arrive 5 bytes, .poll [.peer 5 (some .client) epollIn]]
    (newClient 5 (.inet ![4, 0] ![127, 0, 0, 1]) fun _ => .zero)).state

theorem methodsArrived_reached (bytes : List UInt8)
    (hfault : (Lib.run (step openConfigs) [.arrive 5 bytes, .poll [.peer 5 (some .client) epollIn]]
      (newClient 5 (.inet ![4, 0] ![127, 0, 0, 1]) fun _ => .zero)).fault? = none) :
    Reached openConfigs 5 (methodsArrived bytes) := by
  obtain ⟨⟨⟩, hok⟩ := Lib.Outcome.eq_ok hfault
  exact ⟨.inet ![4, 0] ![127, 0, 0, 1], fun _ => .zero, true, true, _, _, rfl, hok⟩

theorem method_selected_noauth :
    SelectedExactly openConfigs [methGssapi, methNoauth] [5, 2, methGssapi, methNoauth]
      (methodsArrived [5, 2, methGssapi, methNoauth])
      (step openConfigs (.handle { Answers.idle with recv := some 4 })
        (methodsArrived [5, 2, methGssapi, methNoauth])).state := by
  have hreached := methodsArrived_reached [5, 2, methGssapi, methNoauth] (by decide +kernel)
  have hs : (methodsArrived [5, 2, methGssapi, methNoauth]).shared.state = .waitingMethods := by
    decide +kernel
  have htakes : (methodsArrived [5, 2, methGssapi, methNoauth]).Takes
      { Answers.idle with recv := some 4 } [5, 2, methGssapi, methNoauth] := by
    refine ⟨by simp, 5, epollIn, [], ?_, rfl, ?_⟩
    · decide +kernel
    · decide +kernel
  have hfrom : bytesFrom 5 (methodsArrived [5, 2, methGssapi, methNoauth]).trace ++
      [5, 2, methGssapi, methNoauth] = [5, 2, methGssapi, methNoauth] := by
    decide +kernel
  refine (@method_selected_iff _ _ _ _ _ _ _ [] 2 hreached hs htakes
    (fun b hb => by cases hb) rfl hfrom
    (List.prefix_append _ [])).mpr fun _ => ?_
  refine lookedUp_lt_iff.mp ?_
  decide +kernel

/-- An offered octet 0xFF is looked up behind the table. -/
theorem method_beyond_table :
    ¬ ∀ (cfg : Configs) (fd : Int) (w : World) (ans : Answers) (methods got bytes more : List UInt8)
      (nmethods : UInt8), Reached cfg fd w → w.shared.state = .waitingMethods →
        w.Takes ans bytes → (∀ b ∈ ans.epollMod, b = true) → methods.length = nmethods.toNat →
        bytesFrom fd w.trace ++ bytes = got →
        got <+: socks5Version :: nmethods :: (methods ++ more) →
          SelectedExactly cfg methods got w (step cfg (.handle ans) w).state := by
  intro h
  have hreached := methodsArrived_reached [5, 1, 0xFF] (by decide +kernel)
  have hs : (methodsArrived [5, 1, 0xFF]).shared.state = .waitingMethods := by decide +kernel
  have htakes : (methodsArrived [5, 1, 0xFF]).Takes { Answers.idle with recv := some 3 }
      [5, 1, 0xFF] := by
    refine ⟨by simp, 5, epollIn, [], ?_, rfl, ?_⟩
    · decide +kernel
    · decide +kernel
  have hfrom : bytesFrom 5 (methodsArrived [5, 1, 0xFF]).trace ++ [5, 1, 0xFF] = [5, 1, 0xFF] := by
    decide +kernel
  have hselected := h _ _ _ _ [0xFF] _ _ _ 1 hreached hs htakes (fun b hb => by cases hb) rfl hfrom
    (List.prefix_append _ [])
  obtain ⟨m, -, -, -, hbelow⟩ := hselected.2 (by decide)
  exact absurd (hbelow 0xFF (by decide)) (by decide)

/-! ### The request -/

/-- Handing a request on, to the firewall and the command or to the resolver. -/
def Act.isHandOver : Act → Bool
  | .firewall _ | .resolve _ => true
  | _ => false

/-- Nothing that the client or the server's side could notice happened. -/
def SameRequest (w w' : World) : Prop :=
  w'.shared.state = w.shared.state ∧ w'.info = w.info ∧
    w'.shared.out .client = w.shared.out .client

/-- The request was handed over once, as RFC 1928 decodes it: command, address type and address
in `info`, or these two and the name and the port to the resolver. -/
def HandedOver (r : SocksRequest) (w w' : World) : Prop :=
  match r.addr with
  | some sa => ∃ info : Info, info.cmd = r.cmd ∧ info.atyp = r.dest.atyp ∧ info.sa = some sa ∧
      w'.trace.filter Act.isHandOver = w.trace.filter Act.isHandOver ++ [.firewall info]
  | none => ∃ input, r.dest.octets ++ r.port.toList <+: input ∧ w'.info.cmd = r.cmd ∧
      w'.info.atyp = r.dest.atyp ∧
      w'.trace.filter Act.isHandOver = w.trace.filter Act.isHandOver ++ [.resolve input]

/-- What is expected of a receive that leaves `got` of a request in the buffer. -/
def ParsedExactly (r : SocksRequest) (got : List UInt8) (w w' : World) : Prop :=
  (got.length < r.octets.length → SameRequest w w') ∧
    (r.octets.length ≤ got.length → HandedOver r w w')

/-- The receive does not leave a request for a name without its last octet, and there is memory
for the address of a request that is complete. -/
def CutsWell (r : SocksRequest) (got : List UInt8) (ans : Answers) : Prop :=
  (∀ name, r.dest = .domain name → got.length ≠ 6 + name.length) ∧
    (r.addr ≠ none → r.octets.length ≤ got.length → ans.mallocSa = true)

section Request

variable {cfg : Configs} {w w' v : World} {f : Option Fault} {r : SocksRequest}
  {got more req : List UInt8}

theorem Does.handOver {K : Act → Bool} (h : Does K w w')
    (hK : ∀ a, K a = true → a.isHandOver = false) :
    w'.trace.filter Act.isHandOver = w.trace.filter Act.isHandOver := by
  obtain ⟨acts, htrace, hacts⟩ := h.trace
  have hnone : acts.filter Act.isHandOver = [] := by
    rw [List.filter_eq_nil_iff]
    intro a ha
    simp [hK a (hacts a ha)]
  rw [htrace, List.filter_append, hnone, List.append_nil]

theorem Act.isInit_handOver (a : Act) (h : a.isInit = true) : a.isHandOver = false := by
  cases a <;> first | rfl | cases h

theorem Act.isError_handOver (a : Act) (h : a.isError = true) : a.isHandOver = false :=
  a.isInit_handOver (a.isError_init h)

/-- A request is handed over by the firewall's verdict on its address, or to the resolver. -/
theorem RunRequest.handedOver (h : RunRequest cfg (w.commandStored req) req f w')
    (hreq : req <+: r.octets ++ more) (hlen : r.octets.length ≤ req.length)
    (hroom : r.octets.length ≤ 300) :
    HandedOver r w w' ↔ (r.addr ≠ none → w.ans.mallocSa = true) := by
  have hlong : 4 + (r.dest.octets.length + 2) ≤ req.length := r.length_octets ▸ hlen
  have hcmd : reqAt req 1 = r.cmd := reqAt_begun hreq (by omega)
  have hatyp' : reqAt req 3 = r.dest.atyp := reqAt_begun hreq (by omega)
  have hfirewall : ∀ {v : World} {sa : SockAddr}, r.addr = some sa →
      v.trace.filter Act.isHandOver = (((w.commandStored req).addrStored req).emit
        (.firewall ((w.commandStored req).addrStored req).info)).trace.filter Act.isHandOver →
      HandedOver r w v := by
    intro v sa hsa htrace
    unfold HandedOver
    rw [hsa]
    refine ⟨((w.commandStored req).addrStored req).info, hcmd, hatyp', ?_, ?_⟩
    · exact congrArg some (reqAddr_begun hreq hlen hsa)
    · rw [htrace]
      simp [Act.isHandOver]
  cases h with
  | domain hatyp =>
    have hnone : r.addr = none := by
      by_contra hsome
      exact r.atyp_ne_domn hsome (hatyp' ▸ hatyp)
    refine ⟨fun _ hsome => absurd hnone hsome, fun _ => ?_⟩
    unfold HandedOver
    rw [hnone]
    refine ⟨_, body_begun hreq hlen hroom, hcmd, hatyp', ?_⟩
    simp [Act.isHandOver]
  | noMemory hatyp hmalloc =>
    have hsome : r.addr ≠ none := SocksRequest.addr_ne_none (hatyp' ▸ hatyp)
    have hsame : ¬ HandedOver r w (w.commandStored req) := by
      obtain ⟨sa, hsa⟩ := Option.ne_none_iff_exists'.mp hsome
      unfold HandedOver
      rw [hsa]
      rintro ⟨info, -, -, -, htrace⟩
      simp at htrace
    have hnone : w.ans.mallocSa = false := hmalloc
    refine ⟨fun hover => absurd hover hsame, fun hmemory => ?_⟩
    simp [hmemory hsome] at hnone
  | dropped hatyp hdrop hreply hmalloc =>
    have hsome : r.addr ≠ none := SocksRequest.addr_ne_none (hatyp' ▸ hatyp)
    obtain ⟨sa, hsa⟩ := Option.ne_none_iff_exists'.mp hsome
    refine ⟨fun _ _ => hmalloc, fun _ => hfirewall hsa ?_⟩
    exact hreply.does.handOver fun a ha => a.isError_handOver ha
  | passed hatyp hpass hdone hmalloc =>
    have hsome : r.addr ≠ none := SocksRequest.addr_ne_none (hatyp' ▸ hatyp)
    obtain ⟨sa, hsa⟩ := Option.ne_none_iff_exists'.mp hsome
    refine ⟨fun _ _ => hmalloc, fun _ => hfirewall hsa ?_⟩
    exact hdone.does.handOver fun a ha => a.isInit_handOver ha

theorem CommandRequest.parsed (h : CommandRequest cfg w (got.take 300) f w')
    (hs : w.shared.state = .waitingCommand) (hgot : got <+: r.octets ++ more) (hfits : r.Fits)
    (hallowed : r.dest.atyp = atypDomn → cfg.allowDomains = true) :
    ParsedExactly r got w w' ↔ CutsWell r got w.ans := by
  have hreq : got.take 300 <+: r.octets ++ more := (List.take_prefix 300 got).trans hgot
  have hlength : (got.take 300).length = min 300 got.length := List.length_take
  obtain ⟨hawaited, hfive⟩ := r.awaited_le
  have hle := hfits.length_le
  -- While the source waits, nothing happens, and the request is not complete.
  have hwaits : got.length < r.awaited → (ParsedExactly r got w w ↔ CutsWell r got w.ans) := by
    intro hlt
    refine ⟨fun _ => ⟨fun name hname heq => ?_, fun _ hlen => by omega⟩,
      fun _ => ⟨fun _ => ⟨rfl, rfl, rfl⟩, fun hlen => by omega⟩⟩
    simp only [SocksRequest.awaited, hname] at hlt
    omega
  have htotals : ∀ {total : Nat}, 5 ≤ (got.take 300).length →
      totalLen cfg (got.take 300) = some total → total = r.awaited := by
    intro total hlen htotal
    rw [totalLen_begun hreq hlen hfits hallowed, Option.some.injEq] at htotal
    exact htotal.symm
  cases h with
  | short hlen => exact hwaits (by omega)
  | badAtyp hlen htotal hreply =>
    rw [totalLen_begun hreq hlen hfits hallowed] at htotal
    cases htotal
  | part hlen htotal hpart =>
    obtain rfl := htotals hlen htotal
    exact hwaits (by omega)
  | badVersion hlen htotal hcomplete hversion =>
    exact absurd (reqAt_begun hreq (by omega)) hversion
  | run hlen htotal hcomplete hversion hrun =>
    obtain rfl := htotals hlen htotal
    rcases Nat.lt_or_ge got.length r.octets.length with hlt | hge
    · -- One octet is missing, behind a name that is looked up all the same.
      obtain ⟨name, hname, hseven⟩ :=
        SocksRequest.awaited_lt (by omega : r.awaited < r.octets.length)
      have hsix : got.length = 6 + name.length := by
        simp only [SocksRequest.awaited, hname] at hcomplete
        omega
      refine ⟨fun hparsed => ?_, fun hcuts => absurd hsix (hcuts.1 name hname)⟩
      obtain ⟨hstate, -, -⟩ := hparsed.1 hlt
      have hatyp : reqAt (got.take 300) 3 = atypDomn := by
        rw [reqAt_begun hreq (by omega)]
        show r.dest.atyp = atypDomn
        rw [hname]
        rfl
      cases hrun with
      | domain _ => simp [hs] at hstate
      | noMemory hne hmalloc => exact absurd hatyp hne
      | dropped hne hdrop hreply => exact absurd hatyp hne
      | passed hne hpass hdone => exact absurd hatyp hne
    · have hover := hrun.handedOver hreq (by omega) (by omega)
      refine ⟨fun hparsed => ⟨fun name hname => ?_, fun hsome _ => hover.mp (hparsed.2 hge) hsome⟩,
        fun hcuts => ⟨fun hlt => by omega, fun _ => hover.mpr fun hsome => hcuts.2 hsome hge⟩⟩
      have hseven : r.octets.length = 7 + name.length := by
        rw [r.length_octets, hname]
        simp [Dest.octets]
        omega
      omega

/-- What the receive did before does not matter. -/
theorem parsedExactly_congr (hstate : v.shared.state = w.shared.state) (hinfo : v.info = w.info)
    (hout : v.shared.out .client = w.shared.out .client)
    (htrace : v.trace.filter Act.isHandOver = w.trace.filter Act.isHandOver) :
    ParsedExactly r got v w' ↔ ParsedExactly r got w w' := by
  unfold ParsedExactly SameRequest HandedOver
  rw [hstate, hinfo, hout, htrace]

end Request

/-- **A request is parsed exactly unless it is cut behind its last octet but one.** Let a receive
in STATE_WAITING_COMMAND leave `got` of what followed the method request, the beginning of a
request with any bytes behind it, wherever the receives before cut it. Nothing happens before the
request is complete, and then it is handed over as RFC 1928 decodes it, if and only if `got` is
not a request for a name without its last octet and a complete request with an address finds
memory for it. -/
theorem request_parsed_iff {cfg : Configs} {fd : Int} {w : World} {ans : Answers}
    {methods got bytes more : List UInt8} {r : SocksRequest} (hreached : Reached cfg fd w)
    (hs : w.shared.state = .waitingCommand) (htakes : w.Takes ans bytes)
    (hstream : MethodRequest methods got (bytesFrom fd w.trace ++ bytes))
    (hgot : got <+: r.octets ++ more) (hfits : r.Fits)
    (hallowed : r.dest.atyp = atypDomn → cfg.allowDomains = true) :
    ParsedExactly r got w (step cfg (.handle ans) w).state ↔ CutsWell r got ans := by
  obtain ⟨hsane, hself, hgated⟩ := hreached.gated
  have hw := hsane.open_of_state (by simp [hs])
  obtain ⟨f, hstep⟩ : ∃ f, Stepped cfg w (.handle ans) f (step cfg (.handle ans) w).state :=
    step_stepped hsane _
  obtain ⟨ev, rest, hin, hopen, hreadable, hh⟩ := htakes.handled hw hstep
  have hret : (w.taken rest ans).info.resolverRet = -1 :=
    ((hsane.phase hw).early (by simp [hs])).2.2.1
  have hwait := Handled.of_waitingCommand (w := w.taken rest ans) hs hh
  obtain ⟨w₁, hrecv, hrequest⟩ := hwait.of_readable hin hret htakes.1 rfl rfl hreadable
  obtain ⟨methods', hmethods, -, -⟩ := hgated.command (.inl hs)
  obtain rfl : (w.shared.out .server).contents ++ bytes = got :=
    (hmethods.append bytes).unique hstream
  have hshared := hrecv.shared
  have hparsed := hrequest.parsed (by simpa [hshared] using hs) hgot hfits hallowed
  have hans : (w₁.queue .server bytes).ans = ans := by
    rw [World.queue_ans, hrecv.ans]
    rfl
  rw [hans] at hparsed
  have hdoes := ((Does.refl (K := Act.isRelay) (w.taken rest ans)).recv hrecv
    (fun _ => rfl) rfl).queue
    .server bytes rfl
  refine (parsedExactly_congr ?_ ?_ ?_ ?_).symm.trans hparsed
  · simp [hshared]
  · simp [hrecv.info]
  · simp [hshared]
  · exact hdoes.handOver fun a ha => by cases a <;> first | rfl | cases ha

/-- A client that sent these bytes behind its method request, and none of them received. -/
def requestArrived (bytes : List UInt8) : World :=
  (Lib.run (step openConfigs)
    (greeting 5 ++ [.arrive 5 bytes, .poll [.peer 5 (some .client) epollIn]])
    (newClient 5 (.inet ![4, 0] ![127, 0, 0, 1]) fun _ => .zero)).state

/-- A CONNECT to the name "a", port 80. -/
def nameRequest : SocksRequest := ⟨cmdConn, 0, .domain [97], ![0, 80]⟩

theorem nameRequest_fits : nameRequest.Fits := by
  rintro name ⟨rfl⟩
  decide

theorem requestArrived_reached (bytes : List UInt8)
    (hfault : (Lib.run (step openConfigs)
      (greeting 5 ++ [.arrive 5 bytes, .poll [.peer 5 (some .client) epollIn]])
      (newClient 5 (.inet ![4, 0] ![127, 0, 0, 1]) fun _ => .zero)).fault? = none) :
    Reached openConfigs 5 (requestArrived bytes) := by
  obtain ⟨⟨⟩, hok⟩ := Lib.Outcome.eq_ok hfault
  exact ⟨.inet ![4, 0] ![127, 0, 0, 1], fun _ => .zero, true, true, _, _, rfl, hok⟩

theorem request_parsed_name :
    ParsedExactly nameRequest nameRequest.octets (requestArrived nameRequest.octets)
      (step openConfigs (.handle { Answers.idle with recv := some 8 })
        (requestArrived nameRequest.octets)).state := by
  have hreached := requestArrived_reached nameRequest.octets (by decide +kernel)
  have hs : (requestArrived nameRequest.octets).shared.state = .waitingCommand := by decide +kernel
  have htakes : (requestArrived nameRequest.octets).Takes { Answers.idle with recv := some 8 }
      nameRequest.octets := by
    refine ⟨by simp [SocksRequest.octets], 5, epollIn, [], ?_, rfl, ?_⟩
    · decide +kernel
    · decide +kernel
  have hfrom : bytesFrom 5 (requestArrived nameRequest.octets).trace = [5, 1, methNoauth] := by
    decide +kernel
  have hstream : MethodRequest [methNoauth] nameRequest.octets
      (bytesFrom 5 (requestArrived nameRequest.octets).trace ++ nameRequest.octets) := by
    rw [hfrom]
    exact ⟨1, rfl, rfl⟩
  refine (request_parsed_iff hreached hs htakes hstream (List.prefix_append _ [])
    nameRequest_fits fun _ => rfl).mpr ⟨?_, ?_⟩
  · rintro name ⟨rfl⟩
    decide
  · intro haddr
    exact absurd rfl haddr

/-- Without the last octet of its port the request is handed over all the same. -/
theorem request_cut :
    ¬ ∀ (cfg : Configs) (fd : Int) (w : World) (ans : Answers) (methods got bytes more : List UInt8)
      (r : SocksRequest), Reached cfg fd w → w.shared.state = .waitingCommand → w.Takes ans bytes →
        MethodRequest methods got (bytesFrom fd w.trace ++ bytes) → got <+: r.octets ++ more →
        r.Fits → (r.dest.atyp = atypDomn → cfg.allowDomains = true) → ans.mallocSa = true →
          ParsedExactly r got w (step cfg (.handle ans) w).state := by
  intro h
  have hreached := requestArrived_reached [5, cmdConn, 0, atypDomn, 1, 97, 0] (by decide +kernel)
  have hs : (requestArrived [5, cmdConn, 0, atypDomn, 1, 97, 0]).shared.state =
    .waitingCommand := by
    decide +kernel
  have htakes : (requestArrived [5, cmdConn, 0, atypDomn, 1, 97, 0]).Takes
      { Answers.idle with recv := some 8 } [5, cmdConn, 0, atypDomn, 1, 97, 0] := by
    refine ⟨by simp, 5, epollIn, [], ?_, rfl, ?_⟩
    · decide +kernel
    · decide +kernel
  have hfrom : bytesFrom 5 (requestArrived [5, cmdConn, 0, atypDomn, 1, 97, 0]).trace =
      [5, 1, methNoauth] := by
    decide +kernel
  have hstream : MethodRequest [methNoauth] [5, cmdConn, 0, atypDomn, 1, 97, 0]
      (bytesFrom 5 (requestArrived [5, cmdConn, 0, atypDomn, 1, 97, 0]).trace ++
        [5, cmdConn, 0, atypDomn, 1, 97, 0]) := by
    rw [hfrom]
    exact ⟨1, rfl, rfl⟩
  have hgot : [5, cmdConn, 0, atypDomn, 1, 97, 0] <+: nameRequest.octets ++ [] := ⟨[80], rfl⟩
  have hasync : (step openConfigs (.handle { Answers.idle with recv := some 8 })
      (requestArrived [5, cmdConn, 0, atypDomn, 1, 97, 0])).state.shared.state = .asyncDns := by
    decide +kernel
  have hparsed := h _ _ _ _ _ _ _ _ _ hreached hs htakes hstream hgot nameRequest_fits
    (fun _ => rfl) rfl
  have hsame := (hparsed.1 (by decide)).1
  rw [hasync, hs] at hsame
  cases hsame

end Socksprox
