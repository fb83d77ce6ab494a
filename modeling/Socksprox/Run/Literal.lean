import Socksprox.FileMeaning
import Socksprox.Run.Alone
import Socksprox.Run.Attempts
import Socksprox.Run.Bypass
import Socksprox.Run.Resolver

/-!
A server that does not allow domain names, because its configuration file does not or because the
resolver could not be started. It never asks the resolver, so that nobody waits for it, and
the firewall sees every address that is connected to.
-/

namespace Socksprox

section Literal

variable {cfg : Configs} {pipes : Pipes} {p p' : Proxy} {w w' : World}

theorem World.Asks.allowed (h : w.Asks cfg) : cfg.allowDomains = true := by
  obtain ⟨-, -, ⟨-, htotal, -⟩, hatyp⟩ := h
  by_contra hnot
  have hneither : atypDomn ≠ atypIpv4 := by decide
  rw [totalLen, hatyp, if_neg hneither, if_pos rfl, if_neg hnot] at htotal
  cases htotal

/-- Without domain names no connection comes to wait for the resolver. -/
theorem Stepped.literal {i : Input} {f : Option Fault} (hcfg : cfg.allowDomains = false)
    (hw : w.shared.state ≠ .asyncDns) (h : Stepped cfg w i f w') :
    w'.shared.state ≠ .asyncDns := by
  intro hasync
  rcases h.asked hasync with ⟨hs, -⟩ | ⟨ans, -, v, -, hasks, -⟩
  · exact hw hs
  · rw [hasks.allowed] at hcfg
    cases hcfg

/-! ### Nothing is asked -/

/-- No connection waits for the resolver, nothing is in its pipes or with its thread, and nothing
ever was. -/
structure Unasked (p : Proxy) : Prop where
  conns : ∀ w ∈ p.conns, w.shared.state ≠ .asyncDns
  requests : p.requests = []
  resolving : p.resolving = none
  responses : p.responses = []
  notes : p.notes = []

theorem Unasked.moved {k : Nat} {i : Input} (h : Unasked p) (hcfg : cfg.allowDomains = false)
    (hs : Sane w) (hk : p.conns[k]? = some w) (hstep : Stepped cfg w i none w') :
    Unasked (p.moved k w w') := by
  have hstate := hstep.literal hcfg (h.conns w (List.mem_of_getElem? hk))
  have hdns : w'.dns = .idle := by
    by_contra hdns
    exact hstate ((hstep.sane hs).dns hdns).2
  have hnew : newQuestion k w w' = none := if_neg fun hasked => by
    rw [hdns] at hasked
    cases hasked.2
  refine ⟨fun u hu => ?_, ?_, h.resolving, h.responses, ?_⟩
  · rcases List.mem_or_eq_of_mem_set hu with hu | rfl
    · exact h.conns u hu
    · exact hstate
  · simp [Proxy.moved, hnew, h.requests]
  · simp [Proxy.moved, hnew, h.notes]

theorem ProxyStepped.unasked {i : ProxyInput} (hp : Orderly p) (h : Unasked p)
    (hcfg : cfg.allowDomains = false) (hstep : ProxyStepped cfg pipes p i none p') :
    Unasked p' := by
  cases hstep with
  | idle => exact h
  | accepted hw =>
    refine ⟨fun u hu => ?_, h.requests, h.resolving, h.responses, h.notes⟩
    rcases List.mem_append.mp hu with hu | hu
    · exact h.conns u hu
    · obtain rfl := List.mem_singleton.mp hu
      obtain ⟨-, rfl⟩ := acceptNewClient_eq hw
      intro hasync
      cases hasync
  | moved hk hown hstep => exact h.moved hcfg (hp.getElem hk).1 hk hstep
  | lookup hresolving hrequests =>
    rw [h.requests] at hrequests
    cases hrequests
  | looked hresolving hk =>
    rw [h.resolving] at hresolving
    cases hresolving
  | answered hresponses hk hstep =>
    rw [h.responses] at hresponses
    cases hresponses

/-- Without domain names the firewall has seen every address. -/
theorem vetted_literal {fd : Int} {ss : SockAddr} {bufs : Side → OutBuff}
    {mallocs epollAdd : Bool} {w₀ : World} (hcfg : cfg.allowDomains = false)
    (hw₀ : acceptNewClient fd ss bufs mallocs epollAdd = some w₀) (is : List Input) :
    Vetted cfg (Lib.run (step cfg) is w₀).state := by
  have hstart : w₀.shared.state ≠ .asyncDns ∧ Vetted cfg w₀ := by
    obtain ⟨-, rfl⟩ := acceptNewClient_eq hw₀
    refine ⟨nofun, fun _ _ hmem => ?_, fun _ _ a ha => ?_, nofun⟩
    · simp [newClient] at hmem
    · simp [newClient, Info.fresh] at ha
  refine (run_invariant (P := fun w => w.shared.state ≠ .asyncDns ∧ Vetted cfg w)
    (C := fun _ _ => True) (acceptNewClient_sane hw₀) hstart
    (Lib.meets_of_forall (fun _ _ => trivial) is w₀) fun {w w' i f} hs h _ hstep => ?_).2
  refine ⟨hstep.literal hcfg h.1, h.2.stepped hs ?_ hstep⟩
  cases i with
  | resolved gaiRet res =>
    intro hdns
    exact absurd (hs.dns (by simp [hdns])).2 h.1
  | _ => trivial

/-- **What the file blocks is not connected to.** Take any configuration file written line by line
that `parse_configs` accepts, with block rules that are written as networks and without domain
names. In every run of the server no connection is attempted to an address of a network that some
line of the file blocks. An address is in networks of its own family only: what is mapped into IPv6
is in no network of IPv4. -/
theorem file_blocks {host : Nat → Host} {line : Octets lineSize} {lines : List FileLine}
    {configs : FileConfigs} {messages : List String} (hempty : ∀ n, (host n).RefusesEmpty)
    (hload : loadConfigs host line (some (fileText lines)) = .ok (0, configs, messages))
    (hmeant : BlocksMeant (fileCalls host lines)) (hcfg : configs.allowDomains = false)
    {l : List (SockAddr × ListenAnswers)} {p₀ : Proxy} (hp₀ : startProxy l = some p₀)
    {is : List ProxyInput} {fd : Int} {dst : SockAddr}
    (hw : w ∈ (Lib.run (proxyStep configs.toConfigs pipes) is p₀).state.conns)
    (hconnect : .connect fd dst ∈ w.trace) :
    ∀ call ∈ fileCalls host lines, ∀ n ∈ blocked? call, ¬ n.Contains dst := by
  intro call hcall n hn hcontains
  obtain ⟨o, hlived, rfl⟩ := conns_lived hp₀ is w hw
  obtain ⟨_, _, _, _, _, w₀, js, hw₀, hjs⟩ := hlived.alone
  have hvetted := vetted_literal hcfg hw₀ js
  rw [hjs] at hvetted
  have hmeans := (loadConfigs_stored hempty hload).1.means
  have hany : ¬ n.IsInetAny := by
    rw [blocked?] at hn
    split at hn
    · obtain ⟨_, _, -, -, -, hany⟩ := network?_eq_some hn
      exact hany
    · cases hn
  refine hvetted.past fd dst hconnect ⟨n.rule, ?_, (Network.covers_iff hany).mpr hcontains⟩
  rw [hmeans.blocks hmeant]
  exact List.mem_reverse.mpr (List.mem_map.mpr ⟨n, List.mem_filterMap.mpr ⟨call, hcall, hn⟩, rfl⟩)

/-- A client that asks for a connection to 11.0.0.1. -/
def askOutside : List ProxyInput :=
  oneClient (greeting 5 ++ clientSends 5 [5, cmdConn, 0, atypIpv4, 11, 0, 0, 1, 0, 80]
    { Answers.idle with socket := some 6 })

theorem file_blocks_small :
    ∃ w ∈ (Lib.run (proxyStep smallConfigs.toConfigs ⟨2, 2⟩) askOutside listening).state.conns,
      ∃ fd dst, .connect fd dst ∈ w.trace ∧
        ∀ call ∈ fileCalls smallHost smallFile, ∀ n ∈ blocked? call, ¬ n.Contains dst := by
  have hfound :
      ∃ w ∈ (Lib.run (proxyStep smallConfigs.toConfigs ⟨2, 2⟩) askOutside listening).state.conns,
        w.trace.filterMap Act.attempted? ≠ [] := by
    decide +kernel
  have hmeant : ∀ call ∈ fileCalls smallHost smallFile,
      cString call.2.key = AddressKey.block.name → (blocked? call).isSome = true := by
    decide +kernel
  obtain ⟨messages, hload⟩ := smallFile_loads
  obtain ⟨w, hw, hattempted⟩ := hfound
  obtain ⟨dst, hdst⟩ := List.exists_mem_of_ne_nil _ hattempted
  obtain ⟨a, ha, hsome⟩ := List.mem_filterMap.mp hdst
  cases a with
  | connect fd dst' =>
    exact ⟨w, hw, fd, dst', ha, file_blocks smallHost_refusesEmpty hload hmeant
      (by decide +kernel) (l := oneListener) rfl hw ha⟩
  | _ => cases hsome

end Literal

end Socksprox
