import Socksprox.ParseConfigs

/-!
What a configuration file means. A key with one value has that of its last line, the methods are
those that some line names, and each line of an address key adds the addresses of its value, all
independently of what stands between those lines.
-/

namespace Socksprox

open Lib (Writes wp wp_bind wp_pure wp_lift_ok wp_lift_error wp_eq_ok)

/-! ### Keys -/

/-- The keys that are not address keys. -/
inductive PlainKey where
  | accessLog
  | errorLog
  | maxConnections
  | allowDomains
  | allowConnect
  | allowBind
  | allowUdpAssociate
  | method
  deriving DecidableEq

namespace PlainKey

def name : PlainKey → List UInt8
  | .accessLog => typed "access-log"
  | .errorLog => typed "error-log"
  | .maxConnections => typed "max-connections"
  | .allowDomains => typed "allow-domains"
  | .allowConnect => typed "allow-connect"
  | .allowBind => typed "allow-bind"
  | .allowUdpAssociate => typed "allow-udp-associate"
  | .method => typed "method"

/-- The settings with a value stored under the key. -/
def put (val : Octets valSize) (configs : FileConfigs) : PlainKey → FileConfigs
  | .accessLog => { configs with aLog := val }
  | .errorLog => { configs with eLog := val }
  | .maxConnections => { configs with maxConns := atoi val.toList }
  | .allowDomains => { configs with allowDomains := yesCheck val }
  | .allowConnect => { configs with allowConnect := yesCheck val }
  | .allowBind => { configs with allowBind := yesCheck val }
  | .allowUdpAssociate => { configs with allowUdpassoc := yesCheck val }
  | .method => { configs with methods := methodSet configs.methods (methodParse val) }

theorem name_inj : ∀ key key' : PlainKey, key.name = key'.name → key = key' := by
  intro key key'
  cases key <;> cases key' <;> decide +kernel

end PlainKey

namespace AddressKey

theorem name_ne_plain (key : AddressKey) (key' : PlainKey) : key.name ≠ key'.name := by
  have hne := name_ne key
  cases key' <;> exact hne _ (by decide)

/-- The list that an address key adds to. -/
def addrs (configs : FileConfigs) : AddressKey → List SockaddrLl
  | .bindAdvertise => configs.bindAdvertise
  | .bindListen => configs.bindListen
  | .udpaAdvertise => configs.udpaAdvertise
  | .udpaListen => configs.udpaListen
  | .listen => configs.listenHead
  | .block => []

def setAddrs (configs : FileConfigs) (head : List SockaddrLl) : AddressKey → FileConfigs
  | .bindAdvertise => { configs with bindAdvertise := head }
  | .bindListen => { configs with bindListen := head }
  | .udpaAdvertise => { configs with udpaAdvertise := head }
  | .udpaListen => { configs with udpaListen := head }
  | .listen => { configs with listenHead := head }
  | .block => configs

/-- The addresses of a value. -/
def addresses (host : Host) (v : List UInt8) (key : AddressKey) : List SockAddr :=
  (((key.lookup? v).bind host.getaddrinfo).getD []).map AddrInfo.aiAddr

end AddressKey

/-- The network that the value of a block key writes, with a mask in range that is not 0 for
IPv4. -/
def network? (host : Host) (v : List UInt8) : Option Network := do
  let (name, mask) ← cutAt charSlash v
  let ai ← ((host.getaddrinfo ⟨name, none⟩).getD []).head?
  let len ← decimal? mask
  match ai.aiAddr with
  | .inet port addr => if h : len ≤ 32 ∧ len ≠ 0 then some (.inet port addr len h.1) else none
  | .inet6 port addr => if h : len ≤ 128 then some (.inet6 port addr len h) else none
  | .other _ _ _ => none

section Steps

variable {host : Host} {setting : Setting} {configs configs' : FileConfigs}

theorem network?_eq_some {v : List UInt8} {n : Network} (h : network? host v = some n) :
    ∃ name mask, cutAt charSlash v = some (name, mask) ∧
      n.ai ∈ ((host.getaddrinfo ⟨name, none⟩).getD []).head? ∧ decimal? mask = some n.len ∧
      ¬ n.IsInetAny := by
  simp only [network?, Option.bind_eq_bind, Option.bind_eq_some_iff] at h
  obtain ⟨⟨name, mask⟩, hcut, ⟨aiAddr⟩, hai, len, hlen, h⟩ := h
  refine ⟨name, mask, hcut, ?_⟩
  cases aiAddr with
  | inet port addr =>
    simp only at h
    split at h
    · rename_i hrange
      cases h
      exact ⟨hai, hlen, fun hany => hrange.2 hany.2⟩
    · cases h
  | inet6 port addr =>
    simp only at h
    split at h
    · cases h
      have hne : afInet6 ≠ afInet := by decide
      exact ⟨hai, hlen, fun hany => hne hany.1⟩
    · cases h
  | other family data ne => cases h

/-! ### What a call stores -/

theorem names_distinct : (["method", "allow-udp-associate", "allow-bind", "allow-connect",
    "allow-domains", "max-connections", "error-log", "access-log"].map typed).Nodup := by
  decide +kernel

theorem storeConfig_plain {key : PlainKey} (hkey : cString setting.key = key.name) :
    storeConfig host setting configs = pure (0, key.put setting.val configs) := by
  have hne := names_distinct
  simp only [List.map_cons, List.map_nil, List.nodup_cons, List.mem_cons, List.not_mem_nil,
    or_false, not_or, not_false_eq_true, List.nodup_nil, and_true] at hne
  cases key <;> simp only [storeConfig, hkey, PlainKey.name, hne, if_false, if_true] <;> rfl

/-- A key that is not known is passed over. -/
theorem storeConfig_unknown (hplain : ∀ key : PlainKey, cString setting.key ≠ key.name)
    (haddress : ∀ key : AddressKey, cString setting.key ≠ key.name) :
    storeConfig host setting configs = pure (0, configs) :=
  (if_neg (hplain .accessLog)).trans <| (if_neg (hplain .errorLog)).trans <|
  (if_neg (hplain .maxConnections)).trans <| (if_neg (hplain .allowDomains)).trans <|
  (if_neg (hplain .allowConnect)).trans <| (if_neg (hplain .allowBind)).trans <|
  (if_neg (hplain .allowUdpAssociate)).trans <| (if_neg (hplain .method)).trans <|
  (if_neg (haddress .bindAdvertise)).trans <| (if_neg (haddress .bindListen)).trans <|
  (if_neg (haddress .udpaAdvertise)).trans <| (if_neg (haddress .udpaListen)).trans <|
  (if_neg (haddress .listen)).trans <| if_neg (haddress .block)

/-- The nodes that are linked hold the addresses found, the last in front. -/
theorem linkNodes_addrs {n : Nat} {ai : List AddrInfo} {head : List SockaddrLl}
    (h : (linkNodes host n ai head).1 = 0) :
    (linkNodes host n ai head).2.map SockaddrLl.sa =
      (ai.map AddrInfo.aiAddr).reverse ++ head.map SockaddrLl.sa := by
  induction ai generalizing n head with
  | nil => rfl
  | cons a rest ih =>
    rw [linkNodes] at h ⊢
    split at h
    · rename_i hmalloc
      rw [if_pos hmalloc, ih h]
      simp
    · cases h

/-- A call for a key that adds addresses. -/
theorem Stores.addrs {key : AddressKey} (hstore : Stores (host, setting) configs configs')
    (hkey : cString setting.key = key.name) (hblock : key ≠ .block) (hval : Terminated setting.val)
    (hempty : host.RefusesEmpty) :
    ∃ head, configs' = key.setAddrs configs head ∧ head.map SockaddrLl.sa =
      (key.addresses host (cString setting.val)).reverse ++
        (key.addrs configs).map SockaddrLl.sa := by
  obtain ⟨log, hstore⟩ := hstore
  have hwp : wp (storeConfig host setting configs) (fun r _ => r.1 = 0 →
      ∃ head, r.2 = key.setAddrs configs head ∧ head.map SockaddrLl.sa =
        (key.addresses host (cString setting.val)).reverse ++
          (key.addrs configs).map SockaddrLl.sa) (fun _ _ => True) [] := by
    rw [storeConfig_eq hkey]
    by_cases hlisten : key = .listen
    · subst hlisten
      obtain ⟨i, hi, hle, hcut⟩ := exists_cut hval charUnderscore
      rw [AddressKey.store, wp_bind, storeListen, wp_bind, strlen_eq hval, wp_lift_ok,
        wp_linkAddr hval _ hi hle]
      split
      · trivial
      split
      · trivial
      rw [wp_pure]
      intro hret
      rcases hcut with ⟨hnone, rfl⟩ | ⟨hsome, -⟩
      · rw [List.take_zero, hempty] at hret
        cases hret
      · refine ⟨_, rfl, ?_⟩
        rw [AddressKey.addresses, AddressKey.lookup?, hsome]
        simp only [Option.map_some, Option.bind_some]
        cases hfound : host.getaddrinfo
            ⟨(cString setting.val).take i, some ((cString setting.val).drop (i + 1))⟩ with
        | none =>
          rw [hfound] at hret
          cases hret
        | some found =>
          rw [hfound] at hret
          refine linkNodes_addrs ?_
          by_contra hfailed
          simp [failure, hfailed] at hret
    · have hstored : key.store host setting.val configs = (do
          let r ← storeAddress host setting.val (key.addrs configs)
          return (failure r.1, key.setAddrs configs r.2)) := by
        cases key <;> first | rfl | contradiction
      have hlookup : key.lookup? (cString setting.val) = some ⟨cString setting.val, none⟩ := by
        cases key <;> first | rfl | contradiction
      rw [hstored, wp_bind, wp_storeAddress hval]
      split
      · rw [wp_pure]
        intro hret
        cases hret
      split
      · trivial
      rw [wp_pure]
      intro hret
      refine ⟨_, rfl, ?_⟩
      rw [AddressKey.addresses, hlookup, Option.bind_some]
      unfold linkAddrsFromGai at hret ⊢
      split at hret
      · cases hret
      · rename_i hne
        rw [if_neg hne]
        refine linkNodes_addrs ?_
        by_contra hfailed
        simp [failure, hfailed] at hret
  rw [wp_eq_ok hstore] at hwp
  exact hwp rfl

theorem linkBlocks_rule {ai : AddrInfo} {mask : Int} {head : List BlockaddrLl}
    {r : Int × List BlockaddrLl} (h : linkBlocks true (some ai) mask head = .ok r) :
    ∃ rule, r = (0, rule :: head) := by
  rw [linkBlocks, if_pos rfl] at h
  cases hiton : firewallIton .cleared ai.aiFamily mask with
  | error f => simp [hiton, Except.map] at h
  | ok netmask =>
    rw [hiton] at h
    cases h
    exact ⟨_, rfl⟩

/-- A call for a block key has one rule more, that of the network that the value writes. -/
theorem Stores.block (hstore : Stores (host, setting) configs configs')
    (hkey : cString setting.key = AddressKey.block.name) (hval : Terminated setting.val) :
    ∃ rule, configs' = { configs with blockHead := rule :: configs.blockHead } ∧
      ∀ n ∈ network? host (cString setting.val), rule = n.rule := by
  obtain ⟨log, hstore⟩ := hstore
  obtain ⟨i, hi, hle, hcut⟩ := exists_cut hval charSlash
  obtain ⟨rest, hlist⟩ := toList_of_terminated hval
  have hmask : i < (cString setting.val).length →
      setting.val.toList.drop (i + 1) = (cString setting.val).drop (i + 1) ++ charNul :: rest := by
    intro hlt
    rw [hlist, List.drop_append_of_le_length hlt]
  have hwp : wp (storeConfig host setting configs) (fun r _ => r.1 = 0 →
      ∃ rule, r.2 = { configs with blockHead := rule :: configs.blockHead } ∧
        ∀ n ∈ network? host (cString setting.val), rule = n.rule) (fun _ _ => True) [] := by
    rw [storeConfig_eq hkey, AddressKey.store, wp_bind, wp_storeBlock hval _ hi hle]
    split
    · rw [wp_pure]
      intro hret
      cases hret
    split
    · trivial
    cases hfound : (host.getaddrinfo ⟨(cString setting.val).take i, none⟩).getD [] with
    | nil =>
      rw [wp_pure]
      intro hret
      cases hret
    | cons ai rest =>
      cases hmalloc : host.malloc 1 with
      | false =>
        simp only [linkBlocks_memory, wp_lift_ok, wp_pure]
        intro hret
        cases hret
      | true =>
        cases hlink : linkBlocks true (some ai) (atoi (setting.val.toList.drop (i + 1)))
            configs.blockHead with
        | error f =>
          simp only [hlink, wp_lift_error]
        | ok r =>
          simp only [hlink, wp_lift_ok, wp_pure]
          intro _
          obtain ⟨rule, rfl⟩ := linkBlocks_rule hlink
          refine ⟨rule, rfl, fun n hn => ?_⟩
          obtain ⟨name, mask, hsome, hai, hdecimal, hany⟩ := network?_eq_some hn
          rcases hcut with ⟨hnone, -⟩ | ⟨hsome', hlt⟩
          · rw [hnone] at hsome
            cases hsome
          obtain ⟨rfl, rfl⟩ := Prod.mk.inj (Option.some.inj (hsome'.symm.trans hsome))
          obtain rfl : ai = n.ai := by simpa [hfound] using hai
          rw [hmask hlt, atoi_decimal hdecimal n.len_lt, linkBlocks_network hany] at hlink
          cases hlink
          rfl
  rw [wp_eq_ok hstore] at hwp
  exact hwp rfl

/-- What a call that returns 0 does to the settings. -/
inductive Stored (host : Host) (setting : Setting) (configs : FileConfigs) :
    FileConfigs → Prop where
  | plain {key : PlainKey} (hkey : cString setting.key = key.name) :
      Stored host setting configs (key.put setting.val configs)
  | addrs {key : AddressKey} {head : List SockaddrLl} (hkey : cString setting.key = key.name)
      (hblock : key ≠ .block) (hhead : head.map SockaddrLl.sa =
        (key.addresses host (cString setting.val)).reverse ++
          (key.addrs configs).map SockaddrLl.sa) :
      Stored host setting configs (key.setAddrs configs head)
  | block {rule : BlockaddrLl} (hkey : cString setting.key = AddressKey.block.name)
      (hrule : ∀ n ∈ network? host (cString setting.val), rule = n.rule) :
      Stored host setting configs { configs with blockHead := rule :: configs.blockHead }
  | unknown (hplain : ∀ key : PlainKey, cString setting.key ≠ key.name)
      (haddress : ∀ key : AddressKey, cString setting.key ≠ key.name) :
      Stored host setting configs configs

theorem Stores.stored (hstore : Stores (host, setting) configs configs')
    (hval : Terminated setting.val) (hempty : host.RefusesEmpty) :
    Stored host setting configs configs' := by
  by_cases hplain : ∃ key : PlainKey, cString setting.key = key.name
  · obtain ⟨key, hkey⟩ := hplain
    obtain ⟨log, hstore⟩ := hstore
    rw [storeConfig_plain hkey] at hstore
    cases hstore
    exact .plain hkey
  by_cases haddress : ∃ key : AddressKey, cString setting.key = key.name
  · obtain ⟨key, hkey⟩ := haddress
    by_cases hblock : key = .block
    · subst hblock
      obtain ⟨rule, rfl, hrule⟩ := hstore.block hkey hval
      exact .block hkey hrule
    · obtain ⟨head, rfl, hhead⟩ := hstore.addrs hkey hblock hval hempty
      exact .addrs hkey hblock hhead
  · have hunknown := not_exists.mp hplain
    obtain ⟨log, hstore⟩ := hstore
    rw [storeConfig_unknown hunknown (not_exists.mp haddress)] at hstore
    cases hstore
    exact .unknown hunknown (not_exists.mp haddress)

end Steps

/-! ### Settings that are read at the end -/

/-- The values that the calls give to a key. -/
def assigned (key : PlainKey) (ws : List (Host × Setting)) : List (Octets valSize) :=
  ws.filterMap fun w => if cString w.2.key = key.name then some w.2.val else none

/-- The addresses that a call adds under a key. -/
def AddressKey.added (key : AddressKey) (w : Host × Setting) : List SockAddr :=
  if cString w.2.key = key.name then key.addresses w.1 (cString w.2.val) else []

/-- The network of a call's block rule. -/
def blocked? (w : Host × Setting) : Option Network :=
  if cString w.2.key = AddressKey.block.name then network? w.1 (cString w.2.val) else none

/-- Every block rule is written as a network. -/
def BlocksMeant (ws : List (Host × Setting)) : Prop :=
  ∀ w ∈ ws, cString w.2.key = AddressKey.block.name → (blocked? w).isSome = true

/-- The settings are what these calls say, whatever the order of calls for different keys. -/
structure Means (ws : List (Host × Setting)) (configs : FileConfigs) : Prop where
  aLog : configs.aLog = (assigned .accessLog ws).getLast?.getD fun _ => charNul
  eLog : configs.eLog = (assigned .errorLog ws).getLast?.getD fun _ => charNul
  maxConns : configs.maxConns =
    ((assigned .maxConnections ws).getLast?.map fun val => atoi val.toList).getD 0
  allowDomains : configs.allowDomains =
    ((assigned .allowDomains ws).getLast?.map yesCheck).getD false
  allowConnect : configs.allowConnect =
    ((assigned .allowConnect ws).getLast?.map yesCheck).getD false
  allowBind : configs.allowBind = ((assigned .allowBind ws).getLast?.map yesCheck).getD false
  allowUdpassoc : configs.allowUdpassoc =
    ((assigned .allowUdpAssociate ws).getLast?.map yesCheck).getD false
  methods : ∀ i, configs.methods i = if some i ∈ (assigned .method ws).map methodParse then 1 else 0
  addrs : ∀ key : AddressKey, key ≠ .block →
    (key.addrs configs).map SockaddrLl.sa = (ws.flatMap key.added).reverse
  blocks : BlocksMeant ws → configs.blockHead = ((ws.filterMap blocked?).map Network.rule).reverse

/-- What only the calls for one plain key change, and what they make of it. -/
structure Register {β : Type} (key : PlainKey) (get : FileConfigs → β)
    (read : Octets valSize → β) : Prop where
  put : ∀ val configs, get (key.put val configs) = read val := by
    intro val configs
    rfl
  other : ∀ key' val configs, key' ≠ key → get (key'.put val configs) = get configs := by
    intro key' val configs hne
    cases key' <;> first | contradiction | dsimp only [PlainKey.put]
  addrs : ∀ (key' : AddressKey) head configs, get (key'.setAddrs configs head) = get configs := by
    intro key' head configs
    cases key' <;> rfl
  block : ∀ rules configs, get { configs with blockHead := rules } = get configs := by
    intro rules configs
    rfl

section Meaning

variable {ws : List (Host × Setting)} {configs configs' : FileConfigs}

/-- Calls of `store_config` that are given strings, and return 0. -/
def AllStored (ws : List (Host × Setting)) (configs configs' : FileConfigs) : Prop :=
  Writes (fun w => Stored w.1 w.2) ws configs configs'

theorem Register.last {β : Type} {key : PlainKey} {get : FileConfigs → β}
    {read : Octets valSize → β} (hr : Register key get read) (h : AllStored ws configs configs') :
    get configs' = ((assigned key ws).getLast?.map read).getD (get configs) := by
  have hstep : ∀ (w : Host × Setting) (c c' : FileConfigs), Stored w.1 w.2 c c' → get c' =
      ((if cString w.2.key = key.name then some w.2.val else none).map read).getD (get c) := by
    intro w c c' hstored
    cases hstored with
    | @plain key' hkey =>
      by_cases heq : key' = key
      · subst heq
        simp [hkey, hr.put]
      · have hne : key'.name ≠ key.name := fun h => heq (PlainKey.name_inj _ _ h)
        simp [hkey, hne, hr.other _ _ _ heq]
    | @addrs key' head hkey hblock hhead =>
      simp [hkey, key'.name_ne_plain key, hr.addrs]
    | block hkey hrule => simp [hkey, AddressKey.name_ne_plain .block key, hr.block]
    | unknown hplain haddress => simp [hplain key]
  rw [Lib.Writes.register hstep h, assigned, ← List.getLast?_map, List.map_filterMap]

theorem AllStored.methods (h : AllStored ws configs configs') (i : Fin 255) :
    configs'.methods i =
      if some i ∈ (assigned .method ws).map methodParse then 1 else configs.methods i := by
  have hstep : ∀ (w : Host × Setting) (c c' : FileConfigs), Stored w.1 w.2 c c' → c'.methods i =
      (if cString w.2.key = PlainKey.method.name ∧ methodParse w.2.val = some i then some 1
        else none).getD (c.methods i) := by
    intro w c c' hstored
    cases hstored with
    | @plain key' hkey =>
      by_cases heq : key' = .method
      · subst heq
        rw [hkey]
        cases hmeth : methodParse w.2.val with
        | none => simp [PlainKey.put, methodSet, hmeth]
        | some j =>
          by_cases hj : j = i
          · subst hj
            simp [PlainKey.put, methodSet, hmeth]
          · simp [PlainKey.put, methodSet, hmeth, hj, Function.update_of_ne (Ne.symm hj)]
      · have hne : key'.name ≠ PlainKey.method.name := fun h => heq (PlainKey.name_inj _ _ h)
        rw [hkey, if_neg fun h => hne h.1]
        cases key' <;> first | rfl | contradiction
    | @addrs key' head hkey hblock hhead =>
      rw [hkey, if_neg fun h => key'.name_ne_plain .method h.1]
      cases key' <;> rfl
    | block hkey hrule =>
      rw [hkey, if_neg fun h => AddressKey.name_ne_plain .block .method h.1]
      rfl
    | unknown hplain haddress =>
      rw [if_neg fun h => hplain .method h.1]
      rfl
  have hnamed : some i ∈ (assigned .method ws).map methodParse ↔
      ∃ w ∈ ws, cString w.2.key = PlainKey.method.name ∧ methodParse w.2.val = some i := by
    simp only [assigned, List.map_filterMap, List.mem_filterMap]
    exact exists_congr fun w => and_congr_right fun _ => by
      by_cases hkey : cString w.2.key = PlainKey.method.name <;> simp [hkey]
  rw [Lib.Writes.register hstep h]
  cases hlast : (ws.filterMap fun w : Host × Setting =>
      if cString w.2.key = PlainKey.method.name ∧ methodParse w.2.val = some i then
        some (1 : UInt8) else none).getLast? with
  | none =>
    have hnil := List.filterMap_eq_nil_iff.mp (List.getLast?_eq_none_iff.mp hlast)
    refine (if_neg fun hmem => ?_).symm
    obtain ⟨w, hw, hkey⟩ := hnamed.mp hmem
    have hnone := hnil w hw
    rw [if_pos hkey] at hnone
    cases hnone
  | some v =>
    obtain ⟨w, hw, hsome⟩ := List.mem_filterMap.mp (List.mem_of_getLast? hlast)
    split at hsome
    · rename_i hkey
      cases hsome
      exact (if_pos (hnamed.mpr ⟨w, hw, hkey⟩)).symm
    · cases hsome

/-- The calls for the plain keys leave the lists of addresses. -/
@[simp] theorem addrs_put (key : AddressKey) (key' : PlainKey) (val : Octets valSize) :
    key.addrs (key'.put val configs) = key.addrs configs := by
  cases key <;> cases key' <;> dsimp only [PlainKey.put, AddressKey.addrs]

/-- The calls for an address key leave the lists of the others. -/
theorem addrs_setAddrs {key key' : AddressKey} (hne : key' ≠ key) (head : List SockaddrLl) :
    key.addrs (key'.setAddrs configs head) = key.addrs configs := by
  cases key <;> cases key' <;>
    first
    | contradiction
    | dsimp only [AddressKey.setAddrs, AddressKey.addrs]

theorem AllStored.addrs (h : AllStored ws configs configs') {key : AddressKey}
    (hblock : key ≠ .block) : (key.addrs configs').map SockaddrLl.sa =
      (ws.flatMap key.added).reverse ++ (key.addrs configs).map SockaddrLl.sa := by
  refine h.log (fun c => (key.addrs c).map SockaddrLl.sa) key.added fun w c c' hstored => ?_
  rw [AddressKey.added]
  cases hstored with
  | @plain key' hkey =>
    rw [hkey, if_neg (key.name_ne_plain key').symm, addrs_put]
    rfl
  | @addrs key' head hkey hblock' hhead =>
    by_cases heq : key' = key
    · subst heq
      rw [hkey, if_pos rfl, ← hhead]
      cases key' <;> first | rfl | contradiction
    · rw [hkey, if_neg fun h => heq (name_inj _ _ h), addrs_setAddrs heq]
      rfl
  | block hkey hrule =>
    rw [hkey, if_neg fun h => hblock (name_inj _ _ h).symm]
    cases key <;> rfl
  | unknown hplain haddress =>
    rw [if_neg (haddress key)]
    rfl

theorem AllStored.blocks (h : AllStored ws configs configs') (hmeant : BlocksMeant ws) :
    configs'.blockHead =
      ((ws.filterMap blocked?).map Network.rule).reverse ++ configs.blockHead := by
  have hall : Writes (fun w c c' => w ∈ ws ∧ Stored w.1 w.2 c c') ws configs configs' :=
    h.mono fun w hmem _ _ hstored => ⟨hmem, hstored⟩
  have hlog := hall.log (Configs.blockHead ∘ FileConfigs.toConfigs)
    (fun w => ((blocked? w).map Network.rule).toList) fun w c c' hstored => by
      obtain ⟨hmem, hstored⟩ := hstored
      have hnone : cString w.2.key ≠ AddressKey.block.name → blocked? w = none := fun hne =>
        if_neg hne
      cases hstored with
      | @plain key' hkey =>
        rw [hnone (hkey ▸ (AddressKey.name_ne_plain .block key').symm)]
        cases key' <;> rfl
      | @addrs key' head hkey hblock hhead =>
        rw [hnone (hkey ▸ fun h => hblock (name_inj _ _ h))]
        cases key' <;> rfl
      | block hkey hrule =>
        obtain ⟨n, hn⟩ := Option.isSome_iff_exists.mp (hmeant w hmem hkey)
        have hnet : network? w.1 (cString w.2.val) = some n := by
          rw [blocked?, if_pos hkey] at hn
          exact hn
        rw [hn, hrule n hnet]
        rfl
      | unknown hplain haddress =>
        rw [hnone (haddress .block)]
        rfl
  rw [List.map_filterMap, List.filterMap_eq_flatMap_toList]
  exact hlog

theorem register_maxConns :
    Register .maxConnections FileConfigs.maxConns fun val => atoi val.toList := {}

/-- The number of connections that is set. -/
example : (PlainKey.maxConnections.put (settingOf "max-connections" "12").val .cleared).maxConns =
    12 := by
  decide +kernel

theorem register_aLog : Register .accessLog FileConfigs.aLog id := {}

theorem register_eLog : Register .errorLog FileConfigs.eLog id := {}

theorem register_allowDomains :
    Register .allowDomains (fun c : FileConfigs => c.allowDomains) yesCheck := {}

theorem register_allowConnect :
    Register .allowConnect (fun c : FileConfigs => c.allowConnect) yesCheck := {}

theorem register_allowBind :
    Register .allowBind (fun c : FileConfigs => c.allowBind) yesCheck := {}

theorem register_allowUdpassoc :
    Register .allowUdpAssociate (fun c : FileConfigs => c.allowUdpassoc) yesCheck := {}

theorem AllStored.means (h : AllStored ws .cleared configs') : Means ws configs' where
  aLog := by
    rw [register_aLog.last h, Option.map_id]
    rfl
  eLog := by
    rw [register_eLog.last h, Option.map_id]
    rfl
  maxConns := register_maxConns.last h
  allowDomains := register_allowDomains.last h
  allowConnect := register_allowConnect.last h
  allowBind := register_allowBind.last h
  allowUdpassoc := register_allowUdpassoc.last h
  methods i := h.methods i
  addrs key hblock := by
    rw [h.addrs hblock]
    cases key <;> simp [AddressKey.addrs, FileConfigs.cleared, Configs.cleared]
  blocks hmeant := by
    rw [h.blocks hmeant]
    simp [FileConfigs.cleared, Configs.cleared]

/-- The settings of a written file are strings. -/
theorem FileLine.terminated {l : FileLine} {setting : Setting} (h : setting ∈ l.setting?) :
    Terminated setting.val := by
  cases l with
  | remark text hplain hignored hfit => cases h
  | setting l hfit =>
    cases h
    exact zeroFilled_terminated (by simp)
      (by simpa using Nat.succ_le_of_lt (SettingLine.val_fits hfit))

theorem mem_calls {host : Nat → Host} {settings : List Setting} {w : Host × Setting}
    (h : w ∈ calls host settings) : (∃ n, w.1 = host n) ∧ w.2 ∈ settings := by
  induction settings generalizing host with
  | nil => cases h
  | cons setting settings ih =>
    rcases List.mem_cons.mp h with rfl | h
    · exact ⟨⟨0, rfl⟩, List.mem_cons_self⟩
    · obtain ⟨⟨n, hn⟩, hmem⟩ := ih h
      exact ⟨⟨n + 1, hn⟩, List.mem_cons_of_mem _ hmem⟩

/-- The calls of `store_config` for a file that is written line by line. -/
def fileCalls (host : Nat → Host) (lines : List FileLine) : List (Host × Setting) :=
  calls host (lines.filterMap FileLine.setting?)

theorem mem_fileCalls {host : Nat → Host} {lines : List FileLine} {w : Host × Setting}
    (h : w ∈ fileCalls host lines) : (∃ n, w.1 = host n) ∧ Terminated w.2.val := by
  obtain ⟨hhost, hmem⟩ := mem_calls h
  obtain ⟨l, -, hl⟩ := List.mem_filterMap.mp hmem
  exact ⟨hhost, FileLine.terminated hl⟩

/-- What is accepted was stored line by line and checked. -/
theorem loadConfigs_stored {host : Nat → Host} {line : Octets lineSize} {lines : List FileLine}
    {messages : List String} (hempty : ∀ n, (host n).RefusesEmpty)
    (h : loadConfigs host line (some (fileText lines)) = .ok (0, configs, messages)) :
    AllStored (fileCalls host lines) .cleared configs ∧ confErrorCheck configs = (0, messages) := by
  rw [loadConfigs, loadLines_written] at h
  cases hloaded : storeEach host (lines.filterMap FileLine.setting?) .cleared with
  | done configs₁ =>
    simp only [hloaded] at h
    obtain ⟨hret, rfl, hmessages⟩ : (confErrorCheck configs₁).1 = 0 ∧ configs₁ = configs ∧
        (confErrorCheck configs₁).2 = messages := by simpa using h
    refine ⟨(storeEach_done.mp hloaded).mono fun w hmem _ _ hstore => ?_,
      Prod.ext hret hmessages⟩
    obtain ⟨⟨n, hn⟩, hval⟩ := mem_fileCalls hmem
    exact hstore.stored hval (hn ▸ hempty n)
  | failed configs₁ => simp [hloaded] at h
  | scanFault f => simp [hloaded] at h
  | storeFault f => simp [hloaded] at h

/-- **Accepted files mean what they say.** Take any file written line by line, whatever the
stack holds, the allocator does and `getaddrinfo` finds for each line, and whatever is found for no
name. When `parse_configs` returns 0, the settings are what the lines say: each key with one value
has that of its last line, the methods switched on are those named, each list has the addresses of
its lines, the last in front, and so have the block rules when each is written as a network. The
settings are usable, and nothing is printed. -/
theorem accepted_means {host : Nat → Host} {line : Octets lineSize} {lines : List FileLine}
    {messages : List String} (hempty : ∀ n, (host n).RefusesEmpty)
    (h : loadConfigs host line (some (fileText lines)) = .ok (0, configs, messages)) :
    Means (fileCalls host lines) configs ∧ configs.Usable ∧ messages = [] := by
  obtain ⟨hstored, hcheck⟩ := loadConfigs_stored hempty h
  refine ⟨hstored.means, confErrorCheck_iff.mp (congrArg Prod.fst hcheck), ?_⟩
  rcases confErrorCheck_cases configs with heq | ⟨hfailed, -⟩
  · exact congrArg Prod.snd (hcheck.symm.trans heq)
  · rw [hcheck] at hfailed
    cases hfailed

/-! ### Files that are read to their end -/

/-- Nothing keeps a call from storing its value: there is memory, and the address of an address key
fits and is found, and has a mask in range if it is to be blocked. -/
def Storable (w : Host × Setting) : Prop :=
  (∀ n, w.1.malloc n = true) ∧ ∀ key : AddressKey, cString w.2.key = key.name →
    (∃ l, key.lookup? (cString w.2.val) = some l ∧ l.Fits ∧ (w.1.getaddrinfo l).getD [] ≠ []) ∧
      (key = .block → (blocked? w).isSome = true)

theorem linkNodes_memory {host : Host} (hmalloc : ∀ n, host.malloc n = true) {n : Nat}
    {ai : List AddrInfo} {head : List SockaddrLl} : (linkNodes host n ai head).1 = 0 := by
  induction ai generalizing n head with
  | nil => rfl
  | cons a rest ih => rw [linkNodes, if_pos (hmalloc n), ih]

/-- The address of a key is looked up and linked. -/
theorem Storable.address {host : Host} {setting : Setting} {key : AddressKey}
    (h : Storable (host, setting)) (hkey : cString setting.key = key.name)
    (hval : Terminated setting.val) :
    wp (key.store host setting.val configs) (fun r _ => r.1 = 0) (fun _ _ => False) [] := by
  have hmalloc : ∀ n, host.malloc n = true := h.1
  have hneither : ∀ {i : Nat}, i < 39 → ¬ (39 < i ∨ host.malloc 0 = false) := fun hlt => by
    simp [hmalloc]
    omega
  obtain ⟨⟨l, hlookup, ⟨hnode, hservice⟩, hfound⟩, hblock⟩ := h.2 key hkey
  by_cases hlisten : key = .listen
  · subst hlisten
    obtain ⟨i, hi, hle, hcut⟩ := exists_cut hval charUnderscore
    rcases hcut with ⟨hnone, rfl⟩ | ⟨hsome, hlt⟩
    · simp [AddressKey.lookup?, hnone] at hlookup
    · obtain rfl : _ = l := by simpa [AddressKey.lookup?, hsome] using hlookup
      have hport := hservice _ rfl
      simp only [List.length_take, List.length_drop] at hnode hport
      rw [AddressKey.store, wp_bind, storeListen, wp_bind, strlen_eq hval, wp_lift_ok,
        wp_linkAddr hval _ hi hle, if_neg (by omega), if_neg (by omega), wp_pure]
      cases hres : host.getaddrinfo
          ⟨(cString setting.val).take i, some ((cString setting.val).drop (i + 1))⟩ with
      | none => simp [hres] at hfound
      | some found =>
        simp only [linkNodes_memory hmalloc]
        rfl
  by_cases hrule : key = .block
  · subst hrule
    obtain ⟨i, hi, hle, hcut⟩ := exists_cut hval charSlash
    obtain ⟨rest, hlist⟩ := toList_of_terminated hval
    rcases hcut with ⟨hnone, rfl⟩ | ⟨hsome, hlt⟩
    · simp [AddressKey.lookup?, hnone] at hlookup
    · obtain rfl : _ = l := by simpa [AddressKey.lookup?, hsome] using hlookup
      have hshort : i < 39 := by simpa [List.length_take_of_le hle] using hnode
      obtain ⟨n, hn⟩ := Option.isSome_iff_exists.mp (hblock rfl)
      rw [blocked?, if_pos hkey] at hn
      obtain ⟨name, mask, hsome', hai, hdecimal, hany⟩ := network?_eq_some hn
      obtain ⟨rfl, rfl⟩ := Prod.mk.inj (Option.some.inj (hsome.symm.trans hsome'))
      obtain ⟨others, hres⟩ := List.head?_eq_some_iff.mp hai
      have hmask : setting.val.toList.drop (i + 1) =
          (cString setting.val).drop (i + 1) ++ charNul :: rest := by
        rw [hlist, List.drop_append_of_le_length hlt]
      rw [AddressKey.store, wp_bind, wp_storeBlock hval _ hi hle, if_neg (hneither hshort),
        if_neg hshort.ne, hres]
      simp only [hmalloc, hmask, atoi_decimal hdecimal n.len_lt, linkBlocks_network hany,
        wp_lift_ok, wp_pure]
      rfl
  · have hplain : key.lookup? (cString setting.val) = some ⟨cString setting.val, none⟩ := by
      cases key <;> first | rfl | contradiction
    obtain rfl : _ = l := Option.some.inj (hplain.symm.trans hlookup)
    obtain ⟨head, put, -, hstored⟩ := AddressKey.store_plain host setting.val hlisten hrule configs
    have hshort : (cString setting.val).length < 39 := hnode
    rw [hstored, wp_bind, wp_storeAddress hval, if_neg (hneither hshort), if_neg hshort.ne,
      wp_pure, linkAddrsFromGai, if_neg hfound, linkNodes_memory hmalloc]
    rfl

theorem Storable.stores {host : Host} {setting : Setting} (h : Storable (host, setting))
    (hval : Terminated setting.val) (configs : FileConfigs) :
    ∃ configs', Stores (host, setting) configs configs' := by
  have hreturns : wp (storeConfig host setting configs) (fun r _ => r.1 = 0)
      (fun _ _ => False) [] := by
    by_cases hplain : ∃ key : PlainKey, cString setting.key = key.name
    · obtain ⟨key, hkey⟩ := hplain
      rw [storeConfig_plain hkey, wp_pure]
    by_cases haddress : ∃ key : AddressKey, cString setting.key = key.name
    · obtain ⟨key, hkey⟩ := haddress
      rw [storeConfig_eq hkey]
      exact h.address hkey hval
    · rw [storeConfig_unknown (not_exists.mp hplain) (not_exists.mp haddress), wp_pure]
  obtain ⟨⟨ret, configs'⟩, log, hstore, rfl⟩ := hreturns.returns
  exact ⟨configs', log, hstore⟩

theorem storeEach_storable {host : Nat → Host} {settings : List Setting}
    (h : ∀ w ∈ calls host settings, Storable w ∧ Terminated w.2.val) (configs : FileConfigs) :
    ∃ configs', Writes Stores (calls host settings) configs configs' := by
  induction settings generalizing host configs with
  | nil => exact ⟨configs, .nil _⟩
  | cons setting settings ih =>
    obtain ⟨hstorable, hval⟩ := h _ List.mem_cons_self
    obtain ⟨configs₁, hstore⟩ := hstorable.stores hval configs
    obtain ⟨configs', hrest⟩ := ih (fun w hw => h w (List.mem_cons_of_mem _ hw)) configs₁
    exact ⟨configs', .cons hstore hrest⟩

/-- **Written files are read back.** Take any file written line by line, and let nothing keep
its lines from being stored. Whatever the stack holds, it is read within the arrays to its end, the
settings are what the lines say, and `parse_configs` returns 0 if they are usable, and else 1 with a
message. -/
theorem written_file_loads {host : Nat → Host} (line : Octets lineSize) {lines : List FileLine}
    (hempty : ∀ n, (host n).RefusesEmpty) (hstorable : ∀ w ∈ fileCalls host lines, Storable w) :
    ∃ configs messages, Means (fileCalls host lines) configs ∧
      loadConfigs host line (some (fileText lines)) =
        .ok (if configs.Usable then 0 else 1, configs, messages) ∧
      (messages = [] ↔ configs.Usable) := by
  obtain ⟨configs, hstores⟩ := storeEach_storable
    (fun w hw => ⟨hstorable w hw, (mem_fileCalls hw).2⟩) .cleared
  have hstored : AllStored (fileCalls host lines) .cleared configs :=
    hstores.mono fun w hmem _ _ hstore => by
      obtain ⟨⟨n, hn⟩, hval⟩ := mem_fileCalls hmem
      exact hstore.stored hval (hn ▸ hempty n)
  refine ⟨configs, (confErrorCheck configs).2, hstored.means, ?_, ?_⟩
  · rw [loadConfigs, loadLines_written, storeEach_done.mpr hstores]
    by_cases husable : configs.Usable
    · simp only [confErrorCheck_iff.mpr husable, if_pos husable]
    · rcases confErrorCheck_cases configs with heq | ⟨hfailed, -⟩
      · exact absurd (confErrorCheck_iff.mp (congrArg Prod.fst heq)) husable
      · simp only [hfailed, if_neg husable]
  · rw [← confErrorCheck_iff]
    rcases confErrorCheck_cases configs with heq | ⟨hfailed, hmessages⟩
    · simp [heq]
    · simp [hfailed, hmessages]

end Meaning

/-! ### A file -/

/-- A setting with an equals sign behind its key. -/
def writtenLine (key val : List UInt8)
    (hkey : key ≠ [] ∧ key.length < keySize ∧
      (∀ c ∈ key, isSeparator c = false ∧ isLineEnd c = false) ∧
      ∀ c ∈ key.head?, c ≠ charHash ∧ c ≠ charSemicolon)
    (hval : val ≠ [] ∧ (∀ c ∈ val, isValueEnd c = false) ∧ ∀ c ∈ val.head?, c ≠ charEquals) :
    SettingLine where
  lead := []
  key := key
  separator := [charEquals]
  val := val
  trail := []
  lead_blank := by simp
  key_ne := hkey.1
  key_fits := hkey.2.1
  key_plain := hkey.2.2.1
  key_starts := hkey.2.2.2
  separator_ne := by simp
  separator_kind := by simp [isSeparator]
  val_ne := hval.1
  val_plain := hval.2.1
  val_starts := hval.2.2
  trail_blank := by simp

/-- A server for connections to anywhere but 10.0.0.0/8. -/
def smallFile : List FileLine :=
  [.remark (typed "# Connections") (by decide +kernel) (by decide +kernel) (by decide +kernel),
    .setting (writtenLine (typed "listen") (typed "10.0.0.9_1080") (by decide +kernel)
      (by decide +kernel)) (by decide +kernel),
    .setting (writtenLine (typed "access-log") (typed "/a") (by decide +kernel)
      (by decide +kernel)) (by decide +kernel),
    .setting (writtenLine (typed "error-log") (typed "/e") (by decide +kernel)
      (by decide +kernel)) (by decide +kernel),
    .setting (writtenLine (typed "max-connections") (typed "9") (by decide +kernel)
      (by decide +kernel)) (by decide +kernel),
    .setting (writtenLine (typed "allow-connect") (typed "yes") (by decide +kernel)
      (by decide +kernel)) (by decide +kernel),
    .setting (writtenLine (typed "method") (typed "no-auth") (by decide +kernel)
      (by decide +kernel)) (by decide +kernel),
    .setting (writtenLine (typed "block") (typed "10.0.0.0/8") (by decide +kernel)
      (by decide +kernel)) (by decide +kernel)]

/-- A host that finds `tenNet` for every name. -/
def smallHost (_ : Nat) : Host := .always tenNet

theorem smallHost_refusesEmpty (n : Nat) : (smallHost n).RefusesEmpty := fun _ => rfl

/-- The settings that the file leaves. -/
def smallConfigs : FileConfigs :=
  match loadConfigs smallHost (fun _ => 0) (some (fileText smallFile)) with
  | .ok r => r.2.1
  | .error _ => .cleared

theorem smallFile_loads : ∃ messages, loadConfigs smallHost (fun _ => 0)
    (some (fileText smallFile)) = .ok (0, smallConfigs, messages) := by
  have hret : (match loadConfigs smallHost (fun _ => 0) (some (fileText smallFile)) with
      | .ok r => r.1
      | .error _ => -1) = 0 := by
    decide +kernel
  unfold smallConfigs
  cases hload : loadConfigs smallHost (fun _ => 0) (some (fileText smallFile)) with
  | error f =>
    rw [hload] at hret
    cases hret
  | ok r =>
    obtain ⟨ret, configs, messages⟩ := r
    rw [hload] at hret
    obtain rfl : ret = 0 := hret
    exact ⟨messages, rfl⟩

theorem accepted_means_small :
    Means (fileCalls smallHost smallFile) smallConfigs ∧ smallConfigs.Usable := by
  obtain ⟨messages, hload⟩ := smallFile_loads
  obtain ⟨hmeans, husable, -⟩ := accepted_means smallHost_refusesEmpty hload
  exact ⟨hmeans, husable⟩

/-- The file of its last line only. -/
def blockFile : List FileLine := smallFile.drop 7

theorem written_file_loads_block : ∃ configs messages,
    Means (fileCalls smallHost blockFile) configs ∧
      loadConfigs smallHost (fun _ => 0) (some (fileText blockFile)) =
        .ok (if configs.Usable then 0 else 1, configs, messages) ∧
      (messages = [] ↔ configs.Usable) := by
  refine written_file_loads _ smallHost_refusesEmpty fun w hw => ?_
  obtain ⟨setting, hone⟩ : ∃ setting, fileCalls smallHost blockFile = [(smallHost 0, setting)] :=
    ⟨_, rfl⟩
  have hkey : ∀ w ∈ fileCalls smallHost blockFile,
      cString w.2.key = AddressKey.block.name ∧
        AddressKey.block.lookup? (cString w.2.val) = some ⟨typed "10.0.0.0", none⟩ ∧
        (blocked? w).isSome = true := by
    decide +kernel
  obtain ⟨hname, hlookup, hblocked⟩ := hkey w hw
  rw [hone, List.mem_singleton] at hw
  subst hw
  have hfound : ((smallHost 0).getaddrinfo ⟨typed "10.0.0.0", none⟩).getD [] ≠ [] := by
    decide +kernel
  refine ⟨fun _ => rfl, fun key hkey => ?_⟩
  obtain rfl : AddressKey.block = key := name_inj _ _ (hname.symm.trans hkey)
  exact ⟨⟨_, hlookup, ⟨by decide +kernel, by simp⟩, hfound⟩, fun _ => hblocked⟩

end Socksprox
