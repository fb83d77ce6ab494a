import Socksprox.StoreConfig

/-!
The values of the address keys: which strings of a value reach `getaddrinfo`, and when the copies
stay within their arrays.
-/

namespace Socksprox

open Lib

section Strings

variable {n : Nat} {bytes : List UInt8} {val : Octets valSize} {v : List UInt8}

/-- A terminator behind what is stored is there already. -/
theorem zeroFilled_nul (n : Nat) (bytes : List UInt8) :
    zeroFilled n (bytes ++ [charNul]) = zeroFilled n bytes := by
  funext i
  rcases Nat.lt_or_ge i.val bytes.length with hlt | hge
  · simp only [zeroFilled]
    rw [List.getD_append _ _ _ _ hlt]
  · simp only [zeroFilled]
    rw [List.getD_append_right _ _ _ _ hge, List.getD_eq_default _ _ hge]
    cases i.val - bytes.length <;> rfl

theorem asString_zeroFilled (hnul : charNul ∉ bytes) (hfit : bytes.length ≤ n) :
    asString (zeroFilled n bytes) = if bytes.length < n then .ok bytes else .error .read := by
  split
  · rename_i hlt
    have hterminated : Terminated (zeroFilled n bytes) := by
      rw [← zeroFilled_nul]
      exact zeroFilled_terminated (by simp) (by simp; omega)
    have hstring : cString (zeroFilled n bytes) = bytes := by
      rw [← zeroFilled_nul]
      exact zeroFilled_cString hnul hlt
    rw [asString, if_pos hterminated, hstring]
  · rename_i hge
    rw [asString, if_neg (zeroFilled_not_terminated hnul (by omega))]

theorem cString_nul (a : Octets n) : charNul ∉ cString a := fun h => by
  simpa using List.mem_takeWhile_imp h

/-- An array that holds a string, as a list. -/
theorem toList_of_terminated {a : Octets n} (h : Terminated a) :
    ∃ rest, a.toList = cString a ++ charNul :: rest := by
  have hsplit := List.takeWhile_append_dropWhile (p := fun c => c != charNul) (l := a.toList)
  cases hrest : a.toList.dropWhile (fun c => c != charNul) with
  | nil =>
    rw [hrest, List.append_nil] at hsplit
    rw [Terminated, ← hsplit] at h
    exact absurd h (cString_nul a)
  | cons c rest =>
    have hc := List.head_dropWhile_not (fun c => c != charNul) (l := a.toList) (by simp [hrest])
    obtain rfl : c = charNul := by simpa [hrest] using hc
    exact ⟨rest, by rw [← hrest]; exact hsplit.symm⟩

theorem strlen_eq {a : Octets n} (h : Terminated a) : strlen a = .ok (cString a).length := by
  rw [strlen, asString, if_pos h]
  rfl

/-! ### The copies -/

/-- A copy from the front of a string, taken for a string. -/
theorem memcpy_front {src : List UInt8} {rest : List UInt8} {m count : Nat} (hsrc : src = v ++ rest)
    (hcount : count ≤ v.length) :
    memcpy m src count = if m < count then .error .write
      else .ok (zeroFilled m (v.take count)) := by
  rw [memcpy, if_neg (by simp [hsrc]; omega), hsrc, List.take_append_of_le_length hcount]

/-! ### The delimiter -/

/-- The text before the first delimiter, and the text behind it. -/
def cutAt (delim : UInt8) (v : List UInt8) : Option (List UInt8 × List UInt8) :=
  if delim ∈ v then some (v.takeWhile fun c => c != delim, (v.dropWhile fun c => c != delim).tail)
  else none

theorem cutAt_none {delim : UInt8} (h : cutAt delim v = none) : delim ∉ v := by
  intro hmem
  simp [cutAt, hmem] at h

theorem cutAt_some {delim : UInt8} {p : List UInt8 × List UInt8} (h : cutAt delim v = some p) :
    v = p.1 ++ delim :: p.2 ∧ delim ∉ p.1 := by
  rw [cutAt] at h
  split at h
  · rename_i hmem
    obtain ⟨front, back, rfl, hfront⟩ := List.eq_append_cons_of_mem hmem
    have hall : ∀ c ∈ front, (c != delim) = true := fun c hc =>
      bne_iff_ne.mpr fun heq => hfront (heq ▸ hc)
    rw [List.takeWhile_append_of_pos hall, List.dropWhile_append_of_pos hall] at h
    obtain rfl : p = (front, back) := by simpa using h.symm
    exact ⟨rfl, hfront⟩
  · cases h

theorem delimInd_none {delim : UInt8} {rest : List UInt8} (h : delim ∉ v) :
    delimInd delim (v ++ rest) v.length = 0 := by
  have hnone : v.findIdx? (fun c => c == delim) = none :=
    List.findIdx?_eq_none_iff.mpr fun c hc => by
      simp only [beq_eq_false_iff_ne]
      rintro rfl
      exact h hc
  rw [delimInd, List.take_left, hnone]
  rfl

theorem delimInd_some {delim : UInt8} {front back rest : List UInt8} (h : delim ∉ front) :
    delimInd delim ((front ++ delim :: back) ++ rest) (front ++ delim :: back).length =
      front.length := by
  have hnone : front.findIdx? (fun c => c == delim) = none :=
    List.findIdx?_eq_none_iff.mpr fun c hc => by
      simp only [beq_eq_false_iff_ne]
      rintro rfl
      exact h hc
  rw [delimInd, List.take_left, List.findIdx?_append, hnone]
  simp [List.findIdx?_cons]

end Strings

/-! ### What is looked up -/

section Lookups

variable {host : Host} {val : Octets valSize} {log : List Lookup}
  {E : ConfigFault → List Lookup → Prop}

theorem wp_ask {Q : Option (List AddrInfo) → List Lookup → Prop} (l : Lookup) :
    wp (host.ask l) Q E log ↔ Q (host.getaddrinfo l) (log ++ [l]) := by
  simp [Host.ask]

/-- The front of a string as the name of an address. -/
theorem wp_addrOnlyGai {Q : List AddrInfo → List Lookup → Prop} (hval : Terminated val) {n : Nat}
    (hn : n ≤ (cString val).length) :
    wp (addrOnlyGai host val.toList n) Q E log ↔
      if 39 < n ∨ host.malloc 0 = false then Q [] log
      else if n = 39 then E .read log
      else Q ((host.getaddrinfo ⟨(cString val).take n, none⟩).getD [])
        (log ++ [⟨(cString val).take n, none⟩]) := by
  obtain ⟨rest, hlist⟩ := toList_of_terminated hval
  have hnul : charNul ∉ (cString val).take n := fun h => cString_nul val (List.mem_of_mem_take h)
  have hlen : ((cString val).take n).length = n := List.length_take_of_le hn
  rw [addrOnlyGai]
  by_cases hlong : 39 < n
  · simp [hlong]
  · rw [if_neg hlong, memcpy_front hlist hn, if_neg hlong, wp_bind, wp_lift_ok]
    cases hmalloc : host.malloc 0 with
    | false => simp
    | true =>
      have hneither : ¬ (39 < n ∨ true = false) := by simpa using hlong
      rw [if_pos rfl, wp_bind, asString_zeroFilled hnul (by omega), hlen, if_neg hneither]
      rcases Nat.lt_or_ge n 39 with hlt | hge
      · rw [if_pos hlt, wp_lift_ok, wp_bind, wp_ask, wp_pure, if_neg (by omega)]
      · rw [if_neg (by omega), wp_lift_error, if_pos (by omega)]

/-- The two parts of a string, at a place `i` within it or at its start. -/
theorem wp_linkAddr {Q : Int × List SockaddrLl → List Lookup → Prop} (hval : Terminated val)
    {i : Nat}
    (head : List SockaddrLl) (hi : delimInd charUnderscore val.toList (cString val).length = i)
    (hle : i ≤ (cString val).length) :
    wp (linkAddr host val.toList (cString val).length head) Q E log ↔
      if 39 < i ∨ 6 < (cString val).length - i then E .write log
      else if i = 39 then E .read log
      else
        let l : Lookup := ⟨(cString val).take i, some ((cString val).drop (i + 1))⟩
        Q (match host.getaddrinfo l with
          | none => (-1, head)
          | some result => linkNodes host 0 result head) (log ++ [l]) := by
  obtain ⟨rest, hlist⟩ := toList_of_terminated hval
  have hnul : charNul ∉ (cString val).take i := fun h => cString_nul val (List.mem_of_mem_take h)
  have hnul' : charNul ∉ (cString val).drop (i + 1) := fun h =>
    cString_nul val (List.mem_of_mem_drop h)
  have hlen : ((cString val).take i).length = i := List.length_take_of_le hle
  have hport : memcpy 6 (val.toList.drop (i + 1)) ((cString val).length - i) =
      if 6 < (cString val).length - i then .error .write
      else .ok (zeroFilled 6 ((cString val).drop (i + 1))) := by
    rcases Nat.lt_or_ge i (cString val).length with hlt | hge
    · have hcount : (cString val).length - i =
        ((cString val).drop (i + 1) ++ [charNul]).length := by
        simp
        omega
      have hdrop : val.toList.drop (i + 1) = ((cString val).drop (i + 1) ++ [charNul]) ++ rest := by
        rw [hlist, List.drop_append_of_le_length (by omega), List.append_assoc]
        rfl
      rw [memcpy_front hdrop hcount.le, hcount, List.take_length, zeroFilled_nul]
    · have hcount : (cString val).length - i = 0 := by omega
      have hnone : (cString val).drop (i + 1) = [] := List.drop_of_length_le (by omega)
      rw [hcount, hnone, memcpy, if_neg (by omega), if_neg (by omega), List.take_zero,
        if_neg (by omega)]
  rw [linkAddr, hi, memcpy_front hlist hle, hport, wp_bind]
  by_cases hlong : 39 < i
  · rw [if_pos hlong, if_pos (Or.inl hlong), wp_lift_error]
  rw [if_neg hlong, wp_lift_ok, wp_bind]
  by_cases hservice : 6 < (cString val).length - i
  · rw [if_pos hservice, if_pos (Or.inr hservice), wp_lift_error]
  have hneither : ¬ (39 < i ∨ 6 < (cString val).length - i) := not_or.mpr ⟨hlong, hservice⟩
  rw [if_neg hservice, wp_lift_ok, wp_bind, asString_zeroFilled hnul (by omega), hlen,
    if_neg hneither]
  rcases Nat.lt_or_ge i 39 with hlt | hge
  · have hshort : ((cString val).drop (i + 1)).length < 6 := by
      simp
      omega
    rw [if_pos hlt, wp_lift_ok, wp_bind, asString_zeroFilled hnul' hshort.le, if_pos hshort,
      wp_lift_ok, wp_bind, wp_ask, if_neg (by omega)]
    cases hresult : host.getaddrinfo ⟨(cString val).take i, some ((cString val).drop (i + 1))⟩ with
    | none => simp only [hresult, wp_pure]
    | some result => simp only [hresult, wp_pure]
  · rw [if_neg (by omega), wp_lift_error, if_pos (by omega)]

end Lookups

/-! ### The keys -/

/-- The keys with an address for a value. -/
inductive AddressKey where
  | bindAdvertise
  | bindListen
  | udpaAdvertise
  | udpaListen
  | listen
  | block
  deriving DecidableEq

namespace AddressKey

def name : AddressKey → List UInt8
  | .bindAdvertise => typed "bind-advertise-address"
  | .bindListen => typed "bind-listen-address"
  | .udpaAdvertise => typed "udp-advertise-address"
  | .udpaListen => typed "udp-listen-address"
  | .listen => typed "listen"
  | .block => typed "block"

/-- What is to be looked up for a value, if it has the delimiter of its key. -/
def lookup? : AddressKey → List UInt8 → Option Lookup
  | .listen, v => (cutAt charUnderscore v).map fun p => ⟨p.1, some p.2⟩
  | .block, v => (cutAt charSlash v).map fun p => ⟨p.1, none⟩
  | _, v => some ⟨v, none⟩

/-- The copies of the value stay within their arrays, and are terminated. -/
def Within : AddressKey → List UInt8 → Prop
  | .listen, v =>
    (∀ p ∈ cutAt charUnderscore v, p.1.length < 39 ∧ p.2.length < 6) ∧
      (cutAt charUnderscore v = none → v.length ≤ 6)
  | .block, v => ∀ p ∈ cutAt charSlash v, p.1.length ≠ 39
  | _, v => v.length ≠ 39

end AddressKey

instance : (key : AddressKey) → DecidablePred key.Within
  | .listen => fun _ => inferInstanceAs (Decidable (_ ∧ _))
  | .block => fun _ => inferInstanceAs (Decidable (∀ _ ∈ _, _))
  | .bindAdvertise => fun _ => inferInstanceAs (Decidable (_ ≠ _))
  | .bindListen => fun _ => inferInstanceAs (Decidable (_ ≠ _))
  | .udpaAdvertise => fun _ => inferInstanceAs (Decidable (_ ≠ _))
  | .udpaListen => fun _ => inferInstanceAs (Decidable (_ ≠ _))

/-- The strings fit into the arrays `addr` and `port`, with their terminators. -/
def Lookup.Fits (l : Lookup) : Prop := l.node.length < 39 ∧ ∀ s ∈ l.service, s.length < 6

/-- An empty name has no address. -/
def Host.RefusesEmpty (host : Host) : Prop := ∀ service, host.getaddrinfo ⟨[], service⟩ = none

section Keys

variable {host : Host} {setting : Setting} {configs : FileConfigs} {key : AddressKey}

/-- The keys in front of the address keys, and the address keys. -/
theorem name_ne (key : AddressKey) : ∀ s ∈ ["access-log", "error-log", "max-connections",
    "allow-domains", "allow-connect", "allow-bind", "allow-udp-associate", "method"],
    key.name ≠ typed s := by
  cases key <;> decide +kernel

theorem name_inj : ∀ key key' : AddressKey, key.name = key'.name → key = key' := by
  intro key key'
  cases key <;> cases key' <;> decide +kernel

/-- The branch of the key. -/
def AddressKey.store (key : AddressKey) (host : Host) (val : Octets valSize)
    (configs : FileConfigs) : Storing (Int × FileConfigs) :=
  match key with
  | .bindAdvertise => do
    let r ← storeAddress host val configs.bindAdvertise
    return (failure r.1, { configs with bindAdvertise := r.2 })
  | .bindListen => do
    let r ← storeAddress host val configs.bindListen
    return (failure r.1, { configs with bindListen := r.2 })
  | .udpaAdvertise => do
    let r ← storeAddress host val configs.udpaAdvertise
    return (failure r.1, { configs with udpaAdvertise := r.2 })
  | .udpaListen => do
    let r ← storeAddress host val configs.udpaListen
    return (failure r.1, { configs with udpaListen := r.2 })
  | .listen => do
    let r ← storeListen host val configs.listenHead
    return (failure r.1, { configs with listenHead := r.2 })
  | .block => do
    let r ← storeBlock host val configs.blockHead
    return (failure r.1, { configs with blockHead := r.2 })

/-- Names differ, so that the chain of comparisons ends in the key's own branch. -/
theorem storeConfig_eq (hkey : cString setting.key = key.name) :
    storeConfig host setting configs = key.store host setting.val configs := by
  have hne := name_ne key
  simp only [List.forall_mem_cons] at hne
  obtain ⟨h1, h2, h3, h4, h5, h6, h7, h8, -⟩ := hne
  have hother : ∀ key' ≠ key, key.name ≠ key'.name := fun key' h heq => h (name_inj _ _ heq).symm
  simp only [storeConfig, hkey, if_neg h1, if_neg h2, if_neg h3, if_neg h4, if_neg h5, if_neg h6,
    if_neg h7, if_neg h8]
  cases key with
  | bindAdvertise => exact if_pos rfl
  | bindListen => exact (if_neg (hother .bindAdvertise (by decide))).trans (if_pos rfl)
  | udpaAdvertise =>
    exact (if_neg (hother .bindAdvertise (by decide))).trans
      ((if_neg (hother .bindListen (by decide))).trans (if_pos rfl))
  | udpaListen =>
    exact (if_neg (hother .bindAdvertise (by decide))).trans
      ((if_neg (hother .bindListen (by decide))).trans
        ((if_neg (hother .udpaAdvertise (by decide))).trans (if_pos rfl)))
  | listen =>
    exact (if_neg (hother .bindAdvertise (by decide))).trans
      ((if_neg (hother .bindListen (by decide))).trans
        ((if_neg (hother .udpaAdvertise (by decide))).trans
          ((if_neg (hother .udpaListen (by decide))).trans (if_pos rfl))))
  | block =>
    exact (if_neg (hother .bindAdvertise (by decide))).trans
      ((if_neg (hother .bindListen (by decide))).trans
        ((if_neg (hother .udpaAdvertise (by decide))).trans
          ((if_neg (hother .udpaListen (by decide))).trans
            ((if_neg (hother .listen (by decide))).trans (if_pos rfl)))))

end Keys

/-! ### What reaches getaddrinfo -/

/-- What is looked up is what the value of the key is meant to have looked up. -/
def AddressKey.Looked (key : AddressKey) (v : List UInt8) (lookups : List Lookup) : Prop :=
  ∃ l, key.lookup? v = some l ∧ l.Fits ∧ lookups = [l]

/-- On any host, and within the arrays, the strings looked up are those the value is meant to have,
or memory runs out before; and a value that has none that fit is an error that changes nothing. What
a rule makes of its mask comes after. -/
def Extracts (key : AddressKey) (setting : Setting) : Prop :=
  ∀ host : Host, host.RefusesEmpty → ∀ configs,
    wp (storeConfig host setting configs)
      (fun r lookups => key.Looked (cString setting.val) lookups ∨
        host.malloc 0 = false ∧ lookups = [] ∧ r = (-1, configs) ∨
        (∀ l, key.lookup? (cString setting.val) = some l → ¬ l.Fits) ∧ r = (-1, configs))
      (fun f lookups => f = .shift ∧ key.Looked (cString setting.val) lookups) []

section Extraction

variable {setting : Setting} {key : AddressKey} {val : Octets valSize} {host : Host}
  {log : List Lookup} {E : ConfigFault → List Lookup → Prop}

/-- A host on which no name has an address. -/
def Host.nameless : Host := ⟨fun _ => none, fun _ => true, fun _ _ => 0⟩

theorem wp_storeAddress {Q : Int × List SockaddrLl → List Lookup → Prop} (hval : Terminated val)
    (head : List SockaddrLl) :
    wp (storeAddress host val head) Q E log ↔
      if 39 < (cString val).length ∨ host.malloc 0 = false then Q (-1, head) log
      else if (cString val).length = 39 then E .read log
      else Q (linkAddrsFromGai host ((host.getaddrinfo ⟨cString val, none⟩).getD []) head)
        (log ++ [⟨cString val, none⟩]) := by
  rw [storeAddress, wp_bind, strlen_eq hval, wp_lift_ok, wp_bind, wp_addrOnlyGai hval le_rfl,
    List.take_length]
  simp only [wp_pure]
  rfl

theorem wp_storeBlock {Q : Int × List BlockaddrLl → List Lookup → Prop} (hval : Terminated val)
    {i : Nat}
    (head : List BlockaddrLl) (hi : delimInd charSlash val.toList (cString val).length = i)
    (hle : i ≤ (cString val).length) :
    wp (storeBlock host val head) Q E log ↔
      if 39 < i ∨ host.malloc 0 = false then Q (-1, head) log
      else if i = 39 then E .read log
      else match (host.getaddrinfo ⟨(cString val).take i, none⟩).getD [] with
        | [] => Q (-1, head) (log ++ [⟨(cString val).take i, none⟩])
        | ai :: _ =>
          wp (liftM (linkBlocks (host.malloc 1) (some ai)
            (atoi (val.toList.drop (i + 1))) head)) Q E
            (log ++ [⟨(cString val).take i, none⟩]) := by
  rw [storeBlock, wp_bind, strlen_eq hval, wp_lift_ok, wp_bind, hi, wp_addrOnlyGai hval hle]
  split
  · simp
  · split
    · rfl
    · cases (host.getaddrinfo ⟨(cString val).take i, none⟩).getD [] with
      | nil => simp
      | cons ai rest => simp

/-- What follows the lookup of a rule's address. -/
theorem wp_linkBlocks {Q : Int × List BlockaddrLl → List Lookup → Prop} {malloc : Bool}
    {ai : AddrInfo} {mask : Int} {head : List BlockaddrLl} (hQ : ∀ r, Q r log) (hE : E .shift log) :
    wp (liftM (linkBlocks malloc (some ai) mask head)) Q E log := by
  cases hlink : linkBlocks malloc (some ai) mask head with
  | ok r => exact (wp_lift_ok r).mpr (hQ r)
  | error f =>
    obtain rfl := linkBlocks_error hlink
    exact (wp_lift_error _).mpr hE

/-- The keys without a delimiter differ in where they store. -/
theorem AddressKey.store_plain (host : Host) (val : Octets valSize) (hlisten : key ≠ .listen)
    (hblock : key ≠ .block) (configs : FileConfigs) :
    ∃ (head : List SockaddrLl) (put : List SockaddrLl → FileConfigs), put head = configs ∧
      key.store host val configs = (do
        let r ← storeAddress host val head
        return (failure r.1, put r.2)) := by
  cases key with
  | bindAdvertise => exact ⟨_, fun head => { configs with bindAdvertise := head }, rfl, rfl⟩
  | bindListen => exact ⟨_, fun head => { configs with bindListen := head }, rfl, rfl⟩
  | udpaAdvertise => exact ⟨_, fun head => { configs with udpaAdvertise := head }, rfl, rfl⟩
  | udpaListen => exact ⟨_, fun head => { configs with udpaListen := head }, rfl, rfl⟩
  | listen => exact absurd rfl hlisten
  | block => exact absurd rfl hblock

theorem extracts_plain_iff (hlisten : key ≠ .listen) (hblock : key ≠ .block)
    (hkey : cString setting.key = key.name) (hval : Terminated setting.val) :
    Extracts key setting ↔ (cString setting.val).length ≠ 39 := by
  have hlookup : key.lookup? (cString setting.val) = some ⟨cString setting.val, none⟩ := by
    cases key <;> first | rfl | contradiction
  have hfits : (⟨cString setting.val, none⟩ : Lookup).Fits ↔ (cString setting.val).length < 39 := by
    simp [Lookup.Fits]
  constructor
  · intro h hfull
    have hrun := h .nameless (fun _ => rfl) .cleared
    obtain ⟨head, put, -, hstore⟩ := key.store_plain .nameless setting.val hlisten hblock .cleared
    have hmemory : ¬ (39 < (cString setting.val).length ∨ Host.nameless.malloc 0 = false) := by
      simp [hfull, Host.nameless]
    rw [storeConfig_eq hkey, hstore, wp_bind, wp_storeAddress hval, if_neg hmemory,
      if_pos hfull] at hrun
    cases hrun.1
  · intro hfull host _ configs
    obtain ⟨head, put, hput, hstore⟩ := key.store_plain host setting.val hlisten hblock configs
    rw [storeConfig_eq hkey, hstore, wp_bind, wp_storeAddress hval, if_neg hfull]
    simp only [wp_pure]
    split
    · rename_i hnone
      have hr : (failure (-1), put head) = (-1, configs) := by rw [hput]; rfl
      rw [hr]
      rcases Nat.lt_or_ge (cString setting.val).length 39 with hlt | hge
      · exact .inr (.inl ⟨hnone.resolve_left (by omega), trivial, rfl⟩)
      · refine .inr (.inr ⟨fun l hl hl' => ?_, rfl⟩)
        obtain rfl : _ = l := Option.some.inj (hlookup.symm.trans hl)
        have := hfits.mp hl'
        omega
    · rename_i hsome
      exact .inl ⟨_, hlookup, hfits.mpr (by omega), rfl⟩

/-- Where the value is cut, in the code and in the text. -/
theorem exists_cut (hval : Terminated val) (delim : UInt8) :
    ∃ i, delimInd delim val.toList (cString val).length = i ∧ i ≤ (cString val).length ∧
      (cutAt delim (cString val) = none ∧ i = 0 ∨
        cutAt delim (cString val) = some ((cString val).take i, (cString val).drop (i + 1)) ∧
          i < (cString val).length) := by
  obtain ⟨rest, hlist⟩ := toList_of_terminated hval
  rw [hlist]
  cases hsplit : cutAt delim (cString val) with
  | none => exact ⟨0, delimInd_none (cutAt_none hsplit), Nat.zero_le _, .inl ⟨rfl, rfl⟩⟩
  | some p =>
    obtain ⟨hv, hfront⟩ := cutAt_some hsplit
    have hlen := congrArg List.length hv
    simp only [List.length_append, List.length_cons] at hlen
    refine ⟨p.1.length, ?_, by omega, .inr ⟨?_, by omega⟩⟩
    · rw [hv]
      exact delimInd_some hfront
    · rw [hv]
      simp

theorem extracts_listen_iff (hkey : cString setting.key = AddressKey.listen.name)
    (hval : Terminated setting.val) :
    Extracts .listen setting ↔ AddressKey.Within .listen (cString setting.val) := by
  obtain ⟨i, hi, hle, hcut⟩ := exists_cut hval charUnderscore
  have hwithin : AddressKey.Within .listen (cString setting.val) ↔
      i < 39 ∧ (cString setting.val).length - i ≤ 6 := by
    rcases hcut with ⟨hnone, rfl⟩ | ⟨hsome, hlt⟩
    · simp [AddressKey.Within, hnone]
    · simp only [AddressKey.Within, hsome, Option.mem_some_iff, forall_eq', reduceCtorEq,
        false_implies, and_true, List.length_take, List.length_drop]
      omega
  rw [hwithin]
  constructor
  · intro h
    have hrun := h .nameless (fun _ => rfl) .cleared
    rw [storeConfig_eq hkey, AddressKey.store, wp_bind, storeListen, wp_bind, strlen_eq hval,
      wp_lift_ok, wp_linkAddr hval _ hi hle] at hrun
    split at hrun
    · cases hrun.1
    · split at hrun
      · cases hrun.1
      · omega
  · rintro ⟨hlt, hservice⟩ host hempty configs
    rw [storeConfig_eq hkey, AddressKey.store, wp_bind, storeListen, wp_bind, strlen_eq hval,
      wp_lift_ok, wp_linkAddr hval _ hi hle, if_neg (by omega), if_neg (by omega)]
    simp only [wp_pure]
    rcases hcut with ⟨hnone, rfl⟩ | ⟨hsome, hinside⟩
    · refine .inr (.inr ⟨fun l hl => ?_, ?_⟩)
      · simp [AddressKey.lookup?, hnone] at hl
      · rw [List.take_zero, hempty]
        rfl
    · refine .inl ⟨_, ?_, ⟨?_, ?_⟩, rfl⟩
      · simp [AddressKey.lookup?, hsome]
      · simp
        omega
      · simp
        omega

theorem extracts_block_iff (hkey : cString setting.key = AddressKey.block.name)
    (hval : Terminated setting.val) :
    Extracts .block setting ↔ AddressKey.Within .block (cString setting.val) := by
  obtain ⟨i, hi, hle, hcut⟩ := exists_cut hval charSlash
  have hwithin : AddressKey.Within .block (cString setting.val) ↔ i ≠ 39 := by
    rcases hcut with ⟨hnone, rfl⟩ | ⟨hsome, hlt⟩
    · simp [AddressKey.Within, hnone]
    · simp only [AddressKey.Within, hsome, Option.mem_some_iff, forall_eq', List.length_take]
      omega
  rw [hwithin]
  constructor
  · intro h hfull
    have hrun := h .nameless (fun _ => rfl) .cleared
    have hmemory : ¬ (39 < i ∨ Host.nameless.malloc 0 = false) := by simp [hfull, Host.nameless]
    rw [storeConfig_eq hkey, AddressKey.store, wp_bind, wp_storeBlock hval _ hi hle, if_neg hmemory,
      if_pos hfull] at hrun
    cases hrun.1
  · intro hfull host hempty configs
    rw [storeConfig_eq hkey, AddressKey.store, wp_bind, wp_storeBlock hval _ hi hle, if_neg hfull]
    simp only [wp_pure]
    split
    · rename_i hmemory
      rcases hcut with ⟨hnone, rfl⟩ | ⟨hsome, hinside⟩
      · refine .inr (.inr ⟨fun l hl => ?_, rfl⟩)
        simp [AddressKey.lookup?, hnone] at hl
      · have hlookup : AddressKey.lookup? .block (cString setting.val) =
            some ⟨(cString setting.val).take i, none⟩ := by simp [AddressKey.lookup?, hsome]
        rcases Nat.lt_or_ge i 39 with hlt | hge
        · exact .inr (.inl ⟨hmemory.resolve_left (by omega), trivial, rfl⟩)
        · refine .inr (.inr ⟨fun l hl hfits => ?_, rfl⟩)
          obtain rfl : _ = l := Option.some.inj (hlookup.symm.trans hl)
          have hlen : ((cString setting.val).take i).length < 39 := hfits.1
          rw [List.length_take] at hlen
          omega
    · rename_i hmemory
      rcases hcut with ⟨hnone, rfl⟩ | ⟨hsome, hinside⟩
      · rw [List.take_zero, hempty]
        refine .inr (.inr ⟨fun l hl => ?_, rfl⟩)
        simp [AddressKey.lookup?, hnone] at hl
      · have hlooked : AddressKey.Looked .block (cString setting.val)
            ([] ++ [⟨(cString setting.val).take i, none⟩]) := by
          refine ⟨_, ?_, ⟨?_, ?_⟩, rfl⟩
          · simp [AddressKey.lookup?, hsome]
          · simp
            omega
          · simp
        split
        · exact .inl hlooked
        · exact wp_linkBlocks (fun r => (wp_pure _).mpr (.inl hlooked)) ⟨rfl, hlooked⟩

/-- **Addresses are cut out within the arrays unless they just fill one.** Take any value of at most
254 characters of a key for addresses. Whatever the host, nothing is read or written outside the
arrays, the strings handed to `getaddrinfo` are the value, or the parts of it before and behind its
first delimiter, and a value that has no delimiter or does not fit is an error that changes nothing,
if and only if an address without a port is not 39 characters long, and for `listen` the part
before the delimiter is shorter than that and the part behind it shorter than 6, or the whole value
no longer than 6 if it has no delimiter. -/
theorem extracts_iff (hkey : cString setting.key = key.name) (hval : Terminated setting.val) :
    Extracts key setting ↔ key.Within (cString setting.val) := by
  cases key with
  | listen => exact extracts_listen_iff hkey hval
  | block => exact extracts_block_iff hkey hval
  | bindAdvertise => exact extracts_plain_iff (by decide) (by decide) hkey hval
  | bindListen => exact extracts_plain_iff (by decide) (by decide) hkey hval
  | udpaAdvertise => exact extracts_plain_iff (by decide) (by decide) hkey hval
  | udpaListen => exact extracts_plain_iff (by decide) (by decide) hkey hval

end Extraction

/-- The arguments of a call of `store_config`, with what the scanners store for two words. -/
def settingOf (key val : String) : Setting :=
  ⟨zeroFilled keySize (typed key), zeroFilled valSize (typed val)⟩

theorem extracts_typed : Extracts .listen (settingOf "listen" "::_1080") :=
  (extracts_iff (by decide +kernel) (by decide +kernel)).mpr (by decide +kernel)

/-- An address that is written in full. -/
def fullAddress : String := "2001:0db8:0000:0000:0000:0000:0000:0001"

theorem not_extracts : ¬ ∀ (key : AddressKey) (setting : Setting),
    cString setting.key = key.name → Terminated setting.val → Extracts key setting := by
  intro h
  have hrun := h .bindListen (settingOf "bind-listen-address" fullAddress) (by decide +kernel)
    (by decide +kernel) .nameless (fun _ => rfl) .cleared
  have hfault : (storeConfig .nameless (settingOf "bind-listen-address" fullAddress) .cleared
    []).fault? =
      some .read := by
    decide +kernel
  rw [wp_eq_fault (Outcome.eq_fault hfault)] at hrun
  cases hrun.1

end Socksprox
