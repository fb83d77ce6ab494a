import Socksprox.Firewall
import Socksprox.Lib.Bits
import Mathlib.Data.List.FinRange

/-!
The rules of the firewall as `link_blocks` (`src/config.c`) builds them from networks in CIDR
notation, with the masks of `firewall_iton` (`src/firewall.c`).

A `Network` is what a rule is meant to block: the addresses of its family that agree with its own on
the leading bits. A shift by as many bits as its operand has is undefined, and stops the model with
a `ConfigFault`.
-/

namespace Socksprox

/-! ### Masks -/

/-- What ends the reading of the configuration outside the arrays and the operators of C. -/
inductive ConfigFault where
  | read
  | write
  | shift
  deriving DecidableEq

/-- `x << n` of a 32 bit operand. -/
def shiftLeft32 (x : UInt32) (n : Nat) : Except ConfigFault UInt32 :=
  if n < 32 then .ok (x <<< UInt32.ofNat n) else .error .shift

/-- `x << n` of an octet, which is promoted to an `int` first and cut off at the end. -/
def shiftLeftOctet (x : UInt8) (n : Nat) : Except ConfigFault UInt8 :=
  if n < 32 then .ok (UInt8.ofNat (x.toNat <<< n)) else .error .shift

/-- Store into the IPv4 view of the union, least significant octet first. -/
def Netmask.setInet (dst : Netmask) (x : UInt32) : Netmask :=
  { inet := x
    inet6 := fun i => if i.val < 4 then UInt8.ofNat (x.toNat / 2 ^ (8 * i.val)) else dst.inet6 i }

/-- Store into the IPv6 view of the union. -/
def Netmask.setInet6 (x : Octets 16) : Netmask :=
  { inet := UInt32.ofNat ((List.finRange 4).map fun i =>
      (x (i.castLE (by decide))).toNat * 2 ^ (8 * i.val)).sum
    inet6 := x }

/-- A union cleared by `memset`. -/
def Netmask.cleared : Netmask := { inet := 0, inet6 := fun _ => 0 }

/-- The loop of `firewall_iton` over the octets of an IPv6 mask. -/
def octetMask : List (Fin 16) → Nat → Octets 16 → Except ConfigFault (Octets 16)
  | [], _, netmask => .ok netmask
  | i :: is, bitsLeft, netmask =>
    let netmask := Function.update netmask i 0xFF
    if 8 < bitsLeft then octetMask is (bitsLeft - 8) netmask
    else (shiftLeftOctet (netmask i) (8 - bitsLeft)).map (Function.update netmask i)

/-- `firewall_iton`: what it returns, and the mask it leaves. -/
def firewallIton (dst : Netmask) (af : Nat) (mask : Int) : Except ConfigFault (Int × Netmask) :=
  if mask < 0 then .ok (-1, dst)
  else if af = afInet then
    if 32 < mask then .ok (-1, dst)
    else (shiftLeft32 0xFFFFFFFF (32 - mask).toNat).map fun netmask => (0, dst.setInet netmask)
  else if af = afInet6 then
    if 128 < mask then .ok (-1, dst)
    else (octetMask (List.finRange 16) mask.toNat fun _ => 0).map fun netmask =>
      (0, Netmask.setInet6 netmask)
  else .ok (-1, dst)

/-! ### Rules -/

/-- An address after `mask_sin` or `mask_sin6`, in place. -/
def SockAddr.masked (netmask : Netmask) : SockAddr → SockAddr
  | .inet port addr => .inet port (maskSin addr netmask.inet)
  | .inet6 port addr => .inet6 port (maskSin6 addr netmask.inet6)
  | .other f data ne => .other f data ne

/-- `link_blocks`: what it returns, and the rules it leaves. `malloc` says whether both allocations
succeed. -/
def linkBlocks (malloc : Bool) (ai : Option AddrInfo) (mask : Int) (head : List BlockaddrLl) :
    Except ConfigFault (Int × List BlockaddrLl) :=
  match ai with
  | none => .ok (-1, head)
  | some ai =>
    if malloc then
      -- the result of the call is not looked at
      (firewallIton .cleared ai.aiFamily mask).map fun r => (0, ⟨r.2, ai.aiAddr.masked r.2⟩ :: head)
    else .ok (-1, head)

/-- A network in CIDR notation. -/
inductive Network where
  | inet (port : Octets 2) (addr : Octets 4) (len : Nat) (hlen : len ≤ 32)
  | inet6 (port : Octets 2) (addr : Octets 16) (len : Nat) (hlen : len ≤ 128)

namespace Network

def ai : Network → AddrInfo
  | .inet port addr _ _ => ⟨.inet port addr⟩
  | .inet6 port addr _ _ => ⟨.inet6 port addr⟩

def len : Network → Nat
  | .inet _ _ len _ => len
  | .inet6 _ _ len _ => len

/-- The address is of the network's family and agrees with it on its leading bits. -/
def Contains : Network → SockAddr → Prop
  | .inet _ net len _, .inet _ addr => Lib.SameLeading len addr net
  | .inet6 _ net len _, .inet6 _ addr => Lib.SameLeading len addr net
  | _, _ => False

/-- All IPv4 addresses. -/
def IsInetAny (n : Network) : Prop := n.ai.aiFamily = afInet ∧ n.len = 0

end Network

/-- The rules that `link_blocks` leaves when it is called for each network in turn. -/
def linkNetworks : List Network → List BlockaddrLl → Except ConfigFault (List BlockaddrLl)
  | [], head => .ok head
  | n :: ns, head => do
    let r ← linkBlocks true (some n.ai) n.len head
    linkNetworks ns r.2

/-! ### Requests -/

/-- The addresses a request is for: the literal one, or those its name resolved to. -/
def Info.requested (info : Info) : List SockAddr :=
  match info.sa with
  | some a => [a]
  | none => info.ai.map AddrInfo.aiAddr

/-- The request has a literal IP address, or its name has resolved. -/
def Info.Addressed (info : Info) : Prop :=
  match info.sa with
  | some a => a.family = afInet ∨ a.family = afInet6
  | none => info.ai ≠ []

/-- All octets of the address are zero. -/
def SockAddr.AllZero : SockAddr → Prop
  | .inet _ addr => ∀ i, addr i = 0
  | .inet6 _ addr => ∀ i, addr i = 0
  | .other .. => False

/-- A UDP ASSOCIATE with an all-zero literal address. -/
def Info.UdpaUnspec (info : Info) : Prop := info.cmd = cmdUdpa ∧ ∃ a ∈ info.sa, a.AllZero

theorem udpaUnspec_iff {info : Info} : udpaUnspec info = true ↔ info.UdpaUnspec := by
  unfold udpaUnspec Info.UdpaUnspec
  by_cases hcmd : info.cmd = cmdUdpa
  · cases hsa : info.sa with
    | none => simp [hcmd]
    | some a => cases a <;> simp [hcmd, SockAddr.AllZero, funext_iff]
  · simp [hcmd]

/-- The verdict over any list of rules. -/
theorem firewall_iff {info : Info} {cfg : Configs} (h : info.Addressed) :
    firewall info cfg = true ↔ ¬ info.UdpaUnspec ∧ ∃ a ∈ info.requested, Blocked cfg a := by
  rw [← udpaUnspec_iff, firewall]
  by_cases hunspec : udpaUnspec info = true
  · simp [hunspec]
  · rw [if_neg hunspec]
    unfold Info.Addressed at h
    unfold Info.requested
    cases hsa : info.sa with
    | none =>
      rw [hsa] at h
      have hai : info.ai ≠ [] := h
      simp only [if_pos hai, checkAi_iff, List.mem_map]
      simp [hunspec]
    | some a =>
      rw [hsa] at h
      cases a with
      | inet port addr => simp [@checkSin_iff port, hunspec, Blocked]
      | inet6 port addr => simp [@checkSin6_iff port, hunspec, Blocked]
      | other f data ne => exact absurd h (by simpa [SockAddr.family] using not_or.mpr ne)

/-! ### What may go wrong -/

section Shifts

variable {f : ConfigFault}

theorem Except.of_map_error {ε α β : Type} {x : Except ε α} {g : α → β} {e : ε}
    (h : x.map g = .error e) : x = .error e := by
  cases x with
  | error e' =>
    cases h
    rfl
  | ok a => cases h

theorem shiftLeftOctet_error {x : UInt8} {n : Nat} (h : shiftLeftOctet x n = .error f) :
    f = .shift := by
  rw [shiftLeftOctet] at h
  split at h
  · cases h
  · cases h
    rfl

theorem octetMask_error {is : List (Fin 16)} {bitsLeft : Nat} {netmask : Octets 16}
    (h : octetMask is bitsLeft netmask = .error f) : f = .shift := by
  induction is generalizing bitsLeft netmask with
  | nil => cases h
  | cons i is ih =>
    rw [octetMask] at h
    split at h
    · exact ih h
    · exact shiftLeftOctet_error (Except.of_map_error h)

/-- A mask goes wrong in a shift only. -/
theorem firewallIton_error {dst : Netmask} {af : Nat} {mask : Int}
    (h : firewallIton dst af mask = .error f) : f = .shift := by
  unfold firewallIton at h
  split at h
  · cases h
  · split at h
    · split at h
      · cases h
      · rw [shiftLeft32] at h
        split at h
        · cases h
        · cases h
          rfl
    · split at h
      · split at h
        · cases h
        · exact octetMask_error (Except.of_map_error h)
      · cases h

theorem linkBlocks_error {malloc : Bool} {ai : Option AddrInfo} {mask : Int}
    {head : List BlockaddrLl}
    (h : linkBlocks malloc ai mask head = .error f) : f = .shift := by
  unfold linkBlocks at h
  split at h
  · cases h
  · rename_i ai
    split at h
    · exact firewallIton_error (Except.of_map_error h)
    · cases h

end Shifts

/-! ### The bits of a mask -/

section Masks

variable {len : Nat}

/-- The octets that start with `len` ones. -/
def leading (len : Nat) : Octets 16 := fun i => UInt8.ofNat (0xFF <<< (8 - (len - 8 * i.val)))

theorem bit_leading {k : Nat} (hk : k < 128) : Lib.bit (leading len) k = decide (k < len) := by
  have hdiv : k / 8 < 16 := by omega
  rw [Lib.bit, dif_pos hdiv, leading, UInt8.toNat_ofNat']
  simp only [Nat.testBit_mod_two_pow, Nat.testBit_shiftLeft]
  rw [show (0xFF : Nat) = 2 ^ 8 - 1 from rfl, Nat.testBit_two_pow_sub_one, Bool.eq_iff_iff]
  simp only [Bool.and_eq_true, decide_eq_true_eq]
  omega

/-- With octets of ones so far, the loop leaves the mask that is meant. -/
theorem octetMask_drop {j bitsLeft : Nat} {netmask : Octets 16} (hj : j < 16)
    (hlen : bitsLeft ≤ 8 * (16 - j)) (hsofar : netmask = leading (8 * j)) :
    octetMask ((List.finRange 16).drop j) bitsLeft netmask = .ok (leading (8 * j + bitsLeft)) := by
  induction hn : 16 - j generalizing j bitsLeft netmask with
  | zero => omega
  | succ n ih =>
    subst hsofar
    have hset : ∀ x, x ≤ 8 → Function.update (leading (8 * j)) ⟨j, hj⟩
        (UInt8.ofNat (0xFF <<< (8 - x))) = leading (8 * j + x) := by
      intro x hx
      funext i
      rcases Nat.lt_trichotomy i.val j with hlt | heq | hgt
      · have hne : i ≠ ⟨j, hj⟩ := fun h => by simp [h] at hlt
        rw [Function.update_of_ne hne, leading, leading, Nat.sub_eq_zero_of_le (by omega),
          Nat.sub_eq_zero_of_le (by omega)]
      · obtain rfl : i = ⟨j, hj⟩ := Fin.ext heq
        rw [Function.update_self, leading, Nat.add_sub_cancel_left]
      · have hne : i ≠ ⟨j, hj⟩ := fun h => by simp [h] at hgt
        rw [Function.update_of_ne hne, leading, leading,
          Nat.sub_eq_zero_of_le (m := 8 * i.val) (by omega),
          Nat.sub_eq_zero_of_le (m := 8 * i.val) (by omega)]
    have hdrop : (List.finRange 16).drop j = ⟨j, hj⟩ :: (List.finRange 16).drop (j + 1) := by
      rw [List.drop_eq_getElem_cons (by simpa using hj)]
      simp
    have hones : Function.update (leading (8 * j)) ⟨j, hj⟩ 0xFF = leading (8 * (j + 1)) :=
      hset 8 le_rfl
    rw [hdrop, octetMask]
    split
    · rename_i hmore
      rw [hones, ih (by omega) (by omega) rfl (by omega)]
      congr 2
      omega
    · rename_i hlast
      rw [Function.update_self, shiftLeftOctet, if_pos (by omega), Except.map, Function.update_idem,
        show (0xFF : UInt8).toNat = 0xFF from rfl, hset bitsLeft (by omega)]

theorem firewallIton_inet6 {dst : Netmask} (hlen : len ≤ 128) :
    firewallIton dst afInet6 len = .ok (0, Netmask.setInet6 (leading len)) := by
  have hmask : octetMask (List.finRange 16) len (fun _ => 0) = .ok (leading len) := by
    have hloop := @octetMask_drop 0 len (fun _ => 0) (by decide)
      (by simpa using hlen) (by
        funext i
        rw [leading, Nat.mul_zero, Nat.zero_sub]
        rfl)
    simpa using hloop
  rw [firewallIton, if_neg (by omega), if_neg (by decide), if_pos rfl, if_neg (by omega),
    Int.toNat_natCast, hmask]
  rfl

/-- The shift for an IPv4 mask is one the operand has room for, unless all bits are to go. -/
theorem firewallIton_inet {dst : Netmask} (hlen : len ≤ 32) (hpos : len ≠ 0) :
    firewallIton dst afInet len =
      .ok (0, dst.setInet ((0xFFFFFFFF : UInt32) <<< UInt32.ofNat (32 - len))) := by
  have hshift : ((32 : Int) - len).toNat = 32 - len := by omega
  rw [firewallIton, if_neg (by omega), if_pos rfl, if_neg (by omega), hshift, shiftLeft32,
    if_pos (by omega)]
  rfl

/-- Masked addresses are the same when the addresses agree on the first `len` bits, and masking
again changes nothing. -/
def MasksPrefix (len : Nat) (netmask : Netmask) : Prop :=
  (∀ a b : Octets 16, maskSin6 a netmask.inet6 = maskSin6 b netmask.inet6 ↔
    Lib.SameLeading len a b) ∧
    ∀ a : Octets 16, maskSin6 (maskSin6 a netmask.inet6) netmask.inet6 = maskSin6 a netmask.inet6

theorem maskSin6_idem (a m : Octets 16) : maskSin6 (maskSin6 a m) m = maskSin6 a m := by
  funext i
  show a i &&& m i &&& m i = a i &&& m i
  rw [UInt8.and_assoc, UInt8.and_self]

/-- **IPv6 masks keep the prefix.** For every length up to 128, and whatever was in the union
before, the mask that `firewall_iton` makes tells two addresses apart exactly when they differ on
their first `len` bits, and masking a masked address changes nothing. -/
theorem firewallIton_masksPrefix (dst : Netmask) (hlen : len ≤ 128) :
    ∃ netmask, firewallIton dst afInet6 len = .ok (0, netmask) ∧ MasksPrefix len netmask := by
  refine ⟨Netmask.setInet6 (leading len), firewallIton_inet6 hlen, ?_, ?_⟩
  · intro a b
    exact Lib.and_eq_and_iff hlen fun k hk => bit_leading hk
  · intro a
    exact maskSin6_idem a _

/-- A length between two octets. -/
theorem firewallIton_masksPrefix_nine :
    ∃ netmask, firewallIton .cleared afInet6 (9 : Nat) = .ok (0, netmask) ∧ MasksPrefix 9 netmask :=
  firewallIton_masksPrefix .cleared (by decide)

/-- The bits of an address in host order. -/
theorem bit_htonl {x : UInt32} {k : Nat} (hk : k < 32) :
    Lib.bit (htonl x) k = x.toNat.testBit (31 - k) := by
  have hdiv : k / 8 < 4 := by omega
  rw [Lib.bit, dif_pos hdiv, htonl, UInt8.toNat_ofNat', Nat.testBit_mod_two_pow,
    Nat.testBit_div_two_pow]
  rw [decide_eq_true (by omega), Bool.true_and]
  congr 1
  simp only
  omega

theorem bit_htonl_mask {k : Nat} (hlen : len ≤ 32) (hpos : len ≠ 0) (hk : k < 32) :
    Lib.bit (htonl ((0xFFFFFFFF : UInt32) <<< UInt32.ofNat (32 - len))) k = decide (k < len) := by
  have hshift : (UInt32.ofNat (32 - len)).toNat % 32 = 32 - len := by
    rw [UInt32.toNat_ofNat']
    omega
  rw [bit_htonl hk, UInt32.toNat_shiftLeft, hshift, Nat.testBit_mod_two_pow, Nat.testBit_shiftLeft,
    show (0xFFFFFFFF : UInt32).toNat = 2 ^ 32 - 1 from rfl, Nat.testBit_two_pow_sub_one,
    Bool.eq_iff_iff]
  simp only [Bool.and_eq_true, decide_eq_true_eq]
  omega

/-- Masking in host order masks the octets. -/
theorem maskSin_eq (addr : Octets 4) (m : UInt32) :
    maskSin addr m = fun i => addr i &&& htonl m i := by
  refine Lib.eq_of_bit fun k hk => ?_
  rw [maskSin, bit_htonl hk, Lib.bit_and, bit_htonl hk, UInt32.toNat_and, Nat.testBit_and,
    ← bit_htonl hk, htonl_ntohl]

end Masks

/-! ### What the rules block -/

section Verdict

variable {networks : List Network} {n : Network} {head rules : List BlockaddrLl} {a : SockAddr}

/-- The mask that `firewall_iton` is to make for the network. -/
def Network.netmask : Network → Netmask
  | .inet _ _ len _ => Netmask.cleared.setInet ((0xFFFFFFFF : UInt32) <<< UInt32.ofNat (32 - len))
  | .inet6 _ _ len _ => Netmask.setInet6 (leading len)

/-- The rule for the network. -/
def Network.rule (n : Network) : BlockaddrLl := ⟨n.netmask, n.ai.aiAddr.masked n.netmask⟩

theorem linkBlocks_network (hany : ¬ n.IsInetAny) (head : List BlockaddrLl) :
    linkBlocks true (some n.ai) n.len head = .ok (0, n.rule :: head) := by
  cases n with
  | inet port addr len hlen =>
    have hpos : len ≠ 0 := fun h => hany ⟨rfl, h⟩
    have hiton : firewallIton .cleared (Network.inet port addr len hlen).ai.aiFamily len = _ :=
      firewallIton_inet hlen hpos
    rw [linkBlocks, if_pos rfl, Network.len, hiton]
    rfl
  | inet6 port addr len hlen =>
    have hiton : firewallIton .cleared (Network.inet6 port addr len hlen).ai.aiFamily len = _ :=
      firewallIton_inet6 hlen
    rw [linkBlocks, if_pos rfl, Network.len, hiton]
    rfl

theorem linkBlocks_any (hany : n.IsInetAny) (head : List BlockaddrLl) :
    linkBlocks true (some n.ai) n.len head = .error .shift := by
  cases n with
  | inet port addr len hlen =>
    obtain rfl : len = 0 := hany.2
    rfl
  | inet6 port addr len hlen => cases hany.1

/-- A rule covers the addresses of its network. -/
theorem Network.covers_iff (hany : ¬ n.IsInetAny) : n.rule.Covers a ↔ n.Contains a := by
  cases n with
  | inet port net len hlen =>
    have hpos : len ≠ 0 := fun h => hany ⟨rfl, h⟩
    cases a with
    | inet p addr =>
      rw [Network.Contains, ← Lib.and_eq_and_iff hlen fun k hk => bit_htonl_mask hlen hpos hk]
      simp only [BlockaddrLl.Covers, Network.rule, Network.ai, SockAddr.masked, Network.netmask,
        Netmask.setInet, SockAddr.inet.injEq]
      constructor
      · rintro ⟨_, _, ⟨-, rfl⟩, h⟩
        rw [← maskSin_eq_iff] at h
        rwa [← maskSin_eq, ← maskSin_eq]
      · intro h
        refine ⟨_, _, ⟨rfl, rfl⟩, ?_⟩
        rw [← maskSin_eq_iff, maskSin_eq, maskSin_eq]
        exact h
    | inet6 p addr => simp [BlockaddrLl.Covers, Network.rule, Network.ai, SockAddr.masked,
        Network.Contains]
    | other f data ne => simp [BlockaddrLl.Covers, Network.Contains]
  | inet6 port net len hlen =>
    cases a with
    | inet p addr => simp [BlockaddrLl.Covers, Network.rule, Network.ai, SockAddr.masked,
        Network.Contains]
    | inet6 p addr =>
      rw [Network.Contains, ← Lib.and_eq_and_iff hlen fun k hk => bit_leading hk]
      simp only [BlockaddrLl.Covers, Network.rule, Network.ai, SockAddr.masked, Network.netmask,
        Netmask.setInet6, SockAddr.inet6.injEq]
      constructor
      · rintro ⟨_, _, ⟨-, rfl⟩, h⟩
        exact funext h
      · intro h
        exact ⟨_, _, ⟨rfl, rfl⟩, congrFun h⟩
    | other f data ne => simp [BlockaddrLl.Covers, Network.Contains]

/-- The rules are those of the networks, the last first. -/
theorem linkNetworks_ok (hany : ∀ n ∈ networks, ¬ n.IsInetAny) (head : List BlockaddrLl) :
    linkNetworks networks head = .ok (networks.reverse.map Network.rule ++ head) := by
  induction networks generalizing head with
  | nil => rfl
  | cons n ns ih =>
    have hrest := ih (fun m hm => hany m (List.mem_cons_of_mem n hm)) (n.rule :: head)
    rw [linkNetworks, linkBlocks_network (hany n List.mem_cons_self)]
    refine hrest.trans ?_
    simp

theorem linkNetworks_fault (hmem : n ∈ networks) (hany : n.IsInetAny) (head : List BlockaddrLl) :
    linkNetworks networks head = .error .shift := by
  induction networks generalizing head with
  | nil => cases hmem
  | cons m ns ih =>
    rw [linkNetworks]
    by_cases hm : m.IsInetAny
    · rw [linkBlocks_any hm]
      rfl
    · rw [linkBlocks_network hm]
      rcases List.mem_cons.mp hmem with rfl | hmem
      · exact absurd hany hm
      · exact ih hmem _

/-- The rules can be built, and the verdict over them is membership in the networks. -/
def DecidesMembership (networks : List Network) : Prop :=
  ∃ rules, linkNetworks networks [] = .ok rules ∧
    ∀ (info : Info) (cfg : Configs), info.Addressed → cfg.blockHead = rules →
      (firewall info cfg = true ↔
        ¬ info.UdpaUnspec ∧ ∃ a ∈ info.requested, ∃ n ∈ networks, n.Contains a)

/-- **The verdict is membership in a network, unless one is all of IPv4.** Link rules for any
networks, of either family and in any order. No shift is as wide as its operand, and the firewall
refuses exactly the requests for an address of one of the networks that are no UDP ASSOCIATE with an
all-zero literal address, if and only if none of the networks is an IPv4 network of prefix length
0. -/
theorem decides_membership_iff (networks : List Network) :
    DecidesMembership networks ↔ ∀ n ∈ networks, ¬ n.IsInetAny := by
  constructor
  · rintro ⟨rules, hrules, -⟩ n hmem hany
    rw [linkNetworks_fault hmem hany] at hrules
    cases hrules
  · intro hany
    refine ⟨_, linkNetworks_ok hany [], fun info cfg haddressed hhead => ?_⟩
    rw [firewall_iff haddressed]
    have hblocked : ∀ a, Blocked cfg a ↔ ∃ n ∈ networks, n.Contains a := by
      intro a
      simp only [Blocked, hhead, List.append_nil, List.mem_map, List.mem_reverse]
      constructor
      · rintro ⟨_, ⟨n, hn, rfl⟩, h⟩
        exact ⟨n, hn, (Network.covers_iff (hany n hn)).mp h⟩
      · rintro ⟨n, hn, h⟩
        exact ⟨n.rule, ⟨n, hn, rfl⟩, (Network.covers_iff (hany n hn)).mpr h⟩
    simp only [hblocked]

/-- 0.0.0.0/0. -/
theorem not_decides_membership : ¬ ∀ networks : List Network, DecidesMembership networks := by
  intro h
  obtain ⟨rules, hrules, -⟩ := h [.inet (fun _ => 0) (fun _ => 0) 0 (by decide)]
  cases hrules

end Verdict

end Socksprox
