import Socksprox.Info
import Mathlib.Tactic.FinCases

/-!
The firewall of `src/firewall.c`: a request is refused when a requested address
lies in a blocked network of its family. `Covers` says what a rule blocks, apart
from the functions that decide it.
-/

namespace Socksprox

/-- `ntohl` of the four octets of an address. -/
def ntohl (a : Octets 4) : UInt32 :=
  UInt32.ofNat ((a 0).toNat * 2 ^ 24 + (a 1).toNat * 2 ^ 16 + (a 2).toNat * 2 ^ 8 + (a 3).toNat)

/-- `htonl`, as the four octets it stores. -/
def htonl (x : UInt32) : Octets 4 := fun i =>
  UInt8.ofNat (x.toNat / 2 ^ (8 * (3 - i.val)))

def maskSin (dst : Octets 4) (netmask : UInt32) : Octets 4 := htonl (ntohl dst &&& netmask)

def maskSin6 (dst netmask : Octets 16) : Octets 16 := fun i => dst i &&& netmask i

def checkSin (addr : Octets 4) : List BlockaddrLl → Bool
  | [] => false
  | current :: next =>
    match current.sa with
    | .inet _ net => if maskSin addr current.netmask.inet = net then true else checkSin addr next
    | _ => checkSin addr next

def checkSin6 (addr : Octets 16) : List BlockaddrLl → Bool
  | [] => false
  | current :: next =>
    match current.sa with
    | .inet6 _ net => if maskSin6 addr current.netmask.inet6 = net then true
        else checkSin6 addr next
    | _ => checkSin6 addr next

def checkAi : List AddrInfo → List BlockaddrLl → Bool
  | [], _ => false
  | current :: next, blockHead =>
    match current.aiAddr with
    | .inet _ addr => if checkSin addr blockHead then true else checkAi next blockHead
    | .inet6 _ addr => if checkSin6 addr blockHead then true else checkAi next blockHead
    | .other .. => checkAi next blockHead

/-- A UDP ASSOCIATE that names the all-zero address. -/
def udpaUnspec (info : Info) : Bool :=
  if info.cmd ≠ cmdUdpa then false
  else match info.sa with
    | none => false
    | some (.inet _ addr) => decide (addr = fun _ => 0)
    | some (.inet6 _ addr) => decide (addr = fun _ => 0)
    | some (.other ..) => false

/-- `firewall`: `true` refuses the request. -/
def firewall (info : Info) (cfg : Configs) : Bool :=
  if udpaUnspec info then false
  else match info.sa with
    | some (.inet _ addr) => checkSin addr cfg.blockHead
    | some (.inet6 _ addr) => checkSin6 addr cfg.blockHead
    | some (.other ..) => true
    | none => if info.ai ≠ [] then checkAi info.ai cfg.blockHead else true

/-! ### What a rule blocks -/

/-- The rule's network contains the address: same family, and equal to the stored
network on the bits of the mask. -/
def BlockaddrLl.Covers (rule : BlockaddrLl) : SockAddr → Prop
  | .inet _ addr => ∃ port net, rule.sa = .inet port net ∧
      ntohl addr &&& rule.netmask.inet = ntohl net
  | .inet6 _ addr => ∃ port net, rule.sa = .inet6 port net ∧
      ∀ i, addr i &&& rule.netmask.inet6 i = net i
  | .other .. => False

/-- Some configured rule contains the address. -/
def Blocked (cfg : Configs) (a : SockAddr) : Prop := ∃ rule ∈ cfg.blockHead, rule.Covers a

theorem ntohl_htonl (x : UInt32) : ntohl (htonl x) = x := by
  apply UInt32.toNat_inj.mp
  have hx := x.toNat_lt
  simp [ntohl, htonl]
  omega

theorem htonl_ntohl (a : Octets 4) : htonl (ntohl a) = a := by
  have h0 := (a 0).toNat_lt
  have h1 := (a 1).toNat_lt
  have h2 := (a 2).toNat_lt
  have h3 := (a 3).toNat_lt
  funext i
  apply UInt8.toNat_inj.mp
  fin_cases i <;> simp [ntohl, htonl] <;> omega

/-- Masking to the stored network is agreement with it in host order. -/
theorem maskSin_eq_iff {addr net : Octets 4} {m : UInt32} :
    maskSin addr m = net ↔ ntohl addr &&& m = ntohl net := by
  unfold maskSin
  constructor
  · intro h
    rw [← h, ntohl_htonl]
  · intro h
    rw [h, htonl_ntohl]

theorem checkSin_iff {port : Octets 2} {addr : Octets 4} {rules : List BlockaddrLl} :
    checkSin addr rules = true ↔ ∃ rule ∈ rules, rule.Covers (.inet port addr) := by
  induction rules with
  | nil => simp [checkSin]
  | cons rule rest ih =>
    rw [checkSin, List.exists_mem_cons_iff, ← ih]
    cases hsa : rule.sa with
    | inet p net => simp [BlockaddrLl.Covers, hsa, maskSin_eq_iff]
    | inet6 p net => simp [BlockaddrLl.Covers, hsa]
    | other f data ne => simp [BlockaddrLl.Covers, hsa]

theorem checkSin6_iff {port : Octets 2} {addr : Octets 16} {rules : List BlockaddrLl} :
    checkSin6 addr rules = true ↔ ∃ rule ∈ rules, rule.Covers (.inet6 port addr) := by
  induction rules with
  | nil => simp [checkSin6]
  | cons rule rest ih =>
    rw [checkSin6, List.exists_mem_cons_iff, ← ih]
    cases hsa : rule.sa with
    | inet p net => simp [BlockaddrLl.Covers, hsa]
    | inet6 p net =>
      have hmask : maskSin6 addr rule.netmask.inet6 = net ↔
          ∀ i, addr i &&& rule.netmask.inet6 i = net i := funext_iff
      simp [BlockaddrLl.Covers, hsa, hmask]
    | other f data ne => simp [BlockaddrLl.Covers, hsa]

/-- The scan of a resolved list refuses it when some address of it is blocked. -/
theorem checkAi_iff {cfg : Configs} {ai : List AddrInfo} :
    checkAi ai cfg.blockHead = true ↔ ∃ a ∈ ai, Blocked cfg a.aiAddr := by
  induction ai with
  | nil => simp [checkAi]
  | cons a rest ih =>
    rw [checkAi, List.exists_mem_cons_iff, ← ih]
    cases hsa : a.aiAddr with
    | inet port addr =>
      have h := @checkSin_iff port addr cfg.blockHead
      simp [Blocked, ← h]
    | inet6 port addr =>
      have h := @checkSin6_iff port addr cfg.blockHead
      simp [Blocked, ← h]
    | other f data ne => simp [Blocked, BlockaddrLl.Covers]

/-- A literal address the firewall lets pass lies in no blocked network, unless it is
the all-zero address of a UDP ASSOCIATE. -/
theorem not_blocked_of_firewall {cfg : Configs} {info : Info} {a : SockAddr}
    (hsa : info.sa = some a) (hcmd : info.cmd ≠ cmdUdpa) (hpass : firewall info cfg = false) :
    ¬ Blocked cfg a := by
  have hunspec : udpaUnspec info = false := by simp [udpaUnspec, hcmd]
  cases a with
  | inet port addr =>
    simp only [firewall, hunspec, hsa, Bool.false_eq_true, if_false] at hpass
    intro hblocked
    rw [checkSin_iff.mpr hblocked] at hpass
    cases hpass
  | inet6 port addr =>
    simp only [firewall, hunspec, hsa, Bool.false_eq_true, if_false] at hpass
    intro hblocked
    rw [checkSin6_iff.mpr hblocked] at hpass
    cases hpass
  | other f data ne => simp [firewall, hunspec, hsa] at hpass

end Socksprox
