import Socksprox.Firewall
import Socksprox.Outcome.Request
import Mathlib.Data.Fin.VecNotation

/-!
The same host named in both families. A socket of the IPv6 family reaches the IPv4 host `a`
under the address `::ffff:a`, and the firewall looks at the rules of the named family only.
-/

namespace Socksprox

/-- The IPv6 address `::ffff:a` of an IPv4 host. -/
def mapped (addr : Octets 4) : Octets 16 := fun i =>
  if h : 12 ≤ i.val then addr ⟨i.val - 12, by omega⟩ else if 10 ≤ i.val then 0xFF else 0

/-! ### The two requests -/

def connectInet (port : Octets 2) (addr : Octets 4) : List UInt8 :=
  [socks5Version, cmdConn, socks5Resv, atypIpv4] ++ (addr.toList ++ port.toList)

def connectInet6 (port : Octets 2) (addr : Octets 16) : List UInt8 :=
  [socks5Version, cmdConn, socks5Resv, atypIpv6] ++ (addr.toList ++ port.toList)

/-- What the server knows of a literal request when it asks the firewall. -/
def Info.literal (info : Info) (req : List UInt8) : Info :=
  { info with cmd := reqAt req 1, atyp := reqAt req 3, sa := some (Socksprox.reqAddr req) }

theorem reqAddr_connectInet (port : Octets 2) (addr : Octets 4) :
    reqAddr (connectInet port addr) = .inet port addr := by
  have hatyp : reqAt (connectInet port addr) 3 = atypIpv4 := rfl
  rw [reqAddr, if_pos hatyp]
  congr 1
  · funext i
    fin_cases i <;> rfl
  · funext i
    fin_cases i <;> rfl

theorem reqAddr_connectInet6 (port : Octets 2) (addr : Octets 16) :
    reqAddr (connectInet6 port addr) = .inet6 port addr := by
  have hatyp : reqAt (connectInet6 port addr) 3 ≠ atypIpv4 := by
    show atypIpv6 ≠ atypIpv4
    decide
  rw [reqAddr, if_neg hatyp]
  congr 1
  · funext i
    fin_cases i <;> rfl
  · funext i
    fin_cases i <;> rfl

/-! ### The verdicts -/

/-- The rule is an IPv4 one whose network contains the address. -/
def BlockaddrLl.CoversInet (rule : BlockaddrLl) (addr : Octets 4) : Prop :=
  ∃ port net, rule.sa = .inet port net ∧ ntohl addr &&& rule.netmask.inet = ntohl net

/-- The rule is an IPv6 one whose network reaches into `::ffff:0:0/96` and contains the
address there. -/
def BlockaddrLl.CoversMapped (rule : BlockaddrLl) (addr : Octets 4) : Prop :=
  ∃ port net, rule.sa = .inet6 port net ∧ (∀ i : Fin 10, net (i.castLE (by decide)) = 0) ∧
    net 10 = rule.netmask.inet6 10 ∧ net 11 = rule.netmask.inet6 11 ∧
    ∀ i : Fin 4, addr i &&& rule.netmask.inet6 (i.natAdd 12) = net (i.natAdd 12)

theorem mapped_masked_iff {addr : Octets 4} {mask net : Octets 16} :
    (∀ i, mapped addr i &&& mask i = net i) ↔
      (∀ i : Fin 10, net (i.castLE (by decide)) = 0) ∧ net 10 = mask 10 ∧ net 11 = mask 11 ∧
        ∀ i : Fin 4, addr i &&& mask (i.natAdd 12) = net (i.natAdd 12) := by
  have hones : ∀ x : UInt8, 0xFF &&& x = x := fun x => by
    apply UInt8.toBitVec_inj.mp
    simpa using BitVec.allOnes_and (x := x.toBitVec)
  have hlow : ∀ i : Fin 10, mapped addr (i.castLE (by decide)) = 0 := by
    intro i
    have hi := i.isLt
    simp only [mapped, Fin.val_castLE]
    rw [dif_neg (by omega), if_neg (by omega)]
  have hhigh : ∀ i : Fin 4, mapped addr (i.natAdd 12) = addr i := fun i => by simp [mapped]
  constructor
  · intro h
    refine ⟨fun i => ?_, ?_, ?_, fun i => ?_⟩
    · rw [← h, hlow, UInt8.zero_and]
    · rw [← h 10]
      exact hones _
    · rw [← h 11]
      exact hones _
    · rw [← h, hhigh]
  · rintro ⟨hzero, h10, h11, hlast⟩ i
    by_cases hi : i.val < 10
    · have h := hlow ⟨i.val, hi⟩
      have h' := hzero ⟨i.val, hi⟩
      simp only [Fin.castLE_mk, Fin.eta] at h h'
      rw [h, h', UInt8.zero_and]
    by_cases hi' : 12 ≤ i.val
    · obtain ⟨j, rfl⟩ : ∃ j : Fin 4, i = j.natAdd 12 :=
        ⟨⟨i.val - 12, by omega⟩, Fin.ext (by simp; omega)⟩
      rw [hhigh]
      exact hlast j
    · obtain rfl | rfl : i = 10 ∨ i = 11 := by
        rcases (by omega : i.val = 10 ∨ i.val = 11) with h | h
        · exact .inl (Fin.ext h)
        · exact .inr (Fin.ext h)
      · rw [h10]
        exact hones _
      · rw [h11]
        exact hones _

/-- A CONNECT for a literal address is refused when a rule of its own family covers it. -/
theorem firewall_literal {info : Info} {req : List UInt8} {cfg : Configs}
    (hcmd : reqAt req 1 = cmdConn) (hfamily : ∀ f data ne, reqAddr req ≠ .other f data ne) :
    firewall (info.literal req) cfg = true ↔ Blocked cfg (reqAddr req) := by
  have hunspec : udpaUnspec (info.literal req) = false := by
    rw [udpaUnspec, if_pos]
    show reqAt req 1 ≠ cmdUdpa
    rw [hcmd]
    decide
  have hsa : (info.literal req).sa = some (reqAddr req) := rfl
  rw [firewall, hunspec, hsa]
  cases haddr : reqAddr req with
  | inet port addr => exact checkSin_iff
  | inet6 port addr => exact checkSin6_iff
  | other f data ne => exact absurd haddr (hfamily f data ne)

/-- **The same verdict for both names of a host.** A CONNECT for an IPv4 host and a CONNECT
for the same host's IPv6 name get one verdict just when the rules of both families agree
on the host. -/
theorem firewall_mapped_iff {info info' : Info} {port port' : Octets 2} {addr : Octets 4}
    {cfg : Configs} :
    firewall (info.literal (connectInet port addr)) cfg =
        firewall (info'.literal (connectInet6 port' (mapped addr))) cfg ↔
      ((∃ rule ∈ cfg.blockHead, rule.CoversInet addr) ↔
        ∃ rule ∈ cfg.blockHead, rule.CoversMapped addr) := by
  have hinet : firewall (info.literal (connectInet port addr)) cfg = true ↔
      ∃ rule ∈ cfg.blockHead, rule.CoversInet addr := by
    refine (firewall_literal rfl fun f data ne => ?_).trans ?_
    · simp [reqAddr_connectInet]
    · rw [reqAddr_connectInet]
      exact Iff.rfl
  have hinet6 : firewall (info'.literal (connectInet6 port' (mapped addr))) cfg = true ↔
      ∃ rule ∈ cfg.blockHead, rule.CoversMapped addr := by
    refine (firewall_literal rfl fun f data ne => ?_).trans ?_
    · simp [reqAddr_connectInet6]
    · rw [reqAddr_connectInet6, Blocked]
      simp only [BlockaddrLl.Covers, BlockaddrLl.CoversMapped, mapped_masked_iff]
  rw [← hinet, ← hinet6, Bool.eq_iff_iff]

/-- 127.0.0.0/8 and nothing else blocked: `::ffff:127.0.0.1` gets through. -/
theorem firewall_mapped_loopback :
    ¬ ∀ (info info' : Info) (port port' : Octets 2) (addr : Octets 4) (cfg : Configs),
      firewall (info.literal (connectInet port addr)) cfg =
        firewall (info'.literal (connectInet6 port' (mapped addr))) cfg := fun h =>
  absurd (h .fresh .fresh ![0, 80] ![0, 80] ![127, 0, 0, 1] { Configs.cleared with
    allowConnect := true, methods := noauthMethods
    blockHead := [⟨⟨0xFF000000, fun _ => 0⟩, .inet ![0, 0] ![127, 0, 0, 0]⟩] }) (by decide +kernel)

end Socksprox
