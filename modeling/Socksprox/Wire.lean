import Socksprox.Socks
import Mathlib.Data.List.GetD

/-!
The request on the wire, as RFC 1928 lays it out, and what the offsets of `waitingcommand`
make of it.
-/

namespace Socksprox

/-! ### Requests -/

/-- Where a request goes. The length octet of a name is that of the list. -/
inductive Dest where
  | inet (addr : Octets 4)
  | inet6 (addr : Octets 16)
  | domain (name : List UInt8)

structure SocksRequest where
  cmd : UInt8
  rsv : UInt8
  dest : Dest
  port : Octets 2

def Dest.atyp : Dest → UInt8
  | .inet _ => atypIpv4
  | .inet6 _ => atypIpv6
  | .domain _ => atypDomn

def Dest.octets : Dest → List UInt8
  | .inet addr => addr.toList
  | .inet6 addr => addr.toList
  | .domain name => UInt8.ofNat name.length :: name

/-- The octets of a request of version 5. -/
def SocksRequest.octets (r : SocksRequest) : List UInt8 :=
  socks5Version :: r.cmd :: r.rsv :: r.dest.atyp :: (r.dest.octets ++ r.port.toList)

/-- The address of a request that names it. -/
def SocksRequest.addr (r : SocksRequest) : Option SockAddr :=
  match r.dest with
  | .inet addr => some (.inet r.port addr)
  | .inet6 addr => some (.inet6 r.port addr)
  | .domain _ => none

/-- A name has at most 255 octets. -/
def SocksRequest.Fits (r : SocksRequest) : Prop := ∀ name, r.dest = .domain name → name.length ≤ 255

/-- The length of a literal request is the one that the source computes from it. -/
theorem SocksRequest.totalLen_octets (cfg : Configs) {r : SocksRequest} (haddr : r.addr ≠ none)
    (rest : List UInt8) : totalLen cfg (r.octets ++ rest) = some r.octets.length := by
  obtain ⟨cmd, rsv, dest, port⟩ := r
  cases dest with
  | inet addr => simp [totalLen, reqAt, SocksRequest.octets, Dest.octets, Dest.atyp]
  | inet6 addr =>
    simp [totalLen, reqAt, SocksRequest.octets, Dest.octets, Dest.atyp, atypIpv4, atypDomn,
      atypIpv6]
  | domain name => exact absurd rfl haddr

/-- A request names an address or a domain. -/
theorem SocksRequest.atyp_ne_domn {r : SocksRequest} (haddr : r.addr ≠ none) :
    r.dest.atyp ≠ atypDomn := by
  obtain ⟨cmd, rsv, dest, port⟩ := r
  cases dest with
  | inet addr => simp [Dest.atyp, atypIpv4, atypDomn]
  | inet6 addr => simp [Dest.atyp, atypIpv6, atypDomn]
  | domain name => exact absurd rfl haddr

theorem SocksRequest.addr_ne_none {r : SocksRequest} (hatyp : r.dest.atyp ≠ atypDomn) :
    r.addr ≠ none := by
  obtain ⟨cmd, rsv, dest, port⟩ := r
  cases dest with
  | inet addr => simp [SocksRequest.addr]
  | inet6 addr => simp [SocksRequest.addr]
  | domain name => exact absurd rfl hatyp

/-! ### Octets at an offset -/

theorem octetsAt_append {n off : Nat} {before after : List UInt8} {o : Octets n}
    (hoff : before.length = off) : octetsAt n (reqAt (before ++ (o.toList ++ after))) off = o := by
  funext i
  have hlen : i.val < o.toList.length := by simp
  rw [octetsAt, reqAt, ← hoff, List.getD_append_right _ _ _ _ (Nat.le_add_right _ _),
    Nat.add_sub_cancel_left, List.getD_append _ _ _ _ hlen, List.getD_eq_getElem _ _ hlen]
  simp [Octets.toList]

theorem toList_octetsAt {n off : Nat} {req : List UInt8} (hlen : off + n ≤ req.length) :
    (octetsAt n (reqAt req) off).toList = (req.drop off).take n := by
  refine List.ext_getElem (by simp; omega) fun i hi hi' => ?_
  have hlt : off + i < req.length := by
    simp only [Octets.length_toList] at hi
    omega
  simp only [Octets.toList, List.getElem_ofFn, octetsAt, reqAt, List.getElem_take,
    List.getElem_drop]
  exact List.getD_eq_getElem _ _ hlt

/-- An octet of a request does not change when the request is cut behind it. -/
theorem reqAt_take {got : List UInt8} {n i : Nat} (hi : i < n) :
    reqAt (got.take n) i = reqAt got i := by
  simp [reqAt, List.getD_eq_getElem?_getD, hi]

/-! ### Complete requests -/

section Complete

variable {cfg : Configs} {req : List UInt8} {total : Nat}

/-- The header of a request that is long enough. -/
theorem header_of_length (hlen : 4 ≤ req.length) :
    req = reqAt req 0 :: reqAt req 1 :: reqAt req 2 :: reqAt req 3 :: req.drop 4 := by
  match req, hlen with
  | a :: b :: c :: d :: rest, _ => simp [reqAt]

/-- A complete request with a literal address is the octets of one, with what follows them, and
its address is the one that is stored. -/
theorem literal_of_complete (htotal : totalLen cfg req = some total) (hlen : 5 ≤ req.length)
    (hcomplete : total ≤ req.length) (hversion : reqAt req 0 = socks5Version)
    (hatyp : reqAt req 3 ≠ atypDomn) :
    ∃ r : SocksRequest, ∃ rest, req = r.octets ++ rest ∧ r.cmd = reqAt req 1 ∧
      r.dest.atyp = reqAt req 3 ∧ r.addr = some (reqAddr req) := by
  have hheader : req = reqAt req 0 :: reqAt req 1 :: reqAt req 2 :: reqAt req 3 :: req.drop 4 :=
    header_of_length (by omega)
  have hsplit : ∀ {n m}, 4 + n + m ≤ req.length →
      req.drop 4 = (octetsAt n (reqAt req) 4).toList ++
        ((octetsAt m (reqAt req) (4 + n)).toList ++ req.drop (4 + n + m)) := by
    intro n m hle
    have hsecond : req.drop (4 + n) = (req.drop 4).drop n := List.drop_drop.symm
    have hrest : req.drop (4 + n + m) = ((req.drop 4).drop n).drop m := by
      rw [List.drop_drop, List.drop_drop, Nat.add_assoc]
    rw [toList_octetsAt (by omega), toList_octetsAt hle, hsecond, hrest, List.take_append_drop,
      List.take_append_drop]
  by_cases hinet : reqAt req 3 = atypIpv4
  · rw [totalLen, if_pos hinet, Option.some.injEq] at htotal
    refine ⟨⟨reqAt req 1, reqAt req 2, .inet (octetsAt 4 (reqAt req) 4), octetsAt 2 (reqAt req) 8⟩,
      req.drop 10, ?_, rfl, hinet.symm, ?_⟩
    · conv_lhs => rw [hheader, hversion, hinet, hsplit (n := 4) (m := 2) (by omega)]
      simp [SocksRequest.octets, Dest.atyp, Dest.octets]
    · simp [SocksRequest.addr, reqAddr, hinet]
  · by_cases hinet6 : reqAt req 3 = atypIpv6
    · rw [totalLen, if_neg hinet, if_neg hatyp, if_pos hinet6, Option.some.injEq] at htotal
      refine ⟨⟨reqAt req 1, reqAt req 2, .inet6 (octetsAt 16 (reqAt req) 4),
        octetsAt 2 (reqAt req) 20⟩, req.drop 22, ?_, rfl, hinet6.symm, ?_⟩
      · conv_lhs => rw [hheader, hversion, hinet6, hsplit (n := 16) (m := 2) (by omega)]
        simp [SocksRequest.octets, Dest.atyp, Dest.octets]
      · simp [SocksRequest.addr, reqAddr, hinet]
    · simp [totalLen, hinet, hatyp, hinet6] at htotal

/-! ### Requests in a stream -/

/-- The length that a request has by its address type and the length octet of a name. -/
def requestLen (req : List UInt8) : Option Nat :=
  if reqAt req 3 = atypIpv4 then some 10
  else if reqAt req 3 = atypDomn then some (7 + (reqAt req 4).toNat)
  else if reqAt req 3 = atypIpv6 then some 22
  else none

/-- The bytes begin with a whole request. -/
def HoldsRequest (got : List UInt8) : Prop :=
  ∃ r : SocksRequest, r.Fits ∧ ∃ rest, got = r.octets ++ rest

theorem UInt8.toNat_ofNat_length {name : List UInt8} (h : name.length ≤ 255) :
    (UInt8.ofNat name.length).toNat = name.length := by
  rw [UInt8.toNat_ofNat']
  omega

theorem requestLen_octets {r : SocksRequest} (hfits : r.Fits) (rest : List UInt8) :
    requestLen (r.octets ++ rest) = some r.octets.length := by
  obtain ⟨cmd, rsv, dest, port⟩ := r
  cases dest with
  | inet addr => simp [requestLen, reqAt, SocksRequest.octets, Dest.octets, Dest.atyp]
  | inet6 addr =>
    simp [requestLen, reqAt, SocksRequest.octets, Dest.octets, Dest.atyp, atypIpv4, atypDomn,
      atypIpv6]
  | domain name =>
    have hlen := UInt8.toNat_ofNat_length (hfits name rfl)
    simp [requestLen, reqAt, SocksRequest.octets, Dest.octets, Dest.atyp, atypIpv4, atypDomn, hlen]
    omega

/-- A whole request is one that is as long as its address type asks for. -/
theorem holdsRequest_iff : HoldsRequest req ↔ 5 ≤ req.length ∧ reqAt req 0 = socks5Version ∧
    ∃ total ∈ requestLen req, total ≤ req.length := by
  constructor
  · rintro ⟨r, hfits, rest, rfl⟩
    have hlen := requestLen_octets hfits rest
    refine ⟨?_, rfl, _, hlen, by simp⟩
    obtain ⟨cmd, rsv, dest, port⟩ := r
    cases dest <;> simp [SocksRequest.octets, Dest.octets] <;> omega
  · rintro ⟨hlen, hversion, total, htotal, hcomplete⟩
    by_cases hdomain : reqAt req 3 = atypDomn
    · have hne : ¬ atypDomn = atypIpv4 := by decide
      rw [requestLen, hdomain, if_neg hne, if_pos rfl] at htotal
      cases htotal
      have hheader := header_of_length (by omega : 4 ≤ req.length)
      have hcons : req.drop 4 = reqAt req 4 :: req.drop 5 := by
        rw [List.drop_eq_getElem_cons (by omega : 4 < req.length), reqAt,
          List.getD_eq_getElem _ _ (by omega : 4 < req.length)]
      have hport : req.drop (5 + (reqAt req 4).toNat) =
          (octetsAt 2 (reqAt req) (5 + (reqAt req 4).toNat)).toList ++
            req.drop (7 + (reqAt req 4).toNat) := by
        have hrest : req.drop (7 + (reqAt req 4).toNat) =
            (req.drop (5 + (reqAt req 4).toNat)).drop 2 := by
          rw [List.drop_drop]
          congr 1
          omega
        rw [toList_octetsAt (by omega), hrest, List.take_append_drop]
      have hname : ((req.drop 5).take (reqAt req 4).toNat).length = (reqAt req 4).toNat := by
        rw [List.length_take, List.length_drop]
        omega
      have hsplit : req.drop 5 = (req.drop 5).take (reqAt req 4).toNat ++
          req.drop (5 + (reqAt req 4).toNat) := by
        rw [← List.drop_drop, List.take_append_drop]
      refine ⟨⟨reqAt req 1, reqAt req 2, .domain ((req.drop 5).take (reqAt req 4).toNat),
        octetsAt 2 (reqAt req) (5 + (reqAt req 4).toNat)⟩, ?_,
          req.drop (7 + (reqAt req 4).toNat), ?_⟩
      · rintro name ⟨rfl⟩
        rw [hname]
        exact Nat.lt_succ_iff.mp (reqAt req 4).toNat_lt
      · conv_lhs => rw [hheader, hversion, hdomain, hcons, hsplit, hport]
        simp [SocksRequest.octets, Dest.atyp, Dest.octets, hname]
    · have htotal' : totalLen Configs.cleared req = some total := by
        simpa [totalLen, requestLen, hdomain] using htotal
      obtain ⟨r, rest, hreq, -, hatyp, haddr⟩ :=
        literal_of_complete htotal' hlen hcomplete hversion hdomain
      refine ⟨r, fun name hname => ?_, rest, hreq⟩
      rw [hname] at hatyp
      exact absurd hatyp.symm hdomain

/-- The length that the source computes is at most that of the request, and 300 bytes hold it. -/
theorem totalLen_le {got : List UInt8} (htotal : totalLen cfg got = some total) :
    total ≤ 261 ∧ ∃ n ∈ requestLen got, total ≤ n := by
  have hname := (reqAt got 4).toNat_lt
  unfold totalLen at htotal
  unfold requestLen
  split at htotal
  · rename_i hinet
    rw [if_pos hinet]
    cases htotal
    exact ⟨by decide, _, rfl, le_rfl⟩
  · rename_i hinet
    rw [if_neg hinet]
    split at htotal
    · rename_i hdomain
      rw [if_pos hdomain]
      split at htotal
      · cases htotal
        exact ⟨by omega, _, rfl, by omega⟩
      · cases htotal
    · rename_i hdomain
      rw [if_neg hdomain]
      split at htotal
      · rename_i hinet6
        rw [if_pos hinet6]
        cases htotal
        exact ⟨by decide, _, rfl, le_rfl⟩
      · cases htotal

/-- A whole request is as long as the source asks for. -/
theorem HoldsRequest.complete {got : List UInt8} (h : HoldsRequest got)
    (htotal : totalLen cfg (got.take 300) = some total) : total ≤ (got.take 300).length := by
  have hsame : totalLen cfg (got.take 300) = totalLen cfg got := by
    simp only [totalLen, reqAt_take (show 3 < 300 by decide), reqAt_take (show 4 < 300 by decide)]
  rw [hsame] at htotal
  obtain ⟨hle, n, hn, htotaln⟩ := totalLen_le htotal
  obtain ⟨-, -, n', hn', hlen⟩ := holdsRequest_iff.mp h
  obtain rfl : n = n' := Option.some.inj (hn.symm.trans hn')
  rw [List.length_take]
  omega

instance : DecidablePred HoldsRequest := fun req =>
  decidable_of_iff (5 ≤ req.length ∧ reqAt req 0 = socks5Version ∧
    (requestLen req).any (fun total => decide (total ≤ req.length)) = true) (by
      rw [holdsRequest_iff]
      cases requestLen req <;> simp)

end Complete

/-! ### Requests that are still arriving -/

/-- How many octets of a request the source waits for. Behind a name it forgets one. -/
def SocksRequest.awaited (r : SocksRequest) : Nat :=
  match r.dest with
  | .domain name => 6 + name.length
  | _ => r.octets.length

section Prefix

variable {cfg : Configs} {req more : List UInt8} {r : SocksRequest}

theorem reqAt_begun {l : List UInt8} (h : req <+: l) {i : Nat} (hi : i < req.length) :
    reqAt req i = reqAt l i := by
  obtain ⟨rest, rfl⟩ := h
  exact (List.getD_append _ _ _ _ hi).symm

theorem SocksRequest.length_octets (r : SocksRequest) :
    r.octets.length = 4 + (r.dest.octets.length + 2) := by
  simp [SocksRequest.octets]
  omega

theorem SocksRequest.awaited_le (r : SocksRequest) :
    r.awaited ≤ r.octets.length ∧ 5 ≤ r.awaited := by
  obtain ⟨cmd, rsv, dest, port⟩ := r
  cases dest <;> simp [SocksRequest.awaited, SocksRequest.length_octets, Dest.octets]
  omega

/-- 300 bytes hold any request. -/
theorem SocksRequest.Fits.length_le (hfits : r.Fits) : r.octets.length ≤ 262 := by
  obtain ⟨cmd, rsv, dest, port⟩ := r
  cases dest with
  | inet addr => simp [SocksRequest.length_octets, Dest.octets]
  | inet6 addr => simp [SocksRequest.length_octets, Dest.octets]
  | domain name =>
    have hle := hfits name rfl
    simp [SocksRequest.length_octets, Dest.octets]
    omega

/-- The source waits for the whole of a request but the last octet behind a name. -/
theorem SocksRequest.awaited_lt (h : r.awaited < r.octets.length) :
    ∃ name, r.dest = .domain name ∧ r.octets.length = 7 + name.length := by
  obtain ⟨cmd, rsv, dest, port⟩ := r
  cases dest with
  | inet addr => exact absurd h (lt_irrefl _)
  | inet6 addr => exact absurd h (lt_irrefl _)
  | domain name =>
    refine ⟨name, rfl, ?_⟩
    simp [SocksRequest.length_octets, Dest.octets]
    omega

/-- Its length as the source computes it, once the fifth octet is there. -/
theorem totalLen_begun (h : req <+: r.octets ++ more) (hlen : 5 ≤ req.length) (hfits : r.Fits)
    (hallowed : r.dest.atyp = atypDomn → cfg.allowDomains = true) :
    totalLen cfg req = some r.awaited := by
  have h3 : reqAt req 3 = r.dest.atyp := reqAt_begun h (by omega)
  obtain ⟨cmd, rsv, dest, port⟩ := r
  cases dest with
  | inet addr =>
    have hatyp : reqAt req 3 = atypIpv4 := h3
    simp [totalLen, hatyp, SocksRequest.awaited, SocksRequest.length_octets, Dest.octets]
  | inet6 addr =>
    have hatyp : reqAt req 3 = atypIpv6 := h3
    have hne : atypIpv6 ≠ atypIpv4 ∧ atypIpv6 ≠ atypDomn := by decide
    simp [totalLen, hatyp, hne, SocksRequest.awaited, SocksRequest.length_octets, Dest.octets]
  | domain name =>
    have hatyp : reqAt req 3 = atypDomn := h3
    have hne : atypDomn ≠ atypIpv4 := by decide
    have h4 : reqAt req 4 = UInt8.ofNat name.length := reqAt_begun h (by omega)
    simp [totalLen, hatyp, hne, hallowed rfl, h4, SocksRequest.awaited,
      UInt8.toNat_ofNat_length (hfits name rfl)]

/-- The octets behind the header. -/
theorem reqAt_body (i : Nat) :
    reqAt (r.octets ++ more) (4 + i) = reqAt (r.dest.octets ++ r.port.toList ++ more) i := by
  rw [Nat.add_comm]
  simp only [reqAt, SocksRequest.octets, List.cons_append, List.getD_cons_succ]

/-- The address of a whole request is decoded. -/
theorem reqAddr_begun (h : req <+: r.octets ++ more) (hlen : r.octets.length ≤ req.length)
    {sa : SockAddr} (hsa : r.addr = some sa) : reqAddr req = sa := by
  have h3 : reqAt req 3 = r.dest.atyp := reqAt_begun h (by rw [r.length_octets] at hlen; omega)
  have hoctets : ∀ {n off : Nat}, off + n ≤ r.octets.length →
      octetsAt n (reqAt req) off = octetsAt n (reqAt (r.octets ++ more)) off := by
    intro n off hle
    funext i
    exact reqAt_begun h (by omega)
  rw [r.length_octets] at hoctets
  obtain ⟨cmd, rsv, dest, port⟩ := r
  cases dest with
  | inet addr =>
    have hatyp : reqAt req 3 = atypIpv4 := h3
    cases hsa
    rw [reqAddr, if_pos hatyp, hoctets (by simp [Dest.octets]), hoctets (by simp [Dest.octets])]
    congr 1
    · exact @octetsAt_append _ _ (socks5Version :: cmd :: rsv :: atypIpv4 :: addr.toList) _ _
        (by simp)
    · exact @octetsAt_append _ _ [socks5Version, cmd, rsv, atypIpv4] _ _ rfl
  | inet6 addr =>
    have hatyp : reqAt req 3 = atypIpv6 := h3
    have hne : atypIpv6 ≠ atypIpv4 := by decide
    cases hsa
    rw [reqAddr, hatyp, if_neg hne, hoctets (by simp [Dest.octets]),
      hoctets (by simp [Dest.octets])]
    congr 1
    · exact @octetsAt_append _ _ (socks5Version :: cmd :: rsv :: atypIpv6 :: addr.toList) _ _
        (by simp)
    · exact @octetsAt_append _ _ [socks5Version, cmd, rsv, atypIpv6] _ _ rfl
  | domain name => cases hsa

/-- Name and port of a whole request are what the resolver is handed first. -/
theorem body_begun (h : req <+: r.octets ++ more) (hlen : r.octets.length ≤ req.length)
    (hroom : r.octets.length ≤ 300) :
    r.dest.octets ++ r.port.toList <+: (List.range 296).map fun i => reqAt req (4 + i) := by
  rw [r.length_octets] at hlen hroom
  rw [List.prefix_iff_getElem]
  refine ⟨by simp; omega, fun i hi => ?_⟩
  have hi' : i < (r.dest.octets ++ r.port.toList).length := hi
  rw [List.length_append, Octets.length_toList] at hi'
  rw [List.getElem_map, List.getElem_range, reqAt_begun h (by omega), reqAt_body, reqAt,
    List.getD_append _ _ _ _ hi, List.getD_eq_getElem _ _ hi]

end Prefix

end Socksprox
