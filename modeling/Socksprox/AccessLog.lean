import Socksprox.Logger
import Socksprox.Lib.Text
import Mathlib.Tactic.FinCases

/-!
The lines of the access log (`write_access` and `get_ip_port` of `src/logger.c`).

`get_ip_port` hands `inet_ntop` a pointer to the whole socket address where the address inside it
was meant, and takes the port as it lies there, in network order.
-/

namespace Socksprox.Logger

open Lib (Arg printf decimal)

/-! ### Formats -/

def accessFormats : List String := [
  "[%s]:%d-->socksprox|A new client connected to socksprox",
  "[%s]:%d--!socksprox|Connection closing during socks handshake",
  "[%s]:%d--!socksprox|Client sent invalid version during handshake",
  "[%s]:%d-->socksprox|Client requested command 'connect'",
  "[%s]:%d-->socksprox|Client requested command 'bind'",
  "[%s]:%d-->socksprox|Client requested command 'udp associate'",
  "[%s]:%d--!socksprox|Client requst blocked by firewall",
  "[%s]:%d-->socksprox|Method negotiated to 'no authentication'",
  "[%s]:%d-->socksprox|Method negotiated to 'username/password'",
  "[%s]:%d-->socksprox|Method negotiated to 'gssapi'",
  "[%s]:%d--!socksprox|No method could be negotiated",
  "[%s]:%d-->socksprox-->[%s]:%d|Successful proxy connection made",
  "[%s]:%d-->socksprox<--[%s]:%d|Peer connected to proxied listener",
  "[%s]:%d-->socksprox<->[%s]:%d|UDP relay port established"]

/-- `access_formats[code]`. -/
def accessFormat (code : UInt8) : List Char := (accessFormats.getD code.toNat "").toList

/-- The fields of a `struct tm` that a line begins with. -/
structure Tm where
  year : Int
  mon : Int
  mday : Int
  hour : Int
  min : Int
  sec : Int

def stamp (t : Tm) : List Char :=
  printf "%d-%d-%d_%d:%d:%d-".toList [.int (t.year + 1900), .int (t.mon + 1), .int t.mday,
    .int t.hour, .int t.min, .int t.sec]

/-! ### Addresses in memory -/

/-- `n` octets of a socket address, from `off` on. -/
def member (n : Nat) (src : Octets storageSize) (off : Nat) : Octets n :=
  octetsAt n (src.toList.getD · 0) off

/-- `ss_family`, which is in host order. -/
def ssFamily (src : Octets storageSize) : Nat :=
  (member 2 src 0 0).toNat + 256 * (member 2 src 0 1).toNat

/-- `sin_port` and `sin6_port` as they are loaded. -/
def sinPort (src : Octets storageSize) : Nat :=
  (member 2 src 2 0).toNat + 256 * (member 2 src 2 1).toNat

/-- The text that `inet_ntop` makes of the octets it gets, 4 for `AF_INET` and 16 for `AF_INET6`. -/
abbrev InetNtop : Type := Octets 4 ⊕ Octets 16 → List Char

/-- A text stands for one address, has no bracket in it, and fits into `client_ip` and
`server_ip`. -/
structure Renders (ntop : InetNtop) : Prop where
  injective : Function.Injective ntop
  plain : ∀ a, ']' ∉ ntop a
  fits : ∀ a, (ntop a).length < 40

/-- `inet_ntop` into an array of `size` characters, which is left alone when the text does not
fit. -/
def inetNtop (ntop : InetNtop) (a : Octets 4 ⊕ Octets 16) (dst : List Char) (size : Nat) :
    List Char :=
  if (ntop a).length < size then ntop a else dst

/-- `get_ip_port`: what it leaves in `ip_dst` and `port_dst`. -/
def getIpPort (ntop : InetNtop) (ipDst : List Char) (portDst : Nat) (src : Octets storageSize) :
    List Char × Nat :=
  if ssFamily src = afInet then (inetNtop ntop (.inl (member 4 src 0)) ipDst 40, sinPort src)
  else if ssFamily src = afInet6 then (inetNtop ntop (.inr (member 16 src 0)) ipDst 40, sinPort src)
  else (ipDst, portDst)

/-- The line that `write_access` prints. `uninit` is what `client_port` and `server_port` hold
before anything is stored there. -/
def writeAccessLine (ntop : InetNtop) (uninit : UInt16 × UInt16) (t : Tm) (code : UInt8)
    (client server : Octets storageSize) : List Char :=
  let c := getIpPort ntop [] uninit.1.toNat client
  let s := if ssFamily server ≠ 0 then getIpPort ntop [] uninit.2.toNat server
    else ([], uninit.2.toNat)
  stamp t ++ printf (accessFormat code) [.str c.1, .int c.2, .str s.1, .int s.2] ++ ['\n']

/-- What is printed for a record of the access log. -/
def Line.printed (ntop : InetNtop) (uninit : UInt16 × UInt16) (t : Tm) : Line → Option (List Char)
  | .access code client server => some (writeAccessLine ntop uninit t code client server)
  | _ => none

/-- The lines printed when `logger_th` reads the message of `log_access` to its end. -/
def printedFor (ntop : InetNtop) (uninit : UInt16 × UInt16) (t : Tm) (code : UInt8)
    (client server : Octets storageSize) : List (List Char) :=
  match Lib.moves id loggerTh (List.replicate 5 .read)
    ⟨logAccess code client server, .polling, []⟩ with
  | .ok w => w.out.filterMap fun r => r.line.printed ntop uninit t
  | .error _ => []

/-! ### What a line is to say -/

/-- The IP address that is stored. -/
def addressOf (src : Octets storageSize) : Option (Octets 4 ⊕ Octets 16) :=
  if ssFamily src = afInet then some (.inl (member 4 src 4))
  else if ssFamily src = afInet6 then some (.inr (member 16 src 8))
  else none

/-- The port in host order. -/
def portOf (src : Octets storageSize) : Nat :=
  256 * (member 2 src 2 0).toNat + (member 2 src 2 1).toNat

/-- What a line is to say of an end: the text of its address, and its port. There is nothing to say
of an end that is not set. -/
def ipPort (ntop : InetNtop) (uninit : Nat) (src : Octets storageSize) : List Char × Nat :=
  match addressOf src with
  | some a => (ntop a, portOf src)
  | none => ([], uninit)

/-- One line is printed, which is the format with the addresses and ports of both ends. -/
def Identifies (ntop : InetNtop) (code : UInt8) (client server : Octets storageSize) : Prop :=
  ∀ (uninit : UInt16 × UInt16) (t : Tm),
    let c := ipPort ntop uninit.1.toNat client
    let s := ipPort ntop uninit.2.toNat server
    printedFor ntop uninit t code client server =
      [stamp t ++ printf (accessFormat code) [.str c.1, .int c.2, .str s.1, .int s.2] ++ ['\n']]

/-- The address repeats what stands in front of it: family, port, and for IPv6 the flow label, with
the second half of the address like the first. The port has two equal octets. -/
def Coincides (src : Octets storageSize) : Prop :=
  (ssFamily src = afInet → (member 4 src 4).toList = 2 :: 0 :: (member 2 src 2).toList) ∧
  (ssFamily src = afInet6 →
    (member 8 src 8).toList = 10 :: 0 :: ((member 2 src 2).toList ++ (member 4 src 4).toList) ∧
      member 8 src 16 = member 8 src 8) ∧
  (addressOf src ≠ none → member 2 src 2 0 = member 2 src 2 1)

instance (src : Octets storageSize) : Decidable (Coincides src) :=
  inferInstanceAs (Decidable (_ ∧ _ ∧ _))

/-- The format has a place for the server. -/
def PrintsServer (code : UInt8) : Prop := 11 ≤ code.toNat

instance : DecidablePred PrintsServer := fun _ => inferInstanceAs (Decidable (_ ≤ _))

/-- Family and port are the same, and for IPv6 the flow label and the first half of the address. -/
def SameHead (a b : Octets storageSize) : Prop :=
  ssFamily a = ssFamily b ∧ member 2 a 2 = member 2 b 2 ∧
    (ssFamily a = afInet6 → member 12 a 4 = member 12 b 4)

/-! ### Formats taken apart -/

section Formats

variable {code : UInt8} {c c' s s' r r' tail : List Char} {p p' q q' : Nat} {d d' : Char}

/-- "[%s]:%d". -/
def endFormat : List Char := ['[', '%', 's', ']', ':', '%', 'd']

/-- A test of every format, by its characters. -/
theorem of_accessFormats (test : List Char → Bool) (formats : List String)
    (h : ∀ f ∈ formats, test f.toList = true) {i : Nat} (hi : i < formats.length) :
    test (formats.getD i "").toList = true := by
  rw [List.getD_eq_getElem _ _ hi]
  exact h _ (List.getElem_mem hi)

theorem accessFormat_head (hcode : code.toNat < accessCount) :
    ∃ tail, accessFormat code = endFormat ++ '-' :: tail := by
  have h : ∀ f ∈ accessFormats, (endFormat ++ ['-']).isPrefixOf f.toList = true := by
    simp only [accessFormats, List.forall_mem_cons]
    refine ⟨?_, ?_, ?_, ?_, ?_, ?_, ?_, ?_, ?_, ?_, ?_, ?_, ?_, ?_, nofun⟩
    all_goals exact (congrArg (endFormat ++ ['-']).isPrefixOf String.toList_ofList).trans rfl
  obtain ⟨tail, htail⟩ := List.isPrefixOf_iff_prefix.mp (of_accessFormats _ _ h hcode)
  exact ⟨tail, htail.symm.trans (by simp)⟩

/-- Eleven formats have a place for the client only. -/
theorem accessFormat_client (hclient : ¬ PrintsServer code)
    (hformat : accessFormat code = endFormat ++ tail) : '%' ∉ tail := by
  have h : ∀ f ∈ accessFormats.take 11, !(f.toList.drop 7).contains '%' := by
    simp only [accessFormats, List.take_succ_cons, List.take_zero, List.forall_mem_cons]
    refine ⟨?_, ?_, ?_, ?_, ?_, ?_, ?_, ?_, ?_, ?_, ?_, nofun⟩
    all_goals
      exact (congrArg (fun l : List Char =>
        !(l.drop 7).contains '%') String.toList_ofList).trans rfl
  have hlt : code.toNat < 11 := Nat.lt_of_not_le hclient
  have htest := of_accessFormats (fun l => !(l.drop 7).contains '%') _ h hlt
  have htake : (accessFormats.take 11).getD code.toNat "" = accessFormats.getD code.toNat "" := by
    simp [hlt]
  rw [htake, show (accessFormats.getD code.toNat "").toList = _ from hformat,
    List.drop_left' (show endFormat.length = 7 from rfl)] at htest
  simpa using htest

/-- The others have one for the server behind it. -/
theorem accessFormat_server (hcode : code.toNat < accessCount) (hserver : PrintsServer code)
    (hformat : accessFormat code = endFormat ++ tail) :
    ∃ mid rest, tail = mid ++ (endFormat ++ '|' :: rest) ∧ '%' ∉ mid ∧ '%' ∉ rest := by
  let test : List Char → Bool := fun l => (endFormat ++ ['|']).isPrefixOf ((l.drop 7).drop 15) &&
    (!((l.drop 7).take 15).contains '%' && !(((l.drop 7).drop 15).drop 8).contains '%')
  have h : ∀ f ∈ accessFormats.drop 11, test f.toList = true := by
    simp only [accessFormats, List.drop_succ_cons, List.drop_zero, List.forall_mem_cons]
    refine ⟨?_, ?_, ?_, nofun⟩
    all_goals exact (congrArg test String.toList_ofList).trans rfl
  have hlt : code.toNat - 11 < (accessFormats.drop 11).length := Nat.sub_lt_sub_right hserver hcode
  have htest := of_accessFormats test _ h hlt
  have hdrop : (accessFormats.drop 11).getD (code.toNat - 11) "" =
    accessFormats.getD code.toNat "" := by
    simp [Nat.add_sub_cancel' hserver]
  rw [hdrop, show (accessFormats.getD code.toNat "").toList = _ from hformat] at htest
  simp only [test, List.drop_left' (show endFormat.length = 7 from rfl), Bool.and_eq_true] at htest
  obtain ⟨hfront, hmid, hrest⟩ := htest
  obtain ⟨rest, hback⟩ := List.isPrefixOf_iff_prefix.mp hfront
  rw [← hback, List.drop_left' (show (endFormat ++ ['|']).length = 8 from rfl)] at hrest
  refine ⟨tail.take 15, rest, ?_, by simpa using hmid, by simpa using hrest⟩
  have htail := List.take_append_drop 15 tail
  rw [← hback] at htail
  exact htail.symm.trans (by simp)

theorem printf_end (tail : List Char) (args : List Arg) :
    printf (endFormat ++ tail) (.str c :: .int p :: args) =
      '[' :: (c ++ ']' :: ':' :: (decimal p ++ printf tail args)) := rfl

/-- An end in a line can be read back. -/
theorem end_inj (hc : ']' ∉ c) (hc' : ']' ∉ c')
    (hd : ¬ d.isDigit = true) (hd' : ¬ d'.isDigit = true) :
    '[' :: (c ++ ']' :: ':' :: (decimal p ++ d :: r)) =
        '[' :: (c' ++ ']' :: ':' :: (decimal p' ++ d' :: r')) ↔
      c = c' ∧ p = p' ∧ d = d' ∧ r = r' := by
  have hplain : ∀ {l : List Char}, ']' ∉ l → ∀ x ∈ l, x ≠ ']' := fun hl x hx h => hl (h ▸ hx)
  rw [List.cons.injEq, Lib.append_cons_inj (hplain hc) (hplain hc') (not_not.mpr rfl)
    (not_not.mpr rfl),
    List.cons.injEq, Lib.append_cons_inj (Lib.decimal_digits p) (Lib.decimal_digits p') hd hd',
    Lib.decimal_inj]
  simp

/-- What a line shows can be read back from it. -/
theorem line_inj (hcode : code.toNat < accessCount) (hc : ']' ∉ c) (hc' : ']' ∉ c') (hs : ']' ∉ s)
    (hs' : ']' ∉ s') :
    printf (accessFormat code) [.str c, .int p, .str s, .int q] =
        printf (accessFormat code) [.str c', .int p', .str s', .int q'] ↔
      (c = c' ∧ p = p') ∧ (PrintsServer code → s = s' ∧ q = q') := by
  obtain ⟨tail, hformat⟩ := accessFormat_head hcode
  have hdash : ∀ args : List Arg, printf ('-' :: tail) args = '-' :: printf tail args := fun args =>
    Lib.printf_cons (by decide) tail
  rw [hformat, printf_end, printf_end, hdash, hdash, end_inj hc hc' (by decide) (by decide)]
  by_cases hserver : PrintsServer code
  · obtain ⟨mid, rest, hparts, hmid, hrest⟩ := accessFormat_server hcode hserver hformat
    have hprint : ∀ (s : List Char) (q : Nat), '-' :: printf tail [.str s, .int q] =
        mid ++ '[' :: (s ++ ']' :: ':' :: (decimal q ++ '|' :: rest)) := by
      intro s q
      rw [← hdash, hparts, Lib.printf_append hmid, printf_end,
        Lib.printf_cons (by decide), Lib.printf_text hrest]
    have hboth : printf tail [.str s, .int q] = printf tail [.str s', .int q'] ↔
      s = s' ∧ q = q' := by
      rw [← List.cons_inj_right '-', hprint, hprint, List.append_right_inj,
        end_inj hs hs' (by decide) (by decide)]
      simp
    simp [hboth, hserver, and_assoc]
  · have hplain : '%' ∉ tail := by
      have h := accessFormat_client hserver hformat
      rw [List.mem_cons, not_or] at h
      exact h.2
    simp [Lib.printf_text hplain, hserver]

end Formats

/-! ### The octets that are shown -/

section Shown

variable {ntop : InetNtop} {src a b : Octets storageSize} {uninit : Nat}

/-- The octets whose text `get_ip_port` stores. -/
def shownOf (src : Octets storageSize) : Option (Octets 4 ⊕ Octets 16) :=
  if ssFamily src = afInet then some (.inl (member 4 src 0))
  else if ssFamily src = afInet6 then some (.inr (member 16 src 0))
  else none

theorem getIpPort_eq (hntop : Renders ntop) : getIpPort ntop [] uninit src =
    match shownOf src with
    | some a => (ntop a, sinPort src)
    | none => ([], uninit) := by
  have hstored : ∀ a, inetNtop ntop a [] 40 = ntop a := fun a => if_pos (hntop.fits a)
  unfold getIpPort shownOf
  simp only [hstored]
  split
  · rfl
  · split <;> rfl

theorem shownOf_eq_none : shownOf src = none ↔ addressOf src = none := by
  unfold shownOf addressOf
  split
  · simp
  · split <;> simp

theorem sinPort_eq_portOf : sinPort src = portOf src ↔ member 2 src 2 0 = member 2 src 2 1 := by
  have h0 := (member 2 src 2 0).toNat_lt
  have h1 := (member 2 src 2 1).toNat_lt
  rw [← UInt8.toNat_inj, sinPort, portOf]
  omega

theorem member_eq_iff {n off off' : Nat} : member n a off = member n b off' ↔
    ∀ i < n, a.toList.getD (off + i) 0 = b.toList.getD (off' + i) 0 := by
  constructor
  · intro h i hi
    exact congrFun h ⟨i, hi⟩
  · intro h
    funext i
    exact h i.val i.isLt

/-- The octets of the family. -/
theorem ssFamily_octets {f : UInt8} (h : ssFamily src = f.toNat) :
    src.toList.getD 0 0 = f ∧ src.toList.getD 1 0 = 0 := by
  have hlow : ssFamily src = (src.toList.getD 0 0).toNat + 256 * (src.toList.getD 1 0).toNat := rfl
  have h0 := (src.toList.getD 0 0).toNat_lt
  have hf := f.toNat_lt
  rw [hlow] at h
  constructor
  · apply UInt8.toNat_inj.mp
    omega
  · apply UInt8.toNat_inj.mp
    show _ = 0
    omega

theorem toList_inj {n : Nat} {o o' : Octets n} : o.toList = o'.toList ↔ o = o' :=
  List.ofFn_injective.eq_iff

/-- Members side by side. -/
theorem member_add_eq {m n off off' : Nat} : member (m + n) a off = member (m + n) b off' ↔
    member m a off = member m b off' ∧ member n a (off + m) = member n b (off' + m) := by
  simp only [member_eq_iff]
  constructor
  · intro h
    refine ⟨fun i hi => h i (by omega), fun i hi => ?_⟩
    have hi' := h (m + i) (by omega)
    rwa [← Nat.add_assoc, ← Nat.add_assoc] at hi'
  · rintro ⟨hfront, hback⟩ i hi
    rcases Nat.lt_or_ge i m with hlt | hge
    · exact hfront i hlt
    · have hi' := hback (i - m) (by omega)
      rwa [Nat.add_assoc, Nat.add_assoc, Nat.add_sub_cancel' hge] at hi'

/-- The address is what is shown. -/
theorem coincides_inet (h : ssFamily src = afInet) :
    (member 4 src 4).toList = 2 :: 0 :: (member 2 src 2).toList ↔
      member 4 src 0 = member 4 src 4 := by
  obtain ⟨h0, h1⟩ := ssFamily_octets (f := 2) h
  have hhead : (member 4 src 0).toList = 2 :: 0 :: (member 2 src 2).toList := by
    show [src.toList.getD 0 0, src.toList.getD 1 0, _, _] = _
    rw [h0, h1]
    rfl
  rw [← hhead, toList_inj, eq_comm]

theorem coincides_inet6 (h : ssFamily src = afInet6) :
    (member 8 src 8).toList = 10 :: 0 :: ((member 2 src 2).toList ++ (member 4 src 4).toList) ∧
      member 8 src 16 = member 8 src 8 ↔ member 16 src 0 = member 16 src 8 := by
  obtain ⟨h0, h1⟩ := ssFamily_octets (f := 10) h
  have hhead : (member 8 src 0).toList =
      10 :: 0 :: ((member 2 src 2).toList ++ (member 4 src 4).toList) := by
    show [src.toList.getD 0 0, src.toList.getD 1 0, _, _, _, _, _, _] = _
    rw [h0, h1]
    rfl
  have hsplit := @member_add_eq src src 8 8 0 8
  rw [← hhead, toList_inj, eq_comm, @eq_comm _ (member 8 src 16)]
  exact hsplit.symm

/-- The condition says that the octets shown are the address, and that the port reads the same in
both orders. -/
theorem coincides_iff : Coincides src ↔
    shownOf src = addressOf src ∧ (addressOf src ≠ none → sinPort src = portOf src) := by
  unfold Coincides
  rw [sinPort_eq_portOf]
  by_cases hinet : ssFamily src = afInet
  · have hne : ¬ afInet = afInet6 := by decide
    rw [coincides_inet hinet]
    simp [shownOf, addressOf, hinet, hne]
  · by_cases hinet6 : ssFamily src = afInet6
    · have hne : ¬ afInet6 = afInet := by decide
      rw [coincides_inet6 hinet6]
      simp [shownOf, addressOf, hinet6, hne]
    · simp [shownOf, addressOf, hinet, hinet6]

/-- The family is stored in two octets. -/
theorem ssFamily_eq_iff : ssFamily a = ssFamily b ↔ member 2 a 0 = member 2 b 0 := by
  constructor
  · intro h
    have ha0 := (a.toList.getD 0 0).toNat_lt
    have hb0 := (b.toList.getD 0 0).toNat_lt
    have heq : (a.toList.getD 0 0).toNat + 256 * (a.toList.getD 1 0).toNat =
        (b.toList.getD 0 0).toNat + 256 * (b.toList.getD 1 0).toNat := h
    have h0 : a.toList.getD 0 0 = b.toList.getD 0 0 := UInt8.toNat_inj.mp (by omega)
    have h1 : a.toList.getD 1 0 = b.toList.getD 1 0 := UInt8.toNat_inj.mp (by omega)
    rw [member_eq_iff]
    intro i hi
    match i, hi with
    | 0, _ => exact h0
    | 1, _ => exact h1
  · intro h
    rw [ssFamily, ssFamily, h]

theorem ssFamily_of_addressOf (h : addressOf src ≠ none) :
    ssFamily src = afInet ∨ ssFamily src = afInet6 := by
  by_contra hno
  rw [not_or] at hno
  exact h (by simp [addressOf, hno])

/-- Two ends are shown alike when their structures begin alike. -/
theorem sameHead_iff (ha : addressOf a ≠ none) (hb : addressOf b ≠ none) :
    SameHead a b ↔ shownOf a = shownOf b := by
  have hne : ¬ afInet6 = afInet := by decide
  have hne' : ¬ afInet = afInet6 := by decide
  have hfamily : ssFamily a = ssFamily b → member 2 a 0 = member 2 b 0 := ssFamily_eq_iff.mp
  rcases ssFamily_of_addressOf ha with hinet | hinet6
  · rcases ssFamily_of_addressOf hb with hinet' | hinet6'
    · have hfour := @member_add_eq a b 2 2 0 0
      simp [SameHead, shownOf, hinet, hinet', hne', hfour, hfamily]
    · simp [SameHead, shownOf, hinet, hinet6', hne, hne']
  · rcases ssFamily_of_addressOf hb with hinet' | hinet6'
    · simp [SameHead, shownOf, hinet6, hinet', hne]
    · have hfour := @member_add_eq a b 2 2 0 0
      have hsixteen := @member_add_eq a b 4 12 0 0
      simp [SameHead, shownOf, hinet6, hinet6', hne, hfour, hsixteen, hfamily]

end Shown

/-! ### What is printed -/

section Printed

variable {ntop : InetNtop} {code : UInt8} {client server a b : Octets storageSize}

/-- The record is one line. -/
theorem printedFor_eq (hcode : code.toNat < accessCount) (uninit : UInt16 × UInt16) (t : Tm) :
    printedFor ntop uninit t code client server =
      [writeAccessLine ntop uninit t code client server] := by
  have hpoll : loggerTh .polling (logAccess code client server) =
      .ok (.type, logAccess code client server, []) := by simp [loggerTh, logAccess]
  have htype : loggerTh .type (logAccess code client server) =
      .ok (.accessCode, code :: (client.toList ++ server.toList), []) := loggerTh_type _ _
  have hread : loggerTh .accessCode (code :: (client.toList ++ server.toList)) =
      .ok (.accessClient code, client.toList ++ server.toList, []) := by simp [loggerTh]
  have hclient : loggerTh (.accessClient code) (client.toList ++ server.toList) =
      .ok (.accessServer code client, server.toList, []) := by simp [loggerTh]
  have hserver : loggerTh (.accessServer code client) server.toList =
      .ok (.type, [], [⟨fileAccess, .access code client server⟩]) := by
    have hlast := @readStorage_append [] server
    rw [List.append_nil] at hlast
    simp [loggerTh, hlast, writeAccess, hcode, Except.map]
  have hrun : Lib.moves id loggerTh (List.replicate 5 .read)
      ⟨logAccess code client server, .polling, []⟩ =
        .ok ⟨[], .type, [⟨fileAccess, .access code client server⟩]⟩ := by
    rw [List.replicate_succ, Lib.moves_read hpoll, List.replicate_succ, Lib.moves_read htype,
      List.replicate_succ, Lib.moves_read hread, List.replicate_succ, Lib.moves_read hclient,
      List.replicate_succ, Lib.moves_read hserver]
    simp [Lib.moves]
  rw [printedFor, hrun]
  rfl

/-- The pairs that the line is made of. -/
theorem writeAccessLine_eq (uninit : UInt16 × UInt16) (t : Tm) :
    writeAccessLine ntop uninit t code client server =
      stamp t ++ printf (accessFormat code)
        [.str (getIpPort ntop [] uninit.1.toNat client).1,
          .int (getIpPort ntop [] uninit.1.toNat client).2,
          .str (getIpPort ntop [] uninit.2.toNat server).1,
          .int (getIpPort ntop [] uninit.2.toNat server).2] ++ ['\n'] := by
  unfold writeAccessLine
  by_cases hset : ssFamily server = 0
  · have hnone : getIpPort ntop [] uninit.2.toNat server = ([], uninit.2.toNat) := by
      simp [getIpPort, hset, afInet, afInet6]
    simp [hset, hnone]
  · simp [hset]

/-- What is printed of an end is right where the octets coincide. -/
theorem getIpPort_eq_iff (hntop : Renders ntop) (uninit : Nat) :
    getIpPort ntop [] uninit client = ipPort ntop uninit client ↔ Coincides client := by
  rw [getIpPort_eq hntop, ipPort, coincides_iff]
  cases haddr : addressOf client with
  | none => simp [shownOf_eq_none.mpr haddr]
  | some a =>
    obtain ⟨o, ho⟩ := Option.ne_none_iff_exists'.mp fun h =>
      absurd (haddr.symm.trans (shownOf_eq_none.mp h)) nofun
    simp [ho, hntop.injective.eq_iff]

theorem getIpPort_plain (hntop : Renders ntop) (uninit : Nat) :
    ']' ∉ (getIpPort ntop [] uninit client).1 := by
  rw [getIpPort_eq hntop]
  split
  · exact hntop.plain _
  · exact List.not_mem_nil

theorem ipPort_plain (hntop : Renders ntop) (uninit : Nat) :
    ']' ∉ (ipPort ntop uninit client).1 := by
  unfold ipPort
  split
  · exact hntop.plain _
  · exact List.not_mem_nil

theorem identifies_iff (hntop : Renders ntop) (hcode : code.toNat < accessCount) :
    Identifies ntop code client server ↔
      Coincides client ∧ (PrintsServer code → Coincides server) := by
  have hline : ∀ (uninit : UInt16 × UInt16) (t : Tm),
      printedFor ntop uninit t code client server =
        [stamp t ++ printf (accessFormat code)
          [.str (ipPort ntop uninit.1.toNat client).1, .int (ipPort ntop uninit.1.toNat client).2,
            .str (ipPort ntop uninit.2.toNat server).1,
              .int (ipPort ntop uninit.2.toNat server).2] ++
          ['\n']] ↔ Coincides client ∧ (PrintsServer code → Coincides server) := by
    intro uninit t
    rw [printedFor_eq hcode, writeAccessLine_eq, List.cons.injEq, List.append_left_inj,
      List.append_right_inj, line_inj hcode (getIpPort_plain hntop _) (ipPort_plain hntop _)
        (getIpPort_plain hntop _) (ipPort_plain hntop _), ← Prod.ext_iff, ← Prod.ext_iff,
      getIpPort_eq_iff hntop, getIpPort_eq_iff hntop]
    simp
  constructor
  · intro h
    exact (hline (0, 0) ⟨0, 0, 0, 0, 0, 0⟩).mp (h _ _)
  · intro h uninit t
    exact (hline uninit t).mpr h

/-- **What the access log shows of an end.** The line for a call of `log_access` shows the address
and port of the client, and of the server where it is set and the format has a place for it, if and
only if the address repeats the beginning of the structure it is stored in and the port has two
equal octets. The address text is the same for two ends if and only if their structures begin alike:
for two IPv4 clients, if and only if they have the same port. -/
theorem access_identifies_iff (hntop : Renders ntop) :
    (∀ (code : UInt8) (client server : Octets storageSize), code.toNat < accessCount →
      (Identifies ntop code client server ↔
        Coincides client ∧ (PrintsServer code → Coincides server))) ∧
    ∀ (a b : Octets storageSize) (uninit : Nat), addressOf a ≠ none → addressOf b ≠ none →
      ((getIpPort ntop [] uninit a).1 = (getIpPort ntop [] uninit b).1 ↔ SameHead a b) := by
  refine ⟨fun code client server hcode => identifies_iff hntop hcode, fun a b uninit ha hb => ?_⟩
  rw [sameHead_iff ha hb, getIpPort_eq hntop, getIpPort_eq hntop]
  obtain ⟨o, ho⟩ := Option.ne_none_iff_exists'.mp fun h => ha (shownOf_eq_none.mp h)
  obtain ⟨o', ho'⟩ := Option.ne_none_iff_exists'.mp fun h => hb (shownOf_eq_none.mp h)
  simp [ho, ho', hntop.injective.eq_iff]

end Printed

/-! ### A text for every address -/

section WrittenOut

variable {x x' y y' : UInt8} {r r' : List Char}

def dottedQuad (a : Octets 4) : List Char :=
  printf "%d.%d.%d.%d".toList (a.toList.map fun x => .int x.toNat)

def hexGroup (x y : UInt8) : List Char :=
  [x.toNat / 16, x.toNat % 16, y.toNat / 16, y.toNat % 16].map Nat.digitChar

/-- Eight groups of four digits, with no group left out. -/
def hexGroups (a : Octets 16) : List Char :=
  [':'].intercalate ((List.finRange 8).map fun i =>
    hexGroup (a ⟨2 * i.val, by omega⟩) (a ⟨2 * i.val + 1, by omega⟩))

def writtenOut : InetNtop := Sum.elim dottedQuad hexGroups

theorem quad_inj : decimal x.toNat ++ '.' :: r = decimal x'.toNat ++ '.' :: r' ↔
    x = x' ∧ r = r' := by
  rw [Lib.append_cons_inj (Lib.decimal_digits _) (Lib.decimal_digits _) (by decide) (by decide),
    Lib.decimal_inj, UInt8.toNat_inj]
  simp

theorem digitChar_inj : ∀ m < 16, ∀ n < 16, Nat.digitChar m = Nat.digitChar n → m = n := by decide

theorem hexGroup_inj : hexGroup x y = hexGroup x' y' ↔ x = x' ∧ y = y' := by
  constructor
  · intro h
    have hx := x.toNat_lt
    have hx' := x'.toNat_lt
    have hy := y.toNat_lt
    have hy' := y'.toNat_lt
    simp only [hexGroup, List.map_cons, List.map_nil, List.cons.injEq, and_true] at h
    have h0 := digitChar_inj _ (by omega) _ (by omega) h.1
    have h1 := digitChar_inj _ (by omega) _ (by omega) h.2.1
    have h2 := digitChar_inj _ (by omega) _ (by omega) h.2.2.1
    have h3 := digitChar_inj _ (by omega) _ (by omega) h.2.2.2
    exact ⟨UInt8.toNat_inj.mp (by omega), UInt8.toNat_inj.mp (by omega)⟩
  · rintro ⟨rfl, rfl⟩
    rfl

theorem digitChar_plain : ∀ n < 16, Nat.digitChar n ≠ ':' ∧ Nat.digitChar n ≠ ']' := by decide

theorem hexGroup_plain : ∀ c ∈ hexGroup x y, c ≠ ':' ∧ c ≠ ']' := by
  intro c hc
  have hx := x.toNat_lt
  have hy := y.toNat_lt
  obtain ⟨n, hn, rfl⟩ := List.mem_map.mp hc
  have hlt : n < 16 := by
    simp only [List.mem_cons, List.not_mem_nil, or_false] at hn
    omega
  exact digitChar_plain n hlt

theorem dottedQuad_eq (a : Octets 4) : dottedQuad a =
    decimal (a 0).toNat ++ '.' :: (decimal (a 1).toNat ++ '.' :: (decimal (a 2).toNat ++
      '.' :: (decimal (a 3).toNat ++ []))) := rfl

theorem hexGroups_eq (a : Octets 16) : hexGroups a =
    hexGroup (a 0) (a 1) ++ ':' :: (hexGroup (a 2) (a 3) ++ ':' :: (hexGroup (a 4) (a 5) ++
      ':' :: (hexGroup (a 6) (a 7) ++ ':' ::
        (hexGroup (a 8) (a 9) ++ ':' :: (hexGroup (a 10) (a 11) ++
        ':' :: (hexGroup (a 12) (a 13) ++ ':' :: hexGroup (a 14) (a 15))))))) := rfl

theorem dottedQuad_injective : Function.Injective dottedQuad := by
  intro a b h
  rw [dottedQuad_eq, dottedQuad_eq] at h
  simp only [quad_inj, List.append_nil, Lib.decimal_inj, UInt8.toNat_inj] at h
  funext i
  fin_cases i <;> simp [h]

theorem hexGroups_injective : Function.Injective hexGroups := by
  intro a b h
  have hplain : ∀ c : Octets 16, ∀ l ∈ (List.finRange 8).map (fun i =>
      hexGroup (c ⟨2 * i.val, by omega⟩) (c ⟨2 * i.val + 1, by omega⟩)), ':' ∉ l := by
    intro c l hl hcolon
    obtain ⟨i, -, rfl⟩ := List.mem_map.mp hl
    exact (hexGroup_plain ':' hcolon).1 rfl
  have hgroups := Lib.intercalate_inj (by simp) (by simp) (hplain a) (hplain b) h
  funext j
  -- Octet `j` lies in group `j / 2`.
  have hpair := List.map_inj_left.mp hgroups ⟨j.val / 2, by omega⟩ (List.mem_finRange _)
  obtain ⟨hfirst, hsecond⟩ := hexGroup_inj.mp hpair
  rcases Nat.mod_two_eq_zero_or_one j.val with hj | hj
  · have heq : (⟨2 * (j.val / 2), by omega⟩ : Fin 16) = j := Fin.ext (by show 2 * _ = _; omega)
    rwa [heq] at hfirst
  · have heq : (⟨2 * (j.val / 2) + 1, by omega⟩ : Fin 16) = j :=
      Fin.ext (by show 2 * _ + 1 = _; omega)
    rwa [heq] at hsecond

theorem dottedQuad_plain (a : Octets 4) : ∀ c ∈ dottedQuad a, c ≠ ':' ∧ c ≠ ']' := by
  intro c hc
  have hdigit : ∀ n : Nat, c ∈ decimal n → c ≠ ':' ∧ c ≠ ']' := by
    intro n hmem
    have hd := Lib.decimal_digits n c hmem
    constructor <;> rintro rfl <;> exact absurd hd (by decide)
  rw [dottedQuad_eq] at hc
  simp only [List.mem_append, List.mem_cons, List.not_mem_nil, or_false] at hc
  rcases hc with hc | rfl | hc | rfl | hc | rfl | hc
  · exact hdigit _ hc
  · decide
  · exact hdigit _ hc
  · decide
  · exact hdigit _ hc
  · decide
  · exact hdigit _ hc

theorem dottedQuad_length (a : Octets 4) : (dottedQuad a).length < 40 := by
  have hlen : ∀ x : UInt8, (decimal x.toNat).length ≤ 3 := by
    intro x
    have hx := x.toNat_lt
    rw [Lib.decimal_natCast]
    exact (Nat.length_toDigits_le_iff (by decide) (by decide)).mpr (by omega)
  have h0 := hlen (a 0)
  have h1 := hlen (a 1)
  have h2 := hlen (a 2)
  have h3 := hlen (a 3)
  rw [dottedQuad_eq]
  simp only [List.length_append, List.length_cons, List.length_nil]
  omega

theorem writtenOut_renders : Renders writtenOut where
  injective := by
    have hcolon : ∀ a, ':' ∈ hexGroups a := fun a => by simp [hexGroups_eq]
    have happart : ∀ a b, dottedQuad a ≠ hexGroups b := fun a b h =>
      (dottedQuad_plain a ':' (h ▸ hcolon b)).1 rfl
    intro a b h
    cases a with
    | inl a =>
      cases b with
      | inl b => exact congrArg Sum.inl (dottedQuad_injective h)
      | inr b => exact absurd h (happart a b)
    | inr a =>
      cases b with
      | inl b => exact absurd h.symm (happart b a)
      | inr b => exact congrArg Sum.inr (hexGroups_injective h)
  plain := by
    rintro (a | a) h
    · exact (dottedQuad_plain a ']' h).2 rfl
    · have hgroup : ∀ x y : UInt8, ']' ∉ hexGroup x y :=
        fun x y hmem => (hexGroup_plain ']' hmem).2 rfl
      simp [writtenOut, hexGroups_eq, hgroup] at h
  fits := by
    rintro (a | a)
    · exact dottedQuad_length a
    · show (hexGroups a).length < 40
      rw [hexGroups_eq]
      simp [hexGroup]

/-- A socket address in cleared memory. -/
def storageOf (bytes : List UInt8) : Octets storageSize := fun i => bytes.getD i.val 0

/-- A client at 2.0.7.7, port 1799, is shown as it is. -/
theorem access_identifies_typed :
    Identifies writtenOut 0 (storageOf [2, 0, 7, 7, 2, 0, 7, 7]) (storageOf []) :=
  ((access_identifies_iff writtenOut_renders).1 0 _ _ (by decide)).mpr (by decide)

/-- A client at 192.0.2.1, port 1080, is shown as 2.0.4.56, port 14340. -/
theorem not_access_identifies : ¬ ∀ ntop, Renders ntop →
    ∀ (code : UInt8) (client server : Octets storageSize), code.toNat < accessCount →
      addressOf client ≠ none → Identifies ntop code client server := by
  intro h
  have hall := h writtenOut writtenOut_renders 0 (storageOf [2, 0, 4, 56, 192, 0, 2, 1])
    (storageOf []) (by decide) (by decide)
  exact absurd ((identifies_iff writtenOut_renders (by decide)).mp hall).1 (by decide)

end WrittenOut

end Socksprox.Logger
