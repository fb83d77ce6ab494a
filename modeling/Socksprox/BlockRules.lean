import Socksprox.AddressKeys
import Mathlib.Data.Fin.VecNotation

/-!
What a block rule's value comes to. Its mask is read by `atoi`, which takes any text for a number,
and the failure of `firewall_iton` for a number out of range goes unnoticed in `link_blocks`.
-/

namespace Socksprox

open Lib

/-! ### Decimal numbers -/

/-- The number that a text writes, if it is decimal digits only. -/
def decimal? (text : List UInt8) : Option Nat :=
  if text ≠ [] ∧ text.all isDigit = true then some (digitsValue text) else none

section Numbers

variable {text rest : List UInt8} {n : Nat}

theorem decimal?_eq_some (h : decimal? text = some n) :
    text ≠ [] ∧ (∀ c ∈ text, isDigit c = true) ∧ digitsValue text = n := by
  rw [decimal?] at h
  split at h
  · rename_i hdigits
    exact ⟨hdigits.1, List.all_eq_true.mp hdigits.2, Option.some.inj h⟩
  · cases h

theorem digit_plain {c : UInt8} (h : isDigit c = true) :
    isSpace c = false ∧ c ≠ 0x2D ∧ c ≠ 0x2B := by
  have hlow : 0x30 ≤ c := by
    rw [isDigit, Bool.and_eq_true] at h
    simpa using h.1
  have hnat : 0x30 ≤ c.toNat := UInt8.le_iff_toNat_le.mp hlow
  refine ⟨?_, ?_, ?_⟩
  · rw [isSpace, Bool.or_eq_false_iff]
    constructor
    · rw [beq_eq_false_iff_ne]
      rintro rfl
      exact absurd hnat (by decide)
    · rw [Bool.and_eq_false_iff]
      right
      rw [decide_eq_false_iff_not, UInt8.le_iff_toNat_le]
      have : (0x0D : UInt8).toNat = 0x0D := rfl
      omega
  · rintro rfl
    exact absurd hnat (by decide)
  · rintro rfl
    exact absurd hnat (by decide)

/-- A number that fits into an int is read as it is. -/
theorem atoi_decimal (h : decimal? text = some n) (hsmall : n < 2 ^ 31) :
    atoi (text ++ charNul :: rest) = n := by
  obtain ⟨hne, hdigits, hvalue⟩ := decimal?_eq_some h
  obtain ⟨d, ds, rfl⟩ := List.exists_cons_of_ne_nil hne
  obtain ⟨hspace, hminus, hplus⟩ := digit_plain (hdigits d List.mem_cons_self)
  have htaken : ((d :: ds) ++ charNul :: rest).takeWhile isDigit = d :: ds := by
    rw [List.takeWhile_append_of_pos hdigits, List.takeWhile_cons_of_neg (by decide),
      List.append_nil]
  have hstart : ((d :: ds) ++ charNul :: rest).dropWhile isSpace =
    (d :: ds) ++ charNul :: rest := by
    rw [List.cons_append, List.dropWhile_cons_of_neg (by simp [hspace])]
  have hlong : strtol ((d :: ds) ++ charNul :: rest) = min (n : Int) (2 ^ 63 - 1) := by
    rw [strtol, hstart]
    split
    · rename_i heq
      exact absurd (List.cons.inj heq).1 hminus
    · rename_i heq
      exact absurd (List.cons.inj heq).1 hplus
    · rw [htaken, hvalue]
  rw [atoi, hlong, Int.min_eq_left (by omega), Int.bmod_eq_of_le (by omega) (by omega)]

end Numbers

/-! ### The rules of a value -/

/-- The settings have one more rule, in front, and it blocks the network that the value writes. -/
def StoredAsWritten (host : Host) (v : List UInt8) (configs configs' : FileConfigs) : Prop :=
  ∃ (name mask : List UInt8) (ai : AddrInfo) (n : Network) (rule : BlockaddrLl),
    cutAt charSlash v = some (name, mask) ∧
    ai ∈ ((host.getaddrinfo ⟨name, none⟩).getD []).head? ∧ n.ai = ai ∧ decimal? mask = some n.len ∧
    (∀ a, rule.Covers a ↔ n.Contains a) ∧
    configs' = { configs with blockHead := rule :: configs.blockHead }

/-- On this host a value is stored as the one rule that it writes, or is an error that changes
nothing. -/
def RefusesInvalid (host : Host) (setting : Setting) : Prop :=
  ∀ configs, wp (storeConfig host setting configs)
    (fun r _ => r.1 = 0 ∧ StoredAsWritten host (cString setting.val) configs r.2 ∨
      r.1 ≠ 0 ∧ r.2 = configs)
    (fun _ _ => False) []

/-- The value is refused before its mask is looked at, or it has a mask that its rule is given. -/
def MaskMeant (host : Host) (v : List UInt8) : Prop :=
  ∀ name mask, cutAt charSlash v = some (name, mask) → host.malloc 0 = true → name.length ≤ 39 →
    name.length ≠ 39 ∧ ∀ ai ∈ ((host.getaddrinfo ⟨name, none⟩).getD []).head?,
      host.malloc 1 = true → ∃ n : Network, n.ai = ai ∧ decimal? mask = some n.len ∧ ¬ n.IsInetAny

section Rules

variable {host : Host} {setting : Setting} {ai : AddrInfo} {mask : Int}
  {head : List BlockaddrLl} {r : Int × List BlockaddrLl}

/-- What is linked is reported as linked. -/
theorem linkBlocks_ok (h : linkBlocks true (some ai) mask head = .ok r) : r.1 = 0 := by
  rw [linkBlocks, if_pos rfl] at h
  cases hiton : firewallIton .cleared ai.aiFamily mask with
  | error e => simp [hiton, Except.map] at h
  | ok netmask =>
    rw [hiton] at h
    cases h
    rfl

theorem linkBlocks_memory : linkBlocks false (some ai) mask head = .ok (-1, head) := rfl

theorem Network.len_lt (n : Network) : n.len < 2 ^ 31 := by
  cases n with
  | inet port addr len hlen => exact lt_of_le_of_lt hlen (by decide)
  | inet6 port addr len hlen => exact lt_of_le_of_lt hlen (by decide)

/-- **Block rules are refused or stored as they are written only with a mask in range that is not
0 for IPv4.** Take any value of a block key. On a host that finds no address for an empty name,
the value is stored as the one rule it writes, or is an error that leaves the rules as they were, if
and only if memory runs out, or it has no slash, or its address is refused or longer than 39
characters, or it is not just 39 characters long and the mask is a decimal number of at most 128
for IPv6, and for IPv4 of at most 32 that is not 0. -/
theorem refuses_invalid_iff (hkey : cString setting.key = AddressKey.block.name)
    (hval : Terminated setting.val) (hempty : host.RefusesEmpty) :
    RefusesInvalid host setting ↔ MaskMeant host (cString setting.val) := by
  obtain ⟨i, hi, hle, hcut⟩ := exists_cut hval charSlash
  obtain ⟨rest, hlist⟩ := toList_of_terminated hval
  have hmask : i < (cString setting.val).length →
      setting.val.toList.drop (i + 1) = (cString setting.val).drop (i + 1) ++ charNul :: rest := by
    intro hlt
    rw [hlist, List.drop_append_of_le_length hlt]
  constructor
  · intro h name mask hsome hmalloc hshort
    obtain ⟨hnone, -⟩ | ⟨hsome', hinside⟩ := hcut
    · rw [hnone] at hsome
      cases hsome
    rw [hsome'] at hsome
    obtain ⟨rfl, rfl⟩ := Prod.mk.inj (Option.some.inj hsome)
    rw [List.length_take_of_le hle] at hshort ⊢
    have hmemory : ¬ (39 < i ∨ host.malloc 0 = false) := by
      simp [hmalloc]
      omega
    have hrun := h .cleared
    rw [storeConfig_eq hkey, AddressKey.store, wp_bind, wp_storeBlock hval _ hi hle,
      if_neg hmemory] at hrun
    have hnot : i ≠ 39 := by
      intro hfull
      rw [if_pos hfull] at hrun
      exact hrun
    refine ⟨hnot, fun ai hai hnode => ?_⟩
    obtain ⟨rest', hres⟩ := List.head?_eq_some_iff.mp hai
    rw [if_neg hnot, hres] at hrun
    simp only [hnode] at hrun
    cases hlink : linkBlocks true (some ai) (atoi (setting.val.toList.drop (i + 1)))
        FileConfigs.cleared.blockHead with
    | error f =>
      rw [hlink, wp_lift_error] at hrun
      exact hrun.elim
    | ok r =>
      rw [hlink, wp_lift_ok, wp_pure] at hrun
      rcases hrun with ⟨-, name, mask, ai', n, rule, hcut, hai', hn, hdecimal, -⟩ | ⟨hret, -⟩
      · rw [hsome'] at hcut
        obtain ⟨rfl, rfl⟩ := Prod.mk.inj (Option.some.inj hcut)
        obtain rfl : ai = ai' := Option.some.inj (hai.symm.trans hai')
        refine ⟨n, hn, hdecimal, fun hany => ?_⟩
        rw [hmask hinside, atoi_decimal hdecimal n.len_lt, ← hn, linkBlocks_any hany] at hlink
        cases hlink
      · exact absurd (congrArg failure (linkBlocks_ok hlink)) hret
  · intro h configs
    have hrefused : ∀ {lookups : List Lookup},
        wp (pure (failure (-1), { configs with blockHead := configs.blockHead }))
          (fun r _ =>
            r.1 = 0 ∧ StoredAsWritten host (cString setting.val) configs r.2 ∨
              r.1 ≠ 0 ∧ r.2 = configs)
          (fun (_ : ConfigFault) _ => False) lookups :=
            (wp_pure _).mpr (.inr ⟨by simp [failure], rfl⟩)
    rw [storeConfig_eq hkey, AddressKey.store, wp_bind, wp_storeBlock hval _ hi hle]
    split
    · exact hrefused
    · rename_i hmemory
      obtain ⟨hlong, hmalloc⟩ := not_or.mp hmemory
      rcases hcut with ⟨hnone, rfl⟩ | ⟨hsome, hinside⟩
      · rw [if_neg (by decide), List.take_zero, hempty]
        exact hrefused
      · obtain ⟨hnot, hmeant⟩ := h _ _ hsome (by simpa using hmalloc)
          (by rw [List.length_take_of_le hle]; omega)
        rw [List.length_take_of_le hle] at hnot
        rw [if_neg hnot]
        cases hres : (host.getaddrinfo ⟨(cString setting.val).take i, none⟩).getD [] with
        | nil => exact hrefused
        | cons ai rest' =>
          cases hnode : host.malloc 1 with
          | false =>
            simp only [linkBlocks_memory, wp_lift_ok]
            exact hrefused
          | true =>
            obtain ⟨n, hn, hdecimal, hany⟩ := hmeant ai (by rw [hres]; rfl) hnode
            subst hn
            simp only [hmask hinside, atoi_decimal hdecimal n.len_lt, linkBlocks_network hany,
              wp_lift_ok, wp_pure]
            exact .inl ⟨rfl, _, _, _, n, n.rule, hsome, by rw [hres]; rfl, rfl, hdecimal,
              fun a => Network.covers_iff hany, rfl⟩

end Rules

/-- A host on which every name has one address. -/
def Host.always (a : SockAddr) : Host :=
  ⟨fun l => if l.node = [] then none else some [⟨a⟩], fun _ => true, fun _ _ => 0⟩

/-- 10.0.0.0. -/
def tenNet : SockAddr := .inet ![0, 0] ![10, 0, 0, 0]

/-- The parts of the value of a block key. -/
example : cutAt charSlash (cString (settingOf "block" "10.0.0.0/8").val) =
    some (typed "10.0.0.0", typed "8") := by
  decide +kernel

theorem refuses_invalid_typed :
    RefusesInvalid (.always tenNet) (settingOf "block" "10.0.0.0/8") := by
  refine (refuses_invalid_iff (by decide +kernel) (by decide +kernel) fun _ => rfl).mpr ?_
  intro name mask hcut _ _
  have hparts : cutAt charSlash (cString (settingOf "block" "10.0.0.0/8").val) =
      some (typed "10.0.0.0", typed "8") := by
    decide +kernel
  rw [hparts] at hcut
  obtain ⟨rfl, rfl⟩ := Prod.mk.inj (Option.some.inj hcut)
  refine ⟨by decide +kernel, fun ai hai _ => ?_⟩
  have hone : (((Host.always tenNet).getaddrinfo ⟨typed "10.0.0.0", none⟩).getD []).head? =
      some ⟨tenNet⟩ := by
    decide +kernel
  obtain rfl := Option.some.inj (hone.symm.trans hai)
  exact ⟨.inet ![0, 0] _ 8 (by decide), rfl, by decide +kernel, fun h => absurd h.2 (by decide)⟩

/-- A mask out of range: the rule is stored with an empty mask, and blocks all of IPv4. -/
theorem not_refuses_invalid : ¬ ∀ (host : Host) (setting : Setting), host.RefusesEmpty →
    cString setting.key = AddressKey.block.name → Terminated setting.val →
    RefusesInvalid host setting := by
  intro h
  have hrun := h (.always tenNet) (settingOf "block" "10.0.0.0/33") (fun _ => rfl)
    (by decide +kernel)
    (by decide +kernel) .cleared
  have hret : (match storeConfig (.always tenNet) (settingOf "block" "10.0.0.0/33") .cleared [] with
      | .ok r _ => r.1
      | .fault _ _ => -1) = 0 := by
    decide +kernel
  have hparts : cutAt charSlash (cString (settingOf "block" "10.0.0.0/33").val) =
      some (typed "10.0.0.0", typed "33") := by
    decide +kernel
  have hone : (((Host.always tenNet).getaddrinfo ⟨typed "10.0.0.0", none⟩).getD []).head? =
      some ⟨tenNet⟩ := by
    decide +kernel
  cases hstored : storeConfig (.always tenNet) (settingOf "block" "10.0.0.0/33") .cleared [] with
  | fault f log =>
    rw [wp_eq_fault hstored] at hrun
    exact hrun
  | ok r log =>
    rw [wp_eq_ok hstored] at hrun
    rw [hstored] at hret
    rcases hrun with ⟨-, name, mask, ai, n, rule, hcut, hai, hn, hdecimal, -⟩ | ⟨hne, -⟩
    · rw [hparts] at hcut
      obtain ⟨rfl, rfl⟩ := Prod.mk.inj (Option.some.inj hcut)
      obtain rfl := Option.some.inj (hone.symm.trans hai)
      have hlen : n.len = 33 := Option.some.inj (hdecimal.symm.trans (by decide +kernel))
      cases n with
      | inet port addr len hle =>
        obtain rfl : len = 33 := hlen
        exact absurd hle (by decide)
      | inet6 port addr len hle => cases hn
    · exact hne hret

end Socksprox
