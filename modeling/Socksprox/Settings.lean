import Socksprox.ConfigLines

/-!
The lines that hold a setting. What is written as a key, separators and a value is read back as
that key and that value; and any line is read within the arrays, and handed on as strings, exactly
when its key comes to an end in time.
-/

namespace Socksprox

open Lib (ScanFault)

/-! ### Strings -/

/-- The array holds a string. -/
def Terminated {n : Nat} (a : Octets n) : Prop := charNul ∈ a.toList

instance {n : Nat} : DecidablePred (Terminated (n := n)) := fun _ =>
  inferInstanceAs (Decidable (_ ∈ _))

section Strings

variable {n : Nat} {bytes : List UInt8}

theorem zeroFilled_toList (hfit : bytes.length ≤ n) :
    (zeroFilled n bytes).toList = bytes ++ List.replicate (n - bytes.length) 0 := by
  refine List.ext_getElem (by simp; omega) fun i hi hi' => ?_
  simp only [Octets.toList, List.getElem_ofFn, zeroFilled]
  rcases Nat.lt_or_ge i bytes.length with hlt | hge
  · rw [List.getElem_append_left hlt]
    exact List.getD_eq_getElem _ _ hlt
  · rw [List.getElem_append_right hge, List.getElem_replicate]
    exact List.getD_eq_default _ _ hge

theorem zeroFilled_terminated (hnul : charNul ∈ bytes) (hfit : bytes.length ≤ n) :
    Terminated (zeroFilled n bytes) := by
  rw [Terminated, zeroFilled_toList hfit]
  exact List.mem_append_left _ hnul

/-- An array that is full of other characters holds none. -/
theorem zeroFilled_not_terminated (hnul : charNul ∉ bytes) (hfull : bytes.length = n) :
    ¬ Terminated (zeroFilled n bytes) := by
  rw [Terminated, zeroFilled_toList hfull.le]
  simp [hfull, hnul]

theorem zeroFilled_cString (hnul : charNul ∉ bytes) (hfit : bytes.length < n) :
    cString (zeroFilled n (bytes ++ [charNul])) = bytes := by
  have hplain : ∀ c ∈ bytes, (c != charNul) = true := fun c hc =>
    bne_iff_ne.mpr fun h => hnul (h ▸ hc)
  rw [cString, zeroFilled_toList (by simp; omega), List.append_assoc,
    List.takeWhile_append_of_pos hplain]
  simp

end Strings

/-! ### Written settings -/

/-- A setting as it may be written in a line, between blanks. -/
structure SettingLine where
  lead : List UInt8
  key : List UInt8
  separator : List UInt8
  val : List UInt8
  trail : List UInt8
  lead_blank : ∀ c ∈ lead, isBlank c = true
  key_ne : key ≠ []
  key_fits : key.length < keySize
  key_plain : ∀ c ∈ key, isSeparator c = false ∧ isLineEnd c = false
  key_starts : ∀ c ∈ key.head?, c ≠ charHash ∧ c ≠ charSemicolon
  separator_ne : separator ≠ []
  separator_kind : ∀ c ∈ separator, isSeparator c = true
  val_ne : val ≠ []
  val_plain : ∀ c ∈ val, isValueEnd c = false
  val_starts : ∀ c ∈ val.head?, c ≠ charEquals
  trail_blank : ∀ c ∈ trail, isBlank c = true

/-- The line, with its newline. -/
def SettingLine.text (l : SettingLine) : List UInt8 :=
  l.lead ++ (l.key ++ (l.separator ++ (l.val ++ (l.trail ++ [charNewline]))))

/-- What `store_config` is to be called with. -/
def SettingLine.setting (l : SettingLine) : Setting :=
  ⟨zeroFilled keySize (l.key ++ [charNul]), zeroFilled valSize (l.val ++ [charNul])⟩

namespace SettingLine

variable {l : SettingLine} {residue : List UInt8}

theorem key_nul (l : SettingLine) : charNul ∉ l.key := fun h =>
  absurd (l.key_plain _ h).2 (by decide)

theorem val_nul (l : SettingLine) : charNul ∉ l.val := fun h => absurd (l.val_plain _ h) (by decide)

theorem isBlank_isSeparator {c : UInt8} (h : isSeparator c = false) : isBlank c = false := by
  simp only [isSeparator, isBlank, Bool.or_eq_false_iff] at h ⊢
  exact h.1

/-- Each scanner takes its piece of the line. -/
theorem parsed (hfit : l.text.length < lineSize) :
    Parsed (l.text ++ charNul :: residue) (some l.setting) := by
  obtain ⟨k, ks, hkey⟩ := List.exists_cons_of_ne_nil l.key_ne
  obtain ⟨s, ss, hsep⟩ := List.exists_cons_of_ne_nil l.separator_ne
  obtain ⟨v, vs, hval⟩ := List.exists_cons_of_ne_nil l.val_ne
  have hk : isSeparator k = false ∧ isLineEnd k = false := l.key_plain k (by simp [hkey])
  have hs : isSeparator s = true := l.separator_kind s (by simp [hsep])
  have hv : isValueEnd v = false := l.val_plain v (by simp [hval])
  have hv' : v ≠ charEquals := l.val_starts v (by simp [hval])
  have hvend : isLineEnd v = false ∧ isBlank v = false := by simpa [isValueEnd] using hv
  -- what is left of the line behind its value
  obtain ⟨e, rest, hrest, he⟩ : ∃ e rest, l.trail ++ charNewline :: charNul :: residue = e :: rest ∧
      isValueEnd e = true := by
    cases htrail : l.trail with
    | nil => exact ⟨_, _, rfl, rfl⟩
    | cons t ts =>
      have ht : isBlank t = true := l.trail_blank t (by simp [htrail])
      exact ⟨t, _, rfl, by simp [isValueEnd, ht]⟩
  have htext : l.text ++ charNul :: residue =
      l.lead ++ k :: (ks ++ s :: (ss ++ v :: (vs ++ e :: rest))) := by
    simp [text, hkey, hsep, hval, hrest]
  have hskip : skipWhitespace (l.text ++ charNul :: residue) =
      .ok (k :: (ks ++ s :: (ss ++ v :: (vs ++ e :: rest)))) := by
    rw [htext]
    exact Lib.skipWhile_found l.lead_blank (isBlank_isSeparator hk.1)
  have hcomment : lineComment (k :: (ks ++ s :: (ss ++ v :: (vs ++ e :: rest)))) = .ok false := by
    have hstart := l.key_starts k (by simp [hkey])
    simp [lineComment, Lib.peek, Except.map, startsComment, hk.2, hstart.1, hstart.2]
  have hgot : getKey (k :: (ks ++ s :: (ss ++ v :: (vs ++ e :: rest)))) keySize =
      .ok (k :: (ks ++ [charNul]), s :: (ss ++ v :: (vs ++ e :: rest))) :=
    Lib.token_found (fun c hc => (l.key_plain c (by simp [hkey, hc])).1) hs
      (by simpa [hkey] using l.key_fits)
  have hvalue : toValue (s :: (ss ++ v :: (vs ++ e :: rest))) = .ok (v :: (vs ++ e :: rest)) := by
    have hseps : ∀ c ∈ s :: ss, isSeparator c = true := hsep ▸ l.separator_kind
    have hplain : isSeparator v = false := by
      have hblank : (v == charSpace || v == charTab) = false := hvend.2
      simp [isSeparator, hblank, hv']
    exact Lib.skipWhile_found hseps hplain
  have hended : newLine (v :: (vs ++ e :: rest)) = .ok false := by
    simp [newLine, Lib.peek, Except.map, hvend.1]
  have hshort : vs.length + 1 < valSize := by
    simp only [text, hkey, hsep, hval, List.length_append, List.length_cons, lineSize] at hfit
    simp only [valSize]
    omega
  have htaken : getVal (v :: (vs ++ e :: rest)) valSize = .ok (v :: (vs ++ [charNul]), e :: rest) :=
    Lib.token_found (fun c hc => l.val_plain c (by simp [hval, hc])) he hshort
  have hstored : l.setting = ⟨zeroFilled keySize (k :: (ks ++ [charNul])),
      zeroFilled valSize (v :: (vs ++ [charNul]))⟩ := by
    simp [setting, hkey, hval]
  rw [hstored]
  exact .setting hskip hcomment hgot hvalue hended htaken

theorem val_fits (hfit : l.text.length < lineSize) : l.val.length < valSize := by
  simp only [text, List.length_append, lineSize] at hfit
  simp only [valSize]
  omega

end SettingLine

/-- **Settings are read back.** A setting whose line fits into the array is scanned to one call of
`store_config`, whatever the array held before, and its arrays hold the key and the value that were
written, as strings. -/
theorem settings_read_back (l : SettingLine) (hfit : l.text.length < lineSize) :
    ∃ setting : Setting,
      (∀ stack : Octets lineSize,
        parseLine (overwritten stack l.text).toList = .ok (some setting)) ∧
      Terminated setting.key ∧ cString setting.key = l.key ∧
      Terminated setting.val ∧ cString setting.val = l.val := by
  have hval := SettingLine.val_fits hfit
  have hkeyFits : (l.key ++ [charNul]).length ≤ keySize := by
    simpa using Nat.succ_le_of_lt l.key_fits
  have hvalFits : (l.val ++ [charNul]).length ≤ valSize := by simpa using Nat.succ_le_of_lt hval
  refine ⟨l.setting, fun stack => ?_, zeroFilled_terminated (by simp) hkeyFits,
    zeroFilled_cString l.key_nul l.key_fits, zeroFilled_terminated (by simp) hvalFits,
    zeroFilled_cString l.val_nul hval⟩
  rw [overwritten_toList hfit]
  exact parseLine_iff.mpr (SettingLine.parsed hfit)

/-- A setting with an equals sign between spaces. -/
def typedSetting : SettingLine where
  lead := typed " "
  key := typed "allow-connect"
  separator := typed " = "
  val := typed "yes"
  trail := typed " "
  lead_blank := by decide +kernel
  key_ne := by decide +kernel
  key_fits := by decide +kernel
  key_plain := by decide +kernel
  key_starts := by decide +kernel
  separator_ne := by decide +kernel
  separator_kind := by decide +kernel
  val_ne := by decide +kernel
  val_plain := by decide +kernel
  val_starts := by decide +kernel
  trail_blank := by decide +kernel

theorem settings_read_back_typed : ∃ setting : Setting,
    (∀ stack : Octets lineSize,
      parseLine (overwritten stack typedSetting.text).toList = .ok (some setting)) ∧
    Terminated setting.key ∧ cString setting.key = typed "allow-connect" ∧
    Terminated setting.val ∧ cString setting.val = typed "yes" :=
  settings_read_back typedSetting (by decide +kernel)

/-! ### Any line -/

/-- Whatever the array holds behind it, the line is scanned within the arrays, and what is handed on
are strings. -/
def ScansWithin (line : List UInt8) : Prop :=
  ∀ stack : Octets lineSize, ∃ r, parseLine (overwritten stack line).toList = .ok r ∧
    ∀ setting ∈ r, Terminated setting.key ∧ Terminated setting.val

/-- A key that fills its array is a string all the same, or ends with the line. -/
def FullKeyEnds (line : List UInt8) : Prop :=
  63 ≤ (keyTail line).length →
    isLineEnd ((lineText line).tail.getD 63 charNul) = true ∨ charNul ∈ (keyTail line).take 63

instance : DecidablePred FullKeyEnds := fun _ => inferInstanceAs (Decidable (_ → _))

section Within

variable {line : List UInt8} {r : Option Setting}

/-- The value's array is as long as the line's, so that a value never fills it. -/
theorem Parsed.val_terminated {setting : Setting} (h : Parsed line (some setting))
    (hfit : line.length ≤ valSize) : Terminated setting.val := by
  cases h with
  | setting hskip hcomment hkey hvalue hended hval =>
    have hsuffix := (Lib.skipWhile_suffix hvalue).trans
      ((Lib.token_suffix hkey).1.trans (Lib.skipWhile_suffix hskip))
    exact zeroFilled_terminated
      (Lib.token_terminated hval (by decide) (hsuffix.length_le.trans hfit))
        (Lib.token_suffix hval).2

theorem Parsed.of_key {c c₁ key : List UInt8} {setting : Setting} (h : Parsed line (some setting))
    (hskip : skipWhitespace line = .ok c) (hkey : getKey c keySize = .ok (key, c₁)) :
    setting.key = zeroFilled keySize key ∧
      ∃ c₂, toValue c₁ = .ok c₂ ∧ newLine c₂ = .ok false := by
  cases h with
  | setting hskip' hcomment hkey' hvalue hended hval =>
    obtain rfl : _ = c := by simpa [hskip] using hskip'.symm
    obtain ⟨rfl, rfl⟩ : _ = key ∧ _ = c₁ := by simpa [hkey] using hkey'.symm
    exact ⟨rfl, _, hvalue, hended⟩

/-- The first character behind a full key is no separator. -/
theorem toValue_filled {c : List UInt8} {d : UInt8} (hd : isSeparator d = false) :
    toValue (d :: c) = .ok (d :: c) := by
  simp [toValue, Lib.skipWhile, hd]

theorem drop_filled (text : List UInt8) :
    ∃ more, text.drop 63 ++ [charNul] = text.getD 63 charNul :: more := by
  rcases Nat.lt_or_ge 63 text.length with hlt | hge
  · refine ⟨text.drop 64 ++ [charNul], ?_⟩
    rw [List.getD_eq_getElem _ _ hlt, List.drop_eq_getElem_cons hlt, List.cons_append]
  · exact ⟨[], by rw [List.drop_of_length_le hge, List.getD_eq_default _ _ hge]; rfl⟩

/-- What the scanners make of a key that ends. -/
theorem Parsed.key_terminated_iff (hignored : ¬ Ignored line) (hends : KeyEnds line)
    (hparsed : Parsed (line ++ [charNul]) r) :
    (∀ setting ∈ r, Terminated setting.key) ↔ FullKeyEnds line := by
  obtain ⟨c, text, htext, hcomment⟩ := lineText_of_not_ignored hignored
  have hskip := skipWhitespace_line line []
  have hc : c ≠ charNul := by
    rintro rfl
    simp [startsComment, isLineEnd] at hcomment
  rcases Nat.lt_or_ge (keyTail line).length 63 with hlt | hge
  · obtain ⟨stop, more, -, hgot⟩ := getKey_found htext hends hlt
    refine iff_of_true (fun setting hmem => ?_) fun hfull => absurd hfull (by omega)
    obtain rfl := Option.mem_def.mp hmem
    rw [(hparsed.of_key hskip hgot).1]
    exact zeroFilled_terminated (by simp) (by simp [keySize]; omega)
  · obtain ⟨htake, hplain, hgot⟩ := getKey_filled htext hends hge
    obtain ⟨more, hmore⟩ := drop_filled text
    rw [hmore] at hgot
    have hvalue := toValue_filled (c := more) hplain
    have hlen : text.length ≥ 63 := by
      have htail : (keyTail line).length ≤ (lineText line).tail.length :=
        (List.takeWhile_prefix _).length_le
      rw [htext, List.tail_cons] at htail
      exact hge.trans htail
    have hfilled : (c :: text.take 63).length = keySize := by simp [keySize, hlen]
    unfold FullKeyEnds
    rw [htext, List.tail_cons, htake]
    constructor
    · intro hterminated _
      by_contra hnot
      obtain ⟨hend, hnul⟩ := not_or.mp hnot
      have hended : newLine (text.getD 63 charNul :: more) = .ok false := by
        simp only [newLine, Lib.peek, Except.map, Bool.eq_false_iff.mpr hend]
      have hsome : ∃ setting, r = some setting := by
        cases hparsed with
        | ignored hskip' hcomment' =>
          obtain rfl := Except.ok.inj (hskip.symm.trans hskip')
          rw [htext] at hcomment'
          simp [lineComment, Lib.peek, Except.map, hcomment] at hcomment'
        | idle hskip' _ hkey' hvalue' hended' =>
          obtain rfl := Except.ok.inj (hskip.symm.trans hskip')
          obtain ⟨rfl, rfl⟩ := Prod.mk.inj (Except.ok.inj (hgot.symm.trans hkey'))
          obtain rfl := Except.ok.inj (hvalue.symm.trans hvalue')
          rw [hended] at hended'
          cases hended'
        | setting => exact ⟨_, rfl⟩
      obtain ⟨setting, rfl⟩ := hsome
      refine zeroFilled_not_terminated ?_ hfilled
        ((hparsed.of_key hskip hgot).1 ▸ hterminated setting rfl)
      simp [hc.symm, hnul]
    · intro hfull setting hmem
      obtain rfl := Option.mem_def.mp hmem
      obtain ⟨hkey, c₂, hvalue', hended⟩ := hparsed.of_key hskip hgot
      obtain rfl := Except.ok.inj (hvalue.symm.trans hvalue')
      rcases hfull hge with hend | hnul
      · simp only [newLine, Lib.peek, Except.map, hend] at hended
        cases hended
      · rw [hkey]
        exact zeroFilled_terminated (List.mem_cons_of_mem c hnul) hfilled.le

/-- **Lines are scanned within the arrays exactly when their keys end in time.** Take any line of at
most 254 characters. Whatever stands behind it in the array, no scanner reads outside the line's
array or writes outside those of the key and the value, and `store_config` is handed strings, if and
only if the line is blank or a comment, or a separator follows its key before the line ends and
not just when `key` is full, or the key fills `key`; and a key that fills it has the line's end
behind it, or has a terminator among its own characters. -/
theorem scans_within_iff (hfit : line.length < lineSize) :
    ScansWithin line ↔ Ignored line ∨ KeyEnds line ∧ FullKeyEnds line := by
  constructor
  · intro h
    by_cases hignored : Ignored line
    · exact .inl hignored
    · have hends : KeyEnds line := by
        by_contra hends
        have hresidue : (Octets.toList fun _ : Fin lineSize => charEquals).drop (line.length + 1) =
            List.replicate (lineSize - (line.length + 1)) charEquals := by
          simp [Octets.toList, List.ofFn_const]
        obtain ⟨r, hparse, -⟩ := h fun _ => charEquals
        rw [parseLine_iff, overwritten_toList hfit, hresidue] at hparse
        exact not_parsed_of_key hignored hends _ hparse
      obtain ⟨r, hparsed, -⟩ := parsed_of_keyEnds hfit (.inr hends)
      obtain ⟨r', hparse, hterminated⟩ := h fun _ => 0
      rw [overwritten_toList hfit, List.append_cons] at hparse
      obtain rfl := Except.ok.inj ((parseLine_iff.mpr (hparsed.append _)).symm.trans hparse)
      exact .inr ⟨hends, (Parsed.key_terminated_iff hignored hends hparsed).mp
        fun setting hmem => (hterminated setting hmem).1⟩
  · intro h stack
    have hsize : (overwritten stack line).toList.length ≤ valSize := by simp [lineSize, valSize]
    obtain ⟨r, hparsed, -⟩ := parsed_of_keyEnds hfit (h.imp_right And.left)
    have hstored : Parsed (overwritten stack line).toList r := by
      rw [overwritten_toList hfit, List.append_cons]
      exact hparsed.append _
    refine ⟨r, parseLine_iff.mpr hstored, fun setting hmem => ?_⟩
    have hval : Terminated setting.val := by
      obtain rfl := Option.mem_def.mp hmem
      exact hstored.val_terminated hsize
    rcases h with hignored | ⟨hends, hfull⟩
    · have hnone := parseLine_iff.mpr (parsed_ignored hignored [])
      rw [parseLine_iff.mpr hparsed] at hnone
      cases hnone
      cases hmem
    · by_cases hignored : Ignored line
      · have hnone := parseLine_iff.mpr (parsed_ignored hignored [])
        rw [parseLine_iff.mpr hparsed] at hnone
        cases hnone
        cases hmem
      · exact ⟨(Parsed.key_terminated_iff hignored hends hparsed).mpr hfull setting hmem, hval⟩

end Within

theorem scans_within_typed : ScansWithin (typed "allow-connect = yes\n") :=
  (scans_within_iff (by decide +kernel)).mpr (.inr (by decide +kernel))

/-- A key of 64 characters: its terminator is written behind `key`. -/
def fullKey : List UInt8 := List.replicate 64 0x6B ++ typed "=yes\n"

theorem not_scans_within :
    ¬ ∀ line : List UInt8, IsLine line → line.length < lineSize → ScansWithin line := by
  intro h
  obtain ⟨r, hparse, -⟩ := h fullKey (by decide +kernel) (by decide +kernel) fun _ => 0
  have hfault : parseLine (overwritten (fun _ => 0) fullKey : Octets lineSize).toList =
    .error .write := by
    decide +kernel
  rw [hfault] at hparse
  cases hparse

end Socksprox
