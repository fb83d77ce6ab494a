import Socksprox.ConfigFile
import Mathlib.Data.Set.Basic

/-!
Whether a line of the configuration file means the same whatever stands in the others. It does
when its key ends within it: otherwise `get_key` goes on into what an earlier line, or the stack,
left in the array.
-/

namespace Socksprox

open Lib (ScanFault)

/-! ### Lines -/

/-- The line from its first character that is not blank. -/
def lineText (line : List UInt8) : List UInt8 := line.dropWhile isBlank

/-- A blank line or a comment. -/
def Ignored (line : List UInt8) : Prop := ∀ c ∈ (lineText line).head?, startsComment c = true

/-- The characters of the key behind its first one. -/
def keyTail (line : List UInt8) : List UInt8 :=
  (lineText line).tail.takeWhile fun c => !isSeparator c

/-- A separator follows the key, and not when `key` is just full; or the line fills `key`. -/
def KeyEnds (line : List UInt8) : Prop :=
  if keyTail line = (lineText line).tail then 63 ≤ (keyTail line).length
  else (keyTail line).length ≠ 63

/-- What stands behind the key and its separators. -/
def behindKey (line : List UInt8) : List UInt8 :=
  ((lineText line).drop (min ((keyTail line).length + 1) keySize)).dropWhile isSeparator

/-- A line with a key and a value. -/
def HasValue (line : List UInt8) : Prop :=
  ¬ Ignored line ∧ ∃ c ∈ (behindKey line).head?, isLineEnd c = false

/-- A text that is one line of a file. -/
def IsLine (line : List UInt8) : Prop := fileLines line = [line]

def piecesFrom : Nat → List UInt8 → List (List UInt8)
  | 0, _ => []
  | fuel + 1, file =>
    if file = [] then []
    else (takeLine (lineSize - 1) file).1 :: piecesFrom fuel (takeLine (lineSize - 1) file).2

/-- What `fgets` makes of a text: its lines, and pieces of 254 characters of the longer ones. -/
def pieces (file : List UInt8) : List (List UInt8) := piecesFrom file.length file

/-- The settings that `parse_configs` stores for a file of this line only, with its array
cleared. -/
def contribution (line : List UInt8) : List Setting :=
  (parseConfigs (fun _ => true) (fun _ => 0) line).1

/-- The calls of `store_config` for these settings, up to the first that fails. -/
def storeAll (ret : Nat → Bool) : List Setting → List Setting × Ending
  | [] => ([], .done)
  | setting :: settings =>
    if ret 0 then
      let later := storeAll (fun n => ret (n + 1)) settings
      (setting :: later.1, later.2)
    else ([setting], .failed)

/-- Whatever file is made of these lines, and whatever the stack holds, the calls are those for what
each line contributes on its own; and blank lines and comments contribute nothing. -/
def Independent (lines : Set (List UInt8)) : Prop :=
  (∀ file, (∀ line ∈ fileLines file, line ∈ lines) → ∀ ret stack,
    parseConfigs ret stack file = storeAll ret ((fileLines file).flatMap contribution)) ∧
  ∀ line ∈ lines, Ignored line → contribution line = []

instance : DecidablePred IsLine := fun _ => inferInstanceAs (Decidable (_ = _))

instance : DecidablePred Ignored := fun _ => inferInstanceAs (Decidable (∀ _ ∈ _, _))

instance : DecidablePred KeyEnds := fun _ => by
  unfold KeyEnds
  infer_instance

instance : DecidablePred HasValue := fun _ => inferInstanceAs (Decidable (_ ∧ ∃ _ ∈ _, _))

/-! ### A line in an array -/

section Scanning

variable {line residue : List UInt8}

/-- Blanks are skipped up to the line's text, or to its end. -/
theorem skipWhitespace_line (line residue : List UInt8) :
    skipWhitespace (line ++ charNul :: residue) = .ok (lineText line ++ charNul :: residue) :=
  Lib.skipWhile_stop rfl

theorem parsed_ignored (h : Ignored line) (residue : List UInt8) :
    Parsed (line ++ charNul :: residue) none := by
  refine .ignored (skipWhitespace_line line residue) ?_
  unfold Ignored at h
  cases htext : lineText line with
  | nil => rfl
  | cons c text =>
    have hc : startsComment c = true := h c (by simp [htext])
    simp [lineComment, Lib.peek, Except.map, hc]

/-- A line with a key. -/
theorem lineText_of_not_ignored (h : ¬ Ignored line) :
    ∃ c text, lineText line = c :: text ∧ startsComment c = false := by
  unfold Ignored at h
  cases htext : lineText line with
  | nil => simp [htext] at h
  | cons c text => exact ⟨c, text, rfl, by simpa [htext] using h⟩

/-- With its key ended, a line is scanned to its end and no further. -/
theorem parsed_of_key {c rest key : List UInt8} (hskip : skipWhitespace line = .ok c)
    (hcomment : lineComment c = .ok false) (hkey : getKey c keySize = .ok (key, rest ++ [charNul]))
    (hlen : rest.length < valSize - 1) :
    ∃ r, Parsed line r ∧
      (r.isSome = true ↔ ∃ d ∈ (rest.dropWhile isSeparator).head?, isLineEnd d = false) := by
  have hvalue : toValue (rest ++ [charNul]) = .ok (rest.dropWhile isSeparator ++ [charNul]) :=
    Lib.skipWhile_stop rfl
  cases hval : rest.dropWhile isSeparator with
  | nil => exact ⟨_, .idle hskip hcomment hkey hvalue (by rw [hval]; rfl), by simp⟩
  | cons d text =>
    cases hend : isLineEnd d with
    | true => exact ⟨_, .idle hskip hcomment hkey hvalue
        (by simp [hval, newLine, Lib.peek, Except.map, hend]), by simp [hend]⟩
    | false =>
      have hended : newLine (rest.dropWhile isSeparator ++ [charNul]) = .ok false := by
        simp [hval, newLine, Lib.peek, Except.map, hend]
      obtain ⟨between, stop, more, hsplit, hbetween, hstop, hle⟩ :=
        Lib.split_at_first (p := isValueEnd) text (show isValueEnd charNul = true from rfl) []
      have hroom : text.length + 1 ≤ rest.length := by
        simpa [hval] using List.length_dropWhile_le isSeparator rest
      have hval' : getVal (rest.dropWhile isSeparator ++ [charNul]) valSize =
          .ok (d :: (between ++ [charNul]), stop :: more) := by
        rw [hval, List.cons_append, hsplit]
        refine Lib.token_found hbetween hstop ?_
        have hsize : valSize = 255 := rfl
        omega
      exact ⟨_, .setting hskip hcomment hkey hvalue hended hval', by simp [hend]⟩

theorem keyTail_split (h : keyTail line ≠ (lineText line).tail) : ∃ stop more,
    (lineText line).tail = keyTail line ++ stop :: more ∧ isSeparator stop = true := by
  have hsplit := List.takeWhile_append_dropWhile (p := fun c => !isSeparator c)
    (l := (lineText line).tail)
  cases hrest : (lineText line).tail.dropWhile (fun c => !isSeparator c) with
  | nil =>
    rw [hrest, List.append_nil] at hsplit
    exact absurd hsplit h
  | cons stop more =>
    rw [hrest] at hsplit
    have hstop := List.head_dropWhile_not (fun c => !isSeparator c) (l := (lineText line).tail)
      (by simp [hrest])
    exact ⟨stop, more, hsplit.symm, by simpa [hrest] using hstop⟩

theorem keyTail_separator (line : List UInt8) {c : UInt8} (hc : c ∈ keyTail line) :
    isSeparator c = false := by
  simpa using List.mem_takeWhile_imp hc

/-- A key that fills its array. -/
theorem getKey_full {c : UInt8} {text : List UInt8} (hlen : 63 ≤ text.length)
    (hkey : ∀ d ∈ text.take 64, isSeparator d = false) :
    getKey (c :: (text ++ [charNul])) keySize =
      .ok (c :: text.take 63, text.drop 63 ++ [charNul]) := by
  have hbetween : ∀ d ∈ text.take 63, isSeparator d = false := fun d hd =>
    hkey d (List.take_subset_take_left text (by decide : 63 ≤ 64) hd)
  have hroom : (text.take 63).length + 1 = keySize := by simp [keySize, hlen]
  conv_lhs => rw [← List.take_append_drop 63 text, List.append_assoc]
  cases hrest : text.drop 63 with
  | nil => exact Lib.token_full hbetween rfl hroom
  | cons d rest =>
    have hd : d ∈ text.take 64 := by
      have htake : text.take 64 = text.take 63 ++ (text.drop 63).take 1 :=
        List.take_add (i := 63) (j := 1)
      rw [htake, hrest]
      simp
    exact Lib.token_full hbetween (hkey d hd) hroom

/-- A key that ends while there is room for its terminator. -/
theorem getKey_found {c : UInt8} {text : List UInt8} (htext : lineText line = c :: text)
    (hends : KeyEnds line) (hlt : (keyTail line).length < 63) :
    ∃ stop more, text = keyTail line ++ stop :: more ∧
      getKey (lineText line ++ [charNul]) keySize =
        .ok (c :: (keyTail line ++ [charNul]), stop :: more ++ [charNul]) := by
  have hfound : keyTail line ≠ (lineText line).tail := by
    intro hnone
    rw [KeyEnds, if_pos hnone] at hends
    omega
  obtain ⟨stop, more, hsplit, hstop⟩ := keyTail_split hfound
  rw [htext, List.tail_cons] at hsplit
  refine ⟨stop, more, hsplit, ?_⟩
  rw [htext, hsplit, List.cons_append, List.append_assoc]
  exact Lib.token_found (fun d hd => keyTail_separator line hd) hstop (by simp [keySize]; omega)

/-- A key that does not, but ends. -/
theorem getKey_filled {c : UInt8} {text : List UInt8} (htext : lineText line = c :: text)
    (hends : KeyEnds line) (hge : 63 ≤ (keyTail line).length) :
    (keyTail line).take 63 = text.take 63 ∧ isSeparator (text.getD 63 charNul) = false ∧
      getKey (lineText line ++ [charNul]) keySize =
        .ok (c :: text.take 63, text.drop 63 ++ [charNul]) := by
  have hkey : (keyTail line).take 63 = text.take 63 ∧
      (∀ d ∈ text.take 64, isSeparator d = false) ∧ 63 ≤ text.length := by
    unfold KeyEnds at hends
    split at hends
    · rename_i hnone
      rw [htext, List.tail_cons] at hnone
      rw [hnone] at hends ⊢
      refine ⟨rfl, fun d hd => keyTail_separator line ?_, hends⟩
      rw [hnone]
      exact List.mem_of_mem_take hd
    · rename_i hfound
      obtain ⟨stop, more, hsplit, -⟩ := keyTail_split hfound
      rw [htext, List.tail_cons] at hsplit
      have hlong : 64 ≤ (keyTail line).length := by omega
      refine ⟨?_, fun d hd => keyTail_separator line ?_, by simp [hsplit]; omega⟩
      · rw [hsplit, List.take_append_of_le_length hge]
      · rw [hsplit, List.take_append_of_le_length hlong] at hd
        exact List.mem_of_mem_take hd
  obtain ⟨htake, hplain, hlen⟩ := hkey
  refine ⟨htake, ?_, ?_⟩
  · rcases Nat.lt_or_ge 63 text.length with hlt | hge
    · rw [List.getD_eq_getElem _ _ hlt]
      exact hplain _ (List.mem_take_iff_getElem.mpr ⟨63, by omega, rfl⟩)
    · rw [List.getD_eq_default _ _ hge]
      rfl
  · rw [htext]
    exact getKey_full hlen hplain

/-- A line whose key ends is scanned within itself. -/
theorem parsed_of_keyEnds (hfit : line.length < lineSize) (h : Ignored line ∨ KeyEnds line) :
    ∃ r, Parsed (line ++ [charNul]) r ∧ (r.isSome = true ↔ HasValue line) := by
  by_cases hignored : Ignored line
  · exact ⟨none, parsed_ignored hignored [], by simp [HasValue, hignored]⟩
  · have hends := h.resolve_left hignored
    obtain ⟨c, text, htext, hcomment⟩ := lineText_of_not_ignored hignored
    have hskip := skipWhitespace_line line []
    have hsome : lineComment (lineText line ++ [charNul]) = .ok false := by
      simp [htext, lineComment, Lib.peek, Except.map, hcomment]
    have hlen : text.length + 1 ≤ line.length := by
      simpa [lineText] using (congrArg List.length htext).symm.trans_le
        (List.length_dropWhile_le isBlank line)
    have hbelow : ∀ {rest : List UInt8}, rest.length ≤ text.length → rest.length < valSize - 1 := by
      intro rest hrest
      simp only [lineSize, valSize] at hfit ⊢
      omega
    rcases Nat.lt_or_ge (keyTail line).length 63 with hlt | hge
    · obtain ⟨stop, more, hsplit, hgot⟩ := getKey_found htext hends hlt
      have hbehind : behindKey line = (stop :: more).dropWhile isSeparator := by
        have hmin : min ((keyTail line).length + 1) keySize = (keyTail line).length + 1 := by
          simp only [keySize]
          omega
        rw [behindKey, hmin, htext, List.drop_succ_cons]
        conv_lhs => rw [hsplit]
        rw [List.drop_left]
      rw [HasValue, and_iff_right hignored, hbehind]
      exact parsed_of_key hskip hsome hgot (hbelow (by simp [hsplit]))
    · obtain ⟨-, -, hgot⟩ := getKey_filled htext hends hge
      have hbehind : behindKey line = (text.drop 63).dropWhile isSeparator := by
        have hmin : min ((keyTail line).length + 1) keySize = 63 + 1 := by
          simp only [keySize]
          omega
        rw [behindKey, hmin, htext, List.drop_succ_cons]
      rw [HasValue, and_iff_right hignored, hbehind]
      exact parsed_of_key hskip hsome hgot (hbelow (by simp))

/-! ### A line that runs on -/

theorem not_parsed {c : List UInt8} {r : Option Setting} (hskip : skipWhitespace line = .ok c)
    (hcomment : lineComment c = .ok false)
    (hkey : ∀ key c₁, getKey c keySize = .ok (key, c₁) → ∃ f, toValue c₁ = .error f) :
    ¬ Parsed line r := by
  intro h
  have hvalue : ∀ {c' c₁ c₂ key : List UInt8}, skipWhitespace line = .ok c' →
      getKey c' keySize = .ok (key, c₁) → toValue c₁ ≠ .ok c₂ := by
    intro c' c₁ c₂ key hskip' hgot hfound
    rw [hskip] at hskip'
    cases hskip'
    obtain ⟨f, hfault⟩ := hkey key c₁ hgot
    rw [hfault] at hfound
    cases hfound
  cases h with
  | ignored hskip' hcomment' =>
    rw [hskip] at hskip'
    cases hskip'
    rw [hcomment] at hcomment'
    cases hcomment'
  | idle hskip' _ hgot hfound _ => exact hvalue hskip' hgot hfound
  | setting hskip' _ hgot hfound _ _ => exact hvalue hskip' hgot hfound

/-- When the array is full of separators behind the line, a key that does not end is never
stored. -/
theorem not_parsed_of_key (hignored : ¬ Ignored line) (h : ¬ KeyEnds line) (m : Nat)
    {r : Option Setting} : ¬ Parsed (line ++ charNul :: List.replicate m charEquals) r := by
  obtain ⟨c, text, htext, hcomment⟩ := lineText_of_not_ignored hignored
  have hsome : lineComment (lineText line ++ charNul :: List.replicate m charEquals) =
    .ok false := by
    simp [htext, lineComment, Lib.peek, Except.map, hcomment]
  refine not_parsed (skipWhitespace_line line _) hsome fun key c₁ hgot => ?_
  rw [htext] at hgot
  unfold KeyEnds at h
  split at h
  · rename_i hnone
    rw [htext, List.tail_cons] at hnone
    rw [hnone] at h
    have hbetween : ∀ d ∈ text ++ [charNul], isSeparator d = false := by
      intro d hd
      rcases List.mem_append.mp hd with hd | hd
      · exact keyTail_separator line (hnone ▸ hd)
      · rw [List.mem_singleton.mp hd]
        rfl
    cases m with
    | zero =>
      have hread : getKey (c :: (text ++ [charNul])) keySize = .error .read :=
        Lib.token_read hbetween (by simp [keySize]; omega)
      rw [show c :: text ++ charNul :: List.replicate 0 charEquals =
        c :: (text ++ [charNul]) from rfl, hread] at hgot
      cases hgot
    | succ m =>
      have hsplit : c :: text ++ charNul :: List.replicate (m + 1) charEquals =
          c :: ((text ++ [charNul]) ++ charEquals :: List.replicate m charEquals) := by
        simp [List.replicate_succ]
      rw [hsplit] at hgot
      rcases Nat.lt_or_ge (text.length + 2) keySize with hlt | hge
      · have hfound : getKey (c ::
          ((text ++ [charNul]) ++ charEquals :: List.replicate m charEquals))
            keySize = _ := Lib.token_found hbetween rfl (by simpa using hlt)
        rw [hfound] at hgot
        cases hgot
        refine ⟨.read, Lib.skipWhile_all fun d hd => ?_⟩
        rcases List.mem_cons.mp hd with rfl | hd
        · rfl
        · rw [List.eq_of_mem_replicate hd]
          rfl
      · have hwrite : getKey (c ::
          ((text ++ [charNul]) ++ charEquals :: List.replicate m charEquals))
            keySize = .error .write :=
          Lib.token_write hbetween rfl (by simp [keySize] at hge ⊢; omega)
        rw [hwrite] at hgot
        cases hgot
  · rename_i hfound
    obtain ⟨stop, more, hsplit, hstop⟩ := keyTail_split hfound
    rw [htext, List.tail_cons] at hsplit
    have hwrite : getKey (c :: (keyTail line ++ stop ::
      (more ++ charNul :: List.replicate m charEquals)))
        keySize = .error .write :=
      Lib.token_write (fun d hd => keyTail_separator line hd) hstop (by simp [keySize]; omega)
    rw [hsplit, List.cons_append, List.append_assoc, List.cons_append, hwrite] at hgot
    cases hgot

end Scanning

/-! ### The pieces of a file -/

section Pieces

variable {line file text : List UInt8} {texts : List (List UInt8)}

theorem piecesFrom_eq {fuel : Nat} (hfuel : file.length ≤ fuel) :
    piecesFrom fuel file = pieces file := by
  induction fuel using Nat.strong_induction_on generalizing file with
  | _ fuel ih =>
    cases file with
    | nil => cases fuel <;> rfl
    | cons c file =>
      obtain ⟨fuel, rfl⟩ : ∃ n, fuel = n + 1 := ⟨fuel - 1, by simp at hfuel; omega⟩
      have hrest : (takeLine (lineSize - 1) (c :: file)).2.length < (c :: file).length :=
        takeLine_lt (by decide) (List.cons_ne_nil c file)
      rw [List.length_cons] at hrest
      have hle : file.length ≤ fuel := Nat.le_of_succ_le_succ hfuel
      rw [pieces, List.length_cons, piecesFrom, piecesFrom, ih fuel (by omega) (by omega),
        ih file.length (by omega) (by omega)]

theorem pieces_cons (hne : file ≠ []) : pieces file =
    (takeLine (lineSize - 1) file).1 :: pieces (takeLine (lineSize - 1) file).2 := by
  have hlt : (takeLine (lineSize - 1) file).2.length < file.length := takeLine_lt (by decide) hne
  obtain ⟨fuel, hfuel⟩ : ∃ n, file.length = n + 1 := ⟨file.length - 1, by omega⟩
  rw [pieces, hfuel, piecesFrom, if_neg hne, piecesFrom_eq (by omega)]

/-- A line that fits is one piece. -/
theorem pieces_fits (hline : IsLine line) (hfit : line.length < lineSize) :
    pieces line = [line] := by
  have hne : line ≠ [] := fileLines_ne_nil hline
  obtain ⟨htaken, hrest⟩ := takeLine_fits hline (show line.length ≤ lineSize - 1 by omega)
  rw [pieces_cons hne, htaken, fileLines_eq_nil hrest]
  rfl

/-- Of a line that does not, the first piece fills the array. -/
theorem pieces_long (hline : IsLine line) (hlong : lineSize ≤ line.length) :
    pieces line = line.take (lineSize - 1) :: pieces (line.drop (lineSize - 1)) ∧
      IsLine (line.drop (lineSize - 1)) := by
  have hlt : lineSize - 1 < line.length := by
    simp only [lineSize] at hlong ⊢
    omega
  obtain ⟨htaken, hrest⟩ := takeLine_long hline hlt
  have hfile := takeLine_append (lineSize - 1) line
  have hdrop : (takeLine (lineSize - 1) line).2 = line.drop (lineSize - 1) := by
    rw [htaken] at hfile
    exact List.append_cancel_left (hfile.trans (List.take_append_drop _ _).symm)
  rw [hdrop] at hrest
  exact ⟨by rw [pieces_cons (fileLines_ne_nil hline), htaken, hdrop], hrest⟩

/-- The pieces of a file are those of its lines. -/
theorem pieces_lines (file : List UInt8) : pieces file = (fileLines file).flatMap pieces := by
  induction hlen : file.length using Nat.strong_induction_on generalizing file with
  | _ n ih =>
    subst hlen
    cases htexts : fileLines file with
    | nil => rw [fileLines_eq_nil htexts]; rfl
    | cons text texts =>
      have hne : file ≠ [] := by
        rintro rfl
        cases htexts
      have hline : IsLine text := fileLines_of_mem (htexts ▸ List.mem_cons_self)
      have hlater := ih _ (takeLine_lt (by decide : 0 < lineSize - 1) hne) _ rfl
      rw [pieces_cons hne, hlater, List.flatMap_cons]
      rcases Nat.lt_or_ge text.length lineSize with hfit | hlong
      · obtain ⟨htaken, hrest⟩ := takeLine_fits htexts (show text.length ≤ lineSize - 1 by omega)
        rw [htaken, hrest, pieces_fits hline hfit]
        rfl
      · obtain ⟨htaken, hrest⟩ := takeLine_long htexts
          (show lineSize - 1 < text.length by simp only [lineSize] at hlong ⊢; omega)
        rw [htaken, hrest, (pieces_long hline hlong).1]
        rfl

/-- When every line fits, the pieces are the lines. -/
theorem pieces_of_fits (hfit : ∀ line ∈ fileLines file, line.length < lineSize) :
    pieces file = fileLines file := by
  have hone : ∀ line ∈ fileLines file, pieces line = [line] := fun line hline =>
    pieces_fits (fileLines_of_mem hline) (hfit line hline)
  rw [pieces_lines, List.flatMap_congr hone, List.flatMap_singleton']

/-- Only the last piece of a line does not fill the array. -/
theorem pieces_full (hline : IsLine line) :
    ∀ piece ∈ (pieces line).dropLast, piece.length = lineSize - 1 := by
  induction hlen : line.length using Nat.strong_induction_on generalizing line with
  | _ n ih =>
    subst hlen
    rcases Nat.lt_or_ge line.length lineSize with hfit | hlong
    · simp [pieces_fits hline hfit]
    · obtain ⟨hpieces, hrest⟩ := pieces_long hline hlong
      have hne : pieces (line.drop (lineSize - 1)) ≠ [] := by
        rw [pieces_cons (fileLines_ne_nil hrest)]
        exact List.cons_ne_nil _ _
      have hlater := ih (line.drop (lineSize - 1)).length
        (by simp only [List.length_drop, lineSize] at hlong ⊢; omega) hrest rfl
      rw [hpieces, List.dropLast_cons_of_ne_nil hne]
      intro piece hpiece
      rcases List.mem_cons.mp hpiece with rfl | hpiece
      · simp only [List.length_take, lineSize] at hlong ⊢
        omega
      · exact hlater piece hpiece

theorem pieces_length (hmem : text ∈ pieces file) : text.length < lineSize := by
  induction hlen : file.length using Nat.strong_induction_on generalizing file with
  | _ n ih =>
    subst hlen
    have hne : file ≠ [] := by
      rintro rfl
      cases hmem
    rw [pieces_cons hne] at hmem
    rcases List.mem_cons.mp hmem with rfl | hmem
    · exact Nat.lt_of_le_of_lt (takeLine_le _ _) (by decide)
    · exact ih _ (takeLine_lt (by decide) hne) hmem rfl

end Pieces

/-! ### The loop -/

section Loop

variable {line file : List UInt8} {lines : Set (List UInt8)}

/-- What a line comes to that is scanned within itself. -/
def ownSettings (line : List UInt8) : List Setting :=
  match parseLine (line ++ [charNul]) with
  | .ok (some setting) => [setting]
  | _ => []

theorem ownSettings_eq_nil (hfit : line.length < lineSize) (hends : Ignored line ∨ KeyEnds line) :
    ownSettings line = [] ↔ ¬ HasValue line := by
  obtain ⟨r, hparsed, hsome⟩ := parsed_of_keyEnds hfit hends
  rw [← hsome, ownSettings, parseLine_iff.mpr hparsed]
  cases r <;> simp

/-- What `fgets` leaves of a file and its first piece, in the array. -/
theorem fgets_piece (hne : file ≠ []) (stack : Octets lineSize) : ∃ piece rest,
    pieces file = piece :: pieces rest ∧ piece.length < lineSize ∧ rest.length < file.length ∧
      fgets stack file = some (overwritten stack piece, rest) :=
  ⟨_, _, pieces_cons hne, pieces_length (by rw [pieces_cons hne]; exact List.mem_cons_self),
    takeLine_lt (by decide) hne, if_neg hne⟩

/-- A piece whose key ends comes to the same in every array. -/
theorem parseLine_overwritten {piece : List UInt8} (hfit : piece.length < lineSize)
    (hends : Ignored piece ∨ KeyEnds piece) (stack : Octets lineSize) : ∃ r,
    parseLine (overwritten stack piece).toList = .ok r ∧ ownSettings piece = r.toList := by
  obtain ⟨r, hparsed, -⟩ := parsed_of_keyEnds hfit hends
  refine ⟨r, ?_, ?_⟩
  · rw [overwritten_toList hfit, List.append_cons]
    exact parseLine_iff.mpr (hparsed.append _)
  · rw [ownSettings, parseLine_iff.mpr hparsed]
    cases r <;> rfl

theorem parseLines_own {ret : Nat → Bool} {fuel : Nat} {stack : Octets lineSize}
    (hpieces : ∀ piece ∈ pieces file, Ignored piece ∨ KeyEnds piece) (hfuel : file.length ≤ fuel) :
    parseLines ret fuel stack file = storeAll ret ((pieces file).flatMap ownSettings) := by
  induction fuel generalizing ret stack file with
  | zero =>
    obtain rfl := List.length_eq_zero_iff.mp (Nat.le_zero.mp hfuel)
    rfl
  | succ fuel ih =>
    by_cases hne : file = []
    · subst hne
      rfl
    obtain ⟨piece, rest, hsplit, hfit, hlt, hsome⟩ := fgets_piece hne stack
    rw [hsplit] at hpieces
    have hnext : ∀ {ret stack}, parseLines ret fuel stack rest =
        storeAll ret ((pieces rest).flatMap ownSettings) :=
      ih (fun piece hpiece => hpieces piece (List.mem_cons_of_mem _ hpiece)) (by omega)
    obtain ⟨r, hstored, hown⟩ :=
      parseLine_overwritten hfit (hpieces piece List.mem_cons_self) stack
    simp only [parseLines, hsome, hstored, hsplit, List.flatMap_cons, hown]
    cases r with
    | none => exact hnext
    | some setting =>
      show _ = storeAll ret (setting :: (pieces rest).flatMap ownSettings)
      simp only [storeAll, hnext]

/-- A piece that fills the array and is scanned out of it. -/
theorem parseLines_runs_on {fuel : Nat} (stack : Octets lineSize)
    (hbad : ∃ piece ∈ pieces file, ¬ (Ignored piece ∨ KeyEnds piece))
    (hfull : ∀ piece ∈ pieces file, ¬ (Ignored piece ∨ KeyEnds piece) →
      piece.length = lineSize - 1) (hfuel : file.length ≤ fuel) :
    ∃ f, (parseLines (fun _ => true) fuel stack file).2 = .fault f := by
  induction fuel generalizing stack file with
  | zero =>
    obtain rfl := List.length_eq_zero_iff.mp (Nat.le_zero.mp hfuel)
    obtain ⟨piece, hpiece, -⟩ := hbad
    cases hpiece
  | succ fuel ih =>
    have hne : file ≠ [] := by
      rintro rfl
      obtain ⟨piece, hpiece, -⟩ := hbad
      cases hpiece
    obtain ⟨piece, rest, hsplit, hfit, hlt, hsome⟩ := fgets_piece hne stack
    rw [hsplit] at hbad hfull
    by_cases hends : Ignored piece ∨ KeyEnds piece
    · obtain ⟨bad, hmem, hnot⟩ := hbad
      have hlater : bad ∈ pieces rest := by
        rcases List.mem_cons.mp hmem with rfl | hmem
        · exact absurd hends hnot
        · exact hmem
      have hnext : ∀ stack, ∃ f, (parseLines (fun _ => true) fuel stack rest).2 = .fault f :=
        fun stack => ih stack ⟨bad, hlater, hnot⟩
          (fun p hp => hfull p (List.mem_cons_of_mem _ hp)) (by omega)
      obtain ⟨r, hstored, -⟩ := parseLine_overwritten hfit hends stack
      simp only [parseLines, hsome, hstored]
      cases r <;> exact hnext _
    · have hlen := hfull piece List.mem_cons_self hends
      have harray : (overwritten stack piece).toList =
          piece ++ charNul :: List.replicate 0 charEquals := by
        rw [overwritten_toList hfit,
          List.drop_eq_nil_of_le (by rw [Octets.length_toList, hlen]; decide)]
        rfl
      obtain ⟨hignored, hkey⟩ := not_or.mp hends
      cases hparse : parseLine (overwritten stack piece).toList with
      | ok r =>
        rw [parseLine_iff, harray] at hparse
        exact absurd hparse (not_parsed_of_key hignored hkey 0)
      | error f => exact ⟨f, by simp only [parseLines, hsome, hparse]⟩

/-- For a line whose pieces' keys end, these are its own. -/
theorem contribution_eq (hpieces : ∀ piece ∈ pieces line, Ignored piece ∨ KeyEnds piece) :
    contribution line = (pieces line).flatMap ownSettings := by
  have hstored : ∀ settings, (storeAll (fun _ => true) settings).1 = settings := by
    intro settings
    induction settings with
    | nil => rfl
    | cons setting settings ih => simpa [storeAll] using ih
  rw [contribution, parseConfigs, parseLines_own hpieces le_rfl, hstored]

/-- Storing settings does not leave an array. -/
theorem storeAll_ending (ret : Nat → Bool) (settings : List Setting) (f : ScanFault) :
    (storeAll ret settings).2 ≠ .fault f := by
  induction settings generalizing ret with
  | nil => simp [storeAll]
  | cons setting settings ih =>
    rw [storeAll]
    split
    · exact ih _
    · simp

/-- A line alone in an array of separators. -/
theorem parseConfigs_runs_on (hline : IsLine line) (hfit : line.length < lineSize)
    (hignored : ¬ Ignored line) (hends : ¬ KeyEnds line) :
    ∃ f, parseConfigs (fun _ => true) (fun _ => charEquals) line = ([], .fault f) := by
  obtain ⟨htaken, -⟩ := takeLine_fits hline (show line.length ≤ lineSize - 1 by omega)
  have hne := fileLines_ne_nil hline
  obtain ⟨fuel, hfuel⟩ : ∃ fuel, line.length = fuel + 1 :=
    ⟨line.length - 1, by have := List.length_pos_iff.mpr hne; omega⟩
  have hresidue : (Octets.toList fun _ : Fin lineSize => charEquals).drop (line.length + 1) =
      List.replicate (lineSize - (line.length + 1)) charEquals := by
    simp [Octets.toList, List.ofFn_const]
  cases hparse : parseLine (overwritten (fun _ => charEquals) line : Octets lineSize).toList with
  | ok r =>
    rw [parseLine_iff, overwritten_toList hfit, hresidue] at hparse
    exact absurd hparse (not_parsed_of_key hignored hends _)
  | error f =>
    refine ⟨f, ?_⟩
    simp only [parseConfigs, hfuel, parseLines, fgets, if_neg hne, htaken, hparse]

/-- **Lines are independent exactly when their keys end.** Take any lines, of any length; where a
line has more than 254 characters, let the last piece that `fgets` makes of it be blank, a comment
or one whose key ends. Whatever file is made of them, and whatever the stack holds, the settings
stored are those that each line contributes on its own, in order and up to the first that fails, and
blank lines and comments contribute none, if and only if each piece that is neither blank nor a
comment has a separator behind its key before the piece ends, unless the key fills its array, and no
piece of a comment has a key and a value. -/
theorem lines_independent_iff (hlines : ∀ line ∈ lines, IsLine line ∧
      (lineSize ≤ line.length → ∀ piece ∈ (pieces line).getLast?, Ignored piece ∨ KeyEnds piece)) :
    Independent lines ↔ ∀ line ∈ lines, (∀ piece ∈ pieces line, Ignored piece ∨ KeyEnds piece) ∧
      (Ignored line → ∀ piece ∈ pieces line, ¬ HasValue piece) := by
  constructor
  · rintro ⟨hfiles, hnone⟩ line hmem
    obtain ⟨hline, hlast⟩ := hlines line hmem
    have honly : ∀ l ∈ fileLines line, l ∈ lines := by
      rw [show fileLines line = [line] from hline]
      simpa using hmem
    have hnofault : ∀ stack f, (parseConfigs (fun _ => true) stack line).2 ≠ .fault f := by
      intro stack f
      rw [hfiles line honly]
      exact storeAll_ending _ _ f
    have hends : ∀ piece ∈ pieces line, Ignored piece ∨ KeyEnds piece := by
      rcases Nat.lt_or_ge line.length lineSize with hfit | hlong
      · rw [pieces_fits hline hfit]
        intro piece hpiece
        obtain rfl := List.mem_singleton.mp hpiece
        by_contra hnot
        obtain ⟨hignored, hends⟩ := not_or.mp hnot
        obtain ⟨f, hfault⟩ := parseConfigs_runs_on hline hfit hignored hends
        exact hnofault _ f (congrArg Prod.snd hfault)
      · by_contra hnot
        simp only [not_forall] at hnot
        obtain ⟨bad, hbad, hnot⟩ := hnot
        have hfull : ∀ piece ∈ pieces line, ¬ (Ignored piece ∨ KeyEnds piece) →
            piece.length = lineSize - 1 := by
          intro piece hpiece hends
          have hne : pieces line ≠ [] := List.ne_nil_of_mem hpiece
          rw [← List.dropLast_append_getLast hne, List.mem_append, List.mem_singleton] at hpiece
          rcases hpiece with hpiece | rfl
          · exact pieces_full hline piece hpiece
          · exact absurd (hlast hlong _ (List.getLast?_eq_some_getLast hne)) hends
        obtain ⟨f, hfault⟩ := parseLines_runs_on (fun _ => 0) ⟨bad, hbad, hnot⟩ hfull le_rfl
        exact hnofault _ f hfault
    refine ⟨hends, fun hignored piece hpiece => ?_⟩
    have hnil := hnone line hmem hignored
    rw [contribution_eq hends, List.flatMap_eq_nil_iff] at hnil
    exact (ownSettings_eq_nil (pieces_length hpiece) (hends piece hpiece)).mp (hnil piece hpiece)
  · intro hends
    refine ⟨fun file hfile ret stack => ?_, fun line hmem hignored => ?_⟩
    · have hflat : (fileLines file).flatMap contribution = (pieces file).flatMap ownSettings := by
        rw [pieces_lines, List.flatMap_assoc]
        exact List.flatMap_congr fun line hline => contribution_eq (hends line (hfile line hline)).1
      rw [hflat]
      refine parseLines_own (fun piece hpiece => ?_) le_rfl
      rw [pieces_lines, List.mem_flatMap] at hpiece
      obtain ⟨line, hline, hpiece⟩ := hpiece
      exact (hends line (hfile line hline)).1 piece hpiece
    · obtain ⟨hkeys, hvalues⟩ := hends line hmem
      rw [contribution_eq hkeys, List.flatMap_eq_nil_iff]
      intro piece hpiece
      exact (ownSettings_eq_nil (pieces_length hpiece) (hkeys piece hpiece)).mpr
        (hvalues hignored piece hpiece)

end Loop

/-! ### A file -/

/-- A line that is typed in. -/
def typed (line : String) : List UInt8 := line.toUTF8.toList

/-- A comment that is read in two pieces. -/
def longComment : List UInt8 := List.replicate 300 charHash ++ [charNewline]

theorem lines_independent_typed : Independent
    {line | line ∈ [typed "; Commands\n", longComment, typed "allow-connect = yes\n"]} := by
  have hlines : ∀ line ∈ [typed "; Commands\n", longComment, typed "allow-connect = yes\n"],
      (IsLine line ∧ (lineSize ≤ line.length →
        ∀ piece ∈ (pieces line).getLast?, Ignored piece ∨ KeyEnds piece)) ∧
      (∀ piece ∈ pieces line, Ignored piece ∨ KeyEnds piece) ∧
        (Ignored line → ∀ piece ∈ pieces line, ¬ HasValue piece) := by
    decide +kernel
  exact (lines_independent_iff fun line hline => (hlines line hline).1).mpr
    fun line hline => (hlines line hline).2

/-- A comment ends in the value of the setting behind it, which is the last line and has neither
a value nor a newline. -/
theorem lines_not_independent :
    ¬ ∀ lines : Set (List UInt8), (∀ line ∈ lines, IsLine line) → Independent lines := by
  intro h
  have hlines : IsLine (typed "#2345678901234=yes\n") ∧ IsLine (typed "allow-connect") := by
    decide +kernel
  have hfile : fileLines (typed "#2345678901234=yes\n" ++ typed "allow-connect") =
      [typed "#2345678901234=yes\n", typed "allow-connect"] := by
    decide +kernel
  have hstored : ((parseConfigs (fun _ => true) (fun _ => 0)
        (typed "#2345678901234=yes\n" ++ typed "allow-connect")).1.map fun setting =>
      (cString setting.key, cString setting.val)) = [(typed "allow-connect", typed "yes")] := by
    decide +kernel
  have hnone : contribution (typed "#2345678901234=yes\n") = [] ∧
      contribution (typed "allow-connect") = [] := by
    decide +kernel
  have hindependent := (h {typed "#2345678901234=yes\n", typed "allow-connect"} (by
    rintro line (rfl | rfl)
    · exact hlines.1
    · exact hlines.2)).1 _ (by rw [hfile]; simp) (fun _ => true) fun _ => 0
  rw [hindependent, hfile] at hstored
  simp [hnone.1, hnone.2, storeAll] at hstored

end Socksprox
