import Socksprox.Config
import Socksprox.Lib.Scan
import Mathlib.Data.List.GetD

/-!
The configuration file (`src/config.c`): the scanners of a line, and the loop of `parse_configs`
over what `fgets` hands it.

A `char *` into `line` is the list of the characters from there to the end of the array, 255 of
them from the start. A read behind the array and a write behind `key` or `val` stop the parse with
a `ScanFault`.
-/

namespace Socksprox

open Lib (ScanFault)

/-! ### Characters -/

def charNul : UInt8 := 0x00
def charTab : UInt8 := 0x09
def charNewline : UInt8 := 0x0A
def charReturn : UInt8 := 0x0D
def charSpace : UInt8 := 0x20
def charHash : UInt8 := 0x23
def charSemicolon : UInt8 := 0x3B
def charEquals : UInt8 := 0x3D

/-- A space or a tab. -/
def isBlank (c : UInt8) : Bool := c == charSpace || c == charTab

/-- What ends a key. -/
def isSeparator (c : UInt8) : Bool := c == charSpace || c == charTab || c == charEquals

/-- What ends a line. -/
def isLineEnd (c : UInt8) : Bool := c == charNewline || c == charReturn || c == charNul

/-- What a line without a setting starts with. -/
def startsComment (c : UInt8) : Bool := isLineEnd c || c == charHash || c == charSemicolon

/-- What ends a value. -/
def isValueEnd (c : UInt8) : Bool := isLineEnd c || isBlank c

/-! ### The scanners -/

def skipWhitespace (c : List UInt8) : Except ScanFault (List UInt8) := Lib.skipWhile isBlank c

def lineComment (c : List UInt8) : Except ScanFault Bool := (Lib.peek c).map startsComment

/-- `get_key`: what it stores into `key`, and where it stops. -/
def getKey (c : List UInt8) (keysz : Nat) : Except ScanFault (List UInt8 × List UInt8) :=
  Lib.token isSeparator charNul keysz c

def toValue (c : List UInt8) : Except ScanFault (List UInt8) := Lib.skipWhile isSeparator c

def newLine (c : List UInt8) : Except ScanFault Bool := (Lib.peek c).map isLineEnd

/-- `get_val`: what it stores into `val`, and where it stops. -/
def getVal (c : List UInt8) (valsz : Nat) : Except ScanFault (List UInt8 × List UInt8) :=
  Lib.token isValueEnd charNul valsz c

def keySize : Nat := 64
def valSize : Nat := 255
def lineSize : Nat := 255

/-- An array of zeros with `bytes` stored at its start. -/
def zeroFilled (n : Nat) (bytes : List UInt8) : Octets n := fun i => bytes.getD i 0

/-- The string in an array that has a terminator. -/
def cString {n : Nat} (a : Octets n) : List UInt8 := a.toList.takeWhile fun c => c != charNul

/-- The arguments of a call of `store_config`: the arrays, which it takes for strings. -/
structure Setting where
  key : Octets keySize
  val : Octets valSize
  deriving DecidableEq

/-- The loop's body after `fgets`: the call of `store_config` that it makes, if it makes one. -/
def parseLine (line : List UInt8) : Except ScanFault (Option Setting) := do
  let c ← skipWhitespace line
  if ← lineComment c then
    return none
  let (key, c) ← getKey c keySize
  let c ← toValue c
  if ← newLine c then
    return none
  let (val, _) ← getVal c valSize
  return some ⟨zeroFilled keySize key, zeroFilled valSize val⟩

/-! ### The file -/

/-- At most `n` characters of the file, up to a newline, and the rest of it. -/
def takeLine : Nat → List UInt8 → List UInt8 × List UInt8
  | 0, file => ([], file)
  | _ + 1, [] => ([], [])
  | n + 1, c :: file =>
    if c = charNewline then ([c], file)
    else (c :: (takeLine n file).1, (takeLine n file).2)

/-- The array with a string stored at its start; what is behind the string's end stays. -/
def overwritten {n : Nat} (line : Octets n) (text : List UInt8) : Octets n := fun i =>
  if i < text.length then text.getD i 0 else if i.val = text.length then charNul else line i

/-- `fgets`, `none` at the end of the file. -/
def fgets (line : Octets lineSize) (file : List UInt8) : Option (Octets lineSize × List UInt8) :=
  if file = [] then none
  else some (overwritten line (takeLine (lineSize - 1) file).1, (takeLine (lineSize - 1) file).2)

/-- How the loop ends: at the end of the file, at a call that fails, or outside an array. -/
inductive Ending where
  | done
  | failed
  | fault (f : ScanFault)
  deriving DecidableEq

/-- The loop of `parse_configs`: the calls of `store_config` that it makes. `ret n` says whether the
call made after `n` others returns 0. `line` starts with what is on the stack. -/
def parseLines (ret : Nat → Bool) : Nat → Octets lineSize → List UInt8 → List Setting × Ending
  | 0, _, _ => ([], .done)
  | fuel + 1, line, file =>
    match fgets line file with
    | none => ([], .done)
    | some (line, rest) =>
      match parseLine line.toList with
      | .error f => ([], .fault f)
      | .ok none => parseLines ret fuel line rest
      | .ok (some setting) =>
        if ret 0 then
          let later := parseLines (fun n => ret (n + 1)) fuel line rest
          (setting :: later.1, later.2)
        else ([setting], .failed)

/-- Every turn of the loop takes a character. -/
def parseConfigs (ret : Nat → Bool) (line : Octets lineSize) (file : List UInt8) :
    List Setting × Ending := parseLines ret file.length line file

/-! ### The ways through a line -/

/-- What a line comes to that is scanned within the arrays. -/
inductive Parsed (line : List UInt8) : Option Setting → Prop where
  | ignored {c : List UInt8} (hskip : skipWhitespace line = .ok c)
      (hcomment : lineComment c = .ok true) :
      Parsed line none
  | idle {c c₁ c₂ key : List UInt8} (hskip : skipWhitespace line = .ok c)
      (hcomment : lineComment c = .ok false) (hkey : getKey c keySize = .ok (key, c₁))
      (hvalue : toValue c₁ = .ok c₂) (hended : newLine c₂ = .ok true) : Parsed line none
  | setting {c c₁ c₂ c₃ key val : List UInt8} (hskip : skipWhitespace line = .ok c)
      (hcomment : lineComment c = .ok false) (hkey : getKey c keySize = .ok (key, c₁))
      (hvalue : toValue c₁ = .ok c₂) (hended : newLine c₂ = .ok false)
      (hval : getVal c₂ valSize = .ok (val, c₃)) :
      Parsed line (some ⟨zeroFilled keySize key, zeroFilled valSize val⟩)

section Lines

variable {line : List UInt8} {r : Option Setting}

/-- A computation that returned, taken apart. -/
theorem Except.of_bind {ε α β : Type} {x : Except ε α} {f : α → Except ε β} {b : β}
    (h : x >>= f = .ok b) : ∃ a, x = .ok a ∧ f a = .ok b := by
  cases x with
  | error e => cases h
  | ok a => exact ⟨a, rfl, h⟩

theorem Except.ok_bind {ε α β : Type} (a : α) (f : α → Except ε β) : Except.ok a >>= f = f a := rfl

theorem parseLine_iff : parseLine line = .ok r ↔ Parsed line r := by
  constructor
  · intro h
    unfold parseLine at h
    obtain ⟨c, hskip, h⟩ := Except.of_bind h
    obtain ⟨comment, hcomment, h⟩ := Except.of_bind h
    cases comment with
    | true =>
      cases h
      exact .ignored hskip hcomment
    | false =>
      obtain ⟨⟨key, c₁⟩, hkey, h⟩ := Except.of_bind h
      obtain ⟨c₂, hvalue, h⟩ := Except.of_bind h
      obtain ⟨ended, hended, h⟩ := Except.of_bind h
      cases ended with
      | true =>
        cases h
        exact .idle hskip hcomment hkey hvalue hended
      | false =>
        obtain ⟨⟨val, c₃⟩, hval, h⟩ := Except.of_bind h
        cases h
        exact .setting hskip hcomment hkey hvalue hended hval
  · intro h
    cases h with
    | ignored hskip hcomment => simp [parseLine, Except.ok_bind, hskip, hcomment, pure, Except.pure]
    | idle hskip hcomment hkey hvalue hended =>
      simp [parseLine, Except.ok_bind, hskip, hcomment, hkey, hvalue, hended, pure, Except.pure]
    | setting hskip hcomment hkey hvalue hended hval =>
      simp [parseLine, Except.ok_bind, hskip, hcomment, hkey, hvalue, hended, hval, Functor.map,
        Except.map]

theorem lineComment_append {c : List UInt8} {b : Bool} (h : lineComment c = .ok b)
    (more : List UInt8) : lineComment (c ++ more) = .ok b := by
  cases c with
  | nil => cases h
  | cons a c => exact h

theorem newLine_append {c : List UInt8} {b : Bool} (h : newLine c = .ok b) (more : List UInt8) :
    newLine (c ++ more) = .ok b := by
  cases c with
  | nil => cases h
  | cons a c => exact h

/-- What a line comes to depends on what is read of the array only. -/
theorem Parsed.append (h : Parsed line r) (more : List UInt8) : Parsed (line ++ more) r := by
  cases h with
  | ignored hskip hcomment =>
    exact .ignored (Lib.skipWhile_append hskip more) (lineComment_append hcomment more)
  | idle hskip hcomment hkey hvalue hended =>
    exact .idle (Lib.skipWhile_append hskip more) (lineComment_append hcomment more)
      (Lib.token_append hkey more) (Lib.skipWhile_append hvalue more) (newLine_append hended more)
  | setting hskip hcomment hkey hvalue hended hval =>
    exact .setting (Lib.skipWhile_append hskip more) (lineComment_append hcomment more)
      (Lib.token_append hkey more) (Lib.skipWhile_append hvalue more) (newLine_append hended more)
      (Lib.token_append hval more)

end Lines

/-! ### What is read of the file -/

/-- The lines of a file, each with its newline; the last may have none. -/
def fileLines : List UInt8 → List (List UInt8)
  | [] => []
  | c :: file =>
    if c = charNewline then [c] :: fileLines file
    else match fileLines file with
      | [] => [[c]]
      | text :: texts => (c :: text) :: texts

section File

variable {file text : List UInt8} {texts : List (List UInt8)} {n : Nat}

theorem fileLines_eq_nil (h : fileLines file = []) : file = [] := by
  cases file with
  | nil => rfl
  | cons c file =>
    rw [fileLines] at h
    split at h
    · cases h
    · split at h
      · cases h
      · cases h

theorem fileLines_ne_nil (h : fileLines file = text :: texts) : text ≠ [] := by
  cases file with
  | nil => cases h
  | cons c file =>
    rw [fileLines] at h
    split at h
    · cases h
      simp
    · split at h
      · cases h
        simp
      · cases h
        simp

/-- A line that fits is what is taken. -/
theorem takeLine_fits (h : fileLines file = text :: texts) (hfit : text.length ≤ n) :
    (takeLine n file).1 = text ∧ fileLines (takeLine n file).2 = texts := by
  induction n generalizing file text with
  | zero =>
    have hnil : text = [] := List.length_eq_zero_iff.mp (Nat.le_zero.mp hfit)
    subst hnil
    cases file with
    | nil => cases h
    | cons c file =>
      rw [fileLines] at h
      split at h
      · cases h
      · split at h
        · cases h
        · cases h
  | succ n ih =>
    cases file with
    | nil => cases h
    | cons c file =>
      rw [fileLines] at h
      rw [takeLine]
      split at h
      · rename_i hnewline
        cases h
        simp [hnewline]
      · rename_i hother
        rw [if_neg hother]
        split at h
        · rename_i hnone
          cases h
          obtain rfl := fileLines_eq_nil hnone
          cases n <;> simp [takeLine, fileLines]
        · rename_i text' texts' hsome
          cases h
          obtain ⟨htaken, hrest⟩ := ih hsome (by simpa using hfit)
          exact ⟨by rw [htaken], hrest⟩

theorem takeLine_append (n : Nat) (file : List UInt8) :
    (takeLine n file).1 ++ (takeLine n file).2 = file := by
  induction n generalizing file with
  | zero => rfl
  | succ n ih =>
    cases file with
    | nil => rfl
    | cons c file =>
      rw [takeLine]
      split
      · rfl
      · rw [List.cons_append, ih]

theorem takeLine_le (n : Nat) (file : List UInt8) : (takeLine n file).1.length ≤ n := by
  induction n generalizing file with
  | zero => exact Nat.le_refl 0
  | succ n ih =>
    cases file with
    | nil => exact Nat.zero_le _
    | cons c file =>
      rw [takeLine]
      split
      · simp
      · exact Nat.succ_le_succ (ih file)

theorem takeLine_lt (hn : 0 < n) (hne : file ≠ []) : (takeLine n file).2.length < file.length := by
  obtain ⟨n, rfl⟩ : ∃ m, n = m + 1 := ⟨n - 1, by omega⟩
  cases file with
  | nil => exact absurd rfl hne
  | cons c file =>
    have hlen := congrArg List.length (takeLine_append n file)
    rw [List.length_append] at hlen
    rw [takeLine]
    split
    · simp
    · simp only [List.length_cons]
      omega

/-- Of a line that does not fit, the front is taken, and the rest stays a line. -/
theorem takeLine_long (h : fileLines file = text :: texts) (hlong : n < text.length) :
    (takeLine n file).1 = text.take n ∧ fileLines (takeLine n file).2 = text.drop n :: texts := by
  induction n generalizing file text with
  | zero => exact ⟨rfl, h⟩
  | succ n ih =>
    cases file with
    | nil => cases h
    | cons c file =>
      rw [fileLines] at h
      rw [takeLine]
      split at h
      · cases h
        simp at hlong
      · rename_i hother
        rw [if_neg hother]
        split at h
        · cases h
          simp at hlong
        · rename_i text' texts' hsome
          cases h
          obtain ⟨htaken, hrest⟩ := ih hsome (by simpa using hlong)
          exact ⟨by rw [htaken, List.take_succ_cons], hrest⟩

/-- A line of a file is a line. -/
theorem fileLines_of_mem (h : text ∈ fileLines file) : fileLines text = [text] := by
  induction file generalizing text with
  | nil => cases h
  | cons c file ih =>
    rw [fileLines] at h
    split at h
    · rename_i hnewline
      rcases List.mem_cons.mp h with rfl | h
      · simp [fileLines, hnewline]
      · exact ih h
    · rename_i hother
      split at h
      · obtain rfl := List.mem_singleton.mp h
        simp [fileLines, hother]
      · rename_i text' texts' hsome
        rw [hsome] at ih
        rcases List.mem_cons.mp h with rfl | h
        · rw [fileLines, if_neg hother, ih List.mem_cons_self]
        · exact ih (List.mem_cons_of_mem _ h)

theorem overwritten_toList {m : Nat} {line : Octets m} (hfit : text.length < m) :
    (overwritten line text).toList = text ++ charNul :: line.toList.drop (text.length + 1) := by
  refine List.ext_getElem (by simp; omega) fun i hi hi' => ?_
  simp only [Octets.toList, List.getElem_ofFn, overwritten]
  rcases lt_trichotomy i text.length with hlt | heq | hgt
  · rw [if_pos hlt, List.getElem_append_left hlt]
    exact List.getD_eq_getElem _ _ hlt
  · subst heq
    simp
  · rw [if_neg (by omega), if_neg (by omega), List.getElem_append_right (by omega)]
    obtain ⟨k, hk⟩ : ∃ k, i - text.length = k + 1 := ⟨i - text.length - 1, by omega⟩
    simp only [hk, List.getElem_cons_succ, List.getElem_drop, List.getElem_ofFn]
    congr 1
    exact Fin.ext (by simp; omega)

end File

end Socksprox
