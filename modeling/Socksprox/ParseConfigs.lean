import Socksprox.BlockRules
import Socksprox.Lib.Writes

/-!
The whole of `parse_configs` (`src/config.c`): the loop over the lines of the file with the calls
of `store_config` carried out, and `conf_error_check` at its end.

Each call of `store_config` finds a `Host` of its own outside, since the resolver and the allocator
may answer differently each time.
-/

namespace Socksprox

open Lib (ScanFault Writes)

/-! ### The check of the settings -/

/-- The first character of a path. -/
def firstChar (path : Octets valSize) : UInt8 := path ⟨0, by decide⟩

/-- The checks of `conf_error_check`, in order: whether it is one that fails, and what is then
printed. -/
def confChecks (configs : FileConfigs) : List (Bool × String) :=
  [(configs.listenHead.isEmpty, "No addresses were provided\n"),
    (firstChar configs.aLog == charNul, "No path to access log provided\n"),
    (firstChar configs.eLog == charNul, "No path to error log provided\n"),
    (configs.maxConns < 1, "Invalid maximum connections\n"),
    (!configs.allowConnect && !configs.allowBind && !configs.allowUdpassoc,
      "No commands allowed, exitting\n"),
    (configs.allowBind && configs.bindAdvertise.isEmpty,
      "Bind was allowed but no advertise adress was provided\n"),
    (configs.allowBind && configs.bindListen.isEmpty,
      "Bind was allowed but no listen address was provided\n"),
    (configs.allowUdpassoc && configs.udpaAdvertise.isEmpty,
      "UDP Associate was allowed but no advertise address was provided\n"),
    (configs.allowUdpassoc && configs.udpaListen.isEmpty,
      "UDP Associate was allowed but no listen address was provided\n"),
    (((List.finRange 255).map fun i => (configs.methods i).toNat).sum == 0,
      "No methods were provided\n")]

/-- `conf_error_check`: what it returns, and what it prints. -/
def confErrorCheck (configs : FileConfigs) : Int × List String :=
  let failed := (confChecks configs).filter Prod.fst
  (if failed = [] then 0 else 1, failed.map Prod.snd)

/-- Settings that a server can run with. -/
structure FileConfigs.Usable (configs : FileConfigs) : Prop where
  listens : configs.listenHead ≠ []
  aLog : firstChar configs.aLog ≠ charNul
  eLog : firstChar configs.eLog ≠ charNul
  maxConns : 1 ≤ configs.maxConns
  command : configs.allowConnect = true ∨ configs.allowBind = true ∨ configs.allowUdpassoc = true
  bind : configs.allowBind = true → configs.bindAdvertise ≠ [] ∧ configs.bindListen ≠ []
  udpa : configs.allowUdpassoc = true → configs.udpaAdvertise ≠ [] ∧ configs.udpaListen ≠ []
  method : ∃ i, configs.methods i ≠ 0

/-- The check fails with a message, or passes without one. -/
theorem confErrorCheck_cases (configs : FileConfigs) : confErrorCheck configs = (0, []) ∨
    (confErrorCheck configs).1 = 1 ∧ (confErrorCheck configs).2 ≠ [] := by
  unfold confErrorCheck
  by_cases hnone : (confChecks configs).filter Prod.fst = []
  · simp [hnone]
  · exact .inr ⟨if_neg hnone, fun h => hnone (List.map_eq_nil_iff.mp h)⟩

/-- The check passes usable settings and no others. -/
theorem confErrorCheck_iff {configs : FileConfigs} :
    (confErrorCheck configs).1 = 0 ↔ configs.Usable := by
  have hpassed : (confErrorCheck configs).1 = 0 ↔
      ∀ check ∈ confChecks configs, check.1 = false := by
    unfold confErrorCheck
    constructor
    · intro h check hmem
      have hnone : (confChecks configs).filter Prod.fst = [] := by
        by_contra hsome
        simp [hsome] at h
      simpa using List.filter_eq_nil_iff.mp hnone check hmem
    · intro h
      exact if_pos (List.filter_eq_nil_iff.mpr fun check hmem => by simp [h check hmem])
  have hmethods : ((List.finRange 255).map fun i => (configs.methods i).toNat).sum = 0 ↔
      ∀ i, configs.methods i = 0 := by
    simp only [List.sum_eq_zero_iff_forall_eq_nat, List.mem_map, List.mem_finRange, true_and,
      forall_exists_index, forall_apply_eq_imp_iff]
    exact forall_congr' fun i => by simp [← UInt8.toNat_inj]
  rw [hpassed]
  simp only [confChecks, List.forall_mem_cons, List.not_mem_nil, false_implies, implies_true,
    and_true, beq_eq_false_iff_ne, ne_eq, hmethods, decide_eq_false_iff_not,
    List.isEmpty_eq_false_iff, Bool.and_eq_false_iff, Bool.not_eq_false']
  constructor
  · rintro ⟨hlisten, halog, helog, hmax, hcommand, hba, hbl, hua, hul, hmethod⟩
    refine ⟨hlisten, halog, helog, by omega, or_assoc.mp hcommand, fun h => ?_, fun h => ?_,
      not_forall.mp hmethod⟩
    · simpa [h] using And.intro hba hbl
    · simpa [h] using And.intro hua hul
  · rintro ⟨hlisten, halog, helog, hmax, hcommand, hbind, hudpa, hmethod⟩
    refine ⟨hlisten, halog, helog, by omega, or_assoc.mpr hcommand, ?_, ?_, ?_, ?_,
      not_forall.mpr hmethod⟩
    · exact (Bool.eq_false_or_eq_true configs.allowBind).symm.imp_right fun h => (hbind h).1
    · exact (Bool.eq_false_or_eq_true configs.allowBind).symm.imp_right fun h => (hbind h).2
    · exact (Bool.eq_false_or_eq_true configs.allowUdpassoc).symm.imp_right fun h => (hudpa h).1
    · exact (Bool.eq_false_or_eq_true configs.allowUdpassoc).symm.imp_right fun h => (hudpa h).2

instance (configs : FileConfigs) : Decidable configs.Usable :=
  decidable_of_iff _ confErrorCheck_iff

/-! ### The loop -/

/-- How the loop of `parse_configs` ends: at the end of the file, at a call of `store_config` that
fails, or outside the arrays or the operators of C. -/
inductive Loaded where
  | done (configs : FileConfigs)
  | failed (configs : FileConfigs)
  | scanFault (f : ScanFault)
  | storeFault (f : ConfigFault)

/-- The loop of `parse_configs`. `host n` is what the call of `store_config` made after `n` others
finds. -/
def loadLines (host : Nat → Host) :
    Nat → Octets lineSize → List UInt8 → FileConfigs → Loaded
  | 0, _, _, configs => .done configs
  | fuel + 1, line, file, configs =>
    match fgets line file with
    | none => .done configs
    | some (line, rest) =>
      match parseLine line.toList with
      | .error f => .scanFault f
      | .ok none => loadLines host fuel line rest configs
      | .ok (some setting) =>
        match storeConfig (host 0) setting configs [] with
        | .fault f _ => .storeFault f
        | .ok r _ =>
          if r.1 ≠ 0 then .failed r.2 else loadLines (fun n => host (n + 1)) fuel line rest r.2

/-- How reading the configuration stops outside the arrays or the operators of C. -/
inductive LoadFault where
  | scan (f : ScanFault)
  | store (f : ConfigFault)
  deriving DecidableEq

/-- `parse_configs`: what it returns, the settings it leaves, and what it prints. There is no
`file` when it cannot be opened. -/
def loadConfigs (host : Nat → Host) (line : Octets lineSize) :
    Option (List UInt8) → Except LoadFault (Int × FileConfigs × List String)
  | none => .ok (1, .cleared, ["Error: Could not find config file at /etc/socksprox.conf\n"])
  | some file =>
    match loadLines host file.length line file .cleared with
    | .done configs => .ok ((confErrorCheck configs).1, configs, (confErrorCheck configs).2)
    | .failed configs => .ok (1, configs, ["Error while allocating memory for configs\n"])
    | .scanFault f => .error (.scan f)
    | .storeFault f => .error (.store f)

/-! ### Scanning first, storing afterwards -/

/-- The calls of `store_config` for these settings, up to the first that fails. -/
def storeEach (host : Nat → Host) : List Setting → FileConfigs → Loaded
  | [], configs => .done configs
  | setting :: settings, configs =>
    match storeConfig (host 0) setting configs [] with
    | .fault f _ => .storeFault f
    | .ok r _ => if r.1 ≠ 0 then .failed r.2 else storeEach (fun n => host (n + 1)) settings r.2

/-- With all settings stored, the loop ends as the scanners end it. -/
def Loaded.scanned : Loaded → Ending → Loaded
  | .done _, .fault f => .scanFault f
  | loaded, _ => loaded

section Loop

variable {host : Nat → Host} {file : List UInt8} {configs configs' : FileConfigs}
  {settings : List Setting}

/-- The loop stores what the scanners find when no call fails, until one does. -/
theorem loadLines_eq (host : Nat → Host) (fuel : Nat) (line : Octets lineSize) (file : List UInt8)
    (configs : FileConfigs) : loadLines host fuel line file configs =
      (storeEach host (parseLines (fun _ => true) fuel line file).1 configs).scanned
        (parseLines (fun _ => true) fuel line file).2 := by
  induction fuel generalizing host line file configs with
  | zero => rfl
  | succ fuel ih =>
    rw [loadLines, parseLines]
    cases hgot : fgets line file with
    | none => rfl
    | some got =>
      cases hparse : parseLine got.1.toList with
      | error f => simp only [hparse, storeEach, Loaded.scanned]
      | ok r =>
        cases r with
        | none => simp only [hparse, ih]
        | some setting =>
          simp only [hparse, if_true, storeEach]
          cases storeConfig (host 0) setting configs [] with
          | fault f log => rfl
          | ok r log =>
            by_cases hret : r.1 = 0
            · simp only [hret, ne_eq, not_true_eq_false, if_false, ih]
            · simp only [hret, ne_eq, not_false_eq_true, if_true, Loaded.scanned]

/-- A call of `store_config` that returns 0. -/
def Stores (call : Host × Setting) (configs configs' : FileConfigs) : Prop :=
  ∃ log, storeConfig call.1 call.2 configs [] = .ok (0, configs') log

/-- The calls for the settings, each with its host. -/
def calls (host : Nat → Host) : List Setting → List (Host × Setting)
  | [] => []
  | setting :: settings => (host 0, setting) :: calls (fun n => host (n + 1)) settings

theorem storeEach_done :
    storeEach host settings configs = .done configs' ↔
      Writes Stores (calls host settings) configs configs' := by
  induction settings generalizing host configs with
  | nil => simp [storeEach, calls, eq_comm]
  | cons setting settings ih =>
    rw [storeEach, calls, Writes.cons_iff]
    cases hstore : storeConfig (host 0) setting configs [] with
    | fault f log => simp [Stores, hstore]
    | ok r log =>
      obtain ⟨ret, configs₁⟩ := r
      by_cases hret : ret = 0
      · subst hret
        simp [Stores, hstore, ih]
      · simp [Stores, hstore, hret]

end Loop

/-! ### Written files -/

/-- A line of a file: a blank line or a comment, or a setting. -/
inductive FileLine where
  | remark (text : List UInt8) (hplain : charNewline ∉ text)
      (hignored : Ignored (text ++ [charNewline])) (hfit : text.length + 1 < lineSize)
  | setting (l : SettingLine) (hfit : l.text.length < lineSize)

namespace FileLine

def text : FileLine → List UInt8
  | .remark text _ _ _ => text ++ [charNewline]
  | .setting l _ => l.text

def setting? : FileLine → Option Setting
  | .remark _ _ _ _ => none
  | .setting l _ => some l.setting

end FileLine

/-- A file that is written line by line. -/
def fileText (lines : List FileLine) : List UInt8 := lines.flatMap FileLine.text

section Written

variable {lines : List FileLine} {text rest : List UInt8}

theorem fileLines_concat (h : charNewline ∉ text) :
    fileLines (text ++ charNewline :: rest) = (text ++ [charNewline]) :: fileLines rest := by
  induction text with
  | nil => simp [fileLines]
  | cons c text ih =>
    obtain ⟨hc, htext⟩ := not_or.mp (List.mem_cons.not.mp h)
    rw [List.cons_append, fileLines, if_neg (Ne.symm hc), ih htext]
    rfl

/-- What stands in front of the newline of a setting's line has none. -/
theorem SettingLine.text_eq (l : SettingLine) :
    ∃ body, l.text = body ++ [charNewline] ∧ charNewline ∉ body := by
  refine ⟨l.lead ++ (l.key ++ (l.separator ++ (l.val ++ l.trail))), by simp [SettingLine.text], ?_⟩
  simp only [List.mem_append, not_or]
  exact ⟨fun h => absurd (l.lead_blank _ h) (by decide),
    fun h => absurd (l.key_plain _ h).2 (by decide),
    fun h => absurd (l.separator_kind _ h) (by decide),
    fun h => absurd (l.val_plain _ h) (by decide),
    fun h => absurd (l.trail_blank _ h) (by decide)⟩

theorem FileLine.text_eq (l : FileLine) :
    ∃ body, l.text = body ++ [charNewline] ∧ charNewline ∉ body := by
  cases l with
  | remark text hplain hignored hfit => exact ⟨text, rfl, hplain⟩
  | setting l hfit => exact l.text_eq

/-- The file has the lines that were written. -/
theorem fileLines_fileText (lines : List FileLine) :
    fileLines (fileText lines) = lines.map FileLine.text := by
  induction lines with
  | nil => rfl
  | cons l lines ih =>
    obtain ⟨body, hbody, hplain⟩ := l.text_eq
    rw [fileText, List.flatMap_cons, hbody, List.append_assoc, List.map_cons, hbody]
    exact (fileLines_concat hplain).trans (congrArg _ ih)

/-- The key of a setting ends in its line, and in time. -/
theorem SettingLine.keyEnds (l : SettingLine) : KeyEnds l.text := by
  obtain ⟨k, ks, hkey⟩ := List.exists_cons_of_ne_nil l.key_ne
  obtain ⟨s, ss, hsep⟩ := List.exists_cons_of_ne_nil l.separator_ne
  have hk : isSeparator k = false := (l.key_plain k (by simp [hkey])).1
  have hs : isSeparator s = true := l.separator_kind s (by simp [hsep])
  have htext : lineText l.text =
      k :: (ks ++ s :: (ss ++ (l.val ++ (l.trail ++ [charNewline])))) := by
    rw [lineText, SettingLine.text, List.dropWhile_append_of_pos l.lead_blank, hkey, hsep,
      List.cons_append, List.dropWhile_cons_of_neg (by simp [isBlank_isSeparator hk])]
    rfl
  have htail : keyTail l.text = ks := by
    have hplain : ∀ c ∈ ks, (!isSeparator c) = true := fun c hc => by
      simp [(l.key_plain c (by simp [hkey, hc])).1]
    rw [keyTail, htext, List.tail_cons, List.takeWhile_append_of_pos hplain,
      List.takeWhile_cons_of_neg (by simp [hs]), List.append_nil]
  have hfits : ks.length + 1 < keySize := by simpa [hkey] using l.key_fits
  rw [KeyEnds, htail, htext, List.tail_cons, if_neg (by simp)]
  simp only [keySize] at hfits
  omega

theorem ownSettings_text (l : FileLine) : ownSettings l.text = l.setting?.toList := by
  cases l with
  | remark text hplain hignored hfit =>
    rw [FileLine.text, ownSettings, parseLine_iff.mpr (parsed_ignored hignored [])]
    rfl
  | setting l hfit =>
    have hparsed : Parsed (l.text ++ charNul :: []) _ := SettingLine.parsed hfit
    rw [FileLine.text, ownSettings, parseLine_iff.mpr hparsed]
    rfl

/-- **A written file is read line by line.** Whatever the stack holds, the settings of a file
that is written line by line are stored in order, and its blank lines and comments are passed
over. -/
theorem loadLines_written (host : Nat → Host) (line : Octets lineSize) (lines : List FileLine)
    (configs : FileConfigs) :
    loadLines host (fileText lines).length line (fileText lines) configs =
      storeEach host (lines.filterMap FileLine.setting?) configs := by
  have hends : ∀ text ∈ fileLines (fileText lines),
      text.length < lineSize ∧ (Ignored text ∨ KeyEnds text) := by
    rw [fileLines_fileText]
    intro text hmem
    obtain ⟨l, -, rfl⟩ := List.mem_map.mp hmem
    cases l with
    | remark text hplain hignored hfit => exact ⟨by simpa [FileLine.text] using hfit, .inl hignored⟩
    | setting l hfit => exact ⟨hfit, .inr l.keyEnds⟩
  have hpieces : pieces (fileText lines) = fileLines (fileText lines) :=
    pieces_of_fits fun text hmem => (hends text hmem).1
  have hsettings : (pieces (fileText lines)).flatMap ownSettings =
      lines.filterMap FileLine.setting? := by
    rw [hpieces, fileLines_fileText, List.flatMap_map, List.filterMap_eq_flatMap_toList]
    exact List.flatMap_congr fun l _ => ownSettings_text l
  have hstored : ∀ settings, storeAll (fun _ => true) settings = (settings, .done) := by
    intro settings
    induction settings with
    | nil => rfl
    | cons setting settings ih => simp [storeAll, ih]
  rw [loadLines_eq, parseLines_own (fun text hmem => (hends text (hpieces ▸ hmem)).2) le_rfl,
    hsettings, hstored]
  show (storeEach host _ configs).scanned .done = _
  cases storeEach host (lines.filterMap FileLine.setting?) configs <;> rfl

end Written

end Socksprox
