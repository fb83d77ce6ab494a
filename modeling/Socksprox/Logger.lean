import Socksprox.Config
import Socksprox.Lib.Pipe
import Mathlib.Data.List.GetD

/-!
The logger (`src/logger.c`): the messages that `log_custom`, `log_error` and `log_access` write to
its pipe, and the reads by which `logger_th` takes them off it.

The writer copies a string without a terminator, and the reader takes one octet more than the string
has.
-/

namespace Socksprox.Logger

open Lib (Move pipeRead)

def logCustomType : UInt8 := 0x00
def logErrorType : UInt8 := 0x01
def logAccessType : UInt8 := 0x02
def logSigJoin : UInt8 := 0xFF

def fileAccess : UInt8 := 0x00
def fileError : UInt8 := 0x01

/-- The number of `error_strings`. -/
def errorCount : Nat := 20

/-- The number of `access_formats`. -/
def accessCount : Nat := 14

/-- `sizeof(struct sockaddr_storage)`. -/
def storageSize : Nat := 128

/-! ### The writer -/

def logCustom (str : List UInt8) (file : UInt8) : List UInt8 :=
  if 252 < str.length then []
  else logCustomType :: file :: UInt8.ofNat str.length :: str

def logError (code : UInt8) : List UInt8 := [logErrorType, code]

def logAccess (code : UInt8) (client server : Octets storageSize) : List UInt8 :=
  logAccessType :: code :: (client.toList ++ server.toList)

/-! ### The reader -/

/-- What is written to a log file: a line with the string, with the text of the code, or with the
format of the code and the addresses. -/
inductive Line where
  | custom (str : List UInt8)
  | error (code : UInt8)
  | access (code : UInt8) (client server : Octets storageSize)
  deriving DecidableEq

/-- A line, and the index of its file in `log_files`. -/
structure Record where
  file : UInt8
  line : Line
  deriving DecidableEq

/-- An index out of its table, or a store in front of an array without elements. -/
inductive LogFault where
  | file
  | string
  | format
  | array
  deriving DecidableEq

def writeCustom (str : List UInt8) (file : UInt8) : Except LogFault (List Record) :=
  if file.toNat < 2 then .ok [⟨file, .custom (str.takeWhile fun c => c != 0)⟩] else .error .file

def writeError (code : UInt8) : Except LogFault (List Record) :=
  if code.toNat < errorCount then .ok [⟨fileError, .error code⟩] else .error .string

def writeAccess (code : UInt8) (client server : Octets storageSize) :
    Except LogFault (List Record) :=
  if code.toNat < accessCount then .ok [⟨fileAccess, .access code client server⟩]
    else .error .format

/-- Where `logger_th` stands between two of its calls: in `poll`, or in front of the `read` of a
field, with the fields it has read. -/
inductive Reading where
  | polling
  | type
  | customFile
  | customSize (file : UInt8)
  | customStr (file strsz : UInt8)
  | errorCode
  | accessCode
  | accessClient (code : UInt8)
  | accessServer (code : UInt8) (client : Octets storageSize)
  | joined
  deriving DecidableEq

/-- A `read` of one octet into a variable that has the value `unread`. -/
def readOctet (unread : UInt8) (pipe : List UInt8) : UInt8 × List UInt8 :=
  (((pipeRead 1 pipe).1.bind List.head?).getD unread, (pipeRead 1 pipe).2)

/-- A `read` into a cleared `struct sockaddr_storage`, whose result is not looked at. -/
def readStorage (pipe : List UInt8) : Octets storageSize × List UInt8 :=
  (fun i => ((pipeRead storageSize pipe).1.getD []).getD i 0, (pipeRead storageSize pipe).2)

/-- The `switch` on the type of a message. -/
def dispatch (logType : UInt8) : Reading :=
  if logType = logCustomType then .customFile
  else if logType = logErrorType then .errorCode
  else if logType = logAccessType then .accessCode
  else if logType = logSigJoin then .joined
  else .type

/-- One call of `logger_th`, up to the next. A failed `read` is -1, which is no less than the size
it is compared with when that is a `sizeof`, and so passes for a full one. -/
def loggerTh : Lib.Reader LogFault UInt8 Reading Record
  | .polling, pipe => .ok (if pipe = [] then .polling else .type, pipe, [])
  | .type, pipe =>
    if pipe = [] then .ok (.polling, [], [])
    else .ok (dispatch (readOctet 0xFF pipe).1, (readOctet 0xFF pipe).2, [])
  | .customFile, pipe => .ok (.customSize (readOctet 0 pipe).1, (readOctet 0 pipe).2, [])
  | .customSize file, pipe =>
    .ok (.customStr file ((readOctet 0 pipe).1 + 1), (readOctet 0 pipe).2, [])
  | .customStr file strsz, pipe =>
    if strsz = 0 then .error .array
    else
      let r := pipeRead strsz.toNat pipe
      match r.1 with
      | none => .ok (.type, r.2, [])
      | some str =>
        if str.length < strsz.toNat then .ok (.type, r.2, [])
        else (writeCustom str.dropLast file).map fun records => (.type, r.2, records)
  | .errorCode, pipe =>
    (writeError (readOctet 0xFF pipe).1).map fun records =>
      (.type, (readOctet 0xFF pipe).2, records)
  | .accessCode, pipe => .ok (.accessClient (readOctet 0 pipe).1, (readOctet 0 pipe).2, [])
  | .accessClient code, pipe =>
    .ok (.accessServer code (readStorage pipe).1, (readStorage pipe).2, [])
  | .accessServer code client, pipe =>
    (writeAccess code client (readStorage pipe).1).map fun records =>
      (.type, (readStorage pipe).2, records)
  | .joined, pipe => .ok (.joined, pipe, [])

/-! ### Calls -/

/-- A call of the logger with a valid file or code. -/
inductive Call where
  | custom (str : List UInt8) (file : UInt8) (hstr : str.length ≤ 252) (hfile : file.toNat < 2)
  | error (code : UInt8) (hcode : code.toNat < errorCount)
  | access (code : UInt8) (client server : Octets storageSize) (hcode : code.toNat < accessCount)

namespace Call

/-- The message the call writes. -/
def message : Call → List UInt8
  | .custom str file _ _ => logCustom str file
  | .error code _ => logError code
  | .access code client server _ => logAccess code client server

/-- What the call is to have logged. -/
def record : Call → Record
  | .custom str file _ _ => ⟨file, .custom (str.takeWhile fun c => c != 0)⟩
  | .error code _ => ⟨fileError, .error code⟩
  | .access code client server _ => ⟨fileAccess, .access code client server⟩

/-- A call of `log_custom`. -/
def IsCustom : Call → Prop
  | .custom .. => True
  | _ => False

instance : DecidablePred IsCustom
  | .custom .. => .isTrue trivial
  | .error .. => .isFalse not_false
  | .access .. => .isFalse not_false

end Call

/-- The pipe when the thread starts. -/
def loggerStart : Lib.Piped UInt8 Reading Record := ⟨[], .polling, []⟩

/-- However the reads of the thread fall between the calls, no table is left, and once the pipe is
read to its end the thread has logged what the calls were to have logged, in order. -/
def LogsExactly (calls : List Call) : Prop :=
  ∀ timing : List (Move Call), Lib.writes timing = calls →
    ∃ k w, Lib.moves Call.message loggerTh (timing ++ List.replicate k .read) loggerStart = .ok w ∧
      w.pipe = [] ∧ w.reader ∈ [Reading.polling, .type] ∧ w.out = calls.map Call.record

/-! ### Messages that are taken whole -/

section Codec

variable {more : List UInt8}

/-- The thread is between two messages. -/
def Between (s : Reading) : Prop := s ∈ [Reading.polling, .type]

theorem pipeRead_append {α : Type} {n : Nat} {l more : List α} (hlen : l.length = n)
    (hpos : 0 < n) :
    pipeRead n (l ++ more) = (some l, more) := by
  have hne : l ++ more ≠ [] := by
    intro h
    simp [List.append_eq_nil_iff.mp h] at hlen
    omega
  rw [pipeRead, if_neg (by omega), if_neg hne, List.take_left' hlen, List.drop_left' hlen]

@[simp] theorem readOctet_cons (unread c : UInt8) (pipe : List UInt8) :
    readOctet unread (c :: pipe) = (c, pipe) := by
  simp [readOctet, pipeRead]

@[simp] theorem readStorage_append (a : Octets storageSize) :
    readStorage (a.toList ++ more) = (a, more) := by
  rw [readStorage, pipeRead_append a.length_toList (by decide)]
  refine Prod.ext ?_ rfl
  funext i
  simp [Octets.toList]

/-- From the poll, the thread gets to the first octet of a message. -/
theorem reads_between {s : Reading} {c : UInt8} {rest : List UInt8} {records : List Record}
    (hs : Between s) (h : Lib.Reads loggerTh Between .type (c :: rest) records) :
    Lib.Reads loggerTh Between s (c :: rest) records := by
  rcases List.mem_pair.mp hs with rfl | rfl
  · have hpoll : ∀ more, loggerTh .polling ((c :: rest) ++ more) =
        .ok (.type, (c :: rest) ++ more, []) := fun more => by simp [loggerTh]
    exact .stay hpoll h
  · exact h

theorem loggerTh_type (c : UInt8) (pipe : List UInt8) :
    loggerTh .type (c :: pipe) = .ok (dispatch c, pipe, []) := by
  simp [loggerTh]

theorem reads_error {code : UInt8} (hcode : code.toNat < errorCount) :
    Lib.Reads loggerTh Between .type (logError code) [⟨fileError, .error code⟩] := by
  have htype : ∀ more, loggerTh .type ([logErrorType] ++ more) = .ok (.errorCode, more, []) :=
    fun more => loggerTh_type _ _
  have hread : ∀ more, loggerTh .errorCode ([code] ++ more) =
      .ok (.type, more, [⟨fileError, .error code⟩]) := fun more => by
    simp [loggerTh, writeError, hcode, Except.map]
  exact .take htype (.take hread (.done (by simp [Between])))

theorem reads_access {code : UInt8} {client server : Octets storageSize}
    (hcode : code.toNat < accessCount) : Lib.Reads loggerTh Between .type
    (logAccess code client server)
      [⟨fileAccess, .access code client server⟩] := by
  have htype : ∀ more, loggerTh .type ([logAccessType] ++ more) = .ok (.accessCode, more, []) :=
    fun more => loggerTh_type _ _
  have hread : ∀ more, loggerTh .accessCode ([code] ++ more) = .ok (.accessClient code, more, []) :=
    fun more => by simp [loggerTh]
  have hclient : ∀ more, loggerTh (.accessClient code) (client.toList ++ more) =
      .ok (.accessServer code client, more, []) := fun more => by simp [loggerTh]
  have hserver : ∀ more, loggerTh (.accessServer code client) (server.toList ++ more) =
      .ok (.type, more, [⟨fileAccess, .access code client server⟩]) := fun more => by
    simp [loggerTh, writeAccess, hcode, Except.map]
  have hlast := Lib.Reads.take hserver (.done (show Between .type by simp [Between]))
  rw [List.append_nil] at hlast
  exact .take htype (.take hread (.take hclient hlast))

/-- The thread takes the message of a call of `log_error` or `log_access` off the pipe, and no
more. -/
theorem reads_message {s : Reading} {c : Call} (hs : Between s) (hc : ¬ c.IsCustom) :
    Lib.Reads loggerTh Between s c.message [c.record] := by
  cases c with
  | custom str file hstr hfile => exact absurd trivial hc
  | error code hcode => exact reads_between hs (reads_error hcode)
  | access code client server hcode => exact reads_between hs (reads_access hcode)

theorem loggerTh_idle (s : Reading) (hs : Between s) :
    ∃ s', Between s' ∧ loggerTh s [] = .ok (s', [], []) := by
  rcases List.mem_pair.mp hs with rfl | rfl <;> exact ⟨.polling, by simp [Between], rfl⟩

end Codec

/-! ### Messages that are not -/

section Dropped

variable {c : Call} {s : Reading} {out : List Record}

/-- Alone in the pipe, the message of a call of `log_custom` is one octet short for the thread,
which gives it up. -/
theorem drain_custom (hs : Between s) (hc : c.IsCustom) :
    ∃ k s', Between s' ∧ Lib.moves Call.message loggerTh (List.replicate k .read)
      ⟨c.message, s, out⟩ = .ok ⟨[], s', out⟩ := by
  cases c with
  | error code hcode => cases hc
  | access code client server hcode => cases hc
  | custom str file hstr hfile =>
    have hmessage : (Call.custom str file hstr hfile).message =
        logCustomType :: file :: UInt8.ofNat str.length :: str := by
      rw [Call.message, logCustom, if_neg (by omega)]
    have hsize : (UInt8.ofNat str.length + 1).toNat = str.length + 1 := by
      rw [UInt8.toNat_add, UInt8.toNat_ofNat', show (1 : UInt8).toNat = 1 from rfl]
      omega
    have htype := loggerTh_type logCustomType (file :: UInt8.ofNat str.length :: str)
    have hfile' : loggerTh .customFile (file :: UInt8.ofNat str.length :: str) =
        .ok (.customSize file, UInt8.ofNat str.length :: str, []) := by simp [loggerTh]
    have hsize' : loggerTh (.customSize file) (UInt8.ofNat str.length :: str) =
        .ok (.customStr file (UInt8.ofNat str.length + 1), str, []) := by simp [loggerTh]
    have hshort : loggerTh (.customStr file (UInt8.ofNat str.length + 1)) str =
      .ok (.type, [], []) := by
      have hne : UInt8.ofNat str.length + 1 ≠ 0 := by
        intro hzero
        rw [hzero] at hsize
        simp at hsize
      rw [loggerTh, if_neg hne, hsize]
      cases str with
      | nil => rfl
      | cons d rest => simp [pipeRead]
    have hread : Lib.moves Call.message loggerTh (List.replicate 4 .read)
        ⟨(Call.custom str file hstr hfile).message, .type, out⟩ = .ok ⟨[], .type, out⟩ := by
      rw [hmessage, List.replicate_succ, Lib.moves_read htype, List.replicate_succ,
        Lib.moves_read hfile', List.replicate_succ, Lib.moves_read hsize', List.replicate_succ,
        Lib.moves_read hshort]
      simp [Lib.moves]
    rcases List.mem_pair.mp hs with rfl | rfl
    · refine ⟨5, .type, by simp [Between], ?_⟩
      have hpoll : loggerTh .polling (Call.custom str file hstr hfile).message =
          .ok (.type, (Call.custom str file hstr hfile).message, []) := by simp [hmessage, loggerTh]
      rw [List.replicate_succ, Lib.moves_read hpoll, List.append_nil]
      exact hread
    · exact ⟨4, .type, by simp [Between], hread⟩

/-- Nothing comes of an empty pipe. -/
theorem idle_reads (hs : Between s) (k : Nat) : ∃ s', Between s' ∧
    Lib.moves Call.message loggerTh (List.replicate k .read) ⟨[], s, out⟩ = .ok ⟨[], s', out⟩ := by
  induction k generalizing s with
  | zero => exact ⟨s, hs, rfl⟩
  | succ k ih =>
    obtain ⟨s₁, hs₁, hread⟩ := loggerTh_idle s hs
    obtain ⟨s₂, hs₂, hreads⟩ := ih hs₁
    refine ⟨s₂, hs₂, ?_⟩
    rw [List.replicate_succ, Lib.moves_read hread, List.append_nil]
    exact hreads

/-- When the thread reads each message before the next is written, those of `log_custom` leave no
record. -/
theorem one_by_one (calls : List Call) (hs : Between s) : ∃ timing s',
    Lib.writes timing = calls ∧ Between s' ∧
    Lib.moves Call.message loggerTh timing ⟨[], s, out⟩ =
      .ok ⟨[], s', out ++ (calls.filter fun c => ¬ c.IsCustom).map Call.record⟩ := by
  induction calls generalizing s out with
  | nil => exact ⟨[], s, rfl, hs, by simp [Lib.moves]⟩
  | cons c calls ih =>
    have hblock : ∃ k s', Between s' ∧
        Lib.moves Call.message loggerTh (List.replicate k .read) ⟨c.message, s, out⟩ =
          .ok ⟨[], s', out ++ ([c].filter fun c => ¬ c.IsCustom).map Call.record⟩ := by
      by_cases hc : c.IsCustom
      · simpa [hc] using drain_custom hs hc
      · have hdrain := @Lib.Reads.drain _ _ _ _ _ Call.message _ _ _ _ _
          (reads_message hs hc) [] out
        simpa [hc] using hdrain
    obtain ⟨k, s₁, hs₁, hfirst⟩ := hblock
    obtain ⟨timing, s₂, hwrites, hs₂, hrest⟩ := @ih s₁
      (out ++ ([c].filter fun c => ¬ c.IsCustom).map Call.record) hs₁
    have hreads : ∀ k, Lib.writes (List.replicate k (.read : Move Call)) = [] := by
      intro k
      induction k with
      | zero => rfl
      | succ k ih => exact ih
    refine ⟨.write c :: (List.replicate k .read ++ timing), s₂, ?_, hs₂, ?_⟩
    · simp [Lib.writes, hreads, hwrites]
    · rw [Lib.moves, Lib.move]
      show Lib.moves Call.message loggerTh (List.replicate k .read ++ timing)
        ⟨c.message, s, out⟩ = _
      rw [Lib.moves_append, hfirst]
      refine hrest.trans ?_
      by_cases hc : c.IsCustom <;> simp [hc]

/-- Some timing loses the record of a call of `log_custom`. -/
theorem LogsExactly.not_custom {calls : List Call} (h : LogsExactly calls) :
    ∀ c ∈ calls, ¬ c.IsCustom := by
  intro c hmem
  obtain ⟨timing, s, hwrites, hs, hmoves⟩ := @one_by_one .polling [] calls (by simp [Between])
  obtain ⟨k, w, hrun, -, -, hout⟩ := h timing hwrites
  obtain ⟨s', -, hidle⟩ := @idle_reads s
    ([] ++ (calls.filter fun c => ¬ c.IsCustom).map Call.record) hs k
  rw [Lib.moves_append, show Lib.moves Call.message loggerTh timing loggerStart =
    _ from hmoves] at hrun
  have hw := Except.ok.inj (hidle.symm.trans hrun)
  have hlen := congrArg List.length hout
  rw [← hw] at hlen
  simp only [List.nil_append, List.length_map] at hlen
  simpa using List.length_filter_eq_length_iff.mp hlen c hmem

/-- **The log is exact unless `log_custom` is called.** Take any calls of the logger with valid
codes. However the thread's reads fall between the messages, it logs one record for each call, to
the file and with the contents of the call, in order, and no index leaves its table, if and only if
none of the calls is one of `log_custom`. -/
theorem logs_exactly_iff (calls : List Call) : LogsExactly calls ↔ ∀ c ∈ calls, ¬ c.IsCustom := by
  constructor
  · exact LogsExactly.not_custom
  · intro hcalls timing hwrites
    subst hwrites
    have hstart : Between .polling := by simp [Between]
    obtain ⟨k, s, hs, hmoves⟩ := Lib.moves_decode loggerTh_idle
      (fun s c hs hc => reads_message hs hc) hstart timing hcalls
    exact ⟨k, _, hmoves, rfl, hs, rfl⟩

/-- One call of `log_custom`, with the string "h". -/
theorem not_logs_exactly : ¬ ∀ calls : List Call, LogsExactly calls := by
  intro h
  exact (h [.custom [0x68] fileError (by decide)
    (by decide)]).not_custom _ List.mem_cons_self trivial

end Dropped

end Socksprox.Logger

namespace Socksprox

open Logger (Call)

/-! ### Codes -/

def lMallocerror : Call := .error 0x09 (by decide)
def lEpollerroradd : Call := .error 0x0A (by decide)
def lBindlistener : Call := .error 0x0D (by decide)
end Socksprox
