import Socksprox.Logger

/-!
The life of the logger's thread: it opens the log files, takes the messages off the pipe, and ends
at the signal that `log_sig_join` writes behind all that was logged.

A write to the pipe does not wait for room. Without room a message is not written, and nobody looks
at what `write` returns. A lost signal is waited for all the same. When a log file cannot be opened,
the thread closes the pipe and ends, with all that was written.
-/

namespace Socksprox.Logger

open Lib (Move)

/-! ### The thread -/

/-- Where the thread is: it is yet to open the log files, it could not and has ended, or it
reads. -/
inductive Thread where
  | opening
  | failed
  | reading (s : Reading)
  deriving DecidableEq

/-- A step of `logger_th`; `files` is what `open_files` comes to. -/
def threadStep (files : Bool) : Lib.Reader LogFault UInt8 Thread Record
  | .opening, pipe => .ok (if files then (.reading .polling, pipe, []) else (.failed, [], []))
  | .failed, pipe => .ok (.failed, pipe, [])
  | .reading s, pipe => (loggerTh s pipe).map fun r => (.reading r.1, r.2)

/-- The pipe, the thread, and the log files. -/
abbrev Logging : Type := Lib.Piped UInt8 Thread Record

/-- When `init_logger` returns. -/
def threadStart : Logging := ⟨[], .opening, []⟩

/-- A `write` to the pipe. It fails without room, and without a reader: SIGPIPE is ignored. -/
def put (w : Logging) (room : Bool) (bytes : List UInt8) : Logging :=
  if room = true ∧ w.reader ≠ .failed then { w with pipe := w.pipe ++ bytes } else w

/-- A call of the logger, and whether the pipe has room for its message. -/
structure Attempt where
  call : Call
  room : Bool

/-- A call, or a step of the thread. -/
def logMove (files : Bool) (w : Logging) : Move Attempt → Except LogFault Logging
  | .write a => .ok (put w a.room a.call.message)
  | .read => Lib.move Call.message (threadStep files) w .read

def logMoves (files : Bool) : List (Move Attempt) → Logging → Except LogFault Logging
  | [], w => .ok w
  | m :: ms, w => logMove files w m >>= logMoves files ms

/-- What finds room in the pipe. -/
def entered : List (Move Attempt) → List (Move Call)
  | [] => []
  | .read :: ms => .read :: entered ms
  | .write a :: ms => if a.room then .write a.call :: entered ms else entered ms

/-- The calls whose messages find room. -/
def accepted (timing : List (Move Attempt)) : List Call := Lib.writes (entered timing)

/-- Where the logger stands `k` steps of the thread after `log_sig_join` wrote its signal, which
came after the calls and steps of `timing`. -/
def joining (files : Bool) (timing : List (Move Attempt)) (room : Bool) (k : Nat) :
    Except LogFault Logging := do
  let w ← logMoves files timing threadStart
  logMoves files (List.replicate k .read) (put w room [logSigJoin])

/-- The thread has ended, so that `pthread_join` returns. -/
def Joined (t : Thread) : Prop := t = .failed ∨ t = .reading .joined

instance : DecidablePred Joined := fun _ => inferInstanceAs (Decidable (_ ∨ _))

section Join

variable {timing : List (Move Attempt)} {w : Logging} {t : Thread} {s : Reading}
  {piece : List UInt8} {rs : List Record} {files room : Bool}

theorem mem_accepted {c : Call} (h : c ∈ accepted timing) :
    c ∈ (Lib.writes timing).map Attempt.call := by
  induction timing with
  | nil => exact h
  | cons m ms ih =>
    cases m with
    | read => exact ih h
    | write a =>
      rw [accepted, entered] at h
      rw [Lib.writes, List.map_cons]
      split at h
      · rcases List.mem_cons.mp h with rfl | h
        · exact List.mem_cons_self
        · exact List.mem_cons_of_mem _ (ih h)
      · exact List.mem_cons_of_mem _ (ih h)

/-! ### With its files -/

/-- The thread is between two messages, or in front of the first. -/
def Idle (t : Thread) : Prop := t = .opening ∨ ∃ s, Between s ∧ t = .reading s

/-- The thread is alive. -/
theorem put_alive (hw : w.reader ≠ .failed) (room : Bool) (bytes : List UInt8) :
    put w room bytes = { w with pipe := w.pipe ++ if room then bytes else [] } := by
  cases room <;> simp [put, hw]

/-- A thread that could open its files does not fail. -/
theorem threadStep_alive {pipe : List UInt8} {r : Thread × List UInt8 × List Record}
    (ht : t ≠ .failed) (h : threadStep true t pipe = .ok r) : r.1 ≠ .failed := by
  cases t with
  | opening =>
    cases h
    simp
  | failed => exact absurd rfl ht
  | reading s =>
    rw [threadStep] at h
    cases hread : loggerTh s pipe with
    | error f =>
      rw [hread] at h
      cases h
    | ok r' =>
      rw [hread] at h
      cases h
      simp

theorem logMoves_entered (hw : w.reader ≠ .failed) : logMoves true timing w =
    Lib.moves Call.message (threadStep true) (entered timing) w := by
  induction timing generalizing w with
  | nil => rfl
  | cons m ms ih =>
    cases m with
    | read =>
      rw [entered, logMoves, Lib.moves, logMove]
      cases hmove : Lib.move Call.message (threadStep true) w .read with
      | error e => rfl
      | ok w' =>
        refine ih ?_
        cases hread : threadStep true w.reader w.pipe with
        | error e =>
          rw [Lib.move, hread] at hmove
          cases hmove
        | ok r =>
          rw [Lib.move, hread] at hmove
          cases hmove
          exact threadStep_alive hw hread
    | write a =>
      have hput : logMoves true (.write a :: ms) w = logMoves true ms (put w a.room _) := rfl
      have hrest : ∀ bytes, logMoves true ms { w with pipe := w.pipe ++ bytes } = _ :=
        fun bytes => ih hw
      rw [hput, put_alive hw, hrest, entered]
      cases a.room with
      | true => rfl
      | false => simp

theorem threadStep_joined (t : Thread) (pipe : List UInt8) (h : Joined t) :
    threadStep true t pipe = .ok (t, pipe, []) := by
  rcases h with rfl | rfl <;> rfl

theorem not_joined_of_idle (h : Idle t) : ¬ Joined t := by
  rcases h with rfl | ⟨s, hs, rfl⟩
  · simp [Joined]
  · rintro (heq | heq)
    · cases heq
    · cases heq
      simp [Between] at hs

/-- A thread that has ended does not come to wait again. -/
theorem not_joined_of_reads (h : Lib.Reads (threadStep true) Idle t piece rs) : ¬ Joined t := by
  induction h with
  | done hwaits => exact not_joined_of_idle hwaits
  | @step t t' front back r rs h hback ih =>
    intro hjoined
    have hread := h []
    rw [threadStep_joined t _ hjoined] at hread
    obtain ⟨rfl, -, -⟩ : t = t' ∧ _ := by simpa using Except.ok.inj hread
    exact ih hjoined

/-- What the thread takes off the pipe while it reads, it takes from its start on. -/
theorem reads_thread {waits : Reading → Prop} {stops : Thread → Prop} (ht : Idle t)
    (hstops : ∀ s, waits s → stops (.reading s))
    (h : ∀ s, Between s → Lib.Reads loggerTh waits s piece rs) :
    Lib.Reads (threadStep true) stops t piece rs := by
  have hreading : ∀ s, Between s → Lib.Reads (threadStep true) stops (.reading s) piece rs :=
    fun s hs => (h s hs).map (fun _ _ => rfl) hstops
  rcases ht with rfl | ⟨s, hs, rfl⟩
  · exact .stay (fun _ => rfl) (hreading .polling (by simp [Between]))
  · exact hreading s hs

/-- The signal ends the thread. -/
theorem reads_sigJoin (hs : Between s) :
    Lib.Reads loggerTh (fun s => s = .joined) s [logSigJoin] [] := by
  have hsignal : Lib.Reads loggerTh (fun s => s = .joined) .type [logSigJoin] [] := by
    have hread : ∀ more, loggerTh .type ([logSigJoin] ++ more) = .ok (.joined, more, []) :=
      fun more => loggerTh_type _ _
    exact .take hread (.done rfl)
  rcases List.mem_pair.mp hs with rfl | rfl
  · have hpoll : ∀ more, loggerTh .polling ([logSigJoin] ++ more) =
        .ok (.type, [logSigJoin] ++ more, []) := fun more => by simp [loggerTh]
    exact .stay hpoll hsignal
  · exact hsignal

theorem threadStep_idle (t : Thread) (ht : Idle t) :
    ∃ t', Idle t' ∧ threadStep true t [] = .ok (t', [], []) := by
  rcases ht with rfl | ⟨s, hs, rfl⟩
  · exact ⟨.reading .polling, .inr ⟨.polling, by simp [Between], rfl⟩, rfl⟩
  · obtain ⟨s', hs', hread⟩ := loggerTh_idle s hs
    refine ⟨.reading s', .inr ⟨s', hs', rfl⟩, ?_⟩
    rw [threadStep, hread]
    rfl

theorem reads_call {c : Call} (ht : Idle t) (hc : ¬ c.IsCustom) :
    Lib.Reads (threadStep true) Idle t c.message [c.record] :=
  reads_thread ht (fun s hs => .inr ⟨s, hs, rfl⟩) fun _ hs => reads_message hs hc

/-- A thread between the octets of what was written is in step, and alive. -/
def InStep (calls : List Call) (w : Logging) : Prop :=
  Lib.InStep Call.message (threadStep true) Idle Call.record (fun c => ¬ c.IsCustom) calls w

theorem InStep.not_joined {calls : List Call} (h : InStep calls w) : ¬ Joined w.reader := by
  obtain ⟨piece, rs, left, hpipe, hreads, -⟩ := h
  exact not_joined_of_reads hreads

theorem InStep.logMoves {calls : List Call} (h : InStep calls w)
    (hcalls : ∀ c ∈ accepted timing, ¬ c.IsCustom) :
    ∃ w', logMoves true timing w = .ok w' ∧ InStep (calls ++ accepted timing) w' := by
  have halive : w.reader ≠ .failed := fun hfailed => h.not_joined (.inl hfailed)
  rw [logMoves_entered halive]
  exact Lib.InStep.moves threadStep_idle (fun _ _ ht hc => reads_call ht hc) h _ hcalls

theorem accepted_reads (k : Nat) : accepted (List.replicate k .read) = [] := by
  induction k with
  | zero => rfl
  | succ k ih => exact ih

/-- However the steps of the thread fall between the calls, it is in step with what got into the
pipe. -/
theorem logMoves_inStep (hcalls : ∀ c ∈ accepted timing, ¬ c.IsCustom) :
    ∃ w, logMoves true timing threadStart = .ok w ∧ InStep (accepted timing) w := by
  have hstart : InStep [] threadStart := ⟨[], [], [], rfl, .done (.inl rfl), by simp, rfl⟩
  exact hstart.logMoves hcalls

/-- Without the signal the thread does not end. -/
theorem joining_waits (hcalls : ∀ c ∈ accepted timing, ¬ c.IsCustom) (k : Nat) :
    ∃ w, joining true timing false k = .ok w ∧ ¬ Joined w.reader := by
  obtain ⟨w, hmoves, hstep⟩ := logMoves_inStep hcalls
  have hsame : put w false [logSigJoin] = w := by simp [put]
  have hnone : ∀ c ∈ accepted (List.replicate k .read), ¬ c.IsCustom := by
    simp [accepted_reads]
  obtain ⟨w', hreads, hstep'⟩ := hstep.logMoves hnone
  refine ⟨w', ?_, hstep'.not_joined⟩
  rw [joining, hmoves, ← hreads]
  show logMoves true (List.replicate k .read) (put w false [logSigJoin]) = _
  rw [hsame]

theorem entered_reads (k : Nat) :
    entered (List.replicate k .read) = List.replicate k (.read : Move Call) := by
  induction k with
  | zero => rfl
  | succ k ih => rw [List.replicate_succ, List.replicate_succ, entered, ih]

/-- With the signal in front of it, the thread ends after so many steps, and not before. -/
theorem joining_ends (hcalls : ∀ c ∈ accepted timing, ¬ c.IsCustom) :
    ∃ n, ∀ k, ∃ w, joining true timing true k = .ok w ∧ (Joined w.reader ↔ n ≤ k) ∧
      (Joined w.reader → w.pipe = [] ∧ w.out = (accepted timing).map Call.record) := by
  obtain ⟨w, hmoves, hstep⟩ := logMoves_inStep hcalls
  have halive : w.reader ≠ .failed := fun hfailed => hstep.not_joined (.inl hfailed)
  have hends : ∀ t, Idle t → Lib.Reads (threadStep true) Joined t [logSigJoin] [] := fun t ht =>
    reads_thread ht (fun s hs => .inr (congrArg _ hs)) fun _ hs => reads_sigJoin hs
  obtain ⟨rs, hreads, hout⟩ := Lib.InStep.ends (fun _ _ ht hc => reads_call ht hc) hstep hends
  obtain ⟨n, hn⟩ := @Lib.Reads.ended _ _ _ _ _ Call.message _ _ _ _ _ threadStep_joined hreads w.out
  refine ⟨n, fun k => ?_⟩
  obtain ⟨w', hrun, hiff, hlast⟩ := hn k
  refine ⟨w', ?_, hiff, fun hjoined => ?_⟩
  · rw [joining, hmoves, ← hrun]
    show logMoves true (List.replicate k .read) (put w true [logSigJoin]) = _
    have hreads : logMoves true (List.replicate k .read) { w with pipe := w.pipe ++ [logSigJoin] } =
        _ := logMoves_entered halive
    rw [put_alive halive, if_pos rfl, hreads, entered_reads]
  · rw [hlast hjoined, ← hout]
    exact ⟨rfl, rfl⟩

/-! ### Without its files -/

/-- The thread is in front of its first step, or has ended with all that was written. -/
def Unopened (w : Logging) : Prop :=
  w.out = [] ∧ (w.reader = .opening ∨ w.reader = .failed ∧ w.pipe = [])

theorem Unopened.kept (h : Unopened w) (room : Bool) (bytes : List UInt8) :
    Unopened (put w room bytes) ∧ (put w room bytes).reader = w.reader := by
  obtain ⟨hout, hopening | ⟨hfailed, hpipe⟩⟩ := h
  · have hput := put_alive (w := w) (by simp [hopening]) room bytes
    rw [hput]
    exact ⟨⟨hout, .inl hopening⟩, rfl⟩
  · have hput : put w room bytes = w := by simp [put, hfailed]
    rw [hput]
    exact ⟨⟨hout, .inr ⟨hfailed, hpipe⟩⟩, rfl⟩

/-- A step of the thread is its last. -/
theorem Unopened.read (h : Unopened w) :
    Lib.move Call.message (threadStep false) w .read = .ok ⟨[], .failed, []⟩ := by
  obtain ⟨hout, hopening | ⟨hfailed, hpipe⟩⟩ := h
  · rw [Lib.move, hopening, hout]
    rfl
  · rw [Lib.move, hfailed, hout, hpipe]
    rfl

theorem Unopened.moves (h : Unopened w) (ms : List (Move Attempt)) :
    ∃ w', logMoves false ms w = .ok w' ∧ Unopened w' := by
  induction ms generalizing w with
  | nil => exact ⟨w, rfl, h⟩
  | cons m ms ih =>
    cases m with
    | read =>
      rw [logMoves, logMove, h.read]
      exact ih ⟨rfl, .inr ⟨rfl, rfl⟩⟩
    | write a => exact ih (h.kept a.room a.call.message).1

theorem Unopened.reads (h : Unopened w) (k : Nat) :
    logMoves false (List.replicate (k + 1) .read) w = .ok ⟨[], .failed, []⟩ := by
  induction k generalizing w with
  | zero => rw [List.replicate_succ, logMoves, logMove, h.read]; rfl
  | succ k ih =>
    have hfailed : Unopened ⟨[], .failed, []⟩ := ⟨rfl, .inr ⟨rfl, rfl⟩⟩
    rw [List.replicate_succ, logMoves, logMove, h.read]
    exact ih hfailed

/-- A thread that cannot open its files ends all the same, and nothing is logged. -/
theorem joining_failed (timing : List (Move Attempt)) (room : Bool) :
    ∃ n, ∀ k, ∃ w, joining false timing room k = .ok w ∧ (Joined w.reader ↔ n ≤ k) ∧
      (Joined w.reader → w.pipe = []) ∧ w.out = [] := by
  have hstart : Unopened threadStart := ⟨rfl, .inl rfl⟩
  obtain ⟨w, hmoves, hw⟩ := hstart.moves timing
  obtain ⟨hput, hreader⟩ := hw.kept room [logSigJoin]
  have hjoining : ∀ k, joining false timing room k =
      logMoves false (List.replicate k .read) (put w room [logSigJoin]) := fun k => by
    rw [joining, hmoves]
    rfl
  have hlater : ∀ k, joining false timing room (k + 1) = .ok ⟨[], .failed, []⟩ := fun k =>
    (hjoining (k + 1)).trans (hput.reads k)
  obtain ⟨hout, hopening | ⟨hfailed, hpipe⟩⟩ := hput
  · refine ⟨1, fun k => ?_⟩
    cases k with
    | zero => exact ⟨_, hjoining 0, by simp [Joined, hopening], by simp [Joined, hopening], hout⟩
    | succ k => exact ⟨_, hlater k, by simp [Joined], fun _ => rfl, rfl⟩
  · refine ⟨0, fun k => ?_⟩
    cases k with
    | zero => exact ⟨_, hjoining 0, by simp [Joined, hfailed], fun _ => hpipe, hout⟩
    | succ k => exact ⟨_, hlater k, by simp [Joined], fun _ => rfl, rfl⟩

/-- **The logger ends behind all that was logged.** Take any calls of the logger with valid codes,
none of them one of `log_custom`, any of which may find no room in the pipe, and then
`log_sig_join`. However the steps of the thread fall between the calls, no table is left. If the log
files could be opened and the signal found room, the thread ends after so many steps more and not
before, with an empty pipe and the calls that found room in the log files, in order; if the signal
found no room, the thread never ends, and `log_sig_join` does not return. If a log file could not be
opened, the thread ends whether the signal found room or not, and nothing is in the log files. -/
theorem joined_after_all (files : Bool) (timing : List (Move Attempt)) (room : Bool)
    (hcalls : ∀ c ∈ accepted timing, ¬ c.IsCustom) :
    ∃ n, ∀ k, ∃ w, joining files timing room k = .ok w ∧
      (Joined w.reader ↔ (files = true → room = true) ∧ n ≤ k) ∧
      (Joined w.reader →
        w.pipe = [] ∧ w.out = if files then (accepted timing).map Call.record else []) := by
  cases files with
  | false =>
    obtain ⟨n, hn⟩ := joining_failed timing room
    refine ⟨n, fun k => ?_⟩
    obtain ⟨w, hrun, hiff, hpipe, hout⟩ := hn k
    exact ⟨w, hrun, by simpa using hiff, fun hjoined => ⟨hpipe hjoined, by simpa using hout⟩⟩
  | true =>
    cases room with
    | true =>
      obtain ⟨n, hn⟩ := joining_ends hcalls
      exact ⟨n, by simpa using hn⟩
    | false =>
      refine ⟨0, fun k => ?_⟩
      obtain ⟨w, hrun, hnot⟩ := joining_waits hcalls k
      exact ⟨w, hrun, by simpa using hnot, fun hjoined => absurd hjoined hnot⟩

/-- Three errors, of which the second finds no room; the thread has opened its files and read one
octet when the signal is written. -/
theorem joined_after_all_errors : ∃ n, ∀ k, ∃ w,
    joining true [.write ⟨.error 0x00 (by decide), true⟩, .read, .read, .read,
        .write ⟨.error 0x01 (by decide), false⟩, .write ⟨.error 0x02 (by decide), true⟩] true k =
      .ok w ∧ (Joined w.reader ↔ (true = true → true = true) ∧ n ≤ k) ∧
        (Joined w.reader → w.pipe = [] ∧
          w.out = [⟨fileError, .error 0x00⟩, ⟨fileError, .error 0x02⟩]) :=
  joined_after_all true [.write ⟨.error 0x00 (by decide), true⟩, .read, .read, .read,
      .write ⟨.error 0x01 (by decide), false⟩, .write ⟨.error 0x02 (by decide), true⟩] true
    (by decide)

end Join

end Socksprox.Logger
