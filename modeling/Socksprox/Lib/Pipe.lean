import Mathlib.Logic.Basic
import Mathlib.Data.List.TakeDrop

/-!
A pipe without record boundaries, between a writer of whole messages and a reader that takes them
apart by several reads.

The two take turns in any order, as a list of `Move`s says. `Reads` says that a reader takes a
piece of the stream off the pipe, whatever follows it; when every message is such a piece,
`moves_decode` gives the messages of any run back, however the reads fell between the writes.
-/

namespace Lib

section Pipe

variable {α σ ρ μ ε : Type}

/-- A read of up to `n` elements. There is nothing to read in an empty pipe. -/
def pipeRead (n : Nat) (pipe : List α) : Option (List α) × List α :=
  if n = 0 then (some [], pipe)
  else if pipe = [] then (none, [])
  else (some (pipe.take n), pipe.drop n)

/-- What is in the pipe, where the reader stands, and what it has made of the stream. -/
structure Piped (α σ ρ : Type) where
  pipe : List α
  reader : σ
  out : List ρ

inductive Move (μ : Type) where
  | write (m : μ)
  | read

/-- The messages written. -/
def writes : List (Move μ) → List μ
  | [] => []
  | .write m :: ms => m :: writes ms
  | .read :: ms => writes ms

/-- A reader: from where it stands and what is in the pipe, where it stands next, what it leaves in
the pipe, and what it makes of what it took. -/
abbrev Reader (ε α σ ρ : Type) : Type := σ → List α → Except ε (σ × List α × List ρ)

def move (encode : μ → List α) (reader : Reader ε α σ ρ) (w : Piped α σ ρ) :
    Move μ → Except ε (Piped α σ ρ)
  | .write m => .ok { w with pipe := w.pipe ++ encode m }
  | .read => (reader w.reader w.pipe).map fun r => ⟨r.2.1, r.1, w.out ++ r.2.2⟩

def moves (encode : μ → List α) (reader : Reader ε α σ ρ) :
    List (Move μ) → Piped α σ ρ → Except ε (Piped α σ ρ)
  | [], w => .ok w
  | m :: ms, w => move encode reader w m >>= moves encode reader ms

/-- From this state on, the reader takes the piece off the pipe and makes that of it, whatever
follows; then it waits. -/
inductive Reads (reader : Reader ε α σ ρ) (waits : σ → Prop) : σ → List α → List ρ → Prop
  | done {s : σ} (h : waits s) : Reads reader waits s [] []
  | step {s s' : σ} {front back : List α} {r rs : List ρ}
      (h : ∀ more, reader s (front ++ (back ++ more)) = .ok (s', back ++ more, r))
      (hback : Reads reader waits s' back rs) : Reads reader waits s (front ++ back) (r ++ rs)

variable {encode : μ → List α} {reader : Reader ε α σ ρ} {waits : σ → Prop} {record : μ → ρ}
  {s : σ} {piece more : List α} {out rs : List ρ} {w w' : Piped α σ ρ}

/-- A step that takes a part off the pipe and does not look at what follows. -/
theorem Reads.take {s' : σ} {front back : List α} {r : List ρ}
    (h : ∀ more, reader s (front ++ more) = .ok (s', more, r))
    (hback : Reads reader waits s' back rs) : Reads reader waits s (front ++ back) (r ++ rs) :=
  .step (fun more => h (back ++ more)) hback

/-- A step that takes nothing. -/
theorem Reads.stay {s' : σ} {back : List α}
    (h : ∀ more, reader s (back ++ more) = .ok (s', back ++ more, []))
    (hback : Reads reader waits s' back rs) : Reads reader waits s back rs :=
  @Reads.step _ _ _ _ reader waits s s' [] back [] rs h hback

theorem moves_append (ms ms' : List (Move μ)) (w : Piped α σ ρ) :
    moves encode reader (ms ++ ms') w = moves encode reader ms w >>= moves encode reader ms' := by
  induction ms generalizing w with
  | nil => rfl
  | cons m ms ih =>
    rw [List.cons_append, moves, moves]
    cases move encode reader w m with
    | error e => rfl
    | ok w' => exact ih w'

theorem moves_read {s' : σ} {pipe' : List α} {r : List ρ}
    (h : reader w.reader w.pipe = .ok (s', pipe', r)) (ms : List (Move μ)) :
    moves encode reader (.read :: ms) w = moves encode reader ms ⟨pipe', s', w.out ++ r⟩ := by
  rw [moves, move, h]
  rfl

@[simp] theorem writes_append (ms ms' : List (Move μ)) :
    writes (ms ++ ms') = writes ms ++ writes ms' := by
  induction ms with
  | nil => rfl
  | cons m ms ih => cases m <;> simp [writes, ih]

/-- Without a message there are only reads. -/
theorem eq_replicate_of_writes {ms : List (Move μ)} (h : writes ms = []) :
    ms = List.replicate ms.length .read := by
  induction ms with
  | nil => rfl
  | cons m ms ih =>
    cases m with
    | write m => cases h
    | read => rw [List.length_cons, List.replicate_succ, ← ih h]

/-- Reading goes on to the end of a piece. -/
theorem Reads.drain (h : Reads reader waits s piece rs) (more : List α) (out : List ρ) :
    ∃ k s', waits s' ∧ moves encode reader (List.replicate k .read) ⟨piece ++ more, s, out⟩ =
      .ok ⟨more, s', out ++ rs⟩ := by
  induction h generalizing out with
  | done h => exact ⟨0, _, h, by simp [moves]⟩
  | @step s s' front back r rs h hback ih =>
    obtain ⟨k, s'', hwaits, hmoves⟩ := ih (out ++ r)
    refine ⟨k + 1, s'', hwaits, ?_⟩
    have hread : reader s ((front ++ back) ++ more) = .ok (s', back ++ more, r) := by
      rw [List.append_assoc]
      exact h more
    rw [List.replicate_succ, moves_read hread, hmoves, List.append_assoc]

/-- A reader that goes on like another. -/
theorem Reads.map {σ' : Type} {reader' : Reader ε α σ' ρ} {waits' : σ' → Prop} {f : σ → σ'}
    (hreader : ∀ s pipe, reader' (f s) pipe = (reader s pipe).map fun r => (f r.1, r.2))
    (hwaits : ∀ s, waits s → waits' (f s)) (h : Reads reader waits s piece rs) :
    Reads reader' waits' (f s) piece rs := by
  induction h with
  | done h => exact .done (hwaits _ h)
  | @step s s' front back r rs h hback ih =>
    refine .step (fun more => ?_) ih
    rw [hreader, h]
    rfl

/-- Two pieces, one behind the other. -/
theorem Reads.append {stops : σ → Prop} {piece' : List α} {rs' : List ρ}
    (h : Reads reader waits s piece rs)
    (hnext : ∀ s', waits s' → Reads reader stops s' piece' rs') :
    Reads reader stops s (piece ++ piece') (rs ++ rs') := by
  induction h with
  | done h => exact hnext _ h
  | @step s s' front back r rs h hback ih =>
    rw [List.append_assoc, List.append_assoc]
    refine .step (fun more => ?_) ih
    simpa using h (piece' ++ more)

section Stops

variable {stops : σ → Prop}
  (hstops : ∀ s pipe, stops s → reader s pipe = .ok (s, pipe, []))

include hstops in
/-- A reader that has stopped has nothing to read in front of it. -/
theorem Reads.of_stopped (h : Reads reader stops s piece rs) (hs : stops s) :
    piece = [] ∧ rs = [] := by
  induction h with
  | done h => exact ⟨rfl, rfl⟩
  | @step s s' front back r rs h hback ih =>
    have hread := h []
    rw [hstops s _ hs, List.append_nil] at hread
    obtain ⟨rfl, hpipe, rfl⟩ : s = s' ∧ front ++ back = back ∧ [] = r := by
      simpa using Except.ok.inj hread
    obtain ⟨rfl, rfl⟩ := ih hs
    exact ⟨hpipe, rfl⟩

include hstops in
/-- **A last piece is read in so many reads.** A reader that stops behind it has stopped exactly
from then on, with an empty pipe and all records made. -/
theorem Reads.ended (h : Reads reader stops s piece rs) (out : List ρ) :
    ∃ n, ∀ k, ∃ w, moves encode reader (List.replicate k .read) ⟨piece, s, out⟩ = .ok w ∧
      (stops w.reader ↔ n ≤ k) ∧ (stops w.reader → w = ⟨[], w.reader, out ++ rs⟩) := by
  induction h generalizing out with
  | @done s h =>
    have hidle : ∀ k, moves encode reader (List.replicate k .read) ⟨[], s, out⟩ =
        .ok ⟨[], s, out⟩ := by
      intro k
      induction k with
      | zero => rfl
      | succ k ih => rw [List.replicate_succ, moves_read (hstops s [] h), List.append_nil, ih]
    exact ⟨0, fun k => ⟨_, hidle k, by simp [h], by simp⟩⟩
  | @step s s' front back r rs h hback ih =>
    have hwhole : Reads reader stops s (front ++ back) (r ++ rs) := .step h hback
    have hread : reader s (front ++ back) = .ok (s', back, r) := by simpa using h []
    obtain ⟨n, hn⟩ := ih (out ++ r)
    by_cases hs : stops s
    · obtain ⟨hpiece, hrs⟩ := hwhole.of_stopped hstops hs
      obtain ⟨rfl, rfl⟩ := List.append_eq_nil_iff.mp hpiece
      obtain ⟨rfl, rfl⟩ := List.append_eq_nil_iff.mp hrs
      rw [hstops s _ hs] at hread
      cases hread
      simp only [List.append_nil] at hn ⊢
      exact ⟨n, hn⟩
    · refine ⟨n + 1, fun k => ?_⟩
      cases k with
      | zero => exact ⟨_, rfl, by simp [hs], fun h => absurd h hs⟩
      | succ k =>
        obtain ⟨w, hmoves, hiff, hlast⟩ := hn k
        refine ⟨w, ?_, by simp [hiff], fun hstop => ?_⟩
        · rw [List.replicate_succ, moves_read hread, hmoves]
        · rw [hlast hstop, List.append_assoc]

end Stops

/-- The reader is within a piece, which the whole messages that are left follow. -/
def InStep (encode : μ → List α) (reader : Reader ε α σ ρ) (waits : σ → Prop) (record : μ → ρ)
    (sound : μ → Prop) (written : List μ) (w : Piped α σ ρ) : Prop :=
  ∃ piece rs left, w.pipe = piece ++ List.flatMap encode left ∧
    Reads reader waits w.reader piece rs ∧ (∀ m ∈ left, sound m) ∧
    w.out ++ rs ++ left.map record = written.map record

section Codec

variable {sound : μ → Prop}
  (hidle : ∀ s, waits s → ∃ s', waits s' ∧ reader s [] = .ok (s', [], []))
  (hcodec : ∀ s m, waits s → sound m → Reads reader waits s (encode m) [record m])

include hcodec in
/-- The start of a message is the start of a piece. -/
theorem InStep.begin {left written : List μ} {m : μ}
    (hpipe : w.pipe = List.flatMap encode (m :: left)) (hwaits : waits w.reader) (hm : sound m)
    (hout : w.out ++ (m :: left).map record = written.map record) :
    ∃ front back s' r rs, w.pipe = front ++ (back ++ left.flatMap encode) ∧
      (∀ more, reader w.reader (front ++ (back ++ more)) = .ok (s', back ++ more, r)) ∧
      Reads reader waits s' back rs ∧
        w.out ++ (r ++ rs) ++ left.map record = written.map record := by
  have hreads := hcodec w.reader m hwaits hm
  generalize hpiece : encode m = piece at hreads
  generalize hrs : [record m] = rs at hreads
  cases hreads with
  | done h => cases hrs
  | @step _ s' front back r rs h hback =>
    refine ⟨front, back, s', r, rs, ?_, h, hback, ?_⟩
    · rw [hpipe, List.flatMap_cons, hpiece, List.append_assoc]
    · rw [← hrs, List.append_assoc]
      exact hout

include hidle hcodec in
/-- A move keeps the reader in step. -/
theorem InStep.move {written : List μ} (h : InStep encode reader waits record sound written w)
    (m : Move μ) (hm : ∀ m' ∈ writes [m], sound m') : ∃ w', Lib.move encode reader w m = .ok w' ∧
      InStep encode reader waits record sound (written ++ writes [m]) w' := by
  obtain ⟨piece, rs, left, hpipe, hreads, hleft, hout⟩ := h
  cases m with
  | write m =>
    refine ⟨_, rfl, piece, rs, left ++ [m], ?_, hreads, ?_, ?_⟩
    · simp [hpipe]
    · intro m' hmem
      rcases List.mem_append.mp hmem with hmem | hmem
      · exact hleft m' hmem
      · exact hm m' hmem
    · simp only [writes, List.map_append, ← hout, List.append_assoc]
  | read =>
    have hafter : ∀ {left : List μ} {front back : List α} {s' : σ} {r rs : List ρ},
        w.pipe = front ++ (back ++ left.flatMap encode) → (∀ m ∈ left, sound m) →
        (∀ more, reader w.reader (front ++ (back ++ more)) = .ok (s', back ++ more, r)) →
        Reads reader waits s' back rs → w.out ++ (r ++ rs) ++ left.map record = written.map record →
        ∃ w', Lib.move encode reader w (.read : Move μ) = .ok w' ∧
          InStep encode reader waits record sound (written ++ writes [(.read : Move μ)]) w' := by
      intro left front back s' r rs hpipe hleft hread hback hout
      refine ⟨⟨back ++ left.flatMap encode, s', w.out ++ r⟩, ?_, back, rs, left, rfl, hback,
        hleft, ?_⟩
      · rw [Lib.move, hpipe, hread]
        rfl
      · simpa [writes] using hout
    generalize hs : w.reader = s at hreads
    cases hreads with
    | done hwaits =>
      rw [List.nil_append] at hpipe
      rw [List.append_nil] at hout
      cases left with
      | nil =>
        obtain ⟨s', hwaits', hread⟩ := hidle s hwaits
        refine ⟨⟨[], s', w.out⟩, ?_, [], [], [], rfl, .done hwaits', hleft,
          by simpa [writes] using hout⟩
        rw [Lib.move, hs, hpipe, List.flatMap_nil, hread]
        simp [Except.map]
      | cons m left =>
        obtain ⟨front, back, s', r, rs, hfront, hread, hback, hout'⟩ :=
          InStep.begin hcodec hpipe (hs ▸ hwaits) (hleft m List.mem_cons_self) hout
        exact hafter hfront (fun m' hm' => hleft m' (List.mem_cons_of_mem m hm')) hread hback hout'
    | @step _ s' front back r rs h hback =>
      exact hafter (by rw [hpipe, List.append_assoc]) hleft (hs ▸ h) hback hout

include hidle hcodec in
theorem InStep.moves {written : List μ} (h : InStep encode reader waits record sound written w)
    (ms : List (Move μ)) (hms : ∀ m ∈ writes ms, sound m) :
    ∃ w', Lib.moves encode reader ms w = .ok w' ∧
      InStep encode reader waits record sound (written ++ writes ms) w' := by
  induction ms generalizing w written with
  | nil => exact ⟨w, rfl, by simpa [writes] using h⟩
  | cons m ms ih =>
    have hsplit : writes (m :: ms) = writes [m] ++ writes ms := writes_append [m] ms
    rw [hsplit] at hms ⊢
    obtain ⟨w₁, hmove, hstep⟩ :=
      h.move hidle hcodec m fun m' hm' => hms m' (List.mem_append_left _ hm')
    obtain ⟨w₂, hmoves, hlast⟩ := ih hstep fun m' hm' => hms m' (List.mem_append_right _ hm')
    refine ⟨w₂, ?_, ?_⟩
    · rw [Lib.moves, hmove]
      exact hmoves
    · rwa [List.append_assoc] at hlast

include hcodec in
/-- What is left, and behind it a last piece, at which the reader stops. -/
theorem InStep.ends {stops : σ → Prop} {last : List α} {written : List μ}
    (h : InStep encode reader waits record sound written w)
    (hlast : ∀ s, waits s → Reads reader stops s last []) :
    ∃ rs, Reads reader stops w.reader (w.pipe ++ last) rs ∧
      w.out ++ rs = written.map record := by
  obtain ⟨piece, rs, left, hpipe, hreads, hleft, hout⟩ := h
  have hrest : ∀ s, waits s →
      Reads reader stops s (left.flatMap encode ++ last) (left.map record) := by
    clear hpipe hout
    induction left with
    | nil => exact hlast
    | cons m left ih =>
      intro s hs
      rw [List.flatMap_cons, List.append_assoc, List.map_cons, ← List.singleton_append]
      exact (hcodec s m hs (hleft m List.mem_cons_self)).append
        (ih fun m' hm' => hleft m' (List.mem_cons_of_mem m hm'))
  refine ⟨rs ++ left.map record, ?_, by rw [← List.append_assoc, hout]⟩
  rw [hpipe, List.append_assoc]
  exact hreads.append hrest

include hcodec in
/-- What is left is read to its end. -/
theorem drain_left (left : List μ) (hleft : ∀ m ∈ left, sound m) (hwaits : waits s) (out : List ρ) :
    ∃ k s', waits s' ∧ Lib.moves encode reader (List.replicate k .read)
      ⟨left.flatMap encode, s, out⟩ = .ok ⟨[], s', out ++ left.map record⟩ := by
  induction left generalizing s out with
  | nil => exact ⟨0, s, hwaits, by simp [Lib.moves]⟩
  | cons m left ih =>
    obtain ⟨k, s₁, hwaits₁, hmoves⟩ :=
      (hcodec s m hwaits (hleft m List.mem_cons_self)).drain (left.flatMap encode) out
    obtain ⟨k', s₂, hwaits₂, hmoves'⟩ := ih (fun m' hm' => hleft m' (List.mem_cons_of_mem m hm'))
      hwaits₁ (out ++ [record m])
    refine ⟨k + k', s₂, hwaits₂, ?_⟩
    rw [← List.replicate_append_replicate, moves_append, List.flatMap_cons, hmoves]
    refine hmoves'.trans ?_
    simp

include hidle hcodec in
/-- **The codec rule.** When the reader, waiting, takes each message that is written off the pipe
and makes its record of it, every run of writes and reads goes on without a fault, and further reads
leave the records of all messages written, in order, and an empty pipe. -/
theorem moves_decode (hwaits : waits s) (ms : List (Move μ)) (hms : ∀ m ∈ writes ms, sound m) :
    ∃ k s', waits s' ∧ Lib.moves encode reader (ms ++ List.replicate k .read) ⟨[], s, []⟩ =
      .ok ⟨[], s', (writes ms).map record⟩ := by
  have hstart : InStep encode reader waits record sound [] ⟨[], s, []⟩ :=
    ⟨[], [], [], rfl, .done hwaits, by simp, rfl⟩
  obtain ⟨w, hmoves, piece, rs, left, hpipe, hreads, hleft, hout⟩ :=
    hstart.moves hidle hcodec ms hms
  obtain ⟨k, s₁, hwaits₁, hdrain⟩ :=
    @Reads.drain _ _ _ _ _ encode _ _ _ _ _ hreads (left.flatMap encode) w.out
  obtain ⟨k', s₂, hwaits₂, hdrain'⟩ := drain_left hcodec left hleft hwaits₁ (w.out ++ rs)
  refine ⟨k + k', s₂, hwaits₂, ?_⟩
  have hw : w = ⟨piece ++ left.flatMap encode, w.reader, w.out⟩ := by rw [← hpipe]
  rw [moves_append, hmoves, ← List.replicate_append_replicate]
  show Lib.moves encode reader (List.replicate k .read ++ List.replicate k' .read) w = _
  rw [moves_append, hw, hdrain]
  show Lib.moves encode reader (List.replicate k' .read) _ = _
  rw [hdrain', hout]
  rfl

end Codec

end Pipe

end Lib
