import Socksprox.Config
import Socksprox.Lib.Pipe

/-!
The pipe to the resolver thread (`src/resolver.c`): the message that `resolve` writes for a request
with a domain name, and the reads by which `resolver_th` takes it off the pipe.

The writer puts the request one octet behind the pointer, into an array that has no room for that
octet.
-/

namespace Socksprox.ResolverPipe

open Lib (Move pipeRead)

/-- Outside an array, or an array of no size. -/
inductive PipeFault where
  | read
  | write
  | array
  deriving DecidableEq

/-- `sizeof(shared)`. -/
def pointerSize : Nat := 8

/-! ### The writer -/

/-- An octet as a `char`, which is signed. -/
def charValue (c : UInt8) : Int := if c.toNat < 128 then c.toNat else (c.toNat : Int) - 256

/-- `memcpy` to the place `off` of an array. A negative count is a `size_t` beyond any array. -/
def copyInto (msg : List UInt8) (off : Nat) (src : List UInt8) (count : Int) :
    Except PipeFault (List UInt8) :=
  if count < 0 then .error .write
  else if src.length < count.toNat then .error .read
  else if count ≠ 0 ∧ msg.length < off + count.toNat then .error .write
  else .ok (msg.take off ++ src.take count.toNat ++ msg.drop (off + count.toNat))

/-- `resolve`: the message it writes. `garbage` is what the stack holds where `msg` comes to lie. -/
def resolve (garbage : Nat → UInt8) (shared input : List UInt8) : Except PipeFault (List UInt8) :=
  match input with
  | [] => .error .read
  | c :: _ =>
    let nameLen := charValue c
    if pointerSize + nameLen + 3 ≤ 0 then .error .array
    else do
      let msg ←
        copyInto ((List.range (pointerSize + nameLen + 3).toNat).map garbage) 0 shared pointerSize
      copyInto msg (1 + pointerSize) input (nameLen + 3)

/-! ### The reader -/

/-- A request as the thread has read it. -/
structure Taken where
  shared : List UInt8
  name : List UInt8
  port : List UInt8
  deriving DecidableEq

/-- Where `resolver_th` stands between two of its calls. -/
inductive Taking where
  | polling
  | shared
  | nameLen (shared : List UInt8)
  | name (shared : List UInt8) (nameLen : UInt8)
  | port (shared name : List UInt8)
  | exited
  deriving DecidableEq

/-- A `read` that is given up unless it gets all it asks for. -/
def readFull (n : Nat) (pipe : List UInt8) : Option (List UInt8) × List UInt8 :=
  ((pipeRead n pipe).1.filter fun bytes => bytes.length = n, (pipeRead n pipe).2)

/-- One call of `resolver_th`, up to the next. -/
def resolverTh : Lib.Reader PipeFault UInt8 Taking Taken
  | .polling, pipe => .ok (if pipe = [] then .polling else .shared, pipe, [])
  | .shared, pipe =>
    match (readFull pointerSize pipe).1 with
    | none => .ok (.polling, (readFull pointerSize pipe).2, [])
    | some shared =>
      .ok (if shared = List.replicate pointerSize 0 then .exited else .nameLen shared,
        (readFull pointerSize pipe).2, [])
  | .nameLen shared, pipe =>
    match (readFull 1 pipe).1.bind List.head? with
    | none => .ok (.polling, (readFull 1 pipe).2, [])
    | some nameLen => .ok (.name shared nameLen, (readFull 1 pipe).2, [])
  | .name shared nameLen, pipe =>
    match (readFull nameLen.toNat pipe).1 with
    | none => .ok (.polling, (readFull nameLen.toNat pipe).2, [])
    | some name =>
      -- the terminator is stored one place behind the end of the name
      if name.length + 1 < 256 then .ok (.port shared name, (readFull nameLen.toNat pipe).2, [])
      else .error .write
  | .port shared name, pipe =>
    match (readFull 2 pipe).1 with
    | none => .ok (.polling, (readFull 2 pipe).2, [])
    | some port => .ok (.polling, (readFull 2 pipe).2, [⟨shared, name, port⟩])
  | .exited, pipe => .ok (.exited, pipe, [])

/-! ### Requests -/

/-- A request with a domain name: the connection it is for, and what it asks. -/
structure DomainRequest where
  shared : List UInt8
  name : List UInt8
  port : List UInt8
  shared_length : shared.length = pointerSize
  shared_ne : shared ≠ List.replicate pointerSize 0
  name_length : name.length ≤ 255
  port_length : port.length = 2

namespace DomainRequest

/-- The octets of the SOCKS request from its address on. -/
def input (r : DomainRequest) : List UInt8 := UInt8.ofNat r.name.length :: (r.name ++ r.port)

/-- What the thread is to take. -/
def taken (r : DomainRequest) : Taken := ⟨r.shared, r.name, r.port⟩

end DomainRequest

/-- The pipe when the thread starts. -/
def resolverStart : Lib.Piped UInt8 Taking Taken := ⟨[], .polling, []⟩

/-- Nothing is read or written outside an array, whatever the stack held, and however the reads fall
between the messages, the thread takes the requests as they were made, in order, and leaves
nothing in the pipe. -/
def RecoversExactly (requests : List DomainRequest) : Prop :=
  ∀ garbage : Nat → UInt8, ∃ messages,
    requests.mapM (fun r => resolve garbage r.shared r.input) = .ok messages ∧
    ∀ timing : List (Move (List UInt8)), Lib.writes timing = messages →
      ∃ k w, Lib.moves id resolverTh (timing ++ List.replicate k .read) resolverStart = .ok w ∧
        w.pipe = [] ∧ w.reader = .polling ∧ w.out = requests.map DomainRequest.taken

/-! ### What is written -/

section Writer

variable {garbage : Nat → UInt8} {shared input msg : List UInt8}

theorem charValue_bounds (c : UInt8) : -128 ≤ charValue c ∧ charValue c < 128 := by
  have hc := c.toNat_lt
  unfold charValue
  split <;> omega

/-- Only a name whose length is taken for -3 is not written outside the array, and then neither it
nor its length is written. -/
theorem resolve_ok (hshared : shared.length = pointerSize)
    (h : resolve garbage shared input = .ok msg) : msg = shared := by
  cases input with
  | nil => cases h
  | cons c rest =>
    obtain ⟨hlow, hhigh⟩ := charValue_bounds c
    rw [resolve] at h
    split at h
    · cases h
    · rename_i hpos
      -- the array has `nameLen + 11` octets, and the request is put behind the ninth
      cases hcopy :
        copyInto ((List.range (pointerSize + charValue c + 3).toNat).map garbage) 0 shared
          pointerSize with
      | error f => simp [hcopy, bind, Except.bind] at h
      | ok copied =>
        rw [hcopy] at h
        have hsize : pointerSize ≤ (pointerSize + charValue c + 3).toNat ∧
            copied = shared ++ ((List.range (pointerSize + charValue c + 3).toNat).map garbage).drop
              pointerSize := by
          rw [copyInto, if_neg (by decide), if_neg (by simp [hshared])] at hcopy
          split at hcopy
          · cases hcopy
          · rename_i hfits
            cases hcopy
            refine ⟨?_, ?_⟩
            · simp [pointerSize] at hfits ⊢
              omega
            · simp [List.take_of_length_le, hshared]
        obtain ⟨hroom, rfl⟩ := hsize
        change copyInto _ (1 + pointerSize) (c :: rest) (charValue c + 3) = .ok msg at h
        have hlen : (shared ++ ((List.range (pointerSize + charValue c + 3).toNat).map garbage).drop
            pointerSize).length = (pointerSize + charValue c + 3).toNat := by
          simp [hshared]
          omega
        rw [copyInto] at h
        split at h
        · cases h
        · split at h
          · cases h
          · split at h
            · cases h
            · rename_i hcount _ hfits
              cases h
              rw [hlen] at hfits
              simp only [pointerSize] at hfits hroom hpos
              have hzero : charValue c = -3 := by omega
              simp [hzero, pointerSize, hshared, List.take_of_length_le]

theorem mapM_resolve {requests : List DomainRequest} {messages : List (List UInt8)}
    (h : requests.mapM (fun r => resolve garbage r.shared r.input) = .ok messages) :
    messages = requests.map DomainRequest.shared := by
  induction requests generalizing messages with
  | nil =>
    cases h
    rfl
  | cons r requests ih =>
    rw [List.mapM_cons] at h
    cases hfirst : resolve garbage r.shared r.input with
    | error f => simp [hfirst, bind, Except.bind] at h
    | ok m =>
      cases hrest : requests.mapM fun r => resolve garbage r.shared r.input with
      | error f => simp [hfirst, hrest, bind, Except.bind] at h
      | ok ms =>
        obtain rfl : m :: ms = messages := by
          simpa [hfirst, hrest, bind, Except.bind, pure, Except.pure] using h
        rw [resolve_ok r.shared_length hfirst, ih hrest, List.map_cons]

end Writer

/-! ### What is read -/

section Lost

variable {messages : List (List UInt8)} {out : List Taken}

/-- A pointer alone is given up. -/
theorem drain_pointer {shared : List UInt8} (hlength : shared.length = pointerSize)
    (hne : shared ≠ List.replicate pointerSize 0) :
    Lib.moves id resolverTh (List.replicate 3 .read) ⟨shared, .polling, out⟩ =
      .ok ⟨[], .polling, out⟩ := by
  have hnil : shared ≠ [] := by
    rintro rfl
    cases hlength
  have hpoll : resolverTh .polling shared = .ok (.shared, shared, []) := by simp [resolverTh, hnil]
  have hfull : readFull pointerSize shared = (some shared, []) := by
    have htake : shared.take pointerSize = shared := List.take_of_length_le hlength.le
    have hdrop : shared.drop pointerSize = [] := List.drop_of_length_le hlength.le
    rw [readFull, pipeRead, if_neg (by decide), if_neg hnil, htake, hdrop]
    simp [hlength]
  have hpointer : resolverTh .shared shared = .ok (.nameLen shared, [], []) := by
    simp [resolverTh, hfull, hne]
  have hlen : resolverTh (.nameLen shared) [] = .ok (.polling, [], []) := rfl
  rw [List.replicate_succ, Lib.moves_read hpoll, List.replicate_succ, Lib.moves_read hpointer,
    List.replicate_succ, Lib.moves_read hlen]
  simp [Lib.moves]

theorem idle_reads (k : Nat) : Lib.moves id resolverTh
    (List.replicate k (.read : Move (List UInt8)))
    ⟨[], .polling, out⟩ = .ok ⟨[], .polling, out⟩ := by
  induction k with
  | zero => rfl
  | succ k ih =>
    have hpoll : resolverTh .polling [] = .ok (.polling, [], []) := rfl
    rw [List.replicate_succ, Lib.moves_read hpoll, List.append_nil]
    exact ih

/-- Pointers that are read one by one leave no request. -/
theorem one_by_one (hmessages : ∀ m ∈ messages, m.length = pointerSize ∧
    m ≠ List.replicate pointerSize 0) :
    ∃ timing, Lib.writes timing = messages ∧
      Lib.moves id resolverTh timing ⟨[], .polling, out⟩ = .ok ⟨[], .polling, out⟩ := by
  induction messages with
  | nil => exact ⟨[], rfl, rfl⟩
  | cons m messages ih =>
    obtain ⟨hlength, hne⟩ := hmessages m List.mem_cons_self
    obtain ⟨timing, hwrites, hrest⟩ := ih fun m' hm' => hmessages m' (List.mem_cons_of_mem m hm')
    refine ⟨.write m :: (List.replicate 3 .read ++ timing), ?_, ?_⟩
    · simp [Lib.writes, hwrites]
    · rw [Lib.moves, Lib.move]
      show Lib.moves id resolverTh (List.replicate 3 .read ++ timing) ⟨m, .polling, out⟩ = _
      rw [Lib.moves_append, drain_pointer hlength hne]
      exact hrest

end Lost

/-- Requests are not recovered. -/
theorem RecoversExactly.nil {requests : List DomainRequest} (h : RecoversExactly requests) :
    requests = [] := by
  obtain ⟨messages, hmessages, htimings⟩ := h fun _ => 0
  obtain rfl := mapM_resolve hmessages
  have hpointers : ∀ m ∈ requests.map DomainRequest.shared,
      m.length = pointerSize ∧ m ≠ List.replicate pointerSize 0 := by
    intro m hm
    obtain ⟨r, -, rfl⟩ := List.mem_map.mp hm
    exact ⟨r.shared_length, r.shared_ne⟩
  obtain ⟨timing, hwrites, hmoves⟩ := @one_by_one _ [] hpointers
  obtain ⟨k, w, hrun, -, -, hout⟩ := htimings timing hwrites
  rw [Lib.moves_append, show Lib.moves id resolverTh timing resolverStart = _ from hmoves] at hrun
  have hw := Except.ok.inj ((idle_reads k).symm.trans hrun)
  rw [← hw] at hout
  exact List.map_eq_nil_iff.mp hout.symm

/-- **No request gets through the pipe.** Whatever the requests, nothing is read or written outside
the arrays and the thread takes exactly the requests that were made, however its reads fall between
the messages, if and only if there is no request. -/
theorem recovers_exactly_iff (requests : List DomainRequest) :
    RecoversExactly requests ↔ requests = [] := by
  constructor
  · exact RecoversExactly.nil
  · rintro rfl garbage
    refine ⟨[], rfl, fun timing hwrites => ⟨0, ⟨[], .polling, []⟩, ?_, rfl, rfl, rfl⟩⟩
    rw [Lib.eq_replicate_of_writes hwrites, List.replicate_zero, List.append_nil]
    exact idle_reads _

/-- A request for "a", port 80. -/
theorem not_recovers_exactly : ¬ ∀ requests : List DomainRequest, RecoversExactly requests := by
  intro h
  have hnil := (h [⟨List.replicate pointerSize 1, [0x61], [0, 80], by decide, by decide, by decide,
    by decide⟩]).nil
  cases hnil

end Socksprox.ResolverPipe
