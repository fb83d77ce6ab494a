import Socksprox.Server
import Socksprox.ResolverPipe
import Mathlib.Algebra.GroupWithZero.Nat

/-!
`resolve_ret` (`src/resolver.c`) over every result of its two reads.

The count of a read is compared with a `sizeof`, so that -1 is converted to an unsigned number
larger than any size and passes for a full read. Connections are known by the address of their
`Shared`.
-/

namespace Socksprox.ResolverReads

open Lib.Exec (get modify throw)
open ResolverPipe (pointerSize)

/-! ### Reads -/

/-- `sizeof(int)`. -/
def intSize : Nat := 4

/-- What a `read` of up to `n` octets comes to. -/
inductive ReadResult (n : Nat) where
  | failed
  | got (bytes : List UInt8) (hle : bytes.length ≤ n)

/-- A `ssize_t` as a `size_t`. -/
def toSizeT (x : Int) : Nat := (x % 2 ^ 64).toNat

namespace ReadResult

variable {n : Nat}

/-- What `read` returns. -/
def ret : ReadResult n → Int
  | .failed => -1
  | .got bytes _ => bytes.length

/-- `read(...) < sizeof(...)`. -/
def lessThanSize (r : ReadResult n) : Bool := decide (toSizeT r.ret < n)

/-- The variable after the read: what was read lies over its first octets. -/
def readOver (r : ReadResult n) (old : Octets n) : Octets n :=
  match r with
  | .failed => old
  | .got bytes _ => fun i => bytes.getD i.val (old i)

/-- Fewer octets than asked for. -/
def Short (r : ReadResult n) : Prop := 0 ≤ r.ret ∧ r.ret < n

/-- The field in full. -/
def Full (r : ReadResult n) : Prop := r.ret = n

end ReadResult

/-! ### Connections in memory -/

inductive MemoryFault where
  | wild (p : UInt64)
  | conn (f : Fault)

/-- The connections at their addresses. For stating properties: the pointers that were dereferenced,
and the connections that `socks5` was called for. -/
structure Memory where
  conns : UInt64 → Option World
  derefs : List UInt64
  calls : List UInt64

/-- Nothing lies at NULL. -/
def Memory.load (m : Memory) (p : UInt64) : Option World := if p = 0 then none else m.conns p

/-- Work on the connection whose `Shared` the pointer points to. -/
def onConn {α : Type} (p : UInt64) (body : Proc α) : Lib.Exec MemoryFault Memory α := fun m =>
  match m.load p with
  | none => .fault (.wild p) { m with derefs := m.derefs ++ [p] }
  | some w =>
    match body w with
    | .ok a w' => .ok a { m with
        conns := Function.update m.conns p (some w'), derefs := m.derefs ++ [p] }
    | .fault f w' => .fault (.conn f) { m with
        conns := Function.update m.conns p (some w'), derefs := m.derefs ++ [p] }

/-- Octets as a number, least significant first. -/
def littleEndian {n : Nat} (o : Octets n) : Nat :=
  ((List.finRange n).map fun i => 2 ^ (8 * i.val) * (o i).toNat).sum

/-- An `int` in memory. -/
def intOf (o : Octets intSize) : Int := (BitVec.ofNat 32 (littleEndian o)).toInt

/-- A pointer in memory. -/
def pointerOf (o : Octets pointerSize) : UInt64 := UInt64.ofNat (littleEndian o)

/-- The request goes on where it stopped: `shared->info->resolver_ret` and `shared->state`; then
`shared->client_data`. -/
def resumeConn (gaiRet : Int) : Proc (Option Side) := do
  let _ ← sharedInfo
  modify (·.resumed gaiRet)
  return (← sharedVal).data .client

/-- `resolve_ret`. `gai_ret` is -1 and `shared` is NULL before the reads. -/
def resolveRet (cfg : Configs) (first : ReadResult intSize) (second : ReadResult pointerSize) :
    Lib.Exec MemoryFault Memory Unit := do
  if first.lessThanSize then
    return
  if second.lessThanSize then
    return
  let gaiRet := intOf (first.readOver fun _ => 0xFF)
  let shared := pointerOf (second.readOver fun _ => 0)
  match ← onConn shared (resumeConn gaiRet) with
  | none => throw (.conn .null)
  | some e =>
    modify fun m => { m with calls := m.calls ++ [shared] }
    onConn shared (socks5 cfg e epollIn)

/-! ### Incomplete answers -/

/-- The pointer was received. -/
def Received (second : ReadResult pointerSize) (p : UInt64) : Prop :=
  second.Full ∧ pointerOf (second.readOver fun _ => 0) = p

/-- An answer that is not there in full does nothing: whatever connections there are, with one that
waits for the answer where a received pointer points, `resolve_ret` returns with all of them as they
were, has dereferenced no pointer but the one received, and has not called `socks5`. -/
def IgnoredSafely (cfg : Configs) (first : ReadResult intSize)
    (second : ReadResult pointerSize) : Prop :=
  ¬ (first.Full ∧ second.Full) → ∀ conns : UInt64 → Option World,
    (∀ p ≠ 0, Received second p → ∃ w ∈ conns p, w.shared.state = .asyncDns) →
    ∃ m, resolveRet cfg first second ⟨conns, [], []⟩ = .ok () m ∧ m.conns = conns ∧
      (∀ p ∈ m.derefs, Received second p) ∧ m.calls = []

section Reads

variable {n : Nat} {r : ReadResult n}

/-- Only a short count is less than the size: -1 is not. -/
theorem lessThanSize_iff (hn : n < 2 ^ 64) : r.lessThanSize = true ↔ r.Short := by
  rw [ReadResult.lessThanSize, decide_eq_true_eq, ReadResult.Short]
  cases r with
  | failed =>
    have hmax : toSizeT (ReadResult.failed : ReadResult n).ret = 2 ^ 64 - 1 := rfl
    rw [hmax]
    simp only [ReadResult.ret]
    omega
  | got bytes hle =>
    have hsame : toSizeT (ReadResult.got bytes hle).ret = bytes.length := by
      simp only [toSizeT, ReadResult.ret]
      omega
    rw [hsame]
    simp only [ReadResult.ret]
    omega

end Reads

/-! ### What an answer does -/

section Answers

variable {cfg : Configs} {first : ReadResult intSize} {second : ReadResult pointerSize} {m : Memory}
  {p : UInt64} {w : World}

theorem lessThanSize_first : first.lessThanSize = true ↔ first.Short :=
  lessThanSize_iff (by decide)

theorem lessThanSize_second : second.lessThanSize = true ↔ second.Short :=
  lessThanSize_iff (by decide)

/-- A short count of either read ends it. -/
theorem resolveRet_short (h : first.Short ∨ second.Short) :
    resolveRet cfg first second m = .ok () m := by
  unfold resolveRet
  by_cases hfirst : first.Short
  · rw [if_pos (lessThanSize_first.mpr hfirst)]
    rfl
  · have hsecond := h.resolve_left hfirst
    rw [if_neg (fun hless => hfirst (lessThanSize_first.mp hless)),
      if_pos (lessThanSize_second.mpr hsecond)]
    rfl

/-- Otherwise the pointer is followed, whatever it is. -/
theorem resolveRet_wild (hfirst : ¬ first.Short) (hsecond : ¬ second.Short)
    (hload : m.load (pointerOf (second.readOver fun _ => 0)) = none) :
    (resolveRet cfg first second m).fault? =
      some (.wild (pointerOf (second.readOver fun _ => 0))) := by
  unfold resolveRet
  rw [if_neg (fun hless => hfirst (lessThanSize_first.mp hless)),
    if_neg (fun hless => hsecond (lessThanSize_second.mp hless))]
  show (Lib.Exec.andThen (onConn _ _) _ m).fault? = _
  simp [Lib.Exec.andThen, onConn, hload, Lib.Outcome.fault?]

/-- The two halves of what `Socksprox.resolveRet` does with an answer. -/
theorem resolveRet_answered {gaiRet : Int} (hdns : w.dns = .answered gaiRet) :
    Socksprox.resolveRet cfg w = (resumeConn gaiRet >>= fun client =>
      match client with
      | some e => socks5 cfg e epollIn
      | none => throw .null) w := by
  have hstart : Socksprox.resolveRet cfg w = (do
      let _ ← sharedInfo
      modify (·.resumed gaiRet)
      let shared ← sharedVal
      match shared.data .client with
      | some e => socks5 cfg e epollIn
      | none => throw .null : Proc Unit) w := by
    obtain ⟨shared, selfFd, info, access, mem, fds, ans, dns, pending, trace⟩ := w
    obtain rfl : dns = .answered gaiRet := hdns
    rfl
  have hlawful : LawfulMonad Proc := Lib.Exec.lawfulMonad
  rw [hstart, resumeConn]
  simp only [bind_assoc, pure_bind]

theorem onConn_load {α : Type} {body : Proc α} (hload : m.load p = some w) :
    onConn p body m = match body w with
      | .ok a w' => .ok a { m with
          conns := Function.update m.conns p (some w'), derefs := m.derefs ++ [p] }
      | .fault f w' => .fault (.conn f) { m with
          conns := Function.update m.conns p (some w'), derefs := m.derefs ++ [p] } := by
  rw [onConn, hload]

/-- The connection goes on as `Socksprox.resolveRet` lets it go on with the answer that `gai_ret`
holds, which is -1 when that was not read. -/
theorem resolveRet_conn (hfirst : ¬ first.Short) (hsecond : ¬ second.Short)
    (hp : pointerOf (second.readOver fun _ => 0) = p) (hload : m.load p = some w)
    (hdns : w.dns = .answered (intOf (first.readOver fun _ => 0xFF))) :
    (resolveRet cfg first second m).state.conns = Function.update m.conns p
      (some (Socksprox.resolveRet cfg w).state) := by
  have hne : p ≠ 0 := by
    rintro rfl
    cases hload
  rw [resolveRet_answered hdns]
  show _ = Function.update m.conns p (some (Lib.Exec.andThen (resumeConn _) _ w).state)
  unfold resolveRet
  rw [if_neg (fun hless => hfirst (lessThanSize_first.mp hless)),
    if_neg (fun hless => hsecond (lessThanSize_second.mp hless)), hp]
  show (Lib.Exec.andThen (onConn p _) _ m).state.conns = _
  rw [Lib.Exec.andThen, Lib.Exec.andThen, onConn_load hload]
  cases hresume : resumeConn (intOf (first.readOver fun _ => 0xFF)) w with
  | fault f w' => rfl
  | ok client w' =>
    cases client with
    | none => rfl
    | some e =>
      have hload' : ∀ calls derefs,
        (Memory.mk (Function.update m.conns p (some w')) derefs calls).load p =
          some w' := fun calls derefs => by simp [Memory.load, hne]
      show (onConn p (socks5 cfg e epollIn) ⟨_, _, _⟩).state.conns = _
      rw [onConn_load (hload' _ _)]
      cases hcall : socks5 cfg e epollIn w' with
      | ok a w'' => simp [hcall]
      | fault f w'' => simp [hcall]

/-- A connection that is found is handed to `socks5`. -/
theorem resolveRet_calls {e : Side} {w' : World} (hfirst : ¬ first.Short) (hsecond : ¬ second.Short)
    (hp : pointerOf (second.readOver fun _ => 0) = p) (hload : m.load p = some w)
    (hresume : resumeConn (intOf (first.readOver fun _ => 0xFF)) w = .ok (some e) w') :
    (resolveRet cfg first second m).state.calls = m.calls ++ [p] := by
  unfold resolveRet
  rw [if_neg (fun hless => hfirst (lessThanSize_first.mp hless)),
    if_neg (fun hless => hsecond (lessThanSize_second.mp hless)), hp]
  show (Lib.Exec.andThen (onConn p _) _ m).state.calls = _
  rw [Lib.Exec.andThen, onConn_load hload, hresume]
  show (onConn p (socks5 cfg e epollIn) ⟨_, _, m.calls ++ [p]⟩).state.calls = _
  unfold onConn
  split
  · rfl
  · split <;> rfl

/-- A connection whose request was looked up. -/
def askingClient : World :=
  (newClient 0 (.inet (fun _ => 0) fun _ => 0) fun _ => .zero).setState .asyncDns |>.answered 0 []

/-- An error is not ignored. -/
theorem IgnoredSafely.short (hfirst : ¬ first.Short) (h : IgnoredSafely cfg first second)
    (hfull : ¬ (first.Full ∧ second.Full)) : second.Short := by
  by_contra hsecond
  have hwaits : ∀ p ≠ 0, Received second p →
      ∃ w ∈ (some askingClient : Option World), w.shared.state = .asyncDns :=
    fun _ _ _ => ⟨askingClient, rfl, rfl⟩
  obtain ⟨m, hrun, -, -, hcalls⟩ := h hfull (fun _ => some askingClient) hwaits
  by_cases hnull : pointerOf (second.readOver fun _ => 0) = 0
  · have hwild := @resolveRet_wild cfg first second
      ⟨fun _ => some askingClient, [], []⟩ hfirst hsecond
      (by rw [Memory.load, if_pos hnull])
    rw [hrun] at hwild
    cases hwild
  · have hmore := @resolveRet_calls cfg first second
      ⟨fun _ => some askingClient, [], []⟩ _ _ .client _
      hfirst hsecond rfl (by rw [Memory.load, if_neg hnull]) rfl
    rw [hrun] at hmore
    rw [show m.calls = _ from hmore] at hcalls
    simp at hcalls

/-- **Incomplete answers are ignored when a read is short.** For every result of the two reads,
`resolve_ret` keeps its hands off what an incomplete answer does not say if and only if one of the
reads returned a short count, or both are complete. An error passes for a complete read. -/
theorem ignoredSafely_iff : IgnoredSafely cfg first second ↔
    first.Short ∨ second.Short ∨ first.Full ∧ second.Full := by
  constructor
  · intro h
    by_cases hfirst : first.Short
    · exact .inl hfirst
    · by_cases hfull : first.Full ∧ second.Full
      · exact .inr (.inr hfull)
      · exact .inr (.inl (h.short hfirst hfull))
  · intro h hfull conns hconns
    have hshort : first.Short ∨ second.Short := h.imp_right fun h => h.resolve_right hfull
    refine ⟨_, resolveRet_short hshort, rfl, ?_, rfl⟩
    intro p hp
    cases hp

/-- Both reads fail, and NULL is dereferenced. -/
theorem not_ignored_safely : ¬ ∀ cfg first second, IgnoredSafely cfg first second := by
  intro h
  have hshort := (h .cleared .failed .failed).short (fun hs => by cases hs.1) fun hfull => by
    cases hfull.1
  cases hshort.1

end Answers

end Socksprox.ResolverReads
