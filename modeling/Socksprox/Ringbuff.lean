import Socksprox.Lib.Fifo
import Socksprox.Lib.Machine
import Mathlib.Algebra.Group.Nat.Defs
import Mathlib.Tactic.SplitIfs

/-!
The ring buffer of `src/epoll_data.c`.

`CBuff` is a C byte array: copies are checked against its bounds, and `none` is a
copy that leaves it. `size_t` subtraction and addition are checked as well, `none`
standing for a result that would wrap at 2^64. The three operations below are the
source's, statement by statement; that they never return `none` from a reachable
state is part of what is proved about them.
-/

namespace Socksprox

/-! ### C arrays and `size_t` -/

/-- No C object is larger than `PTRDIFF_MAX` bytes. -/
def ptrdiffMax : Nat := 2 ^ 63 - 1

/-- A byte array of the program: its size and its bytes. -/
structure CBuff where
  size : Nat
  byte : Nat → UInt8
  size_le : size ≤ ptrdiffMax

namespace CBuff

/-- Read `n` bytes at `off`; `none` when the range leaves the array. -/
def read (b : CBuff) (off n : Nat) : Option (List UInt8) :=
  if off + n ≤ b.size then some ((List.range n).map fun i => b.byte (off + i)) else none

/-- The array with `bytes` at `off` and onwards. -/
def put (b : CBuff) (off : Nat) (bytes : List UInt8) : CBuff :=
  { b with byte := fun i =>
      if off ≤ i ∧ i < off + bytes.length then bytes.getD (i - off) 0 else b.byte i }

/-- Store `bytes` at `off`; `none` when the range leaves the array. -/
def write (b : CBuff) (off : Nat) (bytes : List UInt8) : Option CBuff :=
  if off + bytes.length ≤ b.size then some (b.put off bytes) else none

/-- The array's bytes in order. -/
def bytes (b : CBuff) : List UInt8 := (List.range b.size).map b.byte

end CBuff

/-- `a - b` on `size_t`, `none` where it would wrap below zero. -/
def sizeSub (a b : Nat) : Option Nat := if b ≤ a then some (a - b) else none

/-- `a + b` on `size_t`, `none` where it would wrap at 2^64. -/
def sizeAdd (a b : Nat) : Option Nat := if a + b < 2 ^ 64 then some (a + b) else none

theorem sizeSub_of_le {a b : Nat} (h : b ≤ a) : sizeSub a b = some (a - b) := by
  simp [sizeSub, h]

theorem sizeAdd_of_lt {a b : Nat} (h : a + b < 2 ^ 64) : sizeAdd a b = some (a + b) := by
  simp only [sizeAdd, h, if_true]

/-! ### The three operations -/

structure Ringbuff where
  buff : CBuff
  readhead : Nat
  writehead : Nat
  capacity : Nat
  used : Nat

/-- `write_ringbuff`: the buffer after it and the count it returns. -/
def writeRingbuff (dst : Ringbuff) (src : List UInt8) : Option (Ringbuff × Nat) := do
  let srclen := src.length
  let free ← sizeSub dst.capacity dst.used
  if srclen > free then
    return (dst, 0)
  let toEnd ← sizeSub dst.capacity dst.writehead
  let firstWrite := if toEnd > srclen then srclen else toEnd
  let buff ← dst.buff.write dst.writehead (src.take firstWrite)
  let secondWrite ← sizeSub srclen firstWrite
  let buff ← if secondWrite > 0 then buff.write 0 (src.drop firstWrite) else some buff
  let head ← sizeAdd dst.writehead srclen
  let used ← sizeAdd dst.used srclen
  return ({ dst with buff := buff, writehead := head % dst.capacity, used := used }, srclen)

/-- `peek_ringbuff`: the destination array after it and the count it returns. -/
def peekRingbuff (src : Ringbuff) (dst : CBuff) (dstlen : Nat) : Option (CBuff × Nat) := do
  if src.used = 0 then
    return (dst, 0)
  let dstlen := if src.used < dstlen then src.used else dstlen
  let toEnd ← sizeSub src.capacity src.readhead
  let firstRead := if toEnd > dstlen then dstlen else toEnd
  let first ← src.buff.read src.readhead firstRead
  let dst ← dst.write 0 first
  let secondRead ← sizeSub dstlen firstRead
  if secondRead > 0 then
    let second ← src.buff.read 0 secondRead
    let dst ← dst.write firstRead second
    return (dst, dstlen)
  return (dst, dstlen)

/-- `consume_ringbuff`: the buffer after it and the count it returns. -/
def consumeRingbuff (src : Ringbuff) (consume : Nat) : Option (Ringbuff × Nat) := do
  if src.used = 0 then
    return (src, 0)
  let consume := if consume > src.used then src.used else consume
  let head ← sizeAdd src.readhead consume
  let used ← sizeSub src.used consume
  return ({ src with readhead := head % src.capacity, used := used }, consume)

/-! ### The queue a ring buffer holds -/

/-- The bytes in the buffer, oldest first. -/
def Ringbuff.contents (r : Ringbuff) : List UInt8 :=
  (List.range r.used).map fun i => r.buff.byte ((r.readhead + i) % r.capacity)

/-- What every reachable ring buffer satisfies. Full and empty share
`readhead = writehead` and are told apart by `used`. -/
structure Ringbuff.Wf (r : Ringbuff) : Prop where
  size_eq : r.buff.size = r.capacity
  capacity_pos : 0 < r.capacity
  used_le : r.used ≤ r.capacity
  readhead_lt : r.readhead < r.capacity
  writehead_eq : r.writehead = (r.readhead + r.used) % r.capacity

namespace Ringbuff

variable {r : Ringbuff}

@[simp] theorem contents_length (r : Ringbuff) : r.contents.length = r.used := by
  simp [contents]

theorem Wf.writehead_lt (h : r.Wf) : r.writehead < r.capacity := by
  rw [h.writehead_eq]
  exact Nat.mod_lt _ h.capacity_pos

theorem Wf.capacity_le (h : r.Wf) : r.capacity ≤ ptrdiffMax :=
  h.size_eq ▸ r.buff.size_le

/-- An index within one lap of the head wraps at most once. -/
theorem wrap_eq {cap head i : Nat} (hhead : head < cap) (hi : i ≤ cap) :
    (head + i) % cap = if head + i < cap then head + i else head + i - cap := by
  split_ifs with h
  · exact Nat.mod_eq_of_lt h
  · rw [Nat.mod_eq_sub_mod (by omega), Nat.mod_eq_of_lt (by omega)]

theorem contents_get {i : Nat} (hi : i < r.contents.length) :
    r.contents[i] = r.buff.byte ((r.readhead + i) % r.capacity) := by
  simp [contents]

end Ringbuff

/-! ### What the operations do -/

namespace CBuff

@[simp] theorem put_size (b : CBuff) (off : Nat) (bytes : List UInt8) :
    (b.put off bytes).size = b.size := rfl

@[simp] theorem put_nil (b : CBuff) (off : Nat) : b.put off [] = b := by
  have hbyte : (fun i => if off ≤ i ∧ i < off + ([] : List UInt8).length
      then ([] : List UInt8).getD (i - off) 0 else b.byte i) = b.byte := by
    funext i
    exact if_neg (by simp only [List.length_nil]; omega)
  simp only [put, hbyte]

theorem put_byte (b : CBuff) (off : Nat) (bytes : List UInt8) (i : Nat) :
    (b.put off bytes).byte i =
      if off ≤ i ∧ i < off + bytes.length then bytes.getD (i - off) 0 else b.byte i := rfl

/-- Two stores in a row are one store of both. -/
theorem put_put (b : CBuff) (off : Nat) (xs ys : List UInt8) :
    (b.put off xs).put (off + xs.length) ys = b.put off (xs ++ ys) := by
  simp only [put, mk.injEq, true_and]
  refine funext fun i => ?_
  simp only [List.length_append, List.getD_eq_getElem?_getD, List.getElem?_append]
  split_ifs <;> first | rfl | omega | (congr 2; omega)

theorem write_of_le {b : CBuff} {off : Nat} {bytes : List UInt8}
    (h : off + bytes.length ≤ b.size) : b.write off bytes = some (b.put off bytes) :=
  if_pos h

theorem read_of_le {b : CBuff} {off n : Nat} (h : off + n ≤ b.size) :
    b.read off n = some ((List.range n).map fun i => b.byte (off + i)) :=
  if_pos h

end CBuff

/-- The buffer after a write of `src` that fits. -/
def Ringbuff.appended (r : Ringbuff) (src : List UInt8) : Ringbuff :=
  { r with
    buff := (r.buff.put r.writehead (src.take (r.capacity - r.writehead))).put 0
      (src.drop (r.capacity - r.writehead))
    writehead := (r.writehead + src.length) % r.capacity
    used := r.used + src.length }

/-- The buffer after `n` bytes, all of them there, were consumed. -/
def Ringbuff.consumed (r : Ringbuff) (n : Nat) : Ringbuff :=
  { r with readhead := (r.readhead + n) % r.capacity, used := r.used - n }

/-- A write that does not fit is refused whole. -/
theorem writeRingbuff_full {r : Ringbuff} (h : r.Wf) {src : List UInt8}
    (hfull : r.capacity - r.used < src.length) : writeRingbuff r src = some (r, 0) := by
  simp [writeRingbuff, sizeSub_of_le h.used_le, hfull]

/-- A write that fits never leaves the buffer, never wraps a `size_t`, and stores
the bytes from the write head on, the rest of them at the start of the array. -/
theorem writeRingbuff_fits {r : Ringbuff} (h : r.Wf) {src : List UInt8}
    (hfit : src.length ≤ r.capacity - r.used) :
    writeRingbuff r src = some (r.appended src, src.length) := by
  have hcap := h.capacity_le
  have hsize := h.size_eq
  have hused := h.used_le
  have hwh := h.writehead_lt
  have hmax : ptrdiffMax < 2 ^ 63 := by decide
  have hfree : sizeSub r.capacity r.used = some (r.capacity - r.used) := sizeSub_of_le hused
  have htoEnd : sizeSub r.capacity r.writehead = some (r.capacity - r.writehead) :=
    sizeSub_of_le (by omega)
  have hhead : sizeAdd r.writehead src.length = some (r.writehead + src.length) :=
    sizeAdd_of_lt (by omega)
  have husedAdd : sizeAdd r.used src.length = some (r.used + src.length) :=
    sizeAdd_of_lt (by omega)
  have hnotFull : ¬ src.length > r.capacity - r.used := by omega
  by_cases hwrap : r.capacity - r.writehead > src.length
  · -- one copy
    have hsecond : sizeSub src.length src.length = some 0 := by simp [sizeSub]
    have hcopy : r.buff.write r.writehead src = some (r.buff.put r.writehead src) :=
      CBuff.write_of_le (by omega)
    have htake : src.take (r.capacity - r.writehead) = src := List.take_of_length_le (by omega)
    have hdrop : src.drop (r.capacity - r.writehead) = [] := List.drop_of_length_le (by omega)
    simp [writeRingbuff, Ringbuff.appended, hfree, htoEnd, hhead, husedAdd, hnotFull, hwrap,
      hsecond, hcopy, htake, hdrop]
  · -- two copies, the second at the start of the array
    have hsecond : sizeSub src.length (r.capacity - r.writehead) =
        some (src.length - (r.capacity - r.writehead)) := sizeSub_of_le (by omega)
    have hcopy : r.buff.write r.writehead (src.take (r.capacity - r.writehead)) =
        some (r.buff.put r.writehead (src.take (r.capacity - r.writehead))) :=
      CBuff.write_of_le (by rw [List.length_take]; omega)
    by_cases hrest : src.length - (r.capacity - r.writehead) > 0
    · have hcopy₂ : (r.buff.put r.writehead (src.take (r.capacity - r.writehead))).write 0
          (src.drop (r.capacity - r.writehead)) = some _ :=
        CBuff.write_of_le (by rw [List.length_drop, CBuff.put_size]; omega)
      simp [writeRingbuff, Ringbuff.appended, hfree, htoEnd, hhead, husedAdd, hnotFull, hwrap,
        hsecond, hcopy, hrest, hcopy₂]
    · have hdrop : src.drop (r.capacity - r.writehead) = [] :=
        List.drop_of_length_le (by omega)
      simp [writeRingbuff, Ringbuff.appended, hfree, htoEnd, hhead, husedAdd, hnotFull, hwrap,
        hsecond, hcopy, hrest, hdrop]

/-- The bytes already queued keep their places. -/
theorem appended_byte_old {r : Ringbuff} (h : r.Wf) {src : List UInt8}
    (hfit : src.length ≤ r.capacity - r.used) {i : Nat} (hi : i < r.used) :
    (r.appended src).buff.byte ((r.readhead + i) % r.capacity) =
      r.buff.byte ((r.readhead + i) % r.capacity) := by
  have hused := h.used_le
  have hrh := h.readhead_lt
  have hwh := h.writehead_eq.trans (Ringbuff.wrap_eq hrh hused)
  rw [Ringbuff.wrap_eq hrh (by omega : i ≤ r.capacity)]
  simp only [Ringbuff.appended, CBuff.put_byte, List.length_drop, List.length_take]
  split_ifs at * <;> first | rfl | omega

/-- The new bytes follow the write head around the end of the array. -/
theorem appended_byte_new {r : Ringbuff} (h : r.Wf) {src : List UInt8}
    (hfit : src.length ≤ r.capacity - r.used) {j : Nat} (hj : j < src.length) :
    (r.appended src).buff.byte ((r.writehead + j) % r.capacity) = src[j] := by
  have hused := h.used_le
  have hwh := h.writehead_lt
  rw [Ringbuff.wrap_eq hwh (by omega : j ≤ r.capacity)]
  simp only [Ringbuff.appended, CBuff.put_byte, List.length_drop, List.length_take,
    List.getD_eq_getElem?_getD, List.getElem?_drop, List.getElem?_take]
  by_cases hwrap : r.writehead + j < r.capacity
  · rw [if_pos hwrap, if_neg (by omega), if_pos (by omega), if_pos (by omega),
      Nat.add_sub_cancel_left, List.getElem?_eq_getElem hj]
    rfl
  · rw [if_neg hwrap, if_pos (by omega)]
    have hidx : r.capacity - r.writehead + (r.writehead + j - r.capacity - 0) = j := by omega
    rw [hidx, List.getElem?_eq_getElem hj]
    rfl

/-- Appending puts `src` behind the queue. -/
theorem appended_contents {r : Ringbuff} (h : r.Wf) {src : List UInt8}
    (hfit : src.length ≤ r.capacity - r.used) :
    (r.appended src).contents = r.contents ++ src := by
  have hlen : (r.appended src).used = r.used + src.length := rfl
  apply List.ext_getElem
  · simp [hlen]
  · intro i hi _
    rw [Ringbuff.contents_get, List.getElem_append]
    simp only [Ringbuff.contents_length, hlen] at hi ⊢
    show (r.appended src).buff.byte ((r.readhead + i) % r.capacity) = _
    split
    · rename_i hold
      rw [appended_byte_old h hfit hold, Ringbuff.contents_get]
    · rename_i hnew
      have hplace : (r.readhead + i) % r.capacity =
          (r.writehead + (i - r.used)) % r.capacity := by
        rw [h.writehead_eq, Nat.mod_add_mod]
        congr 1
        omega
      rw [hplace, appended_byte_new h hfit (by omega : i - r.used < src.length)]

theorem appended_wf {r : Ringbuff} (h : r.Wf) {src : List UInt8}
    (hfit : src.length ≤ r.capacity - r.used) : (r.appended src).Wf where
  size_eq := h.size_eq
  capacity_pos := h.capacity_pos
  used_le := by
    have hused := h.used_le
    show r.used + src.length ≤ r.capacity
    omega
  readhead_lt := h.readhead_lt
  writehead_eq := by
    show (r.writehead + src.length) % r.capacity =
      (r.readhead + (r.used + src.length)) % r.capacity
    rw [h.writehead_eq, Nat.mod_add_mod, Nat.add_assoc]

/-- A consume removes what is there, up to the length asked for. -/
theorem consumeRingbuff_eq {r : Ringbuff} (h : r.Wf) (n : Nat) :
    consumeRingbuff r n = some (r.consumed (min n r.used), min n r.used) := by
  have hcap := h.capacity_le
  have hused := h.used_le
  have hrh := h.readhead_lt
  have hmax : ptrdiffMax < 2 ^ 63 := by decide
  by_cases hempty : r.used = 0
  · have hsame : r.consumed (min n r.used) = r := by
      simp [Ringbuff.consumed, hempty, Nat.mod_eq_of_lt hrh]
      cases r
      simp_all
    simp [consumeRingbuff, hempty]
    simp [hempty] at hsame
    exact hsame.symm
  · have hn : (if n > r.used then r.used else n) = min n r.used := by
      rw [Nat.min_def]
      split_ifs <;> omega
    have hhead : sizeAdd r.readhead (min n r.used) = some (r.readhead + min n r.used) :=
      sizeAdd_of_lt (by omega)
    have hleft : sizeSub r.used (min n r.used) = some (r.used - min n r.used) :=
      sizeSub_of_le (by omega)
    simp only [consumeRingbuff, hempty, if_false, hn, hhead, hleft]
    rfl

theorem consumed_contents (r : Ringbuff) (n : Nat) :
    (r.consumed n).contents = r.contents.drop n := by
  have hlen : (r.consumed n).used = r.used - n := rfl
  apply List.ext_getElem
  · simp [hlen]
  · intro i hi _
    rw [List.getElem_drop, Ringbuff.contents_get, Ringbuff.contents_get]
    show r.buff.byte (((r.readhead + n) % r.capacity + i) % r.capacity) = _
    rw [Nat.mod_add_mod, Nat.add_assoc]

theorem consumed_wf {r : Ringbuff} (h : r.Wf) {n : Nat} (hn : n ≤ r.used) :
    (r.consumed n).Wf where
  size_eq := h.size_eq
  capacity_pos := h.capacity_pos
  used_le := by
    have hused := h.used_le
    show r.used - n ≤ r.capacity
    omega
  readhead_lt := Nat.mod_lt _ h.capacity_pos
  writehead_eq := by
    show r.writehead = ((r.readhead + n) % r.capacity + (r.used - n)) % r.capacity
    rw [h.writehead_eq, Nat.mod_add_mod]
    congr 1
    omega

/-- The bytes in `n` places from the read head on, the wrapped ones included. -/
theorem contents_take_split {r : Ringbuff} (h : r.Wf) {n : Nat} (hn : n ≤ r.used) :
    r.contents.take n =
      ((List.range (min n (r.capacity - r.readhead))).map fun i => r.buff.byte (r.readhead + i)) ++
        (List.range (n - (r.capacity - r.readhead))).map fun i => r.buff.byte (0 + i) := by
  have hused := h.used_le
  have hrh := h.readhead_lt
  apply List.ext_getElem
  · simp
    omega
  · intro i hi _
    simp only [List.length_take, Ringbuff.contents_length] at hi
    rw [List.getElem_take, Ringbuff.contents_get,
      Ringbuff.wrap_eq hrh (by omega : i ≤ r.capacity)]
    simp only [List.getElem_append, List.length_map, List.length_range, List.getElem_map,
      List.getElem_range]
    by_cases hwrap : r.readhead + i < r.capacity
    · rw [if_pos hwrap, dif_pos (by omega)]
    · rw [if_neg hwrap, dif_neg (by omega)]
      congr 1
      omega

/-- A peek copies the first bytes of the queue to the start of the destination. -/
theorem peekRingbuff_eq {r : Ringbuff} (h : r.Wf) {dst : CBuff} {n : Nat} (hn : n ≤ dst.size) :
    peekRingbuff r dst n = some (dst.put 0 (r.contents.take n), min n r.used) := by
  have hused := h.used_le
  have hrh := h.readhead_lt
  have hsize := h.size_eq
  by_cases hempty : r.used = 0
  · have hnil : r.contents = [] := List.length_eq_zero_iff.mp (by simp [hempty])
    simp [peekRingbuff, hempty, hnil]
  have hlen : (if r.used < n then r.used else n) = min n r.used := by
    rw [Nat.min_def]
    split_ifs <;> omega
  have htake : r.contents.take n = r.contents.take (min n r.used) := by
    rw [← Ringbuff.contents_length r, ← List.take_eq_take_min]
  rw [htake]
  generalize hm : min n r.used = m at hlen ⊢
  have htoEnd : sizeSub r.capacity r.readhead = some (r.capacity - r.readhead) :=
    sizeSub_of_le (by omega)
  have hfirst : (if r.capacity - r.readhead > m then m else r.capacity - r.readhead) =
      min m (r.capacity - r.readhead) := by
    rw [Nat.min_def]
    split_ifs <;> omega
  have hsplit := contents_take_split h (by omega : m ≤ r.used)
  generalize hA : (List.range (min m (r.capacity - r.readhead))).map
    (fun i => r.buff.byte (r.readhead + i)) = first at hsplit
  generalize hB : (List.range (m - (r.capacity - r.readhead))).map
    (fun i => r.buff.byte (0 + i)) = second at hsplit
  have hAlen : first.length = min m (r.capacity - r.readhead) := by simp [← hA]
  have hBlen : second.length = m - (r.capacity - r.readhead) := by simp [← hB]
  have hread₁ : r.buff.read r.readhead (min m (r.capacity - r.readhead)) = some first := by
    rw [← hA]
    exact CBuff.read_of_le (by omega)
  have hread₂ : r.buff.read 0 (m - (r.capacity - r.readhead)) = some second := by
    rw [← hB]
    exact CBuff.read_of_le (by omega)
  have hwrite₁ : dst.write 0 first = some (dst.put 0 first) := CBuff.write_of_le (by omega)
  have hrest : sizeSub m (min m (r.capacity - r.readhead)) =
      some (m - (r.capacity - r.readhead)) := by
    rw [sizeSub_of_le (by omega)]
    congr 1
    omega
  by_cases hwrap : m - (r.capacity - r.readhead) > 0
  · have hwrite₂ : (dst.put 0 first).write (min m (r.capacity - r.readhead)) second =
        some (dst.put 0 (first ++ second)) := by
      rw [CBuff.write_of_le (by rw [CBuff.put_size]; omega), ← hAlen, ← CBuff.put_put, Nat.zero_add]
    simp [peekRingbuff, hempty, hlen, htoEnd, hfirst, hread₁, hwrite₁, hrest, hwrap, hread₂,
      hwrite₂, hsplit]
  · have hnil : second = [] := List.length_eq_zero_iff.mp (by omega)
    simp [peekRingbuff, hempty, hlen, htoEnd, hfirst, hread₁, hwrite₁, hrest, hwrap, hsplit, hnil]

/-! ### Refinement of the bounded queue -/

/-- A ring buffer as `accept_new_client` sets it up around a fresh array. -/
def Ringbuff.fresh (b : CBuff) : Ringbuff :=
  { buff := b, readhead := 0, writehead := 0, capacity := b.size, used := 0 }

/-- A call of one of the three operations. The destination of a peek has room for
what is asked for. -/
inductive RingCall where
  | write (src : List UInt8)
  | peek (dst : CBuff) (dstlen : Nat) (room : dstlen ≤ dst.size)
  | consume (n : Nat)

/-- What a call gives back: the returned count and the bytes of the destination. -/
structure RingReply where
  count : Nat
  dst : List UInt8
  deriving DecidableEq

def Ringbuff.call (r : Ringbuff) : RingCall → Option (Ringbuff × RingReply)
  | .write src => (writeRingbuff r src).map fun (r', n) => (r', ⟨n, []⟩)
  | .peek dst dstlen _ => (peekRingbuff r dst dstlen).map fun (dst', n) => (r, ⟨n, dst'.bytes⟩)
  | .consume n => (consumeRingbuff r n).map fun (r', n) => (r', ⟨n, []⟩)

/-- What the calls mean for a queue of at most `cap` bytes. -/
def RingCall.spec {cap : Nat} (q : Lib.Fifo UInt8 cap) :
    RingCall → Lib.Fifo UInt8 cap × RingReply
  | .write src => ((q.push src).1, ⟨(q.push src).2, []⟩)
  | .peek dst dstlen _ =>
    (q, ⟨min dstlen q.items.length, q.peek dstlen ++ dst.bytes.drop (q.peek dstlen).length⟩)
  | .consume n => ((q.pop n).1, ⟨(q.pop n).2, []⟩)

/-- The ring buffer holds the queue `q`. -/
structure Ringbuff.Holds {cap : Nat} (r : Ringbuff) (q : Lib.Fifo UInt8 cap) : Prop where
  wf : r.Wf
  capacity : r.capacity = cap
  contents : r.contents = q.items

theorem CBuff.put_bytes {b : CBuff} {bs : List UInt8} (h : bs.length ≤ b.size) :
    (b.put 0 bs).bytes = bs ++ b.bytes.drop bs.length := by
  apply List.ext_getElem
  · simp [CBuff.bytes]
    omega
  · intro i hi _
    simp only [CBuff.bytes, List.length_map, List.length_range, CBuff.put_size] at hi
    simp only [CBuff.bytes, List.getElem_map, List.getElem_range, CBuff.put_byte, Nat.zero_le,
      true_and, Nat.zero_add, Nat.sub_zero, List.getElem_append, List.getElem_drop]
    split_ifs with hlt
    · simp [hlt]
    · congr 1
      omega

/-- One call answers as the queue does and leaves the buffer holding the queue after it. -/
theorem call_refines {cap : Nat} {r : Ringbuff} {q : Lib.Fifo UInt8 cap} (h : r.Holds q)
    (c : RingCall) :
    ∃ r', r.call c = some (r', (c.spec q).2) ∧ r'.Holds (c.spec q).1 := by
  obtain ⟨hwf, hcap, hitems⟩ := h
  have hlen : r.used = q.items.length := by rw [← hitems, Ringbuff.contents_length]
  cases c with
  | write src =>
    by_cases hfit : src.length ≤ r.capacity - r.used
    · have hfree : src.length ≤ q.free := by
        unfold Lib.Fifo.free
        omega
      obtain ⟨hpush, hcount⟩ := Lib.Fifo.push_fits hfree
      refine ⟨r.appended src, ?_, appended_wf hwf hfit, hcap, ?_⟩
      · simp [Ringbuff.call, RingCall.spec, writeRingbuff_fits hwf hfit, hcount]
      · rw [appended_contents hwf hfit, hitems]
        exact hpush.symm
    · have hfull : q.push src = (q, 0) := Lib.Fifo.push_full (by
        unfold Lib.Fifo.free
        omega)
      refine ⟨r, ?_, hwf, hcap, ?_⟩
      · have hrefused : writeRingbuff r src = some (r, 0) :=
          writeRingbuff_full hwf (by omega)
        simp [Ringbuff.call, RingCall.spec, hfull, hrefused]
      · simp [RingCall.spec, hfull, hitems]
  | peek dst dstlen room =>
    refine ⟨r, ?_, hwf, hcap, hitems⟩
    have hroom : (q.items.take dstlen).length ≤ dst.size := by
      rw [List.length_take]
      omega
    simp only [Ringbuff.call, RingCall.spec, peekRingbuff_eq hwf room, Option.map_some,
      CBuff.put_bytes hroom, hlen, Lib.Fifo.peek, hitems]
  | consume n =>
    refine ⟨r.consumed (min n r.used), ?_, consumed_wf hwf (Nat.min_le_right _ _), hcap, ?_⟩
    · simp [Ringbuff.call, RingCall.spec, consumeRingbuff_eq hwf n, Lib.Fifo.pop, hlen]
    · rw [consumed_contents, hitems, hlen]
      show q.items.drop (min n q.items.length) = q.items.drop n
      rcases Nat.le_total n q.items.length with hle | hle
      · rw [Nat.min_eq_left hle]
      · rw [Nat.min_eq_right hle, List.drop_length, List.drop_of_length_le hle]

theorem fresh_holds {b : CBuff} (hpos : 0 < b.size) :
    (Ringbuff.fresh b).Holds (Lib.Fifo.empty : Lib.Fifo UInt8 b.size) where
  wf :=
    { size_eq := rfl
      capacity_pos := hpos
      used_le := Nat.zero_le _
      readhead_lt := hpos
      writehead_eq := (Nat.zero_mod _).symm }
  capacity := rfl
  contents := rfl

/-- **The ring buffer is a bounded byte queue.** From an empty buffer of any positive
capacity, every sequence of calls stays inside its arrays and never wraps a `size_t`
(no call returns `none`), keeps the four relations between the heads, `used` and the
capacity, and gives exactly the replies and the contents of the bounded queue. -/
theorem ringbuff_refines_fifo (b : CBuff) (hpos : 0 < b.size) (cs : List RingCall) :
    ∃ r, Lib.calls Ringbuff.call (Ringbuff.fresh b) cs =
        some (r, (Lib.specCalls RingCall.spec (Lib.Fifo.empty : Lib.Fifo UInt8 b.size) cs).2) ∧
      r.contents =
        (Lib.specCalls RingCall.spec (Lib.Fifo.empty : Lib.Fifo UInt8 b.size) cs).1.items ∧
      r.capacity = b.size ∧ r.used ≤ r.capacity ∧ r.readhead < r.capacity ∧
      r.writehead < r.capacity ∧ r.writehead = (r.readhead + r.used) % r.capacity := by
  obtain ⟨r, hr, hwf, hcap, hitems⟩ :=
    Lib.calls_refine (R := fun (r : Ringbuff) (q : Lib.Fifo UInt8 b.size) => r.Holds q)
      (fun _ _ c h => call_refines h c) cs (fresh_holds hpos)
  exact ⟨r, hr, hitems, hcap, hwf.used_le, hwf.readhead_lt, hwf.writehead_lt, hwf.writehead_eq⟩

/-- A three byte array, the third byte of whose contents wraps around. -/
def tinyBuff : CBuff := ⟨3, fun _ => 0, by decide⟩

theorem ringbuff_refines_fifo_tiny :
    0 < tinyBuff.size ∧
      ∃ r, Lib.calls Ringbuff.call (Ringbuff.fresh tinyBuff)
          [.write [1, 2], .consume 1, .write [3, 4], .write [5]] =
            some (r, [⟨2, []⟩, ⟨1, []⟩, ⟨2, []⟩, ⟨0, []⟩]) ∧
        r.contents = [2, 3, 4] := by
  refine ⟨by decide, ?_⟩
  obtain ⟨r, hr, hitems, -⟩ := ringbuff_refines_fifo tinyBuff (by decide)
    [.write [1, 2], .consume 1, .write [3, 4], .write [5]]
  exact ⟨r, hr, hitems⟩

/-! ### Well-formed buffers -/

/-- A ring buffer together with its invariant: what the server's buffers are from
`accept_new_client` on. -/
structure Ring where
  raw : Ringbuff
  wf : raw.Wf

namespace Ring

def contents (r : Ring) : List UInt8 := r.raw.contents

def capacity (r : Ring) : Nat := r.raw.capacity

def used (r : Ring) : Nat := r.raw.used

/-- The room left, `capacity - used`. -/
def free (r : Ring) : Nat := r.capacity - r.used

def fresh (b : CBuff) (hpos : 0 < b.size) : Ring := ⟨.fresh b, (fresh_holds hpos).wf⟩

def write (r : Ring) (src : List UInt8) : Ring × Nat :=
  if h : src.length ≤ r.raw.capacity - r.raw.used then
    (⟨r.raw.appended src, appended_wf r.wf h⟩, src.length)
  else (r, 0)

/-- The bytes a peek of `n` copies out. -/
def peek (r : Ring) (n : Nat) : List UInt8 := r.contents.take n

def consume (r : Ring) (n : Nat) : Ring :=
  ⟨r.raw.consumed (min n r.raw.used), consumed_wf r.wf (Nat.min_le_right _ _)⟩

/-- `Ring.write` is `write_ringbuff`. -/
theorem write_raw (r : Ring) (src : List UInt8) :
    writeRingbuff r.raw src = some ((r.write src).1.raw, (r.write src).2) := by
  unfold write
  split
  · rename_i h
    exact writeRingbuff_fits r.wf h
  · rename_i h
    exact writeRingbuff_full r.wf (by omega)

/-- `Ring.peek` is `peek_ringbuff`. -/
theorem peek_raw (r : Ring) {dst : CBuff} {n : Nat} (hn : n ≤ dst.size) :
    peekRingbuff r.raw dst n = some (dst.put 0 (r.peek n), (r.peek n).length) := by
  rw [peekRingbuff_eq r.wf hn]
  simp [peek, contents]

/-- `Ring.consume` is `consume_ringbuff`. -/
theorem consume_raw (r : Ring) (n : Nat) :
    consumeRingbuff r.raw n = some ((r.consume n).raw, min n r.used) :=
  consumeRingbuff_eq r.wf n

@[simp] theorem contents_length (r : Ring) : r.contents.length = r.used :=
  r.raw.contents_length

theorem contents_eq_nil {r : Ring} : r.contents = [] ↔ r.used = 0 := by
  rw [← List.length_eq_zero_iff, contents_length]

theorem used_le (r : Ring) : r.used ≤ r.capacity := r.wf.used_le

@[simp] theorem fresh_contents (b : CBuff) (hpos : 0 < b.size) : (fresh b hpos).contents = [] := rfl

@[simp] theorem fresh_capacity (b : CBuff) (hpos : 0 < b.size) :
    (fresh b hpos).capacity = b.size := rfl

theorem write_fits {r : Ring} {src : List UInt8} (h : src.length ≤ r.free) :
    (r.write src).1.contents = r.contents ++ src ∧ (r.write src).2 = src.length := by
  have hfit : src.length ≤ r.raw.capacity - r.raw.used := h
  unfold write
  rw [dif_pos hfit]
  exact ⟨appended_contents r.wf hfit, rfl⟩

theorem write_full {r : Ring} {src : List UInt8} (h : r.free < src.length) :
    r.write src = (r, 0) := by
  have hfull : ¬ src.length ≤ r.raw.capacity - r.raw.used := Nat.not_le.mpr h
  simp [write, hfull]

@[simp] theorem write_capacity (r : Ring) (src : List UInt8) :
    (r.write src).1.capacity = r.capacity := by
  unfold write
  split
  · rfl
  · rfl

@[simp] theorem consume_contents (r : Ring) (n : Nat) :
    (r.consume n).contents = r.contents.drop n := by
  show (r.raw.consumed (min n r.raw.used)).contents = r.raw.contents.drop n
  rw [consumed_contents]
  rcases Nat.le_total n r.raw.used with hle | hle
  · rw [Nat.min_eq_left hle]
  · rw [Nat.min_eq_right hle, List.drop_of_length_le (by simp), List.drop_of_length_le (by simpa)]

theorem consume_used (r : Ring) (n : Nat) : (r.consume n).used ≤ r.used := by
  rw [← contents_length, ← contents_length, consume_contents, List.length_drop]
  omega

@[simp] theorem consume_capacity (r : Ring) (n : Nat) : (r.consume n).capacity = r.capacity := rfl

end Ring

end Socksprox
