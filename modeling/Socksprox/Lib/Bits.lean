import Mathlib.Logic.Function.Basic
import Mathlib.Data.Nat.Bitwise

/-!
The bits of an array of octets, most significant first, and the arrays that agree on their leading
bits. Masking with leading ones decides this: `and_eq_and_iff`.
-/

namespace Lib

section Bits

variable {n len : Nat} {a b m : Fin n → UInt8}

/-- Bit `k` of an array of octets, counted from the most significant bit of the first octet. -/
def bit (a : Fin n → UInt8) (k : Nat) : Bool :=
  if h : k / 8 < n then (a ⟨k / 8, h⟩).toNat.testBit (7 - k % 8) else false

/-- The arrays agree on their leading bits. -/
def SameLeading (len : Nat) (a b : Fin n → UInt8) : Prop := ∀ k < len, bit a k = bit b k

instance : Decidable (SameLeading len a b) := inferInstanceAs (Decidable (∀ k < len, _))

theorem bit_and (k : Nat) : bit (fun i => a i &&& b i) k = (bit a k && bit b k) := by
  unfold bit
  split
  · rw [UInt8.toNat_and, Nat.testBit_and]
  · rfl

/-- An octet is its bits. -/
theorem octet_ext {x y : UInt8} (h : ∀ j < 8, x.toNat.testBit (7 - j) = y.toNat.testBit (7 - j)) :
    x = y := by
  refine UInt8.toNat_inj.mp (Nat.eq_of_testBit_eq fun i => ?_)
  rcases Nat.lt_or_ge i 8 with hi | hi
  · have hbit := h (7 - i) (by omega)
    rwa [show 7 - (7 - i) = i by omega] at hbit
  · have hbound : ∀ z : UInt8, z.toNat < 2 ^ i := fun z =>
      lt_of_lt_of_le z.toNat_lt (Nat.pow_le_pow_right (by decide) hi)
    rw [Nat.testBit_lt_two_pow (hbound x), Nat.testBit_lt_two_pow (hbound y)]

/-- An array is its bits. -/
theorem eq_of_bit (h : ∀ k < 8 * n, bit a k = bit b k) : a = b := by
  funext i
  refine octet_ext fun j hj => ?_
  have hk := h (8 * i.val + j) (by have := i.isLt; omega)
  have hdiv : (8 * i.val + j) / 8 = i.val := by omega
  have hmod : (8 * i.val + j) % 8 = j := by omega
  simpa only [bit, hdiv, hmod, i.isLt, dif_pos, Fin.eta] using hk

/-- Under a mask of leading ones, two arrays are the same when they agree on the bits it keeps. -/
theorem and_eq_and_iff (hlen : len ≤ 8 * n) (hm : ∀ k < 8 * n, bit m k = decide (k < len)) :
    ((fun i => a i &&& m i) = fun i => b i &&& m i) ↔ SameLeading len a b := by
  have hbit : ∀ (c : Fin n → UInt8) {k : Nat}, k < 8 * n →
      bit (fun i => c i &&& m i) k = (bit c k && decide (k < len)) := fun c k hk => by
    rw [bit_and, hm k hk]
  constructor
  · intro h k hk
    have hbits := congrArg (fun c => bit c k) h
    simpa only [hbit a (hk.trans_le hlen), hbit b (hk.trans_le hlen), hk, decide_true,
      Bool.and_true] using hbits
  · intro h
    refine eq_of_bit fun k hk => ?_
    rw [hbit a hk, hbit b hk]
    by_cases hlt : k < len
    · rw [h k hlt]
    · simp [hlt]

end Bits

end Lib
