import Mathlib.Data.List.TakeDrop
import Mathlib.Data.List.TakeWhile

/-!
Scanners over arrays. A pointer into an array is the list of what is left of it, so that a read
behind the end of the array is a read from the empty list.

What a scanner finds depends on what it reads only: `skipWhile_append` and `token_append` let an
array go on behind the part that was read.
-/

namespace Lib

/-- How a scanner leaves its arrays. -/
inductive ScanFault where
  | read
  | write
  deriving DecidableEq

section Scan

variable {α : Type} {p : α → Bool} {nul a : α} {l l' rest written : List α} {room : Nat}

/-- The element pointed at. -/
def peek : List α → Except ScanFault α
  | [] => .error .read
  | a :: _ => .ok a

/-- Advance to the first element that is not of the kind. -/
def skipWhile (p : α → Bool) : List α → Except ScanFault (List α)
  | [] => .error .read
  | a :: l => if p a then skipWhile p l else .ok (a :: l)

/-- Copy into an array with `room` cells left, up to an element of the kind `p`, and terminate the
copy. The first element is copied unseen. A full array is left without a terminator. -/
def token (p : α → Bool) (nul : α) : Nat → List α → Except ScanFault (List α × List α)
  | 0, l => .ok ([], l)
  | _ + 1, [] => .error .read
  | _ + 1, [_] => .error .read
  | room + 1, a :: b :: l =>
    if p b then
      if room = 0 then .error .write else .ok ([a, nul], b :: l)
    else (token p nul room (b :: l)).map fun r => (a :: r.1, r.2)

/-! ### What is read -/

theorem skipWhile_append (h : skipWhile p l = .ok rest) (more : List α) :
    skipWhile p (l ++ more) = .ok (rest ++ more) := by
  induction l with
  | nil => cases h
  | cons a l ih =>
    rw [skipWhile] at h
    rw [List.cons_append, skipWhile]
    split at h
    · rename_i ha
      rw [if_pos ha]
      exact ih h
    · rename_i ha
      cases h
      rw [if_neg ha, List.cons_append]

theorem token_append (h : token p nul room l = .ok (written, rest)) (more : List α) :
    token p nul room (l ++ more) = .ok (written, rest ++ more) := by
  induction room generalizing l written rest with
  | zero =>
    cases h
    rfl
  | succ room ih =>
    match l, h with
    | a :: b :: l, h =>
      rw [token] at h
      rw [List.cons_append, List.cons_append, token]
      by_cases hb : p b = true
      · rw [if_pos hb] at h ⊢
        split at h
        · cases h
        · rename_i hroom
          cases h
          rw [if_neg hroom, List.cons_append]
      · rw [if_neg hb] at h ⊢
        cases hnext : token p nul room (b :: l) with
        | error e => simp [hnext, Except.map] at h
        | ok r =>
          have hlater := ih hnext
          rw [List.cons_append] at hlater
          rw [hnext] at h
          rw [hlater]
          cases h
          rfl

theorem skipWhile_suffix (h : skipWhile p l = .ok rest) : rest <:+ l := by
  induction l with
  | nil => cases h
  | cons a l ih =>
    rw [skipWhile] at h
    split at h
    · exact (ih h).trans (List.suffix_cons a l)
    · cases h
      exact List.suffix_rfl

theorem token_suffix (h : token p nul room l = .ok (written, rest)) :
    rest <:+ l ∧ written.length ≤ room := by
  induction room generalizing l written rest with
  | zero =>
    cases h
    exact ⟨List.suffix_rfl, Nat.zero_le _⟩
  | succ room ih =>
    match l, h with
    | a :: b :: l, h =>
      rw [token] at h
      split at h
      · split at h
        · cases h
        · cases h
          exact ⟨List.suffix_cons a _, by simp; omega⟩
      · cases hnext : token p nul room (b :: l) with
        | error e => simp [hnext, Except.map] at h
        | ok r =>
          rw [hnext] at h
          cases h
          obtain ⟨hsuffix, hlen⟩ := ih hnext
          exact ⟨hsuffix.trans (List.suffix_cons a _), by simpa using hlen⟩

/-- An array with room for all that is left is not filled. -/
theorem token_terminated (h : token p nul room l = .ok (written, rest)) (hpos : 0 < room)
    (hfit : l.length ≤ room) : nul ∈ written := by
  induction room generalizing l written rest with
  | zero => cases hpos
  | succ room ih =>
    match l, h with
    | a :: b :: l, h =>
      rw [token] at h
      split at h
      · split at h
        · cases h
        · cases h
          simp
      · cases hnext : token p nul room (b :: l) with
        | error e => simp [hnext, Except.map] at h
        | ok r =>
          rw [hnext] at h
          cases h
          have hroom : (b :: l).length ≤ room := by simpa using hfit
          exact List.mem_cons_of_mem a (ih hnext (by simp at hroom; omega) hroom)

/-! ### What is found -/

/-- An element of another kind is in the array. -/
theorem skipWhile_stop (ha : p a = false) :
    skipWhile p (l ++ a :: l') = .ok (l.dropWhile p ++ a :: l') := by
  induction l with
  | nil => simp [skipWhile, ha]
  | cons b l ih =>
    by_cases hb : p b = true
    · rw [List.cons_append, skipWhile, if_pos hb, List.dropWhile_cons_of_pos hb, ih]
    · rw [List.cons_append, skipWhile, if_neg hb, List.dropWhile_cons_of_neg hb, List.cons_append]

/-- What is skipped is all of the kind. -/
theorem skipWhile_found (hl : ∀ b ∈ l, p b = true) (ha : p a = false) :
    skipWhile p (l ++ a :: l') = .ok (a :: l') := by
  rw [skipWhile_stop ha, List.dropWhile_eq_nil_iff.mpr hl, List.nil_append]

theorem skipWhile_all (h : ∀ a ∈ l, p a = true) : skipWhile p l = .error .read := by
  induction l with
  | nil => rfl
  | cons a l ih =>
    rw [skipWhile, if_pos (h a List.mem_cons_self)]
    exact ih fun b hb => h b (List.mem_cons_of_mem a hb)

section Token

variable {b : α} {between : List α}

/-- The first element of a kind that is known to occur. -/
theorem split_at_first (l : List α) (hb : p b = true) (more : List α) :
    ∃ between c rest, l ++ b :: more = between ++ c :: rest ∧ (∀ x ∈ between, p x = false) ∧
      p c = true ∧ between.length ≤ l.length := by
  induction l with
  | nil => exact ⟨[], b, more, rfl, by simp, hb, Nat.zero_le _⟩
  | cons a l ih =>
    cases ha : p a with
    | true => exact ⟨[], a, l ++ b :: more, rfl, by simp, ha, Nat.zero_le _⟩
    | false =>
      obtain ⟨between, c, rest, heq, hbetween, hc, hlen⟩ := ih
      refine ⟨a :: between, c, rest, by rw [List.cons_append, heq, List.cons_append], ?_, hc,
        by simpa⟩
      rintro x (_ | ⟨_, hx⟩)
      · exact ha
      · exact hbetween x hx

/-- The end of the token comes while there is room for it and a terminator. -/
theorem token_found (hbetween : ∀ c ∈ between, p c = false) (hb : p b = true)
    (hroom : between.length + 1 < room) :
    token p nul room (a :: (between ++ b :: l)) = .ok (a :: (between ++ [nul]), b :: l) := by
  induction between generalizing a room with
  | nil =>
    obtain ⟨room, rfl⟩ : ∃ r, room = r + 2 := ⟨room - 2, by simp at hroom; omega⟩
    simp [token, hb]
  | cons c between ih =>
    obtain ⟨room, rfl⟩ : ∃ r, room = r + 1 := ⟨room - 1, by omega⟩
    have hc : p c = false := hbetween c List.mem_cons_self
    have hnext := ih (a := c) (fun d hd => hbetween d (List.mem_cons_of_mem c hd))
      (by simp at hroom; omega)
    rw [List.cons_append, token, if_neg (by simp [hc]), hnext]
    rfl

/-- The end of the token comes when the array is full: its terminator goes behind the array. -/
theorem token_write (hbetween : ∀ c ∈ between, p c = false) (hb : p b = true)
    (hroom : between.length + 1 = room) :
    token p nul room (a :: (between ++ b :: l)) = .error .write := by
  induction between generalizing a room with
  | nil =>
    subst hroom
    simp [token, hb]
  | cons c between ih =>
    subst hroom
    have hc : p c = false := hbetween c List.mem_cons_self
    have hnext := ih (a := c) (fun d hd => hbetween d (List.mem_cons_of_mem c hd)) rfl
    rw [List.length_cons, List.cons_append, token, if_neg (by simp [hc]), hnext]
    rfl

/-- No end of the token comes in time. -/
theorem token_full (hbetween : ∀ c ∈ between, p c = false) (hb : p b = false)
    (hroom : between.length + 1 = room) :
    token p nul room (a :: (between ++ b :: l)) = .ok (a :: between, b :: l) := by
  induction between generalizing a room with
  | nil =>
    subst hroom
    simp [token, hb, Except.map]
  | cons c between ih =>
    subst hroom
    have hc : p c = false := hbetween c List.mem_cons_self
    have hnext := ih (a := c) (fun d hd => hbetween d (List.mem_cons_of_mem c hd)) rfl
    rw [List.length_cons, List.cons_append, token, if_neg (by simp [hc]), hnext]
    rfl

/-- The array ends before the token does. -/
theorem token_read (hbetween : ∀ c ∈ between, p c = false) (hroom : between.length < room) :
    token p nul room (a :: between) = .error .read := by
  induction between generalizing a room with
  | nil =>
    obtain ⟨room, rfl⟩ : ∃ r, room = r + 1 := ⟨room - 1, by simp at hroom; omega⟩
    rfl
  | cons c between ih =>
    obtain ⟨room, rfl⟩ : ∃ r, room = r + 1 := ⟨room - 1, by omega⟩
    have hc : p c = false := hbetween c List.mem_cons_self
    have hnext := ih (a := c) (fun d hd => hbetween d (List.mem_cons_of_mem c hd))
      (by simp at hroom; omega)
    rw [token, if_neg (by simp [hc]), hnext]
    rfl

end Token

end Scan

end Lib
