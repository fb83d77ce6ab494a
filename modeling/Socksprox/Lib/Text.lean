import Mathlib.Logic.Function.Basic

/-!
Text made by formats, as `printf` makes it, and what can be read back from it: a piece that is
followed by a character it cannot contain ends there (`append_cons_inj`).
-/

namespace Lib

/-! ### Pieces -/

section Pieces

variable {α : Type} {p : α → Prop} {l₁ l₂ r₁ r₂ : List α} {c₁ c₂ : α}

theorem append_cons_inj (h₁ : ∀ x ∈ l₁, p x) (h₂ : ∀ x ∈ l₂, p x) (hc₁ : ¬ p c₁) (hc₂ : ¬ p c₂) :
    l₁ ++ c₁ :: r₁ = l₂ ++ c₂ :: r₂ ↔ l₁ = l₂ ∧ c₁ = c₂ ∧ r₁ = r₂ := by
  constructor
  · intro h
    induction l₁ generalizing l₂ with
    | nil =>
      cases l₂ with
      | nil => simpa using h
      | cons y l₂ =>
        rw [List.nil_append, List.cons_append, List.cons.injEq] at h
        exact absurd (h.1 ▸ h₂ y List.mem_cons_self) hc₁
    | cons x l₁ ih =>
      cases l₂ with
      | nil =>
        rw [List.nil_append, List.cons_append, List.cons.injEq] at h
        exact absurd (h.1 ▸ h₁ x List.mem_cons_self) hc₂
      | cons y l₂ =>
        rw [List.cons_append, List.cons_append, List.cons.injEq] at h
        obtain ⟨rfl, hrest⟩ := h
        obtain ⟨rfl, hsep⟩ := ih (fun z hz => h₁ z (List.mem_cons_of_mem x hz))
          (fun z hz => h₂ z (List.mem_cons_of_mem x hz)) hrest
        exact ⟨rfl, hsep⟩
  · rintro ⟨rfl, rfl, rfl⟩
    rfl

/-- Pieces joined by a separator are the pieces. -/
theorem intercalate_inj [DecidableEq α] {c : α} {ps qs : List (List α)} (hps : ps ≠ [])
    (hqs : qs ≠ []) (hp : ∀ l ∈ ps, c ∉ l) (hq : ∀ l ∈ qs, c ∉ l)
    (h : [c].intercalate ps = [c].intercalate qs) : ps = qs := by
  rw [← List.splitOn_intercalate c hp hps, ← List.splitOn_intercalate c hq hqs, h]

end Pieces

/-! ### Formats -/

/-- `%d` of an `int`. -/
def decimal (n : Int) : List Char :=
  if n < 0 then '-' :: Nat.toDigits 10 n.natAbs else Nat.toDigits 10 n.natAbs

inductive Arg where
  | str (s : List Char)
  | int (n : Int)

/-- What `printf` makes of a format with the conversions `%s` and `%d`. Arguments that are left over
are not looked at. -/
def printf : List Char → List Arg → List Char
  | '%' :: 's' :: format, .str s :: args => s ++ printf format args
  | '%' :: 'd' :: format, .int n :: args => decimal n ++ printf format args
  | c :: format, args => c :: printf format args
  | [], _ => []

section Formats

variable {args : List Arg}

theorem decimal_natCast (n : Nat) : decimal n = Nat.toDigits 10 n := by
  rw [decimal, if_neg (by omega), Int.natAbs_natCast]

theorem decimal_digits (n : Nat) : ∀ c ∈ decimal n, c.isDigit = true := by
  intro c hc
  rw [decimal_natCast] at hc
  exact Nat.isDigit_of_mem_toDigits (by decide) (by decide) hc

theorem toDigits_injective : Function.Injective (Nat.toDigits 10) := by
  intro m n h
  rw [← @Nat.ofDigitChars_ten_toDigits m, ← @Nat.ofDigitChars_ten_toDigits n, h]

theorem decimal_inj {m n : Nat} : decimal m = decimal n ↔ m = n := by
  rw [decimal_natCast, decimal_natCast]
  exact toDigits_injective.eq_iff

/-- A character that begins no conversion. -/
theorem printf_cons {c : Char} (hc : c ≠ '%') (format : List Char) :
    printf (c :: format) args = c :: printf format args := by
  rw [printf]
  · intro _ _ _ _ hpercent
    exact absurd hpercent hc
  · intro _ _ _ _ hpercent
    exact absurd hpercent hc

/-- Text in front of the first conversion. -/
theorem printf_append {text : List Char} (htext : '%' ∉ text) (format : List Char) :
    printf (text ++ format) args = text ++ printf format args := by
  induction text with
  | nil => rfl
  | cons c text ih =>
    rw [List.mem_cons, not_or] at htext
    rw [List.cons_append, printf_cons (Ne.symm htext.1), ih htext.2, List.cons_append]

theorem printf_text {text : List Char} (htext : '%' ∉ text) : printf text args = text := by
  have h := @printf_append args text htext []
  rwa [List.append_nil, printf, List.append_nil] at h

end Formats

end Lib
