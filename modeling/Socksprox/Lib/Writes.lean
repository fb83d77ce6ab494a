import Mathlib.Data.List.Basic

/-!
Sequences of writes to a record. A register of the record keeps the last value that is written to
it, and a log keeps all of them, the last first. What the other writes do does not matter, and
neither does what order they come in.
-/

namespace Lib

variable {ω σ β : Type} {step : ω → σ → σ → Prop}

/-- Each write in turn takes the record to the next one. -/
inductive Writes (step : ω → σ → σ → Prop) : List ω → σ → σ → Prop where
  | nil (s : σ) : Writes step [] s s
  | cons {w : ω} {ws : List ω} {s s₁ s' : σ} (h : step w s s₁) (hs : Writes step ws s₁ s') :
      Writes step (w :: ws) s s'

namespace Writes

variable {w : ω} {ws : List ω} {s s' : σ}

@[simp] theorem nil_iff : Writes step [] s s' ↔ s' = s := by
  constructor
  · intro h
    cases h
    rfl
  · rintro rfl
    exact .nil s'

@[simp] theorem cons_iff :
    Writes step (w :: ws) s s' ↔ ∃ s₁, step w s s₁ ∧ Writes step ws s₁ s' := by
  constructor
  · intro h
    cases h with
    | cons h hs => exact ⟨_, h, hs⟩
  · rintro ⟨s₁, h, hs⟩
    exact .cons h hs

/-- Other steps that do the same. -/
theorem mono {step' : ω → σ → σ → Prop} (h : Writes step ws s s')
    (hstep : ∀ w ∈ ws, ∀ s s', step w s s' → step' w s s') : Writes step' ws s s' := by
  induction h with
  | nil s => exact .nil s
  | cons h hs ih =>
    exact .cons (hstep _ List.mem_cons_self _ _ h)
      (ih fun w hmem => hstep w (List.mem_cons_of_mem _ hmem))

/-- **The last value written to a register stays.** -/
theorem register {get : σ → β} {put : ω → Option β}
    (hstep : ∀ w s s', step w s s' → get s' = (put w).getD (get s)) (h : Writes step ws s s') :
    get s' = ((ws.filterMap put).getLast?).getD (get s) := by
  induction h with
  | nil s => rfl
  | @cons w ws s s₁ s' h hs ih =>
    rw [ih, hstep w s s₁ h]
    cases hput : put w with
    | none => simp [hput]
    | some v => simp [hput, List.getLast?_cons]

/-- **All that is written to a log stays**, the last in front. -/
theorem log (get : σ → List β) (put : ω → List β)
    (hstep : ∀ w s s', step w s s' → get s' = (put w).reverse ++ get s) (h : Writes step ws s s') :
    get s' = (ws.flatMap put).reverse ++ get s := by
  induction h with
  | nil s => rfl
  | @cons w ws s s₁ s' h hs ih =>
    rw [ih, hstep w s s₁ h, List.flatMap_cons, List.reverse_append, List.append_assoc]

end Writes

end Lib
