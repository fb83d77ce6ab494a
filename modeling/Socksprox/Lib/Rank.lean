import Socksprox.Lib.Machine

/-!
Runs that come to an end. A rank is a number that no step of a machine raises. The steps that lower
it are few: a run has at most as many of them as the rank it starts with.
-/

namespace Lib

section Ranks

variable {ε σ ι : Type} {step : ι → Exec ε σ Unit} {C : σ → ι → Prop} {I : σ → Prop}
  {rank : σ → Nat} {p : σ → ι → Prop} {s s' : σ} {i : ι} {is : List ι}

/-- The steps of the run from `s` that are of a kind, a step at which it stops among them. -/
def tally (step : ι → Exec ε σ Unit) (p : σ → ι → Prop) [∀ s i, Decidable (p s i)] :
    List ι → σ → Nat
  | [], _ => 0
  | i :: is, s => (if p s i then 1 else 0) + match step i s with
    | .ok _ s' => tally step p is s'
    | .fault _ _ => 0

/-- The rank is not raised, and a step of the kind lowers it. -/
structure Descends (rank : σ → Nat) (p : σ → ι → Prop) (s : σ) (i : ι) (s' : σ) : Prop where
  le : rank s' ≤ rank s
  lt : p s i → rank s' < rank s

theorem Descends.of_lt (h : rank s' < rank s) : Descends rank p s i s' :=
  ⟨Nat.le_of_lt h, fun _ => h⟩

/-- Nothing happens at a step that is not of the kind. -/
theorem Descends.of_eq (h : rank s' = rank s) (hp : ¬ p s i) : Descends rank p s i s' :=
  ⟨Nat.le_of_eq h, fun hi => absurd hi hp⟩

theorem Descends.step_le [∀ s i, Decidable (p s i)] (h : Descends rank p s i s') :
    (if p s i then 1 else 0) + rank s' ≤ rank s := by
  by_cases hp : p s i
  · have hlt := h.lt hp
    rw [if_pos hp]
    omega
  · have hle := h.le
    rw [if_neg hp]
    omega

/-- **The rule for ranks.** What is left of the rank at the end of a run, and the steps that lowered
it, were there at the beginning. -/
theorem tally_add_rank_le [∀ s i, Decidable (p s i)]
    (hstep : ∀ s i, I s → C s i → wp (step i) (fun _ s' => I s' ∧ Descends rank p s i s')
      (fun _ s' => Descends rank p s i s') s) (hI : I s) (hm : Meets step C is s) :
    tally step p is s + rank (run step is s).state ≤ rank s := by
  induction is generalizing s with
  | nil => simp [tally, run, pure, Exec.ret]
  | cons i is ih =>
    have h := hstep s i hI hm.1
    have hrest := hm.2
    rw [show run step (i :: is) s = Exec.andThen (step i) (fun _ => run step is) s from rfl, tally]
    unfold Exec.andThen
    cases hs : step i s with
    | ok a s₁ =>
      rw [hs] at hrest
      rw [wp_eq_ok hs] at h
      have htaken := h.2.step_le
      have hleft := ih h.1 hrest
      dsimp only
      omega
    | fault e s₁ =>
      rw [wp_eq_fault hs] at h
      have htaken := h.step_le
      exact htaken

end Ranks

end Lib
