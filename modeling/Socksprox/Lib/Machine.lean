import Socksprox.Lib.Exec

/-!
Runs of machines.

A machine answers a list of inputs one after the other. Two readings are used. As a
program, a run stops at the first fault; `Meets` restricts a run to steps that satisfy a
condition on the state before the step and its input, and `run_wp_of_meets` turns "one
such step keeps the invariant" into "every such run does". As an object, a machine
returns a reply to each call, and `calls_refine` turns a simulation of one call
into equality of all replies with those of a specification.
-/

namespace Lib

/-! ### Runs of programs -/

section Runs

variable {ε σ ι : Type}

/-- Do the inputs one after the other, stopping at the first fault. -/
def run (step : ι → Exec ε σ Unit) : List ι → Exec ε σ Unit
  | [] => pure ()
  | i :: is => step i >>= fun _ => run step is

/-- Every step of the run from `s` satisfies `C`, a condition on the state before
the step and on its input. -/
def Meets (step : ι → Exec ε σ Unit) (C : σ → ι → Prop) : List ι → σ → Prop
  | [], _ => True
  | i :: is, s => C s i ∧ match step i s with
    | .ok _ s' => Meets step C is s'
    | .fault _ _ => True

instance Meets.decidable (step : ι → Exec ε σ Unit) (C : σ → ι → Prop)
    [∀ s i, Decidable (C s i)] : ∀ (is : List ι) (s : σ), Decidable (Meets step C is s)
  | [], _ => .isTrue trivial
  | i :: is, s =>
    match h : step i s with
    | .ok _ s' =>
      have := Meets.decidable step C is s'
      decidable_of_iff (C s i ∧ Meets step C is s') (by simp [Meets, h])
    | .fault _ _ => decidable_of_iff (C s i) (by simp [Meets, h])

variable {step : ι → Exec ε σ Unit} {C D : σ → ι → Prop}
  {I : σ → Prop} {E : ε → σ → Prop} {s : σ}

/-- A condition that every step satisfies is met by every run. -/
theorem meets_of_forall (h : ∀ s i, C s i) : ∀ (is : List ι) (s : σ), Meets step C is s
  | [], _ => trivial
  | i :: is, s => by
    refine ⟨h s i, ?_⟩
    split
    · exact meets_of_forall h is _
    · trivial

/-- A weaker condition is met as well. -/
theorem Meets.mono (h : ∀ s i, C s i → D s i) :
    ∀ {is : List ι} {s : σ}, Meets step C is s → Meets step D is s
  | [], _, _ => trivial
  | i :: is, s, hm => by
    refine ⟨h s i hm.1, ?_⟩
    have hrest := hm.2
    split
    · rename_i hs
      rw [hs] at hrest
      exact Meets.mono h hrest
    · trivial

/-- A run goes on from where its first part ended, unless that stopped at a fault. -/
theorem run_append (is js : List ι) (s : σ) : run step (is ++ js) s =
    match run step is s with
    | .ok _ s' => run step js s'
    | .fault e s' => .fault e s' := by
  induction is generalizing s with
  | nil => rfl
  | cons j is ih =>
    show Exec.andThen (step j) _ s = _
    rw [show run step (j :: is) s = Exec.andThen (step j) (fun _ => run step is) s from rfl]
    unfold Exec.andThen
    cases step j s with
    | ok a s' => exact ih s'
    | fault e s' => rfl

/-- A run of one step. -/
theorem run_singleton (i : ι) (s : σ) : run step [i] s = step i s := by
  show Exec.andThen (step i) _ s = step i s
  unfold Exec.andThen
  cases step i s with
  | ok a s' => rfl
  | fault e s' => rfl

/-- The last step of a run is taken from where the run before it ended, unless that
stopped at a fault. -/
theorem run_concat (is : List ι) (i : ι) (s : σ) : run step (is ++ [i]) s =
    match run step is s with
    | .ok _ s' => step i s'
    | .fault e s' => .fault e s' := by
  simp only [run_append, run_singleton]

/-- The first part of a run meets the condition, and so does the rest, from where the first
part ended. -/
theorem Meets.append {js : List ι} : ∀ {is : List ι} {s : σ}, Meets step C (is ++ js) s →
    Meets step C is s ∧ ∀ s', run step is s = .ok () s' → Meets step C js s'
  | [], s, hm => by
    refine ⟨trivial, fun s' hs' => ?_⟩
    cases hs'
    exact hm
  | i :: is, s, hm => by
    have hrest := hm.2
    rw [show run step (i :: is) s = Exec.andThen (step i) (fun _ => run step is) s from rfl]
    unfold Exec.andThen
    refine ⟨⟨hm.1, ?_⟩, fun s' hs' => ?_⟩
    · split
      · rename_i hs
        rw [hs] at hrest
        exact (Meets.append hrest).1
      · trivial
    · cases hs : step i s with
      | ok a s₁ =>
        rw [hs] at hrest hs'
        exact (Meets.append hrest).2 s' hs'
      | fault e s₁ =>
        rw [hs] at hs'
        cases hs'

/-- The steps of a run but the last meet the condition, and the last one does unless it
was not taken. -/
theorem Meets.concat {is : List ι} {i : ι} {s : σ} (hm : Meets step C (is ++ [i]) s) :
    Meets step C is s ∧ ∀ s', run step is s = .ok () s' → C s' i := by
  obtain ⟨his, hlast⟩ := hm.append
  exact ⟨his, fun s' hs' => (hlast s' hs').1⟩

/-- One step more that meets the condition. -/
theorem Meets.snoc {i : ι} : ∀ {is : List ι} {s : σ}, Meets step C is s →
    (∀ s', run step is s = .ok () s' → C s' i) → Meets step C (is ++ [i]) s
  | [], s, _, hi => by
    refine ⟨hi s rfl, ?_⟩
    split
    · trivial
    · trivial
  | j :: is, s, hm, hi => by
    have hrest := hm.2
    rw [show run step (j :: is) s = Exec.andThen (step j) (fun _ => run step is) s from rfl] at hi
    unfold Exec.andThen at hi
    refine ⟨hm.1, ?_⟩
    split
    · rename_i s₁ hs
      rw [hs] at hrest hi
      exact Meets.snoc hrest hi
    · trivial

/-- **Invariant rule for conditional runs.** If every step that meets `C` keeps `I`
and faults only into `E`, so does every run whose steps all meet `C`. -/
theorem run_wp_of_meets
    (hstep : ∀ s i, I s → C s i → wp (step i) (fun _ s' => I s') E s) :
    ∀ {is : List ι} {s : σ}, I s → Meets step C is s → wp (run step is) (fun _ s' => I s') E s
  | [], _, hI, _ => by
    rw [run, wp_pure]
    exact hI
  | i :: is, s, hI, hm => by
    rw [run, wp_bind]
    have h := hstep s i hI hm.1
    have hrest := hm.2
    cases hs : step i s with
    | ok a s' =>
      rw [hs] at hrest
      rw [wp_eq_ok hs] at h ⊢
      exact run_wp_of_meets hstep h hrest
    | fault e s' =>
      rw [wp_eq_fault hs] at h ⊢
      exact h

end Runs

/-! ### Replies of an object -/

section Calls

variable {σ τ ι ρ : Type}

/-- Make the calls one after the other and collect the replies. -/
def calls (call : σ → ι → Option (σ × ρ)) : σ → List ι → Option (σ × List ρ)
  | s, [] => some (s, [])
  | s, i :: is => do
    let (s', reply) ← call s i
    let (s'', replies) ← calls call s' is
    return (s'', reply :: replies)

/-- The same for a specification, which never fails. -/
def specCalls (spec : τ → ι → τ × ρ) : τ → List ι → τ × List ρ
  | t, [] => (t, [])
  | t, i :: is =>
    let next := specCalls spec (spec t i).1 is
    (next.1, (spec t i).2 :: next.2)

/-- **Refinement rule.** If each call simulates the specification under `R`, a
sequence of calls never fails, returns the specification's replies and ends related
to its state. -/
theorem calls_refine {call : σ → ι → Option (σ × ρ)} {spec : τ → ι → τ × ρ} {R : σ → τ → Prop}
    (hcall : ∀ s t i, R s t → ∃ s', call s i = some (s', (spec t i).2) ∧ R s' (spec t i).1) :
    ∀ {s : σ} {t : τ} (is : List ι), R s t →
      ∃ s', calls call s is = some (s', (specCalls spec t is).2) ∧ R s' (specCalls spec t is).1
  | s, t, [], hR => ⟨s, rfl, hR⟩
  | s, t, i :: is, hR => by
    obtain ⟨s', hs', hR'⟩ := hcall s t i hR
    obtain ⟨s'', hs'', hR''⟩ := calls_refine hcall is hR'
    exact ⟨s'', by simp [calls, specCalls, hs', hs''], hR''⟩

end Calls

end Lib
