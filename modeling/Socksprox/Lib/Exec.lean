import Mathlib.Logic.Basic

/-!
Programs over a machine state that either return a value or stop at a fault.

A fault keeps the state in which it happened, so that what a run did before it
can still be read. `wp m Q E s` says that `m`, started in `s`, ends in a state
satisfying `Q` or stops at a fault satisfying `E`; its rules take a program apart
statement by statement, and `wp.mono` weakens both postconditions.
-/

namespace Lib

/-- How a program ends: with a value, or at a fault. -/
inductive Outcome (ε σ α : Type) where
  | ok (a : α) (s : σ)
  | fault (e : ε) (s : σ)

namespace Outcome

variable {ε σ α : Type}

/-- The state in which the program stands at its end. -/
def state : Outcome ε σ α → σ
  | .ok _ s => s
  | .fault _ s => s

/-- The fault at which the program stopped, if it did. -/
def fault? : Outcome ε σ α → Option ε
  | .ok _ _ => none
  | .fault e _ => some e

/-- `Q` at a return, `E` at a fault. -/
def Sat (Q : α → σ → Prop) (E : ε → σ → Prop) : Outcome ε σ α → Prop
  | .ok a s => Q a s
  | .fault e s => E e s

@[simp] theorem state_ok (a : α) (s : σ) : (Outcome.ok a s : Outcome ε σ α).state = s := rfl

@[simp] theorem state_fault (e : ε) (s : σ) : (Outcome.fault e s : Outcome ε σ α).state = s := rfl

/-- A property of both endings is a property of the final state. -/
theorem Sat.state {P : σ → Prop} {o : Outcome ε σ α}
    (h : o.Sat (fun _ s => P s) (fun _ s => P s)) : P o.state := by
  cases o with
  | ok a s => exact h
  | fault e s => exact h

/-- Without a fault the program returned. -/
theorem eq_ok {o : Outcome ε σ α} (h : o.fault? = none) : ∃ a, o = .ok a o.state := by
  cases o with
  | ok a s => exact ⟨a, rfl⟩
  | fault e s => cases h

theorem eq_fault {o : Outcome ε σ α} {e : ε} (h : o.fault? = some e) : o = .fault e o.state := by
  cases o with
  | ok a s => cases h
  | fault e' s =>
    cases h
    rfl

end Outcome

/-- A program: from a state to its outcome. -/
def Exec (ε σ α : Type) : Type := σ → Outcome ε σ α

namespace Exec

variable {ε σ α β : Type}

def ret (a : α) : Exec ε σ α := fun s => .ok a s

def andThen (m : Exec ε σ α) (f : α → Exec ε σ β) : Exec ε σ β := fun s =>
  match m s with
  | .ok a s' => f a s'
  | .fault e s' => .fault e s'

instance : Monad (Exec ε σ) where
  pure := ret
  bind := andThen

theorem andThen_assoc {γ : Type} (m : Exec ε σ α) (f : α → Exec ε σ β) (g : β → Exec ε σ γ) :
    andThen (andThen m f) g = andThen m fun a => andThen (f a) g := by
  funext s
  unfold andThen
  cases m s with
  | ok a s' => rfl
  | fault e s' => rfl

theorem andThen_ret (m : Exec ε σ α) : andThen m ret = m := by
  funext s
  unfold andThen
  cases m s with
  | ok a s' => rfl
  | fault e s' => rfl

theorem lawfulMonad : LawfulMonad (Exec ε σ) :=
  LawfulMonad.mk' _ andThen_ret (fun _ _ => rfl) andThen_assoc

/-- Read the state. -/
def get : Exec ε σ σ := fun s => .ok s s

/-- Change the state. -/
def modify (f : σ → σ) : Exec ε σ Unit := fun s => .ok () (f s)

/-- Stop. -/
def throw (e : ε) : Exec ε σ α := fun s => .fault e s

/-- A computation that does not look at the state. -/
def lift : Except ε α → Exec ε σ α
  | .ok a => ret a
  | .error e => throw e

instance : MonadLift (Except ε) (Exec ε σ) := ⟨lift⟩

end Exec

/-- Weakest precondition: `Q` holds where the program returns and `E` where it faults. -/
def wp {ε σ α : Type} (m : Exec ε σ α) (Q : α → σ → Prop) (E : ε → σ → Prop) (s : σ) : Prop :=
  (m s).Sat Q E

section Rules

variable {ε σ α β : Type} {Q : α → σ → Prop} {R : β → σ → Prop} {E : ε → σ → Prop} {s : σ}

@[simp] theorem wp_pure (a : α) : wp (pure a : Exec ε σ α) Q E s ↔ Q a s := Iff.rfl

/-- The same where no state is given yet. -/
@[simp] theorem wp_pure_eq (a : α) : wp (pure a : Exec ε σ α) Q E = Q a := rfl

@[simp] theorem wp_bind (m : Exec ε σ α) (f : α → Exec ε σ β) :
    wp (m >>= f) R E s ↔ wp m (fun a => wp (f a) R E) E s := by
  show (Exec.andThen m f s).Sat R E ↔ (m s).Sat _ E
  unfold Exec.andThen
  cases m s with
  | ok a s' => exact Iff.rfl
  | fault e s' => exact Iff.rfl

@[simp] theorem wp_get (Q : σ → σ → Prop) :
    wp (Exec.get : Exec ε σ σ) Q E s ↔ Q s s := Iff.rfl

@[simp] theorem wp_modify (f : σ → σ) (Q : Unit → σ → Prop) :
    wp (Exec.modify f : Exec ε σ Unit) Q E s ↔ Q () (f s) := Iff.rfl

@[simp] theorem wp_lift_ok (a : α) :
    wp (liftM (Except.ok a : Except ε α) : Exec ε σ α) Q E s ↔ Q a s :=
  Iff.rfl

@[simp] theorem wp_lift_error (e : ε) :
    wp (liftM (Except.error e : Except ε α) : Exec ε σ α) Q E s ↔ E e s := Iff.rfl

@[simp] theorem wp_throw (e : ε) : wp (Exec.throw e : Exec ε σ α) Q E s ↔ E e s := Iff.rfl

theorem wp_ite (c : Prop) [Decidable c] (m n : Exec ε σ α) :
    wp (if c then m else n) Q E s ↔ (c → wp m Q E s) ∧ (¬ c → wp n Q E s) := by
  split
  · rename_i h
    simp [h]
  · rename_i h
    simp [h]

/-- Consequence: both postconditions may be weakened. -/
theorem wp.mono {m : Exec ε σ α} {Q' : α → σ → Prop} {E' : ε → σ → Prop}
    (h : wp m Q E s) (hQ : ∀ a s', Q a s' → Q' a s') (hE : ∀ e s', E e s' → E' e s') :
    wp m Q' E' s := by
  unfold wp at *
  cases hm : m s with
  | ok a s' => rw [hm] at h; exact hQ a s' h
  | fault e s' => rw [hm] at h; exact hE e s' h

/-- Two postconditions shown on their own. -/
theorem wp.and {m : Exec ε σ α} {Q' : α → σ → Prop} {E' : ε → σ → Prop} (h : wp m Q E s)
    (h' : wp m Q' E' s) : wp m (fun a s' => Q a s' ∧ Q' a s') (fun e s' => E e s' ∧ E' e s') s := by
  unfold wp at *
  cases hm : m s with
  | ok a s' => rw [hm] at h h'; exact ⟨h, h'⟩
  | fault e s' => rw [hm] at h h'; exact ⟨h, h'⟩

/-- What holds at every ending holds of the final state. -/
theorem wp.state {P : σ → Prop} {m : Exec ε σ α}
    (h : wp m (fun _ s' => P s') (fun _ s' => P s') s) :
    P (m s).state :=
  Outcome.Sat.state h

/-- A program that can only stop at an impossible fault returns. -/
theorem wp.no_fault {m : Exec ε σ α} (h : wp m (fun _ _ => True) (fun _ _ => False) s) :
    (m s).fault? = none := by
  unfold wp at h
  cases hm : m s with
  | ok a s' => rfl
  | fault e s' =>
    rw [hm] at h
    exact h.elim

/-- It returns with what its rule promises. -/
theorem wp.returns {m : Exec ε σ α} (h : wp m Q (fun _ _ => False) s) :
    ∃ a s', m s = .ok a s' ∧ Q a s' := by
  unfold wp at h
  cases hm : m s with
  | ok a s' =>
    rw [hm] at h
    exact ⟨a, s', rfl, h⟩
  | fault e s' =>
    rw [hm] at h
    exact h.elim

/-- A program whose outcome is known. -/
theorem wp_eq_ok {m : Exec ε σ α} {a : α} {s' : σ} (hm : m s = .ok a s') :
    wp m Q E s = Q a s' := by
  unfold wp
  rw [hm]
  rfl

theorem wp_eq_fault {m : Exec ε σ α} {e : ε} {s' : σ} (hm : m s = .fault e s') :
    wp m Q E s = E e s' := by
  unfold wp
  rw [hm]
  rfl

end Rules

attribute [irreducible] wp

end Lib
