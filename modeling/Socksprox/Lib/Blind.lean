import Socksprox.Lib.Exec

/-!
Programs that do not look at a part of the state.

`f` changes the part in question. A program is blind to it when it makes no difference whether
the change is made before the program or after it: the program neither reads the part nor
writes it, and what it does otherwise is the same.
-/

namespace Lib

variable {ε σ α β : Type} {f : σ → σ}

namespace Outcome

/-- The same ending in another state. -/
def mapState (f : σ → σ) : Outcome ε σ α → Outcome ε σ α
  | .ok a s => .ok a (f s)
  | .fault e s => .fault e (f s)

@[simp] theorem mapState_ok (a : α) (s : σ) :
    (Outcome.ok a s : Outcome ε σ α).mapState f = .ok a (f s) := rfl

@[simp] theorem mapState_fault (e : ε) (s : σ) :
    (Outcome.fault e s : Outcome ε σ α).mapState f = .fault e (f s) := rfl

@[simp] theorem mapState_state (o : Outcome ε σ α) : (o.mapState f).state = f o.state := by
  cases o <;> rfl

end Outcome

/-- The program commutes with the change. -/
structure Blind (f : σ → σ) (m : Exec ε σ α) : Prop where
  comm : ∀ s, m (f s) = (m s).mapState f

namespace Blind

theorem pure (a : α) : Blind f (Pure.pure a : Exec ε σ α) := ⟨fun _ => rfl⟩

theorem throw (e : ε) : Blind f (Exec.throw e : Exec ε σ α) := ⟨fun _ => rfl⟩

theorem bind {m : Exec ε σ α} {k : α → Exec ε σ β} (hm : Blind f m) (hk : ∀ a, Blind f (k a)) :
    Blind f (m >>= k) := by
  refine ⟨fun s => ?_⟩
  show Exec.andThen m k (f s) = (Exec.andThen m k s).mapState f
  unfold Exec.andThen
  rw [hm.comm s]
  cases m s with
  | ok a s' => exact (hk a).comm s'
  | fault e s' => rfl

theorem ite {c : Prop} [Decidable c] {m n : Exec ε σ α} (hm : Blind f m) (hn : Blind f n) :
    Blind f (if c then m else n) := by
  split
  · exact hm
  · exact hn

/-- An update of another part. -/
theorem modify {g : σ → σ} (hg : ∀ s, g (f s) = f (g s)) :
    Blind f (Exec.modify g : Exec ε σ Unit) := by
  refine ⟨fun s => ?_⟩
  show Outcome.ok () (g (f s)) = .ok () (f (g s))
  rw [hg]

/-- The state may be read, as long as what is read is not in the part. -/
theorem get_bind {k : σ → Exec ε σ β} (hf : ∀ s, k (f s) = k s) (hk : ∀ s, Blind f (k s)) :
    Blind f (Exec.get >>= k) := by
  refine ⟨fun s => ?_⟩
  show k (f s) (f s) = (k s s).mapState f
  rw [hf, (hk s).comm]

end Blind

end Lib
