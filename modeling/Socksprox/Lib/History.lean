/-!
Histories: lists that grow at the end, and properties of each element together with what
came before it.
-/

namespace Lib

section Always

variable {α : Type} {P : List α → α → Prop} {h acts : List α}

/-- Each element of the history satisfies `P`, together with those before it. -/
def Always (P : List α → α → Prop) (h : List α) : Prop :=
  ∀ before a after, h = before ++ a :: after → P before a

theorem always_nil : Always P [] := by
  intro before a after heq
  simp at heq

theorem always_concat {a : α} : Always P (h ++ [a]) ↔ Always P h ∧ P h a := by
  constructor
  · intro hall
    refine ⟨fun before b after heq => ?_, hall h a [] rfl⟩
    exact hall before b (after ++ [a]) (by rw [heq, List.append_assoc, List.cons_append])
  · rintro ⟨hall, ha⟩ before b after heq
    rcases List.eq_nil_or_concat after with rfl | ⟨init, c, rfl⟩
    · obtain ⟨rfl, rfl⟩ : h = before ∧ a = b := by simpa using heq
      exact ha
    · refine hall before b init ?_
      rw [List.concat_eq_append, ← List.cons_append, ← List.append_assoc] at heq
      exact (List.append_inj' heq rfl).1

/-- Elements that satisfy `P` whatever came before them. -/
theorem Always.append (hall : Always P h) (hacts : ∀ before, ∀ a ∈ acts, P before a) :
    Always P (h ++ acts) := by
  induction acts generalizing h with
  | nil => simpa using hall
  | cons a rest ih =>
    rw [List.append_cons]
    refine ih (always_concat.mpr ⟨hall, hacts h a List.mem_cons_self⟩) fun before b hb => ?_
    exact hacts before b (List.mem_cons_of_mem a hb)

end Always

end Lib
