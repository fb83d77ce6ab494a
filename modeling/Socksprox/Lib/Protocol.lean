import Mathlib.Data.List.Basic

/-!
Protocols: which acts a party may do in which stage.

A protocol is a partial function from a stage and an act to the next stage; where it has no
value the act is not allowed. `Follows δ q acts r` says that the acts are allowed one after the
other and lead from `q` to `r`. The rules below read properties of whole histories off the
protocol, one act at a time: what holds of every stage, what comes before what, and how
often an act can be done.
-/

namespace Lib

variable {σ α : Type} {δ : σ → α → Option σ} {p q r : σ} {a : α} {acts acts' before after : List α}

/-- The acts are allowed one after the other, and lead from `q` to `r`. -/
def Follows (δ : σ → α → Option σ) (q : σ) (acts : List α) (r : σ) : Prop :=
  acts.foldlM δ q = some r

instance [DecidableEq σ] (δ : σ → α → Option σ) (q : σ) (acts : List α) (r : σ) :
    Decidable (Follows δ q acts r) :=
  inferInstanceAs (Decidable (_ = _))

@[simp] theorem follows_nil : Follows δ q [] r ↔ q = r := by
  simp [Follows]

theorem follows_cons : Follows δ q (a :: acts) r ↔ ∃ p, δ q a = some p ∧ Follows δ p acts r := by
  simp only [Follows, List.foldlM_cons]
  exact Option.bind_eq_some_iff

@[simp] theorem follows_singleton : Follows δ q [a] r ↔ δ q a = some r := by
  simp [follows_cons]

theorem follows_append :
    Follows δ q (acts ++ acts') r ↔ ∃ p, Follows δ q acts p ∧ Follows δ p acts' r := by
  simp only [Follows, List.foldlM_append]
  exact Option.bind_eq_some_iff

namespace Follows

theorem append (h : Follows δ q acts p) (h' : Follows δ p acts' r) :
    Follows δ q (acts ++ acts') r :=
  follows_append.mpr ⟨p, h, h'⟩

/-- The stage before and after an act of the history. -/
theorem split (h : Follows δ q (before ++ a :: after) r) :
    ∃ p p', Follows δ q before p ∧ δ p a = some p' ∧ Follows δ p' after r := by
  obtain ⟨p, hbefore, hrest⟩ := follows_append.mp h
  obtain ⟨p', ha, hafter⟩ := follows_cons.mp hrest
  exact ⟨p, p', hbefore, ha, hafter⟩

/-- Acts that leave the stage as it is. -/
theorem stay (h : ∀ a ∈ acts, δ q a = some q) : Follows δ q acts q := by
  induction acts with
  | nil => exact follows_nil.mpr rfl
  | cons a acts ih =>
    refine follows_cons.mpr ⟨q, h a List.mem_cons_self, ih fun b hb => ?_⟩
    exact h b (List.mem_cons_of_mem a hb)

/-- **The rule for stages.** What every allowed act keeps holds at the end. -/
theorem invariant {I : σ → Prop} (hstep : ∀ q a r, I q → δ q a = some r → I r)
    (h : Follows δ q acts r) (hq : I q) : I r := by
  induction acts generalizing q with
  | nil =>
    obtain rfl := follows_nil.mp h
    exact hq
  | cons a acts ih =>
    obtain ⟨p, ha, hrest⟩ := follows_cons.mp h
    exact ih hrest (hstep q a p hq ha)

/-- **The rule for acts.** In stages that are never left, only the acts allowed there
are done. -/
theorem forall_mem {I : σ → Prop} {L : α → Prop} (hstep : ∀ q a r, I q → δ q a = some r → L a ∧ I r)
    (h : Follows δ q acts r) (hq : I q) : ∀ a ∈ acts, L a := by
  induction acts generalizing q with
  | nil => exact fun a ha => absurd ha List.not_mem_nil
  | cons b acts ih =>
    obtain ⟨p, hb, hrest⟩ := follows_cons.mp h
    obtain ⟨hL, hI⟩ := hstep q b p hq hb
    intro a ha
    rcases List.mem_cons.mp ha with rfl | hmem
    · exact hL
    · exact ih hrest hI a hmem

/-- **The rule for gates.** Stages that only an act `g` leaves are left by `g`. -/
theorem mem_of_left {I : σ → Prop} {g : α} (hstep : ∀ q a r, I q → δ q a = some r → a ≠ g → I r)
    (h : Follows δ q acts r) (hq : I q) (hr : ¬ I r) : g ∈ acts := by
  by_contra hnone
  refine hr ?_
  clear hr
  induction acts generalizing q with
  | nil =>
    obtain rfl := follows_nil.mp h
    exact hq
  | cons a acts ih =>
    obtain ⟨p, ha, hrest⟩ := follows_cons.mp h
    rw [List.mem_cons, not_or] at hnone
    exact ih hrest (hstep q a p hq ha (Ne.symm hnone.1)) hnone.2

/-- **The rule for counting.** Where no act raises the rank of the stage, an act that is only
done above rank `k`, and leads to a stage of rank `k`, is done at most once. -/
theorem count_le_one [DecidableEq α] (rank : σ → Nat) (k : Nat)
    (hrank : ∀ q b r, δ q b = some r → rank r ≤ rank q)
    (ha : ∀ q r, δ q a = some r → rank r = k ∧ k < rank q)
    (h : Follows δ q acts r) : acts.count a ≤ 1 := by
  have hbelow : ∀ {p r acts}, Follows δ p acts r → rank p ≤ k → a ∉ acts := by
    intro p r acts hfollows hp
    refine fun hmem => hfollows.forall_mem (I := fun s => rank s ≤ k) (L := fun b => b ≠ a)
      (fun s b t hs hb => ⟨?_, Nat.le_trans (hrank s b t hb) hs⟩) hp a hmem rfl
    rintro rfl
    exact absurd (ha s t hb).2 (by omega)
  by_cases hmem : a ∈ acts
  · obtain ⟨before, after, rfl, hbefore⟩ := List.eq_append_cons_of_mem hmem
    obtain ⟨p, p', -, hstep, hafter⟩ := h.split
    have hnone := hbelow hafter (Nat.le_of_eq (ha p p' hstep).1)
    simp [List.count_eq_zero_of_not_mem hnone, List.count_eq_zero_of_not_mem hbefore]
  · rw [List.count_eq_zero_of_not_mem hmem]
    exact Nat.zero_le 1

end Follows

end Lib
