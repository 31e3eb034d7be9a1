import Mathlib.Data.List.Forall2
import Hab.Library.Runs

/-!
# Two runs of a system that answers

A secret is a part of the inputs that the answers must not depend on.  Unwinding
says that it is enough to look at one step from two states that differ in secrets
only.  With a way to change the secrets that no step forgets, the condition on the
steps becomes exact.
-/

namespace Runs

variable {σ α β : Type*} {call : σ → α → β × σ}

theorem answers_cons (s : σ) (a : α) (as : List α) :
    (answers call s (a :: as)).1 = (call s a).1 :: (answers call (call s a).2 as).1 := rfl

/-- The steps of a system that refuses nothing. -/
def next (call : σ → α → β × σ) (s : σ) (a : α) : Option σ := some (call s a).2

theorem meets_next_cons {guard : σ → α → Prop} {s : σ} {a : α} {as : List α} :
    Meets (next call) guard s (a :: as) ↔
      guard s a ∧ Meets (next call) guard (call s a).2 as :=
  meets_cons rfl

variable {R : σ → σ → Prop} {A : α → α → Prop} {guard : σ → α → Prop}

/-- Steps that answer alike from related states, and lead to related states, do so over
a whole run. -/
theorem answers_eq_of_unwinding
    (hstep : ∀ s t a b, R s t → A a b → guard s a →
      (call s a).1 = (call t b).1 ∧ R (call s a).2 (call t b).2)
    {s t : σ} (hR : R s t) {as bs : List α} (hA : List.Forall₂ A as bs)
    (hguard : Meets (next call) guard s as) : (answers call s as).1 = (answers call t bs).1 := by
  induction hA generalizing s t with
  | nil => rfl
  | cons hab _ ih =>
      obtain ⟨hhead, htail⟩ := meets_next_cons.mp hguard
      obtain ⟨hanswer, hnext⟩ := hstep _ _ _ _ hR hab hhead
      rw [answers_cons, answers_cons, hanswer, ih hnext htail]

/-- A change of the secrets that every guarded step keeps, and that shows in the answer
of every step that is not, shows in the answers of a run that is not guarded. -/
theorem answers_ne_of_not_meets {change : α → α}
    (hkeep : ∀ s t a, R s t → guard s a → R (call s a).2 (call t (change a)).2)
    (hshow : ∀ s t a, R s t → ¬ guard s a → (call s a).1 ≠ (call t (change a)).1)
    {s t : σ} (hR : R s t) {as : List α} (hguard : ¬ Meets (next call) guard s as) :
    (answers call s as).1 ≠ (answers call t (as.map change)).1 := by
  induction as generalizing s t with
  | nil => exact absurd trivial hguard
  | cons a as ih =>
      rw [List.map_cons, answers_cons, answers_cons]
      intro heq
      obtain ⟨hhead, htail⟩ := List.cons.inj heq
      by_cases ha : guard s a
      · have hrest : ¬ Meets (next call) guard (call s a).2 as :=
          fun h ↦ hguard (meets_next_cons.mpr ⟨ha, h⟩)
        exact ih (hkeep s t a hR ha) hrest htail
      · exact hshow s t a hR ha hhead

/-- Together: the answers of a run are the same for all secrets exactly if each of its
steps meets the guard. -/
theorem answers_indistinct_iff (R R' : σ → σ → Prop) (change : α → α)
    (hstep : ∀ s t a b, R s t → A a b → guard s a →
      (call s a).1 = (call t b).1 ∧ R (call s a).2 (call t b).2)
    (hchange : ∀ a, A a (change a))
    (hkeep : ∀ s t a, R' s t → guard s a → R' (call s a).2 (call t (change a)).2)
    (hshow : ∀ s t a, R' s t → ¬ guard s a → (call s a).1 ≠ (call t (change a)).1)
    {s : σ} (hR : R s s) (hR' : R' s s) (as : List α) :
    (∀ bs, List.Forall₂ A as bs → (answers call s as).1 = (answers call s bs).1) ↔
      Meets (next call) guard s as := by
  constructor
  · intro h
    by_contra hguard
    have hchanged : List.Forall₂ A as (as.map change) := by
      rw [List.forall₂_map_right_iff]
      exact List.forall₂_same.mpr fun a _ ↦ hchange a
    exact answers_ne_of_not_meets hkeep hshow hR' hguard (h _ hchanged)
  · intro hguard bs hA
    exact answers_eq_of_unwinding hstep hR hA hguard

end Runs
