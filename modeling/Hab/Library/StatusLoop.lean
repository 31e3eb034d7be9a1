import Mathlib.Algebra.BigOperators.Group.List.Basic
import Mathlib.Algebra.Order.Ring.Int
import Mathlib.Tactic.Common

/-!
# Loops that hand on a status

A loop makes one call after the other; each call returns a status, 0 or a negative error,
and what it has done.  If the loop adds the statuses up, its own is 0 only where all calls
succeeded.  If it assigns them, only the last call counts.
-/

namespace StatusLoop

variable {α β : Type*} {f : α → ℤ × List β} {as : List α}

/-- `ret += f(a)`. -/
def summing (f : α → ℤ × List β) (as : List α) (acc : ℤ × List β) : ℤ × List β :=
  as.foldl (fun acc a ↦ (acc.1 + (f a).1, acc.2 ++ (f a).2)) acc

/-- `ret = f(a)`. -/
def assigning (f : α → ℤ × List β) (as : List α) (acc : ℤ × List β) : ℤ × List β :=
  as.foldl (fun acc a ↦ ((f a).1, acc.2 ++ (f a).2)) acc

theorem summing_eq (f : α → ℤ × List β) (as : List α) (acc : ℤ × List β) :
    summing f as acc =
      (acc.1 + (as.map fun a ↦ (f a).1).sum, acc.2 ++ as.flatMap fun a ↦ (f a).2) := by
  induction as generalizing acc with
  | nil => simp [summing]
  | cons a as ih =>
      rw [summing, List.foldl_cons, ← summing, ih, List.map_cons, List.sum_cons, List.flatMap_cons,
        Int.add_assoc, List.append_assoc]

theorem assigning_eq (f : α → ℤ × List β) (as : List α) (acc : ℤ × List β) :
    assigning f as acc =
      (as.getLast?.elim acc.1 fun a ↦ (f a).1, acc.2 ++ as.flatMap fun a ↦ (f a).2) := by
  induction as generalizing acc with
  | nil => simp [assigning]
  | cons a as ih =>
      rw [assigning, List.foldl_cons, ← assigning, ih, List.flatMap_cons, List.append_assoc]
      cases as with
      | nil => rfl
      | cons b as => rw [List.getLast?_cons_cons]; rfl

theorem summing_snd (f : α → ℤ × List β) (as : List α) (acc : ℤ × List β) :
    (summing f as acc).2 = acc.2 ++ as.flatMap fun a ↦ (f a).2 := by
  rw [summing_eq]

theorem assigning_snd (f : α → ℤ × List β) (as : List α) (acc : ℤ × List β) :
    (assigning f as acc).2 = acc.2 ++ as.flatMap fun a ↦ (f a).2 := by
  rw [assigning_eq]

theorem assigning_fst (f : α → ℤ × List β) (as : List α) (acc : ℤ × List β) :
    (assigning f as acc).1 = as.getLast?.elim acc.1 fun a ↦ (f a).1 := by
  rw [assigning_eq]

theorem sum_nonpos {zs : List ℤ} (h : ∀ z ∈ zs, z ≤ 0) : zs.sum ≤ 0 := by
  induction zs with
  | nil => simp
  | cons z zs ih =>
      have hhead := h z List.mem_cons_self
      have htail := ih fun z hz ↦ h z (List.mem_cons_of_mem _ hz)
      rw [List.sum_cons]
      omega

theorem sum_eq_zero_iff {zs : List ℤ} (h : ∀ z ∈ zs, z ≤ 0) : zs.sum = 0 ↔ ∀ z ∈ zs, z = 0 := by
  induction zs with
  | nil => simp
  | cons z zs ih =>
      have hhead := h z List.mem_cons_self
      have htail := sum_nonpos fun z hz ↦ h z (List.mem_cons_of_mem _ hz)
      have hrest := ih fun z hz ↦ h z (List.mem_cons_of_mem _ hz)
      rw [List.sum_cons, List.forall_mem_cons, ← hrest]
      omega

/-- A loop that adds the statuses up returns 0 exactly if each call does. -/
theorem summing_eq_zero_iff (h : ∀ a ∈ as, (f a).1 ≤ 0) :
    (summing f as (0, [])).1 = 0 ↔ ∀ a ∈ as, (f a).1 = 0 := by
  rw [summing_eq, Int.zero_add, sum_eq_zero_iff, List.forall_mem_map]
  rw [List.forall_mem_map]
  exact h

end StatusLoop
