import Mathlib.Data.List.ReduceOption
import Mathlib.Tactic.Common

/-!
# Slot tables

A table is an array of slots that are taken or free.  An entry is placed in the first free
slot and taken out of all slots it has.  A scan stops at the first free slot, so whether it
sees all entries depends on what stands behind the slots that were freed.
-/

namespace SlotTable

variable {α : Type*} {t : List (Option α)} {x y : α}

/-- The entries up to the first free slot. -/
def scan : List (Option α) → List α
  | some x :: t => x :: scan t
  | none :: _ => []
  | [] => []

/-- Put an entry into the first free slot, if there is one. -/
def place (x : α) : List (Option α) → List (Option α)
  | some y :: t => some y :: place x t
  | none :: t => some x :: t
  | [] => []

/-- The scan sees all entries. -/
def Visible (t : List (Option α)) : Prop := ∀ y, some y ∈ t → y ∈ scan t

theorem mem_of_mem_scan (h : y ∈ scan t) : some y ∈ t := by
  induction t with
  | nil => exact absurd h List.not_mem_nil
  | cons e t ih =>
      cases e with
      | none => exact absurd h List.not_mem_nil
      | some z =>
          rcases List.mem_cons.mp h with rfl | h
          · exact List.mem_cons_self
          · exact List.mem_cons_of_mem _ (ih h)

theorem Visible.mem_scan_iff (h : Visible t) : y ∈ scan t ↔ some y ∈ t :=
  ⟨mem_of_mem_scan, h y⟩

theorem visible_of_forall_not_mem (h : ∀ y, some y ∉ t) : Visible t :=
  fun y hy ↦ absurd hy (h y)

/-! ## Placing -/

theorem mem_place_iff : some y ∈ place x t ↔ some y ∈ t ∨ y = x ∧ none ∈ t := by
  induction t with
  | nil => simp [place]
  | cons e t ih =>
      cases e with
      | none =>
          rw [place, List.mem_cons, List.mem_cons, Option.some.injEq]
          constructor
          · rintro (rfl | hmem)
            · exact Or.inr ⟨rfl, List.mem_cons_self⟩
            · exact Or.inl (Or.inr hmem)
          · rintro ((heq | hmem) | ⟨rfl, -⟩)
            · exact absurd heq (Option.some_ne_none y)
            · exact Or.inr hmem
            · exact Or.inl rfl
      | some z =>
          have hnone : (none : Option α) ∈ some z :: t ↔ none ∈ t := by simp
          rw [place, List.mem_cons, List.mem_cons, ih, hnone, or_assoc]

theorem mem_scan_place (h : y ∈ scan t) : y ∈ scan (place x t) := by
  induction t with
  | nil => exact absurd h List.not_mem_nil
  | cons e t ih =>
      cases e with
      | none => exact absurd h List.not_mem_nil
      | some z =>
          rcases List.mem_cons.mp h with rfl | h
          · exact List.mem_cons_self
          · exact List.mem_cons_of_mem _ (ih h)

theorem mem_scan_place_self (h : none ∈ t) : x ∈ scan (place x t) := by
  induction t with
  | nil => exact absurd h List.not_mem_nil
  | cons e t ih =>
      cases e with
      | none => exact List.mem_cons_self
      | some z =>
          rcases List.mem_cons.mp h with heq | h
          · exact absurd heq.symm (Option.some_ne_none z)
          · exact List.mem_cons_of_mem _ (ih h)

/-- Placing hides nothing: the slot it takes is the one that the scan stopped at. -/
theorem Visible.place (h : Visible t) (x : α) : Visible (place x t) := by
  intro y hy
  rcases mem_place_iff.mp hy with hy | ⟨rfl, hfree⟩
  · exact mem_scan_place (h y hy)
  · exact mem_scan_place_self hfree

@[simp] theorem length_place (x : α) (t : List (Option α)) : (place x t).length = t.length := by
  induction t with
  | nil => rfl
  | cons e t ih =>
      cases e with
      | none => rfl
      | some y => rw [SlotTable.place, List.length_cons, ih, List.length_cons]

/-! ## Taking out -/

variable [DecidableEq α]

/-- Free all slots of an entry. -/
def clear (x : α) (t : List (Option α)) : List (Option α) :=
  t.map fun e ↦ if e = some x then none else e

/-- Each other entry has a slot in front of those of `x`. -/
def Behind (x : α) (t : List (Option α)) : Prop :=
  ∀ y ∈ t.reduceOption, y = x ∨ y ∈ (scan t).takeWhile (· ≠ x)

instance (x : α) (t : List (Option α)) : Decidable (Behind x t) :=
  inferInstanceAs (Decidable (∀ y ∈ t.reduceOption, y = x ∨ y ∈ (scan t).takeWhile (· ≠ x)))

@[simp] theorem length_clear (x : α) (t : List (Option α)) : (clear x t).length = t.length := by
  rw [clear, List.length_map]

theorem clear_cons (x : α) (e : Option α) (t : List (Option α)) :
    clear x (e :: t) = (if e = some x then none else e) :: clear x t := rfl

theorem mem_clear_iff : some y ∈ clear x t ↔ some y ∈ t ∧ y ≠ x := by
  rw [clear, List.mem_map]
  constructor
  · rintro ⟨e, he, heq⟩
    split_ifs at heq with hx
    rw [heq] at he hx
    exact ⟨he, fun hyx ↦ hx (congrArg some hyx)⟩
  · rintro ⟨hmem, hne⟩
    exact ⟨some y, hmem, if_neg fun heq ↦ hne (Option.some.inj heq)⟩

/-- The scan stops where the first slot was freed. -/
theorem scan_clear (x : α) (t : List (Option α)) :
    scan (clear x t) = (scan t).takeWhile (· ≠ x) := by
  induction t with
  | nil => rfl
  | cons e t ih =>
      rw [clear_cons]
      cases e with
      | none => rw [if_neg (by simp), scan, scan, List.takeWhile_nil]
      | some z =>
          by_cases hz : z = x
          · rw [if_pos (congrArg some hz), scan, scan, List.takeWhile_cons_of_neg (by simp [hz])]
          · have hne : some z ≠ some x := fun heq ↦ hz (Option.some.inj heq)
            rw [if_neg hne, scan, scan, ih, List.takeWhile_cons_of_pos (by simp [hz])]

theorem visible_clear_iff : Visible (clear x t) ↔ Behind x t := by
  constructor
  · intro h y hy
    by_cases hyx : y = x
    · exact Or.inl hyx
    · have hmem := h y (mem_clear_iff.mpr ⟨List.reduceOption_mem_iff.mp hy, hyx⟩)
      rw [scan_clear] at hmem
      exact Or.inr hmem
  · intro h y hy
    obtain ⟨hmem, hne⟩ := mem_clear_iff.mp hy
    rw [scan_clear]
    exact (h y (List.reduceOption_mem_iff.mpr hmem)).resolve_left hne

theorem clear_eq_self (h : some x ∉ t) : clear x t = t := by
  have hmap : clear x t = t.map id := by
    refine List.map_congr_left ?_
    intro e he
    have hne : e ≠ some x := by
      rintro rfl
      exact h he
    exact if_neg hne
  rw [hmap, List.map_id]

/-- Freeing what was just placed leaves the table as it was. -/
theorem clear_place (h : some x ∉ t) : clear x (place x t) = t := by
  induction t with
  | nil => rfl
  | cons e t ih =>
      have hmem : some x ∉ t := fun hx ↦ h (List.mem_cons_of_mem _ hx)
      cases e with
      | none => rw [place, clear_cons, if_pos rfl, clear_eq_self hmem]
      | some z =>
          have hne : some z ≠ some x := fun heq ↦ h (heq ▸ List.mem_cons_self)
          rw [place, clear_cons, if_neg hne, ih hmem]

end SlotTable
