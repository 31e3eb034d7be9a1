import Mathlib.Data.List.Perm.Basic
import Mathlib.Tactic.Common

/-!
# Blocks that are allocated and freed

The blocks that an allocator gives out are numbered in the order in which it does, and it
keeps a list of everything that was freed.  A piece of code that starts with one heap and
ends with another has freed what it allocated, each block once and nothing else, if the
list has grown by the numbers given out in between.
-/

namespace Slab

structure Heap where
  /-- The number of the next block. -/
  next : ℕ
  /-- What was freed, the last first. -/
  freed : List ℕ
deriving DecidableEq

/-- Ask for a block; `ok` says whether there is memory. -/
def Heap.alloc (heap : Heap) (ok : Bool) : Option ℕ × Heap :=
  if ok then (some heap.next, { heap with next := heap.next + 1 }) else (none, heap)

def Heap.free (heap : Heap) (block : ℕ) : Heap := { heap with freed := block :: heap.freed }

/-- The blocks given out between two states of the heap. -/
def allocatedSince (before after : Heap) : List ℕ :=
  List.range' before.next (after.next - before.next)

/-- Of the blocks allocated since, these are not freed; each other one was freed once, and
nothing else was. -/
def Holds (before after : Heap) (held : List ℕ) : Prop :=
  before.next ≤ after.next ∧
    (held ++ after.freed).Perm (allocatedSince before after ++ before.freed)

/-- Each block allocated since was freed once, and nothing else was. -/
def FreedExactly (before after : Heap) : Prop := Holds before after []

section

variable {before after : Heap} {held : List ℕ}

theorem Holds.refl (heap : Heap) : Holds heap heap [] := by
  refine ⟨Nat.le_refl _, ?_⟩
  rw [allocatedSince, Nat.sub_self]
  exact List.Perm.refl _

theorem Holds.perm {held' : List ℕ} (h : Holds before after held) (hperm : held.Perm held') :
    Holds before after held' :=
  ⟨h.1, (hperm.append_right _).symm.trans h.2⟩

theorem Holds.alloc (h : Holds before after held) :
    Holds before { after with next := after.next + 1 } (held ++ [after.next]) := by
  obtain ⟨hle, hperm⟩ := h
  refine ⟨Nat.le_succ_of_le hle, ?_⟩
  have hsince : allocatedSince before { after with next := after.next + 1 } =
      allocatedSince before after ++ [after.next] := by
    simp only [allocatedSince]
    rw [Nat.succ_sub hle, List.range'_concat, Nat.one_mul, Nat.add_sub_cancel' hle]
  have hgiven : (held ++ [after.next] ++ after.freed).Perm
      ([after.next] ++ (held ++ after.freed)) := by
    rw [List.append_assoc]
    exact List.perm_append_comm_assoc _ _ _
  have hlast : ([after.next] ++ (allocatedSince before after ++ before.freed)).Perm
      (allocatedSince before after ++ [after.next] ++ before.freed) := by
    rw [List.append_assoc]
    exact List.perm_append_comm_assoc _ _ _
  rw [hsince]
  exact hgiven.trans ((hperm.append_left _).trans hlast)

theorem Holds.free {block : ℕ} (h : Holds before after (block :: held)) :
    Holds before (after.free block) held :=
  ⟨h.1, List.perm_middle.trans h.2⟩

theorem Holds.freeAll {blocks : List ℕ} (h : Holds before after (blocks ++ held)) :
    Holds before (blocks.foldl Heap.free after) held := by
  induction blocks generalizing after with
  | nil => exact h
  | cons block blocks ih =>
      rw [List.cons_append] at h
      exact ih h.free

/-- Code that still holds a block has not freed all it allocated. -/
theorem Holds.freedExactly_iff (h : Holds before after held) :
    FreedExactly before after ↔ held = [] := by
  constructor
  · rintro ⟨-, hperm⟩
    have hlength := (h.2.trans hperm.symm).length_eq
    rw [List.nil_append, List.length_append] at hlength
    exact List.eq_nil_of_length_eq_zero (by omega)
  · intro hnil
    rw [hnil] at h
    exact h

end

end Slab
