import Mathlib.Data.List.Perm.Lattice
import Mathlib.Tactic.Common

/-!
# Buffers between a driver and a device

The driver makes buffers available; the device takes them in that order, and gives each
back when it is done with it; the driver collects what was given back.  A number goes
with a buffer both ways: its size, and how much the device has written to it.
-/

/-- The buffers that are with the device: those it has not looked at, those it has taken
and those the driver has not collected. -/
structure Virtqueue (β : Type*) where
  avail : List (β × ℕ)
  taken : List β
  used : List (β × ℕ)

namespace Virtqueue

variable {β : Type*} {q r : Virtqueue β} {b : β} {n : ℕ}

def empty : Virtqueue β := ⟨[], [], []⟩

/-! ## The driver -/

def add (q : Virtqueue β) (b : β) (n : ℕ) : Virtqueue β := { q with avail := q.avail ++ [(b, n)] }

def collect (q : Virtqueue β) : Option (β × ℕ × Virtqueue β) :=
  match q.used with
  | [] => none
  | (b, n) :: used => some (b, n, { q with used })

/-! ## The device -/

def take (q : Virtqueue β) : Option (β × ℕ × Virtqueue β) :=
  match q.avail with
  | [] => none
  | (b, n) :: avail => some (b, n, { q with avail, taken := b :: q.taken })

def give [DecidableEq β] (q : Virtqueue β) (b : β) (n : ℕ) : Virtqueue β :=
  { q with taken := q.taken.erase b, used := q.used ++ [(b, n)] }

/-! ## Where a buffer is -/

def holds (q : Virtqueue β) : List β := q.avail.map Prod.fst ++ (q.taken ++ q.used.map Prod.fst)

theorem take_eq_some (h : q.take = some (b, n, r)) :
    q.avail = (b, n) :: r.avail ∧ r.taken = b :: q.taken ∧ r.used = q.used := by
  unfold take at h
  split at h
  next => cases h
  next b' n' avail havail =>
    cases h
    exact ⟨havail, rfl, rfl⟩

theorem collect_eq_some (h : q.collect = some (b, n, r)) :
    q.used = (b, n) :: r.used ∧ r.avail = q.avail ∧ r.taken = q.taken := by
  unfold collect at h
  split at h
  next => cases h
  next b' n' used hused =>
    cases h
    exact ⟨hused, rfl, rfl⟩

theorem collect_eq_none : q.collect = none ↔ q.used = [] := by
  unfold collect
  split <;> simp [*]

theorem holds_add (q : Virtqueue β) (b : β) (n : ℕ) : (q.add b n).holds.Perm (b :: q.holds) := by
  rw [holds, holds, add, List.map_append, List.append_assoc]
  exact List.perm_middle

theorem holds_take (h : q.take = some (b, n, r)) : r.holds.Perm q.holds := by
  obtain ⟨havail, htaken, hused⟩ := take_eq_some h
  rw [holds, holds, havail, htaken, hused, List.cons_append]
  exact List.perm_middle

theorem holds_give [DecidableEq β] (h : b ∈ q.taken) (n : ℕ) : (q.give b n).holds.Perm q.holds := by
  have hmove : (q.taken.erase b ++ (q.used ++ [(b, n)]).map Prod.fst).Perm
      (q.taken ++ q.used.map Prod.fst) := by
    rw [List.map_append, ← List.append_assoc]
    refine (List.perm_append_singleton b _).trans ?_
    rw [← List.cons_append]
    exact (List.perm_cons_erase h).symm.append_right _
  exact hmove.append_left _

theorem holds_collect (h : q.collect = some (b, n, r)) : q.holds.Perm (b :: r.holds) := by
  obtain ⟨hused, havail, htaken⟩ := collect_eq_some h
  rw [holds, holds, hused, havail, htaken, List.map_cons, ← List.append_assoc, ← List.append_assoc]
  exact List.perm_middle

theorem mem_holds_of_used (h : (b, n) ∈ q.used) : b ∈ q.holds :=
  List.mem_append_right _ (List.mem_append_right _ (List.mem_map_of_mem h))

theorem mem_holds_of_avail (h : (b, n) ∈ q.avail) : b ∈ q.holds :=
  List.mem_append_left _ (List.mem_map_of_mem h)

/-- A buffer that is not looked at yet was not given back. -/
theorem ne_of_avail_of_used {b' : β} {n' : ℕ} (hnodup : q.holds.Nodup) (h : (b, n) ∈ q.avail)
    (h' : (b', n') ∈ q.used) : b ≠ b' := by
  rintro rfl
  have hdisjoint := (List.nodup_append.mp hnodup).2.2
  exact hdisjoint b (List.mem_map_of_mem h) b
    (List.mem_append_right _ (List.mem_map_of_mem h')) rfl

end Virtqueue
