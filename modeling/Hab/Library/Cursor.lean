import Mathlib.Data.List.Basic
import Mathlib.Tactic.Common

/-!
# The cursor of a loop over an intrusive list

The entries of an intrusive list have their links inside, and the links of the first and
the last one lead to a head, which is no entry.  A loop with a cursor leaves the cursor at
the entry where it stopped; a loop that did not stop leaves it at the head, taken for an
entry, and what is read there is whatever memory lies around the head.
-/

namespace Cursor

variable {α : Type*}

/-- Where a cursor may point. -/
inductive Place where
  | member (i : ℕ)
  | head
deriving DecidableEq

/-- The entries of a list, and what the head is taken for. -/
structure RingList (α : Type*) where
  entries : List α
  head : α

namespace RingList

/-- The cursor after a loop that stops at the first entry with a property. -/
def scan (p : α → Bool) (ring : RingList α) : Place :=
  match ring.entries.findIdx? p with
  | some i => .member i
  | none => .head

/-- Read through the cursor. -/
def get (ring : RingList α) : Place → α
  | .member i => ring.entries.getD i ring.head
  | .head => ring.head

/-- Write through the cursor. -/
def set (ring : RingList α) (place : Place) (x : α) : RingList α :=
  match place with
  | .member i => { ring with entries := ring.entries.set i x }
  | .head => { ring with head := x }

variable {ring : RingList α} {p : α → Bool}

/-- The loop stopped at an entry with the property, or no entry has it. -/
theorem scan_cases (p : α → Bool) (ring : RingList α) :
    (∃ i x, ring.scan p = .member i ∧ ring.entries[i]? = some x ∧ p x = true) ∨
      ring.scan p = .head ∧ ∀ x ∈ ring.entries, p x = false := by
  unfold scan
  cases hfind : ring.entries.findIdx? p with
  | none => exact Or.inr ⟨rfl, List.findIdx?_eq_none_iff.mp hfind⟩
  | some i =>
      obtain ⟨hi, hp, -⟩ := List.findIdx?_eq_some_iff_getElem.mp hfind
      exact Or.inl ⟨i, ring.entries[i], rfl, List.getElem?_eq_getElem hi, hp⟩

theorem get_member {i : ℕ} {x : α} (h : ring.entries[i]? = some x) :
    ring.get (.member i) = x := by
  rw [get, List.getD_eq_getElem?_getD, h, Option.getD_some]

end RingList

end Cursor
