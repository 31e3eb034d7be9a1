import Mathlib.Data.List.Basic

/-!
# The locks a thread holds along a path

A path is the list of what one thread does with locks that must not be held while it
sleeps: it takes one, gives one back, or does something that may sleep.  Code that gives
back what it takes can be put after, around and inside other code, and whether the whole
is in order is then a question about each part.
-/

namespace Locks

variable {L α : Type*}

inductive Op (L : Type*) where
  | acquire (l : L)
  | release (l : L)
  | sleep
deriving DecidableEq

variable [DecidableEq L]

/-- The locks held after a path. -/
def after : List L → List (Op L) → List L
  | held, [] => held
  | held, .acquire l :: ops => after (l :: held) ops
  | held, .release l :: ops => after (held.erase l) ops
  | held, .sleep :: ops => after held ops

/-- No lock is taken twice, and nothing sleeps while a lock is held. -/
def Safe : List L → List (Op L) → Prop
  | _, [] => True
  | held, .acquire l :: ops => l ∉ held ∧ Safe (l :: held) ops
  | held, .release l :: ops => Safe (held.erase l) ops
  | held, .sleep :: ops => held = [] ∧ Safe held ops

instance decidableSafe : (held : List L) → (ops : List (Op L)) → Decidable (Safe held ops)
  | _, [] => inferInstanceAs (Decidable True)
  | held, .acquire l :: ops =>
      have := decidableSafe (l :: held) ops
      inferInstanceAs (Decidable (l ∉ held ∧ Safe (l :: held) ops))
  | held, .release l :: ops => decidableSafe (held.erase l) ops
  | held, .sleep :: ops =>
      have := decidableSafe held ops
      inferInstanceAs (Decidable (held = [] ∧ Safe held ops))

/-- `body` with a lock held. -/
def locked (l : L) (body : List (Op L)) : List (Op L) := .acquire l :: (body ++ [.release l])

/-- `body` with a lock given up for its time. -/
def unlocked (l : L) (body : List (Op L)) : List (Op L) := .release l :: (body ++ [.acquire l])

section

variable {held : List L} {a b : List (Op L)} {l : L}

@[simp] theorem after_nil : after held ([] : List (Op L)) = held := by
  rw [after]

@[simp] theorem after_sleep : after held (.sleep :: a) = after held a := by
  rw [after]

@[simp] theorem after_acquire : after held (.acquire l :: a) = after (l :: held) a := by
  rw [after]

@[simp] theorem after_release :
    after held (.release l :: a) = after (held.erase l) a := by
  rw [after]

@[simp] theorem after_append : after held (a ++ b) = after (after held a) b := by
  induction a generalizing held with
  | nil => simp
  | cons op a ih =>
      cases op with
      | acquire l => simp [ih]
      | release l => simp [ih]
      | sleep => simp [ih]

@[simp] theorem after_locked (h : after (l :: held) a = l :: held) :
    after held (locked l a) = held := by
  simp [locked, h]

@[simp] theorem after_unlocked (h : after held a = held) :
    after (l :: held) (unlocked l a) = l :: held := by
  simp [unlocked, h]

@[simp] theorem after_flatMap {xs : List α} {f : α → List (Op L)}
    (h : ∀ x ∈ xs, after held (f x) = held) : after held (xs.flatMap f) = held := by
  induction xs with
  | nil => simp
  | cons x xs ih =>
      obtain ⟨hx, hxs⟩ := List.forall_mem_cons.mp h
      simp [hx, ih hxs]

@[simp] theorem safe_nil : Safe held ([] : List (Op L)) := trivial

@[simp] theorem safe_sleep : Safe held (.sleep :: a) ↔ held = [] ∧ Safe held a := Iff.rfl

@[simp] theorem safe_acquire :
    Safe held (.acquire l :: a) ↔ l ∉ held ∧ Safe (l :: held) a := Iff.rfl

@[simp] theorem safe_release : Safe held (.release l :: a) ↔ Safe (held.erase l) a := Iff.rfl

/-- A path is in order if its first part is, and its second from where that ends. -/
theorem safe_append : Safe held (a ++ b) ↔ Safe held a ∧ Safe (after held a) b := by
  induction a generalizing held with
  | nil => simp
  | cons op a ih =>
      cases op with
      | acquire l => simp [ih, and_assoc]
      | release l => simp [ih]
      | sleep => simp [ih, and_assoc]

theorem safe_append_of_after (h : after held a = held) :
    Safe held (a ++ b) ↔ Safe held a ∧ Safe held b := by
  rw [safe_append, h]

theorem safe_locked (h : after (l :: held) a = l :: held) :
    Safe held (locked l a) ↔ l ∉ held ∧ Safe (l :: held) a := by
  simp [locked, safe_append, h]

/-- A lock that is given up for a while is taken again, so it must not be held by then. -/
theorem safe_unlocked (h : after held a = held) :
    Safe (l :: held) (unlocked l a) ↔ l ∉ held ∧ Safe held a := by
  simp [unlocked, safe_append, h, and_comm]

/-- Rounds that each give back what they take are in order if every round is. -/
theorem safe_flatMap {xs : List α} {f : α → List (Op L)}
    (h : ∀ x ∈ xs, after held (f x) = held) :
    Safe held (xs.flatMap f) ↔ ∀ x ∈ xs, Safe held (f x) := by
  induction xs with
  | nil => simp
  | cons x xs ih =>
      obtain ⟨hx, hxs⟩ := List.forall_mem_cons.mp h
      rw [List.flatMap_cons, safe_append_of_after hx, ih hxs, List.forall_mem_cons]

end

end Locks
