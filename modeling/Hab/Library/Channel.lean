import Mathlib.Data.List.Basic
import Mathlib.Tactic.Common

/-!
# Channels that keep the order

What was put into a channel is compared with what has come out of it, entry by entry:
the `k`-th thing that came out belongs to the `k`-th that was put in.  What an entry has
become on its way is given by a relation, so that a channel may number, pack or unpack
what it carries, and two channels one behind the other are a channel again.
-/

namespace Channel

variable {α β γ : Type*}

/-- Nothing came out twice or out of order, and each entry is what the one put in at its
place may become. -/
structure Carries (R : ℕ → α → β → Prop) (sent : List α) (got : List β) : Prop where
  le : got.length ≤ sent.length
  related : ∀ k a b, sent[k]? = some a → got[k]? = some b → R k a b

/-- A channel at one moment. -/
structure State (α β : Type*) where
  accepted : List α
  flying : List α
  delivered : List β

/-- What a channel may do. -/
inductive Step (R : ℕ → α → β → Prop) (c : State α β) : State α β → Prop
  | stay : Step R c c
  | accept (a : α) :
      Step R c { c with accepted := c.accepted ++ [a], flying := c.flying ++ [a] }
  | deliver (a : α) (rest : List α) (b : β) (hhead : c.flying = a :: rest)
      (hbecomes : R c.delivered.length a b) :
      Step R c { c with flying := rest, delivered := c.delivered ++ [b] }

/-- What has not come out is in flight, in order. -/
structure Lossless (R : ℕ → α → β → Prop) (c : State α β) : Prop where
  carries : Carries R c.accepted c.delivered
  flying : c.flying = c.accepted.drop c.delivered.length

variable {R S : ℕ → α → β → Prop} {T : ℕ → β → γ → Prop} {sent : List α} {got : List β}

namespace Carries

theorem nil : Carries R sent [] where
  le := Nat.zero_le _
  related := fun _ _ _ _ h ↦ by cases h

theorem mono (h : Carries R sent got) (hRS : ∀ k a b, R k a b → S k a b) : Carries S sent got :=
  ⟨h.le, fun k a b ha hb ↦ hRS k a b (h.related k a b ha hb)⟩

/-- More may be put in at any time. -/
theorem append (h : Carries R sent got) (later : List α) : Carries R (sent ++ later) got where
  le := by
    rw [List.length_append]
    exact Nat.le_add_right_of_le h.le
  related := by
    intro k a b ha hb
    have hk : k < sent.length := Nat.lt_of_lt_of_le (List.getElem?_eq_some_iff.mp hb).1 h.le
    rw [List.getElem?_append_left hk] at ha
    exact h.related k a b ha hb

theorem concat (h : Carries R sent got) {a : α} {b : β} (ha : sent[got.length]? = some a)
    (hbecomes : R got.length a b) : Carries R sent (got ++ [b]) where
  le := by
    rw [List.length_append, List.length_singleton]
    exact (List.getElem?_eq_some_iff.mp ha).1
  related := by
    intro k a' b' ha' hb'
    rcases Nat.lt_trichotomy k got.length with hk | rfl | hk
    · rw [List.getElem?_append_left hk] at hb'
      exact h.related k a' b' ha' hb'
    · rw [List.getElem?_concat_length] at hb'
      rw [ha] at ha'
      cases ha'
      cases hb'
      exact hbecomes
    · rw [List.getElem?_eq_none (by simp; omega)] at hb'
      cases hb'

/-- Channels one behind the other. -/
theorem comp {out : List γ} (h : Carries R sent got) (h' : Carries T got out) :
    Carries (fun k a c ↦ ∃ b, R k a b ∧ T k b c) sent out where
  le := Nat.le_trans h'.le h.le
  related := by
    intro k a c ha hc
    have hk : k < got.length := Nat.lt_of_lt_of_le (List.getElem?_eq_some_iff.mp hc).1 h'.le
    exact ⟨got[k], h.related k a _ ha (List.getElem?_eq_getElem hk),
      h'.related k _ c (List.getElem?_eq_getElem hk) hc⟩

/-- The `k`-th entry of all that were put in has come out when `k` others have. -/
theorem exists_sent (h : Carries R sent got) {k : ℕ} {b : β} (hb : got[k]? = some b) :
    ∃ a, sent[k]? = some a ∧ R k a b := by
  have hk : k < sent.length := Nat.lt_of_lt_of_le (List.getElem?_eq_some_iff.mp hb).1 h.le
  exact ⟨sent[k], List.getElem?_eq_getElem hk,
    h.related k _ b (List.getElem?_eq_getElem hk) hb⟩

end Carries

namespace Lossless

variable {c d : State α β}

theorem start : Lossless R ⟨[], [], []⟩ := ⟨.nil, rfl⟩

theorem step (h : Lossless R c) (hstep : Step R c d) : Lossless R d := by
  cases hstep with
  | stay => exact h
  | accept a =>
      refine ⟨h.carries.append [a], ?_⟩
      rw [List.drop_append_of_le_length h.carries.le, ← h.flying]
  | deliver a rest b hhead hbecomes =>
      have hdrop := h.flying.symm.trans hhead
      have hget : c.accepted[c.delivered.length]? = some a := by
        rw [← List.head?_drop, hdrop]
        rfl
      refine ⟨h.carries.concat hget hbecomes, ?_⟩
      rw [List.length_append, List.length_singleton, ← List.drop_drop, hdrop]
      rfl

/-- When nothing is in flight, all has come out. -/
theorem length_eq (h : Lossless R c) (hflying : c.flying = []) :
    c.delivered.length = c.accepted.length := by
  have hdrop := h.flying.symm.trans hflying
  exact Nat.le_antisymm h.carries.le (List.drop_eq_nil_iff.mp hdrop)

end Lossless

end Channel
