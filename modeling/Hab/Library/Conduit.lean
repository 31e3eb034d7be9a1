import Mathlib.Data.List.ReduceOption
import Mathlib.Tactic.Common

/-!
# Messages on their way

What one party has put into a channel, in its order, with `none` for the end, is compared
with what the other has got out of it and what is still on its way.  A party that listens
gets everything until the end comes; one that does not listen any more gets nothing.
-/

namespace Conduit

variable {α : Type*}

/-- All that was put in has been got or comes later: what is on its way, while the
receiver listens, and something that begins with the end, when it has ended. -/
def Conveys (sent : List (Option α)) (got : List α) (flying : List (Option α))
    (listening ended : Prop) : Prop :=
  ∃ rest, sent = got.map some ++ rest ∧ (listening → rest = flying) ∧
    (ended → rest.head? = some none)

variable {sent flying flying' : List (Option α)} {got got' : List α}
  {listening listening' ended ended' : Prop}

theorem conveys_nil (hended : ¬ ended) : Conveys ([] : List (Option α)) [] [] listening ended :=
  ⟨[], rfl, fun _ ↦ rfl, fun h ↦ absurd h hended⟩

namespace Conveys

/-! ## What may happen -/

theorem put (h : Conveys sent got flying listening ended) (entries : List (Option α)) :
    Conveys (sent ++ entries) got (flying ++ entries) listening ended := by
  obtain ⟨rest, hsent, hflying, hend⟩ := h
  refine ⟨rest ++ entries, ?_, ?_, ?_⟩
  · rw [hsent, List.append_assoc]
  · intro hlistening
    rw [hflying hlistening]
  · intro hended
    rw [List.head?_append, hend hended]
    rfl

theorem get {a : α} (h : Conveys sent got (some a :: flying) listening ended)
    (hlistening : listening) (hended : ¬ ended') :
    Conveys sent (got ++ [a]) flying listening' ended' := by
  obtain ⟨rest, hsent, hflying, -⟩ := h
  refine ⟨flying, ?_, fun _ ↦ rfl, fun h ↦ absurd h hended⟩
  rw [hsent, hflying hlistening, List.map_append, List.append_assoc]
  rfl

theorem finish (h : Conveys sent got (none :: flying) listening ended) (hlistening : listening)
    (hdeaf : ¬ listening') : Conveys sent got flying' listening' ended' := by
  obtain ⟨rest, hsent, hflying, -⟩ := h
  refine ⟨rest, hsent, fun h ↦ absurd h hdeaf, fun _ ↦ ?_⟩
  rw [hflying hlistening]
  rfl

/-- A receiver that does not listen does not care what is on its way. -/
theorem deaf (h : Conveys sent got flying listening ended) (hdeaf : ¬ listening') :
    Conveys sent got flying' listening' ended := by
  obtain ⟨rest, hsent, -, hend⟩ := h
  exact ⟨rest, hsent, fun h ↦ absurd h hdeaf, hend⟩

theorem mono (h : Conveys sent got flying listening ended) (hlistening : listening' → listening)
    (hended : ended' → ended) : Conveys sent got flying listening' ended' := by
  obtain ⟨rest, hsent, hflying, hend⟩ := h
  exact ⟨rest, hsent, fun h ↦ hflying (hlistening h), fun h ↦ hend (hended h)⟩

/-- The receiver is gone, with some of what it had got. -/
theorem lose (h : Conveys sent got flying listening ended) (hgot : got' <+: got)
    (hdeaf : ¬ listening') (hended : ¬ ended') :
    Conveys sent got' flying' listening' ended' := by
  obtain ⟨rest, hsent, -, -⟩ := h
  obtain ⟨lost, rfl⟩ := hgot
  refine ⟨lost.map some ++ rest, ?_, fun h ↦ absurd h hdeaf, fun h ↦ absurd h hended⟩
  rw [hsent, List.map_append, List.append_assoc]

/-! ## What the receiver has -/

theorem got_prefix (h : Conveys sent got flying listening ended) : got <+: sent.reduceOption := by
  obtain ⟨rest, hsent, -, -⟩ := h
  refine ⟨rest.reduceOption, ?_⟩
  rw [hsent, List.reduceOption_append]
  simp [List.reduceOption]

theorem none_mem (h : Conveys sent got flying listening ended) (hended : ended) :
    none ∈ sent := by
  obtain ⟨rest, hsent, -, hend⟩ := h
  rw [hsent]
  exact List.mem_append_right _ (List.mem_of_mem_head? (hend hended))

theorem got_eq (h : Conveys sent got flying listening ended) (hended : ended) :
    got.map some = sent.takeWhile Option.isSome := by
  obtain ⟨rest, hsent, -, hend⟩ := h
  have hstop : rest.takeWhile Option.isSome = [] := by
    cases rest with
    | nil => rfl
    | cons entry rest =>
        obtain rfl : entry = none := Option.some.inj (hend hended)
        rfl
  have hall : ∀ entry ∈ got.map some, Option.isSome entry = true := by
    intro entry hentry
    obtain ⟨a, -, rfl⟩ := List.mem_map.mp hentry
    rfl
  rw [hsent, List.takeWhile_append_of_pos hall, hstop, List.append_nil]

end Conveys

end Conduit
