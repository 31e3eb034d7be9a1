import Mathlib.Logic.Function.Basic
import Mathlib.Tactic.Common

/-!
# Registries

A registry hands out keys: under each key it has at most one entry.  It is exact for a
property if it has just the entries with that property, each under its own key.  Then a key
stands for one entry, and it goes on doing so as long as an entry keeps its property until
it is taken out.
-/

namespace Registry

variable {K V : Type*} {reg : K → Option V} {key : V → K} {P : V → Prop} {v w : V}

/-- The registry has the entries with the property under their keys, and no others. -/
def Exact (reg : K → Option V) (key : V → K) (P : V → Prop) : Prop :=
  ∀ k v, reg k = some v ↔ P v ∧ key v = k

theorem Exact.find (h : Exact reg key P) (hv : P v) : reg (key v) = some v :=
  (h _ _).mpr ⟨hv, rfl⟩

theorem Exact.key_injective (h : Exact reg key P) (hv : P v) (hw : P w) (hkey : key v = key w) :
    v = w := by
  have hslot := h.find hv
  rw [hkey, h.find hw] at hslot
  exact (Option.some.inj hslot).symm

theorem Exact.congr {key' : V → K} {P' : V → Prop} (h : Exact reg key P)
    (hP : ∀ v, P' v ↔ P v) (hkey : ∀ v, P v → key' v = key v) : Exact reg key' P' := by
  intro k v
  rw [h k v, hP]
  exact and_congr_right fun hv ↦ by rw [hkey v hv]

variable [DecidableEq K]

theorem Exact.insert (h : Exact reg key P) (hfree : reg (key v) = none) :
    Exact (Function.update reg (key v) (some v)) key fun w ↦ P w ∨ w = v := by
  intro k w
  by_cases hk : k = key v
  · rw [hk, Function.update_self, Option.some.injEq]
    constructor
    · rintro rfl
      exact ⟨Or.inr rfl, rfl⟩
    · rintro ⟨hw | rfl, hkey⟩
      · have hslot := h.find hw
        rw [hkey, hfree] at hslot
        exact absurd hslot.symm (Option.some_ne_none w)
      · rfl
  · rw [Function.update_of_ne hk, h k w]
    constructor
    · exact fun hw ↦ ⟨Or.inl hw.1, hw.2⟩
    · rintro ⟨hw | rfl, hkey⟩
      · exact ⟨hw, hkey⟩
      · exact absurd hkey.symm hk

theorem Exact.remove (h : Exact reg key P) (hv : P v) :
    Exact (Function.update reg (key v) none) key fun w ↦ P w ∧ w ≠ v := by
  intro k w
  by_cases hk : k = key v
  · rw [hk, Function.update_self]
    constructor
    · exact fun hnone ↦ absurd hnone.symm (Option.some_ne_none w)
    · rintro ⟨⟨hw, hne⟩, hkey⟩
      exact absurd (h.key_injective hw hv hkey) hne
  · rw [Function.update_of_ne hk, h k w]
    constructor
    · rintro ⟨hw, hkey⟩
      refine ⟨⟨hw, ?_⟩, hkey⟩
      rintro rfl
      exact hk hkey.symm
    · exact fun hw ↦ ⟨hw.1.1, hw.2⟩

end Registry
