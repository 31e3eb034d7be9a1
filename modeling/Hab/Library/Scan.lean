import Mathlib.Data.List.Basic
import Mathlib.Tactic.Common

/-!
# Scanning a queue

A scan walks a queue from its head, takes the first entry that is a hit and
drops the stale entries it passes on the way; what lies behind the hit is not
looked at.  The last part is about removing the first hit only.
-/

namespace Scan

variable {α : Type*}

/-- What a scan takes, what it leaves and what it drops. -/
structure Result (α : Type*) where
  taken : Option α
  kept : List α
  dropped : List α

def scan (hit stale : α → Bool) : List α → Result α
  | [] => ⟨none, [], []⟩
  | a :: as =>
      if hit a then ⟨some a, as, []⟩
      else
        let rest := scan hit stale as
        if stale a then { rest with dropped := a :: rest.dropped }
        else { rest with kept := a :: rest.kept }

variable {hit stale : α → Bool}

theorem scan_cons_of_hit {a : α} (h : hit a) (as : List α) :
    scan hit stale (a :: as) = ⟨some a, as, []⟩ := if_pos h

theorem scan_cons_of_stale {a : α} (h : ¬ hit a) (hstale : stale a) (as : List α) :
    scan hit stale (a :: as) =
      { scan hit stale as with dropped := a :: (scan hit stale as).dropped } := by
  simp [scan, h, hstale]

theorem scan_cons_of_pass {a : α} (h : ¬ hit a) (hstale : ¬ stale a) (as : List α) :
    scan hit stale (a :: as) =
      { scan hit stale as with kept := a :: (scan hit stale as).kept } := by
  simp [scan, h, hstale]

/-- The entry taken is the first hit. -/
theorem taken_eq_find? (as : List α) : (scan hit stale as).taken = as.find? hit := by
  induction as with
  | nil => rfl
  | cons a as ih =>
      by_cases h : hit a
      · rw [scan_cons_of_hit h, List.find?_cons_of_pos h]
      · rw [List.find?_cons_of_neg h, ← ih]
        by_cases hstale : stale a
        · rw [scan_cons_of_stale h hstale]
        · rw [scan_cons_of_pass h hstale]

/-- Every entry is taken, kept or dropped, and only once. -/
theorem perm (as : List α) :
    ((scan hit stale as).taken.toList ++ (scan hit stale as).dropped ++
      (scan hit stale as).kept).Perm as := by
  induction as with
  | nil => exact List.Perm.refl _
  | cons a as ih =>
      by_cases h : hit a
      · rw [scan_cons_of_hit h]
        exact List.Perm.refl _
      · by_cases hstale : stale a
        · rw [scan_cons_of_stale h hstale]
          refine List.Perm.trans ?_ (ih.cons a)
          rw [List.append_assoc, List.cons_append, List.append_assoc]
          exact List.perm_middle
        · rw [scan_cons_of_pass h hstale]
          exact List.perm_middle.trans (ih.cons a)

/-- A scan that can only hit entries of a kind treats them as if no others
were in the queue. -/
theorem scan_filter {keep : α → Bool} (hkeep : ∀ a, hit a → keep a) (as : List α) :
    (scan hit stale (as.filter keep)).taken = (scan hit stale as).taken ∧
      (scan hit stale (as.filter keep)).kept = (scan hit stale as).kept.filter keep := by
  induction as with
  | nil => exact ⟨rfl, rfl⟩
  | cons a as ih =>
      by_cases h : hit a
      · rw [List.filter_cons_of_pos (hkeep a h), scan_cons_of_hit h, scan_cons_of_hit h]
        exact ⟨rfl, rfl⟩
      · by_cases hk : keep a
        · rw [List.filter_cons_of_pos hk]
          by_cases hstale : stale a
          · rw [scan_cons_of_stale h hstale, scan_cons_of_stale h hstale]
            exact ih
          · rw [scan_cons_of_pass h hstale, scan_cons_of_pass h hstale]
            refine ⟨ih.1, ?_⟩
            rw [List.filter_cons_of_pos hk, ← ih.2]
        · rw [List.filter_cons_of_neg hk]
          by_cases hstale : stale a
          · rw [scan_cons_of_stale h hstale]
            exact ih
          · rw [scan_cons_of_pass h hstale]
            refine ⟨ih.1, ?_⟩
            rw [List.filter_cons_of_neg hk]
            exact ih.2

/-- What stands behind a hit stays where it is. -/
theorem kept_append {as : List α} {a : α} (h : as.find? hit = some a) (bs : List α) :
    (scan hit stale (as ++ bs)).kept = (scan hit stale as).kept ++ bs := by
  induction as with
  | nil => cases h
  | cons b as ih =>
      rw [List.cons_append]
      by_cases hb : hit b
      · rw [scan_cons_of_hit hb, scan_cons_of_hit hb]
      · rw [List.find?_cons_of_neg hb] at h
        by_cases hstale : stale b
        · rw [scan_cons_of_stale hb hstale, scan_cons_of_stale hb hstale]
          exact ih h
        · rw [scan_cons_of_pass hb hstale, scan_cons_of_pass hb hstale]
          exact congrArg (b :: ·) (ih h)

/-- A scan with a hit leaves less than there was. -/
theorem length_kept_lt {as : List α} {a : α} (h : as.find? hit = some a) :
    (scan hit stale as).kept.length < as.length := by
  have hperm : ((scan hit stale as).taken.toList ++ (scan hit stale as).dropped ++
      (scan hit stale as).kept).Perm as := perm as
  have hlen := hperm.length_eq
  rw [taken_eq_find?, h] at hlen
  simp only [Option.toList_some, List.length_append, List.length_cons, List.length_nil] at hlen
  omega

/-! ## Removing the first hit -/

/-- The first hit is also the first of those that are of a kind, if it is of that kind. -/
theorem eraseP_and (kind : α → Bool) (as : List α)
    (hfirst : ∀ a, as.find? hit = some a → kind a) :
    as.eraseP (fun a ↦ kind a && hit a) = as.eraseP hit := by
  induction as with
  | nil => rfl
  | cons a as ih =>
      by_cases h : hit a
      · have hkind := hfirst a (List.find?_cons_of_pos h)
        rw [List.eraseP_cons_of_pos h, List.eraseP_cons_of_pos (by simp [h, hkind])]
      · rw [List.find?_cons_of_neg h] at hfirst
        rw [List.eraseP_cons_of_neg h, List.eraseP_cons_of_neg (by simp [h]), ih hfirst]

/-- Removing the first hit leaves the entries of a kind as they were exactly
when that hit is not of the kind. -/
theorem filter_eraseP_eq_iff {keep : α → Bool} (as : List α) :
    (as.eraseP hit).filter keep = as.filter keep ↔ ∀ a, as.find? hit = some a → ¬ keep a := by
  induction as with
  | nil => simp
  | cons a as ih =>
      by_cases h : hit a
      · rw [List.eraseP_cons_of_pos h, List.find?_cons_of_pos h]
        by_cases hk : keep a
        · rw [List.filter_cons_of_pos hk]
          constructor
          · intro heq
            have hlen := congrArg List.length heq
            rw [List.length_cons] at hlen
            omega
          · intro hnot
            exact absurd hk (hnot a rfl)
        · rw [List.filter_cons_of_neg hk]
          refine ⟨fun _ b hb ↦ ?_, fun _ ↦ rfl⟩
          cases hb
          exact hk
      · rw [List.eraseP_cons_of_neg h, List.find?_cons_of_neg h]
        by_cases hk : keep a
        · rw [List.filter_cons_of_pos hk, List.filter_cons_of_pos hk, List.cons.injEq, ← ih]
          exact and_iff_right rfl
        · rw [List.filter_cons_of_neg hk, List.filter_cons_of_neg hk, ih]

/-- A first hit outlives the removal of the first entry of another kind, as
long as it is not that entry. -/
theorem find?_eraseP {other : α → Bool} {as : List α} {a : α} (h : as.find? hit = some a)
    (hne : as.find? other ≠ some a) : (as.eraseP other).find? hit = some a := by
  induction as with
  | nil => cases h
  | cons b bs ih =>
      by_cases hb : hit b
      · rw [List.find?_cons_of_pos hb] at h
        cases h
        by_cases hother : other a
        · exact absurd (List.find?_cons_of_pos hother) hne
        · rw [List.eraseP_cons_of_neg hother, List.find?_cons_of_pos hb]
      · rw [List.find?_cons_of_neg hb] at h
        by_cases hother : other b
        · rw [List.eraseP_cons_of_pos hother]
          exact h
        · rw [List.find?_cons_of_neg hother] at hne
          rw [List.eraseP_cons_of_neg hother, List.find?_cons_of_neg hb]
          exact ih h hne

end Scan
