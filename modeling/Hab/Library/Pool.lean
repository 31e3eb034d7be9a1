import Mathlib.Data.List.Basic
import Mathlib.Logic.Function.Basic
import Mathlib.Tactic.Common

/-!
# Calls in progress

A pool holds the calls that have started and not returned, each under a number
that is never used again.  A stage says where a call stands.
-/

/-- Where each call stands; `none` for a number not yet used or whose call has
returned. -/
structure Pool (κ : Type*) where
  get : ℕ → Option κ
  next : ℕ
  unused : ∀ i, next ≤ i → get i = none

namespace Pool

variable {κ : Type*}

def empty : Pool κ := ⟨fun _ ↦ none, 0, fun _ _ ↦ rfl⟩

/-- A call starts. -/
def spawn (calls : Pool κ) (k : κ) : Pool κ where
  get := Function.update calls.get calls.next (some k)
  next := calls.next + 1
  unused := by
    intro i hi
    rw [Function.update_of_ne (by omega)]
    exact calls.unused i (by omega)

/-- A call goes on to another stage, or returns. -/
def set (calls : Pool κ) (i : ℕ) (k : Option κ) : Pool κ :=
  if h : i < calls.next then
    { get := Function.update calls.get i k
      next := calls.next
      unused := by
        intro j hj
        rw [Function.update_of_ne (by omega)]
        exact calls.unused j hj }
  else calls

/-- Every call in progress passes the test. -/
def all (calls : Pool κ) (test : κ → Bool) : Bool :=
  (List.range calls.next).all fun i ↦ (calls.get i).all test

variable {calls : Pool κ}

theorem lt_next {i : ℕ} {k : κ} (h : calls.get i = some k) : i < calls.next := by
  by_contra hge
  rw [calls.unused i (by omega)] at h
  cases h

theorem get_spawn {k k' : κ} {i : ℕ} :
    (calls.spawn k).get i = some k' ↔ (i = calls.next ∧ k' = k) ∨ calls.get i = some k' := by
  by_cases hi : i = calls.next
  · subst hi
    have hnone := calls.unused calls.next (Nat.le_refl _)
    simp [spawn, hnone, eq_comm]
  · simp [spawn, hi]

/-- A call other than the new one was there before. -/
theorem get_of_spawn {k k' : κ} {i : ℕ} (h : (calls.spawn k).get i = some k') (hne : k ≠ k') :
    calls.get i = some k' := by
  rcases get_spawn.mp h with ⟨-, rfl⟩ | h
  · exact absurd rfl hne
  · exact h

theorem get_set {k : κ} {k' : Option κ} {i j : ℕ} (hi : i < calls.next) :
    (calls.set i k').get j = some k ↔
      (j = i ∧ k' = some k) ∨ (j ≠ i ∧ calls.get j = some k) := by
  rw [set, dif_pos hi]
  by_cases hj : j = i
  · subst hj
    simp
  · simp [hj]

theorem get_set_self {i : ℕ} (hi : i < calls.next) (k : Option κ) : (calls.set i k).get i = k := by
  rw [set, dif_pos hi]
  exact Function.update_self i k calls.get

theorem next_set (i : ℕ) (k : Option κ) : (calls.set i k).next = calls.next := by
  rw [set]
  split <;> rfl

theorem get_set_of_ne {i j : ℕ} (hj : j ≠ i) (k : Option κ) :
    (calls.set i k).get j = calls.get j := by
  by_cases hi : i < calls.next
  · rw [set, dif_pos hi]
    exact Function.update_of_ne hj k calls.get
  · rw [set, dif_neg hi]

theorem all_eq_true {test : κ → Bool} :
    calls.all test = true ↔ ∀ i k, calls.get i = some k → test k = true := by
  rw [all, List.all_eq_true]
  constructor
  · intro h i k hk
    have hi := h i (List.mem_range.mpr (lt_next hk))
    rw [hk] at hi
    exact hi
  · intro h i _
    cases hk : calls.get i with
    | none => rfl
    | some k => exact h i k hk

theorem get_eq_none_of_all (h : calls.all (fun _ ↦ false) = true) (i : ℕ) :
    calls.get i = none := by
  cases hk : calls.get i with
  | none => rfl
  | some k => cases all_eq_true.mp h i k hk

/-- What holds of a new call and of all others holds of the larger pool. -/
theorem forall_spawn {P : ℕ → κ → Prop} {k : κ} (hnew : P calls.next k)
    (hold : ∀ i k, calls.get i = some k → P i k) {i : ℕ} {k' : κ}
    (h : (calls.spawn k).get i = some k') : P i k' := by
  rcases get_spawn.mp h with ⟨rfl, rfl⟩ | h
  · exact hnew
  · exact hold i k' h

/-- What holds of the new stage of a call and of all other calls holds of the
pool. -/
theorem forall_set {P : ℕ → κ → Prop} {i : ℕ} {k : Option κ} (hi : i < calls.next)
    (hnew : ∀ k', k = some k' → P i k')
    (hold : ∀ j k', j ≠ i → calls.get j = some k' → P j k') {j : ℕ} {k' : κ}
    (h : (calls.set i k).get j = some k') : P j k' := by
  rcases (get_set hi).mp h with ⟨rfl, hk⟩ | ⟨hne, hk⟩
  · exact hnew k' hk
  · exact hold j k' hne hk

/-! ## Counting -/

/-- How many of the first `n` numbers belong to a call that passes the test. -/
def countBelow (test : κ → Bool) (get : ℕ → Option κ) : ℕ → ℕ
  | 0 => 0
  | n + 1 => countBelow test get n + ((get n).any test).toNat

/-- How many calls in progress pass the test. -/
def count (calls : Pool κ) (test : κ → Bool) : ℕ :=
  countBelow test calls.get calls.next

variable {test : κ → Bool} {get : ℕ → Option κ}

theorem countBelow_update_of_le {n i : ℕ} (h : n ≤ i) (k : Option κ) :
    countBelow test (Function.update get i k) n = countBelow test get n := by
  induction n with
  | zero => rfl
  | succ n ih =>
      rw [countBelow, countBelow, ih (Nat.le_of_succ_le h),
        Function.update_of_ne (Nat.ne_of_lt h)]

theorem countBelow_update {n i : ℕ} (h : i < n) (k : Option κ) :
    countBelow test (Function.update get i k) n + ((get i).any test).toNat =
      countBelow test get n + (k.any test).toNat := by
  induction n with
  | zero => cases h
  | succ n ih =>
      rw [countBelow, countBelow]
      rcases Nat.lt_succ_iff_lt_or_eq.mp h with hlt | rfl
      · rw [Function.update_of_ne (Nat.ne_of_gt hlt)]
        have := ih hlt
        omega
      · rw [countBelow_update_of_le (Nat.le_refl i), Function.update_self]
        omega

theorem countP_range (n : ℕ) :
    (List.range n).countP (fun i ↦ (get i).any test) = countBelow test get n := by
  induction n with
  | zero => rfl
  | succ n ih =>
      rw [List.range_succ, List.countP_append, ih, countBelow]
      by_cases h : (get n).any test = true <;> simp [h]

theorem count_spawn (k : κ) :
    (calls.spawn k).count test = calls.count test + (test k).toNat := by
  have hold : countBelow test (Function.update calls.get calls.next (some k)) calls.next =
      countBelow test calls.get calls.next :=
    countBelow_update_of_le (Nat.le_refl calls.next) (some k)
  simp [count, spawn, countBelow, hold]

theorem count_set {i : ℕ} {k : κ} (h : calls.get i = some k) (k' : Option κ) :
    (calls.set i k').count test + (test k).toNat =
      calls.count test + (k'.any test).toNat := by
  have hset : countBelow test (Function.update calls.get i k') calls.next +
      ((calls.get i).any test).toNat =
        countBelow test calls.get calls.next + (k'.any test).toNat :=
    countBelow_update (lt_next h) k'
  rw [h] at hset
  simpa [count, set, lt_next h] using hset

theorem countBelow_pos {n i : ℕ} (h : i < n) {k : κ} (hk : get i = some k)
    (htest : test k = true) : 0 < countBelow test get n := by
  induction n with
  | zero => cases h
  | succ n ih =>
      rw [countBelow]
      rcases Nat.lt_succ_iff_lt_or_eq.mp h with hlt | rfl
      · exact Nat.add_pos_left (ih hlt) _
      · simp [hk, htest]

theorem count_pos {i : ℕ} {k : κ} (h : calls.get i = some k) (hk : test k = true) :
    0 < calls.count test :=
  countBelow_pos (lt_next h) h hk

theorem eq_false_of_count_eq_zero (hzero : calls.count test = 0) {i : ℕ} {k : κ}
    (h : calls.get i = some k) : test k = false := by
  by_contra htest
  exact Nat.ne_of_gt (count_pos h (by simpa using htest)) hzero

theorem countBelow_eq_zero {n : ℕ} (h : ∀ i < n, ∀ k, get i = some k → test k = false) :
    countBelow test get n = 0 := by
  induction n with
  | zero => rfl
  | succ n ih =>
      rw [countBelow, ih fun i hi ↦ h i (Nat.lt_succ_of_lt hi)]
      cases hk : get n with
      | none => rfl
      | some k => simp [h n (Nat.lt_succ_self n) k hk]

theorem count_eq_zero (h : ∀ i k, calls.get i = some k → test k = false) :
    calls.count test = 0 :=
  countBelow_eq_zero fun i _ k hk ↦ h i k hk

theorem exists_of_count_ne_zero (h : calls.count test ≠ 0) :
    ∃ i k, calls.get i = some k ∧ test k = true := by
  by_contra hnone
  apply h
  apply count_eq_zero
  intro i k hk
  by_contra htest
  exact hnone ⟨i, k, hk, by simpa using htest⟩

/-- Where at most one of the numbers passes the test, those that pass it are one. -/
theorem eq_of_countBelow_le_one {n : ℕ} (hone : countBelow test get n ≤ 1) {i j : ℕ} (hin : i < n)
    (hjn : j < n) {k k' : κ} (hi : get i = some k) (hj : get j = some k') (hk : test k = true)
    (hk' : test k' = true) : i = j := by
  by_contra hne
  -- without `i` there would still be `j`
  have hother : Function.update get i none j = some k' :=
    (Function.update_of_ne (fun heq ↦ hne heq.symm) _ _).trans hj
  have hpos := countBelow_pos hjn hother hk'
  have hset : countBelow test (Function.update get i none) n + ((get i).any test).toNat =
      countBelow test get n + ((none : Option κ).any test).toNat := countBelow_update hin none
  rw [hi, Option.any_some, hk, Bool.toNat_true, Option.any_none, Bool.toNat_false] at hset
  omega

/-- Where at most one call passes the test, the calls that pass it are one. -/
theorem eq_of_count_le_one (hone : calls.count test ≤ 1) {i j : ℕ} {k k' : κ}
    (hi : calls.get i = some k) (hj : calls.get j = some k') (hk : test k = true)
    (hk' : test k' = true) : i = j :=
  eq_of_countBelow_le_one hone (lt_next hi) (lt_next hj) hi hj hk hk'

theorem count_le_add {a b : κ → Bool} (h : ∀ k, test k = true → a k = true ∨ b k = true) :
    calls.count test ≤ calls.count a + calls.count b := by
  have hall : ∀ n, countBelow test calls.get n ≤
      countBelow a calls.get n + countBelow b calls.get n := by
    intro n
    induction n with
    | zero => exact Nat.zero_le _
    | succ n ih =>
        simp only [countBelow]
        cases hk : calls.get n with
        | none =>
            simp only [Option.any_none, Bool.toNat_false]
            omega
        | some k =>
            simp only [Option.any_some]
            cases htest : test k with
            | false =>
                simp only [Bool.toNat_false]
                omega
            | true =>
                rcases h k htest with hk' | hk' <;>
                  simp only [hk', Bool.toNat_true] <;> omega
  exact hall calls.next

/-! ## Adding up -/

/-- What the calls among the first `n` numbers weigh together. -/
def sumBelow (weight : κ → ℕ) (get : ℕ → Option κ) : ℕ → ℕ
  | 0 => 0
  | n + 1 => sumBelow weight get n + (get n).elim 0 weight

/-- What the calls in progress weigh together. -/
def sum (calls : Pool κ) (weight : κ → ℕ) : ℕ := sumBelow weight calls.get calls.next

variable {weight : κ → ℕ}

theorem sumBelow_update_of_le {n i : ℕ} (h : n ≤ i) (k : Option κ) :
    sumBelow weight (Function.update get i k) n = sumBelow weight get n := by
  induction n with
  | zero => rfl
  | succ n ih =>
      rw [sumBelow, sumBelow, ih (Nat.le_of_succ_le h), Function.update_of_ne (Nat.ne_of_lt h)]

theorem sumBelow_update {n i : ℕ} (h : i < n) (k : Option κ) :
    sumBelow weight (Function.update get i k) n + (get i).elim 0 weight =
      sumBelow weight get n + k.elim 0 weight := by
  induction n with
  | zero => cases h
  | succ n ih =>
      rw [sumBelow, sumBelow]
      rcases Nat.lt_succ_iff_lt_or_eq.mp h with hlt | rfl
      · rw [Function.update_of_ne (Nat.ne_of_gt hlt)]
        have := ih hlt
        omega
      · rw [sumBelow_update_of_le (Nat.le_refl i), Function.update_self]
        omega

@[simp] theorem sum_empty : (empty : Pool κ).sum weight = 0 := rfl

theorem sum_spawn (k : κ) : (calls.spawn k).sum weight = calls.sum weight + weight k := by
  have hold : sumBelow weight (Function.update calls.get calls.next (some k)) calls.next =
      sumBelow weight calls.get calls.next :=
    sumBelow_update_of_le (Nat.le_refl calls.next) (some k)
  simp [sum, spawn, sumBelow, hold]

theorem sum_set {i : ℕ} {k : κ} (h : calls.get i = some k) (k' : Option κ) :
    (calls.set i k').sum weight + weight k = calls.sum weight + k'.elim 0 weight := by
  have hset : sumBelow weight (Function.update calls.get i k') calls.next +
      (calls.get i).elim 0 weight =
        sumBelow weight calls.get calls.next + k'.elim 0 weight :=
    sumBelow_update (lt_next h) k'
  rw [h] at hset
  simpa [sum, set, lt_next h] using hset

theorem sum_eq_zero (h : ∀ i k, calls.get i = some k → weight k = 0) :
    calls.sum weight = 0 := by
  have hall : ∀ n, sumBelow weight calls.get n = 0 := by
    intro n
    induction n with
    | zero => rfl
    | succ n ih =>
        rw [sumBelow, ih]
        cases hk : calls.get n with
        | none => rfl
        | some k => simp [h n k hk]
  exact hall calls.next

theorem le_sum {i : ℕ} {k : κ} (h : calls.get i = some k) : weight k ≤ calls.sum weight := by
  have hset : (calls.set i none).sum weight + weight k = calls.sum weight + 0 := sum_set h none
  omega

theorem add_le_sum {i j : ℕ} {k k' : κ} (hne : i ≠ j) (hi : calls.get i = some k)
    (hj : calls.get j = some k') : weight k + weight k' ≤ calls.sum weight := by
  have hother : (calls.set i none).get j = some k' :=
    (get_set (lt_next hi)).mpr (Or.inr ⟨hne.symm, hj⟩)
  have hset : (calls.set i none).sum weight + weight k = calls.sum weight + 0 := sum_set hi none
  have hle : weight k' ≤ (calls.set i none).sum weight := le_sum hother
  omega

theorem exists_of_sum_pos (h : 0 < calls.sum weight) :
    ∃ i k, calls.get i = some k ∧ 0 < weight k := by
  by_contra hnone
  apply Nat.ne_of_gt h
  apply sum_eq_zero
  intro i k hk
  by_contra hpos
  exact hnone ⟨i, k, hk, Nat.pos_of_ne_zero hpos⟩

end Pool
