import Mathlib.Data.Nat.Bitwise
import Mathlib.Tactic.Common

/-!
# Fields of a word

A field of a word is given by the mask of its bits.  A setter that reads the word, clears
the bits of the mask and puts a value there leaves all other bits alone, so setters of
fields that do not overlap commute and each getter sees only its own setter.
-/

namespace BitField

variable {w : ℕ} {x m m' : BitVec w}

/-- Put the bits of `v` that are under the mask `m` into `x`. -/
def put (x m v : BitVec w) : BitVec w := (x &&& ~~~m) ||| (v &&& m)

theorem getLsbD_put (x m v : BitVec w) (i : ℕ) :
    (put x m v).getLsbD i = if m.getLsbD i then v.getLsbD i else x.getLsbD i := by
  rw [put, BitVec.getLsbD_or, BitVec.getLsbD_and, BitVec.getLsbD_and, BitVec.getLsbD_not]
  by_cases hi : i < w
  · cases m.getLsbD i <;> simp [hi]
  · have hx := BitVec.getLsbD_of_ge x i (by omega)
    have hm := BitVec.getLsbD_of_ge m i (by omega)
    simp [hx, hm]

/-- What is read under the mask is what was put there. -/
theorem put_and_self (x m v : BitVec w) : put x m v &&& m = v &&& m := by
  apply BitVec.eq_of_getLsbD_eq
  intro i _
  rw [BitVec.getLsbD_and, BitVec.getLsbD_and, getLsbD_put]
  cases m.getLsbD i <;> simp

theorem getLsbD_of_disjoint (h : m &&& m' = 0#w) (i : ℕ) :
    (m.getLsbD i && m'.getLsbD i) = false := by
  rw [← BitVec.getLsbD_and, h, BitVec.getLsbD_zero]

/-- What is read under another mask is what was there. -/
theorem put_and_of_disjoint (h : m &&& m' = 0#w) (v : BitVec w) :
    put x m v &&& m' = x &&& m' := by
  apply BitVec.eq_of_getLsbD_eq
  intro i _
  have hbit := getLsbD_of_disjoint h i
  rw [BitVec.getLsbD_and, BitVec.getLsbD_and, getLsbD_put]
  cases hm : m.getLsbD i with
  | false => simp
  | true =>
      rw [hm, Bool.true_and] at hbit
      simp [hbit]

/-- A field joined to a word is not seen under another mask. -/
theorem or_and_of_disjoint (h : m &&& m' = 0#w) (v : BitVec w) :
    (x ||| (v &&& m)) &&& m' = x &&& m' := by
  rw [BitVec.and_or_distrib_right, BitVec.and_assoc, h, BitVec.and_zero, BitVec.or_zero]

/-- Setters of fields that do not overlap commute. -/
theorem put_comm (h : m &&& m' = 0#w) (v v' : BitVec w) :
    put (put x m v) m' v' = put (put x m' v') m v := by
  apply BitVec.eq_of_getLsbD_eq
  intro i _
  have hbit := getLsbD_of_disjoint h i
  rw [getLsbD_put, getLsbD_put, getLsbD_put, getLsbD_put]
  cases hm : m.getLsbD i with
  | false => simp
  | true =>
      rw [hm, Bool.true_and] at hbit
      simp [hbit]

/-- Two fields that do not overlap can be set with one read of the word. -/
theorem put_put (h : m &&& m' = 0#w) (v v' : BitVec w) :
    put (put x m v) m' v' = (x &&& ~~~(m ||| m')) ||| (v &&& m) ||| (v' &&& m') := by
  apply BitVec.eq_of_getLsbD_eq
  intro i hi
  have hbit := getLsbD_of_disjoint h i
  rw [getLsbD_put, getLsbD_put, BitVec.getLsbD_or, BitVec.getLsbD_or, BitVec.getLsbD_and,
    BitVec.getLsbD_and, BitVec.getLsbD_and, BitVec.getLsbD_not, BitVec.getLsbD_or]
  cases hm : m.getLsbD i with
  | false => cases m'.getLsbD i <;> simp [hi]
  | true =>
      rw [hm, Bool.true_and] at hbit
      simp [hbit]

/-- The field of `len` bits from bit `lo` on, as a number. -/
theorem and_field (a lo len : ℕ) :
    a &&& ((2 ^ len - 1) <<< lo) = 2 ^ lo * (a / 2 ^ lo % 2 ^ len) := by
  apply Nat.eq_of_testBit_eq
  intro i
  rw [Nat.testBit_and, Nat.testBit_shiftLeft, Nat.testBit_two_pow_sub_one,
    Nat.testBit_two_pow_mul, Nat.testBit_mod_two_pow, Nat.testBit_div_two_pow]
  by_cases hlo : lo ≤ i
  · rw [Nat.sub_add_cancel hlo, Bool.and_comm, Bool.and_assoc]
  · simp [hlo]

/-- The field holds the low bits of a number that is shifted there. -/
theorem shiftLeft_and_field (a lo len : ℕ) :
    (a <<< lo) &&& ((2 ^ len - 1) <<< lo) = 2 ^ lo * (a % 2 ^ len) := by
  rw [and_field, Nat.shiftLeft_eq, Nat.mul_div_cancel _ (Nat.two_pow_pos lo)]

end BitField
