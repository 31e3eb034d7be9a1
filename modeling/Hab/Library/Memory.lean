import Mathlib.Data.List.Basic
import Mathlib.Tactic.Common

/-!
# Bounded memory and rings laid out in it

A block of memory is a list of cells.  A copy that would leave its block has
no result.  A ring of `mem.length` cells keeps a stream at the positions
taken modulo its length; `Holds` says which stretch of the stream it keeps.
-/

namespace Memory

variable {α : Type*}

/-- Read `n` cells from `off` on. -/
def load (mem : List α) (off n : ℕ) : Option (List α) :=
  if off + n ≤ mem.length then some ((mem.drop off).take n) else none

/-- Overwrite the cells from `off` on with `src`. -/
def store (mem : List α) (off : ℕ) (src : List α) : Option (List α) :=
  if off + src.length ≤ mem.length then
    some (mem.take off ++ (src ++ mem.drop (off + src.length)))
  else none

theorem load_eq_some {mem : List α} {off n : ℕ} (h : off + n ≤ mem.length) :
    load mem off n = some ((mem.drop off).take n) := if_pos h

theorem store_eq_some (mem : List α) (off : ℕ) (src : List α)
    (h : off + src.length ≤ mem.length) :
    store mem off src = some (mem.take off ++ (src ++ mem.drop (off + src.length))) := if_pos h

theorem le_of_load {mem out : List α} {off n : ℕ} (h : load mem off n = some out) :
    off + n ≤ mem.length := by
  by_contra hout
  rw [load, if_neg hout] at h
  cases h

theorem le_of_store {mem src out : List α} {off : ℕ} (h : store mem off src = some out) :
    off + src.length ≤ mem.length := by
  by_contra hout
  rw [store, if_neg hout] at h
  cases h

theorem length_of_load {mem out : List α} {off n : ℕ} (h : load mem off n = some out) :
    out.length = n := by
  unfold load at h
  split at h
  · cases h
    simp
    omega
  · cases h

theorem getElem?_of_load {mem out : List α} {off n : ℕ} (h : load mem off n = some out)
    {i : ℕ} (hi : i < n) : out[i]? = mem[off + i]? := by
  unfold load at h
  split at h
  · cases h
    simp [hi]
  · cases h

theorem length_of_store {mem src out : List α} {off : ℕ} (h : store mem off src = some out) :
    out.length = mem.length := by
  unfold store at h
  split at h
  · cases h
    simp
    omega
  · cases h

theorem getElem?_of_store {mem src out : List α} {off : ℕ}
    (h : store mem off src = some out) (i : ℕ) :
    out[i]? = if off ≤ i ∧ i < off + src.length then src[i - off]? else mem[i]? := by
  unfold store at h
  split at h
  · rename_i hfits
    cases h
    have hlen : (mem.take off).length = off := by simp; omega
    rcases Nat.lt_or_ge i off with hlt | hge
    · rw [List.getElem?_append_left (by omega), if_neg (by omega), List.getElem?_take_of_lt hlt]
    · rw [List.getElem?_append_right (by omega), hlen]
      rcases Nat.lt_or_ge i (off + src.length) with hin | hout
      · rw [if_pos ⟨hge, hin⟩, List.getElem?_append_left (by omega)]
      · rw [if_neg (by omega), List.getElem?_append_right (by omega), List.getElem?_drop]
        congr 1
        omega
  · cases h

theorem store_of_load {mem src : List α} {off n : ℕ} (h : load mem off n = some src) :
    store mem off src = some mem := by
  have hlen := length_of_load h
  unfold load at h
  split at h
  · rename_i hfits
    cases h
    rw [store_eq_some mem off _ (by omega), hlen, ← List.drop_drop, List.take_append_drop,
      List.take_append_drop]
  · cases h

theorem load_of_store {mem src out : List α} {off : ℕ} (h : store mem off src = some out) :
    load out off src.length = some src := by
  have hlen := length_of_store h
  unfold store at h
  split at h
  · rename_i hfits
    cases h
    have htake : (mem.take off).length = off := by
      rw [List.length_take]
      omega
    rw [load_eq_some (by omega), List.drop_left' htake, List.take_left' rfl]
  · cases h

theorem load_of_store_before {mem src out : List α} {off lo n : ℕ}
    (h : store mem off src = some out) (hbefore : lo + n ≤ off) :
    load out lo n = load mem lo n := by
  have hlen := length_of_store h
  unfold store at h
  split at h
  · rename_i hfits
    cases h
    have htake : (mem.take off).length = off := by
      rw [List.length_take]
      omega
    rw [load_eq_some (by omega), load_eq_some (by omega),
      List.drop_append_of_le_length (by omega),
      List.take_append_of_le_length (by rw [List.length_drop]; omega), List.drop_take,
      List.take_take, Nat.min_eq_left (by omega)]
  · cases h

/-- Two copies that follow each other leave their bytes in one stretch. -/
theorem take_of_store_store {mem mem' mem'' first second : List α}
    (h : store mem 0 first = some mem') (h' : store mem' first.length second = some mem'') :
    mem''.take (first.length + second.length) = first ++ second := by
  unfold store at h h'
  split at h <;> cases h
  split at h' <;> cases h'
  simp [← List.append_assoc, ← List.length_append]

/-- A buffer whose first `k` cells are those of `src`. -/
def filledTo (dst src : List α) (k : ℕ) : List α := src.take k ++ dst.drop k

theorem filledTo_zero (dst src : List α) : filledTo dst src 0 = dst := by
  rw [filledTo, List.take_zero, List.drop_zero, List.nil_append]

/-- A copy of the next cells of `src` goes on where the last one ended. -/
theorem store_filledTo {dst src : List α} {k j : ℕ} (hsrc : k + j ≤ src.length)
    (hdst : src.length ≤ dst.length) :
    store (filledTo dst src k) k ((src.drop k).take j) = some (filledTo dst src (k + j)) := by
  have hlen : ((src.drop k).take j).length = j := by
    rw [List.length_take, List.length_drop]
    omega
  have htake : (src.take k).length = k := by
    rw [List.length_take]
    omega
  have hfits : k + ((src.drop k).take j).length ≤ (filledTo dst src k).length := by
    rw [hlen, filledTo, List.length_append, htake, List.length_drop]
    omega
  have hrest : (filledTo dst src k).drop (k + j) = dst.drop (k + j) := by
    rw [filledTo, ← List.drop_drop, List.drop_left' htake, List.drop_drop]
  rw [store_eq_some _ _ _ hfits, hlen, hrest, filledTo, List.take_left' htake, filledTo,
    List.take_add, List.append_assoc]

/-! ## Rings -/

/-- The ring keeps the stretch `[lo, hi)` of the stream. -/
def Holds (ring stream : List α) (lo hi : ℕ) : Prop :=
  ∀ k, lo ≤ k → k < hi → ring[k % ring.length]? = stream[k]?

theorem Holds.mono {ring stream : List α} {lo hi lo' hi' : ℕ}
    (h : Holds ring stream lo hi) (hlo : lo ≤ lo') (hhi : hi' ≤ hi) :
    Holds ring stream lo' hi' :=
  fun k hk hk' ↦ h k (by omega) (by omega)

/-- Two positions less than a ring apart share no cell. -/
theorem mod_ne_of_lt {n a b : ℕ} (hab : a < b) (hb : b < a + n) : a % n ≠ b % n := by
  intro heq
  have hdvd : n ∣ b - a := Nat.dvd_of_mod_eq_zero (Nat.sub_mod_eq_zero_of_mod_eq heq.symm)
  exact absurd (Nat.le_of_dvd (by omega) hdvd) (by omega)

/-- The cell of a position, from the cell of an earlier one: at most one lap. -/
theorem add_mod_of_lt {n k i : ℕ} (hi : i < n) :
    (k + i) % n = if k % n + i < n then k % n + i else k % n + i - n := by
  have hn : 0 < n := by omega
  have hk := Nat.mod_lt k hn
  rw [Nat.add_mod, Nat.mod_eq_of_lt hi]
  split
  · rename_i h
    exact Nat.mod_eq_of_lt h
  · rw [Nat.mod_eq_sub_mod (by omega), Nat.mod_eq_of_lt (by omega)]

/-- A copy into the ring that is split where the ring ends extends the
stretch it keeps, as long as there is room for it. -/
theorem Holds.store_split {ring ring'' stream src : List α} (ring' : List α) {lo : ℕ}
    (hkeep : Holds ring stream lo stream.length) (hlo : lo ≤ stream.length)
    (hroom : stream.length + src.length ≤ lo + ring.length) (count : ℕ)
    (hcount : count = min src.length (ring.length - stream.length % ring.length))
    (hfirst : store ring (stream.length % ring.length) (src.take count) = some ring')
    (hsecond : store ring' 0 (src.drop count) = some ring'') :
    Holds ring'' (stream ++ src) lo (stream ++ src).length := by
  have hlen' := length_of_store hfirst
  have hlen'' := length_of_store hsecond
  intro k hk hk'
  rw [List.length_append] at hk'
  have hpos : 0 < ring.length := by omega
  have hmod := Nat.mod_lt stream.length hpos
  have hkm := Nat.mod_lt k hpos
  rw [hlen'', hlen', getElem?_of_store hsecond, getElem?_of_store hfirst]
  rcases Nat.lt_or_ge k stream.length with hold | hnew
  · -- an old position lies in neither of the two copies
    have hfree : ∀ i < src.length, k % ring.length ≠ (stream.length + i) % ring.length :=
      fun i hi ↦ mod_ne_of_lt (by omega) (by omega)
    have hout : ¬ (0 ≤ k % ring.length ∧ k % ring.length < 0 + (src.drop count).length) := by
      rintro ⟨-, h⟩
      rw [List.length_drop] at h
      apply hfree (count + k % ring.length) (by omega)
      rw [add_mod_of_lt (by omega), if_neg (by omega)]
      omega
    have hin : ¬ (stream.length % ring.length ≤ k % ring.length ∧
        k % ring.length < stream.length % ring.length + (src.take count).length) := by
      rintro ⟨h, h'⟩
      rw [List.length_take] at h'
      apply hfree (k % ring.length - stream.length % ring.length) (by omega)
      rw [add_mod_of_lt (by omega), if_pos (by omega)]
      omega
    rw [if_neg hout, if_neg hin, hkeep k hk hold, List.getElem?_append_left hold]
  · -- a new position is the one cell of the copy that reaches it
    obtain ⟨i, rfl⟩ := Nat.exists_eq_add_of_le hnew
    have hcell := add_mod_of_lt (n := ring.length) (k := stream.length) (i := i) (by omega)
    rw [List.getElem?_append_right (by omega), Nat.add_sub_cancel_left, List.length_drop,
      List.length_take]
    rcases Nat.lt_or_ge i count with hi | hi
    · rw [if_pos (by omega)] at hcell
      rw [if_neg (by omega), if_pos (by omega), hcell, Nat.add_sub_cancel_left,
        List.getElem?_take_of_lt hi]
    · rw [if_neg (by omega)] at hcell
      rw [if_pos (by omega), List.getElem?_drop]
      congr 1
      omega

/-- A copy out of the ring that is split where the ring ends is the stretch
of the stream from its start on. -/
theorem Holds.load_split {ring stream first second : List α} {lo hi n : ℕ}
    (hkeep : Holds ring stream lo hi) (hhi : lo + n ≤ hi) (hn : n ≤ ring.length) {count : ℕ}
    (hcount : count = min n (ring.length - lo % ring.length))
    (hfirst : load ring (lo % ring.length) count = some first)
    (hsecond : load ring 0 (n - count) = some second) :
    first ++ second = (stream.drop lo).take n := by
  have hlen := length_of_load hfirst
  have hlen' := length_of_load hsecond
  apply List.ext_getElem?
  intro i
  rcases Nat.lt_or_ge i n with hi | hi
  · have hpos : 0 < ring.length := by omega
    have hmod := Nat.mod_lt lo hpos
    have hcell := add_mod_of_lt (n := ring.length) (k := lo) (i := i) (by omega)
    have hget := hkeep (lo + i) (by omega) (by omega)
    rw [List.getElem?_take_of_lt hi, List.getElem?_drop, ← hget, hcell]
    rcases Nat.lt_or_ge i count with h | h
    · rw [List.getElem?_append_left (by omega), getElem?_of_load hfirst h, if_pos (by omega)]
    · rw [List.getElem?_append_right (by omega), getElem?_of_load hsecond (by omega),
        if_neg (by omega)]
      congr 1
      omega
  · rw [List.getElem?_eq_none (by simp; omega), List.getElem?_eq_none (by simp; omega)]

end Memory
