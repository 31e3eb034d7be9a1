import Mathlib.Algebra.Order.Ring.Nat
import Mathlib.Algebra.BigOperators.Group.List.Basic
import Mathlib.Tactic.Common
import Hab.Library.Memory

/-!
# Words in memory

Words of a fixed width lie in a block of bytes with the least significant byte
first.  A packed structure is the list of its fields, each with its width.
-/

namespace Bytes

/-- The lowest `w` bytes of `n`. -/
def encode : ℕ → ℕ → List UInt8
  | 0, _ => []
  | w + 1, n => UInt8.ofNat n :: encode w (n / 256)

def decode : List UInt8 → ℕ
  | [] => 0
  | b :: bs => b.toNat + 256 * decode bs

/-- The word of `w` bytes at `off`, if it lies in the block. -/
def word (mem : List UInt8) (off w : ℕ) : Option ℕ := (Memory.load mem off w).map decode

/-- A packed structure. -/
def layout (fields : List (ℕ × ℕ)) : List UInt8 := fields.flatMap fun f ↦ encode f.1 f.2

def size (fields : List (ℕ × ℕ)) : ℕ := (fields.map Prod.fst).sum

@[simp] theorem length_encode (w n : ℕ) : (encode w n).length = w := by
  induction w generalizing n with
  | zero => rfl
  | succ w ih => rw [encode, List.length_cons, ih]

theorem decode_encode (w n : ℕ) : decode (encode w n) = n % 256 ^ w := by
  induction w generalizing n with
  | zero => simp [encode, decode, Nat.mod_one]
  | succ w ih =>
      have hbyte : (UInt8.ofNat n).toNat = n % 256 := UInt8.toNat_ofNat'
      rw [encode, decode, ih, hbyte, Nat.pow_succ', Nat.mod_mul]

theorem decode_encode_of_lt {w n : ℕ} (h : n < 256 ^ w) : decode (encode w n) = n := by
  rw [decode_encode, Nat.mod_eq_of_lt h]

theorem encode_injective {w n m : ℕ} (hn : n < 256 ^ w) (hm : m < 256 ^ w)
    (h : encode w n = encode w m) : n = m := by
  have hdecode := congrArg decode h
  rwa [decode_encode_of_lt hn, decode_encode_of_lt hm] at hdecode

/-- A word can be read exactly where the block holds all its bytes. -/
theorem isSome_word {mem : List UInt8} {off w : ℕ} :
    (word mem off w).isSome ↔ off + w ≤ mem.length := by
  rw [word, Option.isSome_map, Memory.load]
  by_cases h : off + w ≤ mem.length
  · simp [h]
  · simp [h]

theorem exists_word {mem : List UInt8} {off w : ℕ} (h : off + w ≤ mem.length) :
    ∃ n, word mem off w = some n :=
  Option.isSome_iff_exists.mp (isSome_word.mpr h)

theorem word_drop {mem : List UInt8} {k : ℕ} (hk : k ≤ mem.length) (off w : ℕ) :
    word (mem.drop k) off w = word mem (k + off) w := by
  rw [word, word, Memory.load, Memory.load, List.length_drop, List.drop_drop]
  by_cases h : k + off + w ≤ mem.length
  · rw [if_pos (by omega), if_pos h]
  · rw [if_neg (by omega), if_neg h]

theorem word_take {mem : List UInt8} {k off w : ℕ} (h : off + w ≤ k) :
    word (mem.take k) off w = word mem off w := by
  rw [word, word, Memory.load, Memory.load, List.length_take, List.drop_take, List.take_take,
    Nat.min_eq_left (by omega : w ≤ k - off)]
  by_cases hlen : off + w ≤ mem.length
  · rw [if_pos (by omega), if_pos hlen]
  · rw [if_neg (by omega), if_neg hlen]

theorem word_append (pre post : List UInt8) (w n : ℕ) :
    word (pre ++ (encode w n ++ post)) pre.length w = some (n % 256 ^ w) := by
  have hlen : pre.length + w ≤ (pre ++ (encode w n ++ post)).length := by
    simp only [List.length_append, length_encode]
    omega
  rw [word, Memory.load_eq_some hlen, Option.map_some, List.drop_left,
    List.take_left' (length_encode w n), decode_encode]

theorem word_append_of_lt (pre post : List UInt8) {w n : ℕ} (h : n < 256 ^ w) :
    word (pre ++ (encode w n ++ post)) pre.length w = some n := by
  rw [word_append, Nat.mod_eq_of_lt h]

/-! ## Packed structures -/

@[simp] theorem layout_nil : layout [] = [] := rfl

@[simp] theorem layout_cons (f : ℕ × ℕ) (fields : List (ℕ × ℕ)) :
    layout (f :: fields) = encode f.1 f.2 ++ layout fields := rfl

theorem layout_append (fields fields' : List (ℕ × ℕ)) :
    layout (fields ++ fields') = layout fields ++ layout fields' :=
  List.flatMap_append

@[simp] theorem size_nil : size [] = 0 := rfl

@[simp] theorem size_cons (f : ℕ × ℕ) (fields : List (ℕ × ℕ)) :
    size (f :: fields) = f.1 + size fields := by
  rw [size, List.map_cons, List.sum_cons, size]

@[simp] theorem length_layout (fields : List (ℕ × ℕ)) : (layout fields).length = size fields := by
  induction fields with
  | nil => rfl
  | cons f fields ih => rw [layout_cons, List.length_append, length_encode, ih, size_cons]

/-- Every field is found at the offset that the widths before it give. -/
theorem word_layout {fields : List (ℕ × ℕ)} {i w n : ℕ} (h : fields[i]? = some (w, n))
    (rest : List UInt8) :
    word (layout fields ++ rest) (size (fields.take i)) w = some (n % 256 ^ w) := by
  obtain ⟨hi, hget⟩ := List.getElem?_eq_some_iff.mp h
  have hsplit : fields = fields.take i ++ (w, n) :: fields.drop (i + 1) := by
    rw [← hget, ← List.drop_eq_getElem_cons hi, List.take_append_drop]
  have hbytes : layout fields ++ rest =
      layout (fields.take i) ++ (encode w n ++ (layout (fields.drop (i + 1)) ++ rest)) := by
    conv_lhs => rw [hsplit]
    rw [layout_append, layout_cons]
    simp only [List.append_assoc]
  rw [hbytes, ← length_layout]
  exact word_append _ _ w n

/-- Two structures of the same widths hold the same bytes only if they agree in
every field. -/
theorem layout_injective {fields fields' : List (ℕ × ℕ)}
    (hwidths : fields.map Prod.fst = fields'.map Prod.fst)
    (hfit : ∀ f ∈ fields, f.2 < 256 ^ f.1) (hfit' : ∀ f ∈ fields', f.2 < 256 ^ f.1)
    (h : layout fields = layout fields') : fields = fields' := by
  induction fields generalizing fields' with
  | nil =>
      cases fields' with
      | nil => rfl
      | cons f' fields' => cases hwidths
  | cons f fields ih =>
      cases fields' with
      | nil => cases hwidths
      | cons f' fields' =>
          rw [List.map_cons, List.map_cons, List.cons.injEq] at hwidths
          rw [layout_cons, layout_cons, hwidths.1] at h
          obtain ⟨hhead, htail⟩ := List.append_inj h (by simp)
          have hf : f.2 < 256 ^ f'.1 := hwidths.1 ▸ hfit f List.mem_cons_self
          have heq : f.2 = f'.2 :=
            encode_injective hf (hfit' f' List.mem_cons_self) hhead
          rw [Prod.ext hwidths.1 heq,
            ih hwidths.2 (fun g hg ↦ hfit g (List.mem_cons_of_mem f hg))
              (fun g hg ↦ hfit' g (List.mem_cons_of_mem f' hg)) htail]

end Bytes
