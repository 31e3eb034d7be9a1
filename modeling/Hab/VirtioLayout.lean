import Hab.VirtioSend

/-!
# Where the buffers of the guest lie

`init_pool_list` cuts each pool into slots: a guard band, a `struct vh_buf_header` and a
buffer.  `physical_channel_send` copies a header and a payload into a buffer that it has
chosen by the size of the payload alone.  Addresses are counted from the start of the
allocation that holds the pool.
-/

namespace Hab

open Memory

/-- `GUARD_BAND_SZ`. -/
def guardBandSize : ℕ := 20

/-- `sizeof(struct vh_buf_header)`, where pointers have 64 bits. -/
def vhBufHeaderSize : ℕ := 64

/-- `enum pool_type_t`. -/
inductive VhPool
  | out (p : PoolType)
  | ptIn
deriving DecidableEq

namespace VhPool

/-- `OUT_SMALL_BUF_SIZE`, ..., `IN_BUF_SIZE`. -/
def bufSize : VhPool → ℕ
  | out p => p.bufSize
  | ptIn => inBufSize

/-- `OUT_SMALL_BUF_NUM`, ..., `IN_BUF_NUM`. -/
def bufNum : VhPool → ℕ
  | out p => p.bufNum
  | ptIn => 100

/-- `OUT_SMALL_BUF_SLOT`, ..., `IN_BUF_POOL_SLOT`. -/
def bufSlot (pool : VhPool) : ℕ := guardBandSize + vhBufHeaderSize + pool.bufSize

/-- `OUT_SMALL_POOL_SIZE`, ..., `IN_POOL_SIZE`: what `virthab_queue_inbufs` allocates. -/
def poolSize (pool : VhPool) : ℕ := pool.bufSlot * pool.bufNum

end VhPool

/-- `struct vh_buf_header`, with its own address. -/
structure VhBuf where
  hd : ℕ
  buf : ℕ
  size : ℕ
  poolType : VhPool
  index : ℕ
deriving DecidableEq

namespace VhBuf

/-- Where the slot begins: at its guard band. -/
def slotStart (b : VhBuf) : ℕ := b.hd - guardBandSize

def slotEnd (b : VhBuf) : ℕ := b.buf + b.size

/-- The two copies of `physical_channel_send`; `none` if one leaves the allocation. -/
def fill (b : VhBuf) (mem header payload : List UInt8) : Option (List UInt8) := do
  let mem ← store mem b.buf header
  store mem (b.buf + headerSize) payload

end VhBuf

/-- The loop of `init_pool_list`, from `ptr` on, with `n` buffers left from the `i`-th on. -/
def initPoolLoop (pool : VhPool) : ℕ → ℕ → ℕ → List VhBuf
  | _, 0, _ => []
  | ptr, n + 1, i =>
      let buf := ptr + guardBandSize + vhBufHeaderSize
      ⟨ptr + guardBandSize, buf, pool.bufSize, pool, i⟩ ::
        initPoolLoop pool (buf + pool.bufSize) n (i + 1)

/-- The buffers that `init_pool_list` puts on the list of a pool. -/
def VhPool.bufs (pool : VhPool) : List VhBuf := initPoolLoop pool 0 pool.bufNum 0

/-! ## The slots -/

section Slots

variable {pool : VhPool} {b : VhBuf} {ptr n i : ℕ}

/-- A buffer of the loop lies behind its header, in a slot of its own length. -/
theorem mem_initPoolLoop (h : b ∈ initPoolLoop pool ptr n i) :
    ptr ≤ b.slotStart ∧ b.slotEnd ≤ ptr + pool.bufSlot * n ∧ b.size = pool.bufSize ∧
      b.hd = b.slotStart + guardBandSize ∧ b.buf = b.hd + vhBufHeaderSize := by
  induction n generalizing ptr i with
  | zero => cases h
  | succ n ih =>
      have hnext : ptr + guardBandSize + vhBufHeaderSize + pool.bufSize = ptr + pool.bufSlot := by
        rw [VhPool.bufSlot]
        omega
      have hend : ptr + pool.bufSlot * (n + 1) = ptr + pool.bufSlot + pool.bufSlot * n := by
        rw [Nat.mul_succ]
        omega
      rw [hend]
      rcases List.mem_cons.mp h with rfl | h
      · refine ⟨?_, ?_, rfl, ?_, rfl⟩
        · exact (Nat.add_sub_cancel ptr guardBandSize).ge
        · rw [← hnext]
          exact Nat.le_add_right _ _
        · exact congrArg (· + guardBandSize) (Nat.add_sub_cancel ptr guardBandSize).symm
      · rw [hnext] at h
        obtain ⟨hstart, hlast, hrest⟩ := ih h
        exact ⟨Nat.le_trans (Nat.le_add_right _ _) hstart, hlast, hrest⟩

/-- The slots follow one another. -/
theorem pairwise_initPoolLoop :
    (initPoolLoop pool ptr n i).Pairwise fun a b ↦ a.slotEnd ≤ b.slotStart := by
  induction n generalizing ptr i with
  | zero => exact List.Pairwise.nil
  | succ n ih =>
      refine List.Pairwise.cons ?_ ih
      intro b hb
      exact (mem_initPoolLoop hb).1

theorem map_index_initPoolLoop :
    (initPoolLoop pool ptr n i).map VhBuf.index = List.range' i n := by
  induction n generalizing ptr i with
  | zero => rfl
  | succ n ih => rw [initPoolLoop, List.map_cons, ih, List.range'_succ]

theorem inside_bufs (h : b ∈ pool.bufs) : b.slotEnd ≤ pool.poolSize := by
  have hend := (mem_initPoolLoop h).2.1
  rw [Nat.zero_add] at hend
  exact hend

theorem size_of_mem_bufs (h : b ∈ pool.bufs) : b.size = pool.bufSize :=
  (mem_initPoolLoop h).2.2.1

theorem exists_mem_bufs {k : ℕ} (hk : k < pool.bufNum) : ∃ b ∈ pool.bufs, b.index = k := by
  have hmem : k ∈ pool.bufs.map VhBuf.index := by
    rw [VhPool.bufs, map_index_initPoolLoop, List.mem_range']
    exact ⟨k, hk, by omega⟩
  exact List.mem_map.mp hmem

end Slots

/-! ## A send -/

/-- The claim about a payload of `n` bytes: the slots lie apart and inside their pools,
the buffer is large enough for the header and the payload, and nothing outside it is
written. -/
structure SendFits (n : ℕ) : Prop where
  inside : ∀ pool : VhPool, ∀ b ∈ pool.bufs, b.slotEnd ≤ pool.poolSize
  disjoint : ∀ pool : VhPool, pool.bufs.Pairwise fun a b ↦ a.slotEnd ≤ b.slotStart
  fits : ∀ b ∈ (VhPool.out (.ofSize n)).bufs, headerSize + n ≤ b.size
  writes : ∀ b ∈ (VhPool.out (.ofSize n)).bufs, ∀ mem header payload,
    mem.length = (VhPool.out (.ofSize n)).poolSize → header.length = headerSize →
      payload.length = n →
        ∃ mem', b.fill mem header payload = some mem' ∧
          ∀ i, i < b.buf ∨ b.buf + b.size ≤ i → mem'[i]? = mem[i]?

/-- Copies that fit write to the buffer only. -/
theorem VhBuf.fill_eq_some {b : VhBuf} {mem header payload : List UInt8}
    (hmem : b.slotEnd ≤ mem.length) (hheader : header.length = headerSize)
    (hfits : headerSize + payload.length ≤ b.size) :
    ∃ mem', b.fill mem header payload = some mem' ∧
      ∀ i, i < b.buf ∨ b.buf + b.size ≤ i → mem'[i]? = mem[i]? := by
  rw [VhBuf.slotEnd] at hmem
  obtain ⟨mem₁, hfirst⟩ : ∃ mem₁, store mem b.buf header = some mem₁ :=
    ⟨_, store_eq_some mem b.buf header (by omega)⟩
  have hlen := length_of_store hfirst
  obtain ⟨mem₂, hsecond⟩ : ∃ mem₂, store mem₁ (b.buf + headerSize) payload = some mem₂ :=
    ⟨_, store_eq_some mem₁ _ payload (by omega)⟩
  refine ⟨mem₂, ?_, ?_⟩
  · rw [VhBuf.fill, hfirst]
    exact hsecond
  · intro i hi
    rw [getElem?_of_store hsecond, getElem?_of_store hfirst, if_neg (by omega), if_neg (by omega)]

theorem ofSize_small {n : ℕ} (h : n ≤ 512) : PoolType.ofSize n = .outSmall := if_pos h

/-- The medium pool is never chosen: no size is above 512 and at most the number of medium
buffers. -/
theorem ofSize_large {n : ℕ} (h : 512 < n) : PoolType.ofSize n = .outLarge := by
  have hsmall : ¬ n ≤ PoolType.bufSize .outSmall := Nat.not_le.mpr h
  have hmedium : ¬ n ≤ PoolType.bufNum .outMedium := by
    rw [PoolType.bufNum]
    omega
  rw [PoolType.ofSize, if_neg hsmall, if_neg hmedium]

/-- A send keeps to its buffer exactly where the header still fits behind the limit of
the size class. -/
theorem sendFits_iff (n : ℕ) :
    SendFits n ↔ headerSize + n ≤ PoolType.bufSize .outSmall ∨
      PoolType.bufSize .outSmall < n ∧ headerSize + n ≤ PoolType.bufSize .outLarge := by
  have hsize : headerSize + n ≤ (PoolType.ofSize n).bufSize ↔
      headerSize + n ≤ PoolType.bufSize .outSmall ∨
        PoolType.bufSize .outSmall < n ∧ headerSize + n ≤ PoolType.bufSize .outLarge := by
    rcases Nat.lt_or_ge 512 n with hlarge | hsmall
    · rw [ofSize_large hlarge]
      simp only [PoolType.bufSize, headerSize]
      omega
    · rw [ofSize_small hsmall]
      simp only [PoolType.bufSize, headerSize]
      omega
  rw [← hsize]
  constructor
  · intro h
    obtain ⟨b, hb, -⟩ : ∃ b ∈ (VhPool.out (.ofSize n)).bufs, b.index = 0 := by
      apply exists_mem_bufs
      rw [VhPool.bufNum]
      cases PoolType.ofSize n <;> decide
    have hfits := h.fits b hb
    rw [size_of_mem_bufs hb] at hfits
    exact hfits
  · intro h
    have hfits : ∀ b ∈ (VhPool.out (.ofSize n)).bufs, headerSize + n ≤ b.size := by
      intro b hb
      rw [size_of_mem_bufs hb]
      exact h
    refine ⟨fun pool b hb ↦ inside_bufs hb, fun pool ↦ pairwise_initPoolLoop, hfits, ?_⟩
    intro b hb mem header payload hmem hheader hpayload
    apply VhBuf.fill_eq_some
    · rw [hmem]
      exact inside_bufs hb
    · exact hheader
    · rw [hpayload]
      exact hfits b hb

/-- 500 bytes do not fit behind the header in a small buffer. -/
theorem not_sendFits : ¬ ∀ n, n ≤ PoolType.bufSize .outLarge → SendFits n := by
  intro h
  have hfits := (h 500 (by decide)).fits ⟨20, 84, 512, .out .outSmall, 0⟩ List.mem_cons_self
  exact absurd hfits (by decide)

end Hab
