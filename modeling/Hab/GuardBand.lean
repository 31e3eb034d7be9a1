import Hab.ReceivedFrames
import Hab.VirtioLayout

/-!
# Frames in the pools of the guest

A frame is written to a buffer that was chosen by the size of its payload alone.  Where
header and payload together are longer than the buffer, the frame reaches into the guard
band of the next slot, which is as long as a header and is never read: only in the last
slot of a pool there is none.
-/

namespace Hab

open Memory

/-- The buffer of a header, as `init_pool_list` has laid it out. -/
def VhBufHeader.vhBuf (hd : VhBufHeader) : Option VhBuf := (VhPool.out hd.poolType).bufs[hd.index]?

/-- `hd->buf`. -/
def VhBufHeader.outbuf (hd : VhBufHeader) : ℕ :=
  hd.index * (VhPool.out hd.poolType).bufSlot + guardBandSize + vhBufHeaderSize

namespace TxLink

/-- The frame in a buffer, as the memory is now. -/
def frameAt (pools : PoolType → List UInt8) (hd : VhBufHeader) (len : ℕ) : List UInt8 :=
  ((pools hd.poolType).drop hd.outbuf).take len

/-- The copies of a send into the buffer of `hd`. -/
def fillAt (pools : PoolType → List UInt8) (hd : VhBufHeader) (frame : SendNode) :
    Option (List UInt8) :=
  hd.vhBuf.bind fun b ↦ b.fill (pools hd.poolType) frame.header.bytes frame.payload

/-- What a frame copied into the buffer of `hd` makes of the memory of its pool: it lies there,
all else is as it was, and if it is longer than the buffer it ends in the guard band of the
next one, in front of the `struct vh_buf_header` there. -/
structure Filled (hd : VhBufHeader) (frame : SendNode) (mem mem' : List UInt8) : Prop where
  written : (mem'.drop hd.outbuf).take (headerSize + frame.payload.length) = frame.bytes
  unchanged : ∀ i, i < hd.outbuf ∨ hd.outbuf + (headerSize + frame.payload.length) ≤ i →
    mem'[i]? = mem[i]?
  guardBand : hd.poolType.bufSize < headerSize + frame.payload.length →
    ∃ next, ({ hd with index := hd.index + 1 } : VhBufHeader).vhBuf = some next ∧
      next.slotStart < hd.outbuf + (headerSize + frame.payload.length) ∧
        hd.outbuf + (headerSize + frame.payload.length) ≤ next.hd

section Memory

variable {pool : VhPool} {hd : VhBufHeader} {pools : PoolType → List UInt8}

/-- The `k`-th buffer of the loop of `init_pool_list`. -/
theorem getElem?_initPoolLoop {ptr n i k : ℕ} (hk : k < n) :
    (initPoolLoop pool ptr n i)[k]? = some
      ⟨ptr + k * pool.bufSlot + guardBandSize,
        ptr + k * pool.bufSlot + guardBandSize + vhBufHeaderSize, pool.bufSize, pool, i + k⟩ := by
  induction n generalizing ptr i k with
  | zero => cases hk
  | succ n ih =>
      cases k with
      | zero => simp [initPoolLoop]
      | succ k =>
          have hptr : ptr + guardBandSize + vhBufHeaderSize + pool.bufSize + k * pool.bufSlot =
              ptr + (k + 1) * pool.bufSlot := by
            rw [Nat.succ_mul, VhPool.bufSlot]
            omega
          have hi : i + 1 + k = i + (k + 1) := by omega
          rw [initPoolLoop, List.getElem?_cons_succ, ih (by omega), hptr, hi]

theorem vhBuf_eq (h : hd.index < hd.poolType.bufNum) :
    hd.vhBuf = some ⟨hd.index * (VhPool.out hd.poolType).bufSlot + guardBandSize, hd.outbuf,
      hd.poolType.bufSize, .out hd.poolType, hd.index⟩ := by
  have hbuf : (VhPool.out hd.poolType).bufs[hd.index]? = _ := getElem?_initPoolLoop h
  rw [Nat.zero_add, Nat.zero_add] at hbuf
  exact hbuf

/-- The copies leave the header and the payload in the buffer, one behind the other, and
the rest of the pool as it was. -/
theorem getElem?_of_fill {b : VhBuf} {mem mem' header payload : List UInt8}
    (hheader : header.length = headerSize) (h : b.fill mem header payload = some mem') (i : ℕ) :
    mem'[i]? = if b.buf ≤ i ∧ i < b.buf + (headerSize + payload.length) then
      (header ++ payload)[i - b.buf]? else mem[i]? := by
  rw [VhBuf.fill] at h
  obtain ⟨mem₁, hfirst, hsecond⟩ := Option.bind_eq_some_iff.mp h
  rw [getElem?_of_store hsecond, getElem?_of_store hfirst, hheader]
  rcases Nat.lt_or_ge i b.buf with hlt | hge
  · rw [if_neg (by omega), if_neg (by omega), if_neg (by omega)]
  · rcases Nat.lt_or_ge i (b.buf + headerSize) with hin | hout
    · rw [if_neg (by omega), if_pos (by omega), if_pos (by omega),
        List.getElem?_append_left (by omega)]
    · rcases Nat.lt_or_ge i (b.buf + (headerSize + payload.length)) with hin | hbehind
      · rw [if_pos (by omega), if_pos (by omega), List.getElem?_append_right (by omega), hheader,
          Nat.sub_sub]
      · rw [if_neg (by omega), if_neg (by omega), if_neg (by omega)]

theorem length_of_fill {b : VhBuf} {mem mem' header payload : List UInt8}
    (h : b.fill mem header payload = some mem') :
    mem'.length = mem.length ∧ b.buf + (headerSize + payload.length) ≤ mem.length := by
  rw [VhBuf.fill] at h
  obtain ⟨mem₁, hfirst, hsecond⟩ := Option.bind_eq_some_iff.mp h
  have hlen := length_of_store hfirst
  have hle := le_of_store hsecond
  exact ⟨(length_of_store hsecond).trans hlen, by omega⟩

/-- Two buffers of a pool lie further apart than the longest frame. -/
theorem outbuf_disjoint {hd' : VhBufHeader} (hpool : hd.poolType = hd'.poolType) (hne : hd ≠ hd') :
    hd.outbuf + (headerSize + hd.poolType.bufSize) ≤ hd'.outbuf ∨
      hd'.outbuf + (headerSize + hd.poolType.bufSize) ≤ hd.outbuf := by
  have hindex : hd.index ≠ hd'.index := by
    intro heq
    cases hd
    cases hd'
    cases hpool
    cases heq
    exact hne rfl
  have hslot : headerSize + hd.poolType.bufSize ≤ (VhPool.out hd.poolType).bufSlot := by
    simp only [VhPool.bufSlot, VhPool.bufSize, headerSize, guardBandSize, vhBufHeaderSize]
    omega
  rw [VhBufHeader.outbuf, VhBufHeader.outbuf, ← hpool]
  rcases Nat.lt_or_gt_of_ne hindex with hlt | hlt
  · left
    have hmul := Nat.mul_le_mul_right (VhPool.out hd.poolType).bufSlot hlt
    rw [Nat.succ_mul] at hmul
    omega
  · right
    have hmul := Nat.mul_le_mul_right (VhPool.out hd.poolType).bufSlot hlt
    rw [Nat.succ_mul] at hmul
    omega

variable {frame : SendNode} {mem : List UInt8}

theorem fillAt_eq (h : hd.index < hd.poolType.bufNum) : fillAt pools hd frame =
    VhBuf.fill ⟨hd.index * (VhPool.out hd.poolType).bufSlot + guardBandSize, hd.outbuf,
      hd.poolType.bufSize, .out hd.poolType, hd.index⟩ (pools hd.poolType) frame.header.bytes
        frame.payload := by
  rw [fillAt, vhBuf_eq h, Option.bind_some]

theorem length_header (node : SendNode) : node.header.bytes.length = headerSize := by
  rw [HabFullHeader.bytes, Bytes.length_layout]
  rfl

theorem frameAt_fill_self (hindex : hd.index < hd.poolType.bufNum)
    (hfill : fillAt pools hd frame = some mem) :
    frameAt (Function.update pools hd.poolType mem) hd (headerSize + frame.payload.length) =
      frame.bytes := by
  rw [fillAt_eq hindex] at hfill
  obtain ⟨hlen, hle⟩ := length_of_fill hfill
  have hbytes := frame.length_bytes
  rw [frameAt, Function.update_self]
  apply List.ext_getElem?
  intro i
  rcases Nat.lt_or_ge i (headerSize + frame.payload.length) with hi | hi
  · rw [List.getElem?_take_of_lt hi, List.getElem?_drop,
      getElem?_of_fill (length_header frame) hfill, if_pos (by dsimp only; omega),
      Nat.add_sub_cancel_left]
    rfl
  · rw [List.getElem?_eq_none (by rw [List.length_take]; omega),
      List.getElem?_eq_none (by omega)]

theorem le_length_frameAt {len : ℕ} (hindex : hd.index < hd.poolType.bufNum)
    (hpool : (pools hd.poolType).length = (VhPool.out hd.poolType).poolSize)
    (hlen : headerSize ≤ len) : headerSize ≤ (frameAt pools hd len).length := by
  have hslot : (VhPool.out hd.poolType).bufSlot =
      guardBandSize + vhBufHeaderSize + hd.poolType.bufSize := rfl
  have hnum : (VhPool.out hd.poolType).poolSize =
      hd.poolType.bufNum * (VhPool.out hd.poolType).bufSlot := Nat.mul_comm _ _
  have hsize : headerSize ≤ hd.poolType.bufSize := by
    cases hd.poolType <;> decide
  have hle := Nat.mul_le_mul_right (VhPool.out hd.poolType).bufSlot (Nat.succ_le_of_lt hindex)
  rw [Nat.succ_mul] at hle
  rw [frameAt, List.length_take, List.length_drop, hpool, hnum, VhBufHeader.outbuf]
  omega

/-- A send leaves the frames in other buffers as they are. -/
theorem frameAt_fill_of_ne {hd' : VhBufHeader} {len : ℕ} (hindex : hd.index < hd.poolType.bufNum)
    (hfill : fillAt pools hd frame = some mem) (hsize : frame.payload.length ≤ hd.poolType.bufSize)
    (hne : hd ≠ hd') (hlen : len ≤ headerSize + hd'.poolType.bufSize) :
    frameAt (Function.update pools hd.poolType mem) hd' len = frameAt pools hd' len := by
  rw [fillAt_eq hindex] at hfill
  rw [frameAt, frameAt]
  by_cases hpool : hd.poolType = hd'.poolType
  · rw [← hpool, Function.update_self]
    have hapart := outbuf_disjoint hpool hne
    rw [← hpool] at hlen
    apply List.ext_getElem?
    intro i
    rcases Nat.lt_or_ge i len with hi | hi
    · rw [List.getElem?_take_of_lt hi, List.getElem?_take_of_lt hi, List.getElem?_drop,
        List.getElem?_drop, getElem?_of_fill (length_header frame) hfill]
      rw [if_neg (by dsimp only; omega)]
    · rw [List.getElem?_eq_none (by rw [List.length_take]; omega),
        List.getElem?_eq_none (by rw [List.length_take]; omega)]
  · rw [Function.update_of_ne (Ne.symm hpool)]

/-- The copies leave the pool only from its last buffer, and only if header and payload
together are longer than that. -/
theorem fillAt_eq_none_iff (hindex : hd.index < hd.poolType.bufNum)
    (hpool : (pools hd.poolType).length = (VhPool.out hd.poolType).poolSize)
    (hsize : frame.payload.length ≤ hd.poolType.bufSize) :
    fillAt pools hd frame = none ↔ hd.index + 1 = hd.poolType.bufNum ∧
      hd.poolType.bufSize < headerSize + frame.payload.length := by
  have hslot : (VhPool.out hd.poolType).bufSlot =
      guardBandSize + vhBufHeaderSize + hd.poolType.bufSize := rfl
  have hnum : (VhPool.out hd.poolType).poolSize =
      hd.poolType.bufNum * (VhPool.out hd.poolType).bufSlot := Nat.mul_comm _ _
  have hle := Nat.mul_le_mul_right (VhPool.out hd.poolType).bufSlot (Nat.succ_le_of_lt hindex)
  rw [Nat.succ_mul] at hle
  have hfits : fillAt pools hd frame ≠ none ↔
      hd.outbuf + (headerSize + frame.payload.length) ≤ (pools hd.poolType).length := by
    rw [fillAt_eq hindex]
    constructor
    · intro hsome
      obtain ⟨mem, hmem⟩ := Option.ne_none_iff_exists'.mp hsome
      exact (length_of_fill hmem).2
    · intro hroom
      rw [VhBuf.fill, store_eq_some _ _ _ (by rw [length_header]; dsimp only; omega)]
      refine (Option.ne_none_iff_exists'.mpr ⟨_, store_eq_some _ _ _ ?_⟩)
      have hlen := length_of_store (store_eq_some (pools hd.poolType) hd.outbuf
        frame.header.bytes (by rw [length_header]; omega))
      dsimp only
      omega
  rw [← not_iff_not, ← ne_eq, hfits, hpool, hnum, VhBufHeader.outbuf]
  simp only [guardBandSize, vhBufHeaderSize, headerSize] at hslot ⊢
  rcases Nat.lt_or_ge (hd.index + 1) hd.poolType.bufNum with hlt | hge
  · -- the guard band of the next slot is long enough for a header
    have hnext := Nat.mul_le_mul_right (VhPool.out hd.poolType).bufSlot (Nat.succ_le_of_lt hlt)
    rw [Nat.succ_mul, Nat.succ_mul] at hnext
    refine iff_of_true ?_ fun h ↦ absurd h.1 hlt.ne
    omega
  · have hlast : hd.index + 1 = hd.poolType.bufNum := by omega
    rw [← hlast, Nat.succ_mul]
    simp only [true_and, not_lt]
    omega

/-- Copies that do not leave the pool. -/
theorem filled_of_fillAt (hindex : hd.index < hd.poolType.bufNum)
    (hpool : (pools hd.poolType).length = (VhPool.out hd.poolType).poolSize)
    (hsize : frame.payload.length ≤ hd.poolType.bufSize) (hfill : fillAt pools hd frame = some mem) :
    Filled hd frame (pools hd.poolType) mem where
  written := by
    have hframe := frameAt_fill_self hindex hfill
    rw [frameAt, Function.update_self] at hframe
    exact hframe
  unchanged := by
    intro i hi
    rw [fillAt_eq hindex] at hfill
    rw [getElem?_of_fill (length_header frame) hfill]
    exact if_neg (by dsimp only; omega)
  guardBand := by
    intro hover
    have hnext : hd.index + 1 < hd.poolType.bufNum := by
      have hnotLast : ¬ (hd.index + 1 = hd.poolType.bufNum ∧
          hd.poolType.bufSize < headerSize + frame.payload.length) := by
        rw [← fillAt_eq_none_iff hindex hpool hsize, hfill]
        exact Option.some_ne_none mem
      rw [and_iff_left hover] at hnotLast
      omega
    refine ⟨_, @vhBuf_eq { hd with index := hd.index + 1 } hnext, ?_, ?_⟩
    · rw [VhBuf.slotStart, Nat.add_sub_cancel, VhBufHeader.outbuf]
      dsimp only
      rw [Nat.succ_mul, VhPool.bufSlot, VhPool.bufSize]
      omega
    · rw [VhBufHeader.outbuf]
      dsimp only
      rw [Nat.succ_mul, VhPool.bufSlot, VhPool.bufSize]
      simp only [headerSize, guardBandSize] at hsize ⊢
      omega

end Memory

end TxLink

end Hab
