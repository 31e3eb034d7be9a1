import Hab.PipeReads

/-!
# Which accesses stay in the ring

All fields that the guards of `hab_pipe_write` and `hab_pipe_read` look at lie
in memory the peer can write.  Both guards let an index through that equals
the size of the ring, and a read does not compare the bytes announced with
that size.
-/

namespace Hab

open Memory

/-! ## Writing -/

/-- `hab_pipe_write` returns 0 at once, with a buffer given. -/
def WriteRefused (ep : HabPipeEndpoint) (shBuf : HabSharedBuf) (bufSize numBytes : UInt32) :
    Prop :=
  bufSize < ep.txInfo.wrCount - shBuf.rdCount ∨
    (numBytes > bufSize - (ep.txInfo.wrCount - shBuf.rdCount) ∨ numBytes = 0) ∨
    (bufSize < ep.txInfo.index ∨ bufSize < numBytes)

section Write

variable {ep : HabPipeEndpoint} {shBuf : HabSharedBuf} {bufSize numBytes : UInt32}
  {p : List UInt8}

theorem WriteRefused.habPipeWrite_eq (h : WriteRefused ep shBuf bufSize numBytes)
    (p : List UInt8) :
    habPipeWrite ep shBuf bufSize (some p) numBytes = some (0, ep, shBuf) := by
  unfold habPipeWrite
  by_cases hfull : bufSize < ep.txInfo.wrCount - shBuf.rdCount
  · exact if_pos hfull
  · refine (if_neg hfull).trans ?_
    by_cases hspace : numBytes > bufSize - (ep.txInfo.wrCount - shBuf.rdCount) ∨ numBytes = 0
    · exact if_pos hspace
    · refine (if_neg hspace).trans ?_
      exact if_pos ((h.resolve_left hfull).resolve_left hspace)

/-- Both copies of a write. -/
def copyIntoRing (data p : List UInt8) (bufSize index count : UInt32) :
    Option (List UInt8 × UInt32) := do
  let (data, index') ← copyIn data bufSize index p 0 (count1 bufSize index count)
  copyIn data bufSize index' p (count1 bufSize index count) (count - count1 bufSize index count)

theorem habPipeWrite_isSome_iff (hopen : ¬ WriteRefused ep shBuf bufSize numBytes) :
    (habPipeWrite ep shBuf bufSize (some p) numBytes).isSome ↔
      (copyIntoRing shBuf.data p bufSize ep.txInfo.index numBytes).isSome := by
  rw [WriteRefused, not_or, not_or] at hopen
  obtain ⟨hfull, hspace, hbound⟩ := hopen
  unfold habPipeWrite copyIntoRing count1
  simp only [if_neg hfull, if_neg hspace, if_neg hbound, Option.bind_eq_bind]
  cases copyIn shBuf.data bufSize ep.txInfo.index p 0
      (if numBytes ≤ bufSize - ep.txInfo.index then numBytes
        else bufSize - ep.txInfo.index) with
  | none => rfl
  | some first =>
      obtain ⟨data, index⟩ := first
      simp only [Option.bind_some, Option.isSome_bind]
      simp

/-- From an index in the ring, a copy of no more than a ring of bytes stays in
it. -/
theorem copyIntoRing_of_lt {data : List UInt8} {index count : UInt32}
    (hlen : data.length = bufSize.toNat) (hindex : index.toNat < bufSize.toNat)
    (hcount : count.toNat ≤ bufSize.toNat) (hp : count.toNat ≤ p.length) :
    (copyIntoRing data p bufSize index count).isSome := by
  have hfirst := toNat_count1_eq count (Nat.le_of_lt hindex)
  have hsecond := toNat_count_sub_count1 count (Nat.le_of_lt hindex)
  obtain ⟨data1, hstore, hcopy1⟩ := copyIn_eq p 0 (count1 bufSize index count) hlen hindex
    (by omega) (by rw [UInt32.toNat_zero]; omega)
  have hlen1 := length_of_store hstore
  have hnext : (wrapAt bufSize index (count1 bufSize index count)).toNat < bufSize.toNat := by
    rw [toNat_wrapAt _ (Nat.mod_eq_of_lt hindex).symm (by omega)]
    exact Nat.mod_lt _ (by omega)
  have hfit : (wrapAt bufSize index (count1 bufSize index count)).toNat +
      (count - count1 bufSize index count).toNat ≤ bufSize.toNat := by
    rcases Nat.lt_or_ge (count1 bufSize index count).toNat count.toNat with hlt | hge
    · rw [toNat_wrapAt_of_lt count (Nat.mod_eq_of_lt hindex).symm (by omega) hfirst hlt]
      omega
    · omega
  obtain ⟨data2, -, hcopy2⟩ := copyIn_eq p (count1 bufSize index count)
    (count - count1 bufSize index count) (hlen1.trans hlen) hnext hfit (by omega)
  rw [copyIntoRing, hcopy1, Option.bind_eq_bind, Option.bind_some]
  exact Option.isSome_iff_exists.mpr ⟨_, hcopy2⟩

/-- From the end of the ring, a copy of any byte leaves it. -/
theorem copyIntoRing_of_eq {data : List UInt8} {index count : UInt32}
    (hlen : data.length = bufSize.toNat) (hindex : index.toNat = bufSize.toNat)
    (hcount : 0 < count.toNat) (hp : count.toNat ≤ p.length) :
    copyIntoRing data p bufSize index count = none := by
  have hfirst := toNat_count1_eq count (Nat.le_of_eq hindex)
  have hzero : count1 bufSize index count = 0 := by
    rw [eq_zero_iff_toNat, hfirst]
    omega
  have hload : load p 0 count.toNat = some ((p.drop 0).take count.toNat) :=
    load_eq_some (by omega)
  have hstore : store data index.toNat ((p.drop 0).take count.toNat) = none := by
    apply if_neg
    rw [List.length_take, List.length_drop]
    omega
  rw [copyIntoRing, hzero, UInt32.sub_zero]
  show copyIn data bufSize index p 0 count = none
  rw [copyIn, if_pos (show count > 0 from UInt32.lt_iff_toNat_lt.mpr hcount)]
  show (load p 0 count.toNat).bind _ = none
  rw [hload]
  show (store data index.toNat ((p.drop 0).take count.toNat)).bind _ = none
  rw [hstore]
  rfl

/-- A write that is not refused leaves the ring exactly when its index is the
ring's end. -/
theorem habPipeWrite_in_ring_iff (hlen : shBuf.data.length = bufSize.toNat)
    (hp : numBytes.toNat ≤ p.length) :
    (habPipeWrite ep shBuf bufSize (some p) numBytes).isSome ↔
      WriteRefused ep shBuf bufSize numBytes ∨ ep.txInfo.index ≠ bufSize := by
  by_cases hrefused : WriteRefused ep shBuf bufSize numBytes
  · rw [hrefused.habPipeWrite_eq]
    exact iff_of_true rfl (Or.inl hrefused)
  · rw [habPipeWrite_isSome_iff hrefused, or_iff_right hrefused]
    rw [WriteRefused, not_or, not_or, not_or, not_or, eq_zero_iff_toNat,
      UInt32.lt_iff_toNat_lt, UInt32.lt_iff_toNat_lt, UInt32.lt_iff_toNat_lt] at hrefused
    obtain ⟨-, ⟨-, hsome⟩, hbound, hcount⟩ := hrefused
    rw [Ne, ← UInt32.toNat_inj]
    rcases Nat.lt_or_ge ep.txInfo.index.toNat bufSize.toNat with hlt | hge
    · exact iff_of_true (copyIntoRing_of_lt hlen hlt (by omega) hp) (by omega)
    · rw [copyIntoRing_of_eq hlen (by omega) (by omega) hp]
      exact iff_of_false Bool.false_ne_true (by omega)

end Write

/-! ## Reading -/

/-- A read that is not refused stays in the ring exactly when its index is one
of the ring's cells and the bytes to copy end before the second lap does. -/
theorem habPipeRead_in_ring_iff {ep : HabPipeEndpoint} {shBuf : HabSharedBuf}
    {bufSize size : UInt32} {p : List UInt8} (hlen : shBuf.data.length = bufSize.toNat)
    (hp : size.toNat ≤ p.length) (clear : UInt32) (signatureMismatch : UInt8) :
    (habPipeRead ep shBuf bufSize (some p) size clear signatureMismatch).isSome ↔
      ReadRefused ep shBuf bufSize size ∨
        (ep.rxInfo.index < bufSize ∧
          ep.rxInfo.index.toNat + min (shBuf.wrCount - shBuf.rdCount).toNat size.toNat ≤
            2 * bufSize.toNat) := by
  by_cases hrefused : ReadRefused ep shBuf bufSize size
  · rw [hrefused.habPipeRead_eq]
    exact iff_of_true rfl (Or.inl hrefused)
  · have hread := toNat_toRead shBuf size
    have hcopy := copyRing_isSome_iff (p := p) hlen (index_le_of_not_refused hrefused)
      (toNat_toRead_pos hrefused) (by omega)
    rw [or_iff_right hrefused, UInt32.lt_iff_toNat_lt, ← hread, ← hcopy]
    cases h : copyRing shBuf.data p bufSize ep.rxInfo.index (toRead shBuf size) with
    | none =>
        rw [habPipeRead_of_copyRing_none hrefused h]
        rfl
    | some p' =>
        rw [habPipeRead_of_copyRing hrefused hp h]
        exact iff_of_true rfl rfl

/-- Whatever the peer has written, a call with a buffer of the announced
length touches only the ring's own bytes exactly when its guards refuse it or:
a write, unless its index equals the ring's size; a read, when its index is below
the ring's size and the bytes to copy end within the second lap. -/
theorem pipe_accesses_iff (ep : HabPipeEndpoint) (shBuf : HabSharedBuf) (bufSize : UInt32)
    (hlen : shBuf.data.length = bufSize.toNat) :
    (∀ (numBytes : UInt32) (p : CallerBuffer numBytes),
      (habPipeWrite ep shBuf bufSize (some p.bytes) numBytes).isSome ↔
        WriteRefused ep shBuf bufSize numBytes ∨ ep.txInfo.index ≠ bufSize) ∧
      ∀ (size : UInt32) (p : CallerBuffer size) (clear : UInt32) (signatureMismatch : UInt8),
        (habPipeRead ep shBuf bufSize (some p.bytes) size clear signatureMismatch).isSome ↔
          ReadRefused ep shBuf bufSize size ∨
            (ep.rxInfo.index < bufSize ∧
              ep.rxInfo.index.toNat + min (shBuf.wrCount - shBuf.rdCount).toNat size.toNat ≤
                2 * bufSize.toNat) :=
  ⟨fun _ p ↦ habPipeWrite_in_ring_iff hlen p.fits,
    fun _ p clear signatureMismatch ↦
      habPipeRead_in_ring_iff hlen p.fits clear signatureMismatch⟩

/-- A write of one byte to an empty ring of four, from a cell of it. -/
theorem pipe_accesses_iff_four :
    (habPipeWrite ⟨⟨0, 3⟩, ⟨0⟩⟩ ⟨0, 0, 4, [0, 0, 0, 0]⟩ 4 (some [7]) 1).isSome :=
  ((pipe_accesses_iff ⟨⟨0, 3⟩, ⟨0⟩⟩ ⟨0, 0, 4, [0, 0, 0, 0]⟩ 4 rfl).1 1
    ⟨[7], Nat.le_refl 1⟩).mpr (Or.inr (by decide))

/-- One byte written to, or read from, a ring of four with the index set to
four lies behind the ring; so does the ninth byte of a read that a write count
of nine asks for. -/
theorem pipe_accesses_leave_ring :
    ¬ (∀ (ep : HabPipeEndpoint) (shBuf : HabSharedBuf) (bufSize : UInt32),
      shBuf.data.length = bufSize.toNat →
        (∀ (numBytes : UInt32) (p : CallerBuffer numBytes),
          (habPipeWrite ep shBuf bufSize (some p.bytes) numBytes).isSome) ∧
        ∀ (size : UInt32) (p : CallerBuffer size) (clear : UInt32) (signatureMismatch : UInt8),
          (habPipeRead ep shBuf bufSize (some p.bytes) size clear signatureMismatch).isSome) ∧
      habPipeWrite ⟨⟨0, 4⟩, ⟨0⟩⟩ ⟨0, 0, 4, [0, 0, 0, 0]⟩ 4 (some [7]) 1 = none ∧
      habPipeRead ⟨⟨0, 0⟩, ⟨4⟩⟩ ⟨0, 1, 4, [0, 0, 0, 0]⟩ 4 (some [7]) 1 0 0 = none ∧
      habPipeRead ⟨⟨0, 0⟩, ⟨0⟩⟩ ⟨0, 9, 4, [0, 0, 0, 0]⟩ 4 (some [7, 7, 7, 7, 7, 7, 7, 7, 7])
        9 0 0 = none := by
  refine ⟨fun h ↦ ?_, by decide, by decide, by decide⟩
  have hwrite := (h ⟨⟨0, 4⟩, ⟨0⟩⟩ ⟨0, 0, 4, [0, 0, 0, 0]⟩ 4 rfl).1 1 ⟨[7], Nat.le_refl 1⟩
  exact absurd hwrite (by decide)

end Hab
