import Hab.PipeFifo

/-!
# What one call on the ring does

The calls of `hab_pipe.c` in closed form, for any counters and indices the
peer may have written: which of them move bytes, which cells their copies
reach, and what the header check makes of the bytes read.
-/

namespace Hab

open Memory

theorem eq_zero_iff_toNat (x : UInt32) : x = 0 ↔ x.toNat = 0 := by
  rw [← UInt32.toNat_inj, UInt32.toNat_zero]

/-! ## Reading -/

/-- `hab_pipe_read` returns 0 at once. -/
def ReadRefused (ep : HabPipeEndpoint) (shBuf : HabSharedBuf) (bufSize size : UInt32) : Prop :=
  shBuf.wrCount - shBuf.rdCount = 0 ∨ size = 0 ∨ ep.rxInfo.index > bufSize

instance (ep : HabPipeEndpoint) (shBuf : HabSharedBuf) (bufSize size : UInt32) :
    Decidable (ReadRefused ep shBuf bufSize size) := instDecidableOr

/-- `to_read` of `hab_pipe_read`. -/
def toRead (shBuf : HabSharedBuf) (size : UInt32) : UInt32 :=
  if shBuf.wrCount - shBuf.rdCount < size then shBuf.wrCount - shBuf.rdCount else size

/-- The first part of a copy: up to the end of the ring. -/
def count1 (bufSize index count : UInt32) : UInt32 :=
  if count ≤ bufSize - index then count else bufSize - index

/-- Where the second part of a copy out of the ring starts. -/
def index1 (bufSize index count : UInt32) : UInt32 :=
  if count1 bufSize index count > 0 then wrapAt bufSize index (count1 bufSize index count)
  else index

/-- Both copies of a read. -/
def copyRing (data p : List UInt8) (bufSize index count : UInt32) : Option (List UInt8) := do
  let p ← copyOut data index (count1 bufSize index count) p 0
  copyOut data (index1 bufSize index count) (count - count1 bufSize index count) p
    (count1 bufSize index count)

/-- The call is one for a header, whose signature is checked. -/
def ChecksHeader (size clear : UInt32) : Prop := clear ≠ 0 ∧ size = sizeofHabHeader

instance (size clear : UInt32) : Decidable (ChecksHeader size clear) := instDecidableAnd

/-- `signature_mismatch` after the header check on the bytes read. -/
def mismatchAfter (p : List UInt8) (size clear : UInt32) (signatureMismatch : UInt8) : UInt8 :=
  if ChecksHeader size clear then
    if headSignature p = some habHeadSignature then 0 else 1
  else signatureMismatch

/-- The index that skips one byte. -/
def skipOne (shBuf : HabSharedBuf) (index : UInt32) : UInt32 :=
  if index + 1 ≥ shBuf.size then 0 else index + 1

/-- A read that leaves all but one byte in the ring. -/
def skippedRead (ep : HabPipeEndpoint) (shBuf : HabSharedBuf) (p : List UInt8)
    (ret : UInt32) (signatureMismatch : UInt8) : PipeRead :=
  { ret := ret
    ep := { ep with rxInfo := ⟨skipOne shBuf ep.rxInfo.index⟩ }
    shBuf := { shBuf with rdCount := shBuf.rdCount + 1 }
    p := p
    signatureMismatch := signatureMismatch }

/-- A read that takes `count` bytes out of the ring. -/
def takenRead (ep : HabPipeEndpoint) (shBuf : HabSharedBuf) (p : List UInt8)
    (bufSize count : UInt32) (signatureMismatch : UInt8) : PipeRead :=
  { ret := count
    ep :=
      { ep with
        rxInfo :=
          ⟨index1 bufSize ep.rxInfo.index count +
            (count - count1 bufSize ep.rxInfo.index count)⟩ }
    shBuf := { shBuf with rdCount := shBuf.rdCount + count }
    p := p
    signatureMismatch := signatureMismatch }

/-- The rest of `hab_pipe_read` after its two copies. -/
def afterCopy (ep : HabPipeEndpoint) (shBuf : HabSharedBuf) (bufSize : UInt32)
    (p : List UInt8) (size clear : UInt32) (signatureMismatch : UInt8) : PipeRead :=
  let mismatch := mismatchAfter p size clear signatureMismatch
  if mismatch = 0 then takenRead ep shBuf p bufSize (toRead shBuf size) mismatch
  else
    skippedRead ep shBuf p
      (if ChecksHeader size clear ∧ signatureMismatch = 0 then 0xFFFFFFFF else 0xFFFFFFFE) mismatch

/-! ### The retry loop -/

theorem retryHeader_of_good {recopy : List UInt8 → Option (List UInt8)} {p : List UInt8}
    (hsig : headSignature p = some habHeadSignature) (signatureMismatch : UInt8) :
    retryHeader recopy signatureMismatch (1000 + 1) p = some (p, 0, 0) := by
  rw [retryHeader, hsig]
  rfl

theorem retryHeader_of_set {recopy : List UInt8 → Option (List UInt8)} {p : List UInt8}
    {sig : UInt32} (hsig : headSignature p = some sig) (hbad : sig ≠ habHeadSignature)
    (hrecopy : recopy p = some p) {signatureMismatch : UInt8} (hset : signatureMismatch ≠ 0) :
    retryHeader recopy signatureMismatch (1000 + 1) p = some (p, 1, 1) := by
  rw [retryHeader, hsig, Option.bind_eq_bind, Option.bind_some, if_pos hbad, hrecopy]
  exact if_neg hset

/-- Copying the same bytes again never helps, so all retries are used up. -/
theorem retryHeader_of_clear {recopy : List UInt8 → Option (List UInt8)} {p : List UInt8}
    {sig : UInt32} (hsig : headSignature p = some sig) (hbad : sig ≠ habHeadSignature)
    (hrecopy : recopy p = some p) (left : ℕ) :
    retryHeader recopy 0 left p = some (p, 1002, 1) := by
  induction left with
  | zero =>
      rw [retryHeader, hsig, Option.bind_eq_bind, Option.bind_some, if_pos hbad]
      rfl
  | succ left ih =>
      rw [retryHeader, hsig, Option.bind_eq_bind, Option.bind_some, if_pos hbad, hrecopy]
      show (if (0 : UInt8) = 0 then retryHeader recopy 0 left p else some (p, 1001 - left, 1)) = _
      rw [if_pos rfl, ih]

/-! ### The copies -/

theorem length_of_copyOut {data p p' : List UInt8} {index count off : UInt32}
    (h : copyOut data index count p off = some p') : p'.length = p.length := by
  unfold copyOut at h
  split at h
  · obtain ⟨src, -, hstore⟩ := Option.bind_eq_some_iff.mp h
    exact length_of_store hstore
  · cases h
    rfl

/-- A copy of at least one byte stays in both blocks, and writes the ring's
bytes. -/
theorem copyOut_eq_some {data p p' : List UInt8} {index count off : UInt32}
    (h : copyOut data index count p off = some p') (hcount : 0 < count.toNat) :
    ∃ src, load data index.toNat count.toNat = some src ∧ store p off.toNat src = some p' := by
  unfold copyOut at h
  rw [if_pos (show count > 0 from UInt32.lt_iff_toNat_lt.mpr hcount)] at h
  exact Option.bind_eq_some_iff.mp h

theorem copyOut_of_zero (data : List UInt8) (index off : UInt32) (p : List UInt8) :
    copyOut data index 0 p off = some p := if_neg (by decide)

/-- A copy succeeds exactly when it is empty or stays in both blocks. -/
theorem copyOut_isSome_iff {data p : List UInt8} {index count off : UInt32} :
    (copyOut data index count p off).isSome ↔
      count.toNat = 0 ∨
        (index.toNat + count.toNat ≤ data.length ∧ off.toNat + count.toNat ≤ p.length) := by
  rcases Nat.eq_zero_or_pos count.toNat with hzero | hpos
  · rw [(eq_zero_iff_toNat count).mpr hzero, copyOut_of_zero]
    simp
  · constructor
    · intro h
      obtain ⟨p', hp'⟩ := Option.isSome_iff_exists.mp h
      obtain ⟨src, hload, hstore⟩ := copyOut_eq_some hp' hpos
      have hdata := le_of_load hload
      have hp := le_of_store hstore
      rw [length_of_load hload] at hp
      exact Or.inr ⟨hdata, hp⟩
    · rintro (h | ⟨hdata, hp⟩)
      · omega
      · obtain ⟨src, p', -, -, h⟩ := copyOut_eq p index count off hdata hp
        rw [h]
        rfl

section CopyRing

variable {data : List UInt8} {bufSize index count : UInt32}

theorem toNat_count1_eq (count : UInt32) (hindex : index.toNat ≤ bufSize.toNat) :
    (count1 bufSize index count).toNat = min count.toNat (bufSize.toNat - index.toNat) :=
  toNat_count1 count hindex

theorem toNat_count_sub_count1 (count : UInt32) (hindex : index.toNat ≤ bufSize.toNat) :
    (count - count1 bufSize index count).toNat =
      count.toNat - (bufSize.toNat - index.toNat) := by
  have hfirst := toNat_count1_eq count hindex
  rw [UInt32.toNat_sub_of_le _ _ (UInt32.le_iff_toNat_le.mpr (by omega)), hfirst]
  omega

theorem index1_of_lt (hindex : index.toNat < bufSize.toNat) (hcount : 0 < count.toNat) :
    index1 bufSize index count = wrapAt bufSize index (count1 bufSize index count) := by
  have hfirst := toNat_count1_eq count (Nat.le_of_lt hindex)
  apply if_pos
  rw [gt_iff_lt, UInt32.lt_iff_toNat_lt, UInt32.toNat_zero]
  omega

/-- Past the end of the ring a copy goes on at its first cell. -/
theorem toNat_index1_of_wrap (hindex : index.toNat < bufSize.toNat)
    (hwrap : bufSize.toNat < index.toNat + count.toNat) :
    (index1 bufSize index count).toNat = 0 := by
  rw [index1_of_lt hindex (by omega)]
  apply toNat_wrapAt_of_lt count (Nat.mod_eq_of_lt hindex).symm (by omega)
  · exact toNat_count1_eq count (Nat.le_of_lt hindex)
  · rw [toNat_count1_eq count (Nat.le_of_lt hindex)]
    omega

/-- An index at the end of the ring is not brought back to its start. -/
theorem index1_of_eq (hindex : index.toNat = bufSize.toNat) :
    index1 bufSize index count = index := by
  have hfirst := toNat_count1_eq count (Nat.le_of_eq hindex)
  apply if_neg
  rw [gt_iff_lt, UInt32.lt_iff_toNat_lt, UInt32.toNat_zero]
  omega

/-- Both copies of a read stay in the ring exactly when the index is one of its
cells and the copy ends before it comes round to the ring's end again. -/
theorem copyRing_isSome_iff {p : List UInt8} (hlen : data.length = bufSize.toNat)
    (hindex : index.toNat ≤ bufSize.toNat) (hcount : 0 < count.toNat)
    (hp : count.toNat ≤ p.length) :
    (copyRing data p bufSize index count).isSome ↔
      index.toNat < bufSize.toNat ∧ index.toNat + count.toNat ≤ 2 * bufSize.toNat := by
  have hfirst := toNat_count1_eq count hindex
  have hsecond := toNat_count_sub_count1 count hindex
  obtain ⟨p1, hp1⟩ := Option.isSome_iff_exists.mp (copyOut_isSome_iff.mpr
    (show _ ∨ (index.toNat + (count1 bufSize index count).toNat ≤ data.length ∧
      (0 : UInt32).toNat + (count1 bufSize index count).toNat ≤ p.length) from Or.inr
        ⟨by omega, by rw [UInt32.toNat_zero]; omega⟩))
  have hlen1 := length_of_copyOut hp1
  rw [copyRing, hp1, Option.bind_eq_bind, Option.bind_some, copyOut_isSome_iff, hsecond, hlen1]
  rcases Nat.lt_or_ge index.toNat bufSize.toNat with hlt | hge
  · rcases Nat.lt_or_ge bufSize.toNat (index.toNat + count.toNat) with hwrap | hfit
    · rw [toNat_index1_of_wrap hlt hwrap]
      omega
    · omega
  · rw [index1_of_eq (by omega)]
    omega

/-- The same copies made again change nothing. -/
theorem recopyHeader_of_copyRing {p p' : List UInt8}
    (hindex : index.toNat ≤ data.length)
    (hcopy : copyRing data p bufSize index count = some p') :
    recopyHeader data p' index
        (index1 bufSize index count + (count - count1 bufSize index count))
        (count1 bufSize index count) (count - count1 bufSize index count) = some p' := by
  obtain ⟨p1, hfirst, hsecond⟩ := Option.bind_eq_some_iff.mp hcopy
  have hback : index1 bufSize index count + (count - count1 bufSize index count) -
      (count - count1 bufSize index count) = index1 bufSize index count :=
    UInt32.add_sub_cancel _ _
  have hagain : copyOut data (index1 bufSize index count)
      (count - count1 bufSize index count) p' (count1 bufSize index count) = some p' := by
    rcases Nat.eq_zero_or_pos (count - count1 bufSize index count).toNat with hzero | hpos
    · rw [(eq_zero_iff_toNat _).mpr hzero]
      exact copyOut_of_zero _ _ _ _
    · obtain ⟨src, hload, hstore⟩ := copyOut_eq_some hsecond hpos
      have hsrc := store_of_load (load_of_store hstore)
      rw [copyOut, if_pos (show _ > (0 : UInt32) from UInt32.lt_iff_toNat_lt.mpr hpos), hload]
      exact hsrc
  have hstart : ∃ first, load data index.toNat (count1 bufSize index count).toNat = some first ∧
      store p' 0 first = some p' := by
    rcases Nat.eq_zero_or_pos (count1 bufSize index count).toNat with hzero | hpos
    · rw [hzero]
      exact ⟨[], by rw [load_eq_some (by omega), List.take_zero], store_of_load
        (show load p' 0 0 = some [] by rw [load_eq_some (by omega), List.take_zero])⟩
    · obtain ⟨first, hload, hstore⟩ := copyOut_eq_some hfirst hpos
      rw [UInt32.toNat_zero] at hstore
      refine ⟨first, hload, store_of_load (show load p' 0 first.length = some first from ?_)⟩
      have hkept : load p1 0 first.length = some first := load_of_store hstore
      rcases Nat.eq_zero_or_pos (count - count1 bufSize index count).toNat with hzero | hpos'
      · rw [(eq_zero_iff_toNat _).mpr hzero, copyOut_of_zero] at hsecond
        cases hsecond
        exact hkept
      · obtain ⟨second, -, hstore2⟩ := copyOut_eq_some hsecond hpos'
        rw [load_of_store_before hstore2 (by rw [length_of_load hload]; omega), hkept]
  obtain ⟨first, hload, hstore⟩ := hstart
  rw [recopyHeader, hload, Option.bind_eq_bind, Option.bind_some, hstore, Option.bind_some,
    hback, hagain]

end CopyRing

/-! ### The call -/

theorem ReadRefused.habPipeRead_eq {ep : HabPipeEndpoint} {shBuf : HabSharedBuf}
    {bufSize size : UInt32} (h : ReadRefused ep shBuf bufSize size) (p : List UInt8)
    (clear : UInt32) (signatureMismatch : UInt8) :
    habPipeRead ep shBuf bufSize (some p) size clear signatureMismatch =
      some ⟨0, ep, shBuf, p, signatureMismatch⟩ := if_pos h

/-- A read that is not refused copies at least one byte. -/
theorem toNat_toRead_pos {ep : HabPipeEndpoint} {shBuf : HabSharedBuf} {bufSize size : UInt32}
    (h : ¬ ReadRefused ep shBuf bufSize size) : 0 < (toRead shBuf size).toNat := by
  rw [ReadRefused, eq_zero_iff_toNat, eq_zero_iff_toNat] at h
  unfold toRead
  split <;> omega

theorem toNat_toRead (shBuf : HabSharedBuf) (size : UInt32) :
    (toRead shBuf size).toNat = min (shBuf.wrCount - shBuf.rdCount).toNat size.toNat := by
  unfold toRead
  split <;> rename_i h <;> rw [UInt32.lt_iff_toNat_lt] at h <;> omega

theorem index_le_of_not_refused {ep : HabPipeEndpoint} {shBuf : HabSharedBuf}
    {bufSize size : UInt32} (h : ¬ ReadRefused ep shBuf bufSize size) :
    ep.rxInfo.index.toNat ≤ bufSize.toNat := by
  rw [ReadRefused, gt_iff_lt, UInt32.lt_iff_toNat_lt] at h
  omega

/-- The two copies decide whether a read stays in its blocks. -/
theorem habPipeRead_of_copyRing_none {ep : HabPipeEndpoint} {shBuf : HabSharedBuf}
    {bufSize size : UInt32} (hopen : ¬ ReadRefused ep shBuf bufSize size) {p : List UInt8}
    (hcopy : copyRing shBuf.data p bufSize ep.rxInfo.index (toRead shBuf size) = none)
    (clear : UInt32) (signatureMismatch : UInt8) :
    habPipeRead ep shBuf bufSize (some p) size clear signatureMismatch = none := by
  rw [copyRing, Option.bind_eq_bind, Option.bind_eq_none_iff] at hcopy
  rw [habPipeRead]
  refine (if_neg hopen).trans ?_
  rw [Option.bind_eq_bind, Option.bind_eq_none_iff]
  intro p1 hp1
  rw [Option.bind_eq_bind, Option.bind_eq_none_iff]
  intro p2 hp2
  exact (Option.some_ne_none p2 (hp2.symm.trans (hcopy p1 hp1))).elim

theorem headSignature_isSome {p : List UInt8} (h : 16 ≤ p.length) :
    ∃ sig, headSignature p = some sig := by
  rw [headSignature, load_eq_some h]
  exact ⟨_, rfl⟩

/-- A copy of at least one byte starts inside the ring's memory. -/
theorem index_le_of_copyRing {data p p' : List UInt8} {bufSize index count : UInt32}
    (h : copyRing data p bufSize index count = some p') (hcount : 0 < count.toNat) :
    index.toNat ≤ data.length := by
  obtain ⟨p1, hfirst, hsecond⟩ := Option.bind_eq_some_iff.mp h
  rcases Nat.eq_zero_or_pos (count1 bufSize index count).toNat with hzero | hpos
  · rw [index1, (eq_zero_iff_toNat _).mpr hzero, if_neg (by decide), UInt32.sub_zero] at hsecond
    obtain ⟨src, hload, -⟩ := copyOut_eq_some hsecond hcount
    exact Nat.le_trans (Nat.le_add_right _ _) (le_of_load hload)
  · obtain ⟨src, hload, -⟩ := copyOut_eq_some hfirst hpos
    exact Nat.le_trans (Nat.le_add_right _ _) (le_of_load hload)

theorem length_of_copyRing {data p p' : List UInt8} {bufSize index count : UInt32}
    (h : copyRing data p bufSize index count = some p') : p'.length = p.length := by
  obtain ⟨p1, hfirst, hsecond⟩ := Option.bind_eq_some_iff.mp h
  rw [length_of_copyOut hsecond, length_of_copyOut hfirst]

/-- The header check on bytes that copying again does not change. -/
theorem retryHeader_eq {recopy : List UInt8 → Option (List UInt8)} {p : List UInt8}
    (hlen : 16 ≤ p.length) (hrecopy : recopy p = some p) (signatureMismatch : UInt8) :
    ∃ retryCnt,
      retryHeader recopy signatureMismatch (1000 + 1) p =
        some (p, retryCnt, if headSignature p = some habHeadSignature then 0 else 1) ∧
      (headSignature p ≠ some habHeadSignature →
        (retryCnt < 1000 ↔ signatureMismatch ≠ 0)) := by
  obtain ⟨sig, hsig⟩ := headSignature_isSome hlen
  by_cases hgood : sig = habHeadSignature
  · subst hgood
    exact ⟨0, by rw [retryHeader_of_good hsig, if_pos hsig], fun h ↦ (h hsig).elim⟩
  · have hbad : headSignature p ≠ some habHeadSignature := by
      rw [hsig]
      exact fun h ↦ hgood (Option.some.inj h)
    rw [if_neg hbad]
    by_cases hclear : signatureMismatch = 0
    · subst hclear
      exact ⟨1002, retryHeader_of_clear hsig hgood hrecopy _, fun _ ↦ by simp⟩
    · exact ⟨1, retryHeader_of_set hsig hgood hrecopy hclear, fun _ ↦ by simp [hclear]⟩

/-- The part of a read between its copies and the choice of what to take. -/
theorem headerCheck_eq {recopy : List UInt8 → Option (List UInt8)} {p : List UInt8}
    {size : UInt32} (hlen : size.toNat ≤ p.length) (hrecopy : recopy p = some p)
    (clear : UInt32) (signatureMismatch : UInt8) :
    ∃ retryCnt,
      (if ChecksHeader size clear then retryHeader recopy signatureMismatch (1000 + 1) p
        else some (p, 0, signatureMismatch)) =
        some (p, retryCnt, mismatchAfter p size clear signatureMismatch) ∧
      (mismatchAfter p size clear signatureMismatch ≠ 0 →
        (retryCnt < 1000 ↔ ¬ (ChecksHeader size clear ∧ signatureMismatch = 0))) := by
  by_cases hcheck : ChecksHeader size clear
  · have hheader : 16 ≤ p.length := by
      rw [hcheck.2] at hlen
      exact Nat.le_trans (by decide) hlen
    obtain ⟨retryCnt, hretry, hcnt⟩ := retryHeader_eq hheader hrecopy signatureMismatch
    refine ⟨retryCnt, by rw [if_pos hcheck, hretry, mismatchAfter, if_pos hcheck], ?_⟩
    intro hmis
    rw [mismatchAfter, if_pos hcheck, ite_ne_left_iff] at hmis
    rw [hcnt hmis.1, and_iff_right hcheck]
  · refine ⟨0, by rw [if_neg hcheck, mismatchAfter, if_neg hcheck], fun _ ↦ ?_⟩
    exact iff_of_true (by decide) (fun h ↦ hcheck h.1)

/-- A read whose copies stay in their blocks: what the header check finds in
the bytes read decides between taking them and skipping one byte. -/
theorem habPipeRead_of_copyRing {ep : HabPipeEndpoint} {shBuf : HabSharedBuf}
    {bufSize size : UInt32} (hopen : ¬ ReadRefused ep shBuf bufSize size) {p p' : List UInt8}
    (hfits : size.toNat ≤ p.length)
    (hcopy : copyRing shBuf.data p bufSize ep.rxInfo.index (toRead shBuf size) = some p')
    (clear : UInt32) (signatureMismatch : UInt8) :
    habPipeRead ep shBuf bufSize (some p) size clear signatureMismatch =
      some (afterCopy ep shBuf bufSize p' size clear signatureMismatch) := by
  have hrecopy := recopyHeader_of_copyRing
    (index_le_of_copyRing hcopy (toNat_toRead_pos hopen)) hcopy
  have hlen := length_of_copyRing hcopy
  obtain ⟨p1, hfirst, hsecond⟩ := Option.bind_eq_some_iff.mp hcopy
  have hboth : count1 bufSize ep.rxInfo.index (toRead shBuf size) +
      (toRead shBuf size - count1 bufSize ep.rxInfo.index (toRead shBuf size)) =
        toRead shBuf size := by
    grind
  have hsome : ¬ (count1 bufSize ep.rxInfo.index (toRead shBuf size) +
      (toRead shBuf size - count1 bufSize ep.rxInfo.index (toRead shBuf size)) = 0) := by
    rw [hboth, eq_zero_iff_toNat]
    exact (toNat_toRead_pos hopen).ne'
  obtain ⟨retryCnt, hcheck, hcnt⟩ := @headerCheck_eq
    (recopyHeader shBuf.data · ep.rxInfo.index
      (index1 bufSize ep.rxInfo.index (toRead shBuf size) +
        (toRead shBuf size - count1 bufSize ep.rxInfo.index (toRead shBuf size)))
      (count1 bufSize ep.rxInfo.index (toRead shBuf size))
      (toRead shBuf size - count1 bufSize ep.rxInfo.index (toRead shBuf size))) p' size
    (show size.toNat ≤ p'.length by omega) hrecopy clear signatureMismatch
  rw [habPipeRead]
  refine (if_neg hopen).trans ?_
  change (copyOut shBuf.data ep.rxInfo.index
    (count1 bufSize ep.rxInfo.index (toRead shBuf size)) p 0).bind _ = _
  rw [hfirst, Option.bind_some]
  change (copyOut shBuf.data (index1 bufSize ep.rxInfo.index (toRead shBuf size))
    (toRead shBuf size - count1 bufSize ep.rxInfo.index (toRead shBuf size)) p1
    (count1 bufSize ep.rxInfo.index (toRead shBuf size))).bind _ = _
  rw [hsecond, Option.bind_some]
  have hfinish : (if mismatchAfter p' size clear signatureMismatch ≠ 0 then
      some (skippedRead ep shBuf p' (if retryCnt < 1000 then 0xFFFFFFFE else 0xFFFFFFFF)
        (mismatchAfter p' size clear signatureMismatch))
      else some
        { takenRead ep shBuf p' bufSize (toRead shBuf size)
            (mismatchAfter p' size clear signatureMismatch) with
          shBuf :=
            { shBuf with
              rdCount := shBuf.rdCount +
                (count1 bufSize ep.rxInfo.index (toRead shBuf size) +
                  (toRead shBuf size - count1 bufSize ep.rxInfo.index (toRead shBuf size))) } }) =
      some (afterCopy ep shBuf bufSize p' size clear signatureMismatch) := by
    rw [hboth, afterCopy]
    by_cases hmis : mismatchAfter p' size clear signatureMismatch = 0
    · rw [if_neg (not_not_intro hmis), if_pos hmis]
      rfl
    · rw [if_pos hmis, if_neg hmis]
      simp only [hcnt hmis, ite_not]
  refine (if_neg hsome).trans ?_
  by_cases hchecks : ChecksHeader size clear
  · rw [if_pos hchecks] at hcheck
    refine (if_pos hchecks).trans ?_
    exact (congrArg (Option.bind · _) hcheck).trans hfinish
  · rw [if_neg hchecks] at hcheck
    refine (if_neg hchecks).trans ?_
    exact (congrArg (Option.bind · _) hcheck).trans hfinish

end Hab
