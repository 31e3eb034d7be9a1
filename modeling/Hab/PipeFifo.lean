import Mathlib.Algebra.Order.Ring.Nat
import Hab.Library.Runs
import Hab.Pipe

/-!
# The shared ring is a lossless FIFO

A run interleaves the writes and commits of the producer with the reads of
the consumer on one ring.  The counters wrap at `2 ^ 32` and the indices at the
ring size; both are read here as residues of two positions in the stream of
all bytes accepted so far.
-/

namespace Hab

open Memory Runs

/-- A caller's buffer that has room for the announced number of bytes. -/
structure CallerBuffer (size : UInt32) where
  bytes : List UInt8
  fits : size.toNat ≤ bytes.length

/-- One ring between a producer and a consumer, with the bytes that passed
through it. -/
structure PipeRun where
  tx : HabPipeEndpoint
  rx : HabPipeEndpoint
  shBuf : HabSharedBuf
  signatureMismatch : UInt8
  /-- Every byte a write has accepted. -/
  accepted : List UInt8
  /-- How many of them the last commit has published. -/
  committed : ℕ
  /-- Every byte a read has returned. -/
  delivered : List UInt8

/-- A call on the ring; reads have `clear == 0`. -/
inductive PipeOp where
  | write (numBytes : UInt32) (p : CallerBuffer numBytes)
  | commit
  | read (size : UInt32) (p : CallerBuffer size)

namespace PipeRun

/-- The ring from the given side to the other one, as both calls of
`hab_pipe_init` leave it. -/
def start (pipe : HabPipe) (n : UInt32) (top : Bool) : PipeRun :=
  let pipe := habPipeInit (habPipeInit pipe n true) n false
  { tx := pipe.ep top
    rx := pipe.ep (!top)
    shBuf := pipe.txBuf top
    signatureMismatch := 0
    accepted := []
    committed := 0
    delivered := [] }

/-- One call, with the record of what it let through. -/
def step (n : UInt32) (s : PipeRun) : PipeOp → Option PipeRun
  | .write numBytes p => do
      let (ret, ep, shBuf) ← habPipeWrite s.tx s.shBuf n (some p.bytes) numBytes
      pure { s with tx := ep, shBuf := shBuf, accepted := s.accepted ++ p.bytes.take ret.toNat }
  | .commit =>
      some { s with shBuf := habPipeWriteCommit s.tx s.shBuf, committed := s.accepted.length }
  | .read size p => do
      let r ← habPipeRead s.rx s.shBuf n (some p.bytes) size 0 s.signatureMismatch
      pure
        { s with
          rx := r.ep
          shBuf := r.shBuf
          signatureMismatch := r.signatureMismatch
          delivered := s.delivered ++ r.p.take r.ret.toNat }

/-- The bytes accepted and not yet read. -/
def unread (s : PipeRun) : ℕ := s.accepted.length - s.delivered.length

/-- Counters, indices and contents of the ring agree with the stream. -/
structure Sound (n : UInt32) (s : PipeRun) : Prop where
  ring_length : s.shBuf.data.length = n.toNat
  wrCount : s.tx.txInfo.wrCount = UInt32.ofNat s.accepted.length
  sharedWrCount : s.shBuf.wrCount = UInt32.ofNat s.committed
  rdCount : s.shBuf.rdCount = UInt32.ofNat s.delivered.length
  txIndex : s.tx.txInfo.index.toNat = s.accepted.length % n.toNat
  rxIndex : s.rx.rxInfo.index.toNat = s.delivered.length % n.toNat
  delivered_le : s.delivered.length ≤ s.committed
  committed_le : s.committed ≤ s.accepted.length
  room : s.accepted.length ≤ s.delivered.length + n.toNat
  holds : Holds s.shBuf.data s.accepted s.delivered.length s.accepted.length
  delivered_prefix : s.delivered <+: s.accepted
  no_mismatch : s.signatureMismatch = 0

end PipeRun

/-! ## Wrapping counters -/

/-- The difference of two wrapped counters is the true distance while that is
below `2 ^ 32`. -/
theorem toNat_ofNat_sub_ofNat {a b : ℕ} (hle : b ≤ a) (hlt : a - b < 2 ^ 32) :
    (UInt32.ofNat a - UInt32.ofNat b).toNat = a - b := by
  rw [UInt32.toNat_sub, UInt32.toNat_ofNat', UInt32.toNat_ofNat']
  omega

/-- The step of a ring index that a copy reaching at most the end makes. -/
def wrapAt (n index count : UInt32) : UInt32 := if index + count ≥ n then 0 else index + count

theorem toNat_wrapAt {n index : UInt32} (count : UInt32) {pos : ℕ}
    (hpos : index.toNat = pos % n.toNat)
    (hfit : index.toNat + count.toNat ≤ n.toNat) :
    (wrapAt n index count).toNat = (pos + count.toNat) % n.toNat := by
  have hlt := n.toNat_lt
  have hsum : (index + count).toNat = index.toNat + count.toNat := by
    rw [UInt32.toNat_add, Nat.mod_eq_of_lt (by omega)]
  rw [← Nat.mod_add_mod, ← hpos]
  unfold wrapAt
  split <;> rename_i h <;> rw [ge_iff_le, UInt32.le_iff_toNat_le, hsum] at h
  · rw [show index.toNat + count.toNat = n.toNat by omega, Nat.mod_self, UInt32.toNat_zero]
  · rw [hsum, Nat.mod_eq_of_lt (by omega)]

/-- The first part of a copy of `count` bytes: up to the end of the ring. -/
theorem toNat_count1 {n index : UInt32} (count : UInt32) (hindex : index.toNat ≤ n.toNat) :
    (if count ≤ n - index then count else n - index).toNat =
      min count.toNat (n.toNat - index.toNat) := by
  have hsub : (n - index).toNat = n.toNat - index.toNat :=
    UInt32.toNat_sub_of_le n index (UInt32.le_iff_toNat_le.mpr hindex)
  split <;> rename_i h <;> rw [UInt32.le_iff_toNat_le, hsub] at h <;> omega

/-! ## Writing -/

theorem copyIn_eq {data : List UInt8} (p : List UInt8) {n index : UInt32} (off count : UInt32)
    (hlen : data.length = n.toNat) (hindex : index.toNat < n.toNat)
    (hfit : index.toNat + count.toNat ≤ n.toNat)
    (hp : off.toNat + count.toNat ≤ p.length) :
    ∃ data', store data index.toNat ((p.drop off.toNat).take count.toNat) = some data' ∧
      copyIn data n index p off count = some (data', wrapAt n index count) := by
  have hsrc : ((p.drop off.toNat).take count.toNat).length = count.toNat := by
    simp
    omega
  have hstore := store_eq_some data index.toNat ((p.drop off.toNat).take count.toNat) (by omega)
  refine ⟨_, hstore, ?_⟩
  unfold copyIn
  split
  · rw [load_eq_some hp]
    simp [hstore, wrapAt]
  · rename_i hzero
    have hcount : count = 0 := by
      rw [gt_iff_lt, UInt32.lt_iff_toNat_lt] at hzero
      apply UInt32.toNat_inj.mp
      rw [UInt32.toNat_zero] at hzero ⊢
      omega
    subst hcount
    simp [wrapAt, UInt32.le_iff_toNat_le, Nat.not_le.mpr hindex]

/-- The part of a copy past the end of the ring starts at its first cell. -/
theorem toNat_wrapAt_of_lt {n index count1 : UInt32} (total : UInt32) {pos : ℕ}
    (hpos : index.toNat = pos % n.toNat) (hn : 0 < n.toNat)
    (hcount1 : count1.toNat = min total.toNat (n.toNat - index.toNat))
    (hlt : count1.toNat < total.toNat) : (wrapAt n index count1).toNat = 0 := by
  have hmod := Nat.mod_lt pos hn
  have hend : pos + count1.toNat = n.toNat * (pos / n.toNat + 1) := by
    have := Nat.div_add_mod pos n.toNat
    rw [Nat.mul_add, Nat.mul_one]
    omega
  rw [toNat_wrapAt _ hpos (by omega), hend, Nat.mul_mod_right]

/-- Both copies of a write that has room extend the stream by the bytes
written. -/
theorem copyIn_split {data p stream : List UInt8} {n index count1 numBytes : UInt32} {lo : ℕ}
    (hlen : data.length = n.toNat) (hn : 0 < n.toNat)
    (hindex : index.toNat = stream.length % n.toNat)
    (hholds : Holds data stream lo stream.length) (hlo : lo ≤ stream.length)
    (hroom : stream.length + numBytes.toNat ≤ lo + n.toNat) (hp : numBytes.toNat ≤ p.length)
    (hcount1 : count1.toNat = min numBytes.toNat (n.toNat - index.toNat)) :
    ∃ data1 data2 index2,
      copyIn data n index p 0 count1 = some (data1, wrapAt n index count1) ∧
      copyIn data1 n (wrapAt n index count1) p count1 (numBytes - count1) =
        some (data2, index2) ∧
      data2.length = n.toNat ∧
      index2.toNat = (stream ++ p.take numBytes.toNat).length % n.toNat ∧
      Holds data2 (stream ++ p.take numBytes.toNat) lo
        (stream ++ p.take numBytes.toNat).length := by
  have hmod := Nat.mod_lt stream.length hn
  have hsrc : (p.take numBytes.toNat).length = numBytes.toNat := by
    simp
    omega
  have hcount2 : (numBytes - count1).toNat = numBytes.toNat - count1.toNat :=
    UInt32.toNat_sub_of_le _ _ (UInt32.le_iff_toNat_le.mpr (by omega))
  have hlt : index.toNat < n.toNat := by omega
  obtain ⟨data1, hstore1, hcopy1⟩ := copyIn_eq p 0 count1 hlen hlt (by omega)
    (by rw [UInt32.toNat_zero]; omega)
  have hindex1 := toNat_wrapAt count1 hindex (by omega)
  have hwrapped := toNat_wrapAt_of_lt numBytes hindex hn hcount1
  have hlen1 : data1.length = n.toNat := (length_of_store hstore1).trans hlen
  have hnext : (wrapAt n index count1).toNat < n.toNat := by
    rw [hindex1]
    exact Nat.mod_lt _ hn
  have hsecond : (wrapAt n index count1).toNat + (numBytes - count1).toNat ≤ n.toNat := by
    rcases Nat.lt_or_ge count1.toNat numBytes.toNat with h | h
    · rw [hwrapped h]
      omega
    · omega
  obtain ⟨data2, hstore2, hcopy2⟩ := copyIn_eq p count1
    (numBytes - count1) hlen1 hnext hsecond (by omega)
  have hindex2 := toNat_wrapAt (numBytes - count1) hindex1 hsecond
  refine ⟨data1, data2, _, hcopy1, hcopy2, (length_of_store hstore2).trans hlen1, ?_, ?_⟩
  · rw [hindex2, List.length_append, hsrc]
    congr 1
    omega
  · refine hholds.store_split data1 hlo (by omega) count1.toNat ?_ ?_ ?_
    · rw [hsrc, hcount1, hlen, hindex]
    · rw [hlen, ← hindex, List.take_take, Nat.min_eq_left (by omega)]
      simpa using hstore1
    · rw [List.drop_take, ← hcount2]
      rcases Nat.eq_zero_or_pos (numBytes - count1).toNat with h | h
      · rw [h, List.take_zero, store_eq_some _ _ _ (by simp)]
        rw [h, List.take_zero, store_eq_some _ _ _ (by simp; omega)] at hstore2
        simpa using hstore2
      · rwa [hwrapped (by omega)] at hstore2

/-- A write without room for it is refused, and one with room keeps the ring in
step with the longer stream. -/
theorem habPipeWrite_spec {ep : HabPipeEndpoint} {shBuf : HabSharedBuf} {n : UInt32}
    {stream : List UInt8} {lo : ℕ} (hlen : shBuf.data.length = n.toNat) (hn : 0 < n.toNat)
    (hwr : ep.txInfo.wrCount = UInt32.ofNat stream.length)
    (hrd : shBuf.rdCount = UInt32.ofNat lo)
    (hindex : ep.txInfo.index.toNat = stream.length % n.toNat)
    (hlo : lo ≤ stream.length) (hroom : stream.length ≤ lo + n.toNat)
    (hholds : Holds shBuf.data stream lo stream.length)
    {numBytes : UInt32} (p : CallerBuffer numBytes) :
    if 1 ≤ numBytes.toNat ∧ numBytes.toNat ≤ n.toNat - (stream.length - lo) then
      ∃ data index,
        habPipeWrite ep shBuf n (some p.bytes) numBytes =
          some (numBytes,
            { ep with
              txInfo := ⟨UInt32.ofNat (stream ++ p.bytes.take numBytes.toNat).length, index⟩ },
            { shBuf with data := data }) ∧
        data.length = n.toNat ∧
        index.toNat = (stream ++ p.bytes.take numBytes.toNat).length % n.toNat ∧
        Holds data (stream ++ p.bytes.take numBytes.toNat) lo
          (stream ++ p.bytes.take numBytes.toNat).length
    else habPipeWrite ep shBuf n (some p.bytes) numBytes = some (0, ep, shBuf) := by
  have hnlt := n.toNat_lt
  have hmod := Nat.mod_lt stream.length hn
  have hused : (ep.txInfo.wrCount - shBuf.rdCount).toNat = stream.length - lo := by
    rw [hwr, hrd, toNat_ofNat_sub_ofNat hlo (by omega)]
  have hfull : ¬ n < ep.txInfo.wrCount - shBuf.rdCount := by
    rw [UInt32.lt_iff_toNat_lt, hused]
    omega
  have hspace : (n - (ep.txInfo.wrCount - shBuf.rdCount)).toNat =
      n.toNat - (stream.length - lo) := by
    rw [UInt32.toNat_sub_of_le _ _ (UInt32.le_iff_toNat_le.mpr (by omega)), hused]
  have hzero : numBytes = 0 ↔ numBytes.toNat = 0 := by
    rw [← UInt32.toNat_inj, UInt32.toNat_zero]
  split
  · rename_i hok
    have htook : ¬ (numBytes > n - (ep.txInfo.wrCount - shBuf.rdCount) ∨ numBytes = 0) := by
      rw [gt_iff_lt, UInt32.lt_iff_toNat_lt, hspace, hzero]
      omega
    have hbound : ¬ (n < ep.txInfo.index ∨ n < numBytes) := by
      rw [UInt32.lt_iff_toNat_lt, UInt32.lt_iff_toNat_lt]
      omega
    obtain ⟨data1, data2, index2, hcopy1, hcopy2, hlen2, hindex2, hholds2⟩ :=
      copyIn_split hlen hn hindex hholds hlo (by omega) p.fits
        (toNat_count1 numBytes (by omega))
    refine ⟨data2, index2, ?_, hlen2, hindex2, hholds2⟩
    have hfits := p.fits
    have hsrc : (p.bytes.take numBytes.toNat).length = numBytes.toNat := by
      simp
      omega
    have hcount (count1 : UInt32) : ep.txInfo.wrCount + count1 + (numBytes - count1) =
        UInt32.ofNat (stream ++ p.bytes.take numBytes.toNat).length := by
      rw [List.length_append, hsrc, hwr, UInt32.ofNat_add, UInt32.ofNat_toNat]
      grind
    simp only [habPipeWrite, if_neg hfull, if_neg htook, if_neg hbound, hcopy1,
      Option.bind_eq_bind, Option.bind_some, hcopy2, hcount]
    rfl
  · rename_i hno
    simp only [habPipeWrite, if_neg hfull]
    rw [if_pos]
    rw [gt_iff_lt, UInt32.lt_iff_toNat_lt, hspace, hzero]
    omega

/-! ## Reading -/

theorem copyOut_eq {data : List UInt8} (p : List UInt8) (index count off : UInt32)
    (hdata : index.toNat + count.toNat ≤ data.length)
    (hp : off.toNat + count.toNat ≤ p.length) :
    ∃ src p', load data index.toNat count.toNat = some src ∧ store p off.toNat src = some p' ∧
      copyOut data index count p off = some p' := by
  have hload := load_eq_some hdata
  have hsrc := length_of_load hload
  have hstore := store_eq_some p off.toNat ((data.drop index.toNat).take count.toNat) (by omega)
  refine ⟨_, _, hload, hstore, ?_⟩
  unfold copyOut
  split
  · simp [hload, hstore]
  · rename_i hzero
    rw [gt_iff_lt, UInt32.lt_iff_toNat_lt, UInt32.toNat_zero] at hzero
    rw [show count.toNat = 0 by omega]
    simp

/-- Both copies of a read return the oldest unread bytes. -/
theorem copyOut_split {data p stream : List UInt8} {n index count1 toRead : UInt32} {lo hi : ℕ}
    (hlen : data.length = n.toNat) (hn : 0 < n.toNat) (hindex : index.toNat = lo % n.toNat)
    (hholds : Holds data stream lo hi) (hhi : lo + toRead.toNat ≤ hi)
    (hroom : toRead.toNat ≤ n.toNat) (hp : toRead.toNat ≤ p.length)
    (hcount1 : count1.toNat = min toRead.toNat (n.toNat - index.toNat)) :
    ∃ p1 p2,
      copyOut data index count1 p 0 = some p1 ∧
      copyOut data (wrapAt n index count1) (toRead - count1) p1 count1 = some p2 ∧
      p2.take toRead.toNat = (stream.drop lo).take toRead.toNat ∧
      (wrapAt n index count1 + (toRead - count1)).toNat = (lo + toRead.toNat) % n.toNat := by
  have hmod := Nat.mod_lt lo hn
  have hcount2 : (toRead - count1).toNat = toRead.toNat - count1.toNat :=
    UInt32.toNat_sub_of_le _ _ (UInt32.le_iff_toNat_le.mpr (by omega))
  have hindex1 := toNat_wrapAt count1 hindex (by omega)
  have hwrapped := toNat_wrapAt_of_lt toRead hindex hn hcount1
  have hnext : (wrapAt n index count1).toNat < n.toNat := by
    rw [hindex1]
    exact Nat.mod_lt _ hn
  have hsecond : (wrapAt n index count1).toNat + (toRead - count1).toNat < n.toNat := by
    rcases Nat.lt_or_ge count1.toNat toRead.toNat with h | h
    · rw [hwrapped h]
      omega
    · omega
  obtain ⟨first, p1, hload1, hstore1, hcopy1⟩ := copyOut_eq p index count1 0
    (show _ ≤ data.length by omega) (by rw [UInt32.toNat_zero]; omega)
  rw [UInt32.toNat_zero] at hstore1
  have hlen1 := length_of_store hstore1
  obtain ⟨second, p2, hload2, hstore2, hcopy2⟩ := copyOut_eq p1 (wrapAt n index count1)
    (toRead - count1) count1 (show _ ≤ data.length by omega) (by omega)
  have hfirst := length_of_load hload1
  have hlast := length_of_load hload2
  refine ⟨p1, p2, hcopy1, hcopy2, ?_, ?_⟩
  · have hload2' : load data 0 (toRead.toNat - count1.toNat) = some second := by
      rw [← hcount2]
      rcases Nat.eq_zero_or_pos (toRead - count1).toNat with h | h
      · rw [h] at hload2 ⊢
        rw [load_eq_some (by omega)] at hload2 ⊢
        simpa using hload2
      · rwa [hwrapped (by omega)] at hload2
    rw [← hholds.load_split hhi (by omega) (by rw [hlen, ← hindex, hcount1])
      (by rwa [hlen, ← hindex]) hload2', ← take_of_store_store hstore1 (hfirst ▸ hstore2)]
    congr 1
    omega
  · have hlt := n.toNat_lt
    rw [UInt32.toNat_add, Nat.mod_eq_of_lt (by omega), ← Nat.mod_eq_of_lt hsecond, hindex1,
      Nat.mod_add_mod]
    congr 1
    omega

/-- A read without `clear` returns as much as is committed and asked for, from
the oldest unread byte on, and moves index and count past it. -/
theorem habPipeRead_spec {ep : HabPipeEndpoint} {shBuf : HabSharedBuf} {n : UInt32}
    {stream : List UInt8} {lo hi : ℕ} (hlen : shBuf.data.length = n.toNat) (hn : 0 < n.toNat)
    (hwr : shBuf.wrCount = UInt32.ofNat hi) (hrd : shBuf.rdCount = UInt32.ofNat lo)
    (hindex : ep.rxInfo.index.toNat = lo % n.toNat) (hlo : lo ≤ hi) (hroom : hi ≤ lo + n.toNat)
    (hholds : Holds shBuf.data stream lo hi) {size : UInt32} (p : CallerBuffer size) :
    ∃ r, habPipeRead ep shBuf n (some p.bytes) size 0 0 = some r ∧
      r.ret.toNat = min size.toNat (hi - lo) ∧
      r.p.take r.ret.toNat = (stream.drop lo).take r.ret.toNat ∧
      r.ep.txInfo = ep.txInfo ∧
      r.ep.rxInfo.index.toNat = (lo + r.ret.toNat) % n.toNat ∧
      r.shBuf = { shBuf with rdCount := UInt32.ofNat (lo + r.ret.toNat) } ∧
      r.signatureMismatch = 0 := by
  have hnlt := n.toNat_lt
  have hmod := Nat.mod_lt lo hn
  have havail : (shBuf.wrCount - shBuf.rdCount).toNat = hi - lo := by
    rw [hwr, hrd, toNat_ofNat_sub_ofNat hlo (by omega)]
  have hzero (x : UInt32) : x = 0 ↔ x.toNat = 0 := by
    rw [← UInt32.toNat_inj, UInt32.toNat_zero]
  have hbound : ¬ ep.rxInfo.index > n := by
    rw [gt_iff_lt, UInt32.lt_iff_toNat_lt]
    omega
  by_cases hnone : hi - lo = 0 ∨ size.toNat = 0
  · refine ⟨⟨0, ep, shBuf, p.bytes, 0⟩, ?_, ?_, by simp, rfl, by simpa using hindex, ?_, rfl⟩
    · simp only [habPipeRead, hzero (shBuf.wrCount - shBuf.rdCount), hzero size, havail]
      rw [if_pos (hnone.imp_right Or.inl)]
    · rw [UInt32.toNat_zero]
      omega
    · simp [← hrd]
  · have hsome : ¬ (shBuf.wrCount - shBuf.rdCount = 0 ∨ size = 0 ∨ ep.rxInfo.index > n) := by
      rw [hzero, hzero, havail]
      rintro (h | h | h)
      · exact hnone (Or.inl h)
      · exact hnone (Or.inr h)
      · exact hbound h
    have htoRead : (if shBuf.wrCount - shBuf.rdCount < size then shBuf.wrCount - shBuf.rdCount
        else size).toNat = min size.toNat (hi - lo) := by
      split <;> rename_i h <;> rw [UInt32.lt_iff_toNat_lt, havail] at h <;> omega
    set toRead := if shBuf.wrCount - shBuf.rdCount < size then shBuf.wrCount - shBuf.rdCount
      else size with htoRead_def
    have hcount1 := toNat_count1 toRead (show ep.rxInfo.index.toNat ≤ n.toNat by omega)
    set count1 := if toRead ≤ n - ep.rxInfo.index then toRead else n - ep.rxInfo.index
      with hcount1_def
    have hfits := p.fits
    obtain ⟨p1, p2, hcopy1, hcopy2, htake, hindex2⟩ :=
      copyOut_split (p := p.bytes) hlen hn hindex hholds (by omega) (by omega) (by omega) hcount1
    have hstep : (if count1 > 0 then
        if ep.rxInfo.index + count1 ≥ n then 0 else ep.rxInfo.index + count1
        else ep.rxInfo.index) = wrapAt n ep.rxInfo.index count1 := by
      rw [if_pos]
      · rfl
      · rw [gt_iff_lt, UInt32.lt_iff_toNat_lt, UInt32.toNat_zero]
        omega
    have hboth : count1 + (toRead - count1) = toRead := by grind
    have hread : toRead ≠ 0 := by
      rw [Ne, hzero]
      omega
    refine ⟨⟨toRead, { ep with rxInfo := ⟨wrapAt n ep.rxInfo.index count1 + (toRead - count1)⟩ },
      { shBuf with rdCount := shBuf.rdCount + toRead }, p2, 0⟩, ?_, htoRead, htake, rfl, hindex2,
      ?_, rfl⟩
    · simp only [habPipeRead, if_neg hsome, ← htoRead_def, ← hcount1_def, hcopy1, hstep,
        Option.bind_eq_bind, Option.bind_some, hcopy2, hboth, if_neg hread]
      simp
    · rw [hrd, UInt32.ofNat_add, UInt32.ofNat_toNat]

/-! ## Runs -/

namespace PipeRun

variable {n : UInt32}

theorem sound_start {pipe : HabPipe} (hspan : pipe.Spans n) (top : Bool) :
    Sound n (start pipe n top) := by
  have hlen : (start pipe n top).shBuf.data.length = n.toNat := by
    cases top
    · exact hspan.2
    · exact hspan.1
  constructor
  · exact hlen
  all_goals cases top <;> simp [start, habPipeInit, HabPipe.ep, HabPipe.txBuf,
    HabSharedBuf.reset, HabPipeEndpoint.zero, Holds]

theorem Sound.write {s : PipeRun} (h : Sound n s) (hn : 0 < n.toNat) {numBytes : UInt32}
    (p : CallerBuffer numBytes) :
    ∃ t, step n s (.write numBytes p) = some t ∧ Sound n t := by
  have hspec := habPipeWrite_spec h.ring_length hn h.wrCount h.rdCount h.txIndex
    (Nat.le_trans h.delivered_le h.committed_le) h.room h.holds p
  split at hspec
  · rename_i hok
    obtain ⟨data, index, hwrite, hlen, hindex, hholds⟩ := hspec
    have hfits := p.fits
    have hroom := h.room
    have hle := h.committed_le
    refine ⟨_, by simp only [step, hwrite, Option.bind_eq_bind, Option.bind_some]; rfl, ?_⟩
    exact
      { h with
        ring_length := hlen
        wrCount := rfl
        txIndex := hindex
        committed_le := by
          simp only [List.length_append]
          omega
        room := by
          have := h.delivered_le
          simp only [List.length_append, List.length_take]
          omega
        holds := hholds
        delivered_prefix := h.delivered_prefix.trans (List.prefix_append _ _) }
  · refine ⟨s, ?_, h⟩
    simp only [step, hspec, Option.bind_eq_bind, Option.bind_some]
    simp

theorem Sound.commit {s : PipeRun} (h : Sound n s) :
    ∃ t, step n s .commit = some t ∧ Sound n t :=
  ⟨_, rfl,
    { h with
      sharedWrCount := h.wrCount
      delivered_le := Nat.le_trans h.delivered_le h.committed_le
      committed_le := Nat.le_refl _ }⟩

theorem Sound.read_spec {s : PipeRun} (h : Sound n s) (hn : 0 < n.toNat) {size : UInt32}
    (p : CallerBuffer size) :
    ∃ r, habPipeRead s.rx s.shBuf n (some p.bytes) size 0 s.signatureMismatch = some r ∧
      r.ret.toNat = min size.toNat (s.committed - s.delivered.length) ∧
      r.p.take r.ret.toNat = (s.accepted.drop s.delivered.length).take r.ret.toNat ∧
      r.ep.txInfo = s.rx.txInfo ∧
      r.ep.rxInfo.index.toNat = (s.delivered.length + r.ret.toNat) % n.toNat ∧
      r.shBuf =
        { s.shBuf with rdCount := UInt32.ofNat (s.delivered.length + r.ret.toNat) } ∧
      r.signatureMismatch = 0 := by
  have hroom := h.room
  have hle := h.committed_le
  rw [h.no_mismatch]
  exact habPipeRead_spec h.ring_length hn h.sharedWrCount h.rdCount h.rxIndex h.delivered_le
    (by omega) (h.holds.mono (Nat.le_refl _) hle) p

theorem Sound.read {s : PipeRun} (h : Sound n s) (hn : 0 < n.toNat) {size : UInt32}
    (p : CallerBuffer size) :
    ∃ t, step n s (.read size p) = some t ∧ Sound n t := by
  obtain ⟨r, hread, hret, htake, htx, hindex, hbuf, hmis⟩ := h.read_spec hn p
  have hle := h.delivered_le
  have hle' := h.committed_le
  have hlen : (s.delivered ++ r.p.take r.ret.toNat).length =
      s.delivered.length + r.ret.toNat := by
    rw [htake, List.length_append, List.length_take, List.length_drop]
    omega
  refine ⟨_, by simp only [step, hread, Option.bind_eq_bind, Option.bind_some]; rfl, ?_⟩
  exact
    { h with
      ring_length := by rw [hbuf]; exact h.ring_length
      sharedWrCount := by rw [hbuf]; exact h.sharedWrCount
      rdCount := by rw [hbuf, hlen]
      rxIndex := by rw [hlen]; exact hindex
      delivered_le := by
        rw [hlen]
        show s.delivered.length + r.ret.toNat ≤ s.committed
        omega
      room := by
        have := h.room
        rw [hlen]
        show s.accepted.length ≤ s.delivered.length + r.ret.toNat + n.toNat
        omega
      holds := by
        rw [hbuf, hlen]
        exact h.holds.mono (by omega) (Nat.le_refl _)
      delivered_prefix := by
        obtain ⟨rest, hrest⟩ := h.delivered_prefix
        have hdrop : s.accepted.drop s.delivered.length = rest := by
          rw [← hrest, List.drop_left]
        show s.delivered ++ r.p.take r.ret.toNat <+: s.accepted
        rw [htake, hdrop, ← hrest]
        exact (List.prefix_append_right_inj _).mpr (List.take_prefix _ _)
      no_mismatch := hmis }

/-- No call on a sound ring leaves its memory, and the ring stays sound. -/
theorem Sound.step {s : PipeRun} (h : Sound n s) (hn : 0 < n.toNat) (op : PipeOp) :
    ∃ t, PipeRun.step n s op = some t ∧ Sound n t := by
  cases op with
  | write numBytes p => exact h.write hn p
  | commit => exact h.commit
  | read size p => exact h.read hn p

/-- Every run of writes, commits and reads on a ring of `n ≥ 1` bytes
completes, and in the state it reaches the delivered bytes are a prefix of the
committed ones, a read returns what is committed and asked for, every unread
byte is still in its cell, and a write is taken whole exactly when it fits. -/
theorem lossless_fifo (pipe : HabPipe) (n : UInt32) (hn : 1 ≤ n.toNat) (hspan : pipe.Spans n)
    (top : Bool) (ops : List PipeOp) :
    ∃ s, exec (PipeRun.step n) (start pipe n top) ops = some s ∧
      s.delivered <+: s.accepted.take s.committed ∧
      (∀ size : UInt32, 0 < size → ∀ p : CallerBuffer size,
        ∃ r, habPipeRead s.rx s.shBuf n (some p.bytes) size 0 s.signatureMismatch = some r ∧
          r.ret.toNat = min size.toNat (s.committed - s.delivered.length) ∧
          r.p.take r.ret.toNat = (s.accepted.drop s.delivered.length).take r.ret.toNat) ∧
      (∀ k, s.delivered.length ≤ k → k < s.accepted.length →
        s.shBuf.data[k % n.toNat]? = s.accepted[k]?) ∧
      ∀ (numBytes : UInt32) (p : CallerBuffer numBytes),
        if 1 ≤ numBytes.toNat ∧ numBytes.toNat ≤ n.toNat - s.unread then
          ∃ ep shBuf, habPipeWrite s.tx s.shBuf n (some p.bytes) numBytes =
            some (numBytes, ep, shBuf)
        else habPipeWrite s.tx s.shBuf n (some p.bytes) numBytes = some (0, s.tx, s.shBuf) := by
  obtain ⟨s, hrun, hs⟩ :=
    exec_of_progress (fun s op (h : Sound n s) ↦ h.step hn op) (sound_start hspan top) ops
  have hle := hs.delivered_le
  refine ⟨s, hrun, ?_, ?_, ?_, ?_⟩
  · rw [List.prefix_take_iff]
    exact ⟨hs.delivered_prefix, hle⟩
  · intro size _ p
    obtain ⟨r, hread, hret, htake, -⟩ := hs.read_spec hn p
    exact ⟨r, hread, hret, htake⟩
  · have hholds := hs.holds
    rw [Holds, hs.ring_length] at hholds
    exact hholds
  · intro numBytes p
    have hspec := habPipeWrite_spec hs.ring_length hn hs.wrCount hs.rdCount hs.txIndex
      (Nat.le_trans hle hs.committed_le) hs.room hs.holds p
    unfold unread
    split <;> rename_i h
    · rw [if_pos h] at hspec
      obtain ⟨data, index, hwrite, -⟩ := hspec
      exact ⟨_, _, hwrite⟩
    · rwa [if_neg h] at hspec

/-- A ring of three bytes after a write of two, a commit and a read of one. -/
theorem lossless_fifo_three_bytes :
    ∃ s, exec (PipeRun.step 3)
        (start ⟨.zero, .zero, ⟨0, 0, 0, [0, 0, 0]⟩, ⟨0, 0, 0, [0, 0, 0]⟩⟩ 3 true)
        [.write 2 ⟨[7, 8], by decide⟩, .commit, .read 1 ⟨[0], by decide⟩] = some s ∧
      s.delivered <+: s.accepted.take s.committed := by
  obtain ⟨s, hrun, hprefix, -⟩ := lossless_fifo
    ⟨.zero, .zero, ⟨0, 0, 0, [0, 0, 0]⟩, ⟨0, 0, 0, [0, 0, 0]⟩⟩ 3 (by decide)
    ⟨rfl, rfl⟩ true
    [.write 2 ⟨[7, 8], by decide⟩, .commit, .read 1 ⟨[0], by decide⟩]
  exact ⟨s, hrun, hprefix⟩

end PipeRun

end Hab
