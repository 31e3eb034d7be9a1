import Hab.PipeReads

/-!
# Finding the next header

A read of a header with `clear` set looks at the signature of the bytes it
copied.  Without a valid one it moves one byte on, whatever earlier calls left
in the sticky flag, so that reads repeated over a stable ring try every
position in turn.
-/

namespace Hab

open Memory Runs

/-- The `n` bytes from position `i` on, going round the ring. -/
def ringBytes (data : List UInt8) (i n : ℕ) : List UInt8 :=
  (List.range n).map fun k ↦ data.getD ((i + k) % data.length) 0

/-- The signature field of a header at position `i` of the ring is valid. -/
def HeaderAt (data : List UInt8) (i : ℕ) : Prop :=
  headSignature (ringBytes data i sizeofHabHeader.toNat) = some habHeadSignature

instance (data : List UInt8) (i : ℕ) : Decidable (HeaderAt data i) :=
  inferInstanceAs (Decidable (_ = _))

theorem length_ringBytes (data : List UInt8) (i n : ℕ) : (ringBytes data i n).length = n := by
  rw [ringBytes, List.length_map, List.length_range]

theorem getElem?_ringBytes {data : List UInt8} (hpos : 0 < data.length) (i : ℕ) {n k : ℕ}
    (hk : k < n) : (ringBytes data i n)[k]? = data[(i + k) % data.length]? := by
  have hmod := Nat.mod_lt (i + k) hpos
  rw [ringBytes, List.getElem?_map, List.getElem?_range hk, Option.map_some,
    List.getD_eq_getElem?_getD, List.getElem?_eq_getElem hmod]
  rfl

theorem ringBytes_mod (data : List UInt8) (i n : ℕ) :
    ringBytes data (i % data.length) n = ringBytes data i n := by
  unfold ringBytes
  apply List.map_congr_left
  intro k _
  rw [Nat.mod_add_mod]

theorem headerAt_mod (data : List UInt8) (i : ℕ) :
    HeaderAt data (i % data.length) ↔ HeaderAt data i := by
  rw [HeaderAt, HeaderAt, ringBytes_mod]

/-- The ring twice over keeps what is read in one lap. -/
theorem holds_append_self (data : List UInt8) :
    Holds data (data ++ data) 0 (2 * data.length) := by
  intro k _ hk
  rcases Nat.lt_or_ge k data.length with hlt | hge
  · rw [Nat.mod_eq_of_lt hlt, List.getElem?_append_left hlt]
  · rw [List.getElem?_append_right hge, Nat.mod_eq_sub_mod hge, Nat.mod_eq_of_lt (by omega)]

theorem ringBytes_eq_take {data : List UInt8} {i n : ℕ} (hi : i < data.length)
    (hn : n ≤ data.length) : ringBytes data i n = ((data ++ data).drop i).take n := by
  apply List.ext_getElem?
  intro k
  rcases Nat.lt_or_ge k n with hk | hk
  · rw [getElem?_ringBytes (by omega) i hk, List.getElem?_take_of_lt hk, List.getElem?_drop]
    exact holds_append_self data (i + k) (Nat.zero_le _) (by omega)
  · rw [List.getElem?_eq_none (by rw [length_ringBytes]; exact hk),
      List.getElem?_eq_none (by rw [List.length_take]; omega)]

/-- The signature lies in the first bytes of the caller's buffer. -/
theorem headSignature_take {p : List UInt8} {n : ℕ} (hn : 16 ≤ n) (hp : n ≤ p.length) :
    headSignature (p.take n) = headSignature p := by
  have hsig : load (p.take n) 12 4 = load p 12 4 := by
    rw [load_eq_some (by rw [List.length_take]; omega), load_eq_some (by omega),
      List.drop_take, List.take_take, Nat.min_eq_left (by omega)]
  rw [headSignature, hsig]
  rfl

/-- Both copies of a read of at most a ring of bytes. -/
theorem copyRing_eq {data p : List UInt8} {bufSize index count : UInt32}
    (hlen : data.length = bufSize.toNat) (hindex : index.toNat < bufSize.toNat)
    (hpos : 0 < count.toNat) (hcount : count.toNat ≤ bufSize.toNat)
    (hp : count.toNat ≤ p.length) :
    ∃ p', copyRing data p bufSize index count = some p' ∧
      p'.take count.toNat = ringBytes data index.toNat count.toNat ∧
      (index1 bufSize index count + (count - count1 bufSize index count)).toNat =
        (index.toNat + count.toNat) % bufSize.toNat := by
  obtain ⟨p1, p2, hfirst, hsecond, htake, hnext⟩ :=
    copyOut_split (p := p) hlen (by omega) (Nat.mod_eq_of_lt hindex).symm
      ((holds_append_self data).mono (Nat.zero_le index.toNat) (Nat.le_refl _)) (by omega)
      hcount hp (toNat_count1_eq count (Nat.le_of_lt hindex))
  rw [index1_of_lt hindex hpos]
  refine ⟨p2, ?_, ?_, hnext⟩
  · rw [copyRing, hfirst, Option.bind_eq_bind, Option.bind_some, index1_of_lt hindex hpos]
    exact hsecond
  · rw [htake, ringBytes_eq_take (by omega) (by omega)]

/-! ## One header read -/

/-- The read returned the header at the ring position and moved past it. -/
structure TookHeader (ep : HabPipeEndpoint) (shBuf : HabSharedBuf) (n : UInt32)
    (r : PipeRead) : Prop where
  ret : r.ret = sizeofHabHeader
  bytes : r.p.take sizeofHabHeader.toNat =
    ringBytes shBuf.data ep.rxInfo.index.toNat sizeofHabHeader.toNat
  index : r.ep.rxInfo.index.toNat =
    (ep.rxInfo.index.toNat + sizeofHabHeader.toNat) % n.toNat
  shBuf : r.shBuf = { shBuf with rdCount := shBuf.rdCount + sizeofHabHeader }

/-- The read returned an error and moved past one byte. -/
structure SkippedByte (ep : HabPipeEndpoint) (shBuf : HabSharedBuf) (n : UInt32)
    (r : PipeRead) : Prop where
  ret : r.ret = 0xFFFFFFFE ∨ r.ret = 0xFFFFFFFF
  index : r.ep.rxInfo.index.toNat = (ep.rxInfo.index.toNat + 1) % n.toNat
  shBuf : r.shBuf = { shBuf with rdCount := shBuf.rdCount + 1 }

theorem toNat_skipOne {shBuf : HabSharedBuf} {n index : UInt32} (hsize : shBuf.size = n)
    (hindex : index.toNat < n.toNat) :
    (skipOne shBuf index).toNat = (index.toNat + 1) % n.toNat := by
  have hwrap : skipOne shBuf index = wrapAt n index 1 := by
    rw [skipOne, hsize]
    rfl
  have hone : (1 : UInt32).toNat = 1 := rfl
  rw [hwrap, toNat_wrapAt 1 (Nat.mod_eq_of_lt hindex).symm (by omega), hone]

section HeaderRead

variable {ep : HabPipeEndpoint} {shBuf : HabSharedBuf} {n : UInt32}

/-- A header read with a header's worth of bytes available takes the header if
its signature is valid and skips one byte otherwise. -/
theorem habPipeRead_header (hlen : shBuf.data.length = n.toNat) (hsize : shBuf.size = n)
    (hn : sizeofHabHeader.toNat ≤ n.toNat) (hindex : ep.rxInfo.index.toNat < n.toNat)
    (havail : sizeofHabHeader.toNat ≤ (shBuf.wrCount - shBuf.rdCount).toNat)
    (p : CallerBuffer sizeofHabHeader) {clear : UInt32} (hclear : clear ≠ 0)
    (signatureMismatch : UInt8) :
    ∃ r, habPipeRead ep shBuf n (some p.bytes) sizeofHabHeader clear signatureMismatch =
        some r ∧
      ((HeaderAt shBuf.data ep.rxInfo.index.toNat ∧ TookHeader ep shBuf n r) ∨
        (¬ HeaderAt shBuf.data ep.rxInfo.index.toNat ∧ SkippedByte ep shBuf n r)) := by
  have htwenty : sizeofHabHeader.toNat = 20 := rfl
  have hopen : ¬ ReadRefused ep shBuf n sizeofHabHeader := by
    rw [ReadRefused, eq_zero_iff_toNat, eq_zero_iff_toNat, gt_iff_lt, UInt32.lt_iff_toNat_lt]
    omega
  have hread : toRead shBuf sizeofHabHeader = sizeofHabHeader := by
    rw [← UInt32.toNat_inj, toNat_toRead]
    omega
  obtain ⟨p', hcopy, htake, hnext⟩ := copyRing_eq hlen hindex (by omega) hn p.fits
  have hcall := habPipeRead_of_copyRing hopen p.fits (by rw [hread, hcopy]) clear
    signatureMismatch
  have hfits := p.fits
  have hlen' := length_of_copyRing hcopy
  have hsig : headSignature p' =
      headSignature (ringBytes shBuf.data ep.rxInfo.index.toNat sizeofHabHeader.toNat) := by
    rw [← htake, headSignature_take (by omega) (by omega)]
  have hchecks : ChecksHeader sizeofHabHeader clear := ⟨hclear, rfl⟩
  refine ⟨_, hcall, ?_⟩
  by_cases hvalid : HeaderAt shBuf.data ep.rxInfo.index.toNat
  · have hmis : mismatchAfter p' sizeofHabHeader clear signatureMismatch = 0 := by
      rw [mismatchAfter, if_pos hchecks, if_pos (hsig.trans hvalid)]
    refine Or.inl ⟨hvalid, ?_⟩
    rw [afterCopy, hmis, if_pos rfl, hread]
    exact ⟨rfl, htake, hnext, rfl⟩
  · have hmis : mismatchAfter p' sizeofHabHeader clear signatureMismatch = 1 := by
      rw [mismatchAfter, if_pos hchecks, if_neg fun h ↦ hvalid (hsig.symm.trans h)]
    refine Or.inr ⟨hvalid, ?_⟩
    rw [afterCopy, hmis, if_neg (by decide)]
    refine ⟨?_, toNat_skipOne hsize hindex, rfl⟩
    show (if _ then (0xFFFFFFFF : UInt32) else 0xFFFFFFFE) = 0xFFFFFFFE ∨ _
    split
    · exact Or.inr rfl
    · exact Or.inl rfl

end HeaderRead

/-! ## Repeated header reads -/

/-- The one reader of a pipe, with what its calls returned. -/
structure HeaderReader where
  ep : HabPipeEndpoint
  shBuf : HabSharedBuf
  signatureMismatch : UInt8
  returned : List UInt32

namespace HeaderReader

/-- One header read. -/
def step (n clear : UInt32) (s : HeaderReader) (p : CallerBuffer sizeofHabHeader) :
    Option HeaderReader := do
  let r ← habPipeRead s.ep s.shBuf n (some p.bytes) sizeofHabHeader clear s.signatureMismatch
  pure ⟨r.ep, r.shBuf, r.signatureMismatch, s.returned ++ [r.ret]⟩

/-- After `k` reads that found no header, from the given state. -/
structure Skipped (n : UInt32) (ep : HabPipeEndpoint) (shBuf : HabSharedBuf) (k : ℕ)
    (s : HeaderReader) : Prop where
  index : s.ep.rxInfo.index.toNat = (ep.rxInfo.index.toNat + k) % n.toNat
  shBuf : s.shBuf = { shBuf with rdCount := shBuf.rdCount + UInt32.ofNat k }
  returned : s.returned.length = k ∧
    ∀ ret ∈ s.returned, ret = 0xFFFFFFFE ∨ ret = 0xFFFFFFFF

variable {n : UInt32} {ep : HabPipeEndpoint} {shBuf : HabSharedBuf}

/-- Every byte skipped is one less available. -/
theorem Skipped.available {k : ℕ} {s : HeaderReader} (h : Skipped n ep shBuf k s)
    (hk : k ≤ (shBuf.wrCount - shBuf.rdCount).toNat) :
    (s.shBuf.wrCount - s.shBuf.rdCount).toNat =
      (shBuf.wrCount - shBuf.rdCount).toNat - k := by
  have hlt := (shBuf.wrCount - shBuf.rdCount).toNat_lt
  have hofNat : (UInt32.ofNat k).toNat = k := by
    rw [UInt32.toNat_ofNat']
    omega
  have hsub : s.shBuf.wrCount - s.shBuf.rdCount =
      shBuf.wrCount - shBuf.rdCount - UInt32.ofNat k := by
    rw [h.shBuf]
    grind
  rw [hsub, UInt32.toNat_sub_of_le _ _ (UInt32.le_iff_toNat_le.mpr (by omega)), hofNat]

/-- What the next header read after `k` skipped bytes does. -/
theorem Skipped.next {k : ℕ} {s : HeaderReader} (h : Skipped n ep shBuf k s)
    (hlen : shBuf.data.length = n.toNat) (hsize : shBuf.size = n)
    (hn : sizeofHabHeader.toNat ≤ n.toNat)
    (hk : k + sizeofHabHeader.toNat ≤ (shBuf.wrCount - shBuf.rdCount).toNat)
    (p : CallerBuffer sizeofHabHeader) {clear : UInt32} (hclear : clear ≠ 0) :
    ∃ r, habPipeRead s.ep s.shBuf n (some p.bytes) sizeofHabHeader clear s.signatureMismatch =
        some r ∧
      ((HeaderAt shBuf.data (ep.rxInfo.index.toNat + k) ∧ TookHeader s.ep s.shBuf n r) ∨
        (¬ HeaderAt shBuf.data (ep.rxInfo.index.toNat + k) ∧ SkippedByte s.ep s.shBuf n r)) := by
  have htwenty : sizeofHabHeader.toNat = 20 := rfl
  have hdata : s.shBuf.data = shBuf.data := by rw [h.shBuf]
  have hsize' : s.shBuf.size = n := by rw [h.shBuf, ← hsize]
  have havail := h.available (by omega)
  have hindex : s.ep.rxInfo.index.toNat < n.toNat := by
    rw [h.index]
    exact Nat.mod_lt _ (by omega)
  have hat : HeaderAt s.shBuf.data s.ep.rxInfo.index.toNat ↔
      HeaderAt shBuf.data (ep.rxInfo.index.toNat + k) := by
    rw [hdata, h.index, ← hlen, headerAt_mod]
  obtain ⟨r, hread, hcase⟩ := habPipeRead_header (hdata ▸ hlen) hsize' hn hindex (by omega) p
    hclear s.signatureMismatch
  rw [hat] at hcase
  exact ⟨r, hread, hcase⟩

/-- Reads over positions without a valid signature skip them one by one. -/
theorem exec_skipped (hlen : shBuf.data.length = n.toNat) (hsize : shBuf.size = n)
    (hn : sizeofHabHeader.toNat ≤ n.toNat) {clear : UInt32} (hclear : clear ≠ 0)
    (ps : List (CallerBuffer sizeofHabHeader)) {k : ℕ} {s : HeaderReader}
    (h : Skipped n ep shBuf k s)
    (hps : k + ps.length + sizeofHabHeader.toNat ≤
      (shBuf.wrCount - shBuf.rdCount).toNat + 1)
    (hnone : ∀ j < ps.length, ¬ HeaderAt shBuf.data (ep.rxInfo.index.toNat + (k + j))) :
    ∃ t, exec (step n clear) s ps = some t ∧ Skipped n ep shBuf (k + ps.length) t := by
  induction ps generalizing k s with
  | nil => exact ⟨s, rfl, h⟩
  | cons p ps ih =>
      rw [List.length_cons] at hps hnone
      obtain ⟨r, hread, hcase⟩ := h.next hlen hsize hn (by omega) p hclear
      have hskip := (hcase.resolve_left fun hc ↦ hnone 0 (by omega) hc.1).2
      have hstep : step n clear s p =
          some ⟨r.ep, r.shBuf, r.signatureMismatch, s.returned ++ [r.ret]⟩ := by
        rw [step, hread]
        rfl
      have hnext : Skipped n ep shBuf (k + 1)
          ⟨r.ep, r.shBuf, r.signatureMismatch, s.returned ++ [r.ret]⟩ := by
        refine ⟨?_, ?_, ?_, ?_⟩
        · rw [hskip.index, h.index, Nat.mod_add_mod, Nat.add_assoc]
        · rw [hskip.shBuf, h.shBuf, UInt32.ofNat_add]
          simp only [UInt32.add_assoc]
          rfl
        · rw [List.length_append, h.returned.1, List.length_singleton]
        · intro ret hret
          rcases List.mem_append.mp hret with hold | hlast
          · exact h.returned.2 ret hold
          · rw [List.mem_singleton.mp hlast]
            exact hskip.ret
      rw [exec_cons hstep, List.length_cons]
      obtain ⟨t, hrun, ht⟩ := ih hnext (by omega) fun j hj ↦ by
        have := hnone (j + 1) (by omega)
        rwa [Nat.add_comm j 1, ← Nat.add_assoc k] at this
      exact ⟨t, hrun, by rwa [Nat.add_assoc, Nat.add_comm 1] at ht⟩

/-- With one pipe in use, a header read of a stable ring takes the header at the
ring position if its signature is valid and otherwise returns an error and
moves one byte on; so reads repeated while a header's worth of bytes is
available stop at the first position with a valid signature. -/
theorem header_resync (ep : HabPipeEndpoint) (shBuf : HabSharedBuf) (n clear : UInt32)
    (signatureMismatch : UInt8) (hlen : shBuf.data.length = n.toNat) (hsize : shBuf.size = n)
    (hn : sizeofHabHeader.toNat ≤ n.toNat) (hindex : ep.rxInfo.index < n) (hclear : clear ≠ 0) :
    (sizeofHabHeader.toNat ≤ (shBuf.wrCount - shBuf.rdCount).toNat →
      ∀ p : CallerBuffer sizeofHabHeader,
        ∃ r, habPipeRead ep shBuf n (some p.bytes) sizeofHabHeader clear signatureMismatch =
            some r ∧
          ((HeaderAt shBuf.data ep.rxInfo.index.toNat ∧ TookHeader ep shBuf n r) ∨
            (¬ HeaderAt shBuf.data ep.rxInfo.index.toNat ∧ SkippedByte ep shBuf n r))) ∧
      ∀ ps : List (CallerBuffer sizeofHabHeader),
        ps.length + sizeofHabHeader.toNat ≤ (shBuf.wrCount - shBuf.rdCount).toNat →
        (∀ j < ps.length, ¬ HeaderAt shBuf.data (ep.rxInfo.index.toNat + j)) →
        ∃ s, exec (step n clear) ⟨ep, shBuf, signatureMismatch, []⟩ ps = some s ∧
          Skipped n ep shBuf ps.length s ∧
          ∀ p : CallerBuffer sizeofHabHeader,
            ∃ r, habPipeRead s.ep s.shBuf n (some p.bytes) sizeofHabHeader clear
                s.signatureMismatch = some r ∧
              ((HeaderAt shBuf.data (ep.rxInfo.index.toNat + ps.length) ∧
                  TookHeader s.ep s.shBuf n r) ∨
                (¬ HeaderAt shBuf.data (ep.rxInfo.index.toNat + ps.length) ∧
                  SkippedByte s.ep s.shBuf n r)) := by
  have hlt : ep.rxInfo.index.toNat < n.toNat := UInt32.lt_iff_toNat_lt.mp hindex
  refine ⟨fun havail p ↦ habPipeRead_header hlen hsize hn hlt havail p hclear _, ?_⟩
  intro ps hps hnone
  have hstart : Skipped n ep shBuf 0 ⟨ep, shBuf, signatureMismatch, []⟩ := by
    refine ⟨(Nat.mod_eq_of_lt hlt).symm, ?_, rfl, fun ret hret ↦ absurd hret List.not_mem_nil⟩
    rw [show shBuf.rdCount + UInt32.ofNat 0 = shBuf.rdCount from UInt32.add_zero _]
  obtain ⟨s, hrun, hs⟩ := exec_skipped hlen hsize hn hclear ps hstart (by omega) fun j hj ↦ by
    rw [Nat.zero_add]
    exact hnone j hj
  rw [Nat.zero_add] at hs
  exact ⟨s, hrun, hs, fun p ↦ hs.next hlen hsize hn hps p hclear⟩

/-- A ring of twenty bytes that holds one header. -/
theorem header_resync_twenty :
    ∃ r, habPipeRead ⟨⟨0, 0⟩, ⟨0⟩⟩
        ⟨0, 20, 20, [1, 2, 3, 4, 5, 6, 7, 8, 9, 10, 11, 12, 0xE1, 0xBE, 0xE1, 0xBE, 5, 0, 0, 0]⟩
        20 (some (List.replicate 20 0)) sizeofHabHeader 1 0 = some r ∧
      r.ret = sizeofHabHeader := by
  obtain ⟨r, hread, hcase⟩ := (header_resync ⟨⟨0, 0⟩, ⟨0⟩⟩
    ⟨0, 20, 20, [1, 2, 3, 4, 5, 6, 7, 8, 9, 10, 11, 12, 0xE1, 0xBE, 0xE1, 0xBE, 5, 0, 0, 0]⟩
    20 1 0 rfl rfl (by decide) (by decide) (by decide)).1 (by decide)
    ⟨List.replicate 20 0, by decide⟩
  exact ⟨r, hread, (hcase.resolve_right fun h ↦ h.1 (by decide)).2.ret⟩

end HeaderReader

end Hab
