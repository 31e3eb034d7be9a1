import Hab.Open
import Hab.ExportLayout

/-!
# Page lists of imported buffers (`pages_list_create`)

The importer turns the page table of a received descriptor into an array of
pages.  A page is known by its frame number.  There is no result where the code
would read beyond the payload, write beyond the array or let a counter overflow.
-/

namespace Hab

/-- `sizeof(struct page *)`. -/
def pagePointerSize : ℕ := 8

/-- A value of type `int` as an `unsigned long`. -/
def toULong (x : ℤ) : ℕ := (x % 2 ^ 64).toNat

/-- A counter of type `int`. -/
def checkInt (n : ℕ) : Option ℕ := if n < 2 ^ 31 then some n else none

/-- A counter of type `unsigned long`. -/
def checkULong (n : ℕ) : Option ℕ := if n < 2 ^ 64 then some n else none

/-- `struct pages_list`; an entry of the array is `none` until it is written. -/
structure PagesList where
  pages : List (Option UInt64)
  npages : ℤ
  userflags : UInt32
  exportId : UInt32
  vcid : UInt32
  pchan : HabPchan

/-- How the calls of `pages_list_create` turn out. -/
structure PagesEnv where
  /-- `pfn_valid` and `hab_page_is_valid`. -/
  pfnValid : UInt64 → Bool
  vmalloc : Bool
  kzalloc : Bool

/-- The variables of the loop over the regions. -/
structure PagesLoop where
  k : ℕ
  regionTotalPage : ℕ
  pfn : UInt64
  pages : List (Option UInt64)

/-- The frame number after a region and the gap behind it; the two `int` are added
first. -/
def Region.next (r : Region) (pfn : UInt64) : UInt64 :=
  pfn + (r.size + r.space).toInt64.toUInt64

/-- The loop over the pages of one region, with `n` of them left from `j` on. -/
def fillRegion (pfn : UInt64) :
    ℕ → ℕ → ℕ → List (Option UInt64) → Option (ℕ × List (Option UInt64))
  | 0, _, k, pages => some (k, pages)
  | n + 1, j, k, pages => do
      let pages ← Memory.store pages k [some (pfn + UInt64.ofNat j)]
      let k ← checkInt (k + 1)
      let j ← checkInt (j + 1)
      fillRegion pfn n j k pages

/-- `pfn_table->region[i]`. -/
def readRegion (payload : List UInt8) (i : ℕ) : Option Region := do
  let size ← Bytes.word payload (regionOffset + regionSize * i) 4
  let space ← Bytes.word payload (regionOffset + regionSize * i + 4) 4
  some ⟨wordInt size, wordInt space⟩

/-- The loop over the regions, with `n` of them left from `i` on. -/
def fillRegions (payload : List UInt8) (payloadCount : ℤ) :
    ℕ → ℕ → PagesLoop → Option (Except Errno PagesLoop)
  | 0, _, s => some (.ok s)
  | n + 1, i, s => do
      let region ← readRegion payload i
      if region.size.toInt ≤ 0 then some (.error .einval)
      else
        let total ← checkULong (s.regionTotalPage + toULong region.size.toInt)
        if toULong payloadCount < total then some (.error .einval)
        else
          let (k, pages) ← fillRegion s.pfn region.size.toInt.toNat 0 s.k s.pages
          let i ← checkInt (i + 1)
          fillRegions payload payloadCount n i ⟨k, total, region.next s.pfn, pages⟩

def pagesListCreate («export» : ImportDesc) (payload : List UInt8) (userflags : UInt32)
    (env : PagesEnv) : Option (Except Errno PagesList) := do
  let pfn := UInt64.ofNat (← Bytes.word payload 0 8)
  if !env.pfnValid pfn then some (.error .einval)
  else
    let size ← checkInt (toULong «export».payloadCount * pagePointerSize)
    if !env.vmalloc || !env.kzalloc then some (.error .enomem)
    else
      let nregions := wordInt (← Bytes.word payload nregionsOffset 4)
      match ← fillRegions payload «export».payloadCount nregions.toInt.toNat 0
        ⟨0, 0, pfn, List.replicate (size / pagePointerSize) none⟩ with
      | .error err => some (.error err)
      | .ok s =>
          if s.regionTotalPage ≠ toULong «export».payloadCount then some (.error .einval)
          else some (.ok
            { pages := s.pages
              npages := «export».payloadCount
              userflags := userflags
              exportId := «export».exportId
              vcid := «export».vcidRemote
              pchan := «export».pchan })

/-! ## What a page table means -/

/-- The `n` regions from `i` on. -/
def readRegions (payload : List UInt8) : ℕ → ℕ → Option (List Region)
  | 0, _ => some []
  | n + 1, i => do
      let region ← readRegion payload i
      let rest ← readRegions payload n (i + 1)
      some (region :: rest)

/-- The page table of a payload that holds all of it. -/
def readPfns (payload : List UInt8) : Option CompressedPfns := do
  let firstPfn ← Bytes.word payload 0 8
  let nregions ← Bytes.word payload nregionsOffset 4
  let region ← readRegions payload (wordInt nregions).toInt.toNat 0
  some ⟨UInt64.ofNat firstPfn, wordInt nregions, region⟩

/-- The frames of one region. -/
def Region.frames (r : Region) (pfn : UInt64) : List UInt64 :=
  (List.range' 0 r.size.toInt.toNat).map fun j ↦ pfn + UInt64.ofNat j

/-- The frames that the regions name, behind those in `done`; none where a region is
empty or the frames are more than `count`. -/
def decodeRegions (count : ℕ) : UInt64 → List Region → List UInt64 → Option (List UInt64)
  | _, [], done => some done
  | pfn, r :: rest, done =>
      if r.size.toInt ≤ 0 then none
      else if count < done.length + r.size.toInt.toNat then none
      else decodeRegions count (r.next pfn) rest (done ++ r.frames pfn)

/-- The frames that a page table of `count` pages names. -/
def CompressedPfns.frames (pfns : CompressedPfns) (count : ℕ) : Option (List UInt64) :=
  (decodeRegions count pfns.firstPfn pfns.region []).filter fun frames ↦ frames.length = count

@[simp] theorem Region.length_frames (r : Region) (pfn : UInt64) :
    (r.frames pfn).length = r.size.toInt.toNat := by
  rw [frames, List.length_map, List.length_range']

theorem length_of_frames {pfns : CompressedPfns} {count : ℕ} {frames : List UInt64}
    (h : pfns.frames count = some frames) : frames.length = count := by
  have hfilter := (Option.filter_eq_some_iff.mp h).2
  exact of_decide_eq_true hfilter

/-! ## The regions are in the payload -/

theorem exists_readRegion {payload : List UInt8} {i : ℕ}
    (h : regionOffset + regionSize * (i + 1) ≤ payload.length) :
    ∃ r, readRegion payload i = some r := by
  rw [Nat.mul_succ, regionSize] at h
  obtain ⟨size, hsize⟩ : ∃ n, Bytes.word payload (regionOffset + regionSize * i) 4 = some n :=
    Bytes.exists_word (by rw [regionSize]; omega)
  obtain ⟨space, hspace⟩ :
      ∃ n, Bytes.word payload (regionOffset + regionSize * i + 4) 4 = some n :=
    Bytes.exists_word (by rw [regionSize]; omega)
  exact ⟨⟨wordInt size, wordInt space⟩, by rw [readRegion, hsize, hspace]; rfl⟩

theorem exists_readRegions {payload : List UInt8} {n i : ℕ}
    (h : regionOffset + regionSize * (i + n) ≤ payload.length) :
    ∃ regions, readRegions payload n i = some regions := by
  induction n generalizing i with
  | zero => exact ⟨[], rfl⟩
  | succ n ih =>
      obtain ⟨r, hr⟩ : ∃ r, readRegion payload i = some r :=
        exists_readRegion (Nat.le_trans
          (Nat.add_le_add_left (Nat.mul_le_mul_left _ (by omega)) _) h)
      obtain ⟨rest, hrest⟩ := ih (i := i + 1) (by rwa [Nat.add_right_comm, Nat.add_assoc])
      exact ⟨r :: rest, by rw [readRegions, hr, Option.bind_eq_bind, Option.bind_some, hrest]; rfl⟩

theorem length_readRegions {payload : List UInt8} {n i : ℕ} {regions : List Region}
    (h : readRegions payload n i = some regions) : regions.length = n := by
  induction n generalizing i regions with
  | zero =>
      cases h
      rfl
  | succ n ih =>
      obtain ⟨r, -, h⟩ := Option.bind_eq_some_iff.mp h
      obtain ⟨rest, hrest, h⟩ := Option.bind_eq_some_iff.mp h
      cases h
      rw [List.length_cons, ih hrest]

/-! ## The loops fill the array with these frames -/

theorem checkInt_eq_some {n : ℕ} (h : n < 2 ^ 31) : checkInt n = some n := if_pos h

theorem checkULong_eq_some {n : ℕ} (h : n < 2 ^ 64) : checkULong n = some n := if_pos h

theorem toULong_eq {x : ℤ} (h : 0 ≤ x) (hlt : x < 2 ^ 64) : toULong x = x.toNat := by
  rw [toULong, Int.emod_eq_of_lt h hlt]

/-- Write the next entry of an array that is filled from the front. -/
theorem store_filled (done : List UInt64) (p : UInt64) (m : ℕ) :
    Memory.store (done.map some ++ List.replicate (m + 1) none) done.length [some p] =
      some ((done ++ [p]).map some ++ List.replicate m none) := by
  have hlen : done.length + 1 ≤
      (done.map some ++ List.replicate (m + 1) (none : Option UInt64)).length := by
    simp only [List.length_append, List.length_map, List.length_replicate]
    omega
  rw [Memory.store_eq_some _ _ _ hlen]
  have htake : (done.map some ++ List.replicate (m + 1) none).take done.length =
      done.map some := List.take_left' (List.length_map some)
  have hdrop : (done.map some ++ List.replicate (m + 1) none).drop (done.length + 1) =
      List.replicate m none := by
    rw [← List.drop_drop, List.drop_left' (List.length_map some), List.drop_replicate]
    rfl
  rw [htake, List.length_singleton, hdrop]
  simp

theorem fillRegion_eq {pfn : UInt64} {n j m : ℕ} {done : List UInt64} (hm : n ≤ m)
    (hj : j + n < 2 ^ 31) (hk : done.length + n < 2 ^ 31) :
    fillRegion pfn n j done.length (done.map some ++ List.replicate m none) =
      some (done.length + n,
        (done ++ (List.range' j n).map fun j ↦ pfn + UInt64.ofNat j).map some ++
          List.replicate (m - n) none) := by
  induction n generalizing j m done with
  | zero => simp [fillRegion]
  | succ n ih =>
      obtain ⟨m, rfl⟩ : ∃ m', m = m' + 1 := ⟨m - 1, by omega⟩
      have hlen : (done ++ [pfn + UInt64.ofNat j]).length = done.length + 1 := by simp
      have hnext : fillRegion pfn n (j + 1) (done ++ [pfn + UInt64.ofNat j]).length
          ((done ++ [pfn + UInt64.ofNat j]).map some ++ List.replicate m none) = _ :=
        ih (by omega) (by omega) (by rw [hlen]; omega)
      rw [hlen] at hnext
      rw [fillRegion, store_filled, Option.bind_eq_bind, Option.bind_some,
        checkInt_eq_some (by omega), Option.bind_eq_bind, Option.bind_some,
        checkInt_eq_some (by omega), Option.bind_some, hnext,
        List.range'_succ, List.map_cons, List.append_assoc, Nat.add_right_comm,
        Nat.add_assoc, Nat.add_sub_add_right]
      rfl

/-- The array of `count` pages with these frames at its front. -/
def filled (count : ℕ) (done : List UInt64) : List (Option UInt64) :=
  done.map some ++ List.replicate (count - done.length) none

/-- The loop over the regions computes what they mean. -/
theorem fillRegions_eq {payload : List UInt8} {count : ℕ} {regions : List Region} {i : ℕ}
    {pfn : UInt64} {done : List UInt64} (hcount : count < 2 ^ 31)
    (hi : i + regions.length < 2 ^ 31) (hdone : done.length ≤ count)
    (hread : readRegions payload regions.length i = some regions) :
    ∃ pfn', fillRegions payload count regions.length i
        ⟨done.length, done.length, pfn, filled count done⟩ =
      some (match decodeRegions count pfn regions done with
        | none => .error .einval
        | some all => .ok ⟨all.length, all.length, pfn', filled count all⟩) := by
  induction regions generalizing i pfn done with
  | nil => exact ⟨pfn, rfl⟩
  | cons r rest ih =>
      obtain ⟨r', hr, hread⟩ := Option.bind_eq_some_iff.mp hread
      obtain ⟨rest', hrest, heq⟩ := Option.bind_eq_some_iff.mp hread
      obtain ⟨rfl, rfl⟩ := List.cons.inj (Option.some.inj heq)
      rw [List.length_cons, fillRegions, hr, Option.bind_eq_bind, Option.bind_some]
      rw [decodeRegions]
      by_cases hsize : r'.size.toInt ≤ 0
      · exact ⟨pfn, by rw [if_pos hsize, if_pos hsize]⟩
      · have hlt := r'.size.toInt_lt
        have hpages : toULong r'.size.toInt = r'.size.toInt.toNat :=
          toULong_eq (by omega) (by omega)
        have hpayload : toULong (count : ℤ) = count := by
          rw [toULong_eq (by omega) (by omega), Int.toNat_natCast]
        have htotal : checkULong (done.length + r'.size.toInt.toNat) =
            some (done.length + r'.size.toInt.toNat) := checkULong_eq_some (by omega)
        simp only [if_neg hsize, hpages, hpayload, htotal, Option.bind_eq_bind, Option.bind_some]
        by_cases hover : count < done.length + r'.size.toInt.toNat
        · exact ⟨pfn, by rw [if_pos hover, if_pos hover]⟩
        · rw [List.length_cons] at hi
          have hfill : fillRegion pfn r'.size.toInt.toNat 0 done.length (filled count done) = _ :=
            fillRegion_eq (by omega) (by omega) (by omega)
          have hlen : (done ++ r'.frames pfn).length = done.length + r'.size.toInt.toNat := by
            rw [List.length_append, Region.length_frames]
          have hdone' : (done ++ r'.frames pfn).length ≤ count := by
            rw [hlen]
            omega
          obtain ⟨pfn', hnext⟩ := @ih (i + 1) (r'.next pfn) _ (by omega) hdone' hrest
          refine ⟨pfn', ?_⟩
          rw [hlen, filled, hlen, ← Nat.sub_sub] at hnext
          have hi' : checkInt (i + 1) = some (i + 1) := checkInt_eq_some (by omega)
          simp only [if_neg hover, hfill, hi', Option.bind_some]
          exact hnext

/-- `pages_list_create` returns the frames of the page table, if these are as many as
the descriptor says. -/
theorem pagesListCreate_eq {«export» : ImportDesc} {payload : List UInt8} {pfns : CompressedPfns}
    {count : ℕ} (hread : readPfns payload = some pfns) (hpages : «export».payloadCount = count)
    (hcount : count < 2 ^ 28) (userflags : UInt32) (env : PagesEnv) :
    pagesListCreate «export» payload userflags env =
      some (if env.pfnValid pfns.firstPfn = false then .error .einval
        else if !env.vmalloc || !env.kzalloc then .error .enomem
        else match pfns.frames count with
          | none => .error .einval
          | some frames => .ok
              { pages := frames.map some
                npages := count
                userflags := userflags
                exportId := «export».exportId
                vcid := «export».vcidRemote
                pchan := «export».pchan }) := by
  obtain ⟨firstPfn, hfirst, hread⟩ := Option.bind_eq_some_iff.mp hread
  obtain ⟨nregions, hnregions, hread⟩ := Option.bind_eq_some_iff.mp hread
  obtain ⟨region, hregion, heq⟩ := Option.bind_eq_some_iff.mp hread
  cases heq
  have hpayload : toULong (count : ℤ) = count := by
    rw [toULong_eq (by omega) (by omega), Int.toNat_natCast]
  have hlen := length_readRegions hregion
  have hnregions' := (wordInt nregions).toInt_lt
  obtain ⟨pfn', hfill⟩ := @fillRegions_eq payload count region 0 (UInt64.ofNat firstPfn) []
    (by omega) (by omega) (Nat.zero_le _) (hlen.symm ▸ hregion)
  have hstart : filled count [] =
      List.replicate (count * pagePointerSize / pagePointerSize) none := by
    rw [Nat.mul_div_cancel count (by decide)]
    rfl
  have hsize : checkInt (count * pagePointerSize) = some (count * pagePointerSize) :=
    checkInt_eq_some (by rw [pagePointerSize]; omega)
  rw [hlen, hstart, List.length_nil] at hfill
  simp only [pagesListCreate, hfirst, hpages, hpayload, hsize, hnregions, hfill,
    Option.bind_eq_bind, Option.bind_some]
  cases hvalid : env.pfnValid (UInt64.ofNat firstPfn) with
  | false => rfl
  | true =>
      cases halloc : !env.vmalloc || !env.kzalloc with
      | true => rfl
      | false =>
          simp only [CompressedPfns.frames]
          cases hdecode : decodeRegions count (UInt64.ofNat firstPfn) region [] with
          | none => rfl
          | some all =>
              by_cases hall : all.length = count
              · have hfull : filled count all = all.map some := by
                  rw [filled, hall, Nat.sub_self, List.replicate_zero, List.append_nil]
                simp [Option.filter, hall, hfull]
              · simp [Option.filter, hall]

/-! ## Received descriptors -/

theorem not_malformed {msg : ExportMsg} (h : msg.malformed = false) :
    1 ≤ msg.nregions ∧ msg.nregions ≤ msg.payloadCount ∧ msg.payloadCount ≤ maxExpPayloadCount ∧
      msg.sizebytes = exportDescSizeMin + msg.nregions.toNat * regionSize := by
  simp only [ExportMsg.malformed, Bool.or_eq_false_iff, decide_eq_false_iff_not, not_le, not_lt,
    ne_eq, not_not] at h
  obtain ⟨⟨⟨⟨⟨hpos, -⟩, -⟩, hcount⟩, hmax⟩, hsize⟩ := h
  exact ⟨hpos, hcount, hmax, hsize⟩

theorem desc_habExportEnqueue (vm : ImportVm) (e : ℕ) :
    (vm.habExportEnqueue e).2.desc = vm.desc := by
  simp only [ImportVm.habExportEnqueue]
  split <;> rfl

/-- A descriptor that is offered to the warehouse has passed the tests, and its page
count is kept as it came. -/
theorem habReceiveExportDesc_enqueued {vm vm' : ImportVm} {vchan : ImportVchan} {msg : ExportMsg}
    {read allocDesc allocAck added : Bool} {e : ℕ}
    (h : vm.habReceiveExportDesc vchan msg read allocDesc allocAck = (.enqueued e added, vm')) :
    msg.malformed = false ∧ (vm'.desc e).payloadCount = msg.payloadCount := by
  unfold ImportVm.habReceiveExportDesc at h
  split at h
  · cases h
  · simp only at h
    split at h
    · cases h
    · split at h
      · cases h
      · rename_i hgood
        obtain ⟨hreceived, rfl⟩ := Prod.mk.inj h
        cases hreceived
        refine ⟨?_, ?_⟩
        · cases hbad : msg.malformed with
          | false => rfl
          | true => exact absurd (by rw [hbad]; rfl) hgood
        · rw [desc_habExportEnqueue, ImportVm.alloc]
          simp only [Function.update_self]
          rfl

/-- A block that is as long as its region count demands holds its whole page table. -/
theorem exists_readPfns {mem : List UInt8}
    (hsize : mem.length =
      exportDescSizeMin + (ExportMsg.ofBytes mem).nregions.toNat * regionSize) :
    ∃ pfns, readPfns (mem.drop payloadOffset) = some pfns := by
  have hlen : payloadOffset ≤ mem.length := by
    rw [payloadOffset]
    rw [exportDescSizeMin] at hsize
    omega
  obtain ⟨firstPfn, hfirst⟩ : ∃ n, Bytes.word mem (payloadOffset + 0) 8 = some n :=
    Bytes.exists_word (by rw [hsize, payloadOffset, exportDescSizeMin]; omega)
  obtain ⟨nregions, hnregions⟩ : ∃ n, Bytes.word mem (payloadOffset + nregionsOffset) 4 = some n :=
    Bytes.exists_word (by rw [hsize, payloadOffset, nregionsOffset, exportDescSizeMin]; omega)
  have hmsg : (ExportMsg.ofBytes mem).nregions = (wordInt nregions).toInt := by
    rw [ExportMsg.ofBytes, hnregions, Option.getD_some]
  rw [hmsg, exportDescSizeMin, regionSize] at hsize
  obtain ⟨region, hregion⟩ :
      ∃ region, readRegions (mem.drop payloadOffset) (wordInt nregions).toInt.toNat 0 = some region :=
    exists_readRegions
      (by rw [List.length_drop, hsize, regionOffset, regionSize, payloadOffset]; omega)
  refine ⟨⟨UInt64.ofNat firstPfn, wordInt nregions, region⟩, ?_⟩
  rw [readPfns, Bytes.word_drop hlen, Bytes.word_drop hlen, hfirst, hnregions]
  simp only [Option.bind_eq_bind, Option.bind_some, hregion]

/-- No received descriptor leads the importer out of the message or out of the page
array: what is offered to the warehouse has a region count that fits its size and its
page count, and `pages_list_create` ends on it, with every page of the array written
if it returns the list. -/
theorem habReceiveExportDesc_confined {vm vm' : ImportVm} {vchan : ImportVchan}
    {mem : List UInt8} {read allocDesc allocAck added : Bool} {e : ℕ}
    (h : vm.habReceiveExportDesc vchan (.ofBytes mem) read allocDesc allocAck =
      (.enqueued e added, vm')) :
    (1 ≤ (ExportMsg.ofBytes mem).nregions ∧
      (ExportMsg.ofBytes mem).nregions ≤ (ExportMsg.ofBytes mem).payloadCount ∧
      (ExportMsg.ofBytes mem).payloadCount ≤ maxExpPayloadCount ∧
      mem.length = exportDescSizeMin + (ExportMsg.ofBytes mem).nregions.toNat * regionSize) ∧
    ∀ userflags env, ∃ result,
      pagesListCreate (vm'.desc e) (mem.drop payloadOffset) userflags env = some result ∧
        ∀ pglist, result = .ok pglist → ∃ frames : List UInt64,
          pglist.pages = frames.map some ∧
            (frames.length : ℤ) = (ExportMsg.ofBytes mem).payloadCount := by
  obtain ⟨hgood, hkept⟩ := habReceiveExportDesc_enqueued h
  obtain ⟨hpos, hcount, hmax, hsize⟩ := not_malformed hgood
  refine ⟨⟨hpos, hcount, hmax, hsize⟩, fun userflags env ↦ ?_⟩
  obtain ⟨pfns, hread⟩ := exists_readPfns hsize
  rw [maxExpPayloadCount] at hmax
  have hnonneg : 0 ≤ (ExportMsg.ofBytes mem).payloadCount := by omega
  obtain ⟨count, hnat⟩ := Int.eq_ofNat_of_zero_le hnonneg
  rw [pagesListCreate_eq hread (hkept.trans hnat) (by omega)]
  refine ⟨_, rfl, ?_⟩
  intro pglist hok
  split at hok
  · cases hok
  · split at hok
    · cases hok
    · split at hok
      · cases hok
      · rename_i frames hframes
        cases hok
        exact ⟨frames, rfl, by rw [length_of_frames hframes, hnat]⟩

/-- An IMPORT_ACK for one page at frame 512. -/
def onePage : RawExportDesc :=
  { exportId := 1, readonly := 0, importIndex := 0, vchan := 0, ctx := 0, pchan := 0
    vcidLocal := 1, vcidRemote := 2, domidLocal := 0, domidRemote := 1, flags := 0
    nodeNext := 0, nodePrev := 0, kva := 0, payloadCount := 1
    payload := (CompressedPfns.mk 512 1 [⟨1, 0⟩]).bytes ++ List.replicate 5 0 }

theorem habReceiveExportDesc_confined_onePage :
    ∃ vm', (ImportVm.start fun _ ↦ true).habReceiveExportDesc ⟨0, ⟨0, 0⟩, 2, 1⟩
        (.ofBytes onePage.bytes) true true true = (.enqueued 0 true, vm') ∧
      1 ≤ (ExportMsg.ofBytes onePage.bytes).nregions ∧
        ∃ result, pagesListCreate (vm'.desc 0) (onePage.bytes.drop payloadOffset) 0
          ⟨fun _ ↦ true, true, true⟩ = some result := by
  refine ⟨_, rfl, ?_⟩
  obtain ⟨⟨hpos, -⟩, hlist⟩ := @habReceiveExportDesc_confined (ImportVm.start fun _ ↦ true) _
    ⟨0, ⟨0, 0⟩, 2, 1⟩ onePage.bytes true true true true 0 rfl
  obtain ⟨result, hresult, -⟩ := hlist 0 ⟨fun _ ↦ true, true, true⟩
  exact ⟨hpos, result, hresult⟩

end Hab
