import Hab.ImportAck

/-!
# What a page table says after it is written

The frames that `pages_list_create` reads from the regions of
`habmem_compress_pfns`.  A region names the frames in a row from where the
last one ended, plus its gap; the gap is a difference of two frame numbers put
into an `int`, and may be negative.
-/

namespace Hab

/-! ## Runs of frames -/

/-- The `n` frames in a row from `pfn` on. -/
def framesFrom (pfn : UInt64) (n : ℕ) : List UInt64 :=
  (List.range' 0 n).map fun j ↦ pfn + UInt64.ofNat j

theorem Region.frames_eq {r : Region} {n : ℕ} (hn : r.size.toInt = n) (pfn : UInt64) :
    r.frames pfn = framesFrom pfn n := by
  rw [Region.frames, hn, Int.toNat_natCast]
  rfl

@[simp] theorem length_framesFrom (pfn : UInt64) (n : ℕ) : (framesFrom pfn n).length = n := by
  rw [framesFrom, List.length_map, List.length_range']

theorem framesFrom_succ (pfn : UInt64) (n : ℕ) :
    framesFrom pfn (n + 1) = framesFrom pfn n ++ [pfn + UInt64.ofNat n] := by
  rw [framesFrom, List.range'_concat, List.map_append, List.map_singleton, Nat.one_mul,
    Nat.zero_add]
  rfl

theorem framesFrom_one (pfn : UInt64) : framesFrom pfn 1 = [pfn] := by
  rw [framesFrom_succ]
  simp [framesFrom]

theorem framesFrom_append (pfn : UInt64) (m n : ℕ) :
    framesFrom pfn (m + n) = framesFrom pfn m ++ framesFrom (pfn + UInt64.ofNat m) n := by
  induction n with
  | zero => simp [framesFrom]
  | succ n ih =>
      rw [← Nat.add_assoc, framesFrom_succ, ih, framesFrom_succ, UInt64.ofNat_add,
        List.append_assoc, UInt64.add_assoc]

theorem take_framesFrom (pfn : UInt64) {m n : ℕ} (h : m ≤ n) :
    (framesFrom pfn n).take m = framesFrom pfn m := by
  obtain ⟨k, rfl⟩ := Nat.exists_eq_add_of_le h
  rw [framesFrom_append, List.take_left' (length_framesFrom pfn m)]

theorem take_framesFrom_append {pfn : UInt64} {n c : ℕ} {rest : List UInt64} (h : n ≤ c) :
    (framesFrom pfn n ++ rest).take c = framesFrom pfn n ++ rest.take (c - n) := by
  rw [List.take_append, length_framesFrom,
    List.take_of_length_le (by rw [length_framesFrom]; exact h)]

theorem drop_framesFrom (pfn : UInt64) {m n : ℕ} (h : m ≤ n) :
    (framesFrom pfn n).drop m = framesFrom (pfn + UInt64.ofNat m) (n - m) := by
  obtain ⟨k, rfl⟩ := Nat.exists_eq_add_of_le h
  rw [framesFrom_append, List.drop_left' (length_framesFrom pfn m), Nat.add_sub_cancel_left]

theorem map_add_framesFrom (pfn shift : UInt64) (n : ℕ) :
    (framesFrom pfn n).map (· + shift) = framesFrom (pfn + shift) n := by
  rw [framesFrom, framesFrom, List.map_map]
  apply List.map_congr_left
  intro j _
  show pfn + UInt64.ofNat j + shift = pfn + shift + UInt64.ofNat j
  rw [UInt64.add_assoc, UInt64.add_assoc, UInt64.add_comm shift]

/-! ## Gaps -/

/-- A difference of two frame numbers fits into an `int`. -/
theorem toInt_truncInt_gap {page prev : UInt64} (hpage : page.toNat < 2 ^ 31)
    (hprev : prev.toNat < 2 ^ 31) :
    (truncInt (page - prev - 1)).toInt = page.toNat - prev.toNat - 1 := by
  have hpage' : (truncInt page).toInt = page.toNat := toInt_truncInt hpage
  have hprev' : (truncInt prev).toInt = prev.toNat := toInt_truncInt hprev
  have hsplit : truncInt (page - prev - 1) = truncInt page - truncInt prev - 1 := by
    simp only [truncInt, UInt64.toUInt32_sub]
    rfl
  have hone : (1 : Int32).toInt = 1 := rfl
  have hinner : ((page.toNat : ℤ) - prev.toNat).bmod (2 ^ 32) = page.toNat - prev.toNat :=
    Int.bmod_eq_of_le (by omega) (by omega)
  rw [hsplit, Int32.toInt_sub, Int32.toInt_sub, hpage', hprev', hone, hinner]
  exact Int.bmod_eq_of_le (by omega) (by omega)

/-- An `int` that is a difference of two frame numbers, added to a frame number. -/
theorem toUInt64_eq_sub {x : Int32} {a b : UInt64} (h : x.toInt = a.toNat - b.toNat) :
    x.toInt64.toUInt64 = a - b := by
  have hx : x.toInt64 = Int64.ofInt a.toNat - Int64.ofInt b.toNat := by
    rw [← Int64.ofInt_sub, ← h]
    exact (Int64.ofInt_int32ToInt x).symm
  rw [hx, Int64.toUInt64_sub, Int64.ofInt_eq_ofNat, Int64.ofInt_eq_ofNat,
    Int64.toUInt64_ofNat', Int64.toUInt64_ofNat', UInt64.ofNat_toNat, UInt64.ofNat_toNat]

/-- From a region of `n` frames that ends at `prev`, the gap leads to `page`. -/
theorem next_of_gap {size : Int32} {start prev page : UInt64} {n : ℕ} (hn : size.toInt = n)
    (hpos : 1 ≤ n) (hprev : prev.toNat + 1 = start.toNat + n) (hlow : prev.toNat < 2 ^ 31)
    (hpage : page.toNat < 2 ^ 31) (pfn : UInt64) :
    (Region.mk size (truncInt (page - prev - 1))).next pfn = pfn + (page - start) := by
  have hgap := toInt_truncInt_gap hpage hlow
  have hsum : (size + truncInt (page - prev - 1)).toInt = page.toNat - start.toNat := by
    rw [Int32.toInt_add, hgap, hn, Int.bmod_eq_of_le (by omega) (by omega)]
    omega
  rw [Region.next, toUInt64_eq_sub hsum]

/-! ## Decoding -/

theorem decodeRegions_cons {count n : ℕ} {r : Region} {pfn : UInt64} {rest : List Region}
    {done : List UInt64} (hn : r.size.toInt = n) (hpos : 1 ≤ n) (hroom : done.length + n ≤ count) :
    decodeRegions count pfn (r :: rest) done =
      decodeRegions count (r.next pfn) rest (done ++ framesFrom pfn n) := by
  rw [decodeRegions, if_neg (by omega), hn, Int.toNat_natCast, if_neg (by omega),
    Region.frames_eq hn]

theorem decodeRegions_last {count n : ℕ} {r : Region} {pfn : UInt64}
    {done : List UInt64} (hn : r.size.toInt = n) (hpos : 1 ≤ n) (hroom : done.length + n ≤ count) :
    decodeRegions count pfn [r] done = some (done ++ framesFrom pfn n) :=
  decodeRegions_cons hn hpos hroom

/-- The frames of a table whose regions name `count` of them. -/
theorem CompressedPfns.frames_eq {pfns : CompressedPfns} {count : ℕ} {frames : List UInt64}
    (h : decodeRegions count pfns.firstPfn pfns.region [] = some frames)
    (hlen : frames.length = count) : pfns.frames count = some frames := by
  rw [CompressedPfns.frames, h]
  exact Option.filter_some_pos (decide_eq_true hlen)

/-! ## Page arrays -/

/-- The regions from a run of `n` frames on decode to that run and the pages
behind it. -/
theorem decodeRegions_compressPages {pages : List UInt64} {count n : ℕ} {size : Int32}
    {start prev : UInt64} {done : List UInt64} (hn : size.toInt = n) (hpos : 1 ≤ n)
    (hprev : prev.toNat + 1 = start.toNat + n) (hlow : prev.toNat < 2 ^ 31)
    (hpages : ∀ page ∈ pages, page.toNat < 2 ^ 31) (hcount : count < 2 ^ 31)
    (hroom : done.length + n + pages.length ≤ count) :
    decodeRegions count start (compressPages prev size pages) done =
      some (done ++ framesFrom start n ++ pages) := by
  induction pages generalizing prev start size n done with
  | nil =>
      rw [compressPages, List.append_nil]
      exact decodeRegions_last hn hpos hroom
  | cons page rest ih =>
      rw [List.length_cons] at hroom
      obtain ⟨hpage, hrest⟩ := List.forall_mem_cons.mp hpages
      rw [compressPages]
      split
      · rename_i hrow
        -- the page continues the run
        have hone : page.toNat = prev.toNat + 1 := by
          have heq : page = prev + 1 := by
            rw [← hrow, UInt64.sub_add_cancel]
          rw [heq, UInt64.toNat_add, UInt64.toNat_one]
          exact Nat.mod_eq_of_lt (by omega)
        have hlast : page = start + UInt64.ofNat n := by
          apply UInt64.toNat_inj.mp
          rw [UInt64.toNat_add, UInt64.toNat_ofNat']
          omega
        have hsize : (size + 1).toInt = ((n + 1 : ℕ) : ℤ) := by
          rw [Int32.toInt_add, hn, show (1 : Int32).toInt = 1 from rfl]
          exact Int.bmod_eq_of_le (by omega) (by omega)
        rw [ih hsize (by omega) (by omega) hpage hrest (by omega), framesFrom_succ, ← hlast]
        simp
      · -- the run ends, and the gap leads to the page
        have hgap := next_of_gap hn hpos hprev hlow hpage start
        have hstart : start + (page - start) = page := by
          rw [UInt64.add_comm, UInt64.sub_add_cancel]
        have hlen : (done ++ framesFrom start n).length = done.length + n := by
          rw [List.length_append, length_framesFrom]
        rw [decodeRegions_cons hn hpos (by omega), hgap, hstart,
          ih (n := 1) rfl (Nat.le_refl 1) rfl hpage hrest (by omega), framesFrom_one]
        simp

/-- Every region of a page array names at least one page. -/
theorem one_le_size_of_mem_compressPages {pages : List UInt64} {prev : UInt64} {size : Int32}
    (hpos : 1 ≤ size.toInt) (hroom : size.toInt + pages.length < 2 ^ 31) {r : Region}
    (h : r ∈ compressPages prev size pages) : 1 ≤ r.size.toInt := by
  induction pages generalizing prev size with
  | nil =>
      rw [List.mem_singleton.mp h]
      exact hpos
  | cons page rest ih =>
      rw [List.length_cons] at hroom
      rw [compressPages] at h
      split at h
      · have hsize : (size + 1).toInt = size.toInt + 1 := by
          rw [Int32.toInt_add, show (1 : Int32).toInt = 1 from rfl]
          exact Int.bmod_eq_of_le (by omega) (by omega)
        exact ih (by omega) (by omega) h
      · rcases List.mem_cons.mp h with rfl | hrest
        · exact hpos
        · have hone : (1 : Int32).toInt = 1 := rfl
          exact ih (by omega) (by omega) hrest

/-- `pages_list_create` on a descriptor that starts with this table, if every frame
is valid and memory is there. -/
theorem pagesListCreate_bytes {«export» : ImportDesc} {pfns : CompressedPfns} {count : ℕ}
    (hfits : pfns.Fits count) (hmax : (count : ℤ) ≤ maxExpPayloadCount)
    (hpages : «export».payloadCount = count) (rest : List UInt8) (userflags : UInt32)
    {env : PagesEnv} (hvalid : env.pfnValid pfns.firstPfn = true) (hvmalloc : env.vmalloc = true)
    (hkzalloc : env.kzalloc = true) :
    pagesListCreate «export» (pfns.bytes ++ rest) userflags env =
      some (match pfns.frames count with
        | none => .error .einval
        | some frames => .ok
            { pages := frames.map some
              npages := count
              userflags := userflags
              exportId := «export».exportId
              vcid := «export».vcidRemote
              pchan := «export».pchan }) := by
  rw [maxExpPayloadCount] at hmax
  have hle := hfits.le
  have hread := readPfns_bytes hfits.nregions (by omega) rest
  rw [pagesListCreate_eq hread hpages (by omega), hvalid, hvmalloc, hkzalloc]
  rfl

/-- The page-array branch of `habmem_compress_pfns` writes at most one region for each
page, none of them empty, and `pages_list_create` gives the array back. -/
theorem own_pages_round_trip (pages : List UInt64) (hne : pages ≠ [])
    (hmax : (pages.length : ℤ) ≤ maxExpPayloadCount)
    (hlow : ∀ page ∈ pages, page.toNat < 2 ^ 31) (offset : UInt64) (mapped : Bool) :
    ∃ pfns, habmemCompressPfns (.own pages) offset (Int32.ofNat pages.length) mapped =
        some pfns ∧
      pfns.region.length ≤ pages.length ∧
      (∀ r ∈ pfns.region, 1 ≤ r.size.toInt) ∧
      ∀ («export» : ImportDesc), «export».payloadCount = pages.length →
        ∀ (rest : List UInt8) (userflags : UInt32) (env : PagesEnv),
          (∀ page ∈ pages, env.pfnValid page = true) → env.vmalloc = true → env.kzalloc = true →
            ∃ pglist, pagesListCreate «export» (pfns.bytes ++ rest) userflags env =
                some (.ok pglist) ∧
              pglist.pages = pages.map some := by
  obtain ⟨page, rest, rfl⟩ := List.exists_cons_of_ne_nil hne
  rw [maxExpPayloadCount, List.length_cons] at hmax
  obtain ⟨hpage, hrest⟩ := List.forall_mem_cons.mp hlow
  have hcount : (Int32.ofNat (page :: rest).length).toInt = ((page :: rest).length : ℤ) := by
    rw [List.length_cons]
    exact Int32.toInt_ofNat_of_lt (by omega)
  have htake : (page :: rest).take (Int32.ofNat (page :: rest).length).toInt.toNat =
      page :: rest := by
    rw [hcount, Int.toNat_natCast, List.take_length]
  have hwrite : habmemCompressPfns (.own (page :: rest)) offset
      (Int32.ofNat (page :: rest).length) mapped =
        some ⟨page, Int32.ofNat (compressPages page 1 rest).length, compressPages page 1 rest⟩ := by
    rw [habmemCompressPfns, htake]
    apply if_neg
    rw [hcount, Int.toNat_natCast]
    exact lt_irrefl _
  have hfits := fits_habmemCompressPfns (by rw [hcount, List.length_cons]; omega) hwrite
  rw [hcount, Int.toNat_natCast] at hfits
  have hone : (1 : Int32).toInt = 1 := rfl
  refine ⟨_, hwrite, hfits.le, fun r hr ↦ one_le_size_of_mem_compressPages (by omega)
    (by omega) hr, ?_⟩
  intro «export» hpages rest' userflags env hvalid hvmalloc hkzalloc
  have hdecode := @decodeRegions_compressPages rest (rest.length + 1) 1 1 page page [] rfl
    (Nat.le_refl 1) rfl hpage hrest (by omega) (by rw [List.length_nil]; omega)
  rw [framesFrom_one] at hdecode
  have hframes := @CompressedPfns.frames_eq
    ⟨page, Int32.ofNat (compressPages page 1 rest).length, compressPages page 1 rest⟩ _ _
    hdecode rfl
  have hlist := pagesListCreate_bytes hfits (by rw [maxExpPayloadCount, List.length_cons]; omega)
    hpages rest' userflags (hvalid page List.mem_cons_self) hvmalloc hkzalloc
  exact ⟨_, hlist.trans (by rw [List.length_cons, hframes]), rfl⟩

/-- An array with a run, a descent and a repetition. -/
theorem own_pages_round_trip_four :
    ∃ pfns, habmemCompressPfns (.own [7, 8, 3, 3]) 0 4 false = some pfns ∧
      pfns.region.length ≤ 4 := by
  obtain ⟨pfns, hwrite, hle, -⟩ := own_pages_round_trip [7, 8, 3, 3] (by decide) (by decide)
    (by simp) 0 false
  exact ⟨pfns, hwrite, hle⟩

/-! ## Scatter tables -/

/-- The whole pages of an entry. -/
def ScatterEntry.pages (entry : ScatterEntry) : ℕ := (entry.length >>> 12).toNat

/-- The frames of an entry, a physically contiguous chunk. -/
def ScatterEntry.frames (entry : ScatterEntry) : List UInt64 :=
  framesFrom entry.pfn entry.pages

/-- The pages of a table, in order. -/
def tableFrames (table : List ScatterEntry) : List UInt64 := table.flatMap ScatterEntry.frames

theorem tableFrames_cons (entry : ScatterEntry) (rest : List ScatterEntry) :
    tableFrames (entry :: rest) = framesFrom entry.pfn entry.pages ++ tableFrames rest :=
  List.flatMap_cons

theorem pages_lt (entry : ScatterEntry) : entry.pages < 2 ^ 20 := by
  rw [ScatterEntry.pages, UInt32.toNat_shiftRight, Nat.shiftRight_eq_div_pow]
  exact Nat.div_lt_of_lt_mul entry.length.toNat_lt

theorem toNat_spageSize (entry : ScatterEntry) :
    (entry.length >>> 12).toUInt64.toNat = entry.pages := UInt32.toNat_toUInt64 _

/-- The size of the region that starts `off` pages into a chunk. -/
theorem toInt_size {entry : ScatterEntry} {off : UInt64} (h : off.toNat < entry.pages) :
    (truncInt ((entry.length >>> 12).toUInt64 - off)).toInt =
      ((entry.pages - off.toNat : ℕ) : ℤ) := by
  have hlt := pages_lt entry
  have hpages := toNat_spageSize entry
  have hsub : ((entry.length >>> 12).toUInt64 - off).toNat = entry.pages - off.toNat := by
    rw [UInt64.toNat_sub_of_le _ _ (UInt64.le_iff_toNat_le.mpr (by omega)), hpages]
  rw [toInt_truncInt (by omega), hsub]

/-- The last page of a chunk that is taken from its start. -/
theorem toNat_prePfn {entry : ScatterEntry} {size : Int32} {n : ℕ} (hn : size.toInt = n)
    (hpos : 1 ≤ n) (hlow : entry.pfn.toNat + n ≤ 2 ^ 31) :
    (entry.pfn + (size - 1).toInt64.toUInt64).toNat + 1 = entry.pfn.toNat + n := by
  have hnat : (UInt64.ofNat (n - 1)).toNat = n - 1 := by
    rw [UInt64.toNat_ofNat']
    omega
  have hone : (1 : Int32).toInt = 1 := rfl
  have hlast : (size - 1).toInt = (UInt64.ofNat (n - 1)).toNat - (0 : UInt64).toNat := by
    rw [Int32.toInt_sub, hn, hone, hnat, UInt64.toNat_zero,
      Int.bmod_eq_of_le (by omega) (by omega)]
    omega
  rw [toUInt64_eq_sub hlast, UInt64.sub_zero, UInt64.toNat_add, hnat]
  omega

/-- From its second region on, the loop goes through whole chunks: they decode to
the frames of the table, as far from them as the first region's decoded frames are
from the start of its chunk. -/
theorem compressSgTable_tail {table : List ScatterEntry} {s : ScatterLoop} {before : List Region}
    {size : Int32} {start : UInt64} {n c : ℕ} (hoff : s.pageOffset = 0)
    (hcount : s.pageCount.toInt = c) (hc : 1 ≤ c) (hregion : s.region = before ++ [⟨size, 0⟩])
    (hn : size.toInt = n) (hpos : 1 ≤ n) (hprev : s.prePfn.toNat + 1 = start.toNat + n)
    (hlow : s.prePfn.toNat < 2 ^ 31)
    (htable : ∀ entry ∈ table, entry.pfn.toNat + entry.pages ≤ 2 ^ 31)
    (hin : c ≤ (tableFrames table).length) :
    ∃ space rest,
      (compressSgTable table s).firstPfn = s.firstPfn ∧
      (compressSgTable table s).region = before ++ ⟨size, space⟩ :: rest ∧
      ∀ (shift : UInt64) (count : ℕ) (done : List UInt64), done.length + c ≤ count →
        decodeRegions count ((Region.mk size space).next (start + shift)) rest done =
          some (done ++ ((tableFrames table).take c).map (· + shift)) := by
  induction table generalizing s before size start n c with
  | nil => exact absurd hin (by rw [tableFrames, List.flatMap_nil, List.length_nil]; omega)
  | cons entry table ih =>
      obtain ⟨hentry, htable⟩ := List.forall_mem_cons.mp htable
      rw [tableFrames_cons, List.length_append, length_framesFrom] at hin
      rw [compressSgTable, hoff]
      simp only
      by_cases hskip : (entry.length >>> 12).toUInt64 ≤ 0
      · have hempty : entry.pages = 0 := by
          have := UInt64.le_iff_toNat_le.mp hskip
          rw [toNat_spageSize, UInt64.toNat_zero] at this
          omega
        have hzero : (entry.length >>> 12).toUInt64 = 0 := by
          apply UInt64.toNat_inj.mp
          rw [toNat_spageSize, hempty, UInt64.toNat_zero]
        rw [if_pos hskip, tableFrames_cons, hempty]
        rw [hempty, Nat.zero_add] at hin
        exact ih (by rw [hzero]; rfl) hcount hc hregion hn hpos hprev hlow htable hin
      · rw [if_neg hskip]
        have hpages : 0 < entry.pages := by
          rw [UInt64.le_iff_toNat_le, toNat_spageSize, UInt64.toNat_zero] at hskip
          omega
        have hlt := pages_lt entry
        have hsize : (truncInt ((entry.length >>> 12).toUInt64 - 0)).toInt =
            ((entry.pages - UInt64.toNat 0 : ℕ) : ℤ) :=
          toInt_size hpages
        rw [UInt64.toNat_zero, Nat.sub_zero] at hsize
        have hset : setLastSpace (truncInt (entry.pfn - s.prePfn - 1)) s.region =
            before ++ [⟨size, truncInt (entry.pfn - s.prePfn - 1)⟩] := by
          rw [hregion, setLastSpace, List.modifyLast_concat]
        have hnonempty : s.region.isEmpty = false := by
          rw [hregion]
          simp
        have hnext (shift : UInt64) :
            (Region.mk size (truncInt (entry.pfn - s.prePfn - 1))).next (start + shift) =
              entry.pfn + shift := by
          rw [next_of_gap hn hpos hprev hlow (by omega)]
          rw [UInt64.add_comm start, UInt64.add_assoc, UInt64.add_comm start,
            UInt64.sub_add_cancel, UInt64.add_comm]
        rw [hset, hnonempty]
        by_cases hlast : s.pageCount ≤ truncInt ((entry.length >>> 12).toUInt64 - 0)
        · rw [if_pos hlast]
          rw [Int32.le_iff_toInt_le, hsize, hcount] at hlast
          refine ⟨_, [⟨s.pageCount, 0⟩], rfl, List.append_assoc _ _ _, ?_⟩
          intro shift count done hroom
          rw [hnext, decodeRegions_last hcount hc hroom, tableFrames_cons,
            List.take_append_of_le_length (by rw [length_framesFrom]; omega),
            take_framesFrom _ (by omega), map_add_framesFrom]
        · rw [if_neg hlast]
          rw [Int32.le_iff_toInt_le, hsize, hcount] at hlast
          have hrest : (s.pageCount - truncInt ((entry.length >>> 12).toUInt64 - 0)).toInt =
              ((c - entry.pages : ℕ) : ℤ) := by
            have hmax := s.pageCount.toInt_lt
            rw [Int32.toInt_sub, hsize, hcount, Int.bmod_eq_of_le (by omega) (by omega)]
            omega
          have hlast' := toNat_prePfn hsize hpages hentry
          obtain ⟨space, rest, hfirst, hregions, hdecode⟩ :=
            @ih { pageOffset := 0
                  pageCount := s.pageCount - truncInt ((entry.length >>> 12).toUInt64 - 0)
                  prePfn := entry.pfn +
                    (truncInt ((entry.length >>> 12).toUInt64 - 0) - 1).toInt64.toUInt64
                  firstPfn := s.firstPfn
                  region := before ++ [⟨size, truncInt (entry.pfn - s.prePfn - 1)⟩] ++
                    [⟨truncInt ((entry.length >>> 12).toUInt64 - 0), 0⟩] }
              (before ++ [⟨size, truncInt (entry.pfn - s.prePfn - 1)⟩])
              (truncInt ((entry.length >>> 12).toUInt64 - 0)) entry.pfn entry.pages
              (c - entry.pages) rfl hrest (by omega) rfl hsize hpages
              hlast' (show (entry.pfn + _).toNat < 2 ^ 31 by omega) htable (by omega)
          refine ⟨_, ⟨_, space⟩ :: rest, hfirst, hregions.trans (List.append_assoc _ _ _), ?_⟩
          intro shift count done hroom
          have hlen : (done ++ framesFrom (entry.pfn + shift) entry.pages).length =
              done.length + entry.pages := by
            rw [List.length_append, length_framesFrom]
          rw [hnext, decodeRegions_cons hsize hpages (by omega),
            hdecode shift count _ (by omega), tableFrames_cons, take_framesFrom_append (by omega),
            List.map_append, map_add_framesFrom, List.append_assoc]

/-- The page at this offset starts its chunk, or the pages wanted end in that
chunk. -/
def AlignedOrWithin : List ScatterEntry → ℕ → ℕ → Prop
  | [], _, _ => True
  | entry :: rest, off, count =>
      if entry.pages ≤ off then AlignedOrWithin rest (off - entry.pages) count
      else off = 0 ∨ off + count ≤ entry.pages

instance AlignedOrWithin.decidable :
    ∀ table off count, Decidable (AlignedOrWithin table off count)
  | [], _, _ => isTrue trivial
  | entry :: rest, off, count =>
      if h : entry.pages ≤ off then
        have := AlignedOrWithin.decidable rest (off - entry.pages) count
        decidable_of_iff (AlignedOrWithin rest (off - entry.pages) count)
          (by rw [AlignedOrWithin, if_pos h])
      else
        decidable_of_iff (off = 0 ∨ off + count ≤ entry.pages) (by rw [AlignedOrWithin, if_neg h])

/-- Frames moved by a distance other than zero are different frames. -/
theorem map_add_eq_self_iff {frames : List UInt64} (hne : frames ≠ []) (shift : UInt64) :
    frames.map (· + shift) = frames ↔ shift = 0 := by
  constructor
  · intro h
    obtain ⟨frame, rest, rfl⟩ := List.exists_cons_of_ne_nil hne
    have hhead : frame + shift = frame := (List.cons.inj h).1
    rwa [UInt64.add_eq_left] at hhead
  · rintro rfl
    simp

/-- What a table decodes to: the pages asked for, exactly if the first region is not
followed by others that a wrong gap has moved. -/
theorem decodeRegions_compressSgTable {table : List ScatterEntry} {s : ScatterLoop} {c : ℕ}
    (hregion : s.region = []) (hcount : s.pageCount.toInt = c) (hc : 1 ≤ c)
    (htable : ∀ entry ∈ table, entry.pfn.toNat + entry.pages ≤ 2 ^ 31)
    (hin : s.pageOffset.toNat + c ≤ (tableFrames table).length) :
    ∃ frames, decodeRegions c (compressSgTable table s).firstPfn
        (compressSgTable table s).region [] = some frames ∧
      frames.length = c ∧
      (frames = ((tableFrames table).drop s.pageOffset.toNat).take c ↔
        AlignedOrWithin table s.pageOffset.toNat c) := by
  induction table generalizing s with
  | nil => exact absurd hin (by rw [tableFrames, List.flatMap_nil, List.length_nil]; omega)
  | cons entry table ih =>
      obtain ⟨hentry, htable⟩ := List.forall_mem_cons.mp htable
      rw [tableFrames_cons, List.length_append, length_framesFrom] at hin
      rw [compressSgTable, AlignedOrWithin, tableFrames_cons]
      simp only
      by_cases hskip : entry.pages ≤ s.pageOffset.toNat
      · have hle : (entry.length >>> 12).toUInt64 ≤ s.pageOffset := by
          rw [UInt64.le_iff_toNat_le, toNat_spageSize]
          exact hskip
        have hoff : (s.pageOffset - (entry.length >>> 12).toUInt64).toNat =
            s.pageOffset.toNat - entry.pages := by
          rw [UInt64.toNat_sub_of_le _ _ hle, toNat_spageSize]
        rw [if_pos hle, if_pos hskip, List.drop_append, length_framesFrom,
          List.drop_eq_nil_of_le (by rw [length_framesFrom]; exact hskip), List.nil_append, ← hoff]
        exact ih hregion hcount htable (by rw [hoff]; omega)
      · have hle : ¬ (entry.length >>> 12).toUInt64 ≤ s.pageOffset := by
          rw [UInt64.le_iff_toNat_le, toNat_spageSize]
          exact hskip
        have hsize := toInt_size (Nat.not_le.mp hskip)
        have hlt := pages_lt entry
        rw [if_neg hle, if_neg hskip, hregion,
          List.drop_append_of_le_length (by rw [length_framesFrom]; omega),
          drop_framesFrom _ (by omega), UInt64.ofNat_toNat]
        by_cases hlast : s.pageCount ≤ truncInt ((entry.length >>> 12).toUInt64 - s.pageOffset)
        · rw [if_pos hlast]
          rw [Int32.le_iff_toInt_le, hsize, hcount] at hlast
          refine ⟨framesFrom (entry.pfn + s.pageOffset) c, ?_, length_framesFrom _ _, ?_⟩
          · exact decodeRegions_last hcount hc (by rw [List.length_nil]; omega)
          · rw [List.take_append_of_le_length (by rw [length_framesFrom]; omega),
              take_framesFrom _ (by omega)]
            exact iff_of_true rfl (Or.inr (by omega))
        · rw [if_neg hlast]
          rw [Int32.le_iff_toInt_le, hsize, hcount] at hlast
          have hrest : (s.pageCount -
              truncInt ((entry.length >>> 12).toUInt64 - s.pageOffset)).toInt =
                ((c - (entry.pages - s.pageOffset.toNat) : ℕ) : ℤ) := by
            have hmax := s.pageCount.toInt_lt
            rw [Int32.toInt_sub, hsize, hcount, Int.bmod_eq_of_le (by omega) (by omega)]
            omega
          have hlast' := toNat_prePfn hsize (by omega) (show entry.pfn.toNat + _ ≤ 2 ^ 31 by omega)
          obtain ⟨space, rest, hfirst, hregions, hdecode⟩ :=
            @compressSgTable_tail table
              { pageOffset := 0
                pageCount := s.pageCount -
                  truncInt ((entry.length >>> 12).toUInt64 - s.pageOffset)
                prePfn := entry.pfn +
                  (truncInt ((entry.length >>> 12).toUInt64 - s.pageOffset) - 1).toInt64.toUInt64
                firstPfn := entry.pfn + s.pageOffset
                region := [] ++ [⟨truncInt ((entry.length >>> 12).toUInt64 - s.pageOffset), 0⟩] }
              [] (truncInt ((entry.length >>> 12).toUInt64 - s.pageOffset)) entry.pfn
              (entry.pages - s.pageOffset.toNat) (c - (entry.pages - s.pageOffset.toNat))
              rfl hrest (by omega) rfl hsize (by omega) hlast'
              (show (entry.pfn + _).toNat < 2 ^ 31 by omega) htable (by omega)
          have hlen : ([] ++ framesFrom (entry.pfn + s.pageOffset)
              (entry.pages - s.pageOffset.toNat)).length =
                entry.pages - s.pageOffset.toNat := by
            rw [List.nil_append, length_framesFrom]
          refine ⟨framesFrom (entry.pfn + s.pageOffset) (entry.pages - s.pageOffset.toNat) ++
            ((tableFrames table).take (c - (entry.pages - s.pageOffset.toNat))).map
              (· + s.pageOffset), ?_, ?_, ?_⟩
          · refine (congrArg₂ (fun pfn regions ↦ decodeRegions c pfn regions [])
              hfirst hregions).trans ?_
            refine (decodeRegions_cons hsize (by omega) (by rw [List.length_nil]; omega)).trans ?_
            exact hdecode s.pageOffset c _ (by rw [hlen]; omega)
          · rw [List.length_append, length_framesFrom, List.length_map, List.length_take]
            omega
          · have hne : (tableFrames table).take (c - (entry.pages - s.pageOffset.toNat)) ≠ [] := by
              intro hnil
              have := congrArg List.length hnil
              rw [List.length_take, List.length_nil] at this
              omega
            rw [take_framesFrom_append (by omega), List.append_cancel_left_eq,
              map_add_eq_self_iff hne, ← UInt64.toNat_inj, UInt64.toNat_zero]
            omega

/-- The scatter branch of `habmem_compress_pfns` writes a table that
`pages_list_create` reads as the pages asked for, in order, exactly if the first of
them starts its chunk or all of them lie in that chunk. -/
theorem sg_pages_survive_iff (table : List ScatterEntry) (offset : UInt64) (pageCount : Int32)
    (hcount : 1 ≤ pageCount.toInt) (hmax : pageCount.toInt ≤ maxExpPayloadCount)
    (htable : ∀ entry ∈ table, entry.pfn.toNat + entry.pages ≤ 2 ^ 31)
    (hin : (offset >>> 12).toNat + pageCount.toInt.toNat ≤ (tableFrames table).length) :
    ∃ pfns, habmemCompressPfns (.foreign table) offset pageCount true = some pfns ∧
      ∀ («export» : ImportDesc), «export».payloadCount = pageCount.toInt →
        ∀ (rest : List UInt8) (userflags : UInt32) (env : PagesEnv),
          (∀ frame, env.pfnValid frame = true) → env.vmalloc = true → env.kzalloc = true →
            ∃ pglist, pagesListCreate «export» (pfns.bytes ++ rest) userflags env =
                some (.ok pglist) ∧
              (pglist.pages = (((tableFrames table).drop (offset >>> 12).toNat).take
                  pageCount.toInt.toNat).map some ↔
                AlignedOrWithin table (offset >>> 12).toNat pageCount.toInt.toNat) := by
  have hcount' : pageCount.toInt = (pageCount.toInt.toNat : ℤ) := by omega
  have hwrite : habmemCompressPfns (.foreign table) offset pageCount true =
      some (compressSgTable table ⟨offset >>> 12, pageCount, 0, 0, []⟩) := rfl
  have hfits := fits_habmemCompressPfns hcount hwrite
  obtain ⟨frames, hdecode, hlen, hiff⟩ :=
    @decodeRegions_compressSgTable table ⟨offset >>> 12, pageCount, 0, 0, []⟩
      pageCount.toInt.toNat rfl hcount' (by omega) htable hin
  refine ⟨_, hwrite, ?_⟩
  intro «export» hpages rest userflags env hvalid hvmalloc hkzalloc
  have hframes := CompressedPfns.frames_eq hdecode hlen
  have hlist := pagesListCreate_bytes hfits (by rw [← hcount']; exact hmax)
    (hpages.trans hcount') rest userflags (hvalid _) hvmalloc hkzalloc
  rw [hframes] at hlist
  refine ⟨_, hlist, ?_⟩
  rw [← hiff]
  exact List.map_inj_right fun _ _ h ↦ Option.some.inj h

/-- Two chunks of two pages, at frames 100 and 300. -/
def twoChunks : List ScatterEntry := [⟨100, 0x2000⟩, ⟨300, 0x2000⟩]

theorem sg_pages_survive_iff_twoChunks :
    ∃ pfns, habmemCompressPfns (.foreign twoChunks) 0 3 true = some pfns :=
  have h := sg_pages_survive_iff twoChunks 0 3 (by decide) (by decide) (by decide) (by decide)
  ⟨_, h.choose_spec.1⟩

/-- An IMPORT_ACK's descriptor for two pages. -/
def twoPages : ImportDesc := ⟨1, vcidPchan 0, 1, 2, 2, .init⟩

/-- From the second page of the first chunk on, the second page wanted is read as
frame 301 and not as frame 300. -/
theorem sg_pages_moved :
    ¬ ∀ (table : List ScatterEntry) (offset : UInt64) (pageCount : Int32),
      1 ≤ pageCount.toInt → pageCount.toInt ≤ maxExpPayloadCount →
      (∀ entry ∈ table, entry.pfn.toNat + entry.pages ≤ 2 ^ 31) →
      (offset >>> 12).toNat + pageCount.toInt.toNat ≤ (tableFrames table).length →
      ∃ pfns, habmemCompressPfns (.foreign table) offset pageCount true = some pfns ∧
        ∀ («export» : ImportDesc), «export».payloadCount = pageCount.toInt →
          ∀ (rest : List UInt8) (userflags : UInt32) (env : PagesEnv),
            (∀ frame, env.pfnValid frame = true) → env.vmalloc = true → env.kzalloc = true →
              ∃ pglist, pagesListCreate «export» (pfns.bytes ++ rest) userflags env =
                  some (.ok pglist) ∧
                pglist.pages = (((tableFrames table).drop (offset >>> 12).toNat).take
                  pageCount.toInt.toNat).map some := by
  intro h
  obtain ⟨pfns, hwrite, hlist⟩ := h twoChunks 0x1000 2 (by decide) (by decide) (by decide)
    (by decide)
  have hpfns : pfns = ⟨101, 2, [⟨1, 199⟩, ⟨1, 0⟩]⟩ := (Option.some.inj hwrite).symm
  obtain ⟨pglist, hcreate, hpages⟩ := hlist twoPages rfl [] 0 ⟨fun _ ↦ true, true, true⟩
    (fun _ ↦ rfl) rfl rfl
  have hframes : pfns.frames 2 = some [101, 301] := by
    rw [hpfns]
    decide
  rw [pagesListCreate_bytes (fits_habmemCompressPfns (by decide) hwrite) (by decide) rfl [] 0 rfl
    rfl rfl] at hcreate
  rw [show (2 : Int32).toInt.toNat = 2 from rfl, hframes] at hcreate
  cases hcreate
  exact absurd hpages (by decide)

end Hab
