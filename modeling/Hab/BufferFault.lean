import Hab.PagesList

/-!
# Faults on imported buffers (`hab_mem_linux.c`)

An imported buffer is mapped with `hab_mem_mmap`, and its pages are put in by the fault
handler `hab_buffer_fault`; `hab_map_fault` is the other fault handler of the file.  The
kernel hands out the VMA and may later unmap parts of it.
-/

namespace Hab

/-- `struct vm_area_struct`.  The kernel keeps both ends on page boundaries. -/
structure VmArea where
  vmStart : ℕ
  vmEnd : ℕ
  vmPgoff : ℕ
  start_aligned : vmStart % pageSize = 0
  end_aligned : vmEnd % pageSize = 0
  start_lt_end : vmStart < vmEnd
  end_lt : vmEnd < 2 ^ 64

/-- `vma_pages`. -/
def VmArea.pages (vma : VmArea) : ℕ := (vma.vmEnd - vma.vmStart) / pageSize

/-- What `vm_insert_page` returns. -/
inductive VmInsert where
  | ok | ebusy | enomem | efault | einval | other

/-- `vm_fault_t`. -/
inductive VmFault where
  | sigbus | nopage | oom | zero
deriving DecidableEq

/-- What `hab_buffer_fault` returns for it. -/
def VmInsert.ret : VmInsert → VmFault
  | ok | ebusy => .nopage
  | enomem => .oom
  | efault | einval | other => .sigbus

/-- What a fault handler does: it leaves `pages[]` alone, or maps an entry of it. -/
inductive FaultStep where
  | refuse
  | map (page : UInt64) (ret : VmFault)
deriving DecidableEq

/-- The page that is mapped. -/
def FaultStep.page : FaultStep → Option UInt64
  | refuse => none
  | map page _ => some page

/-- `vm_fault_t`, as it is returned. -/
def FaultStep.ret : FaultStep → VmFault
  | refuse => .sigbus
  | map _ ret => ret

namespace PagesList

/-- `pages[i]`; `none` outside the array and for an entry that was never written. -/
def page (pglist : PagesList) (i : ℕ) : Option UInt64 := (pglist.pages[i]?).join

/-- `hab_mem_mmap`, with `obj_size` of 32 bits. -/
def habMemMmap (pglist : PagesList) (vma : VmArea) : Option Errno :=
  if toULong (pglist.npages * pageSize) % 2 ^ 32 < vma.vmEnd - vma.vmStart then some .einval
  else none

/-- `hab_buffer_fault`, with what `vm_insert_page` returns. -/
def habBufferFault (pglist : PagesList) (vma : VmArea) (address : ℕ) (inserted : VmInsert) :
    Option FaultStep :=
  let pageOffset := (address - vma.vmStart) / pageSize
  if toULong pglist.npages < pageOffset then some .refuse
  else
    (pglist.page pageOffset).map fun page ↦ .map page inserted.ret

def habMapFault (pglist : PagesList) (vma : VmArea) (address : ℕ) : Option FaultStep :=
  let offset := vma.vmPgoff * pageSize % 2 ^ 64
  let faultOffset := (address - vma.vmStart + offset) % 2 ^ 64
  let pageIdx := (wordInt (faultOffset / pageSize)).toInt
  if pageIdx < 0 ∨ pglist.npages ≤ pageIdx then some .refuse
  else (pglist.page pageIdx.toNat).map fun page ↦ .map page .zero

end PagesList

/-- Parts of a VMA that are left by `munmap` at its end or at its start. -/
inductive VmArea.Part (vma : VmArea) : VmArea → Prop where
  | whole : Part vma vma
  | front {part rest : VmArea} (hpart : Part vma part) (hstart : rest.vmStart = part.vmStart)
      (hend : rest.vmEnd ≤ part.vmEnd) (hpgoff : rest.vmPgoff = part.vmPgoff) : Part vma rest
  | back {part rest : VmArea} (hpart : Part vma part) (hstart : part.vmStart ≤ rest.vmStart)
      (hend : rest.vmEnd = part.vmEnd)
      (hpgoff : rest.vmPgoff = part.vmPgoff + (rest.vmStart - part.vmStart) / pageSize) :
      Part vma rest

/-- A part lies in the VMA, and shows the pages that the VMA shows there. -/
theorem VmArea.Part.within {vma part : VmArea} (h : vma.Part part) :
    vma.vmStart ≤ part.vmStart ∧ part.vmEnd ≤ vma.vmEnd ∧
      part.vmPgoff = vma.vmPgoff + (part.vmStart - vma.vmStart) / pageSize := by
  induction h with
  | whole => exact ⟨Nat.le_refl _, Nat.le_refl _, by rw [Nat.sub_self, Nat.zero_div]; rfl⟩
  | front hpart hstart hend hpgoff ih =>
      obtain ⟨hlo, hhi, hoff⟩ := ih
      rw [hstart, hpgoff]
      exact ⟨hlo, Nat.le_trans hend hhi, hoff⟩
  | @back part rest hpart hstart hend hpgoff ih =>
      obtain ⟨hlo, hhi, hoff⟩ := ih
      refine ⟨Nat.le_trans hlo hstart, hend ▸ hhi, ?_⟩
      have hpart := part.start_aligned
      have hrest := rest.start_aligned
      have hvma := vma.start_aligned
      rw [hpgoff, hoff]
      rw [pageSize] at hpart hrest hvma ⊢
      omega

/-! ## Imported page lists -/

/-- All entries of the array are written. -/
structure PagesList.Filled (pglist : PagesList) (frames : List UInt64) : Prop where
  pages : pglist.pages = frames.map some
  npages : pglist.npages = frames.length
  lt : frames.length < 2 ^ 28

theorem exists_readRegions_of_fillRegions {payload : List UInt8} {payloadCount : ℤ} {n i : ℕ}
    {s s' : PagesLoop} (h : fillRegions payload payloadCount n i s = some (.ok s')) :
    ∃ regions, readRegions payload n i = some regions := by
  induction n generalizing i s with
  | zero => exact ⟨[], rfl⟩
  | succ n ih =>
      rw [fillRegions] at h
      obtain ⟨r, hr, h⟩ := Option.bind_eq_some_iff.mp h
      split at h
      · cases h
      · obtain ⟨total, -, h⟩ := Option.bind_eq_some_iff.mp h
        split at h
        · cases h
        · obtain ⟨⟨k, pages⟩, -, h⟩ := Option.bind_eq_some_iff.mp h
          obtain ⟨i', hi', h⟩ := Option.bind_eq_some_iff.mp h
          obtain rfl : i + 1 = i' := by
            rw [checkInt] at hi'
            split at hi' <;> cases hi'
            rfl
          obtain ⟨rest, hrest⟩ := ih h
          refine ⟨r :: rest, ?_⟩
          rw [readRegions, hr, Option.bind_eq_bind, Option.bind_some, hrest]
          rfl

/-- A list that `pages_list_create` returns is filled. -/
theorem filled_of_pagesListCreate {«export» : ImportDesc} {payload : List UInt8}
    {userflags : UInt32} {env : PagesEnv} {pglist : PagesList} {payloadCount : Int32}
    (hint : «export».payloadCount = payloadCount.toInt)
    (h : pagesListCreate «export» payload userflags env = some (.ok pglist)) :
    ∃ frames, pglist.Filled frames := by
  have hfields := h
  rw [pagesListCreate] at hfields
  obtain ⟨firstPfn, hfirst, hfields⟩ := Option.bind_eq_some_iff.mp hfields
  simp only at hfields
  split at hfields
  · cases hfields
  · obtain ⟨size, hsize, hfields⟩ := Option.bind_eq_some_iff.mp hfields
    split at hfields
    · cases hfields
    · obtain ⟨nregions, hnregions, hfields⟩ := Option.bind_eq_some_iff.mp hfields
      obtain ⟨result, hfill, hfields⟩ := Option.bind_eq_some_iff.mp hfields
      cases result with
      | error err => cases hfields
      | ok s =>
          obtain ⟨regions, hregions⟩ := exists_readRegions_of_fillRegions hfill
          have hread : readPfns payload =
              some ⟨UInt64.ofNat firstPfn, wordInt nregions, regions⟩ := by
            rw [readPfns, hfirst, hnregions]
            simp only [Option.bind_eq_bind, Option.bind_some, hregions]
          -- the array of that many pointers has a size of type `int`
          have hlt : toULong «export».payloadCount < 2 ^ 28 := by
            rw [checkInt, pagePointerSize] at hsize
            split at hsize
            · omega
            · cases hsize
          have hmin := payloadCount.le_toInt
          have hmax := payloadCount.toInt_lt
          have hpos : 0 ≤ «export».payloadCount := by
            by_contra hneg
            rw [toULong] at hlt
            omega
          obtain ⟨count, hcount⟩ := Int.eq_ofNat_of_zero_le hpos
          have hcountlt : count < 2 ^ 28 := by
            rw [toULong, hcount] at hlt
            omega
          rw [pagesListCreate_eq hread hcount hcountlt] at h
          split at h
          · cases h
          · split at h
            next => cases h
            next frames hframes =>
              cases h
              have hlen := length_of_frames hframes
              exact ⟨frames, rfl, congrArg Nat.cast hlen.symm, hlen ▸ hcountlt⟩

/-! ## The right pages -/

/-- What `dma_buf_mmap_internal` and `hab_mem_mmap` let through. -/
structure PagesList.Accepts (pglist : PagesList) (vma : VmArea) : Prop where
  pgoff : (vma.vmPgoff + vma.pages : ℕ) ≤ pglist.npages
  mmap : pglist.habMemMmap vma = none

/-- At an address a fault maps the page that the file offset of the VMA asks for, or is
refused where there is none; and `hab_map_fault` would do the same. -/
structure PagesList.FaultRight (pglist : PagesList) (vma : VmArea) (address : ℕ)
    (inserted : VmInsert) : Prop where
  map : (vma.vmPgoff + (address - vma.vmStart) / pageSize : ℕ) < pglist.npages →
    ∃ step page, pglist.habBufferFault vma address inserted = some step ∧
      pglist.page (vma.vmPgoff + (address - vma.vmStart) / pageSize) = some page ∧
        step.page = some page
  refuse : pglist.npages ≤ (vma.vmPgoff + (address - vma.vmStart) / pageSize : ℕ) →
    pglist.habBufferFault vma address inserted = some .refuse
  agree : (pglist.habBufferFault vma address inserted).map FaultStep.page =
    (pglist.habMapFault vma address).map FaultStep.page

/-- All faults in the VMA are right. -/
def PagesList.FaultsRight (pglist : PagesList) (vma : VmArea) : Prop :=
  ∀ address, vma.vmStart ≤ address → address < vma.vmEnd → ∀ inserted,
    pglist.FaultRight vma address inserted

namespace PagesList

variable {pglist : PagesList} {frames : List UInt64} {vma part : VmArea} {address : ℕ}

theorem Filled.page_eq (h : pglist.Filled frames) (i : ℕ) : pglist.page i = frames[i]? := by
  rw [page, h.pages, List.getElem?_map]
  cases frames[i]? <;> rfl

/-- A page of a part is one of the list. -/
theorem Accepts.lt_npages (h : pglist.Accepts vma) (hpart : vma.Part part)
    (hlo : part.vmStart ≤ address) (hhi : address < part.vmEnd) :
    (address - part.vmStart) / pageSize < part.pages ∧
      (part.vmPgoff + (address - part.vmStart) / pageSize : ℕ) < pglist.npages := by
  obtain ⟨hstart, hend, hpgoff⟩ := hpart.within
  have hsize := h.pgoff
  have hvma := vma.start_aligned
  have hvmaEnd := vma.end_aligned
  have hpartStart := part.start_aligned
  have hpartEnd := part.end_aligned
  rw [VmArea.pages, pageSize] at hsize
  rw [VmArea.pages, hpgoff]
  rw [pageSize] at hvma hvmaEnd hpartStart hpartEnd ⊢
  omega

/-- `hab_buffer_fault` goes by the distance from the start of the VMA alone. -/
theorem habBufferFault_eq (hfilled : pglist.Filled frames) {i : ℕ}
    (hi : (address - vma.vmStart) / pageSize = i) (hlt : i < frames.length)
    (inserted : VmInsert) :
    ∃ step, pglist.habBufferFault vma address inserted = some step ∧
      step.page = some frames[i] := by
  have hulong : toULong pglist.npages = frames.length := by
    rw [hfilled.npages, toULong_eq (by omega) (by have := hfilled.lt; omega), Int.toNat_natCast]
  rw [habBufferFault, hi, hulong, if_neg (by omega), hfilled.page_eq, List.getElem?_eq_getElem hlt]
  exact ⟨_, rfl, rfl⟩

theorem habMapFault_eq (hfilled : pglist.Filled frames) {i : ℕ}
    (hi : vma.vmPgoff + (address - vma.vmStart) / pageSize = i) (hlt : i < frames.length) :
    ∃ step, pglist.habMapFault vma address = some step ∧ step.page = some frames[i] := by
  have hmax := hfilled.lt
  have hoffset : (address - vma.vmStart + vma.vmPgoff * pageSize % 2 ^ 64) % 2 ^ 64 / pageSize =
      i := by
    rw [pageSize] at hi ⊢
    omega
  have hidx : (wordInt i).toInt = i := by
    have hword : wordInt i = Int32.ofNat i := rfl
    rw [hword, Int32.toInt_ofNat_of_lt (by omega)]
  rw [habMapFault]
  simp only [hoffset, hidx]
  rw [if_neg (by rw [hfilled.npages]; omega), Int.toNat_natCast, hfilled.page_eq,
    List.getElem?_eq_getElem hlt]
  exact ⟨_, rfl, rfl⟩

/-- A fault in a part is right exactly if the page at the distance from the start of the
VMA is the page at the file offset. -/
theorem faultRight_iff (hfilled : pglist.Filled frames) (h : pglist.Accepts vma)
    (hpart : vma.Part part) (hlo : part.vmStart ≤ address) (hhi : address < part.vmEnd)
    (inserted : VmInsert) :
    pglist.FaultRight part address inserted ↔
      pglist.page ((address - part.vmStart) / pageSize) =
        pglist.page (part.vmPgoff + (address - part.vmStart) / pageSize) := by
  obtain ⟨-, hlt⟩ := h.lt_npages hpart hlo hhi
  obtain ⟨i, hi⟩ : ∃ i, (address - part.vmStart) / pageSize = i := ⟨_, rfl⟩
  obtain ⟨j, hj⟩ : ∃ j, part.vmPgoff + (address - part.vmStart) / pageSize = j := ⟨_, rfl⟩
  have hlen : j < frames.length := by
    rw [hj, hfilled.npages] at hlt
    omega
  have hle : i ≤ j := by omega
  obtain ⟨step, hstep, hpage⟩ :=
    habBufferFault_eq hfilled hi (Nat.lt_of_le_of_lt hle hlen) inserted
  obtain ⟨step', hstep', hpage'⟩ := habMapFault_eq hfilled hj hlen
  have hframe : pglist.page j = some frames[j] := by
    rw [hfilled.page_eq, List.getElem?_eq_getElem hlen]
  have hlen' := Nat.lt_of_le_of_lt hle hlen
  have hframe' : pglist.page i = some frames[i] := by
    rw [hfilled.page_eq, List.getElem?_eq_getElem hlen']
  constructor
  · intro hright
    obtain ⟨step'', page, hstep'', hgoal, hpage''⟩ := hright.map hlt
    rw [hj] at hgoal
    rw [hj, hi, hframe', ← hpage, hgoal, ← hpage'']
    exact congrArg FaultStep.page (Option.some.inj (hstep.symm.trans hstep''))
  · intro heq
    rw [hj, hi, hframe, hframe'] at heq
    refine ⟨fun _ ↦ ?_, fun hout ↦ ?_, ?_⟩
    · rw [hj]
      exact ⟨step, frames[j], hstep, hframe, hpage.trans heq⟩
    · omega
    · rw [hstep, hstep', Option.map_some, Option.map_some, hpage, hpage', heq]

/-- The faults in what is left of an accepted VMA map the right pages exactly if its first
page is the first of the list, or the list repeats itself from there on. -/
theorem faultsRight_iff {«export» : ImportDesc} {payload : List UInt8}
    {userflags : UInt32} {env : PagesEnv} {payloadCount : Int32}
    (hint : «export».payloadCount = payloadCount.toInt)
    (hlist : pagesListCreate «export» payload userflags env = some (.ok pglist))
    (h : pglist.Accepts vma) (hpart : vma.Part part) :
    pglist.FaultsRight part ↔
      part.vmPgoff = 0 ∨
        (pglist.pages.drop part.vmPgoff).take part.pages = pglist.pages.take part.pages := by
  obtain ⟨frames, hfilled⟩ := filled_of_pagesListCreate hint hlist
  have hrepeat : (part.vmPgoff = 0 ∨
      (pglist.pages.drop part.vmPgoff).take part.pages = pglist.pages.take part.pages) ↔
        ∀ i < part.pages, pglist.pages[i]? = pglist.pages[part.vmPgoff + i]? := by
    constructor
    · rintro (hzero | heq) i hi
      · rw [hzero, Nat.zero_add]
      · have hget := congrArg (fun pages ↦ pages[i]?) heq
        simp only [List.getElem?_take_of_lt hi, List.getElem?_drop] at hget
        exact hget.symm
    · intro hall
      right
      apply List.ext_getElem?
      intro i
      rcases Nat.lt_or_ge i part.pages with hi | hi
      · rw [List.getElem?_take_of_lt hi, List.getElem?_take_of_lt hi, List.getElem?_drop]
        exact (hall i hi).symm
      · have hnone : ∀ pages : List (Option UInt64), (pages.take part.pages)[i]? = none := by
          intro pages
          exact List.getElem?_eq_none ((List.length_take_le _ _).trans hi)
        rw [hnone, hnone]
  rw [hrepeat]
  have hget : ∀ i, pglist.pages[i]? = (pglist.page i).map some := by
    intro i
    rw [hfilled.page_eq, hfilled.pages, List.getElem?_map]
  constructor
  · intro hright i hi
    have hend : part.vmStart + i * pageSize < part.vmEnd := by
      have hstart := part.start_aligned
      have hlast := part.end_aligned
      rw [VmArea.pages, pageSize] at hi
      rw [pageSize] at hstart hlast ⊢
      omega
    have hfault := hright (part.vmStart + i * pageSize) (Nat.le_add_right _ _) hend .ok
    have hidx : (part.vmStart + i * pageSize - part.vmStart) / pageSize = i := by
      rw [Nat.add_sub_cancel_left, Nat.mul_div_cancel i (by decide)]
    rw [faultRight_iff hfilled h hpart (Nat.le_add_right _ _) hend, hidx] at hfault
    rw [hget, hget, hfault]
  · intro hall address hlo hhi inserted
    obtain ⟨hi, -⟩ := h.lt_npages hpart hlo hhi
    have heq := hall _ hi
    rw [hget, hget] at heq
    rw [faultRight_iff hfilled h hpart hlo hhi]
    exact Option.map_injective (Option.some_injective _) heq

/-- The pages at frames 100 and 300. -/
def twoPages : PagesList := ⟨[some 100, some 300], 2, 0, 1, 2, vcidPchan 0⟩

theorem pagesListCreate_twoPages :
    pagesListCreate ⟨1, vcidPchan 0, 1, 2, 2, .init⟩
      (CompressedPfns.mk 100 2 [⟨1, 199⟩, ⟨1, 0⟩]).bytes 0 ⟨fun _ ↦ true, true, true⟩ =
        some (.ok twoPages) :=
  rfl

/-- Both pages, and the second page alone. -/
def twoPagesVma : VmArea := ⟨4096, 12288, 0, by decide, by decide, by decide, by decide⟩

def secondPageVma : VmArea := ⟨4096, 8192, 1, by decide, by decide, by decide, by decide⟩

theorem faultsRight_iff_twoPages : twoPages.FaultsRight twoPagesVma := by
  have hint : (2 : ℤ) = (2 : Int32).toInt := rfl
  exact (faultsRight_iff hint pagesListCreate_twoPages ⟨by decide, by decide⟩ .whole).mpr
    (.inl rfl)

/-- A mapping of the second page alone shows the first. -/
theorem not_faultsRight :
    ¬ ∀ («export» : ImportDesc) (payload : List UInt8) (userflags : UInt32) (env : PagesEnv)
        (payloadCount : Int32) (pglist : PagesList) (vma part : VmArea),
      «export».payloadCount = payloadCount.toInt →
        pagesListCreate «export» payload userflags env = some (.ok pglist) →
          pglist.Accepts vma → vma.Part part → pglist.FaultsRight part := by
  intro h
  have hright := h _ _ _ _ 2 twoPages secondPageVma secondPageVma rfl pagesListCreate_twoPages
    ⟨by decide, by decide⟩ .whole 4096 (by decide) (by decide) .ok
  obtain ⟨step, page, hstep, hpage, hmap⟩ := hright.map (by decide)
  cases hstep
  cases hpage
  exact absurd hmap (by decide)

end PagesList

end Hab
