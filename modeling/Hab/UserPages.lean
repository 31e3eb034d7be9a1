import Hab.Library.Runs

/-!
# The pages of a user export

`habmem_get_dma_buf_from_uva` pins the pages of a user buffer and puts them into a page
list, behind a dma-buf, behind an export descriptor.  Each of these has its own count of
references, and the last put on one puts the next.  No release callback unpins the pages.
-/

namespace Hab

/-- How the calls inside `habmem_get_dma_buf_from_uva` turn out. -/
structure UvaEnv where
  pagesAlloc : Bool
  pglistAlloc : Bool
  /-- The pages that `get_user_pages` pins; none if it fails. -/
  pins : List UInt64
  /-- What the memory of `pages[]` holds before. -/
  stale : ℕ → UInt64
  dmaBufExport : Bool

/-- Where a user export stands. -/
inductive UvaStage where
  | start
  /-- `habmem_get_dma_buf_from_uva` has returned the dma-buf. -/
  | granted
  /-- `habmem_add_export_compress` has made the descriptor. -/
  | added
  /-- `hab_mem_export` has returned the id. -/
  | exported
  /-- The descriptor is on the reclaim list. -/
  | reclaiming
  | failed
  /-- The kernel has stopped at `err_alloc`, where `export` is NULL. -/
  | crashed
  | destroyed
deriving DecidableEq

/-- The export is over, whether the call failed, the kernel stopped in it, or the descriptor
was put for the last time. -/
def UvaStage.Over (stage : UvaStage) : Prop :=
  stage = .failed ∨ stage = .crashed ∨ stage = .destroyed

/-- A user export with the objects behind it. -/
structure UvaExport where
  /-- `pchan->mem_proto` at present, which is 0 or 1. -/
  memProto : Bool
  pageCount : ℕ
  stage : UvaStage
  remoteImported : Bool
  /-- `pglist->pages`. -/
  pages : List UInt64
  pglistRefs : ℕ
  dmaBufRefs : ℕ
  descRefs : ℕ
  /-- What has been pinned, and what `put_page` was called on. -/
  pinned : List UInt64
  unpinned : List UInt64

/-- What may happen next. -/
inductive UvaAct where
  /-- An open on the channel writes `pchan->mem_proto`. -/
  | negotiate (newProto : Bool)
  /-- `habmem_get_dma_buf_from_uva`. -/
  | getDmaBuf (env : UvaEnv)
  /-- `habmem_add_export_compress`. -/
  | addExport (vzalloc platformData : Bool)
  /-- `habmem_export_vchan`, which succeeds or not. -/
  | exportVchan (ok : Bool)
  | recvImport
  | recvUnimport
  /-- `hab_mem_unexport`. -/
  | unexport
  /-- `hab_ctx_free`, where it comes to the descriptor. -/
  | ctxFree
  /-- `reclaim_cleanup`, where it comes to the descriptor. -/
  | reclaim

namespace UvaExport

/-- `pages_list_destroy`; a list of exported pages is on no list of the driver. -/
def pagesListDestroy (s : UvaExport) : UvaExport := { s with pages := [] }

def pagesListPut (s : UvaExport) : UvaExport :=
  let s := { s with pglistRefs := s.pglistRefs - 1 }
  if s.pglistRefs = 0 then s.pagesListDestroy else s

/-- `dma_buf_put`, with `hab_mem_dma_buf_release` on the last one. -/
def dmaBufPut (s : UvaExport) : UvaExport :=
  let s := { s with dmaBufRefs := s.dmaBufRefs - 1 }
  if s.dmaBufRefs = 0 then s.pagesListPut else s

/-- `habmem_exp_release`: there is no attachment to a buffer of the driver's own. -/
def habmemExpRelease (s : UvaExport) : UvaExport := s.dmaBufPut

/-- `habmem_export_put`, with `habmem_export_destroy` on the last one. -/
def habmemExportPut (s : UvaExport) : UvaExport :=
  let s := { s with descRefs := s.descRefs - 1 }
  if s.descRefs = 0 then { s.habmemExpRelease with stage := .destroyed } else s

/-- `pages[]` after `get_user_pages` has written the pages that it has pinned. -/
def pagesOf (pageCount : ℕ) (env : UvaEnv) : List UInt64 :=
  (List.range pageCount).map fun i ↦ env.pins.getD i (env.stale i)

def habmemGetDmaBufFromUva (s : UvaExport) (env : UvaEnv) : UvaExport :=
  if !env.pagesAlloc || !env.pglistAlloc then { s with stage := .failed }
  else if env.pins = [] then { s with stage := .failed }
  else
    let pages := pagesOf s.pageCount env
    if env.dmaBufExport then
      { s with
        stage := .granted
        pages := pages
        pglistRefs := 1
        dmaBufRefs := 1
        pinned := env.pins }
    -- `put_page` on all of `pages[]`, before it is freed with the list
    else { s with stage := .failed, pinned := env.pins, unpinned := pages }

/-- `habmem_add_export_compress`.  There is no result where the kernel would stop. -/
def habmemAddExportCompress (s : UvaExport) (vzalloc platformData : Bool) : Option UvaExport :=
  if !vzalloc then some { s.dmaBufPut with stage := .failed }
  else if !platformData then none -- `export` is still NULL at `err_alloc`
  else some { s with stage := .added, descRefs := 1 }

def step (s : UvaExport) : UvaAct → Option UvaExport
  | .negotiate newProto => some { s with memProto := newProto }
  | .getDmaBuf env =>
      if s.stage = .start ∧ env.pins.length ≤ s.pageCount then some (s.habmemGetDmaBufFromUva env)
      else none
  | .addExport vzalloc platformData =>
      if s.stage = .granted then
        some ((s.habmemAddExportCompress vzalloc platformData).getD { s with stage := .crashed })
      else none
  | .exportVchan ok =>
      if s.stage = .added then some { s with stage := if ok then .exported else .failed }
      else none
  | .recvImport =>
      if s.stage = .exported then some { s with remoteImported := true } else none
  | .recvUnimport =>
      if s.stage = .exported ∨ s.stage = .reclaiming then
        some { s with remoteImported := false }
      else none
  | .unexport =>
      if s.stage = .exported then
        if s.remoteImported then some s else some s.habmemExportPut
      else none
  | .ctxFree =>
      if s.stage = .exported then
        if s.remoteImported && s.memProto then some { s with stage := .reclaiming }
        else some s.habmemExportPut
      else none
  | .reclaim =>
      if s.stage = .reclaiming then
        if s.remoteImported then some s else some s.habmemExportPut
      else none

/-- The call `hab_mem_export` of a user buffer. -/
def start (memProto : Bool) (pageCount : ℕ) : UvaExport :=
  ⟨memProto, pageCount, .start, false, [], 0, 0, 0, [], []⟩

/-- What is claimed of an export. -/
structure Balanced (s : UvaExport) : Prop where
  allPinned : s.stage = .exported ∨ s.stage = .reclaiming → s.pages = s.pinned
  unpinned : s.stage.Over → s.unpinned.Perm s.pinned

/-- The condition on a step: with fewer pages pinned than asked for, `dma_buf_export` does
not fail and the export does not succeed; and no export that has pages fails later or is
destroyed. -/
def Kept (s : UvaExport) : UvaAct → Prop
  | .getDmaBuf env =>
      env.pagesAlloc = true → env.pglistAlloc = true → env.pins ≠ [] → env.dmaBufExport = false →
        env.pins.length = s.pageCount
  | .addExport vzalloc platformData => vzalloc = true ∧ platformData = true
  | .exportVchan ok => ok = true ∧ s.pinned.length = s.pageCount
  | .negotiate _ | .recvImport | .recvUnimport => True
  | .unexport | .reclaim => s.remoteImported = true
  | .ctxFree => s.remoteImported = true ∧ s.memProto = true

/-- What lies behind an export that has got its dma-buf: one reference each, and the pinned
pages at the front of `pages[]`. -/
structure Held (s : UvaExport) : Prop where
  pglistRefs : s.pglistRefs = 1
  dmaBufRefs : s.dmaBufRefs = 1
  descRefs : s.stage ≠ .granted → s.descRefs = 1
  pinned : s.pinned ≠ []
  pages : s.pages = s.pinned ↔ s.pinned.length = s.pageCount
  unpinned : s.unpinned = []

/-- Nothing is pinned before the call, and all is held from then on to the end. -/
structure Sound (s : UvaExport) : Prop where
  start : s.stage = .start → s.pinned = [] ∧ s.unpinned = []
  held : s.stage ≠ .start → ¬ s.stage.Over → s.Held

variable {s t : UvaExport}

/-! ## The functions -/

theorem length_pagesOf (pageCount : ℕ) (env : UvaEnv) :
    (pagesOf pageCount env).length = pageCount := by
  rw [pagesOf, List.length_map, List.length_range]

/-- If all pages are pinned, nothing stale is left in `pages[]`. -/
theorem pagesOf_eq_pins_iff {pageCount : ℕ} {env : UvaEnv} :
    pagesOf pageCount env = env.pins ↔ env.pins.length = pageCount := by
  constructor
  · intro h
    rw [← h, length_pagesOf]
  · rintro rfl
    apply List.ext_getElem (length_pagesOf _ _)
    intro i hi hi'
    simp [pagesOf, hi']

theorem perm_pagesOf_iff {pageCount : ℕ} {env : UvaEnv} :
    (pagesOf pageCount env).Perm env.pins ↔ env.pins.length = pageCount := by
  constructor
  · intro h
    rw [← h.length_eq, length_pagesOf]
  · intro h
    rw [pagesOf_eq_pins_iff.mpr h]

/-- The last put on the dma-buf frees the page list and unpins nothing. -/
theorem dmaBufPut_eq (hs : s.Held) :
    s.dmaBufPut = { s with dmaBufRefs := 0, pglistRefs := 0, pages := [] } := by
  simp only [dmaBufPut, pagesListPut, pagesListDestroy, hs.dmaBufRefs, hs.pglistRefs,
    Nat.sub_self, if_true]

theorem habmemExportPut_eq (hs : s.Held) (hstage : s.stage ≠ .granted) :
    s.habmemExportPut =
      { s with
        stage := .destroyed, descRefs := 0, dmaBufRefs := 0, pglistRefs := 0, pages := [] } := by
  simp only [habmemExportPut, habmemExpRelease, dmaBufPut, pagesListPut, pagesListDestroy,
    hs.descRefs hstage, hs.dmaBufRefs, hs.pglistRefs, Nat.sub_self, if_true]

/-- An export that ends while it holds its pages leaks them. -/
theorem Held.unbalanced (hs : s.Held) (hpinned : t.pinned = s.pinned)
    (hunpinned : t.unpinned = s.unpinned) (hend : t.stage.Over) : ¬ t.Balanced := by
  intro hbalanced
  have hperm := hbalanced.unpinned hend
  rw [hpinned, hunpinned, hs.unpinned] at hperm
  exact hs.pinned (List.nil_perm.mp hperm)

theorem balanced_of_stage (hpages : s.stage ≠ .exported) (hreclaiming : s.stage ≠ .reclaiming)
    (hover : ¬ s.stage.Over) : s.Balanced :=
  ⟨fun h ↦ (h.elim hpages hreclaiming).elim, fun h ↦ (hover h).elim⟩

/-! ## Steps -/

theorem sound_of_end (hend : s.stage.Over) : s.Sound := by
  refine ⟨?_, ?_⟩
  · intro hstart
    rw [hstart] at hend
    rcases hend with h | h | h <;> cases h
  · intro _ hover
    exact (hover hend).elim

theorem sound_of_held (hs : s.Held) (hstage : s.stage ≠ .start) : s.Sound :=
  ⟨fun h ↦ absurd h hstage, fun _ _ ↦ hs⟩

theorem Sound.held_of (hs : s.Sound) {stage : UvaStage} (hstage : s.stage = stage)
    (hstart : stage ≠ .start) (hover : ¬ stage.Over) : s.Held := by
  subst hstage
  exact hs.held hstart hover

theorem habmemGetDmaBufFromUva_spec (hs : s.Sound) (hstage : s.stage = .start) (env : UvaEnv) :
    (s.habmemGetDmaBufFromUva env).Sound ∧
      ((s.habmemGetDmaBufFromUva env).Balanced ↔ s.Kept (.getDmaBuf env)) := by
  obtain ⟨hpinned, hunpinned⟩ := hs.start hstage
  have hnothing : Balanced { s with stage := .failed } := by
    refine ⟨by simp, fun _ ↦ ?_⟩
    change s.unpinned.Perm s.pinned
    rw [hpinned, hunpinned]
  rw [habmemGetDmaBufFromUva]
  split
  next halloc =>
    refine ⟨sound_of_end (.inl rfl), iff_of_true hnothing ?_⟩
    intro hpages hpglist
    simp [hpages, hpglist] at halloc
  next halloc =>
    split
    next hnone => exact ⟨sound_of_end (.inl rfl), iff_of_true hnothing fun _ _ h ↦ absurd hnone h⟩
    next hsome =>
      dsimp only
      split
      next hexport =>
        refine ⟨sound_of_held ⟨rfl, rfl, fun h ↦ absurd rfl h, hsome, pagesOf_eq_pins_iff,
          hunpinned⟩ (by simp), iff_of_true ?_ ?_⟩
        · apply balanced_of_stage <;> simp [UvaStage.Over]
        · intro _ _ _ hfails
          rw [hexport] at hfails
          cases hfails
      next hexport =>
        refine ⟨sound_of_end (.inl rfl), ?_⟩
        have hallocs : env.pagesAlloc = true ∧ env.pglistAlloc = true := by simpa using halloc
        have hfails : env.dmaBufExport = false := by simpa using hexport
        constructor
        · intro hbalanced _ _ _ _
          exact perm_pagesOf_iff.mp (hbalanced.unpinned (.inl rfl))
        · intro hkept
          have hlen := hkept hallocs.1 hallocs.2 hsome hfails
          exact ⟨by simp, fun _ ↦ perm_pagesOf_iff.mpr hlen⟩

theorem habmemExportPut_spec (hs : s.Held) (hstage : s.stage ≠ .granted) :
    s.habmemExportPut.Sound ∧ ¬ s.habmemExportPut.Balanced := by
  rw [habmemExportPut_eq hs hstage]
  exact ⟨sound_of_end (.inr (.inr rfl)), hs.unbalanced rfl rfl (.inr (.inr rfl))⟩

theorem habmemAddExportCompress_spec (hs : s.Held) (hstage : s.stage = .granted)
    (vzalloc platformData : Bool) :
    ((s.habmemAddExportCompress vzalloc platformData).getD { s with stage := .crashed }).Sound ∧
      (((s.habmemAddExportCompress vzalloc platformData).getD
          { s with stage := .crashed }).Balanced ↔
        s.Kept (.addExport vzalloc platformData) ∧ s.Balanced) := by
  rw [habmemAddExportCompress]
  split
  next hno =>
    have hno : vzalloc = false := by simpa using hno
    rw [dmaBufPut_eq hs, Option.getD_some]
    refine ⟨sound_of_end (.inl rfl), iff_of_false ?_ ?_⟩
    · exact hs.unbalanced rfl rfl (.inl rfl)
    · rintro ⟨⟨hkept, -⟩, -⟩
      exact Bool.false_ne_true (hno.symm.trans hkept)
  next hyes =>
    split
    next hno =>
      -- the pages stay pinned behind a dma-buf that nobody puts
      refine ⟨sound_of_end (.inr (.inl rfl)), iff_of_false ?_ ?_⟩
      · exact hs.unbalanced rfl rfl (.inr (.inl rfl))
      · rintro ⟨⟨-, hkept⟩, -⟩
        simp [hkept] at hno
    next hdata =>
      have hkept : s.Kept (.addExport vzalloc platformData) := by
        simpa [Kept] using And.intro hyes hdata
      refine ⟨sound_of_held ⟨hs.pglistRefs, hs.dmaBufRefs, fun _ ↦ rfl, hs.pinned, hs.pages,
        hs.unpinned⟩ (by simp), iff_of_true ?_ ⟨hkept, ?_⟩⟩
      · apply balanced_of_stage <;> simp [UvaStage.Over]
      · apply balanced_of_stage <;> simp [hstage, UvaStage.Over]

/-- An export that succeeds has all its pages, and one that fails keeps them. -/
theorem exportVchan_spec (hs : s.Held) (hstage : s.stage = .added) (ok : Bool) :
    { s with stage := if ok then .exported else .failed }.Sound ∧
      ({ s with stage := if ok then .exported else .failed }.Balanced ↔
        s.Kept (.exportVchan ok) ∧ s.Balanced) := by
  have hbefore : s.Balanced := by
    apply balanced_of_stage <;> simp [hstage, UvaStage.Over]
  cases ok with
  | true =>
      refine ⟨sound_of_held ⟨hs.pglistRefs, hs.dmaBufRefs, fun _ ↦ hs.descRefs (by simp [hstage]),
        hs.pinned, hs.pages, hs.unpinned⟩ (by simp), ?_⟩
      rw [Kept, and_iff_left hbefore, and_iff_right rfl, ← hs.pages]
      exact ⟨fun h ↦ h.allPinned (.inl rfl), fun h ↦ ⟨fun _ ↦ h, by simp [UvaStage.Over]⟩⟩
  | false =>
      refine ⟨sound_of_end (.inl rfl), iff_of_false ?_ ?_⟩
      · exact hs.unbalanced rfl rfl (.inl rfl)
      · rintro ⟨⟨hok, -⟩, -⟩
        cases hok

/-- A message of the importer changes no more than the flag. -/
theorem remoteImported_spec (hs : s.Held) (hstart : s.stage ≠ .start) (imported : Bool) :
    { s with remoteImported := imported }.Sound ∧
      ({ s with remoteImported := imported }.Balanced ↔ s.Balanced) :=
  ⟨sound_of_held ⟨hs.1, hs.2, hs.3, hs.4, hs.5, hs.6⟩ hstart,
    fun h ↦ ⟨h.1, h.2⟩, fun h ↦ ⟨h.1, h.2⟩⟩

/-- An export that the importer still has goes to the reclaim list with its pages. -/
theorem reclaiming_spec (hs : s.Held) (hstage : s.stage = .exported) :
    { s with stage := .reclaiming }.Sound ∧
      ({ s with stage := .reclaiming }.Balanced ↔ s.Balanced) :=
  ⟨sound_of_held ⟨hs.pglistRefs, hs.dmaBufRefs, fun _ ↦ hs.descRefs (by simp [hstage]), hs.pinned,
      hs.pages, hs.unpinned⟩ (by simp),
    fun h ↦ ⟨fun _ ↦ h.1 (.inr rfl), by simp [hstage, UvaStage.Over]⟩,
    fun h ↦ ⟨fun _ ↦ h.1 (.inl hstage), by simp [UvaStage.Over]⟩⟩

/-- A step keeps what is known of an export, and it stays balanced exactly if the step meets
the condition. -/
theorem step_spec (hs : s.Sound) {act : UvaAct} (hstep : s.step act = some t) :
    t.Sound ∧ (t.Balanced ↔ s.Kept act ∧ s.Balanced) := by
  cases act with
  | negotiate newProto =>
      cases hstep
      refine ⟨⟨hs.start, fun hstart hover ↦ ?_⟩, ?_⟩
      · have hheld := hs.held hstart hover
        exact ⟨hheld.1, hheld.2, hheld.3, hheld.4, hheld.5, hheld.6⟩
      · rw [Kept, true_and]
        exact ⟨fun h ↦ ⟨h.1, h.2⟩, fun h ↦ ⟨h.1, h.2⟩⟩
  | getDmaBuf env =>
      simp only [step] at hstep
      split at hstep <;> cases hstep
      next hcan =>
        obtain ⟨hsound, hiff⟩ := habmemGetDmaBufFromUva_spec hs hcan.1 env
        refine ⟨hsound, hiff.trans (and_iff_left ?_).symm⟩
        apply balanced_of_stage <;> simp [hcan.1, UvaStage.Over]
  | addExport vzalloc platformData =>
      simp only [step] at hstep
      split at hstep <;> cases hstep
      next hstage =>
        exact habmemAddExportCompress_spec (hs.held_of hstage (by simp) (by simp [UvaStage.Over]))
          hstage vzalloc platformData
  | exportVchan ok =>
      simp only [step] at hstep
      split at hstep <;> cases hstep
      next hstage =>
        exact exportVchan_spec (hs.held_of hstage (by simp) (by simp [UvaStage.Over])) hstage ok
  | recvImport =>
      simp only [step] at hstep
      split at hstep <;> cases hstep
      next hstage =>
        have hheld := hs.held_of hstage (by simp) (by simp [UvaStage.Over])
        rw [Kept, true_and]
        exact remoteImported_spec hheld (by simp [hstage]) true
  | recvUnimport =>
      simp only [step] at hstep
      split at hstep <;> cases hstep
      next hstage =>
        rw [Kept, true_and]
        rcases hstage with hstage | hstage <;>
          exact remoteImported_spec (hs.held_of hstage (by simp) (by simp [UvaStage.Over]))
            (by simp [hstage]) false
  | unexport | reclaim =>
      simp only [step] at hstep
      split at hstep
      next hstage =>
        have hheld := hs.held_of hstage (by simp) (by simp [UvaStage.Over])
        split at hstep <;> cases hstep
        next himported => exact ⟨hs, (and_iff_right himported).symm⟩
        next himported =>
          obtain ⟨hsound, hleak⟩ := habmemExportPut_spec hheld (by simp [hstage])
          exact ⟨hsound, iff_of_false hleak fun h ↦ himported h.1⟩
      next => cases hstep
  | ctxFree =>
      simp only [step] at hstep
      split at hstep
      next hstage =>
        have hheld := hs.held_of hstage (by simp) (by simp [UvaStage.Over])
        split at hstep <;> cases hstep
        next himported =>
          have hkept : s.Kept .ctxFree := by simpa [Kept] using himported
          rw [and_iff_right hkept]
          exact reclaiming_spec hheld hstage
        next himported =>
          obtain ⟨hsound, hleak⟩ := habmemExportPut_spec hheld (by simp [hstage])
          refine ⟨hsound, iff_of_false hleak ?_⟩
          rintro ⟨⟨h, h'⟩, -⟩
          simp [h, h'] at himported
      next => cases hstep

/-- The pages of a user export are pinned and unpinned in balance exactly in the runs whose
steps meet the condition. -/
theorem balanced_iff_of_exec {memProto : Bool} {pageCount : ℕ} {acts : List UvaAct}
    (hrun : Runs.exec step (start memProto pageCount) acts = some s) :
    s.Balanced ↔ Runs.Meets step Kept (start memProto pageCount) acts := by
  refine Runs.iff_meets_of_exec (J := Sound) (I := Balanced) ?_ ?_ ?_ ?_ hrun
  · intro u act v hu huv
    exact (step_spec hu huv).1
  · intro u act v hu huv
    exact (step_spec hu huv).2
  · exact ⟨fun _ ↦ ⟨rfl, rfl⟩, fun h ↦ absurd rfl h⟩
  · apply balanced_of_stage <;> simp [start, UvaStage.Over]

/-- What `get_user_pages` pins, and nothing else fails. -/
def pinning (pins : List UInt64) : UvaEnv := ⟨true, true, pins, fun _ ↦ 0, true⟩

/-- Two pages are exported and imported, and a call to unexport them is refused. -/
def keptExport : List UvaAct :=
  [.getDmaBuf (pinning [5, 9]), .addExport true true, .exportVchan true, .recvImport, .unexport]

theorem balanced_iff_of_exec_keptExport :
    ∃ s, Runs.exec step (start true 2) keptExport = some s ∧ s.stage = .exported ∧
      s.Balanced := by
  have hseen : (Runs.exec step (start true 2) keptExport).map stage = some .exported := by
    decide
  obtain ⟨s, hrun, hstage⟩ := Option.map_eq_some_iff.mp hseen
  refine ⟨s, hrun, hstage, (balanced_iff_of_exec hrun).mpr ?_⟩
  refine ⟨?_, ⟨rfl, rfl⟩, ⟨rfl, rfl⟩, trivial, rfl, trivial⟩
  intro _ _ _ hfails
  cases hfails

/-- One page of two is pinned, and the export goes through. -/
theorem not_balanced :
    ¬ ∀ (memProto : Bool) (pageCount : ℕ) (acts : List UvaAct) (s : UvaExport),
      Runs.exec step (start memProto pageCount) acts = some s → s.Balanced := by
  intro h
  have hseen : (Runs.exec step (start true 2) [.getDmaBuf (pinning [5]), .addExport true true,
      .exportVchan true]).map (fun s ↦ (s.stage, s.pages, s.pinned)) =
        some (.exported, [5, 0], [5]) := by
    decide
  obtain ⟨s, hrun, hfields⟩ := Option.map_eq_some_iff.mp hseen
  rw [Prod.mk.injEq, Prod.mk.injEq] at hfields
  have hpages := (h _ _ _ s hrun).allPinned (.inl hfields.1)
  rw [hfields.2.1, hfields.2.2] at hpages
  cases hpages

end UvaExport

end Hab
