import Mathlib.Data.List.Nodup
import Hab.ImportSystem

/-!
# Import descriptors are used by one call at a time

A descriptor in `imp_whse` is worked on by the call that has found it in
EXP_DESC_INIT or EXP_DESC_IMPORTED.  The rollback of `hab_mem_import` puts it back
to EXP_DESC_INIT before it removes it, so the state alone does not keep others
away; what does is that an import of the new protocol looks for a descriptor
only when it holds the one ack that came with it.
-/

namespace Hab

/-- The descriptor an ack speaks of. -/
def HabImportAck.key (ack : HabImportAck) : UInt32 × HabPchan :=
  (ack.exportId, vcidPchan ack.vcidLocal)

/-- The ack lets an import of this key look for its descriptor. -/
def HabImportAck.grants (key : UInt32 × HabPchan) (ack : HabImportAck) : Bool :=
  ack.impWhseAdded && ack.key = key

def ImportVm.key (vm : ImportVm) (e : ℕ) : UInt32 × HabPchan :=
  ((vm.desc e).exportId, (vm.desc e).pchan)

namespace ImportStage

/-- The call works on the descriptor in the warehouse. -/
def worksOn (e : ℕ) : ImportStage → Bool
  | .importing _ _ e' | .mapped _ e' | .failed _ e' | .unimporting _ e' | .restoring _ e'
  | .undoing _ e' | .removing _ e' => e' = e
  | _ => false

/-- No other call may use the descriptor. -/
def owns (e : ℕ) : ImportStage → Bool
  | .queueing _ ack e' => !ack.impWhseAdded && e' = e
  | .exportAcking _ e' added => !added && e' = e
  | .rejected _ e' | .freeing _ e' => e' = e
  | stage => stage.worksOn e

/-- The EXPORT_ACK for a descriptor in the warehouse is still to be sent. -/
def acks (e : ℕ) : ImportStage → Bool
  | .exportAcking _ e' added => added && e' = e
  | _ => false

/-- The call holds an ack that lets an import of this key look for its
descriptor, or has used it up to do so. -/
def claims (memProto : HabPchan → Bool) (key : UInt32 × HabPchan) : ImportStage → Bool
  | .queueing _ ack _ => ack.grants key
  | .acked vchan param scanImpWhse =>
      scanImpWhse && (param.exportId, vchan.pchan) = key
  | .finding vchan param => memProto vchan.pchan && (param.exportId, vchan.pchan) = key
  | _ => false

/-- What a call that owns a descriptor knows of its state. -/
def expects (memProto : HabPchan → Bool) (d : ImportDesc) : ImportStage → Prop
  | .importing vchan _ _ | .failed vchan _ => d.importState = .importing ∧ d.pchan = vchan.pchan
  | .mapped _ _ => d.importState = .importing
  | .unimporting _ _ | .restoring _ _ => d.importState = .unimporting
  | .undoing _ _ | .removing _ _ =>
      d.importState = .unimporting ∨ d.importState = .init ∧ memProto d.pchan = true
  | _ => True

theorem owns_of_worksOn {stage : ImportStage} {e : ℕ} (h : stage.worksOn e = true) :
    stage.owns e = true := by
  cases stage <;> first | exact h | cases h

end ImportStage

namespace ImportVm

/-- What holds of the warehouse and of all descriptors. -/
structure Heap (vm : ImportVm) : Prop where
  live : ∀ e ∈ vm.impWhse, e < vm.nextDesc ∧ vm.freed e = 0
  nodup : vm.impWhse.Nodup
  keys : ∀ e ∈ vm.impWhse, ∀ e' ∈ vm.impWhse, vm.key e = vm.key e' → e = e'
  total : vm.importTotal = vm.impWhse.length
  once : ∀ e, vm.freed e ≤ 1
  fresh : ∀ e, vm.nextDesc ≤ e → vm.freed e = 0
  noUse : vm.useAfterFree = false

/-- A step that concerns only one descriptor. -/
structure Local (e : ℕ) (vm vm' : ImportVm) : Prop where
  memProto : vm'.memProto = vm.memProto
  nextDesc : vm.nextDesc ≤ vm'.nextDesc
  desc : ∀ e', e' ≠ e → vm'.desc e' = vm.desc e'
  freed : ∀ e', e' ≠ e → vm'.freed e' = vm.freed e'
  impWhse : ∀ e', e' ≠ e → (e' ∈ vm'.impWhse ↔ e' ∈ vm.impWhse)

variable {vm vm' : ImportVm}

/-- Accesses to descriptors that are not freed do no harm. -/
theorem touch_eq {es : List ℕ} (h : ∀ e ∈ es, vm.freed e = 0) : vm.touch es = vm := by
  have hnone : es.any (fun e ↦ vm.freed e ≠ 0) = false := by
    rw [List.any_eq_false]
    intro e he
    simp [h e he]
  rw [touch, hnone, Bool.or_false]

theorem touch_singleton_eq {e : ℕ} (h : vm.freed e = 0) : vm.touch [e] = vm := by
  refine touch_eq fun e' he' ↦ ?_
  rw [List.mem_singleton.mp he']
  exact h

theorem Heap.touch_impWhse_eq (h : vm.Heap) : vm.touch vm.impWhse = vm :=
  touch_eq fun e he ↦ (h.live e he).2

theorem habRbExpFind_eq_some {exportId : UInt32} {pchan : HabPchan} {e : ℕ}
    (h : vm.habRbExpFind exportId pchan = some e) :
    e ∈ vm.impWhse ∧ vm.key e = (exportId, pchan) := by
  have hkey := List.find?_some h
  simp only [decide_eq_true_eq] at hkey
  exact ⟨List.mem_of_find?_eq_some h, Prod.ext hkey.1 hkey.2⟩

theorem habRbExpFind_eq_none {exportId : UInt32} {pchan : HabPchan}
    (h : vm.habRbExpFind exportId pchan = none) :
    ∀ e ∈ vm.impWhse, vm.key e ≠ (exportId, pchan) := by
  intro e he hkey
  have hnot := List.find?_eq_none.mp h e he
  simp only [decide_eq_true_eq] at hnot
  exact hnot ⟨congrArg Prod.fst hkey, congrArg Prod.snd hkey⟩

theorem Local.trans {e : ℕ} {vm₂ : ImportVm} (h : vm.Local e vm') (h' : vm'.Local e vm₂) :
    vm.Local e vm₂ :=
  ⟨h'.memProto.trans h.memProto, Nat.le_trans h.nextDesc h'.nextDesc,
    fun e' hne ↦ (h'.desc e' hne).trans (h.desc e' hne),
    fun e' hne ↦ (h'.freed e' hne).trans (h.freed e' hne),
    fun e' hne ↦ (h'.impWhse e' hne).trans (h.impWhse e' hne)⟩

/-! ### Changes of one descriptor -/

theorem local_setImportState (vm : ImportVm) (e : ℕ) (state : ExpDescState) :
    Local e vm (vm.setImportState e state) :=
  ⟨rfl, Nat.le_refl _, fun _ hne ↦ Function.update_of_ne hne _ _, fun _ _ ↦ rfl,
    fun _ _ ↦ Iff.rfl⟩

@[simp] theorem desc_setImportState (e : ℕ) (state : ExpDescState) :
    (vm.setImportState e state).desc e = { vm.desc e with importState := state } :=
  Function.update_self _ _ _

@[simp] theorem key_setImportState (e e' : ℕ) (state : ExpDescState) :
    (vm.setImportState e state).key e' = vm.key e' := by
  by_cases hne : e' = e
  · subst hne
    simp [key]
  · rw [key, (local_setImportState vm e state).desc e' hne]
    rfl

theorem Heap.setImportState (h : vm.Heap) (e : ℕ) (state : ExpDescState) :
    (vm.setImportState e state).Heap := by
  refine ⟨h.live, h.nodup, fun a ha b hb hkey ↦ ?_, h.total, h.once, h.fresh, h.noUse⟩
  rw [key_setImportState, key_setImportState] at hkey
  exact h.keys a ha b hb hkey

theorem local_removeImport (e : ℕ) : Local e vm (vm.removeImport e) :=
  ⟨rfl, Nat.le_refl _, fun _ _ ↦ rfl, fun _ _ ↦ rfl, fun _ hne ↦ List.mem_erase_of_ne hne⟩

theorem Heap.removeImport (h : vm.Heap) {e : ℕ} (he : e ∈ vm.impWhse) :
    (vm.removeImport e).Heap ∧ e ∉ (vm.removeImport e).impWhse := by
  have htouch : vm.touch (e :: vm.impWhse) = vm := by
    refine touch_eq fun e' he' ↦ ?_
    rcases List.mem_cons.mp he' with rfl | he'
    · exact (h.live e' he).2
    · exact (h.live e' he').2
  rw [ImportVm.removeImport, htouch]
  refine ⟨⟨fun e' he' ↦ h.live e' (List.mem_of_mem_erase he'), h.nodup.erase e,
    fun a ha b hb ↦ h.keys a (List.mem_of_mem_erase ha) b (List.mem_of_mem_erase hb), ?_,
    h.once, h.fresh, h.noUse⟩, h.nodup.not_mem_erase⟩
  have hpos := List.length_pos_of_mem he
  simp only [h.total, List.length_erase_of_mem he]
  omega

theorem local_kfree (e : ℕ) : Local e vm (vm.kfree e) :=
  ⟨rfl, Nat.le_refl _, fun _ _ ↦ rfl, fun _ hne ↦ Function.update_of_ne hne _ _,
    fun _ _ ↦ Iff.rfl⟩

theorem Heap.kfree (h : vm.Heap) {e : ℕ} (hlt : e < vm.nextDesc) (hfreed : vm.freed e = 0)
    (hout : e ∉ vm.impWhse) : (vm.kfree e).Heap := by
  have hother : ∀ e', e' ≠ e → (vm.kfree e).freed e' = vm.freed e' := (local_kfree e).freed
  refine ⟨fun e' he' ↦ ?_, h.nodup, h.keys, h.total, fun e' ↦ ?_, fun e' he' ↦ ?_, h.noUse⟩
  · have hne : e' ≠ e := by
      rintro rfl
      exact hout he'
    rw [hother e' hne]
    exact h.live e' he'
  · by_cases hne : e' = e
    · subst hne
      simp [ImportVm.kfree, hfreed]
    · rw [hother e' hne]
      exact h.once e'
  · rw [hother e' (Nat.ne_of_gt (Nat.lt_of_lt_of_le hlt he'))]
    exact h.fresh e' he'

/-! ### A new descriptor -/

theorem local_alloc (vm : ImportVm) (d : ImportDesc) : Local vm.nextDesc vm (vm.alloc d) :=
  ⟨rfl, Nat.le_succ _, fun _ hne ↦ Function.update_of_ne hne _ _, fun _ _ ↦ rfl,
    fun _ _ ↦ Iff.rfl⟩

@[simp] theorem desc_alloc (d : ImportDesc) : (vm.alloc d).desc vm.nextDesc = d :=
  Function.update_self _ _ _

theorem Heap.key_alloc (h : vm.Heap) (d : ImportDesc) {e : ℕ} (he : e ∈ vm.impWhse) :
    (vm.alloc d).key e = vm.key e := by
  rw [key, (local_alloc vm d).desc e (Nat.ne_of_lt (h.live e he).1)]
  rfl

theorem Heap.alloc (h : vm.Heap) (d : ImportDesc) : (vm.alloc d).Heap := by
  refine ⟨fun e he ↦ ?_, h.nodup, fun a ha b hb hkey ↦ ?_, h.total, h.once, fun e he ↦ ?_,
    h.noUse⟩
  · obtain ⟨hlt, hfreed⟩ := h.live e he
    exact ⟨Nat.lt_succ_of_lt hlt, hfreed⟩
  · rw [h.key_alloc d ha, h.key_alloc d hb] at hkey
    exact h.keys a ha b hb hkey
  · exact h.fresh e (Nat.le_of_succ_le he)

/-- A descriptor that goes into the warehouse is the only one with its key. -/
theorem Heap.habExportEnqueue (h : vm.Heap) {e : ℕ} {added : Bool} (hlt : e < vm.nextDesc)
    (hfreed : vm.freed e = 0) (hout : e ∉ vm.impWhse)
    (hadd : vm.habExportEnqueue e = (added, vm')) :
    vm'.Heap ∧ vm.Local e vm' ∧ vm'.desc = vm.desc ∧ vm'.freed = vm.freed ∧
      vm'.nextDesc = vm.nextDesc ∧ vm'.impRxq = vm.impRxq ∧ (e ∈ vm'.impWhse ↔ added = true) ∧
        (added = true → ∀ e' ∈ vm.impWhse, vm.key e' ≠ vm.key e) := by
  have htouch : vm.touch (e :: vm.impWhse) = vm := by
    refine touch_eq fun e' he' ↦ ?_
    rcases List.mem_cons.mp he' with rfl | he'
    · exact hfreed
    · exact (h.live e' he').2
  simp only [ImportVm.habExportEnqueue, htouch] at hadd
  split at hadd
  · cases hadd
    exact ⟨h, ⟨rfl, Nat.le_refl _, fun _ _ ↦ rfl, fun _ _ ↦ rfl, fun _ _ ↦ Iff.rfl⟩, rfl, rfl, rfl,
      rfl, iff_of_false hout nofun, nofun⟩
  · rename_i hfind
    cases hadd
    have hnone := habRbExpFind_eq_none (Option.not_isSome_iff_eq_none.mp hfind)
    refine ⟨⟨fun e' he' ↦ ?_, ?_, fun a ha b hb hkey ↦ ?_, ?_, h.once, h.fresh, h.noUse⟩,
      ⟨rfl, Nat.le_refl _, fun _ _ ↦ rfl, fun _ _ ↦ rfl, fun e' hne ↦ ?_⟩, rfl, rfl, rfl, rfl,
      iff_of_true (List.mem_append_right _ List.mem_cons_self) rfl, fun _ ↦ hnone⟩
    · rcases List.mem_append.mp he' with he' | he'
      · exact h.live e' he'
      · rw [List.mem_singleton.mp he']
        exact ⟨hlt, hfreed⟩
    · refine List.nodup_append.mpr ⟨h.nodup, List.nodup_singleton e, ?_⟩
      intro a ha b hb heq
      rw [heq, List.mem_singleton.mp hb] at ha
      exact hout ha
    · rcases List.mem_append.mp ha with ha | ha <;> rcases List.mem_append.mp hb with hb | hb
      · exact h.keys a ha b hb hkey
      · rw [List.mem_singleton.mp hb] at hkey
        exact absurd hkey (hnone a ha)
      · rw [List.mem_singleton.mp ha] at hkey
        exact absurd hkey.symm (hnone b hb)
      · rw [List.mem_singleton.mp ha, List.mem_singleton.mp hb]
    · simp [h.total]
    · simp [hne]

end ImportVm

namespace ImportStage

/-- What a call relies on where it stands. -/
structure Holds (vm : ImportVm) (stage : ImportStage) : Prop where
  owned : ∀ e, stage.owns e = true → e < vm.nextDesc ∧ vm.freed e = 0 ∧
    (e ∈ vm.impWhse ↔ stage.worksOn e = true) ∧ stage.expects vm.memProto (vm.desc e)
  acking : ∀ e, stage.acks e = true → e < vm.nextDesc ∧ vm.freed e = 0
  legacy : ∀ vchan e added, stage = .exportAcking vchan e added →
    vm.memProto vchan.pchan = false

variable {vm vm' : ImportVm} {stage : ImportStage}

/-- A call whose descriptor is not in the warehouse relies on little. -/
theorem holds_of_private {e : ℕ} (hlt : e < vm.nextDesc) (hfreed : vm.freed e = 0)
    (hout : e ∉ vm.impWhse) (howns : ∀ e', stage.owns e' = true → e' = e)
    (hworks : ∀ e', stage.worksOn e' = false) (hexpects : ∀ d, stage.expects vm.memProto d)
    (hacks : ∀ e', stage.acks e' = false)
    (hlegacy : ∀ vchan e' added, stage = .exportAcking vchan e' added →
      vm.memProto vchan.pchan = false) : Holds vm stage := by
  refine ⟨fun e' he' ↦ ?_, fun e' he' ↦ ?_, hlegacy⟩
  · rw [howns e' he', hworks]
    exact ⟨hlt, hfreed, iff_of_false hout nofun, hexpects _⟩
  · rw [hacks] at he'
    cases he'

/-- A call does not mind what happens to descriptors of others. -/
theorem Holds.of_local (h : Holds vm stage) {e : ℕ} (hlocal : vm.Local e vm')
    (howns : stage.owns e = false) (hacks : stage.acks e = true → vm'.freed e = 0) :
    Holds vm' stage := by
  refine ⟨fun e' he' ↦ ?_, fun e' he' ↦ ?_, fun vchan e' added heq ↦ ?_⟩
  · have hne : e' ≠ e := by
      rintro rfl
      rw [howns] at he'
      cases he'
    rw [hlocal.freed e' hne, hlocal.impWhse e' hne, hlocal.memProto, hlocal.desc e' hne]
    obtain ⟨hlt, hrest⟩ := h.owned e' he'
    exact ⟨Nat.lt_of_lt_of_le hlt hlocal.nextDesc, hrest⟩
  · obtain ⟨hlt, hfreed⟩ := h.acking e' he'
    refine ⟨Nat.lt_of_lt_of_le hlt hlocal.nextDesc, ?_⟩
    by_cases hne : e' = e
    · subst hne
      exact hacks he'
    · rw [hlocal.freed e' hne]
      exact hfreed
  · rw [hlocal.memProto]
    exact h.legacy vchan e' added heq

end ImportStage

/-! ## The invariant -/

/-- A step that concerns no descriptor. -/
structure ImportVm.Same (vm vm' : ImportVm) : Prop where
  memProto : vm'.memProto = vm.memProto
  nextDesc : vm'.nextDesc = vm.nextDesc
  desc : vm'.desc = vm.desc
  freed : vm'.freed = vm.freed
  impWhse : vm'.impWhse = vm.impWhse
  importTotal : vm'.importTotal = vm.importTotal
  useAfterFree : vm'.useAfterFree = vm.useAfterFree

theorem ImportVm.Same.refl (vm : ImportVm) : vm.Same vm :=
  ⟨rfl, rfl, rfl, rfl, rfl, rfl, rfl⟩

theorem ImportVm.Same.heap {vm vm' : ImportVm} (h : vm.Same vm') (hheap : vm.Heap) :
    vm'.Heap := by
  obtain ⟨-, hnext, hdesc, hfreed, hwhse, htotal, huse⟩ := h
  constructor
  · rw [hnext, hfreed, hwhse]
    exact hheap.live
  · rw [hwhse]
    exact hheap.nodup
  · simp only [ImportVm.key, hdesc, hwhse]
    exact hheap.keys
  · rw [htotal, hwhse]
    exact hheap.total
  · rw [hfreed]
    exact hheap.once
  · rw [hnext, hfreed]
    exact hheap.fresh
  · exact huse.trans hheap.noUse

theorem ImportVm.Same.holds {vm vm' : ImportVm} (h : vm.Same vm') {stage : ImportStage}
    (hholds : stage.Holds vm) : stage.Holds vm' := by
  refine ⟨fun e he ↦ ?_, fun e he ↦ ?_, fun vchan e added heq ↦ ?_⟩
  · rw [h.nextDesc, h.freed, h.impWhse, h.memProto, h.desc]
    exact hholds.owned e he
  · rw [h.nextDesc, h.freed]
    exact hholds.acking e he
  · rw [h.memProto]
    exact hholds.legacy vchan e added heq

namespace ImportSystem

/-- How many acks, queued or in the hands of a call, let an import of this key
look for its descriptor. -/
def tokens (s : ImportSystem) (key : UInt32 × HabPchan) : ℕ :=
  s.vm.impRxq.countP (fun a ↦ a.ack.grants key) +
    s.calls.count (ImportStage.claims s.vm.memProto key)

structure Inv (s : ImportSystem) : Prop where
  heap : s.vm.Heap
  stages : ∀ i stage, s.calls.get i = some stage → stage.Holds s.vm
  owners : ∀ e, s.calls.count (ImportStage.owns e) ≤ 1
  /-- An ack that grants an import is the only one, and no call uses its descriptor. -/
  tokens : ∀ key, 0 < s.tokens key → s.tokens key = 1 ∧ s.vm.memProto key.2 = true ∧
    ∃ e ∈ s.vm.impWhse, s.vm.key e = key ∧ (s.vm.desc e).importState = .init ∧
      s.calls.count (ImportStage.owns e) = 0

theorem inv_start (memProto : HabPchan → Bool) : Inv (start memProto) := by
  refine ⟨⟨nofun, List.nodup_nil, nofun, rfl, fun _ ↦ Nat.zero_le 1, fun _ _ ↦ rfl, rfl⟩, nofun,
    fun _ ↦ Nat.zero_le 1, fun key hpos ↦ ?_⟩
  exact absurd hpos (Nat.lt_irrefl 0)

variable {s s' : ImportSystem} {i : ℕ} {stage : ImportStage} {vm' : ImportVm}
  {stage' : Option ImportStage}

/-- A descriptor that is imported, or that waits for an import of the legacy
protocol or for a claimed ack, is used by no call. -/
theorem Inv.unowned (h : Inv s) {e : ℕ} (he : e ∈ s.vm.impWhse)
    (hstate : (s.vm.desc e).importState = .imported ∨ (s.vm.desc e).importState = .init ∧
      (s.vm.memProto (s.vm.desc e).pchan = true → 0 < s.tokens (s.vm.key e))) :
    s.calls.count (ImportStage.owns e) = 0 := by
  by_contra hne
  -- the token's own descriptor is `e`, and is not used
  have hlegacy : (s.vm.desc e).importState = .init →
      s.vm.memProto (s.vm.desc e).pchan = false := by
    intro hinit
    by_contra hproto
    rcases hstate with himported | ⟨-, htoken⟩
    · rw [hinit] at himported
      cases himported
    · obtain ⟨-, -, e', he', hkey, -, hzero⟩ := h.tokens _ (htoken (by simpa using hproto))
      rw [h.heap.keys e' he' e he hkey] at hzero
      exact hne hzero
  refine hne (Pool.count_eq_zero fun i stage hget ↦ ?_)
  by_contra howns
  obtain ⟨-, -, hworks, hexpects⟩ := (h.stages i stage hget).owned e (by simpa using howns)
  have hworks := hworks.mp he
  have hnot : ∀ state, (s.vm.desc e).importState = state → state ≠ .importing ∧
      state ≠ .unimporting := by
    rintro state rfl
    rcases hstate with himported | ⟨hinit, -⟩
    · rw [himported]
      exact ⟨nofun, nofun⟩
    · rw [hinit]
      exact ⟨nofun, nofun⟩
  cases stage with
  | importing _ _ _ => exact (hnot _ hexpects.1).1 rfl
  | mapped _ _ => exact (hnot _ hexpects).1 rfl
  | failed _ _ => exact (hnot _ hexpects.1).1 rfl
  | unimporting _ _ => exact (hnot _ hexpects).2 rfl
  | restoring _ _ => exact (hnot _ hexpects).2 rfl
  | undoing _ _ =>
      rcases hexpects with hunimporting | ⟨hinit, hproto⟩
      · exact (hnot _ hunimporting).2 rfl
      · rw [hlegacy hinit] at hproto
        cases hproto
  | removing _ _ =>
      rcases hexpects with hunimporting | ⟨hinit, hproto⟩
      · exact (hnot _ hunimporting).2 rfl
      · rw [hlegacy hinit] at hproto
        cases hproto
  | _ => cases hworks

/-- Tokens survive a step that concerns a descriptor no token speaks of. -/
theorem Inv.tokens_of_local (h : Inv s) {e : ℕ} (hlocal : s.vm.Local e s'.vm)
    (hle : ∀ key, s'.tokens key ≤ s.tokens key)
    (hother : e ∈ s.vm.impWhse → 0 < s'.tokens (s.vm.key e) →
      (s.vm.desc e).importState = .init → s.calls.count (ImportStage.owns e) ≠ 0)
    (howners : ∀ e', e' ≠ e →
      s'.calls.count (ImportStage.owns e') ≤ s.calls.count (ImportStage.owns e')) :
    ∀ key, 0 < s'.tokens key → s'.tokens key = 1 ∧ s'.vm.memProto key.2 = true ∧
      ∃ e ∈ s'.vm.impWhse, s'.vm.key e = key ∧ (s'.vm.desc e).importState = .init ∧
        s'.calls.count (ImportStage.owns e) = 0 := by
  intro key hpos
  have hle' := hle key
  obtain ⟨hone, hproto, e', he', rfl, hinit, hzero⟩ := h.tokens key (by omega)
  have hne : e' ≠ e := by
    rintro rfl
    exact hother he' hpos hinit hzero
  refine ⟨by omega, hlocal.memProto ▸ hproto, e', (hlocal.impWhse e' hne).mpr he', ?_, ?_,
    Nat.le_zero.mp (hzero ▸ howners e' hne)⟩
  · rw [ImportVm.key, hlocal.desc e' hne]
    rfl
  · rw [hlocal.desc e' hne]
    exact hinit

theorem count_owns_set (hget : s.calls.get i = some stage) (stage' : Option ImportStage) (e : ℕ) :
    (s.calls.set i stage').count (ImportStage.owns e) + (stage.owns e).toNat =
      s.calls.count (ImportStage.owns e) + (stage'.any (ImportStage.owns e)).toNat :=
  Pool.count_set hget stage'

theorem count_claims_set (hget : s.calls.get i = some stage) (stage' : Option ImportStage)
    (key : UInt32 × HabPchan) :
    (s.calls.set i stage').count (ImportStage.claims s.vm.memProto key) +
        (stage.claims s.vm.memProto key).toNat =
      s.calls.count (ImportStage.claims s.vm.memProto key) +
        (stage'.any (ImportStage.claims s.vm.memProto key)).toNat :=
  Pool.count_set hget stage'

/-- A step of a call that leaves all descriptors as they are. -/
theorem Inv.advance_same (h : Inv s) (hget : s.calls.get i = some stage)
    (hsame : s.vm.Same vm')
    (htokens : ∀ key, (ImportSystem.mk vm' (s.calls.set i stage')).tokens key ≤ s.tokens key)
    (hnew : ∀ k, stage' = some k → k.Holds s.vm)
    (howns : ∀ k e, stage' = some k → k.owns e = true → stage.owns e = true) :
    Inv ⟨vm', s.calls.set i stage'⟩ := by
  have hi := Pool.lt_next hget
  have hcount : ∀ e, (s.calls.set i stage').count (ImportStage.owns e) ≤
      s.calls.count (ImportStage.owns e) := by
    intro e
    have hset := count_owns_set hget stage' e
    have hle : (stage'.any (ImportStage.owns e)).toNat ≤ (stage.owns e).toNat := by
      cases hk : stage' with
      | none => exact Nat.zero_le _
      | some k => exact Bool.toNat_le_toNat fun hown ↦ howns k e hk hown
    omega
  refine ⟨hsame.heap h.heap, fun j k hk ↦ ?_, fun e ↦ Nat.le_trans (hcount e) (h.owners e), ?_⟩
  · rcases (Pool.get_set hi).mp hk with ⟨-, hk⟩ | ⟨-, hk⟩
    · exact hsame.holds (hnew k hk)
    · exact hsame.holds (h.stages j k hk)
  · refine fun key hpos ↦ ?_
    have hle := htokens key
    obtain ⟨hone, hproto, e, he, hkey, hinit, hzero⟩ := h.tokens key (by omega)
    refine ⟨by omega, hsame.memProto ▸ hproto, e, hsame.impWhse ▸ he, ?_, ?_,
      Nat.le_zero.mp (hzero ▸ hcount e)⟩
    · rw [ImportVm.key, hsame.desc]
      exact hkey
    · rw [hsame.desc]
      exact hinit

/-- A step of a call that uses its own descriptor. -/
theorem Inv.advance_owner (h : Inv s) (hget : s.calls.get i = some stage) {e : ℕ}
    (howns : stage.owns e = true) (hlocal : s.vm.Local e vm') (hheap : vm'.Heap)
    (hrxq : vm'.impRxq = s.vm.impRxq) (hnew : ∀ k, stage' = some k → k.Holds vm' ∧
      (∀ e', k.owns e' = true → e' = e) ∧ ∀ key, k.claims s.vm.memProto key = false)
    (hacks : ∀ j k, s.calls.get j = some k → k.acks e = true → vm'.freed e = 0) :
    Inv ⟨vm', s.calls.set i stage'⟩ := by
  have hi := Pool.lt_next hget
  have hone := h.owners e
  have hothers : ∀ j k, j ≠ i → s.calls.get j = some k → k.owns e = false := by
    intro j k hj hk
    by_contra hown
    exact hj (Pool.eq_of_count_le_one hone hk hget (by simpa using hown) howns)
  have hcount : ∀ e', e' ≠ e → (s.calls.set i stage').count (ImportStage.owns e') ≤
      s.calls.count (ImportStage.owns e') := by
    intro e' hne
    have hset := count_owns_set hget stage' e'
    have hzero : stage'.any (ImportStage.owns e') = false := by
      cases hk : stage' with
      | none => rfl
      | some k =>
          by_contra hown
          exact hne ((hnew k hk).2.1 e' (by simpa using hown))
    rw [hzero, Bool.toNat_false] at hset
    omega
  refine ⟨hheap, fun j k hk ↦ ?_, fun e' ↦ ?_, h.tokens_of_local hlocal (fun key ↦ ?_)
    (fun _ _ _ hzero ↦ ?_) hcount⟩
  · rcases (Pool.get_set hi).mp hk with ⟨-, hk⟩ | ⟨hj, hk⟩
    · exact (hnew k hk).1
    · exact (h.stages j k hk).of_local hlocal (hothers j k hj hk) (hacks j k hk)
  · by_cases hne : e' = e
    · subst hne
      have hset := count_owns_set hget stage' e'
      have hle := Bool.toNat_le (stage'.any (ImportStage.owns e'))
      rw [howns, Bool.toNat_true] at hset
      change (s.calls.set i stage').count (ImportStage.owns e') ≤ 1
      omega
    · exact Nat.le_trans (hcount e' hne) (h.owners e')
  · have hset := count_claims_set hget stage' key
    have hzero : stage'.any (ImportStage.claims s.vm.memProto key) = false := by
      cases hk : stage' with
      | none => rfl
      | some k => exact (hnew k hk).2.2 key
    rw [hzero, Bool.toNat_false] at hset
    simp only [ImportSystem.tokens, hrxq, hlocal.memProto]
    omega
  · exact Nat.ne_of_gt (Pool.count_pos hget howns) hzero

end ImportSystem

end Hab
