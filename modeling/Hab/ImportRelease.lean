import Hab.ImportSafety
import Mathlib.Data.List.MinMax
import Mathlib.Data.Prod.Lex

/-!
# The end of a context: its imports (`hab_ctx_free`)

When the last reference to a context is gone, no call works on it any more.  What is left
in `imp_whse` is taken out from its least node on, unmapped, given back to the exporter and
freed.  With that every descriptor that the context ever received is freed, and only once.
-/

namespace Hab

/-! ## Who frees a descriptor -/

/-- The call is going to free the descriptor. -/
def ImportStage.drops (e : ℕ) : ImportStage → Bool
  | .queueing _ ack e' => e' = e && !ack.impWhseAdded
  | .exportAcking _ e' added => e' = e && !added
  | .rejected _ e' | .freeing _ e' => e' = e
  | _ => false

/-- The same descriptors are there, freed and in the warehouse. -/
structure ImportVm.Keeps (vm vm' : ImportVm) : Prop where
  nextDesc : vm'.nextDesc = vm.nextDesc
  freed : vm'.freed = vm.freed
  impWhse : vm'.impWhse = vm.impWhse

theorem ImportVm.Same.keeps {vm vm' : ImportVm} (h : vm.Same vm') : vm.Keeps vm' :=
  ⟨h.nextDesc, h.freed, h.impWhse⟩

namespace ImportStage

variable {vm : ImportVm} {stage : ImportStage}

/-- Only two steps take a descriptor out of the warehouse or free it. -/
theorem keeps_run (ok : Bool) (hremoving : ∀ vchan e, stage ≠ .removing vchan e)
    (hfreeing : ∀ vchan e, stage ≠ .freeing vchan e) : vm.Keeps (stage.run vm ok).1 := by
  cases stage with
  | queueing vchan ack e => exact (ImportVm.same_queueAck ack).keeps
  | rejected vchan e =>
      have hqueued : (vm.touch [e]).Keeps _ :=
        (ImportVm.same_queueFail vchan (vm.desc e).exportId ok).keeps
      exact ⟨hqueued.nextDesc, hqueued.freed, hqueued.impWhse⟩
  | waiting vchan param => exact (vm.same_habImportAckFind _ _).keeps
  | finding vchan param =>
      simp only [run]
      split
      · exact ⟨rfl, rfl, rfl⟩
      · split <;> exact ⟨rfl, rfl, rfl⟩
  | removing vchan e => exact absurd rfl (hremoving vchan e)
  | freeing vchan e => exact absurd rfl (hfreeing vchan e)
  | _ => exact ⟨rfl, rfl, rfl⟩

/-- What a call is going to free it frees next, or it is still going to. -/
theorem drops_run {e : ℕ} (ok : Bool) (hdrops : stage.drops e = true) :
    (∃ vchan, stage = .freeing vchan e) ∨
      ∃ k, (stage.run vm ok).2 = some k ∧ k.drops e = true := by
  cases stage with
  | queueing vchan ack e' =>
      simp only [drops, Bool.and_eq_true, decide_eq_true_eq, Bool.not_eq_true'] at hdrops
      obtain ⟨rfl, hadded⟩ := hdrops
      exact .inr ⟨.freeing vchan e', by simp [run, hadded], by simp [drops]⟩
  | exportAcking vchan e' added =>
      simp only [drops, Bool.and_eq_true, decide_eq_true_eq, Bool.not_eq_true'] at hdrops
      obtain ⟨rfl, rfl⟩ := hdrops
      exact .inr ⟨.freeing vchan e', rfl, by simp [drops]⟩
  | rejected vchan e' =>
      obtain rfl : e' = e := by simpa [drops] using hdrops
      exact .inr ⟨.freeing vchan e', rfl, by simp [drops]⟩
  | freeing vchan e' =>
      obtain rfl : e' = e := by simpa [drops] using hdrops
      exact .inl ⟨vchan, rfl⟩
  | _ => cases hdrops

end ImportStage

namespace ImportSystem

/-- A descriptor that is not freed is in the warehouse, or some call is going to free it. -/
def Covered (s : ImportSystem) : Prop :=
  ∀ e, e < s.vm.nextDesc → s.vm.freed e = 0 →
    e ∈ s.vm.impWhse ∨ ∃ i stage, s.calls.get i = some stage ∧ stage.drops e = true

variable {s s' : ImportSystem} {vm' : ImportVm} {i : ℕ} {stage : ImportStage}

/-- A step that neither receives nor frees a descriptor. -/
theorem Covered.keeps (h : Covered s) {calls : Pool ImportStage} (hkeeps : s.vm.Keeps vm')
    (hcalls : ∀ j k, s.calls.get j = some k → calls.get j = some k) : Covered ⟨vm', calls⟩ := by
  intro e hlt hlive
  rw [hkeeps.nextDesc] at hlt
  rw [hkeeps.freed] at hlive
  rw [hkeeps.impWhse]
  exact (h e hlt hlive).imp id fun ⟨j, k, hj, hk⟩ ↦ ⟨j, k, hcalls j k hj, hk⟩

theorem Covered.spawn (h : Covered s) (hkeeps : s.vm.Keeps vm') (k : ImportStage) :
    Covered ⟨vm', s.calls.spawn k⟩ :=
  h.keeps hkeeps fun _ _ hj ↦ Pool.get_spawn.mpr (.inr hj)

/-- A new descriptor is taken into the warehouse or left to a call. -/
theorem Covered.receive (h : Covered s) {k : ImportStage}
    (hnext : vm'.nextDesc = s.vm.nextDesc + 1) (hfreed : vm'.freed = s.vm.freed)
    (hwhse : ∀ e ∈ s.vm.impWhse, e ∈ vm'.impWhse)
    (hnew : s.vm.nextDesc ∈ vm'.impWhse ∨ k.drops s.vm.nextDesc = true) :
    Covered ⟨vm', s.calls.spawn k⟩ := by
  intro e hlt hlive
  dsimp only at hlt hlive
  rw [hfreed] at hlive
  rcases Nat.lt_succ_iff_lt_or_eq.mp (hnext ▸ hlt) with hold | rfl
  · refine (h e hold hlive).imp (hwhse e) fun ⟨j, k', hj, hk⟩ ↦ ?_
    exact ⟨j, k', Pool.get_spawn.mpr (.inr hj), hk⟩
  · exact hnew.imp id fun hk ↦ ⟨_, k, Pool.get_spawn.mpr (.inl ⟨rfl, rfl⟩), hk⟩

theorem Covered.advance (h : Covered s) (hget : s.calls.get i = some stage) (ok : Bool) :
    Covered ⟨(stage.run s.vm ok).1, s.calls.set i (stage.run s.vm ok).2⟩ := by
  have hi := Pool.lt_next hget
  intro e hlt hlive
  -- what the call hands over is found under its own number
  have hheld : (∃ k, (stage.run s.vm ok).2 = some k ∧ k.drops e = true) →
      ∃ j k, (s.calls.set i (stage.run s.vm ok).2).get j = some k ∧ k.drops e = true := by
    rintro ⟨k, hnext, hk⟩
    exact ⟨i, k, (Pool.get_set_self hi _).trans hnext, hk⟩
  have hother : ∀ j k, j ≠ i → s.calls.get j = some k → k.drops e = true →
      ∃ j k, (s.calls.set i (stage.run s.vm ok).2).get j = some k ∧ k.drops e = true :=
    fun j k hne hj hk ↦ ⟨j, k, (Pool.get_set hi).mpr (.inr ⟨hne, hj⟩), hk⟩
  by_cases hremoving : ∃ vchan e', stage = .removing vchan e'
  · obtain ⟨vchan, e', rfl⟩ := hremoving
    rcases h e hlt hlive with hmem | ⟨j, k, hj, hk⟩
    · by_cases hne : e = e'
      · exact .inr (hheld ⟨_, rfl, by simp [ImportStage.drops, hne]⟩)
      · exact .inl ((List.mem_erase_of_ne hne).mpr hmem)
    · refine .inr (hother j k ?_ hj hk)
      rintro rfl
      rw [hget] at hj
      cases hj
      cases hk
  by_cases hfreeing : ∃ vchan e', stage = .freeing vchan e'
  · obtain ⟨vchan, e', rfl⟩ := hfreeing
    have hne : e ≠ e' := by
      rintro rfl
      simp [ImportStage.run, ImportVm.kfree] at hlive
    have hlive' : s.vm.freed e = 0 := by
      simpa [ImportStage.run, ImportVm.kfree, hne] using hlive
    rcases h e hlt hlive' with hmem | ⟨j, k, hj, hk⟩
    · exact .inl hmem
    · refine .inr (hother j k ?_ hj hk)
      rintro rfl
      rw [hget] at hj
      cases hj
      exact hne (by simpa [ImportStage.drops, eq_comm] using hk)
  have hkeeps : s.vm.Keeps (stage.run s.vm ok).1 :=
    ImportStage.keeps_run ok (fun vchan e heq ↦ hremoving ⟨vchan, e, heq⟩)
      fun vchan e heq ↦ hfreeing ⟨vchan, e, heq⟩
  dsimp only at hlt hlive ⊢
  rw [hkeeps.nextDesc] at hlt
  rw [hkeeps.freed] at hlive
  rw [hkeeps.impWhse]
  rcases h e hlt hlive with hmem | ⟨j, k, hj, hk⟩
  · exact .inl hmem
  refine .inr ?_
  by_cases hne : j = i
  · subst hne
    rw [hget] at hj
    cases hj
    rcases ImportStage.drops_run ok hk with ⟨vchan, heq⟩ | hnext
    · exact absurd ⟨vchan, e, heq⟩ hfreeing
    · exact hheld hnext
  · exact hother j k hne hj hk

/-- A received descriptor is freed at once, or is covered from then on. -/
theorem Covered.recvExport (h : Covered s) (vchan : ImportVchan) (msg : ExportMsg)
    (read allocDesc allocAck : Bool) :
    Covered (s.received vchan
      (s.vm.habReceiveExportDesc vchan msg read allocDesc allocAck)) := by
  unfold ImportVm.habReceiveExportDesc
  split
  next => exact h
  next =>
    dsimp only
    split
    next =>
      intro e hlt hlive
      have hne : e ≠ s.vm.nextDesc := by
        rintro rfl
        simp [ImportSystem.received, ImportVm.kfree] at hlive
      have hlive' : s.vm.freed e = 0 := by
        simpa [ImportSystem.received, ImportVm.kfree, hne, ImportVm.alloc] using hlive
      exact h e (Nat.lt_of_le_of_ne (Nat.le_of_lt_succ hlt) hne) hlive'
    next =>
      split
      next =>
        refine h.receive rfl rfl (fun _ he ↦ he) (.inr ?_)
        split <;> simp [ImportStage.drops]
      next =>
        dsimp only [ImportSystem.received, ImportVm.habExportEnqueue]
        split
        next =>
          refine h.receive rfl rfl (fun _ he ↦ he) (.inr ?_)
          split <;> simp [ImportStage.drops, ImportVm.importAck]
        next =>
          exact h.receive rfl rfl (fun _ he ↦ List.mem_append_left _ he)
            (.inl (List.mem_append_right _ (List.mem_singleton_self _)))

theorem Covered.step (h : Covered s) {act : ImportAct} (hstep : s.step act = some s') :
    Covered s' := by
  cases act with
  | «import» v param sent =>
      simp only [ImportSystem.step] at hstep
      split at hstep
      next =>
        cases hstep
        exact h
      next =>
        split at hstep
        next =>
          cases hstep
          exact h
        next =>
          split at hstep
          next =>
            split at hstep <;> cases hstep
            · exact h.spawn ⟨rfl, rfl, rfl⟩ _
            · exact h
          next =>
            cases hstep
            exact h.spawn ⟨rfl, rfl, rfl⟩ _
  | unimport v exportId =>
      simp only [ImportSystem.step] at hstep
      split at hstep
      next =>
        cases hstep
        exact h
      next =>
        split at hstep
        next =>
          cases hstep
          exact h.keeps ⟨rfl, rfl, rfl⟩ fun _ _ hj ↦ hj
        next =>
          split at hstep <;> cases hstep
          · exact h.spawn ⟨rfl, rfl, rfl⟩ _
          · exact h.keeps ⟨rfl, rfl, rfl⟩ fun _ _ hj ↦ hj
  | advance i ok =>
      obtain ⟨stage, hget, hnext⟩ := Option.bind_eq_some_iff.mp hstep
      cases hnext
      exact h.advance hget ok
  | recvExport v msg read allocDesc allocAck =>
      obtain ⟨vchan, -, hnext⟩ := Option.bind_eq_some_iff.mp hstep
      cases hnext
      exact h.recvExport vchan msg read allocDesc allocAck
  | recvImportAckFail v exportId alloc =>
      obtain ⟨vchan, -, hnext⟩ := Option.bind_eq_some_iff.mp hstep
      cases hnext
      exact h.keeps (ImportVm.same_queueFail vchan exportId alloc).keeps fun _ _ hj ↦ hj
  | recvClose v =>
      obtain ⟨vchan, -, hnext⟩ := Option.bind_eq_some_iff.mp hstep
      cases hnext
      exact h.keeps ⟨rfl, rfl, rfl⟩ fun _ _ hj ↦ hj
  | openVchan vchan =>
      simp only [ImportSystem.step] at hstep
      split at hstep <;> cases hstep
      exact h.keeps ⟨rfl, rfl, rfl⟩ fun _ _ hj ↦ hj
  | closeVchan v =>
      cases hstep
      exact h.keeps ⟨rfl, rfl, rfl⟩ fun _ _ hj ↦ hj
  | freeVchan v =>
      simp only [ImportSystem.step] at hstep
      split at hstep <;> cases hstep
      exact h.keeps ⟨rfl, rfl, rfl⟩ fun _ _ hj ↦ hj

end ImportSystem

/-! ## The loop over `imp_whse` -/

/-- The context, and what the end of it has done with its imports. -/
structure ImportRelease where
  vm : ImportVm
  /-- The descriptors that `habmm_imp_hyp_unmap` was called for. -/
  unmapped : List ℕ
  /-- The UNIMPORTs and the pchans they were sent on. -/
  sent : List (HabPchan × UInt32)

namespace ImportRelease

/-- The key of a node, with the address that `addr` gives its pchan. -/
def lexKey (addr : HabPchan → ℕ) (vm : ImportVm) (e : ℕ) : ℕ ×ₗ ℕ :=
  toLex ((vm.desc e).exportId.toNat, addr (vm.desc e).pchan)

def habRbMin (addr : HabPchan → ℕ) (vm : ImportVm) : Option ℕ := vm.impWhse.argmin (lexKey addr vm)

/-- The UNIMPORT for a descriptor, if its pchan is of the new protocol. -/
def unimport (vm : ImportVm) (e : ℕ) : List (HabPchan × UInt32) :=
  if vm.memProto (vm.desc e).pchan then [((vm.desc e).pchan, (vm.desc e).exportId)] else []

/-- One round of the loop.  `habmm_imp_hyp_unmap` always returns 0. -/
def free (r : ImportRelease) (e : ℕ) : ImportRelease :=
  let vm := (r.vm.removeImport e).touch [e]
  ⟨vm.kfree e, r.unmapped ++ [e], r.sent ++ unimport vm e⟩

/-- The loop. -/
def freeAll (addr : HabPchan → ℕ) (r : ImportRelease) : ImportRelease :=
  match _h : habRbMin addr r.vm with
  | none => r
  | some e => freeAll addr (r.free e)
termination_by r.vm.impWhse.length
decreasing_by
  have hmem : e ∈ r.vm.impWhse := List.argmin_mem _h
  have hlength : (r.free e).vm.impWhse.length = r.vm.impWhse.length - 1 :=
    List.length_erase_of_mem hmem
  have hpos := List.length_pos_of_mem hmem
  omega

end ImportRelease

/-- `hab_ctx_free`, its part on imports. -/
def ImportVm.habCtxFree (addr : HabPchan → ℕ) (vm : ImportVm) : ImportRelease :=
  let r := ImportRelease.freeAll addr ⟨vm, [], []⟩
  { r with vm := { r.vm with impRxq := [] } }

namespace ImportRelease

variable {addr : HabPchan → ℕ} {r : ImportRelease} {e : ℕ}

/-- One round. -/
theorem free_spec (hheap : r.vm.Heap) (he : e ∈ r.vm.impWhse) :
    (r.free e).vm.Heap ∧ (r.free e).vm.impWhse = r.vm.impWhse.erase e ∧
      (r.free e).vm.desc = r.vm.desc ∧ (r.free e).vm.memProto = r.vm.memProto ∧
        (r.free e).vm.nextDesc = r.vm.nextDesc ∧
          (r.free e).vm.freed = Function.update r.vm.freed e 1 ∧
            (r.free e).unmapped = r.unmapped ++ [e] ∧
              (r.free e).sent = r.sent ++ unimport r.vm e := by
  obtain ⟨hlt, hlive⟩ := hheap.live e he
  obtain ⟨hremoved, hout⟩ := hheap.removeImport he
  have htouch : (r.vm.removeImport e).touch [e] = r.vm.removeImport e :=
    ImportVm.touch_singleton_eq hlive
  have hfree : r.free e =
      ⟨(r.vm.removeImport e).kfree e, r.unmapped ++ [e], r.sent ++ unimport r.vm e⟩ := by
    unfold free
    rw [htouch]
    rfl
  have hfreed : ((r.vm.removeImport e).kfree e).freed = Function.update r.vm.freed e 1 := by
    change Function.update r.vm.freed e (r.vm.freed e + 1) = _
    rw [hlive]
  rw [hfree]
  exact ⟨hremoved.kfree hlt hlive hout, rfl, rfl, rfl, rfl, hfreed, rfl, rfl⟩

/-- On each pchan the export ids ascend. -/
def Ascends (vm : ImportVm) (a b : ℕ) : Prop :=
  (vm.desc a).pchan = (vm.desc b).pchan → (vm.desc a).exportId < (vm.desc b).exportId

/-- The least node comes before the others of its pchan. -/
theorem ascends_of_habRbMin (hheap : r.vm.Heap) (hmin : habRbMin addr r.vm = some e) {e' : ℕ}
    (he' : e' ∈ r.vm.impWhse) (hne : e ≠ e') : Ascends r.vm e e' := by
  intro hpchan
  have hle : lexKey addr r.vm e ≤ lexKey addr r.vm e' := List.le_of_mem_argmin he' hmin
  rcases Prod.Lex.toLex_le_toLex.mp hle with hlt | ⟨heq, -⟩
  · exact hlt
  · have hid : (r.vm.desc e).exportId = (r.vm.desc e').exportId := UInt32.toNat_inj.mp heq
    exact absurd (hheap.keys e (List.argmin_mem hmin) e' he' (Prod.ext hid hpchan)) hne

/-- What the loop has done when it ends. -/
structure Frees (r r' : ImportRelease) (order : List ℕ) : Prop where
  perm : order.Perm r.vm.impWhse
  ascends : order.Pairwise (Ascends r.vm)
  heap : r'.vm.Heap
  empty : r'.vm.impWhse = []
  nextDesc : r'.vm.nextDesc = r.vm.nextDesc
  freed : ∀ e, r'.vm.freed e = r.vm.freed e + order.count e
  unmapped : r'.unmapped = r.unmapped ++ order
  sent : r'.sent = r.sent ++ order.flatMap (unimport r.vm)

theorem freeAll_frees (hheap : r.vm.Heap) : ∃ order, Frees r (freeAll addr r) order := by
  induction r using freeAll.induct addr with
  | case1 r hnone =>
      have hempty : r.vm.impWhse = [] := List.argmin_eq_none.mp hnone
      rw [freeAll, hnone]
      exact ⟨[], by rw [hempty], .nil, hheap, hempty, rfl, fun _ ↦ rfl, (List.append_nil _).symm,
        (List.append_nil _).symm⟩
  | case2 r e hmin ih =>
      have hmem : e ∈ r.vm.impWhse := List.argmin_mem hmin
      obtain ⟨hfree, hwhse, hdesc, hproto, hnext, hfreed, hunmapped, hsent⟩ := free_spec hheap hmem
      obtain ⟨order, h⟩ := ih hfree
      have hperm : (e :: order).Perm r.vm.impWhse :=
        ((hwhse ▸ h.perm).cons e).trans (List.perm_cons_erase hmem).symm
      have hnodup : (e :: order).Nodup := hperm.nodup_iff.mpr hheap.nodup
      rw [freeAll, hmin]
      refine ⟨e :: order, hperm, ?_, h.heap, h.empty, h.nextDesc.trans hnext, ?_, ?_, ?_⟩
      · refine List.pairwise_cons.mpr ⟨fun e' he' ↦ ?_, ?_⟩
        · refine ascends_of_habRbMin hheap hmin (hperm.subset (List.mem_cons_of_mem _ he')) ?_
          rintro rfl
          exact (List.nodup_cons.mp hnodup).1 he'
        · refine h.ascends.imp fun hab ↦ ?_
          unfold Ascends at hab ⊢
          rwa [hdesc] at hab
      · intro e'
        rw [h.freed, hfreed]
        by_cases hne : e' = e
        · subst hne
          have hzero : order.count e' = 0 :=
            List.count_eq_zero.mpr (List.nodup_cons.mp hnodup).1
          rw [Function.update_self, List.count_cons_self, hzero, (hheap.live e' hmem).2]
        · rw [Function.update_of_ne hne, List.count_cons_of_ne (Ne.symm hne)]
      · rw [h.unmapped, hunmapped, List.append_assoc]
        rfl
      · have hunimport : unimport (r.free e).vm = unimport r.vm := by
          funext e'
          unfold unimport
          rw [hdesc, hproto]
        rw [h.sent, hsent, hunimport, List.append_assoc]
        rfl

end ImportRelease

namespace ImportSystem

open Runs

/-- Nothing of the imports is left: each descriptor that was ever received is freed once,
each that was still in the warehouse is unmapped once, and each of these that came on a
pchan of the new protocol is given back there, by ascending export ids. -/
structure ReleasesAll (vm : ImportVm) (r : ImportRelease) : Prop where
  noUseAfterFree : r.vm.useAfterFree = false
  empty : r.vm.impWhse = [] ∧ r.vm.importTotal = 0
  freedOnce : ∀ e, r.vm.freed e = if e < vm.nextDesc then 1 else 0
  unmapped : r.unmapped.Perm vm.impWhse
  sent : r.sent = r.unmapped.flatMap (ImportRelease.unimport vm)
  ascends : r.unmapped.Pairwise (ImportRelease.Ascends vm)

theorem Covered.releasesAll {s : ImportSystem} (h : Covered s) (hinv : Inv s)
    (hidle : s.calls.all (fun _ ↦ false) = true) (addr : HabPchan → ℕ) :
    ReleasesAll s.vm (s.vm.habCtxFree addr) := by
  let start : ImportRelease := ⟨s.vm, [], []⟩
  have hheap : start.vm.Heap := hinv.heap
  have hfree : ∃ order, start.Frees (start.freeAll addr) order := ImportRelease.freeAll_frees hheap
  obtain ⟨order, hfrees⟩ := hfree
  have hunmapped : (s.vm.habCtxFree addr).unmapped = order := hfrees.unmapped
  refine ⟨hfrees.heap.noUse, ⟨hfrees.empty, ?_⟩, fun e ↦ ?_, ?_, ?_, ?_⟩
  · exact hfrees.heap.total.trans (by rw [hfrees.empty]; rfl)
  · have hfreed : (s.vm.habCtxFree addr).vm.freed e = s.vm.freed e + order.count e :=
      hfrees.freed e
    have hcount : order.count e = s.vm.impWhse.count e := hfrees.perm.count_eq e
    rw [hfreed, hcount]
    split
    next hlt =>
      rcases Nat.le_one_iff_eq_zero_or_eq_one.mp (hinv.heap.once e) with hlive | hdead
      · have hmem : e ∈ s.vm.impWhse := by
          refine (h e hlt hlive).resolve_right ?_
          rintro ⟨i, stage, hget, -⟩
          rw [Pool.get_eq_none_of_all hidle] at hget
          cases hget
        rw [hlive, List.count_eq_one_of_mem hinv.heap.nodup hmem]
      · have hout : e ∉ s.vm.impWhse := fun hmem ↦ by
          rw [(hinv.heap.live e hmem).2] at hdead
          cases hdead
        rw [hdead, List.count_eq_zero.mpr hout]
    next hge =>
      have hout : e ∉ s.vm.impWhse := fun hmem ↦ hge (hinv.heap.live e hmem).1
      rw [hinv.heap.fresh e (Nat.not_lt.mp hge), List.count_eq_zero.mpr hout]
  · rw [hunmapped]
    exact hfrees.perm
  · rw [hunmapped]
    exact hfrees.sent
  · rw [hunmapped]
    exact hfrees.ascends

/-- After any run that frees no descriptor before its EXPORT_ACK is sent, the end of the
context frees all that is left. -/
theorem releasesAll_of_meets {memProto : HabPchan → Bool} {acts : List ImportAct}
    {s : ImportSystem} (addr : HabPchan → ℕ) (hacked : Meets step Acked (start memProto) acts)
    (hrun : exec step (start memProto) acts = some s)
    (hidle : s.calls.all (fun _ ↦ false) = true) :
    ReleasesAll s.vm (s.vm.habCtxFree addr) := by
  have hkeep : ∀ (s : ImportSystem) act t, Inv s ∧ Covered s → s.Acked act → s.step act = some t →
      Inv t ∧ Covered t :=
    fun s act t h hact hstep ↦ ⟨h.1.step act hact hstep, h.2.step hstep⟩
  have hstart : Covered (start memProto) := fun _ hlt ↦ absurd hlt (Nat.not_lt_zero _)
  obtain ⟨hinv, hcovered⟩ := invariant_of_meets hkeep ⟨inv_start memProto, hstart⟩ hacked hrun
  exact hcovered.releasesAll hinv hidle addr

/-- Two descriptors are received and not imported. -/
def twoReceived (vchan : ImportVchan) : List ImportAct :=
  [.openVchan vchan, .recvExport 0 ⟨113, 9, 1, 1, 1, 1⟩ true true true, .advance 0 true,
    .recvExport 0 ⟨113, 7, 1, 1, 1, 1⟩ true true true, .advance 1 true]

theorem releasesAll_of_meets_twoReceived :
    ∃ s, exec step (start fun _ ↦ true)
        (twoReceived ⟨0, ⟨⟨101, by decide⟩, ⟨2, by decide⟩⟩, ⟨1, by decide⟩, 1⟩) = some s ∧
      s.vm.impWhse = [0, 1] ∧ ReleasesAll s.vm (s.vm.habCtxFree fun _ ↦ 0) := by
  have hseen : (exec step (start fun _ ↦ true)
      (twoReceived ⟨0, ⟨⟨101, by decide⟩, ⟨2, by decide⟩⟩, ⟨1, by decide⟩, 1⟩)).map
        (fun s ↦ (s.vm.impWhse, s.calls.all fun _ ↦ false)) = some ([0, 1], true) := by decide
  obtain ⟨s, hrun, hs⟩ := Option.map_eq_some_iff.mp hseen
  obtain ⟨hwhse, hidle⟩ := Prod.mk.inj hs
  refine ⟨s, hrun, hwhse, releasesAll_of_meets (fun _ ↦ 0) ?_ hrun hidle⟩
  refine ⟨trivial, trivial, ?_, trivial, ?_, trivial⟩
  · rintro vchan e ⟨⟩
  · rintro vchan e ⟨⟩

end ImportSystem

end Hab
