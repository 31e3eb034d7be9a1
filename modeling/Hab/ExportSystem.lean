import Hab.Library.Pool
import Hab.Export

/-!
# The export side, one lock section at a time

The same code as in the sequential calls, but a call may be interrupted
between any two of its lock sections by the other calls, by the reclaim worker,
by the messages of the importers, and by an open that writes `pchan->mem_proto`.
-/

namespace Hab

/-- Where a call on the export side stands. -/
inductive ExportStage (π : Type*) where
  /-- `hab_mem_export`: the descriptor has its id. -/
  | added (vchan : ExportVchan π) (e : ℕ)
  /-- `hab_mem_export`: `habmem_export_vchan` comes next. -/
  | granted (vchan : ExportVchan π) (e : ℕ)
  /-- `hab_mem_export`: EXPORT was sent by the legacy protocol, and the call waits for its
  acknowledgement. -/
  | sent (vchan : ExportVchan π) (e : ℕ)
  /-- `hab_mem_export`: the descriptor is on `exp_whse`. -/
  | linked (vchan : ExportVchan π) (e : ℕ)
  /-- `hab_mem_unexport`: the id is out of the table. -/
  | taken (vchan : ExportVchan π) (e : ℕ)
  /-- `hab_mem_unexport`: the descriptor is off `exp_whse`. -/
  | unlinked (vchan : ExportVchan π) (e : ℕ)
  /-- `hab_mem_unexport`: the grant is revoked. -/
  | revoked (vchan : ExportVchan π) (e : ℕ)
  /-- `hab_ctx_free`: the head of `exp_whse` comes next. -/
  | freeing (c : ℕ)
  /-- `hab_ctx_free`: the export is still imported. -/
  | spared (c e : ℕ)
  /-- `hab_ctx_free`: the export is not imported. -/
  | chosen (c e : ℕ)
  /-- `hab_ctx_free`: the grant is revoked. -/
  | dropped (c e : ℕ)
  /-- `hab_ctx_free`: the id is out of the table. -/
  | gone (c e : ℕ)
  /-- `reclaim_cleanup`: what is on `free_list`. -/
  | reclaiming (freeList : List ℕ)
  /-- `reclaim_cleanup`: the id is out of the table. -/
  | reclaimed (e : ℕ) (freeList : List ℕ)
deriving DecidableEq

namespace ExportStage

variable {π : Type*}

/-- The vchan a call holds a reference to. -/
def holds (v : ℕ) : ExportStage π → Bool
  | .added vchan _ | .granted vchan _ | .sent vchan _ | .linked vchan _ | .taken vchan _
  | .unlinked vchan _ | .revoked vchan _ => vchan.addr = v
  | _ => false

/-- The call is the end of the context. -/
def frees (c : ℕ) : ExportStage π → Bool
  | .freeing c' | .spared c' _ | .chosen c' _ | .dropped c' _ | .gone c' _ => c' = c
  | _ => false

def isReclaim : ExportStage π → Bool
  | .reclaiming _ | .reclaimed _ _ => true
  | _ => false

/-- The descriptor a `hab_mem_export` is building. -/
def exports : ExportStage π → Option ℕ
  | .added _ e | .granted _ e | .sent _ e | .linked _ e => some e
  | _ => none

/-- The descriptor a `hab_mem_export` is building, and its pchan, while it is not
on `exp_whse` yet. -/
def builds : ExportStage π → Option (π × ℕ)
  | .added vchan e | .granted vchan e | .sent vchan e => some (vchan.pchan, e)
  | _ => none

theorem exports_of_builds {stage : ExportStage π} {p : π} {e : ℕ}
    (h : stage.builds = some (p, e)) : stage.exports = some e := by
  cases stage with
  | added vchan e' =>
      cases h
      rfl
  | granted vchan e' =>
      cases h
      rfl
  | sent vchan e' =>
      cases h
      rfl
  | _ => cases h

/-- The context's end or the reclaim worker has the descriptor in hand, off the
lists. -/
def handles (e : ℕ) : ExportStage π → Bool
  | .spared _ e' | .chosen _ e' | .dropped _ e' => e' = e
  | .reclaiming freeList | .reclaimed _ freeList => e ∈ freeList
  | _ => false

/-- It has also decided to release it, and its id is still in the table. -/
def chose (e : ℕ) : ExportStage π → Bool
  | .chosen _ e' | .dropped _ e' => e' = e
  | .reclaiming freeList | .reclaimed _ freeList => e ∈ freeList
  | _ => false

theorem handles_of_chose {stage : ExportStage π} {e : ℕ} (h : stage.chose e = true) :
    stage.handles e = true := by
  cases stage with
  | chosen c e' => exact h
  | dropped c e' => exact h
  | reclaiming freeList => exact h
  | reclaimed e' freeList => exact h
  | _ => cases h

/-- The descriptor whose id the call has taken out of the table. -/
def took : ExportStage π → Option ℕ
  | .taken _ e | .unlinked _ e | .revoked _ e | .gone _ e | .reclaimed e _ => some e
  | _ => none

variable [DecidableEq π]

/-- The next lock section of a call: the state after it, and where the call
stands then.  `ok` says whether what the call waits for or asks for succeeds. -/
def run (vm : ExportVm π) (ok : Bool) :
    ExportStage π → Option (ExportVm π × Option (ExportStage π))
  | .added vchan e =>
      if ok then some (vm, some (.granted vchan e))
      -- the error path locks `export->pchan`, which the legacy protocol has not set
      else (vm.desc e).pchan.map fun _ ↦ ((vm.idrRemove vchan.pchan e).destroy e, none)
  | .granted vchan e =>
      if !ok then some (vm, none)
      else if vm.memProto vchan.pchan then
        some (vm.linkExport vchan.ctx e, some (.linked vchan e))
      else some (vm, some (.sent vchan e))
  | .sent vchan e =>
      if ok then
        some ((vm.setLocal vchan vchan.ctx e).linkExport vchan.ctx e, some (.linked vchan e))
      else some (vm, none)
  | .linked _ e => some (vm.publishExport e, none)
  | .taken vchan e => some (vm.unlink e, some (.unlinked vchan e))
  | .unlinked vchan e => some (vm.revoke e, some (.revoked vchan e))
  | .revoked _ e => some (vm.habmemRemoveExport e, none)
  | .freeing c =>
      match (vm.ctx c).expWhse with
      | [] => some (vm.setCtx c { vm.ctx c with live := false }, none)
      | e :: _ =>
          -- `export->pchan` is read only if the export is imported
          if (vm.desc e).remoteImported then
            (vm.desc e).pchan.map fun p ↦
              (vm.unlink e, some (if vm.stillImported e p then .spared c e else .chosen c e))
          else some (vm.unlink e, some (.chosen c e))
  | .spared c e => some (vm.reclaimLater e, some (.freeing c))
  | .chosen c e => some (vm.revoke e, some (.dropped c e))
  | .dropped c e => (vm.desc e).pchan.map fun p ↦ (vm.idrRemove p e, some (.gone c e))
  | .gone c e => some (vm.habmemRemoveExport e, some (.freeing c))
  | .reclaiming [] => some (vm, none)
  | .reclaiming (e :: freeList) =>
      (vm.desc e).pchan.map fun p ↦ (vm.idrRemove p e, some (.reclaimed e freeList))
  | .reclaimed e freeList => some (vm.destroy e, some (.reclaiming freeList))

end ExportStage

/-- An exporting VM with its calls in progress. -/
structure ExportSystem (π : Type*) where
  vm : ExportVm π
  calls : Pool (ExportStage π)

/-- What may happen next. -/
inductive ExportAct (π : Type*) where
  | export (c v : ℕ) (id payloadCount : UInt32)
  | unexport (c v : ℕ) (id : UInt32)
  | ctxFree (c : ℕ)
  | reclaim
  /-- A call in progress runs its next lock section. -/
  | advance (i : ℕ) (ok : Bool)
  | recvImport (v : ℕ) (data : HabImportData) (sent : Bool)
  | recvUnimport (p : π) (id : UInt32)
  | ctxAlloc (c : ℕ)
  | openVchan (vchan : ExportVchan π)
  | freeVchan (v : ℕ)
  /-- An open on the pchan takes over the protocol that the peer offers. -/
  | negotiate (p : π) (newProto : Bool)

namespace ExportSystem

variable {π : Type*} [DecidableEq π]

/-- The vchan at `v`, whatever its context. -/
def vchanAt (s : ExportSystem π) (v : ℕ) : Option (ExportVchan π) :=
  s.vm.vchans.find? (fun vchan ↦ vchan.addr = v)

def step (s : ExportSystem π) : ExportAct π → Option (ExportSystem π)
  | .export c v id payloadCount => do
      let vchan ← s.vm.getVchan c v
      if (s.vm.expidIdr vchan.pchan id).isSome then none
      else some ⟨s.vm.habmemAddExport vchan id payloadCount,
        s.calls.spawn (.added vchan s.vm.nextDesc)⟩
  | .unexport c v id => do
      let vchan ← s.vm.getVchan c v
      match s.vm.takeUnexport vchan.pchan c id with
      | (.error _, _) => some s
      | (.ok e, vm) => some ⟨vm, s.calls.spawn (.taken vchan e)⟩
  | .ctxFree c =>
      if (s.vm.ctx c).live ∧ (∀ vchan ∈ s.vm.vchans, vchan.ctx ≠ c) ∧
          s.calls.all (fun stage ↦ !stage.frees c) then
        some { s with calls := s.calls.spawn (.freeing c) }
      else none
  | .reclaim =>
      if s.calls.all (fun stage ↦ !stage.isReclaim) then
        some ⟨s.vm.takeReclaimable, s.calls.spawn (.reclaiming s.vm.reclaimable)⟩
      else none
  | .advance i ok => do
      let stage ← s.calls.get i
      let (vm, stage) ← stage.run s.vm ok
      some ⟨vm, s.calls.set i stage⟩
  | .recvImport v data sent => do
      let vchan ← s.vchanAt v
      some { s with vm := s.vm.recvImport vchan data sent }
  | .recvUnimport p id => some { s with vm := s.vm.habRecvUnimportMsg p id }
  | .ctxAlloc c =>
      if (s.vm.ctx c).live then none else some { s with vm := s.vm.setCtx c ⟨true, [], 0⟩ }
  | .openVchan vchan =>
      if (s.vm.ctx vchan.ctx).live ∧ (∀ other ∈ s.vm.vchans, other.addr ≠ vchan.addr) ∧
          s.calls.all (fun stage ↦ !stage.frees vchan.ctx) then
        some { s with vm := { s.vm with vchans := vchan :: s.vm.vchans } }
      else none
  | .freeVchan v =>
      if s.calls.all (fun stage ↦ !stage.holds v) then
        some { s with
          vm := { s.vm with vchans := s.vm.vchans.filter (fun vchan ↦ vchan.addr ≠ v) } }
      else none
  | .negotiate p newProto =>
      some { s with
        vm := { s.vm with memProto := Function.update s.vm.memProto p newProto } }

/-- A VM without contexts and exports, whose pchans all speak the new protocol. -/
def start : ExportSystem π := ⟨.start fun _ ↦ true, .empty⟩

end ExportSystem

end Hab
