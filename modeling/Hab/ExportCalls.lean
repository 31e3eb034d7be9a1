import Hab.Export

/-!
# Calls on the export side

The calls on the export side of a VM as they change its tables when they come
one after another: `hab_mem_export`, `hab_mem_unexport`, the end of a context,
the reclaim worker and the two messages of an importer.
-/

namespace Hab

variable {π : Type*} [DecidableEq π]

/-- How the calls inside `hab_mem_export` turn out. -/
inductive ExportOutcome where
  /-- `habmem_hyp_grant` fails before it has an export id. -/
  | grantFailed (err : Errno)
  /-- `idr_alloc_cyclic` fails; the descriptor is lost. -/
  | noId
  | notCompressed (err : Errno)
  | tooLarge
  | notSent (err : Errno)
  | notAcked (err : Errno)
  | done
deriving DecidableEq

namespace ExportVm

/-- `hab_mem_export`: the return value and the state.  There is no result where
the kernel would stop, nor where the outcome is not one of this protocol. -/
def habMemExport (vm : ExportVm π) (c v : ℕ) (id payloadCount : UInt32)
    (outcome : ExportOutcome) : Option (Option Errno × ExportVm π) :=
  match vm.getVchan c v with
  | none => some (some .enodev, vm)
  | some vchan =>
      let e := vm.nextDesc
      let oldProto := !vm.memProto vchan.pchan
      let added := vm.habmemAddExport vchan id payloadCount
      if outcome = .noId then some (some .einval, { vm with nextDesc := vm.nextDesc + 1 })
      else if (vm.expidIdr vchan.pchan id).isSome then none
      else
        match outcome with
        | .noId => none
        | .grantFailed err => some (some err, vm)
        | .notCompressed err =>
            -- the error path locks `export->pchan`, which the legacy protocol has not set
            if oldProto then none
            else some (some err, (added.idrRemove vchan.pchan e).destroy e)
        | .tooLarge => some (some .einval, added)
        | .notSent err | .notAcked err => if oldProto then some (some err, added) else none
        | .done =>
            let added := if oldProto then added.setLocal vchan c e else added
            some (none, (added.linkExport c e).publishExport e)

def habMemUnexport (vm : ExportVm π) (c v : ℕ) (id : UInt32) : Option Errno × ExportVm π :=
  match vm.getVchan c v with
  | none => (some .enodev, vm)
  | some vchan =>
      match vm.takeUnexport vchan.pchan c id with
      | (.error err, vm) => (some err, vm)
      | (.ok e, vm) => (none, ((vm.unlink e).revoke e).habmemRemoveExport e)

/-- `hab_ctx_free`: what happens to one descriptor of `exp_whse`. -/
def ctxFreeExport (vm : ExportVm π) (e : ℕ) : Option (ExportVm π) :=
  (vm.desc e).pchan.map fun p ↦
    if vm.stillImported e p then (vm.unlink e).reclaimLater e
    else (((vm.unlink e).revoke e).idrRemove p e).habmemRemoveExport e

/-- `hab_ctx_free`, called when no vchan refers to the context any more. -/
def habCtxFree (vm : ExportVm π) (c : ℕ) : Option (ExportVm π) :=
  if (vm.ctx c).live ∧ ∀ vchan ∈ vm.vchans, vchan.ctx ≠ c then
    ((vm.ctx c).expWhse.foldlM ctxFreeExport vm).map
      fun vm ↦ vm.setCtx c { vm.ctx c with live := false }
  else none

/-- `reclaim_cleanup`: what happens to one descriptor of its `free_list`. -/
def reclaimExport (vm : ExportVm π) (e : ℕ) : Option (ExportVm π) :=
  (vm.desc e).pchan.map fun p ↦ (vm.idrRemove p e).destroy e

def reclaimCleanup (vm : ExportVm π) : Option (ExportVm π) :=
  vm.reclaimable.foldlM reclaimExport vm.takeReclaimable

/-- `hab_ctx_alloc`, at any address that is not in use. -/
def habCtxAlloc (vm : ExportVm π) (c : ℕ) : Option (ExportVm π) :=
  if (vm.ctx c).live then none else some (vm.setCtx c ⟨true, [], 0⟩)

/-- A vchan is opened by a live context. -/
def openVchan (vm : ExportVm π) (vchan : ExportVchan π) : Option (ExportVm π) :=
  if (vm.ctx vchan.ctx).live ∧ ∀ other ∈ vm.vchans, other.addr ≠ vchan.addr then
    some { vm with vchans := vchan :: vm.vchans }
  else none

/-- The last reference to a vchan is dropped. -/
def freeVchan (vm : ExportVm π) (v : ℕ) : ExportVm π :=
  { vm with vchans := vm.vchans.filter (fun vchan ↦ vchan.addr ≠ v) }

/-- The vchan at `v`, whatever its context. -/
def vchanAt (vm : ExportVm π) (v : ℕ) : Option (ExportVchan π) :=
  vm.vchans.find? (fun vchan ↦ vchan.addr = v)

end ExportVm

/-- A call, or a message received, on the export side of a VM. -/
inductive ExportCall (π : Type*) where
  | export (c v : ℕ) (id payloadCount : UInt32) (outcome : ExportOutcome)
  | unexport (c v : ℕ) (id : UInt32)
  | ctxFree (c : ℕ)
  | recvImport (v : ℕ) (data : HabImportData) (sent : Bool)
  | recvUnimport (p : π) (id : UInt32)
  | reclaim
  | ctxAlloc (c : ℕ)
  | openVchan (vchan : ExportVchan π)
  | freeVchan (v : ℕ)

namespace ExportVm

def call (vm : ExportVm π) : ExportCall π → Option (ExportVm π)
  | .export c v id payloadCount outcome =>
      (vm.habMemExport c v id payloadCount outcome).map Prod.snd
  | .unexport c v id => some (vm.habMemUnexport c v id).2
  | .ctxFree c => vm.habCtxFree c
  | .recvImport v data sent =>
      some ((vm.vchanAt v).elim vm fun vchan ↦ vm.recvImport vchan data sent)
  | .recvUnimport p id => some (vm.habRecvUnimportMsg p id)
  | .reclaim => vm.reclaimCleanup
  | .ctxAlloc c => vm.habCtxAlloc c
  | .openVchan vchan => vm.openVchan vchan
  | .freeVchan v => some (vm.freeVchan v)

end ExportVm

end Hab
