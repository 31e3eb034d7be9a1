import Hab.Open

/-!
# Exports (`hab_mimex.c`, `hab_msg.c`, `hab_ctx_free`, `reclaim_cleanup`)

An exporting VM keeps its export descriptors in one `expid_idr` for each pchan
and in one `exp_whse` for each context.  The functions here are what the
code does in one lock section each; the calls are put together from them.
Descriptors, contexts and vchans are named by their address.
-/

namespace Hab

inductive ExportState where
  | exporting | success
deriving DecidableEq, Repr

/-- The fields of `struct export_desc` and `struct export_desc_super` that decide
what happens to an export. -/
structure ExportDesc (π : Type*) where
  exportId : UInt32
  payloadCount : UInt32
  vchan : Option ℕ
  ctx : Option ℕ
  pchan : Option π
  expState : ExportState
  remoteImported : Bool
deriving DecidableEq

/-- The fields of `struct uhab_context` for exports; `live` while a context is
allocated at the address. -/
structure ExportCtx where
  live : Bool
  expWhse : List ℕ
  exportTotal : ℤ
deriving DecidableEq

/-- The fields of `struct virtual_channel` that the export paths read. -/
structure ExportVchan (π : Type*) where
  addr : ℕ
  ctx : ℕ
  pchan : π
deriving DecidableEq

/-- What has happened to an export so far; no code reads this. -/
structure ExportLog where
  /-- The context that called `hab_mem_export`. -/
  exporter : ℕ
  /-- `pchan->mem_proto` was 1 when `habmem_add_export` made the descriptor. -/
  newProto : Bool
  /-- The IMPORT_ACKs sent for it. -/
  acks : ℕ
  /-- The UNIMPORTs received for it. -/
  unimports : ℕ
  revoked : Bool
  destroyed : Bool
deriving DecidableEq

/-- The export side of a VM. -/
structure ExportVm (π : Type*) where
  /-- `pchan->mem_proto` at present, which is 0 or 1. -/
  memProto : π → Bool
  expidIdr : π → UInt32 → Option ℕ
  desc : ℕ → ExportDesc π
  /-- The address of the next descriptor. -/
  nextDesc : ℕ
  ctx : ℕ → ExportCtx
  vchans : List (ExportVchan π)
  reclaimList : List ℕ
  log : ℕ → ExportLog

structure HabImportData where
  expId : UInt32
  pageCnt : UInt32
deriving DecidableEq

namespace ExportVm

variable {π : Type*}

def setDesc (vm : ExportVm π) (e : ℕ) (d : ExportDesc π) : ExportVm π :=
  { vm with desc := Function.update vm.desc e d }

def setCtx (vm : ExportVm π) (c : ℕ) (x : ExportCtx) : ExportVm π :=
  { vm with ctx := Function.update vm.ctx c x }

def setLog (vm : ExportVm π) (e : ℕ) (l : ExportLog) : ExportVm π :=
  { vm with log := Function.update vm.log e l }

/-- `hab_get_vchan_fromvcid` on the context at `c`, for the vchan at `v`. -/
def getVchan (vm : ExportVm π) (c v : ℕ) : Option (ExportVchan π) :=
  vm.vchans.find? (fun vchan ↦ vchan.addr = v ∧ vchan.ctx = c)

/-- A VM without contexts and exports. -/
def start (memProto : π → Bool) : ExportVm π :=
  { memProto := memProto
    expidIdr := fun _ _ ↦ none
    desc := fun _ ↦ ⟨0, 0, none, none, none, .exporting, false⟩
    nextDesc := 0
    ctx := fun _ ↦ ⟨false, [], 0⟩
    vchans := []
    reclaimList := []
    log := fun _ ↦ ⟨0, false, 0, 0, false, false⟩ }

variable [DecidableEq π]

def setIdr (vm : ExportVm π) (p : π) (id : UInt32) (entry : Option ℕ) : ExportVm π :=
  { vm with
    expidIdr := Function.update vm.expidIdr p (Function.update (vm.expidIdr p) id entry) }

variable {vm vm' : ExportVm π}

theorem setIdr_none_eq_some {p q : π} {id id' : UInt32} {e : ℕ} :
    (vm.setIdr p id none).expidIdr q id' = some e ↔
      ¬ (q = p ∧ id' = id) ∧ vm.expidIdr q id' = some e := by
  simp only [setIdr]
  by_cases hq : q = p
  · subst hq
    by_cases hid : id' = id
    · simp [hid]
    · simp [hid]
  · simp [hq]

theorem setIdr_some_eq_some {p q : π} {id id' : UInt32} {e e' : ℕ} :
    (vm.setIdr p id (some e)).expidIdr q id' = some e' ↔
      (q = p ∧ id' = id ∧ e' = e) ∨
        (¬ (q = p ∧ id' = id) ∧ vm.expidIdr q id' = some e') := by
  simp only [setIdr]
  by_cases hq : q = p
  · subst hq
    by_cases hid : id' = id
    · simp [hid, eq_comm]
    · simp [hid]
  · simp [hq]

/-! ## Export -/

/-- `habmem_add_export`, with the page count that
`habmem_add_export_compress` puts in.  Local pointers are set by the new
protocol only. -/
def habmemAddExport (vm : ExportVm π) (vchan : ExportVchan π) (id payloadCount : UInt32) :
    ExportVm π :=
  let newProto := vm.memProto vchan.pchan
  let vm := vm.setIdr vchan.pchan id (some vm.nextDesc)
  let vm := vm.setDesc vm.nextDesc
    { exportId := id
      payloadCount := payloadCount
      vchan := if newProto then some vchan.addr else none
      ctx := if newProto then some vchan.ctx else none
      pchan := if newProto then some vchan.pchan else none
      expState := .exporting
      remoteImported := false }
  let vm := vm.setLog vm.nextDesc ⟨vchan.ctx, newProto, 0, 0, false, false⟩
  { vm with nextDesc := vm.nextDesc + 1 }

/-- The last put on a descriptor, `habmem_export_destroy`. -/
def destroy (vm : ExportVm π) (e : ℕ) : ExportVm π :=
  vm.setLog e { vm.log e with destroyed := true }

/-- The end of the legacy handshake in `habmem_export_vchan`. -/
def setLocal (vm : ExportVm π) (vchan : ExportVchan π) (c e : ℕ) : ExportVm π :=
  vm.setDesc e
    { vm.desc e with pchan := some vchan.pchan, vchan := some vchan.addr, ctx := some c }

/-- `habmem_export_vchan`: the section of `exp_lock`. -/
def linkExport (vm : ExportVm π) (c e : ℕ) : ExportVm π :=
  vm.setCtx c
    { vm.ctx c with
      exportTotal := (vm.ctx c).exportTotal + 1
      expWhse := (vm.ctx c).expWhse ++ [e] }

/-- `WRITE_ONCE(exp_super->exp_state, HAB_EXP_SUCCESS)`. -/
def publishExport (vm : ExportVm π) (e : ℕ) : ExportVm π :=
  vm.setDesc e { vm.desc e with expState := .success }

/-! ## Unexport -/

/-- `hab_mem_unexport`: the section of `expid_lock`. -/
def takeUnexport (vm : ExportVm π) (p : π) (c : ℕ) (id : UInt32) :
    Except Errno ℕ × ExportVm π :=
  match vm.expidIdr p id with
  | none => (.error .einval, vm)
  | some e =>
      let d := vm.desc e
      if d.expState = .success ∧ d.ctx = some c ∧ d.remoteImported = false then
        (.ok e, vm.setIdr p id none)
      else (.error (if d.remoteImported then .ebusy else .einval), vm)

theorem takeUnexport_ok {p : π} {c e : ℕ} {id : UInt32}
    (h : vm.takeUnexport p c id = (.ok e, vm')) :
    vm.expidIdr p id = some e ∧ (vm.desc e).expState = .success ∧ (vm.desc e).ctx = some c ∧
      (vm.desc e).remoteImported = false ∧ vm' = vm.setIdr p id none := by
  unfold takeUnexport at h
  split at h
  · cases h
  · rename_i e' he'
    simp only at h
    split at h
    · rename_i hok
      cases h
      exact ⟨he', hok.1, hok.2.1, hok.2.2, rfl⟩
    · cases h

theorem takeUnexport_error {p : π} {c : ℕ} {id : UInt32} {err : Errno}
    (h : vm.takeUnexport p c id = (.error err, vm')) : vm' = vm := by
  unfold takeUnexport at h
  split at h
  · cases h
    rfl
  · simp only at h
    split at h <;> cases h
    rfl

/-- `list_del(&export->node)`, whatever list the descriptor is on. -/
def unlink (vm : ExportVm π) (e : ℕ) : ExportVm π :=
  { vm with
    ctx := fun c ↦ { vm.ctx c with expWhse := (vm.ctx c).expWhse.erase e }
    reclaimList := vm.reclaimList.erase e }

/-- `habmem_hyp_revoke`, which never fails. -/
def revoke (vm : ExportVm π) (e : ℕ) : ExportVm π :=
  vm.setLog e { vm.log e with revoked := true }

/-- `habmem_remove_export`: a descriptor without a context is left as it is. -/
def habmemRemoveExport (vm : ExportVm π) (e : ℕ) : ExportVm π :=
  match (vm.desc e).ctx with
  | none => vm
  | some c =>
      let vm := vm.setCtx c { vm.ctx c with exportTotal := (vm.ctx c).exportTotal - 1 }
      let vm := vm.setDesc e { vm.desc e with ctx := none }
      vm.destroy e

/-! ## Messages -/

/-- The export that the IMPORT case of `hab_msg_recv` acknowledges: found, with
the page count asked for, and exported successfully. -/
def acknowledged (vm : ExportVm π) (p : π) (data : HabImportData) : Option ℕ :=
  (vm.expidIdr p data.expId).filter fun e ↦
    data.pageCnt = (vm.desc e).payloadCount ∧ (vm.desc e).expState = .success

omit [DecidableEq π] in
theorem acknowledged_eq_some {p : π} {data : HabImportData} {e : ℕ} :
    vm.acknowledged p data = some e ↔ vm.expidIdr p data.expId = some e ∧
      data.pageCnt = (vm.desc e).payloadCount ∧ (vm.desc e).expState = .success := by
  simp [acknowledged, Option.filter_eq_some_iff]

/-- `hab_send_import_ack`; `sent` if `physical_channel_send` returns 0. -/
def habSendImportAck (vm : ExportVm π) (vchan : ExportVchan π) (e : ℕ) (sent : Bool) :
    ExportVm π :=
  let vm := vm.setDesc e
    { vm.desc e with
      pchan := some vchan.pchan, vchan := some vchan.addr, ctx := some vchan.ctx }
  vm.setLog e { vm.log e with acks := (vm.log e).acks + if sent then 1 else 0 }

/-- The IMPORT case of `hab_msg_recv`.  An import that is not acknowledged is
answered by an IMPORT_ACK_FAIL, which changes nothing here. -/
def recvImport (vm : ExportVm π) (vchan : ExportVchan π) (data : HabImportData) (sent : Bool) :
    ExportVm π :=
  match vm.acknowledged vchan.pchan data with
  | none => vm
  | some e =>
      (vm.setDesc e { vm.desc e with remoteImported := true }).habSendImportAck vchan e sent

def habRecvUnimportMsg (vm : ExportVm π) (p : π) (id : UInt32) : ExportVm π :=
  match vm.expidIdr p id with
  | none => vm
  | some e =>
      if (vm.desc e).exportId = id ∧ (vm.desc e).pchan = some p then
        let vm := vm.setDesc e { vm.desc e with remoteImported := false }
        vm.setLog e { vm.log e with unimports := (vm.log e).unimports + 1 }
      else vm

/-! ## Release without unexport -/

/-- The test of `hab_ctx_free`: does the export wait for the importer? -/
def stillImported (vm : ExportVm π) (e : ℕ) (p : π) : Bool :=
  (vm.desc e).remoteImported && vm.memProto p

/-- `list_add_tail(&export->node, &hab_driver.reclaim_list)`. -/
def reclaimLater (vm : ExportVm π) (e : ℕ) : ExportVm π :=
  { vm with reclaimList := vm.reclaimList ++ [e] }

/-- `idr_remove(&pchan->expid_idr, export->export_id)`. -/
def idrRemove (vm : ExportVm π) (p : π) (e : ℕ) : ExportVm π :=
  vm.setIdr p (vm.desc e).exportId none

/-- The walk of `reclaim_cleanup` under `reclaim_lock`: what it moves to its
`free_list`, where `list_move` puts each descriptor at the front. -/
def reclaimable (vm : ExportVm π) : List ℕ :=
  (vm.reclaimList.filter fun e ↦ ¬ (vm.desc e).remoteImported).reverse

def takeReclaimable (vm : ExportVm π) : ExportVm π :=
  { vm with reclaimList := vm.reclaimList.filter fun e ↦ (vm.desc e).remoteImported }

end ExportVm

end Hab
