import Hab.Library.Pool
import Hab.Import

/-!
# The import side, one lock section at a time

Any number of threads in `hab_mem_import` and `hab_mem_unimport`, and of messages
being handled, on one context.  Between two lock sections, and between a lock
section and an access to a descriptor without a lock, everything else may
happen.
-/

namespace Hab

/-- Where a call or the handling of a message stands. -/
inductive ImportStage where
  /-- `hab_receive_export_desc`: the ack goes to `imp_rxq` next. -/
  | queueing (vchan : ImportVchan) (ack : HabImportAck) (e : ℕ)
  /-- `hab_receive_export_desc`: `hab_send_export_ack` comes next. -/
  | exportAcking (vchan : ImportVchan) (e : ℕ) (added : Bool)
  /-- `hab_receive_export_desc`: at `err_imp`. -/
  | rejected (vchan : ImportVchan) (e : ℕ)
  /-- `hab_import_ack_wait`. -/
  | waiting (vchan : ImportVchan) (param : HabImport)
  /-- `hab_import_ack_wait`: the wait is over. -/
  | acked (vchan : ImportVchan) (param : HabImport) (scanImpWhse : Bool)
  /-- `hab_mem_import`: `imp_lock` comes next. -/
  | finding (vchan : ImportVchan) (param : HabImport)
  /-- `hab_mem_import`: the descriptor is EXP_DESC_IMPORTING. -/
  | importing (vchan : ImportVchan) (param : HabImport) (e : ℕ)
  /-- `hab_mem_import`: the buffer is mapped. -/
  | mapped (vchan : ImportVchan) (e : ℕ)
  /-- `hab_mem_import`: the size is wrong or the mapping failed. -/
  | failed (vchan : ImportVchan) (e : ℕ)
  /-- `hab_mem_unimport`: the descriptor is EXP_DESC_UNIMPORTING. -/
  | unimporting (vchan : ImportVchan) (e : ℕ)
  /-- `hab_mem_unimport`: the unmapping failed. -/
  | restoring (vchan : ImportVchan) (e : ℕ)
  /-- `hab_send_unimport_msg` comes next. -/
  | undoing (vchan : ImportVchan) (e : ℕ)
  /-- `imp_lock` comes next, to remove the descriptor. -/
  | removing (vchan : ImportVchan) (e : ℕ)
  /-- `kfree` comes next. -/
  | freeing (vchan : ImportVchan) (e : ℕ)
deriving DecidableEq

namespace ImportStage

/-- The vchan that is referenced meanwhile. -/
def vchan : ImportStage → ImportVchan
  | .queueing vchan _ _ | .exportAcking vchan _ _ | .rejected vchan _ | .waiting vchan _
  | .acked vchan _ _ | .finding vchan _ | .importing vchan _ _ | .mapped vchan _
  | .failed vchan _ | .unimporting vchan _ | .restoring vchan _ | .undoing vchan _
  | .removing vchan _ | .freeing vchan _ => vchan

/-- The next step: the context after it, and where the call stands then.  `ok`
says whether what the call waits for or asks for succeeds; a wait that is not
over ends without success when its time is up or a signal comes. -/
def run (vm : ImportVm) (ok : Bool) : ImportStage → ImportVm × Option ImportStage
  | .queueing vchan ack e =>
      (vm.queueAck ack, if ack.impWhseAdded then none else some (.freeing vchan e))
  | .exportAcking vchan e added =>
      (vm.touch [e], if added then none else some (.freeing vchan e))
  | .rejected vchan e =>
      ((vm.touch [e]).queueFail vchan (vm.desc e).exportId ok, some (.freeing vchan e))
  | .waiting vchan param =>
      let found := vm.habImportAckFind
        ⟨param.exportId, vchan.id, vchan.otherendId, false⟩ vchan
      (found.2,
        if found.1.1 then some (.acked vchan param found.1.2)
        else if ok then some (.waiting vchan param)
        else none)
  | .acked vchan param scanImpWhse =>
      (vm, if vm.otherendClosed vchan.addr then none
        else if scanImpWhse then some (.finding vchan param)
        else none)
  | .finding vchan param =>
      let vm := vm.touch vm.impWhse
      match vm.habRbExpFind param.exportId vchan.pchan with
      | none => (vm, none)
      | some e =>
          if (vm.desc e).importState = .init then
            (vm.setImportState e .importing, some (.importing vchan param e))
          else (vm, none)
  | .importing vchan param e =>
      let fits := (vm.desc e).payloadCount * pageSize % 2 ^ 32 = param.sizebytes.toNat
      (vm.touch [e], some (if fits ∧ ok then .mapped vchan e else .failed vchan e))
  | .mapped _ e => ((vm.touch [e]).setImportState e .imported, none)
  | .failed vchan e =>
      ((vm.touch [e]).setImportState e .init,
        if vm.memProto vchan.pchan then some (.undoing vchan e) else none)
  | .unimporting vchan e =>
      (vm.touch [e],
        some (if ¬ ok then .restoring vchan e
          else if vm.memProto vchan.pchan then .undoing vchan e
          else .removing vchan e))
  | .restoring _ e => ((vm.touch [e]).setImportState e .imported, none)
  | .undoing vchan e => (vm.touch [e], some (.removing vchan e))
  | .removing vchan e => (vm.removeImport e, some (.freeing vchan e))
  | .freeing _ e => (vm.kfree e, none)

end ImportStage

/-- The importing side of a context with its calls in progress. -/
structure ImportSystem where
  vm : ImportVm
  calls : Pool ImportStage

/-- What may happen next. -/
inductive ImportAct where
  /-- `hab_mem_import`, up to the wait or the first section of `imp_lock`; `sent`
  if the IMPORT could be sent. -/
  | import (v : ℕ) (param : HabImport) (sent : Bool)
  /-- `hab_mem_unimport`, up to the end of its first section of `imp_lock`. -/
  | unimport (v : ℕ) (exportId : UInt32)
  /-- A call in progress makes its next step. -/
  | advance (i : ℕ) (ok : Bool)
  /-- An EXPORT or IMPORT_ACK arrives. -/
  | recvExport (v : ℕ) (msg : ExportMsg) (read allocDesc allocAck : Bool)
  /-- An IMPORT_ACK_FAIL arrives. -/
  | recvImportAckFail (v : ℕ) (exportId : UInt32) (alloc : Bool)
  /-- A CLOSE arrives. -/
  | recvClose (v : ℕ)
  | openVchan (vchan : ImportVchan)
  | closeVchan (v : ℕ)
  | freeVchan (v : ℕ)

namespace ImportSystem

/-- The vchan at `v` that a message is for: not closed on either side. -/
def recvVchan (s : ImportSystem) (v : ℕ) : Option ImportVchan :=
  s.vm.getVchan v false

/-- The handling of a descriptor goes on after the section of `imp_lock`. -/
def received (s : ImportSystem) (vchan : ImportVchan) :
    ImportVm.Received × ImportVm → ImportSystem
  | (.dropped, vm) => { s with vm := vm }
  | (.rejected e, vm) =>
      ⟨vm, s.calls.spawn
        (if vm.memProto vchan.pchan then .rejected vchan e else .freeing vchan e)⟩
  | (.enqueued e added, vm) =>
      ⟨vm, s.calls.spawn
        (if vm.memProto vchan.pchan then .queueing vchan (vm.importAck e added) e
          else .exportAcking vchan e added)⟩

def step (s : ImportSystem) : ImportAct → Option ImportSystem
  | .import v param sent =>
      if param.sizebytes.toNat % pageSize ≠ 0 then some s
      else
        match s.vm.getVchan v false with
        | none => some s
        | some vchan =>
            if s.vm.memProto vchan.pchan then
              if sent then some { s with calls := s.calls.spawn (.waiting vchan param) }
              else some s
            else some { s with calls := s.calls.spawn (.finding vchan param) }
  | .unimport v exportId =>
      match s.vm.getVchan v true with
      | none => some s
      | some vchan =>
          let vm := s.vm.touch s.vm.impWhse
          match vm.habRbExpFind exportId vchan.pchan with
          | none => some { s with vm := vm }
          | some e =>
              if (vm.desc e).importState = .imported then
                some ⟨vm.setImportState e .unimporting,
                  s.calls.spawn (.unimporting vchan e)⟩
              else some { s with vm := vm }
  | .advance i ok => do
      let stage ← s.calls.get i
      let next := stage.run s.vm ok
      some ⟨next.1, s.calls.set i next.2⟩
  | .recvExport v msg read allocDesc allocAck => do
      let vchan ← s.recvVchan v
      some (s.received vchan (s.vm.habReceiveExportDesc vchan msg read allocDesc allocAck))
  | .recvImportAckFail v exportId alloc => do
      let vchan ← s.recvVchan v
      some { s with vm := s.vm.queueFail vchan exportId alloc }
  | .recvClose v => do
      let vchan ← s.recvVchan v
      some { s with vm := { s.vm with
        otherendClosed := Function.update s.vm.otherendClosed vchan.addr true } }
  | .openVchan vchan =>
      if ∀ other ∈ s.vm.vchans, other.addr ≠ vchan.addr ∧ other.id ≠ vchan.id then
        some { s with vm := { s.vm with
          vchans := vchan :: s.vm.vchans
          otherendClosed := Function.update s.vm.otherendClosed vchan.addr false
          closed := Function.update s.vm.closed vchan.addr false } }
      else none
  | .closeVchan v =>
      some { s with vm := { s.vm with
        otherendClosed := Function.update s.vm.otherendClosed v true
        closed := Function.update s.vm.closed v true } }
  | .freeVchan v =>
      if s.vm.closed v ∧ s.calls.all (fun stage ↦ stage.vchan.addr ≠ v) then
        some { s with
          vm := { s.vm with vchans := s.vm.vchans.filter fun vchan ↦ vchan.addr ≠ v } }
      else none

def start (memProto : HabPchan → Bool) : ImportSystem := ⟨.start memProto, .empty⟩

end ImportSystem

end Hab
