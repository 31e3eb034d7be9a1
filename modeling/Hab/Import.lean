import Mathlib.Data.Int.Notation
import Mathlib.Logic.Function.Basic
import Hab.Vchan

/-!
# Imports (`hab_mimex.c`, `hab_msg.c`)

The importing side of one context: the descriptors it has received, the
warehouse `imp_whse` that finds them by export id and pchan, and the queue
`imp_rxq` of answers to its import requests.  The functions are what the code
does in one lock section each.  Descriptors are named by their address, and an
address is not used twice, so that an access to a freed descriptor can be seen.
-/

namespace Hab

inductive ExpDescState where
  | init | importing | imported | unimporting
deriving DecidableEq, Repr

/-- The fields of `struct export_desc` and `struct export_desc_super` that the
importer reads. -/
structure ImportDesc where
  exportId : UInt32
  pchan : HabPchan
  vcidLocal : UInt32
  vcidRemote : UInt32
  payloadCount : ℤ
  importState : ExpDescState
deriving DecidableEq

structure HabImportAck where
  exportId : UInt32
  vcidLocal : UInt32
  vcidRemote : UInt32
  impWhseAdded : Bool
deriving DecidableEq

structure HabImportAckRecvd where
  ack : HabImportAck
  age : ℤ
deriving DecidableEq

/-- The fields of `struct virtual_channel` that the import paths read and that do
not change. -/
structure ImportVchan where
  addr : ℕ
  pchan : HabPchan
  /-- The number that `vchan_idr` has given it. -/
  idr : Fin 4096
  otherendId : UInt32
deriving DecidableEq

/-- The test of `hab_import_ack_find`: is this the ack that is expected? -/
def HabImportAck.answers (ack expect : HabImportAck) : Bool :=
  ack.exportId = expect.exportId && ack.vcidLocal = expect.vcidLocal &&
    ack.vcidRemote = expect.vcidRemote

def ImportVchan.id (vchan : ImportVchan) : UInt32 := habVcid vchan.pchan vchan.idr

structure HabImport where
  exportId : UInt32
  sizebytes : UInt32
deriving DecidableEq

/-- What `hab_receive_export_desc` reads of an EXPORT or IMPORT_ACK. -/
structure ExportMsg where
  sizebytes : ℕ
  exportId : UInt32
  vcidLocal : UInt32
  vcidRemote : UInt32
  payloadCount : ℤ
  nregions : ℤ
deriving DecidableEq

def pageSize : ℕ := 4096

def qAgeThreshold : ℤ := 1000000

def maxExpPayloadCount : ℤ := 0xFFFFF

/-- `sizeof(struct export_desc) + sizeof(struct compressed_pfns)`. -/
def exportDescSizeMin : ℕ := 89 + 16

/-- `sizeof(struct region)`. -/
def regionSize : ℕ := 8

/-- The tests that `hab_receive_export_desc` makes before it looks at the
payload. -/
def ExportMsg.badSize (msg : ExportMsg) : Bool :=
  habHeaderSizeMax < msg.sizebytes || msg.sizebytes < exportDescSizeMin

/-- The tests that lead to `err_imp`.  `size_t` has 64 bits. -/
def ExportMsg.malformed (msg : ExportMsg) : Bool :=
  msg.nregions ≤ 0 || (2 ^ 64 - 1) / regionSize < msg.nregions.toNat ||
    2 ^ 64 - 1 - exportDescSizeMin < msg.nregions.toNat * regionSize ||
      msg.payloadCount < msg.nregions || maxExpPayloadCount < msg.payloadCount ||
        msg.sizebytes ≠ exportDescSizeMin + msg.nregions.toNat * regionSize

/-- The importing side of a context. -/
structure ImportVm where
  /-- `pchan->mem_proto`, which is 0 or 1. -/
  memProto : HabPchan → Bool
  desc : ℕ → ImportDesc
  /-- The address of the next descriptor. -/
  nextDesc : ℕ
  /-- How often `kfree` has been called on a descriptor. -/
  freed : ℕ → ℕ
  /-- A descriptor has been read or written after it was freed. -/
  useAfterFree : Bool
  impWhse : List ℕ
  importTotal : ℤ
  impRxq : List HabImportAckRecvd
  vchans : List ImportVchan
  otherendClosed : ℕ → Bool
  closed : ℕ → Bool

namespace ImportVm

/-- Read or write the descriptors. -/
def touch (vm : ImportVm) (es : List ℕ) : ImportVm :=
  { vm with useAfterFree := vm.useAfterFree || es.any fun e ↦ vm.freed e ≠ 0 }

def kfree (vm : ImportVm) (e : ℕ) : ImportVm :=
  { vm with freed := Function.update vm.freed e (vm.freed e + 1) }

/-- `exp_super->import_state = state`. -/
def setImportState (vm : ImportVm) (e : ℕ) (state : ExpDescState) : ImportVm :=
  { vm with desc := Function.update vm.desc e { vm.desc e with importState := state } }

/-- `kzalloc` of a descriptor, with what is read into it. -/
def alloc (vm : ImportVm) (d : ImportDesc) : ImportVm :=
  { vm with desc := Function.update vm.desc vm.nextDesc d, nextDesc := vm.nextDesc + 1 }

/-- `hab_rb_exp_find`.  The search reads nodes of the tree only. -/
def habRbExpFind (vm : ImportVm) (exportId : UInt32) (pchan : HabPchan) : Option ℕ :=
  vm.impWhse.find? fun e ↦ (vm.desc e).exportId = exportId ∧ (vm.desc e).pchan = pchan

/-- `hab_export_enqueue`: is the descriptor in the warehouse now? -/
def habExportEnqueue (vm : ImportVm) (e : ℕ) : Bool × ImportVm :=
  let vm := vm.touch (e :: vm.impWhse)
  if (vm.habRbExpFind (vm.desc e).exportId (vm.desc e).pchan).isSome then (false, vm)
  else (true, { vm with impWhse := vm.impWhse ++ [e], importTotal := vm.importTotal + 1 })

/-- `hab_rb_remove` and `import_total--`. -/
def removeImport (vm : ImportVm) (e : ℕ) : ImportVm :=
  let vm := vm.touch (e :: vm.impWhse)
  { vm with impWhse := vm.impWhse.erase e, importTotal := vm.importTotal - 1 }

/-- `list_add_tail` on `imp_rxq`. -/
def queueAck (vm : ImportVm) (ack : HabImportAck) : ImportVm :=
  { vm with impRxq := vm.impRxq ++ [⟨ack, 0⟩] }

/-- `hab_create_invalid_ack` and `hab_receive_import_ack_fail`. -/
def queueFail (vm : ImportVm) (vchan : ImportVchan) (exportId : UInt32) (alloc : Bool) :
    ImportVm :=
  if alloc then vm.queueAck ⟨exportId, vchan.id, vchan.otherendId, false⟩ else vm

/-! ## Receiving -/

/-- `hab_receive_export_desc` up to the end of the section of `imp_lock`: nothing
more to do, a malformed descriptor, or one that went into the warehouse or
not.  `read` says whether `physical_channel_read` delivers all of it. -/
inductive Received where
  | dropped
  | rejected (e : ℕ)
  | enqueued (e : ℕ) (added : Bool)

/-- The descriptor as the importer keeps it: the pchan is its own, and so are the
vchan ids under the new protocol. -/
def receivedDesc (vm : ImportVm) (vchan : ImportVchan) (msg : ExportMsg) : ImportDesc :=
  let newProto := vm.memProto vchan.pchan
  { exportId := msg.exportId
    pchan := vchan.pchan
    vcidLocal := if newProto then vchan.id else msg.vcidLocal
    vcidRemote := if newProto then msg.vcidLocal else msg.vcidRemote
    payloadCount := msg.payloadCount
    importState := .init }

/-- `allocDesc` and `allocAck` say whether the two allocations succeed; the
legacy protocol makes only the first. -/
def habReceiveExportDesc (vm : ImportVm) (vchan : ImportVchan) (msg : ExportMsg)
    (read allocDesc allocAck : Bool) : Received × ImportVm :=
  if msg.badSize || !allocDesc then (.dropped, vm)
  else
    let e := vm.nextDesc
    let vm := vm.alloc (vm.receivedDesc vchan msg)
    if !read then (.dropped, vm.kfree e)
    else if msg.malformed || vm.memProto vchan.pchan && !allocAck then (.rejected e, vm)
    else
      let added := vm.habExportEnqueue e
      (.enqueued e added.1, added.2)

/-- The ack for the importer that waits for this descriptor. -/
def importAck (vm : ImportVm) (e : ℕ) (added : Bool) : HabImportAck :=
  ⟨(vm.desc e).exportId, (vm.desc e).vcidLocal, (vm.desc e).vcidRemote, added⟩

/-! ## Waiting for the answer -/

/-- The walk of `hab_import_ack_find` over `imp_rxq`: the ack it takes, and what is
left.  Every entry that is passed gets older. -/
def ackScan (expect : HabImportAck) :
    List HabImportAckRecvd → Option HabImportAck × List HabImportAckRecvd
  | [] => (none, [])
  | a :: rest =>
      if a.ack.answers expect then (some a.ack, rest)
      else
        let next := ackScan expect rest
        (next.1,
          if a.age + 1 > qAgeThreshold then next.2 else { a with age := a.age + 1 } :: next.2)

/-- `hab_import_ack_find`: the return value, `*scan_imp_whse` and the context. -/
def habImportAckFind (vm : ImportVm) (expect : HabImportAck) (vchan : ImportVchan) :
    (Bool × Bool) × ImportVm :=
  let found := ackScan expect vm.impRxq
  let vm := { vm with impRxq := found.2 }
  match found.1 with
  | some ack => ((true, ack.impWhseAdded), vm)
  | none => ((vm.otherendClosed vchan.addr, false), vm)

/-! ## Vchans -/

/-- `hab_get_vchan_fromvcid` for the vchan at `v`. -/
def getVchan (vm : ImportVm) (v : ℕ) (ignoreRemote : Bool) : Option ImportVchan :=
  vm.vchans.find? fun vchan ↦ vchan.addr = v ∧ vm.closed v = false ∧
    (ignoreRemote = true ∨ vm.otherendClosed v = false)

/-- A context without vchans and imports. -/
def start (memProto : HabPchan → Bool) : ImportVm :=
  { memProto := memProto
    desc := fun _ ↦ ⟨0, ⟨0, 0⟩, 0, 0, 0, .init⟩
    nextDesc := 0
    freed := fun _ ↦ 0
    useAfterFree := false
    impWhse := []
    importTotal := 0
    impRxq := []
    vchans := []
    otherendClosed := fun _ ↦ false
    closed := fun _ ↦ false }

end ImportVm

end Hab
