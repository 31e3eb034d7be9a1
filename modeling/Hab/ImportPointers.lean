import Hab.Library.Unwinding
import Hab.PagesList

/-!
# What the importer does with the exporter's pointers

The importer keeps the descriptor of an EXPORT or IMPORT_ACK as it has come, with the
pointers of the other VM in it, and puts its own values in one after another:
`pchan` when the message is handled, `kva` and `import_index` when an import
succeeds, `vchan`, `ctx` and `node` never.  The steps here are the lock sections on
one context, and each says what it does to the rest of the system.
-/

namespace Hab

/-- `struct export_desc_super` on the importing side. -/
structure RawImport where
  addr : ℕ
  exp : RawExportDesc
  importState : ExpDescState
deriving DecidableEq

/-- The fields of an importing vchan, and of its pchan, that do not change. -/
structure RawVchan where
  /-- The address of `vchan->pchan`. -/
  pchan : UInt64
  id : UInt32
  otherendId : UInt32
  vmidLocal : Int32
  vmidRemote : Int32

/-- The importing side of a context. -/
structure RawImporter where
  kernel : Bool
  /-- `pchan->mem_proto` of the pchan at an address. -/
  memProto : UInt64 → Bool
  nextAddr : ℕ
  /-- In the order of the keys, so that `hab_rb_min` is the head. -/
  impWhse : List RawImport
  importTotal : ℤ
  impRxq : List HabImportAckRecvd

/-- What a step does outside the context's own data. -/
inductive ImportAction where
  | sendImport (pchan : UInt64) (id exportId pageCnt : UInt32)
  | sendExportAck (pchan : UInt64) (exportId vcidLocal vcidRemote : UInt32)
  | sendUnimport (pchan : UInt64) (exportId : UInt32)
  /-- Read `pchan->mem_proto` through a pointer. -/
  | derefPchan (pchan : UInt64)
  /-- `pages_list_create`, with all that it reads of the descriptor. -/
  | createPages (payload : List UInt8) (payloadCount : Int32) (userflags exportId vcid : UInt32)
      (pchan : UInt64)
  | dmaBufPut (dmaBuf : UInt64)
  | kfree (addr : ℕ)
  | returns (error : Option Errno)
  /-- The outcome of `hab_import_ack_find`. -/
  | foundAck (found added : Bool)
  /-- `param->kva` for the caller of `hab_mem_unimport`. -/
  | returnsKva (kva : UInt64)
deriving DecidableEq

/-- What `hab_receive_export_desc` checks in a descriptor. -/
def RawExportDesc.checked (d : RawExportDesc) : ExportMsg where
  sizebytes := payloadOffset + d.payload.length
  exportId := d.exportId
  vcidLocal := d.vcidLocal
  vcidRemote := d.vcidRemote
  payloadCount := d.payloadCount.toInt
  nregions := (wordInt ((Bytes.word d.payload nregionsOffset 4).getD 0)).toInt

/-- It is what the message says, byte for byte. -/
theorem RawExportDesc.ofBytes_checked (d : RawExportDesc) :
    ExportMsg.ofBytes d.bytes = d.checked := by
  have hnregions : Bytes.word d.bytes (payloadOffset + nregionsOffset) 4 =
      Bytes.word d.payload nregionsOffset 4 := by
    have hle : payloadOffset ≤ d.bytes.length := by
      rw [d.length_bytes]
      exact Nat.le_add_right _ _
    rw [← Bytes.word_drop hle, d.drop_bytes]
  rw [ExportMsg.ofBytes, hnregions, d.length_bytes, d.word_bytes 0 0 rfl rfl,
    d.word_bytes 6 40 rfl rfl, d.word_bytes 7 44 rfl rfl, d.word_bytes 14 84 rfl rfl]
  simp [checked]

/-- The comparison in `hab_rb_exp_find` and `hab_rb_exp_insert`. -/
def RawExportDesc.before (d d' : RawExportDesc) : Bool :=
  d.exportId < d'.exportId || d.exportId = d'.exportId && d.pchan < d'.pchan

namespace RawImporter

def habRbExpFind (s : RawImporter) (exportId : UInt32) (pchan : UInt64) : Option RawImport :=
  s.impWhse.find? fun x ↦ x.exp.exportId = exportId ∧ x.exp.pchan = pchan

/-- `hab_rb_exp_insert`, where it links the node. -/
def habRbExpInsert (s : RawImporter) (x : RawImport) : RawImporter :=
  { s with
    impWhse := s.impWhse.takeWhile (fun y ↦ y.exp.before x.exp) ++
      x :: s.impWhse.dropWhile (fun y ↦ y.exp.before x.exp)
    importTotal := s.importTotal + 1 }

/-- `hab_rb_remove` and `import_total--`. -/
def removeImport (s : RawImporter) (addr : ℕ) : RawImporter :=
  { s with
    impWhse := s.impWhse.filter fun x ↦ x.addr ≠ addr
    importTotal := s.importTotal - 1 }

/-- The descriptor at an address that a call has in the given state. -/
def inState (s : RawImporter) (addr : ℕ) (state : ExpDescState) : Option RawImport :=
  s.impWhse.find? fun x ↦ x.addr = addr ∧ x.importState = state

/-- Write to the descriptor at an address, which is in the given state. -/
def modify (s : RawImporter) (addr : ℕ) (state : ExpDescState) (f : RawImport → RawImport) :
    RawImporter :=
  { s with
    impWhse := s.impWhse.map fun x ↦ if x.addr = addr ∧ x.importState = state then f x else x }

def setImportState (state : ExpDescState) (x : RawImport) : RawImport :=
  { x with importState := state }

def queueAck (s : RawImporter) (ack : HabImportAck) : RawImporter :=
  { s with impRxq := s.impRxq ++ [⟨ack, 0⟩] }

/-! ## Receiving -/

/-- The descriptor once `hab_receive_export_desc` has put the local values in. -/
def localDesc (s : RawImporter) (vchan : RawVchan) (msg : RawExportDesc) : RawExportDesc :=
  let newProto := s.memProto vchan.pchan
  { msg with
    domidRemote := vchan.vmidRemote
    domidLocal := vchan.vmidLocal
    pchan := vchan.pchan
    vcidRemote := if newProto then msg.vcidLocal else msg.vcidRemote
    vcidLocal := if newProto then vchan.id else msg.vcidLocal }

/-- `err_imp` of `hab_receive_export_desc`; `allocFail` says whether
`hab_create_invalid_ack` gets its memory. -/
def rejectExport (s : RawImporter) (vchan : RawVchan) (exportId : UInt32) (addr : ℕ)
    (allocFail : Bool) (error : Errno) : List ImportAction × RawImporter :=
  if s.memProto vchan.pchan then
    ([.sendUnimport vchan.pchan exportId, .kfree addr, .returns (some error)],
      if allocFail then s.queueAck ⟨exportId, vchan.id, vchan.otherendId, false⟩ else s)
  else ([.kfree addr, .returns (some error)], s)

/-- `hab_receive_export_desc` from `hab_export_enqueue` to the end. -/
def enqueueExport (s : RawImporter) (vchan : RawVchan) (exp : RawExportDesc) (addr : ℕ) :
    List ImportAction × RawImporter :=
  let added := (s.habRbExpFind exp.exportId exp.pchan).isNone
  let after := if added then s.habRbExpInsert ⟨addr, exp, .init⟩ else s
  let ended : List ImportAction :=
    if added then [.returns none] else [.kfree addr, .returns (some .einval)]
  if s.memProto vchan.pchan then
    (ended, after.queueAck ⟨exp.exportId, exp.vcidLocal, exp.vcidRemote, added⟩)
  else (.sendExportAck vchan.pchan exp.exportId exp.vcidLocal exp.vcidRemote :: ended, after)

/-- `hab_receive_export_desc`; `read` says whether the whole message arrives, and
`allocDesc`, `allocAck` and `allocFail` how the allocations go. -/
def habReceiveExportDesc (s : RawImporter) (vchan : RawVchan) (msg : RawExportDesc)
    (read allocDesc allocAck allocFail : Bool) : List ImportAction × RawImporter :=
  if msg.checked.badSize then ([.returns (some .einval)], s)
  else if !allocDesc then ([.returns (some .enomem)], s)
  else
    let addr := s.nextAddr
    let s := { s with nextAddr := s.nextAddr + 1 }
    if !read then ([.kfree addr, .returns (some .eio)], s)
    else if msg.checked.malformed then s.rejectExport vchan msg.exportId addr allocFail .einval
    else if s.memProto vchan.pchan && !allocAck then
      s.rejectExport vchan msg.exportId addr allocFail .enomem
    else s.enqueueExport vchan (s.localDesc vchan msg) addr

/-! ## Import and unimport -/

def habImportAckFind (s : RawImporter) (vchan : RawVchan) (exportId : UInt32)
    (otherendClosed : Bool) : List ImportAction × RawImporter :=
  let found := ImportVm.ackScan ⟨exportId, vchan.id, vchan.otherendId, false⟩ s.impRxq
  let s := { s with impRxq := found.2 }
  match found.1 with
  | some ack => ([.foundAck true ack.impWhseAdded], s)
  | none => ([.foundAck otherendClosed false], s)

/-- `hab_mem_import`: the section of `imp_lock` that finds the descriptor. -/
def findImport (s : RawImporter) (vchan : RawVchan) (exportId : UInt32) :
    List ImportAction × RawImporter :=
  match s.habRbExpFind exportId vchan.pchan with
  | none => ([.returns (some .enodev)], s)
  | some x =>
      if x.importState = .init then ([], s.modify x.addr .init (setImportState .importing))
      else ([.returns (some .einval)], s)

/-- `hab_mem_import` from an error after the descriptor was found to the end. -/
def failImport (s : RawImporter) (vchan : RawVchan) (x : RawImport) :
    List ImportAction × RawImporter :=
  let s := s.modify x.addr .importing (setImportState .init)
  if s.memProto vchan.pchan then
    ([.sendUnimport vchan.pchan x.exp.exportId, .kfree x.addr, .returns (some .einval)],
      s.removeImport x.addr)
  else ([.returns (some .einval)], s)

/-- What a successful import writes. -/
def importDone (kernel : Bool) (index kva : UInt64) (x : RawImport) : RawImport :=
  { x with
    exp := { x.exp with importIndex := index, kva := if kernel then kva else 0 }
    importState := .imported }

/-- `hab_mem_import` after it has found the descriptor at `addr`; `mapped` is the
`param->kva` that `habmem_imp_hyp_map` yields. -/
def mapImport (s : RawImporter) (vchan : RawVchan) (addr : ℕ) (sizebytes userflags : UInt32)
    (index : UInt64) (mapped : Option UInt64) : List ImportAction × RawImporter :=
  match s.inState addr .importing with
  | none => ([], s)
  | some x =>
      if x.exp.payloadCount.toUInt32 <<< 12 ≠ sizebytes then s.failImport vchan x
      else
        let create := ImportAction.createPages x.exp.payload x.exp.payloadCount userflags
          x.exp.exportId x.exp.vcidRemote x.exp.pchan
        match mapped with
        | none =>
            let failed := s.failImport vchan x
            (create :: failed.1, failed.2)
        | some kva =>
            ([create, .returns none], s.modify addr .importing (importDone s.kernel index kva))

/-- `hab_mem_unimport`: the section of `imp_lock` that finds the descriptor. -/
def findUnimport (s : RawImporter) (vchan : RawVchan) (exportId : UInt32) :
    List ImportAction × RawImporter :=
  match s.habRbExpFind exportId vchan.pchan with
  | none => ([.returns (some .einval)], s)
  | some x =>
      if x.importState = .imported then
        ([], s.modify x.addr .imported (setImportState .unimporting))
      else ([.returns (some .einval)], s)

/-- `habmm_imp_hyp_unmap`, which always returns 0. -/
def habmmImpHypUnmap (kernel : Bool) (x : RawImport) : List ImportAction :=
  if kernel then [.dmaBufPut x.exp.kva] else []

/-- `hab_mem_unimport` after it has found the descriptor at `addr`. -/
def unmapImport (s : RawImporter) (vchan : RawVchan) (addr : ℕ) : List ImportAction × RawImporter :=
  match s.inState addr .unimporting with
  | none => ([], s)
  | some x =>
      (habmmImpHypUnmap s.kernel x ++ [.returnsKva x.exp.kva] ++
        (if s.memProto vchan.pchan then [.sendUnimport vchan.pchan x.exp.exportId] else []) ++
          [.kfree addr, .returns none], s.removeImport addr)

/-! ## The end of the context -/

/-- One round of the loop of `hab_ctx_free` over `imp_whse`. -/
def freeImport (s : RawImporter) (x : RawImport) : List ImportAction :=
  habmmImpHypUnmap s.kernel x ++ [.derefPchan x.exp.pchan] ++
    (if s.memProto x.exp.pchan then [.sendUnimport x.exp.pchan x.exp.exportId] else []) ++
      [.kfree x.addr]

def habCtxFree (s : RawImporter) : List ImportAction × RawImporter :=
  (s.impWhse.flatMap s.freeImport,
    { s with impWhse := [], importTotal := s.importTotal - s.impWhse.length })

/-- A context without imports. -/
def start (kernel : Bool) (memProto : UInt64 → Bool) : RawImporter :=
  ⟨kernel, memProto, 0, [], 0, []⟩

end RawImporter

/-- What may happen next on the context, in any order. -/
inductive RawImportAct where
  | recvExport (vchan : RawVchan) (msg : RawExportDesc) (read allocDesc allocAck allocFail : Bool)
  | recvImportAckFail (vchan : RawVchan) (exportId : UInt32)
  /-- `hab_mem_import` asks for the descriptor. -/
  | askImport (vchan : RawVchan) (exportId pageCnt : UInt32)
  | ackFind (vchan : RawVchan) (exportId : UInt32) (otherendClosed : Bool)
  | findImport (vchan : RawVchan) (exportId : UInt32)
  | mapImport (vchan : RawVchan) (addr : ℕ) (sizebytes userflags : UInt32) (index : UInt64)
      (mapped : Option UInt64)
  | findUnimport (vchan : RawVchan) (exportId : UInt32)
  | unmapImport (vchan : RawVchan) (addr : ℕ)
  | ctxFree

namespace RawImporter

def call (s : RawImporter) : RawImportAct → List ImportAction × RawImporter
  | .recvExport vchan msg read allocDesc allocAck allocFail =>
      s.habReceiveExportDesc vchan msg read allocDesc allocAck allocFail
  | .recvImportAckFail vchan exportId =>
      ([], s.queueAck ⟨exportId, vchan.id, vchan.otherendId, false⟩)
  | .askImport vchan exportId pageCnt =>
      ([.sendImport vchan.pchan vchan.otherendId exportId pageCnt], s)
  | .ackFind vchan exportId otherendClosed => s.habImportAckFind vchan exportId otherendClosed
  | .findImport vchan exportId => s.findImport vchan exportId
  | .mapImport vchan addr sizebytes userflags index mapped =>
      s.mapImport vchan addr sizebytes userflags index mapped
  | .findUnimport vchan exportId => s.findUnimport vchan exportId
  | .unmapImport vchan addr => s.unmapImport vchan addr
  | .ctxFree => s.habCtxFree

end RawImporter

/-! ## Disguises -/

/-- No import of the descriptor has succeeded so far. -/
def RawImport.fresh (x : RawImport) : Bool := x.importState = .init || x.importState = .importing

/-- A change of the fields that are local to the exporter. -/
structure Disguise where
  vchan : UInt64 → UInt64
  ctx : UInt64 → UInt64
  pchan : UInt64 → UInt64
  nodeNext : UInt64 → UInt64
  nodePrev : UInt64 → UInt64
  kva : UInt64 → UInt64
  importIndex : UInt64 → UInt64

namespace Disguise

variable (D : Disguise)

/-- A descriptor on the wire. -/
def desc (d : RawExportDesc) : RawExportDesc :=
  { d with
    vchan := D.vchan d.vchan
    ctx := D.ctx d.ctx
    pchan := D.pchan d.pchan
    nodeNext := D.nodeNext d.nodeNext
    nodePrev := D.nodePrev d.nodePrev
    kva := D.kva d.kva
    importIndex := D.importIndex d.importIndex }

/-- A descriptor that has been received, where some of the fields are local by now. -/
def received (x : RawImport) : RawImport :=
  { x with
    exp := { x.exp with
      vchan := D.vchan x.exp.vchan
      ctx := D.ctx x.exp.ctx
      nodeNext := D.nodeNext x.exp.nodeNext
      nodePrev := D.nodePrev x.exp.nodePrev
      kva := if x.fresh then D.kva x.exp.kva else x.exp.kva
      importIndex := if x.fresh then D.importIndex x.exp.importIndex else x.exp.importIndex } }

def importer (s : RawImporter) : RawImporter := { s with impWhse := s.impWhse.map D.received }

def act : RawImportAct → RawImportAct
  | .recvExport vchan msg read allocDesc allocAck allocFail =>
      .recvExport vchan (D.desc msg) read allocDesc allocAck allocFail
  | a => a

/-- Nothing is left of the exporter's own fields. -/
def blank : Disguise :=
  ⟨fun _ ↦ 0, fun _ ↦ 0, fun _ ↦ 0, fun _ ↦ 0, fun _ ↦ 0, fun _ ↦ 0, fun _ ↦ 0⟩

/-- The exporter has its mapping elsewhere. -/
def bump : Disguise := ⟨id, id, id, id, id, fun kva ↦ kva + 1, id⟩

end Disguise

/-- Two steps that differ, if at all, in the fields of a received descriptor that are
local to the exporter. -/
def RawImportAct.Same (a b : RawImportAct) : Prop := Disguise.blank.act a = Disguise.blank.act b

/-- The condition on a step: a kernel context does not end with a descriptor that has not
been given a local `kva` by an import. -/
def RawImporter.Careful (s : RawImporter) : RawImportAct → Prop
  | .ctxFree => s.kernel = false ∨ ∀ x ∈ s.impWhse, x.fresh = false
  | _ => True

/-! ## Steps do not see through a disguise -/

namespace RawImporter

open Disguise

variable {D : Disguise} {s : RawImporter}

theorem habRbExpFind_importer (exportId : UInt32) (pchan : UInt64) :
    (D.importer s).habRbExpFind exportId pchan =
      (s.habRbExpFind exportId pchan).map D.received := by
  rw [habRbExpFind, Disguise.importer, List.find?_map]
  rfl

theorem inState_importer (addr : ℕ) (state : ExpDescState) :
    (D.importer s).inState addr state = (s.inState addr state).map D.received := by
  rw [inState, Disguise.importer, List.find?_map]
  rfl

theorem habRbExpInsert_importer (x : RawImport) :
    (D.importer s).habRbExpInsert (D.received x) = D.importer (s.habRbExpInsert x) := by
  simp only [habRbExpInsert, Disguise.importer, List.takeWhile_map, List.dropWhile_map,
    List.map_append, List.map_cons]
  rfl

theorem modify_importer {addr : ℕ} {state : ExpDescState} {f : RawImport → RawImport}
    (hf : ∀ x, x.importState = state → D.received (f x) = f (D.received x)) :
    (D.importer s).modify addr state f = D.importer (s.modify addr state f) := by
  simp only [modify, Disguise.importer, List.map_map]
  congr 1
  refine List.map_congr_left fun x _ ↦ ?_
  simp only [Function.comp_apply]
  by_cases hx : x.addr = addr ∧ x.importState = state
  · rw [if_pos hx, if_pos (show (D.received x).addr = addr ∧ (D.received x).importState = state
      from hx), hf x hx.2]
  · rw [if_neg hx, if_neg (show ¬ ((D.received x).addr = addr ∧
      (D.received x).importState = state) from hx)]

theorem removeImport_importer (addr : ℕ) :
    (D.importer s).removeImport addr = D.importer (s.removeImport addr) := by
  simp only [removeImport, Disguise.importer, List.filter_map]
  rfl

/-- A change of state that does not say that an import has succeeded. -/
theorem received_setImportState {x : RawImport} {state : ExpDescState}
    (h : (setImportState state x).fresh = x.fresh) :
    D.received (setImportState state x) = setImportState state (D.received x) := by
  simp only [Disguise.received, h]
  rfl

/-- Success overwrites what was the exporter's. -/
theorem received_importDone (kernel : Bool) (index kva : UInt64) (x : RawImport) :
    D.received (importDone kernel index kva x) = importDone kernel index kva (D.received x) := rfl

theorem rejectExport_importer (vchan : RawVchan) (exportId : UInt32) (addr : ℕ)
    (allocFail : Bool) (error : Errno) :
    (D.importer s).rejectExport vchan exportId addr allocFail error =
      ((s.rejectExport vchan exportId addr allocFail error).1,
        D.importer (s.rejectExport vchan exportId addr allocFail error).2) := by
  simp only [rejectExport, show (D.importer s).memProto = s.memProto from rfl]
  split
  · cases allocFail <;> rfl
  · rfl

theorem failImport_importer {vchan : RawVchan} {x : RawImport} :
    (D.importer s).failImport vchan (D.received x) =
      ((s.failImport vchan x).1, D.importer (s.failImport vchan x).2) := by
  have hmodify : (D.importer s).modify x.addr .importing (setImportState .init) =
      D.importer (s.modify x.addr .importing (setImportState .init)) := by
    refine modify_importer fun y hy ↦ received_setImportState ?_
    simp [RawImport.fresh, setImportState, hy]
  simp only [failImport, show (D.received x).addr = x.addr from rfl, hmodify]
  by_cases hproto : s.memProto vchan.pchan = true
  · rw [if_pos (show (D.importer (s.modify x.addr .importing (setImportState .init))).memProto
      vchan.pchan = true from hproto), if_pos (show (s.modify x.addr .importing
        (setImportState .init)).memProto vchan.pchan = true from hproto), removeImport_importer]
    rfl
  · rw [if_neg (show ¬ (D.importer (s.modify x.addr .importing (setImportState .init))).memProto
      vchan.pchan = true from hproto), if_neg (show ¬ (s.modify x.addr .importing
        (setImportState .init)).memProto vchan.pchan = true from hproto)]

/-- Whatever the exporter has put into its own fields, the descriptor goes into the
warehouse or not. -/
theorem enqueueExport_importer (vchan : RawVchan) (msg : RawExportDesc) (addr : ℕ) :
    (D.importer s).enqueueExport vchan ((D.importer s).localDesc vchan (D.desc msg)) addr =
      ((s.enqueueExport vchan (s.localDesc vchan msg) addr).1,
        D.importer (s.enqueueExport vchan (s.localDesc vchan msg) addr).2) := by
  have hlocal : (⟨addr, (D.importer s).localDesc vchan (D.desc msg), .init⟩ : RawImport) =
      D.received ⟨addr, s.localDesc vchan msg, .init⟩ := rfl
  have hfind : ((D.importer s).habRbExpFind msg.exportId vchan.pchan).isNone =
      (s.habRbExpFind msg.exportId vchan.pchan).isNone := by
    rw [habRbExpFind_importer, Option.isNone_map]
  simp only [enqueueExport, hlocal, habRbExpInsert_importer,
    show (D.importer s).memProto = s.memProto from rfl,
    show ((D.importer s).habRbExpFind ((D.importer s).localDesc vchan (D.desc msg)).exportId
      ((D.importer s).localDesc vchan (D.desc msg)).pchan).isNone =
        (s.habRbExpFind (s.localDesc vchan msg).exportId (s.localDesc vchan msg).pchan).isNone
      from hfind]
  cases (s.habRbExpFind (s.localDesc vchan msg).exportId (s.localDesc vchan msg).pchan).isNone <;>
    cases s.memProto vchan.pchan <;> rfl

theorem habReceiveExportDesc_importer (vchan : RawVchan) (msg : RawExportDesc)
    (read allocDesc allocAck allocFail : Bool) :
    (D.importer s).habReceiveExportDesc vchan (D.desc msg) read allocDesc allocAck allocFail =
      ((s.habReceiveExportDesc vchan msg read allocDesc allocAck allocFail).1,
        D.importer (s.habReceiveExportDesc vchan msg read allocDesc allocAck allocFail).2) := by
  have hchecked : (D.desc msg).checked = msg.checked := rfl
  have hproto : (D.importer s).memProto = s.memProto := rfl
  have hnext : (D.importer s).nextAddr = s.nextAddr := rfl
  have hid : (D.desc msg).exportId = msg.exportId := rfl
  have halloc : ({ D.importer s with memProto := s.memProto, nextAddr := s.nextAddr + 1 } :
      RawImporter) = D.importer { s with nextAddr := s.nextAddr + 1 } := rfl
  simp only [habReceiveExportDesc, hchecked, hproto, hnext, hid, halloc]
  cases msg.checked.badSize with
  | true => rfl
  | false =>
      cases allocDesc with
      | false => rfl
      | true =>
          cases read with
          | false => rfl
          | true =>
              cases msg.checked.malformed with
              | true => exact rejectExport_importer _ _ _ _ _
              | false =>
                  cases s.memProto vchan.pchan && !allocAck with
                  | true => exact rejectExport_importer _ _ _ _ _
                  | false => exact enqueueExport_importer _ _ _

theorem findImport_importer (vchan : RawVchan) (exportId : UInt32) :
    (D.importer s).findImport vchan exportId =
      ((s.findImport vchan exportId).1, D.importer (s.findImport vchan exportId).2) := by
  simp only [findImport, habRbExpFind_importer]
  cases s.habRbExpFind exportId vchan.pchan with
  | none => rfl
  | some x =>
      simp only [Option.map_some, show (D.received x).importState = x.importState from rfl]
      split
      · rw [show (D.received x).addr = x.addr from rfl, modify_importer]
        intro y hy
        refine received_setImportState ?_
        simp [RawImport.fresh, setImportState, hy]
      · rfl

theorem findUnimport_importer (vchan : RawVchan) (exportId : UInt32) :
    (D.importer s).findUnimport vchan exportId =
      ((s.findUnimport vchan exportId).1, D.importer (s.findUnimport vchan exportId).2) := by
  simp only [findUnimport, habRbExpFind_importer]
  cases s.habRbExpFind exportId vchan.pchan with
  | none => rfl
  | some x =>
      simp only [Option.map_some, show (D.received x).importState = x.importState from rfl]
      split
      · rw [show (D.received x).addr = x.addr from rfl, modify_importer]
        intro y hy
        refine received_setImportState ?_
        simp [RawImport.fresh, setImportState, hy]
      · rfl

theorem mapImport_importer (vchan : RawVchan) (addr : ℕ) (sizebytes userflags : UInt32)
    (index : UInt64) (mapped : Option UInt64) :
    (D.importer s).mapImport vchan addr sizebytes userflags index mapped =
      ((s.mapImport vchan addr sizebytes userflags index mapped).1,
        D.importer (s.mapImport vchan addr sizebytes userflags index mapped).2) := by
  simp only [mapImport, inState_importer]
  cases s.inState addr .importing with
  | none => rfl
  | some x =>
      simp only [Option.map_some, failImport_importer,
        show (D.received x).exp.payloadCount = x.exp.payloadCount from rfl]
      split
      · rfl
      · cases mapped with
        | none => rfl
        | some kva =>
            simp only [show (D.importer s).kernel = s.kernel from rfl]
            rw [modify_importer fun y _ ↦ received_importDone s.kernel index kva y]
            rfl

theorem fresh_of_inState {addr : ℕ} {x : RawImport} (h : s.inState addr .unimporting = some x) :
    x.fresh = false := by
  have hx := List.find?_some h
  simp only [decide_eq_true_eq] at hx
  simp [RawImport.fresh, hx.2]

/-- Once a descriptor is not fresh, what is released of it is local. -/
theorem habmmImpHypUnmap_received {x : RawImport} (hfresh : x.fresh = false) (kernel : Bool) :
    habmmImpHypUnmap kernel (D.received x) = habmmImpHypUnmap kernel x := by
  simp [habmmImpHypUnmap, Disguise.received, hfresh]

theorem unmapImport_importer (vchan : RawVchan) (addr : ℕ) :
    (D.importer s).unmapImport vchan addr =
      ((s.unmapImport vchan addr).1, D.importer (s.unmapImport vchan addr).2) := by
  simp only [unmapImport, inState_importer]
  cases hfind : s.inState addr .unimporting with
  | none => rfl
  | some x =>
      have hfresh := fresh_of_inState hfind
      have hkva : (D.received x).exp.kva = x.exp.kva := by simp [Disguise.received, hfresh]
      simp only [Option.map_some, removeImport_importer, habmmImpHypUnmap_received hfresh, hkva]
      rfl

theorem freeImport_received {x : RawImport} (h : s.kernel = false ∨ x.fresh = false) :
    (D.importer s).freeImport (D.received x) = s.freeImport x := by
  have hunmap : habmmImpHypUnmap s.kernel (D.received x) = habmmImpHypUnmap s.kernel x := by
    rcases h with hkernel | hfresh
    · rw [hkernel]
      rfl
    · exact habmmImpHypUnmap_received hfresh s.kernel
  simp only [freeImport, show (D.importer s).kernel = s.kernel from rfl, hunmap]
  rfl

theorem habCtxFree_importer (h : s.Careful .ctxFree) :
    (D.importer s).habCtxFree = (s.habCtxFree.1, D.importer s.habCtxFree.2) := by
  have heach : ∀ x ∈ s.impWhse, (D.importer s).freeImport (D.received x) = s.freeImport x := by
    intro x hx
    rcases h with hkernel | hfresh
    · exact freeImport_received (Or.inl hkernel)
    · exact freeImport_received (Or.inr (hfresh x hx))
  have hactions : (s.impWhse.map D.received).flatMap (D.importer s).freeImport =
      s.impWhse.flatMap s.freeImport := by
    rw [List.flatMap_map]
    exact List.flatMap_congr heach
  simp only [habCtxFree, show (D.importer s).impWhse = s.impWhse.map D.received from rfl, hactions,
    List.length_map]
  rfl

/-- A careful step does the same under any disguise. -/
theorem call_importer (D : Disguise) (s : RawImporter) (a : RawImportAct) (h : s.Careful a) :
    (D.importer s).call (D.act a) = ((s.call a).1, D.importer (s.call a).2) := by
  cases a with
  | recvExport vchan msg read allocDesc allocAck allocFail =>
      exact habReceiveExportDesc_importer vchan msg read allocDesc allocAck allocFail
  | recvImportAckFail vchan exportId => rfl
  | askImport vchan exportId pageCnt => rfl
  | ackFind vchan exportId otherendClosed =>
      simp only [call, Disguise.act, habImportAckFind,
        show (D.importer s).impRxq = s.impRxq from rfl]
      cases (ImportVm.ackScan ⟨exportId, vchan.id, vchan.otherendId, false⟩ s.impRxq).1 <;> rfl
  | findImport vchan exportId => exact findImport_importer vchan exportId
  | mapImport vchan addr sizebytes userflags index mapped =>
      exact mapImport_importer vchan addr sizebytes userflags index mapped
  | findUnimport vchan exportId => exact findUnimport_importer vchan exportId
  | unmapImport vchan addr => exact unmapImport_importer vchan addr
  | ctxFree => exact habCtxFree_importer h

theorem careful_importer {a : RawImportAct} :
    (D.importer s).Careful (D.act a) ↔ s.Careful a := by
  cases a with
  | ctxFree =>
      simp only [Careful, Disguise.act, Disguise.importer, List.forall_mem_map]
      rfl
  | _ => exact Iff.rfl

/-! ## Two runs -/

theorem call_eq_of_same {t : RawImporter} {a b : RawImportAct}
    (hview : blank.importer s = blank.importer t) (hact : a.Same b) (h : s.Careful a) :
    (s.call a).1 = (t.call b).1 ∧
      blank.importer (s.call a).2 = blank.importer (t.call b).2 := by
  have ht : t.Careful b := by
    rw [← careful_importer (D := blank), ← hview, ← show blank.act a = blank.act b from hact]
    exact careful_importer.mpr h
  have hs := call_importer blank s a h
  have ht := call_importer blank t b ht
  rw [hview, show blank.act a = blank.act b from hact, ht] at hs
  exact ⟨(congrArg Prod.fst hs).symm, (congrArg Prod.snd hs).symm⟩

/-- What the end of a kernel context releases. -/
theorem dmaBufPut_habCtxFree (hkernel : s.kernel = true) :
    s.habCtxFree.1.filterMap (fun a ↦ match a with | .dmaBufPut b => some b | _ => none) =
      s.impWhse.map fun x ↦ x.exp.kva := by
  have heach : ∀ x : RawImport, (s.freeImport x).filterMap
      (fun a ↦ match a with | .dmaBufPut b => some b | _ => none) = [x.exp.kva] := by
    intro x
    simp only [freeImport, habmmImpHypUnmap, hkernel, if_true]
    cases s.memProto x.exp.pchan <;> rfl
  rw [habCtxFree, List.filterMap_flatMap]
  induction s.impWhse with
  | nil => rfl
  | cons x rest ih =>
      rw [List.flatMap_cons, heach, ih]
      rfl

/-- The end of a kernel context shows a descriptor that has not been imported. -/
theorem call_ne_of_not_careful {a : RawImportAct} (h : ¬ s.Careful a) :
    (s.call a).1 ≠ ((bump.importer s).call (bump.act a)).1 := by
  cases a with
  | ctxFree =>
      intro heq
      obtain ⟨hkernel, hfresh⟩ := not_or.mp h
      obtain ⟨x, hx⟩ := not_forall.mp hfresh
      obtain ⟨hmem, hfresh⟩ := Classical.not_imp.mp hx
      have hkernel : s.kernel = true := by simpa using hkernel
      have hput := dmaBufPut_habCtxFree hkernel
      have hput' := dmaBufPut_habCtxFree (s := bump.importer s) hkernel
      rw [show (bump.importer s).habCtxFree.1 = s.habCtxFree.1 from heq.symm, hput] at hput'
      rw [show (bump.importer s).impWhse = s.impWhse.map bump.received from rfl,
        List.map_map] at hput'
      have hkva := List.map_inj_left.mp hput' x hmem
      simp [Disguise.received, Disguise.bump, hfresh] at hkva
  | _ => exact absurd trivial h

/-- What an importing context does is the same for all values of the fields that are local
to the exporter exactly if each of its steps is careful. -/
theorem answers_same_iff (kernel : Bool) (memProto : UInt64 → Bool) (acts : List RawImportAct) :
    (∀ acts', List.Forall₂ RawImportAct.Same acts acts' →
      (Runs.answers call (start kernel memProto) acts).1 =
        (Runs.answers call (start kernel memProto) acts').1) ↔
      Runs.Meets (Runs.next call) Careful (start kernel memProto) acts := by
  refine Runs.answers_indistinct_iff (fun s t ↦ blank.importer s = blank.importer t)
    (fun s t ↦ t = bump.importer s) bump.act ?_ ?_ ?_ ?_ (s := start kernel memProto) rfl rfl acts
  · intro s t a b hview hact h
    exact call_eq_of_same hview hact h
  · intro a
    cases a <;> rfl
  · intro s t a ht h
    rw [ht, call_importer bump s a h]
  · intro s t a ht h
    rw [ht]
    exact call_ne_of_not_careful h

/-- A vchan on a pchan of the legacy protocol. -/
def legacyVchan : RawVchan := ⟨1, 1, 1, 0, 0⟩

/-- A descriptor of one page whose exporter has it mapped at `kva`. -/
def onePageAt (kva : UInt64) : RawExportDesc :=
  { exportId := 1, readonly := 0, importIndex := 0, vchan := 0, ctx := 0, pchan := 0
    vcidLocal := 1, vcidRemote := 1, domidLocal := 0, domidRemote := 0, flags := 0
    nodeNext := 0, nodePrev := 0, kva := kva, payloadCount := 1
    payload := Bytes.layout [(8, 0), (4, 1), (4, 1), (4, 0)] ++ List.replicate 5 0 }

theorem answers_same_iff_user :
    ∀ acts', List.Forall₂ RawImportAct.Same
        [.recvExport legacyVchan (onePageAt 0) true true true true, .ctxFree] acts' →
      (Runs.answers call (start false fun _ ↦ false)
          [.recvExport legacyVchan (onePageAt 0) true true true true, .ctxFree]).1 =
        (Runs.answers call (start false fun _ ↦ false) acts').1 :=
  (answers_same_iff false _ _).mpr ⟨trivial, Or.inl rfl, trivial⟩

/-- The end of a kernel context puts the `dma_buf` that the exporter names. -/
theorem not_forall_answers_same :
    ¬ ∀ (kernel : Bool) (memProto : UInt64 → Bool) (acts acts' : List RawImportAct),
      List.Forall₂ RawImportAct.Same acts acts' →
        (Runs.answers call (start kernel memProto) acts).1 =
          (Runs.answers call (start kernel memProto) acts').1 := by
  intro h
  have hsame := h true (fun _ ↦ false)
    [.recvExport legacyVchan (onePageAt 0) true true true true, .ctxFree]
    [.recvExport legacyVchan (onePageAt 1) true true true true, .ctxFree]
    (.cons rfl (.cons rfl .nil))
  exact absurd hsame (by decide)

end RawImporter

end Hab
