import Hab.Frame
import Hab.Library.Locks

/-!
# The spinlocks of message handling

`hab_msg_recv` and `hab_ctx_free` are the shared core; both send messages of their own,
through the `physical_channel_send` of the transport that the driver is built for.  Here
is what each of them does with spinlocks on the way, and where it may sleep: when it
allocates with `GFP_KERNEL`, takes a mutex, waits, or copies from memory that may be
paged out.  What a path finds (allocations, lookups, last references) is part of its
input.  Vchans, pchans, contexts and devices are named by addresses.
-/

namespace Hab

namespace Locking

open Locks

/-- The spinlocks, `rwlock_t` included, with the object each is a field of. -/
inductive SpinLock where
  | vidLock (pchan : ℕ) | expidLock (pchan : ℕ) | vchansLock (pchan : ℕ) | ioLock (pchan : ℕ)
  | vqRxLock (vpc : ℕ) | vqTxLock (vpc : ℕ)
  | rxLock (vchan : ℕ)
  | ctxLock (ctx : ℕ) | expLock (ctx : ℕ) | expqLock (ctx : ℕ) | impLock (ctx : ℕ)
  | impqLock (ctx : ℕ) | forbiddenLock (ctx : ℕ)
  | openlock (dev : ℕ) | pchanLock (dev : ℕ)
  | drvlock | reclaimLock
deriving DecidableEq

/-- Which file `physical_channel_send` is built from. -/
inductive Transport where
  | vhost | virtio | loopback
deriving DecidableEq

def inBufSize : ℕ := 5120

def outLargeBufSize : ℕ := 51200

/-- What a call of `physical_channel_send` finds. -/
structure SendEnv where
  /-- `pchan->hyp_data`, on the host. -/
  hypData : Bool
  /-- `pchan->otherend_closed == 1`, on the host. -/
  otherendClosed : Bool
  /-- `link->vpc`, in the guest. -/
  vpc : Option ℕ
  /-- `vpc->pchan_ready`, in the guest. -/
  pchanReady : Bool
  /-- How often `get_vh_buf_header` finds no buffer. -/
  noBuffer : ℕ
  /-- `kmalloc`. -/
  alloc : Bool

/-- `get_vh_buf_header` waits for a buffer without the lock. -/
def getVhBufHeader (q : ℕ) (env : SendEnv) : List (Op SpinLock) :=
  (List.range env.noBuffer).flatMap fun _ ↦ unlocked (.vqTxLock q) [.sleep]

def physicalChannelSend (t : Transport) (pchan sizebytes : ℕ) (env : SendEnv) :
    List (Op SpinLock) :=
  match t with
  | .vhost =>
      if !env.hypData || env.otherendClosed || inBufSize - headerSize < sizebytes then []
      -- `kmalloc(GFP_KERNEL)`, then `mutex_lock(&vh_pchan->send_list_mutex)`
      else .sleep :: if env.alloc then [.sleep] else []
  | .virtio =>
      match env.vpc with
      | none => []
      | some q =>
          if outLargeBufSize < sizebytes then []
          else locked (.vqTxLock q) (if env.pchanReady then getVhBufHeader q env else [])
  | .loopback =>
      -- `kmalloc(GFP_KERNEL)`
      .sleep :: if env.alloc then locked (.ioLock pchan) [] else []

/-- `physical_channel_read`: the host copies from the memory of the other side. -/
def physicalChannelRead : Transport → List (Op SpinLock)
  | .vhost => [.sleep]
  | .virtio | .loopback => []

def channelReads (t : Transport) (sizes : List ℕ) : List (Op SpinLock) :=
  sizes.flatMap fun _ ↦ physicalChannelRead t

/-! ## Freeing -/

/-- An export that `hab_ctx_free` finds on `exp_whse`. -/
structure FreedExport where
  pchan : ℕ
  /-- `export->pchan->mem_proto == 1`. -/
  newProto : Bool
  remoteImported : Bool
  /-- `export->ctx`. -/
  ctx : Option ℕ
  /-- Nobody else holds a reference. -/
  lastRef : Bool
  /-- `platform_data->attach` of a dma-buf. -/
  attach : Bool

/-- `habmem_exp_release`: `dma_buf_unmap_attachment` and `dma_buf_detach` may sleep. -/
def habmemExpRelease (e : FreedExport) : List (Op SpinLock) :=
  if e.attach then [.sleep] else []

/-- `habmem_export_put`.  `vfree` defers its work where it cannot sleep. -/
def habmemExportPut (e : FreedExport) : List (Op SpinLock) :=
  if e.lastRef then habmemExpRelease e else []

def habmemRemoveExport (e : FreedExport) : List (Op SpinLock) :=
  match e.ctx with
  | none => []
  | some c => locked (.expLock c) [] ++ habmemExportPut e

/-- One round over `exp_whse`. -/
def freeExport (ctx : ℕ) (e : FreedExport) : List (Op SpinLock) :=
  if e.remoteImported && e.newProto then locked .reclaimLock []
  else unlocked (.expLock ctx) (locked (.expidLock e.pchan) [] ++ habmemRemoveExport e)

/-- An import that `hab_ctx_free` finds in `imp_whse`. -/
structure FreedImport where
  pchan : ℕ
  /-- `export->pchan->mem_proto == 1`. -/
  newProto : Bool
  send : SendEnv

/-- One round over `imp_whse`; `habmm_imp_hyp_unmap` never fails, and the UNIMPORT
message carries an export id. -/
def freeImport (t : Transport) (i : FreedImport) : List (Op SpinLock) :=
  if i.newProto then physicalChannelSend t i.pchan 4 i.send else []

structure FreedCtx where
  ctx : ℕ
  expWhse : List FreedExport
  impWhse : List FreedImport
  /-- The devices of the driver, each with its pchans. -/
  devp : List (ℕ × List ℕ)

/-- The check for vchans of the context that are left on a device. -/
def walkPchans (dev : ℕ × List ℕ) : List (Op SpinLock) :=
  locked (.pchanLock dev.1) (dev.2.flatMap fun p ↦ locked (.vchansLock p) [])

def habCtxFree (t : Transport) (f : FreedCtx) : List (Op SpinLock) :=
  locked (.forbiddenLock f.ctx) [] ++
  (locked (.expLock f.ctx) (f.expWhse.flatMap (freeExport f.ctx)) ++
  (locked (.impLock f.ctx) (f.impWhse.flatMap (freeImport t)) ++
  (locked .drvlock [] ++ (locked (.ctxLock f.ctx) [] ++ (locked (.ctxLock f.ctx) [] ++
  f.devp.flatMap walkPchans)))))

/-- The pchan a message comes in on. -/
structure RecvPchan where
  addr : ℕ
  habdev : ℕ
  /-- `pchan->mem_proto == 1`. -/
  newProto : Bool

def habPchanFree (pchan : RecvPchan) : List (Op SpinLock) :=
  locked (.pchanLock pchan.habdev) [] ++ locked (.vchansLock pchan.addr) []

/-- What the last reference to a vchan takes with it. -/
structure FreedVchan where
  ctx : Option FreedCtx
  pchan : Bool

def habVchanFree (t : Transport) (pchan : RecvPchan) (vchan : ℕ) (f : FreedVchan) :
    List (Op SpinLock) :=
  locked (.rxLock vchan) [] ++
  (locked (.vchansLock pchan.addr) [] ++
  ((match f.ctx with
    | none => []
    | some ctx => habCtxFree t ctx) ++
  (locked (.vidLock pchan.addr) [] ++
  if f.pchan then habPchanFree pchan else [])))

/-! ## Receiving -/

/-- The vchan that `hab_vchan_get` returns. -/
structure RecvVchan where
  addr : ℕ
  ctx : ℕ
  otherendClosed : Bool
  /-- `hab_vchan_put` drops the last reference. -/
  free : Option FreedVchan

def habVchanPut (t : Transport) (pchan : RecvPchan) (vchan : RecvVchan) : List (Op SpinLock) :=
  match vchan.free with
  | none => []
  | some f => habVchanFree t pchan vchan.addr f

/-- A message, and what its handling finds. -/
structure Arrival where
  header : HabHeader
  /-- `hab_vchan_get`. -/
  vchan : Option RecvVchan
  /-- `physical_channel_read` delivers what it is asked for. -/
  read : Bool
  /-- The first `GFP_ATOMIC` allocation. -/
  alloc : Bool
  /-- The second `GFP_ATOMIC` allocation. -/
  allocAck : Bool
  /-- All allocations of `hab_scatter_msg_alloc`. -/
  scatter : Bool
  /-- The body of an EXPORT or IMPORT_ACK. -/
  desc : ExportMsg
  /-- `idr_find` for the export an IMPORT asks for: `payload_count`, whether `exp_state` is
  `HAB_EXP_SUCCESS`, and `payload_size`. -/
  exported : Option (ℕ × Bool × ℕ)
  /-- `imp_data.page_cnt`. -/
  pageCnt : ℕ
  /-- The open request that an INIT_CANCEL cancels is in the queue. -/
  cancelled : Bool
  /-- What the one send of a handler finds. -/
  send : SendEnv

namespace Arrival

def type (a : Arrival) : Option HabPayloadType := HabPayloadType.ofNumber a.header.getType

def sizebytes (a : Arrival) : ℕ := a.header.payloadSize.toNat

def env (a : Arrival) : RecvEnv :=
  ⟨a.vchan.isSome, a.vchan.any RecvVchan.otherendClosed, a.alloc, a.scatter⟩

/-- The descriptor, with the size that the header gives. -/
def exportMsg (a : Arrival) : ExportMsg := { a.desc with sizebytes := a.sizebytes }

/-- Is the requested export in `expid_idr`, of this size and complete? -/
def importable (a : Arrival) : Option ℕ :=
  match a.exported with
  | none => none
  | some (count, success, payloadSize) =>
      if a.pageCnt = count ∧ success then some payloadSize else none

/-- The size of the answer to an IMPORT: `sizeof(*export) + payload_size` of
`hab_send_import_ack`, or the export id of `hab_send_import_ack_fail`. -/
def importAnswerSize (a : Arrival) : ℕ :=
  match a.importable with
  | some payloadSize => 89 + payloadSize
  | none => 4

end Arrival

/-- `hab_msg_alloc` and `hab_msg_queue`. -/
def recvMsg (t : Transport) (a : Arrival) (vchan : RecvVchan) : List (Op SpinLock) :=
  let reads := habMsgAllocReads a.env a.sizebytes
  channelReads t reads ++ if reads = [] then [] else locked (.rxLock vchan.addr) []

def habMsgDrop (t : Transport) (a : Arrival) : List (Op SpinLock) :=
  channelReads t (habMsgDropReads a.env a.sizebytes)

def habOpenRequestAdd (t : Transport) (pchan : RecvPchan) (a : Arrival) : List (Op SpinLock) :=
  if !a.alloc then []
  else physicalChannelRead t ++ if a.read then locked (.openlock pchan.habdev) [] else []

def habOpenReceiveCancel (t : Transport) (pchan : RecvPchan) (a : Arrival) :
    List (Op SpinLock) :=
  physicalChannelRead t ++
  if !a.read then []
  else locked (.openlock pchan.habdev) [] ++
    if a.cancelled || !a.alloc then [] else locked (.openlock pchan.habdev) []

def habReceiveExportDesc (t : Transport) (pchan : RecvPchan) (a : Arrival)
    (vchan : RecvVchan) : List (Op SpinLock) :=
  if a.exportMsg.badSize || !a.alloc then []
  else physicalChannelRead t ++
    if !a.read then []
    else if a.exportMsg.malformed || pchan.newProto && !a.allocAck then
      -- `err_imp`: `hab_create_invalid_ack` and `hab_send_unimport_msg`
      if pchan.newProto then
        (if a.allocAck then locked (.impqLock vchan.ctx) [] else []) ++
          physicalChannelSend t pchan.addr 4 a.send
      else []
    else locked (.impLock vchan.ctx) [] ++
      if pchan.newProto then locked (.impqLock vchan.ctx) []
      else physicalChannelSend t pchan.addr exportAckSize a.send

def habReceiveCreateExportAck (t : Transport) (a : Arrival) (vchan : RecvVchan) :
    List (Op SpinLock) :=
  if !a.alloc || exportAckSize < a.sizebytes then []
  else physicalChannelRead t ++
    if a.read && a.sizebytes = exportAckSize then locked (.expqLock vchan.ctx) [] else []

/-- `HAB_PAYLOAD_TYPE_IMPORT`: the answer is sent with `expid_lock` held. -/
def recvImport (t : Transport) (pchan : RecvPchan) (a : Arrival) : List (Op SpinLock) :=
  physicalChannelRead t ++
  if !a.read then []
  else locked (.expidLock pchan.addr)
    (physicalChannelSend t pchan.addr a.importAnswerSize a.send)

def habReceiveImportAckFail (t : Transport) (a : Arrival) (vchan : RecvVchan) :
    List (Op SpinLock) :=
  physicalChannelRead t ++ if a.alloc then locked (.impqLock vchan.ctx) [] else []

def habRecvUnimportMsg (t : Transport) (pchan : RecvPchan) : List (Op SpinLock) :=
  physicalChannelRead t ++ locked (.expidLock pchan.addr) []

/-- The `switch` of `hab_msg_recv` for the types that come with a vchan. -/
def vchanHandler (t : Transport) (pchan : RecvPchan) (a : Arrival) (vchan : RecvVchan) :
    Option HabPayloadType → List (Op SpinLock)
  | some .msg | some .scheResultReq | some .scheResultRsp => recvMsg t a vchan
  | some .export | some .importAck => habReceiveExportDesc t pchan a vchan
  | some .exportAck => habReceiveCreateExportAck t a vchan
  | some .close => []
  | some .profile => if a.sizebytes < xingVmStatSize then [] else recvMsg t a vchan
  | some .scheMsg | some .scheMsgAck => if a.sizebytes < 8 then [] else recvMsg t a vchan
  | some .import => recvImport t pchan a
  | some .importAckFail => habReceiveImportAckFail t a vchan
  | some .unimport => habRecvUnimportMsg t pchan
  | some .init | some .initAck | some .initDone | some .initCancel | none => []

/-- The `switch` of `hab_msg_recv` for the types that open a vchan. -/
def openHandler (t : Transport) (pchan : RecvPchan) (a : Arrival) :
    Option HabPayloadType → List (Op SpinLock)
  | some .init | some .initAck | some .initDone => habOpenRequestAdd t pchan a
  | some .initCancel => habOpenReceiveCancel t pchan a
  | _ => []

def habMsgRecv (t : Transport) (pchan : RecvPchan) (a : Arrival) : List (Op SpinLock) :=
  if a.type.any HabPayloadType.isOpen then
    if a.sizebytes = openSendDataSize then openHandler t pchan a a.type else habMsgDrop t a
  else locked (.vidLock pchan.addr) [] ++
    match a.vchan with
    | none =>
        if a.type = some .unimport then habRecvUnimportMsg t pchan else habMsgDrop t a
    | some vchan =>
        if vchan.otherendClosed then habVchanPut t pchan vchan ++ habMsgDrop t a
        else vchanHandler t pchan a vchan a.type ++ habVchanPut t pchan vchan

/-- The loop that takes the messages off a pchan: `tx_worker` of the host,
`virthab_recv_rxq` of the guest, `lb_kthread`. -/
def dispatch (t : Transport) (pchan : RecvPchan) (vpc : ℕ) (msgs : List Arrival) :
    List (Op SpinLock) :=
  match t with
  | .vhost =>
      -- `mutex_lock(&vq->mutex)`; the header is copied out of the frame
      .sleep :: msgs.flatMap fun a ↦ physicalChannelRead .vhost ++ habMsgRecv .vhost pchan a
  | .virtio =>
      locked (.vqRxLock vpc) (msgs.flatMap fun a ↦
        unlocked (.vqRxLock vpc) (habMsgRecv .virtio pchan a))
  | .loopback =>
      -- `wait_event_interruptible` on `lb_thread_queue_empty`
      .sleep :: (locked (.ioLock pchan.addr) [] ++
        locked (.ioLock pchan.addr) (msgs.flatMap (habMsgRecv .loopback pchan)))

/-- A path through message handling, or a context that is freed by `hab_ctx_put`. -/
inductive Path where
  | dispatch (pchan : RecvPchan) (vpc : ℕ) (msgs : List Arrival)
  | ctxFree (f : FreedCtx)

def Path.ops (t : Transport) : Path → List (Op SpinLock)
  | .dispatch pchan vpc msgs => Locking.dispatch t pchan vpc msgs
  | .ctxFree f => habCtxFree t f

end Locking

end Hab
