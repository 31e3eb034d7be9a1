import Mathlib.Data.Int.Notation
import Mathlib.Logic.Function.Basic
import Hab.Library.Scan

/-!
# The open queue (`hab_open.c`)

All opens on a device share one queue per VM, `openq_list`.  The receive path
appends the requests of the other VMs to it, and the waits of `frontend_open`
and `backend_listen` take from it what they are waiting for.  The `int` fields
of a request are kept as their 32 bits.  `π` is the type of the pchans.
-/

namespace Hab

inductive HabPayloadType where
  | msg | init | initAck | initDone | «export» | exportAck | profile | close | initCancel
  | scheMsg | scheMsgAck | scheResultReq | scheResultRsp | «import» | importAck
  | importAckFail | unimport
deriving DecidableEq, Repr

/-- The error numbers the driver returns, without their sign. -/
inductive Errno where
  | eio | enomem | eagain | eintr | enxio | einval | eproto | enodev | etimedout | ebusy
  | eoverflow
deriving DecidableEq, Repr

structure HabOpenSendData where
  vchanId : UInt32
  subId : UInt32
  openId : UInt32
  verFe : UInt32
  verBe : UInt32
  verProto : UInt32
deriving DecidableEq

/-- `struct hab_open_request`.  A request in the queue names the pchan it came
in on; one that is waited for may leave the pchan open. -/
structure HabOpenRequest (π : Type*) where
  type : HabPayloadType
  pchan : π
  xdata : HabOpenSendData
deriving DecidableEq

structure HabOpenNode (π : Type*) where
  request : HabOpenRequest π
  age : ℤ
deriving DecidableEq

def habVerProt : UInt32 := 1

def habOpenReqExpireTimeS : ℤ := 3600 * 10

/-- `hab_open_request_init`; the two version fields keep what they held. -/
def habOpenRequestInit {π : Type*} (request : HabOpenRequest π) (type : HabPayloadType)
    (pchan : π) (vchanId subId openId : UInt32) : HabOpenRequest π :=
  { type := type
    pchan := pchan
    xdata :=
      { request.xdata with
        vchanId := vchanId
        subId := subId
        openId := openId
        verProto := habVerProt } }

/-- The part of `struct hab_device` that the opens use, with the reference
counts of its pchans. -/
structure HabDevice (π : Type*) where
  openqList : List (HabOpenNode π)
  openqCnt : ℤ
  refcount : π → ℤ

variable {π : Type*}

namespace HabDevice

/-- `list_add_tail` on `openq_list`. -/
def enqueue (dev : HabDevice π) (node : HabOpenNode π) : HabDevice π :=
  { dev with openqList := dev.openqList ++ [node], openqCnt := dev.openqCnt + 1 }

@[simp] theorem openqList_enqueue (dev : HabDevice π) (node : HabOpenNode π) :
    (dev.enqueue node).openqList = dev.openqList ++ [node] := rfl

variable [DecidableEq π]

/-- `hab_pchan_get`. -/
def pchanGet (dev : HabDevice π) (pchan : π) : HabDevice π :=
  { dev with refcount := Function.update dev.refcount pchan (dev.refcount pchan + 1) }

/-- `hab_pchan_put`. -/
def pchanPut (dev : HabDevice π) (pchan : π) : HabDevice π :=
  { dev with refcount := Function.update dev.refcount pchan (dev.refcount pchan - 1) }

@[simp] theorem openqList_pchanGet (dev : HabDevice π) (pchan : π) :
    (dev.pchanGet pchan).openqList = dev.openqList := rfl

@[simp] theorem openqList_pchanPut (dev : HabDevice π) (pchan : π) :
    (dev.pchanPut pchan).openqList = dev.openqList := rfl

end HabDevice

variable [DecidableEq π]

/-- `hab_open_request_add`: `read` is what `physical_channel_read` delivers,
if it delivers all of it. -/
def habOpenRequestAdd (dev : HabDevice π) (pchan : π) (requestType : HabPayloadType)
    (alloc : Bool) (read : Option HabOpenSendData) (now : ℤ) : Option Errno × HabDevice π :=
  if alloc then
    match read with
    | none => (some .eio, dev)
    | some xdata =>
        let node : HabOpenNode π :=
          { request := ⟨requestType, pchan, xdata⟩
            age := now + habOpenReqExpireTimeS }
        (none, (dev.pchanGet pchan).enqueue node)
  else (some .enomem, dev)

/-- The test of `hab_open_request_find`: is this the request `listen` waits for?
A cancel is handed to whoever waits for the open it names. -/
def HabOpenRequest.answers (request : HabOpenRequest π) (listen : HabOpenRequest (Option π)) :
    Bool :=
  (request.type = listen.type || request.type = .initCancel) &&
  request.xdata.subId = listen.xdata.subId &&
  (listen.xdata.openId = 0 || request.xdata.openId = listen.xdata.openId) &&
  (listen.pchan = none || listen.pchan = some request.pchan)

/-- The walk over `openq_list` in `hab_open_request_find`. -/
def HabDevice.scan (dev : HabDevice π) (listen : HabOpenRequest (Option π)) (now : ℤ) :
    Scan.Result (HabOpenNode π) :=
  Scan.scan (fun node ↦ node.request.answers listen) (fun node ↦ node.age < now) dev.openqList

/-- What the walk leaves: the request taken is unlinked and counted off, the
expired ones are unlinked and freed but not counted off. -/
def HabDevice.afterScan (dev : HabDevice π) (listen : HabOpenRequest (Option π)) (now : ℤ) :
    HabDevice π :=
  let found := dev.scan listen now
  found.dropped.foldl (fun dev node ↦ dev.pchanPut node.request.pchan)
    { dev with
      openqList := found.kept
      openqCnt := if found.taken.isSome then dev.openqCnt - 1 else dev.openqCnt }

theorem HabDevice.openqList_foldl_pchanPut (nodes : List (HabOpenNode π)) (dev : HabDevice π) :
    (nodes.foldl (fun dev node ↦ dev.pchanPut node.request.pchan) dev).openqList =
      dev.openqList := by
  induction nodes generalizing dev with
  | nil => rfl
  | cons node nodes ih =>
      rw [List.foldl_cons, ih]
      rfl

@[simp] theorem HabDevice.openqList_afterScan (dev : HabDevice π)
    (listen : HabOpenRequest (Option π)) (now : ℤ) :
    (dev.afterScan listen now).openqList = (dev.scan listen now).kept :=
  HabDevice.openqList_foldl_pchanPut _ _

/-- What `hab_open_request_find` reads besides the queue. -/
structure FindEnv (π : Type*) where
  /-- `ctx->closing` -/
  closing : Bool
  /-- `pchan->closed` -/
  closed : π → Bool
  /-- The answer of `hab_is_forbidden` after the walk. -/
  forbidden : Bool
  now : ℤ

/-- `hab_open_request_find`: the return value, `*recv_request` (when it is set) and
the device. -/
def habOpenRequestFind (env : FindEnv π) (listen : HabOpenRequest (Option π))
    (dev : HabDevice π) : (Bool × Option (HabOpenNode π)) × HabDevice π :=
  if env.closing || listen.pchan.any env.closed then ((true, none), dev)
  else
    let found := dev.scan listen env.now
    ((found.taken.isSome || env.forbidden, found.taken), dev.afterScan listen env.now)

/-- How a wait on `dev->openq` ends. -/
inductive WaitEnd where
  | met | timeout | signal
deriving DecidableEq, Repr

/-- The return value of `hab_open_listen` for a wait that ended like this:
`forbidden` is what `hab_is_forbidden` says after the wait. -/
def habOpenListen (timed closing : Bool) (ended : WaitEnd) (forbidden : Bool) : Option Errno :=
  if timed then
    match ended with
    | .timeout => some .eagain
    | .signal => some .eintr
    | .met => if forbidden then some .enxio else none
  else if closing then some .enodev
  else
    match ended with
    | .signal => some .eintr
    | .timeout | .met => if forbidden then some .enxio else none

/-- The test of `hab_open_receive_cancel`: is this the request that the cancel
withdraws? -/
def HabOpenRequest.cancelledBy (request : HabOpenRequest π) (data : HabOpenSendData) : Bool :=
  (request.type = .init || request.type = .initAck) &&
  request.xdata.subId = data.subId &&
  request.xdata.openId = data.openId &&
  request.xdata.vchanId = data.vchanId

def habOpenReceiveCancel (dev : HabDevice π) (pchan : π) (read : Option HabOpenSendData)
    (alloc : Bool) (now : ℤ) : Option Errno × HabDevice π :=
  match read with
  | none => (some .eio, dev)
  | some data =>
      if dev.openqList.any (fun node ↦ node.request.cancelledBy data) then
        -- an un-serviced open request: delete it
        (none,
          { dev with
            openqList := dev.openqList.eraseP (fun node ↦ node.request.cancelledBy data)
            openqCnt := dev.openqCnt - 1 })
      else if alloc then
        -- let the waiting open bail out
        let node : HabOpenNode π :=
          { request := ⟨.initCancel, pchan, { data with verProto := 0 }⟩
            age := now + habOpenReqExpireTimeS }
        (none, (dev.pchanGet pchan).enqueue node)
      else (some .enomem, dev)

end Hab
