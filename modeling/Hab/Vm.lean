import Hab.Library.Pool
import Hab.Open
import Hab.Vchan

/-!
# One VM (`hab.c`, `hab_vchan.c`, `hab_msg.c`)

The vchans of a VM on one device, the opens, sends, receives and closes in
progress on them, and the messages that arrive.  A call goes on from one lock
section, wait or `physical_channel_send` to the next, and anything else may
happen in between.
-/

namespace Hab

def habApiVer : UInt32 := 0x00010000

/-- The major part of a version. -/
def majorVer (ver : UInt32) : UInt32 := ver &&& 0xFFFF0000

/-! ## Messages -/

/-- `struct hab_message`, with the payload type it travels under. -/
structure Message where
  type : HabPayloadType
  data : List UInt8
deriving DecidableEq

/-- What a pchan carries for the opens and the vchans: the header and, unless it
is a CLOSE, the payload. -/
inductive HabMsg where
  | request (type : HabPayloadType) (xdata : HabOpenSendData)
  | data (id : Fin 4096) (sessionId : UInt32) (message : Message)
  | close (id : Fin 4096) (sessionId : UInt32)
deriving DecidableEq

/-- The payload types that `hab_vchan_send` sends, each with the least size that it
accepts. -/
def habVchanSendMin : HabPayloadType → Option ℕ
  | .msg | .scheMsg | .scheMsgAck => some 0
  | .profile => some 32
  | .scheResultReq => some 8
  | .scheResultRsp => some 24
  | _ => none

/-- The bytes of a clock, written over those of a message. -/
def stamp (clock : List UInt8) (offset size : ℕ) (data : List UInt8) : List UInt8 :=
  data.take offset ++ clock.take size ++ data.drop (offset + size)

/-- What `hab_msg_recv` queues for a message, if it queues it. -/
def Message.received (clock : List UInt8) (message : Message) : Option Message :=
  if habHeaderSizeMax < message.data.length then none
  else
    match message.type with
    | .msg | .scheResultReq | .scheResultRsp => some message
    | .profile =>
        if message.data.length < 32 then none
        else some { message with data := stamp clock 16 16 message.data }
    | .scheMsg | .scheMsgAck =>
        if message.data.length < 8 then none
        else some { message with data := stamp clock 0 8 message.data }
    | _ => none

/-- How the wait on `rx_queue` ended, where there was one. -/
inductive RxWait where
  | skipped | timeout | signal | woken
deriving DecidableEq, Repr

/-- `hab_msg_dequeue`: the return value, `*msg` and `*rsize`, and `rx_list`.  The size
of the buffer is the unsigned value that the comparison sees. -/
def habMsgDequeue (rxList : List Message) (otherendClosed : Bool) (rsize : ℕ) (waited : RxWait) :
    (Option Errno × Option Message × ℕ) × List Message :=
  match rxList with
  | message :: rest =>
      if message.data.length ≤ rsize then ((none, some message, message.data.length), rest)
      else ((some .eoverflow, none, message.data.length), message :: rest)
  | [] =>
      let error : Errno :=
        if otherendClosed then .enodev
        else
          match waited with
          | .signal => .eintr
          | .timeout => .etimedout
          | .skipped | .woken => .eagain
      ((some error, none, 0), [])

/-! ## The state -/

/-- `struct virtual_channel`.  The last two fields are not in the source: what the
other end was sent, with a `none` for the CLOSE, and what `hab_msg_dequeue` has
handed out. -/
structure Vchan where
  ctx : ℕ
  pchan : HabPchan
  idr : Fin 4096
  sessionId : UInt32
  otherendId : UInt32
  refcount : ℕ
  closed : Bool
  otherendClosed : Bool
  rxList : List Message
  log : List (Option Message)
  handed : List Message
deriving DecidableEq

/-- `vchan->id`. -/
def Vchan.id (vchan : Vchan) : UInt32 := habVcid vchan.pchan vchan.idr

/-- A call of `frontend_open`.  `request` is what `struct hab_open_request request`
happens to hold before it is set up. -/
structure FrontOpen where
  ctx : ℕ
  pchan : HabPchan
  subId : UInt32
  openId : UInt32
  vchan : ℕ
  request : HabOpenRequest (Option HabPchan)
deriving DecidableEq

/-- A call of `backend_listen`; `timed` if its `timeout` is positive. -/
structure BackListen where
  ctx : ℕ
  subId : UInt32
  timed : Bool
deriving DecidableEq

/-- A round of the loop of `backend_listen`, from the INIT it took on. -/
structure BackRound where
  listen : BackListen
  init : HabOpenRequest HabPchan
  vchan : ℕ
deriving DecidableEq

/-- Where a `frontend_open` stands. -/
inductive FrontStage where
  /-- INIT is to be sent. -/
  | init
  | wait
  /-- The wait has ended. -/
  | woken (ended : WaitEnd) (recv : Option (HabOpenRequest HabPchan))
  /-- INIT_CANCEL is to be sent. -/
  | cancel (recv : Option (HabOpenRequest HabPchan)) (error : Errno)
  /-- INIT_DONE is to be sent. -/
  | paired (recv : HabOpenRequest HabPchan)
deriving DecidableEq

/-- Where a `backend_listen` without a vchan stands. -/
inductive ListenStage where
  | wait
  | woken (ended : WaitEnd) (recv : Option (HabOpenRequest HabPchan))
deriving DecidableEq

/-- Where a `backend_listen` with a vchan stands. -/
inductive RoundStage where
  /-- INIT_ACK is to be sent. -/
  | ack
  | wait
  | answered (ended : WaitEnd) (recv : Option (HabOpenRequest HabPchan))
  /-- INIT_CANCEL is to be sent; after it the call fails, or starts over. -/
  | cancel (recv : Option (HabOpenRequest HabPchan)) (error : Option Errno)
deriving DecidableEq

/-- A call in progress. -/
inductive Call where
  | front (o : FrontOpen) (stage : FrontStage)
  | listen (l : BackListen) (stage : ListenStage)
  | round (r : BackRound) (stage : RoundStage)
  /-- `hab_vchan_open`: the vchan is to be put into `ctx->vchannels`. -/
  | opened (v : ℕ)
  /-- `hab_vchan_send`: to try `physical_channel_send` again. -/
  | sending (v : ℕ) (message : Message) (nonblocking : Bool)
  /-- `hab_vchan_recv`: in `hab_msg_dequeue`. -/
  | receiving (v : ℕ)
  /-- `hab_vchan_close`: CLOSE is to be sent. -/
  | closing (v : ℕ)
  /-- `hab_vchan_close`: `otherend_closed` is to be set. -/
  | stopping (v : ℕ)
deriving DecidableEq

/-- The vchan that a call has a reference to. -/
def Call.vchan : Call → Option ℕ
  | .front o _ => some o.vchan
  | .listen _ _ => none
  | .round r _ => some r.vchan
  | .opened v | .sending v _ _ | .receiving v | .closing v | .stopping v => some v

/-- What a `frontend_open` or `backend_listen` came to: its vchan, if it had one,
what its last wait took and the error it returned, if it returned one. -/
structure OpenReturn where
  front : Bool
  subId : UInt32
  vchan : Option ℕ
  taken : Option (HabOpenRequest HabPchan)
  error : Option Errno
deriving DecidableEq

structure HabVm where
  dev : HabDevice HabPchan
  /-- `open_id_counter`, without its wrap. -/
  openIdCounter : ℕ
  vchan : ℕ → Vchan
  nextVchan : ℕ
  /-- `pchan->vchan_idr` -/
  vchanIdr : HabPchan → Fin 4096 → Option ℕ
  /-- `ctx->vchannels` of all contexts -/
  vchannels : List ℕ
  /-- `ctx->forbidden_chans` -/
  forbidden : ℕ → UInt32 → Bool
  pchanClosed : HabPchan → Bool
  memProto : HabPchan → Bool
  calls : Pool Call
  returns : List OpenReturn

/-- What the kernel and the hypervisor answer in a step. -/
structure Env where
  /-- The answer of `physical_channel_send`. -/
  sent : Option Errno := none
  /-- The id `idr_alloc` finds, if the vchan can be allocated. -/
  idr : Option (Fin 4096) := none
  /-- Whether a received message can be allocated. -/
  alloc : Bool := true
  now : ℤ := 0
  /-- How a wait ends if its condition does not hold; `none` if it goes on. -/
  ended : Option WaitEnd := none
  rsize : ℕ := 0
  waited : RxWait := .skipped
  clock : List UInt8 := []

namespace HabVm

/-! ## Vchans -/

/-- Change a vchan. -/
def write (vm : HabVm) (v : ℕ) (vchan : Vchan) : HabVm :=
  { vm with vchan := Function.update vm.vchan v vchan }

/-- A message, or a CLOSE, has gone out on a vchan. -/
def logSent (vm : HabVm) (v : ℕ) (entry : Option Message) : HabVm :=
  vm.write v { vm.vchan v with log := (vm.vchan v).log ++ [entry] }

/-- `hab_msg_queue`. -/
def msgQueue (vm : HabVm) (v : ℕ) (message : Message) : HabVm :=
  vm.write v { vm.vchan v with rxList := (vm.vchan v).rxList ++ [message] }

/-- `hab_msg_dequeue` on a vchan. -/
def msgDequeue (vm : HabVm) (v rsize : ℕ) (waited : RxWait) : HabVm :=
  let vchan := vm.vchan v
  let dequeued := habMsgDequeue vchan.rxList vchan.otherendClosed rsize waited
  vm.write v
    { vchan with
      rxList := dequeued.2
      handed := vchan.handed ++ dequeued.1.2.1.toList }

/-- `hab_vchan_stop`. -/
def vchanStop (vm : HabVm) (v : ℕ) : HabVm :=
  vm.write v { vm.vchan v with otherendClosed := true }

/-- `hab_vchan_close` has begun. -/
def vchanClosed (vm : HabVm) (v : ℕ) : HabVm :=
  vm.write v { vm.vchan v with closed := true }

/-- A reference to a vchan is taken. -/
def vchanRef (vm : HabVm) (v : ℕ) : HabVm :=
  vm.write v { vm.vchan v with refcount := (vm.vchan v).refcount + 1 }

/-- An id that `vchan_idr` can give. -/
def idrFree (vm : HabVm) (pchan : HabPchan) (id : Fin 4096) : Bool :=
  id ≠ ⟨0, by decide⟩ && vm.vchanIdr pchan id = none

/-- `hab_vchan_alloc`, with `id` from `vchan_idr`, and the `otherend_id` that
`backend_listen` sets next.  The vchan is at `nextVchan`. -/
def vchanAlloc (vm : HabVm) (ctx : ℕ) (pchan : HabPchan) (openId otherendId : UInt32)
    (id : Fin 4096) : HabVm :=
  { vm with
    dev := vm.dev.pchanGet pchan
    vchan := Function.update vm.vchan vm.nextVchan
      { ctx := ctx
        pchan := pchan
        idr := id
        sessionId := openId
        otherendId := otherendId
        refcount := 1
        closed := false
        otherendClosed := vm.pchanClosed pchan
        rxList := []
        log := []
        handed := [] }
    nextVchan := vm.nextVchan + 1
    vchanIdr := Function.update vm.vchanIdr pchan
      (Function.update (vm.vchanIdr pchan) id (some vm.nextVchan)) }

/-- `hab_vchan_put`, and `hab_vchan_free` if it was the last reference. -/
def vchanPut (vm : HabVm) (v : ℕ) : HabVm :=
  let vchan := vm.vchan v
  if vchan.refcount = 1 then
    { vm.write v { vchan with refcount := 0, rxList := [] } with
      dev := vm.dev.pchanPut vchan.pchan
      vchanIdr := Function.update vm.vchanIdr vchan.pchan
        (Function.update (vm.vchanIdr vchan.pchan) vchan.idr none) }
  else vm.write v { vchan with refcount := vchan.refcount - 1 }

/-- `hab_vchan_get`; the reference it takes is given back at the end of
`hab_msg_recv`. -/
def vchanGet (vm : HabVm) (pchan : HabPchan) (id : Fin 4096) (sessionId : UInt32) : Option ℕ :=
  (vm.vchanIdr pchan id).filter fun v ↦
    let vchan := vm.vchan v
    vchan.sessionId = sessionId && vchan.otherendId ≠ 0 &&
      !(vchan.otherendClosed || vchan.closed) && vchan.refcount ≠ 0

/-- `hab_get_vchan_fromvcid`, before it takes the reference. -/
def vchanFromVcid (vm : HabVm) (vcid : UInt32) (ctx : ℕ) (ignoreRemote : Bool) : Option ℕ :=
  (vm.vchannels.find? fun v ↦ (vm.vchan v).ctx = ctx && (vm.vchan v).id = vcid).filter fun v ↦
    let vchan := vm.vchan v
    !((!ignoreRemote && vchan.otherendClosed) || vchan.closed) && vchan.refcount ≠ 0

/-- A call starts that takes a reference to a vchan. -/
def hold (vm : HabVm) (v : ℕ) (call : Call) : HabVm :=
  { vm.vchanRef v with calls := vm.calls.spawn call }

/-- A call goes on to another stage, or returns. -/
def become (vm : HabVm) (i : ℕ) (call : Option Call) : HabVm :=
  { vm with calls := vm.calls.set i call }

/-- A call gives its vchan back with `hab_vchan_put` and goes on without it. -/
def release (vm : HabVm) (i v : ℕ) (call : Option Call) : HabVm :=
  (vm.vchanPut v).become i call

/-- `err` in `frontend_open` and `backend_listen`, with a vchan: the call returns, or
the loop of `backend_listen` starts over. -/
def openErr (vm : HabVm) (i v : ℕ) (pchan : HabPchan) (call : Option Call)
    (result : List OpenReturn) : HabVm :=
  { vm.release i v call with
    dev := (vm.vchanPut v).dev.pchanPut pchan
    returns := vm.returns ++ result }

/-! ## Opens -/

/-- The condition of a wait on `openq`, looked at once: how the wait ends, if it
does, what it took, and the device. -/
def poll (vm : HabVm) (listen : HabOpenRequest (Option HabPchan)) (timed forbidden : Bool)
    (env : Env) : Option (WaitEnd × Option (HabOpenRequest HabPchan)) × HabDevice HabPchan :=
  let found := habOpenRequestFind ⟨false, vm.pchanClosed, forbidden, env.now⟩ listen vm.dev
  (if found.1.1 then some (.met, found.1.2.map HabOpenNode.request)
    else
      match env.ended with
      | some .signal => some (.signal, none)
      | some .timeout => if timed then some (.timeout, none) else none
      | _ => none,
    found.2)

end HabVm

/-- The data that `frontend_open` sends in a request. -/
def FrontOpen.xdata (o : FrontOpen) (type : HabPayloadType) (vchanId : UInt32) :
    HabOpenSendData :=
  { (habOpenRequestInit o.request type (some o.pchan) vchanId o.subId o.openId).xdata with
    verFe := habApiVer }

/-- What `frontend_open` waits for. -/
def FrontOpen.listen (o : FrontOpen) : HabOpenRequest (Option HabPchan) :=
  habOpenRequestInit o.request .initAck (some o.pchan) 0 o.subId o.openId

/-- `struct hab_open_request request = {0}` of `backend_listen`. -/
def zeroRequest : HabOpenRequest (Option HabPchan) :=
  ⟨.msg, none, ⟨0, 0, 0, 0, 0, 0⟩⟩

/-- What `backend_listen` waits for first. -/
def BackListen.request (l : BackListen) : HabOpenRequest (Option HabPchan) :=
  habOpenRequestInit zeroRequest .init none 0 l.subId 0

/-- The data that `backend_listen` sends in a request. -/
def BackRound.xdata (r : BackRound) (type : HabPayloadType) (vchanId : UInt32) :
    HabOpenSendData :=
  { (habOpenRequestInit zeroRequest type (some r.init.pchan) vchanId r.listen.subId
      r.init.xdata.openId).xdata with
    verFe := r.init.xdata.verFe
    verBe := habApiVer }

/-- What `backend_listen` waits for after its INIT_ACK. -/
def BackRound.request (r : BackRound) : HabOpenRequest (Option HabPchan) :=
  habOpenRequestInit zeroRequest .initDone (some r.init.pchan) 0 r.listen.subId
    r.init.xdata.openId

namespace HabVm

/-- `frontend_open` takes `request` for the answer to its INIT. -/
def frontPair (vm : HabVm) (i : ℕ) (o : FrontOpen) (request : HabOpenRequest HabPchan) : HabVm :=
  { (vm.write o.vchan { vm.vchan o.vchan with otherendId := request.xdata.vchanId }).become i
      (some (.front o (.paired request))) with
    dev := vm.dev.pchanPut request.pchan
    memProto := Function.update vm.memProto o.pchan (request.xdata.verProto ≠ 0) }

/-- `frontend_open` returns its vchan. -/
def frontAccept (vm : HabVm) (i : ℕ) (o : FrontOpen) (request : HabOpenRequest HabPchan) : HabVm :=
  { vm.become i (some (.opened o.vchan)) with
    dev := vm.dev.pchanPut o.pchan
    returns := vm.returns ++ [⟨true, o.subId, some o.vchan, some request, none⟩] }

/-- What `backend_listen` keeps of the `request` it has taken before it frees it. -/
def backHear (vm : HabVm) (request : HabOpenRequest HabPchan) : HabVm :=
  { vm with
    dev := (vm.dev.pchanGet request.pchan).pchanPut request.pchan
    memProto := Function.update vm.memProto request.pchan (request.xdata.verProto ≠ 0) }

/-- `backend_listen` gets a vchan for the `request` it has taken. -/
def backTake (vm : HabVm) (i : ℕ) (l : BackListen) (request : HabOpenRequest HabPchan)
    (id : Fin 4096) : HabVm :=
  (vm.vchanAlloc l.ctx request.pchan request.xdata.openId request.xdata.vchanId id).become i
    (some (.round ⟨l, request, vm.nextVchan⟩ .ack))

/-- `backend_listen` returns its vchan. -/
def backAccept (vm : HabVm) (i : ℕ) (r : BackRound) (request : HabOpenRequest HabPchan) : HabVm :=
  { vm.become i (some (.opened r.vchan)) with
    dev := (vm.dev.pchanPut request.pchan).pchanPut r.init.pchan
    returns := vm.returns ++ [⟨false, r.listen.subId, some r.vchan, some request, none⟩] }

/-- The next step of a `frontend_open` and what it sends. -/
def advanceFront (vm : HabVm) (i : ℕ) (env : Env) (o : FrontOpen) :
    FrontStage → HabVm × List (HabPchan × HabMsg)
  | .init =>
      match env.sent with
      | none =>
          (vm.become i (some (.front o .wait)),
            [(o.pchan, .request .init (o.xdata .init (vm.vchan o.vchan).id))])
      | some error =>
          (vm.openErr i o.vchan o.pchan none [⟨true, o.subId, some o.vchan, none, some error⟩], [])
  | .wait =>
      let polled := vm.poll o.listen false (vm.forbidden o.ctx o.subId) env
      let vm := { vm with dev := polled.2 }
      match polled.1 with
      | none => (vm, [])
      | some (ended, recv) => (vm.become i (some (.front o (.woken ended recv))), [])
  | .woken ended recv =>
      match habOpenListen false false ended (vm.forbidden o.ctx o.subId), recv with
      | none, some request =>
          if majorVer request.xdata.verFe ≠ majorVer request.xdata.verBe then
            (vm.openErr i o.vchan o.pchan none
              [⟨true, o.subId, some o.vchan, recv, some .eproto⟩], [])
          else (vm.frontPair i o request, [])
      | error, _ =>
          let error := if error = some .eintr then .eintr
            else if error = some .enxio then .enxio else .einval
          (vm.become i (some (.front o (.cancel recv error))), [])
  | .cancel recv error =>
      (vm.openErr i o.vchan o.pchan none [⟨true, o.subId, some o.vchan, recv, some error⟩],
        if env.sent = none then
          [(o.pchan, .request .initCancel (o.xdata .initCancel (vm.vchan o.vchan).id))]
        else [])
  | .paired request =>
      match env.sent with
      | none =>
          (vm.frontAccept i o request,
            [(o.pchan, .request .initDone (o.xdata .initDone 0))])
      | some error =>
          (vm.openErr i o.vchan o.pchan none
            [⟨true, o.subId, some o.vchan, some request, some error⟩], [])

/-- The next step of a `backend_listen` that has no vchan. -/
def advanceListen (vm : HabVm) (i : ℕ) (env : Env) (l : BackListen) :
    ListenStage → Option HabVm
  | .wait =>
      let polled := vm.poll l.request l.timed (vm.forbidden l.ctx l.subId) env
      let vm := { vm with dev := polled.2 }
      match polled.1 with
      | none => some vm
      | some (ended, recv) => some (vm.become i (some (.listen l (.woken ended recv))))
  | .woken ended recv =>
      match habOpenListen l.timed false ended (vm.forbidden l.ctx l.subId), recv with
      | none, some request =>
          -- the answer to another major version is sent to the pchan NULL, and the
          -- kernel does not survive that
          if majorVer request.xdata.verFe ≠ majorVer habApiVer then none
          else
            match env.idr with
            | none =>
                some
                  { (vm.backHear request).become i none with
                    dev := (vm.backHear request).dev.pchanPut request.pchan
                    returns := vm.returns ++ [⟨false, l.subId, none, recv, some .enomem⟩] }
            | some id =>
                if vm.idrFree request.pchan id then
                  some ((vm.backHear request).backTake i l request id)
                else none
      | error, _ =>
          let error := match error with
            | none => .einval
            | some .eagain => .etimedout
            | some error => error
          some
            { vm.become i none with
              returns := vm.returns ++ [⟨false, l.subId, none, recv, some error⟩] }

/-- The next step of a `backend_listen` that has a vchan, and what it sends. -/
def advanceRound (vm : HabVm) (i : ℕ) (env : Env) (r : BackRound) :
    RoundStage → HabVm × List (HabPchan × HabMsg)
  | .ack =>
      match env.sent with
      | none =>
          (vm.become i (some (.round r .wait)),
            [(r.init.pchan, .request .initAck (r.xdata .initAck (vm.vchan r.vchan).id))])
      | some error =>
          (vm.openErr i r.vchan r.init.pchan none
            [⟨false, r.listen.subId, some r.vchan, none, some error⟩], [])
  | .wait =>
      let polled := vm.poll r.request true (vm.forbidden r.listen.ctx r.listen.subId) env
      let vm := { vm with dev := polled.2 }
      match polled.1 with
      | none => (vm, [])
      | some (ended, recv) => (vm.become i (some (.round r (.answered ended recv))), [])
  | .answered ended recv =>
      let error := habOpenListen true false ended (vm.forbidden r.listen.ctx r.listen.subId)
      if error ≠ none ∧ recv.any (fun request ↦ request.type = .initCancel) then
        (vm.become i (some (.round r (.cancel recv (some .einval)))), [])
      else if error = some .enxio then
        (vm.openErr i r.vchan r.init.pchan none
          [⟨false, r.listen.subId, some r.vchan, recv, error⟩], [])
      else if error = some .eagain then
        (vm.become i (some (.round r (.cancel recv none))), [])
      else
        match error, recv with
        | none, some request => (vm.backAccept i r request, [])
        | _, _ =>
            (vm.openErr i r.vchan r.init.pchan none
              [⟨false, r.listen.subId, some r.vchan, recv, some .einval⟩], [])
  | .cancel recv error =>
      (match error with
        | some error =>
            vm.openErr i r.vchan r.init.pchan none
              [⟨false, r.listen.subId, some r.vchan, recv, some error⟩]
        | none => vm.openErr i r.vchan r.init.pchan (some (.listen r.listen .wait)) [],
        if env.sent = none then
          [(r.init.pchan, .request .initCancel (r.xdata .initCancel (vm.vchan r.vchan).id))]
        else [])

/-- The next step of a call, and what it sends. -/
def advance (vm : HabVm) (i : ℕ) (env : Env) : Call → Option (HabVm × List (HabPchan × HabMsg))
  | .front o stage => some (vm.advanceFront i env o stage)
  | .listen l stage => (vm.advanceListen i env l stage).map fun vm ↦ (vm, [])
  | .round r stage => some (vm.advanceRound i env r stage)
  | .opened v => some ({ vm.become i none with vchannels := vm.vchannels ++ [v] }, [])
  | .sending v message nonblocking =>
      let vchan := vm.vchan v
      match env.sent with
      | none =>
          some ((vm.logSent v (some message)).release i v none,
            [(vchan.pchan, .data (habVcidGetId vchan.otherendId) vchan.sessionId message)])
      | some error =>
          if vchan.otherendClosed || nonblocking || error ≠ .eagain then
            some (vm.release i v none, [])
          else some (vm, [])
  | .receiving v => some ((vm.msgDequeue v env.rsize env.waited).release i v none, [])
  | .closing v =>
      let vchan := vm.vchan v
      if vchan.otherendClosed = false ∧ env.sent = none then
        some ((vm.logSent v none).become i (some (.stopping v)),
          [(vchan.pchan, .close (habVcidGetId vchan.otherendId) vchan.sessionId)])
      else some (vm.become i (some (.stopping v)), [])
  | .stopping v => some ((vm.vchanStop v).release i v none, [])

/-! ## What arrives -/

/-- `hab_msg_recv`. -/
def receive (vm : HabVm) (pchan : HabPchan) (env : Env) : HabMsg → HabVm
  | .request type xdata =>
      match type with
      | .init | .initAck | .initDone =>
          { vm with
            dev := (habOpenRequestAdd vm.dev pchan type env.alloc (some xdata) env.now).2 }
      | .initCancel =>
          { vm with
            dev := (habOpenReceiveCancel vm.dev pchan (some xdata) env.alloc env.now).2 }
      | _ => vm
  | .data id sessionId message =>
      match vm.vchanGet pchan id sessionId with
      | none => vm
      | some v =>
          match if env.alloc then message.received env.clock else none with
          | none => vm
          | some message => vm.msgQueue v message
  | .close id sessionId =>
      match vm.vchanGet pchan id sessionId with
      | none => vm
      | some v => vm.vchanStop v

end HabVm

/-- What may happen on a VM. -/
inductive VmAct where
  /-- `frontend_open`, up to its INIT. -/
  | frontendOpen (ctx : ℕ) (pchan : HabPchan) (subId : UInt32)
      (request : HabOpenRequest (Option HabPchan))
  | backendListen (l : BackListen)
  /-- `hab_vchan_send`, up to its first `physical_channel_send`. -/
  | send (ctx : ℕ) (vcid : UInt32) (message : Message) (nonblocking : Bool)
  /-- `hab_vchan_recv`, up to `hab_msg_dequeue`. -/
  | recv (ctx : ℕ) (vcid : UInt32)
  /-- `hab_vchan_close`, up to its CLOSE. -/
  | close (ctx : ℕ) (vcid : UInt32)
  /-- `hab_stop`. -/
  | stop (ctx : ℕ) (subId : UInt32)
  /-- The pchan is closed. -/
  | closePchan (pchan : HabPchan)
  /-- A message arrives. -/
  | receive (pchan : HabPchan) (msg : HabMsg)
  /-- A call in progress makes its next step. -/
  | advance (i : ℕ)

namespace HabVm

/-- `frontend_open` finds its pchan and gets an open id. -/
def countOpen (vm : HabVm) (pchan : HabPchan) : HabVm :=
  { vm with dev := vm.dev.pchanGet pchan, openIdCounter := vm.openIdCounter + 1 }

/-- `frontend_open`, up to its INIT. -/
def frontendOpen (vm : HabVm) (ctx : ℕ) (pchan : HabPchan) (subId : UInt32)
    (request : HabOpenRequest (Option HabPchan)) (env : Env) : Option HabVm :=
  let openId := UInt32.ofNat (vm.openIdCounter + 1)
  match env.idr with
  | none =>
      some
        { vm with
          openIdCounter := vm.openIdCounter + 1
          returns := vm.returns ++ [⟨true, subId, none, none, some .enomem⟩] }
  | some id =>
      if vm.idrFree pchan id then
        some
          { (vm.countOpen pchan).vchanAlloc ctx pchan openId 0 id with
            calls :=
              vm.calls.spawn (.front ⟨ctx, pchan, subId, openId, vm.nextVchan, request⟩ .init) }
      else none

/-- `hab_vchan_send`, up to its first `physical_channel_send`. -/
def send (vm : HabVm) (ctx : ℕ) (vcid : UInt32) (message : Message) (nonblocking : Bool) :
    Option HabVm :=
  if habHeaderSizeMax < message.data.length then some vm
  else
    match vm.vchanFromVcid vcid ctx false, habVchanSendMin message.type with
    | some v, some least =>
        if message.data.length < least then
          -- returns without giving the reference back
          some (vm.vchanRef v)
        else some (vm.hold v (.sending v message nonblocking))
    | none, some _ => some vm
    | _, none => none

/-- One step of a VM, and what it sends; `none` if it cannot happen. -/
def step (vm : HabVm) (act : VmAct) (env : Env) : Option (HabVm × List (HabPchan × HabMsg)) :=
  match act with
  | .frontendOpen ctx pchan subId request =>
      (vm.frontendOpen ctx pchan subId request env).map fun vm ↦ (vm, [])
  | .backendListen l => some ({ vm with calls := vm.calls.spawn (.listen l .wait) }, [])
  | .send ctx vcid message nonblocking =>
      (vm.send ctx vcid message nonblocking).map fun vm ↦ (vm, [])
  | .recv ctx vcid =>
      match vm.vchanFromVcid vcid ctx true with
      | none => some (vm, [])
      | some v => some (vm.hold v (.receiving v), [])
  | .close ctx vcid =>
      match vm.vchannels.find? fun v ↦ (vm.vchan v).ctx = ctx && (vm.vchan v).id = vcid with
      | none => none
      | some v =>
          some
            ({ vm.vchanClosed v with
                vchannels := vm.vchannels.erase v
                calls := vm.calls.spawn (.closing v) },
              [])
  | .stop ctx subId =>
      some
        ({ vm with
            forbidden := Function.update vm.forbidden ctx
              (Function.update (vm.forbidden ctx) subId true) },
          [])
  | .closePchan pchan =>
      some ({ vm with pchanClosed := Function.update vm.pchanClosed pchan true }, [])
  | .receive pchan msg => some (vm.receive pchan env msg, [])
  | .advance i =>
      match vm.calls.get i with
      | none => none
      | some call => vm.advance i env call

/-- A VM on which nothing has happened yet. -/
def init : HabVm where
  dev := ⟨[], 0, fun _ ↦ 1⟩
  openIdCounter := 0
  vchan := fun _ ↦ ⟨0, ⟨⟨0, by decide⟩, ⟨0, by decide⟩⟩, ⟨0, by decide⟩, 0, 0, 0, false, false,
    [], [], []⟩
  nextVchan := 0
  vchanIdr := fun _ _ ↦ none
  vchannels := []
  forbidden := fun _ _ ↦ false
  pchanClosed := fun _ ↦ false
  memProto := fun _ ↦ false
  calls := Pool.empty
  returns := []

end HabVm

end Hab
