import Hab.Library.Pool
import Hab.Library.Runs
import Hab.Vchan

/-!
# The life of a vchan, lock by lock (`hab.c`, `hab_vchan.c`, `hab_linux.c`)

The threads of one context that open, close, use and release vchans, and those that
handle messages for them.  A step is what a thread does in one section of a lock, one
operation on a reference count, or one run of reads and writes of a vchan between two of
these.  Steps of different threads come in any order.
-/

namespace Hab

/-- `struct virtual_channel`, from `kzalloc` on.  The last field is not in the source:
whether the reference that the vchan has to its context is there. -/
structure VchanCell where
  pchan : HabPchan
  /-- What `idr_alloc` returned. -/
  idr : Fin 4096
  id : UInt32
  sessionId : UInt32
  otherendId : UInt32
  refcount : ℕ
  closed : Bool
  otherendClosed : Bool
  /-- `vchan->ctx` is set. -/
  ctx : Bool
  ctxRef : Bool

/-- What follows the put of a vchan that was closed: nothing more, or the rest of the walk
of `hab_release`, which has the next vchan in `tmp`. -/
inductive AfterPut where
  | done
  | walk (tmp : Option ℕ)
deriving DecidableEq

/-- Where a thread that took a vchan off its context stands. -/
inductive ClosingStage where
  /-- `hab_send_close_msg`. -/
  | notify
  /-- `hab_vchan_stop`. -/
  | stop
  | put
deriving DecidableEq

/-- Where `hab_vchan_free` stands. -/
inductive FreeStage where
  /-- The section of `rx_lock`. -/
  | purge
  /-- The section of `vchans_lock`. -/
  | unlist
  | ctxPut
  /-- The section of `vid_lock`. -/
  | idrRemove
  | pchanPut
  | kfree
deriving DecidableEq

inductive VchanThread where
  /-- `hab_vchan_alloc`: to be put on the list of the pchan. -/
  | allocated (v : ℕ) (openId : UInt32)
  /-- `hab_vchan_alloc`: `vchan->id`, the reference count and `otherend_closed` are to be set. -/
  | listed (v : ℕ)
  /-- `hab_vchan_alloc`: the reference to the context is to be taken. -/
  | counted (v : ℕ)
  /-- `hab_vchan_alloc`: `vchan->ctx` is to be set. -/
  | referring (v : ℕ)
  /-- `frontend_open` or `backend_listen`, in the handshake. -/
  | opening (v : ℕ)
  /-- `hab_vchan_open`: `*vcid = vchan->id` is to be done. -/
  | opened (v : ℕ)
  | sending (v : ℕ)
  /-- A `hab_vchan_send` that returned without a put. -/
  | leaked (v : ℕ)
  | receiving (v : ℕ)
  /-- `hab_msg_recv`, after the lookup. -/
  | handling (v : ℕ)
  | closing (v : ℕ) (stage : ClosingStage) (after : AfterPut)
  | freeing (v : ℕ) (stage : FreeStage) (after : AfterPut)
  /-- `hab_ctx_free`, perhaps called from the `hab_vchan_free` of a vchan. -/
  | ctxFreeing (v : Option ℕ) (after : AfterPut)
  /-- `hab_release`: to start its walk. -/
  | releasing
  /-- `hab_release`: to take `ctx_lock` again. -/
  | walking (tmp : Option ℕ)
  /-- `hab_release`: the reference of the file is to be put. -/
  | filePut
deriving DecidableEq

structure VchanSystem where
  vchan : ℕ → VchanCell
  nextVchan : ℕ
  /-- How often `kfree` has been called on a vchan. -/
  freed : ℕ → ℕ
  /-- The reference count of the vchan has come down to 0. -/
  died : ℕ → Bool
  /-- A vchan has been read or written after it was freed. -/
  useAfterFree : Bool
  /-- A lookup has returned a vchan whose reference count had come down to 0. -/
  revived : Bool
  /-- `ctx->vchannels`. -/
  vchannels : List ℕ
  /-- `pchan->vchannels` of all pchans. -/
  pchannels : List ℕ
  /-- `pchan->vchan_idr`. -/
  vchanIdr : HabPchan → Fin 4096 → Option ℕ
  /-- `ctx->refcount`. -/
  ctxRefcount : ℕ
  /-- How often `kfree` has been called on the context. -/
  ctxFreed : ℕ
  /-- `hab_release` has not been called. -/
  file : Bool
  threads : Pool VchanThread

/-- What a thread does next where it has a choice. -/
inductive Move where
  /-- Go on to the next stage. -/
  | next
  /-- One more use of the vchan, or one more round of a loop. -/
  | again
  /-- `vchan->otherend_id` is set in the handshake. -/
  | pair (otherendId : UInt32)
  /-- The handshake fails. -/
  | fail
  /-- The message is too small for the flags of `hab_vchan_send`. -/
  | tooSmall
  /-- `hab_msg_recv` handles a CLOSE. -/
  | stop
  /-- `hab_ctx_free` looks for vchans that are left on a pchan. -/
  | walkPchan (pchan : HabPchan)
deriving DecidableEq

inductive VchanAct where
  /-- A handshake comes to `hab_vchan_alloc`, where `idr_alloc` returns `idr`. -/
  | alloc (pchan : HabPchan) (idr : Fin 4096) (openId : UInt32)
  | send (vcid : UInt32)
  | recv (vcid : UInt32)
  | close (vcid : UInt32)
  | release
  | message (pchan : HabPchan) (vchanId sessionId : UInt32)
  /-- `hab_vchans_stop`. -/
  | stopAll (pchan : HabPchan)
  /-- A thread that has started goes on. -/
  | go (i : ℕ) (move : Move)
deriving DecidableEq

/-- The thread that a put leaves, where it is not the last. -/
def AfterPut.resume : AfterPut → Option VchanThread
  | .done => none
  | .walk tmp => some (.walking tmp)

namespace VchanSystem

/-- Change a vchan. -/
def modify (s : VchanSystem) (v : ℕ) (f : VchanCell → VchanCell) : VchanSystem :=
  { s with vchan := Function.update s.vchan v (f (s.vchan v)) }

/-- Read or write vchans. -/
def touch (s : VchanSystem) (vs : List ℕ) : VchanSystem :=
  { s with useAfterFree := s.useAfterFree || vs.any fun v ↦ s.freed v ≠ 0 }

/-- The vchans on the list of a pchan. -/
def onPchan (s : VchanSystem) (pchan : HabPchan) : List ℕ :=
  s.pchannels.filter fun v ↦ (s.vchan v).pchan = pchan

/-! ## Reference counts -/

/-- `kref_get_unless_zero`, where the count is not 0. -/
def get (s : VchanSystem) (v : ℕ) : VchanSystem :=
  { s.modify v fun vchan ↦ { vchan with refcount := vchan.refcount + 1 } with
    revived := s.revived || s.died v }

/-- `hab_vchan_put`, and where its thread goes on. -/
def put (s : VchanSystem) (v : ℕ) (after : AfterPut) : VchanSystem × Option VchanThread :=
  let t := (s.touch [v]).modify v fun vchan ↦ { vchan with refcount := vchan.refcount - 1 }
  if (s.vchan v).refcount = 1 then
    ({ t with died := Function.update t.died v true }, some (.freeing v .purge after))
  else (t, after.resume)

/-- `hab_ctx_put`: is it the last? -/
def ctxPut (s : VchanSystem) : Bool × VchanSystem :=
  (s.ctxRefcount = 1, { s with ctxRefcount := s.ctxRefcount - 1 })

/-! ## Lookups -/

/-- The vchan on the context with this id. -/
def onCtx (s : VchanSystem) (vcid : UInt32) : Option ℕ :=
  s.vchannels.find? fun v ↦ (s.vchan v).id = vcid

def habGetVchanFromvcid (s : VchanSystem) (vcid : UInt32) (ignoreRemote : Bool) :
    Option ℕ × VchanSystem :=
  let t := s.touch s.vchannels
  match s.onCtx vcid with
  | none => (none, t)
  | some v =>
      if (!ignoreRemote && (s.vchan v).otherendClosed) || (s.vchan v).closed ||
          (s.vchan v).refcount = 0 then (none, t)
      else (some v, t.get v)

def habVchanGet (s : VchanSystem) (pchan : HabPchan) (vchanId sessionId : UInt32) :
    Option ℕ × VchanSystem :=
  match s.vchanIdr pchan (habVcidGetId vchanId) with
  | none => (none, s)
  | some v =>
      let t := s.touch [v]
      if (s.vchan v).sessionId ≠ sessionId ∨ (s.vchan v).otherendId = 0 ∨
          (s.vchan v).otherendClosed ∨ (s.vchan v).closed ∨ (s.vchan v).refcount = 0 then (none, t)
      else (some v, t.get v)

/-! ## Closing -/

/-- Take a vchan off the context, with `ctx_lock` held. -/
def unlist (s : VchanSystem) (v : ℕ) : VchanSystem :=
  { (s.touch [v]).modify v fun vchan ↦ { vchan with closed := true } with
    vchannels := s.vchannels.erase v }

/-- The entry after `v`. -/
def nextEntry (v : ℕ) : List ℕ → Option ℕ
  | [] => none
  | w :: rest => if w = v then rest.head? else nextEntry v rest

/-- One round of the walk of `hab_release`, from `ctx_lock` on.  If `list_del` has already
poisoned the pointers of the entry, the walk faults. -/
def walkFrom (s : VchanSystem) : Option ℕ → VchanSystem × Option VchanThread
  | none => (s, some .filePut)
  | some v =>
      if v ∈ s.vchannels then
        (s.unlist v, some (.closing v .notify (.walk (nextEntry v s.vchannels))))
      else (s.touch [v], none)

/-! ## Steps -/

/-- `hab_vchan_alloc` up to the section of `vid_lock`. -/
def alloc (s : VchanSystem) (pchan : HabPchan) (idr : Fin 4096) : VchanSystem :=
  { s with
    vchan := Function.update s.vchan s.nextVchan
      { pchan := pchan
        idr := idr
        id := 0
        sessionId := 0
        otherendId := 0
        refcount := 0
        closed := false
        otherendClosed := false
        ctx := false
        ctxRef := false }
    nextVchan := s.nextVchan + 1
    vchanIdr := Function.update s.vchanIdr pchan
      (Function.update (s.vchanIdr pchan) idr (some s.nextVchan)) }

/-- `idr_remove` on the pchan of a vchan. -/
def idrRemove (s : VchanSystem) (v : ℕ) : VchanSystem :=
  let pchan := (s.vchan v).pchan
  { s.touch [v] with
    vchanIdr := Function.update s.vchanIdr pchan
      (Function.update (s.vchanIdr pchan) (habVcidGetId (s.vchan v).id) none) }

/-- A step of `hab_vchan_free`. -/
def free (s : VchanSystem) (v : ℕ) (stage : FreeStage) (after : AfterPut) :
    VchanSystem × Option VchanThread :=
  match stage with
  | .purge => (s.touch [v], some (.freeing v .unlist after))
  | .unlist =>
      ({ s.touch (v :: s.onPchan (s.vchan v).pchan) with pchannels := s.pchannels.erase v },
        some (.freeing v .ctxPut after))
  | .ctxPut =>
      let put := ((s.touch [v]).modify v fun vchan ↦ { vchan with ctxRef := false }).ctxPut
      (put.2, some (if put.1 then .ctxFreeing (some v) after else .freeing v .idrRemove after))
  | .idrRemove => (s.idrRemove v, some (.freeing v .pchanPut after))
  -- the last put frees the pchan, which looks for vchans that are left on it
  | .pchanPut => (s.touch (s.onPchan (s.vchan v).pchan), some (.freeing v .kfree after))
  | .kfree => ({ s with freed := Function.update s.freed v (s.freed v + 1) }, after.resume)

/-- A thread takes a step. -/
def advance (s : VchanSystem) : VchanThread → Move → Option (VchanSystem × Option VchanThread)
  | .allocated v openId, .next =>
      some ({ (s.touch [v]).modify v fun vchan ↦ { vchan with sessionId := openId } with
          pchannels := s.pchannels ++ [v] }, some (.listed v))
  -- `pchan->closed` is 0 once the pchan is there
  | .listed v, .next =>
      some ((s.touch [v]).modify v fun vchan ↦
          { vchan with
            id := habVcid vchan.pchan vchan.idr
            refcount := 1
            otherendClosed := false }, some (.counted v))
  | .counted v, .next =>
      some ({ s.modify v fun vchan ↦ { vchan with ctxRef := true } with
          ctxRefcount := s.ctxRefcount + 1 }, some (.referring v))
  | .referring v, .next =>
      some ((s.touch [v]).modify v fun vchan ↦ { vchan with ctx := true }, some (.opening v))
  | .opening v, .pair otherendId =>
      some ((s.touch [v]).modify v fun vchan ↦ { vchan with otherendId := otherendId },
        some (.opening v))
  | .opening v, .again => some (s.touch [v], some (.opening v))
  | .opening v, .fail => some (s.put v .done)
  | .opening v, .next =>
      some ({ s.touch [v] with vchannels := s.vchannels ++ [v] }, some (.opened v))
  | .opened v, .next => some (s.touch [v], none)
  | .sending v, .again => some (s.touch [v], some (.sending v))
  | .sending v, .tooSmall => some (s.touch [v], some (.leaked v))
  | .sending v, .next => some (s.put v .done)
  | .receiving v, .again => some (s.touch [v], some (.receiving v))
  | .receiving v, .next => some (s.put v .done)
  | .handling v, .again => some (s.touch [v], some (.handling v))
  | .handling v, .stop =>
      some ((s.touch [v]).modify v fun vchan ↦ { vchan with otherendClosed := true },
        some (.handling v))
  | .handling v, .next => some (s.put v .done)
  | .closing v .notify after, .next => some (s.touch [v], some (.closing v .stop after))
  | .closing v .stop after, .next =>
      some ((s.touch [v]).modify v fun vchan ↦ { vchan with otherendClosed := true },
        some (.closing v .put after))
  | .closing v .put after, .next => some (s.put v after)
  | .freeing v stage after, .next => some (s.free v stage after)
  | .ctxFreeing v after, .again => some (s.touch s.vchannels, some (.ctxFreeing v after))
  | .ctxFreeing v after, .walkPchan pchan =>
      some (s.touch (s.onPchan pchan), some (.ctxFreeing v after))
  | .ctxFreeing v after, .next =>
      some ({ s with ctxFreed := s.ctxFreed + 1 },
        match v with
        | none => after.resume
        | some v => some (.freeing v .idrRemove after))
  | .releasing, .next => some (s.walkFrom s.vchannels.head?)
  | .walking tmp, .next => some (s.walkFrom tmp)
  | .filePut, .next =>
      some (s.ctxPut.2, if s.ctxPut.1 then some (.ctxFreeing none .done) else none)
  | _, _ => none

/-- A call starts with a vchan that it has looked up, or returns without one. -/
def spawn (found : Option ℕ × VchanSystem) (call : ℕ → VchanThread) : VchanSystem :=
  match found.1 with
  | none => found.2
  | some v => { found.2 with threads := found.2.threads.spawn (call v) }

def step (s : VchanSystem) : VchanAct → Option VchanSystem
  | .alloc pchan idr openId =>
      if idr.val ≠ 0 ∧ s.vchanIdr pchan idr = none then
        some { s.alloc pchan idr with
          threads := s.threads.spawn (.allocated s.nextVchan openId) }
      else none
  | .send vcid => some (spawn (s.habGetVchanFromvcid vcid false) .sending)
  | .recv vcid => some (spawn (s.habGetVchanFromvcid vcid true) .receiving)
  | .close vcid =>
      let t := s.touch s.vchannels
      some (spawn (s.onCtx vcid, (s.onCtx vcid).elim t t.unlist) (.closing · .notify .done))
  | .release =>
      if s.file then some { s with file := false, threads := s.threads.spawn .releasing }
      else none
  | .message pchan vchanId sessionId =>
      some (spawn (s.habVchanGet pchan vchanId sessionId) .handling)
  | .stopAll pchan =>
      some { s.touch (s.onPchan pchan) with
        vchan := fun v ↦
          if v ∈ s.onPchan pchan then { s.vchan v with otherendClosed := true } else s.vchan v }
  | .go i move =>
      match s.threads.get i with
      | none => none
      | some thread =>
          (s.advance thread move).map fun next ↦
            { next.1 with threads := next.1.threads.set i next.2 }

/-- A context that a file has been opened for. -/
def start : VchanSystem where
  vchan := fun _ ↦ ⟨vcidPchan 0, habVcidGetId 0, 0, 0, 0, 0, false, false, false, false⟩
  nextVchan := 0
  freed := fun _ ↦ 0
  died := fun _ ↦ false
  useAfterFree := false
  revived := false
  vchannels := []
  pchannels := []
  vchanIdr := fun _ _ ↦ none
  ctxRefcount := 1
  ctxFreed := 0
  file := true
  threads := Pool.empty

end VchanSystem

end Hab
