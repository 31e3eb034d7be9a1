import Hab.Locking

/-!
# When message handling keeps to the rules for spinlocks

Every function of the core gives back the spinlocks that it takes, so the question comes
down to the sends that it makes with one held.  It holds `expid_lock` when it answers an
IMPORT and `imp_lock` when it gives back what a freed context has imported; and the
loopback transport holds `io_lock` around all of it.
-/

namespace Hab

namespace Locking

open Locks

/-! ## What a path gives back -/

section After

variable (t : Transport) (held : List SpinLock)

@[simp] theorem after_getVhBufHeader (q : ℕ) (env : SendEnv) :
    after (.vqTxLock q :: held) (getVhBufHeader q env) = .vqTxLock q :: held := by
  apply after_flatMap
  intro _ _
  exact after_unlocked rfl

@[simp] theorem after_physicalChannelSend (pchan sizebytes : ℕ) (env : SendEnv) :
    after held (physicalChannelSend t pchan sizebytes env) = held := by
  cases t with
  | vhost =>
      simp only [physicalChannelSend]
      split
      · rfl
      · split <;> rfl
  | virtio =>
      simp only [physicalChannelSend]
      split
      · rfl
      · split
        · rfl
        · split
          · simp
          · simp
  | loopback =>
      simp only [physicalChannelSend]
      split <;> simp

@[simp] theorem after_physicalChannelRead : after held (physicalChannelRead t) = held := by
  cases t <;> rfl

@[simp] theorem after_channelReads (sizes : List ℕ) : after held (channelReads t sizes) = held := by
  simp [channelReads]

@[simp] theorem after_habmemRemoveExport (e : FreedExport) :
    after held (habmemRemoveExport e) = held := by
  unfold habmemRemoveExport habmemExportPut habmemExpRelease
  split
  · rfl
  · split
    · split <;> simp
    · simp

@[simp] theorem after_freeExport (ctx : ℕ) (e : FreedExport) :
    after (.expLock ctx :: held) (freeExport ctx e) = .expLock ctx :: held := by
  unfold freeExport
  split <;> simp

@[simp] theorem after_freeImport (i : FreedImport) : after held (freeImport t i) = held := by
  unfold freeImport
  split <;> simp

@[simp] theorem after_walkPchans (dev : ℕ × List ℕ) : after held (walkPchans dev) = held := by
  apply after_locked
  apply after_flatMap
  intro _ _
  exact after_locked rfl

@[simp] theorem after_habCtxFree (f : FreedCtx) : after held (habCtxFree t f) = held := by
  simp [habCtxFree]

@[simp] theorem after_habVchanFree (pchan : RecvPchan) (vchan : ℕ) (f : FreedVchan) :
    after held (habVchanFree t pchan vchan f) = held := by
  simp only [habVchanFree, habPchanFree]
  split <;> split <;> simp

@[simp] theorem after_habVchanPut (pchan : RecvPchan) (vchan : RecvVchan) :
    after held (habVchanPut t pchan vchan) = held := by
  unfold habVchanPut
  split <;> simp

@[simp] theorem after_recvMsg (a : Arrival) (vchan : RecvVchan) :
    after held (recvMsg t a vchan) = held := by
  simp only [recvMsg]
  split <;> simp

@[simp] theorem after_habMsgDrop (a : Arrival) : after held (habMsgDrop t a) = held := by
  simp [habMsgDrop]

@[simp] theorem after_habRecvUnimportMsg (pchan : RecvPchan) :
    after held (habRecvUnimportMsg t pchan) = held := by
  simp [habRecvUnimportMsg]

@[simp] theorem after_habReceiveExportDesc (pchan : RecvPchan) (a : Arrival)
    (vchan : RecvVchan) : after held (habReceiveExportDesc t pchan a vchan) = held := by
  unfold habReceiveExportDesc
  split
  · rfl
  · split
    · simp
    · split
      · split
        · split <;> simp
        · simp
      · split <;> simp

@[simp] theorem after_vchanHandler (pchan : RecvPchan) (a : Arrival) (vchan : RecvVchan)
    (type : Option HabPayloadType) : after held (vchanHandler t pchan a vchan type) = held := by
  unfold vchanHandler
  split
  · simp
  · simp
  · simp
  · simp
  · simp
  · unfold habReceiveCreateExportAck
    split
    · rfl
    · split <;> simp
  · rfl
  · split <;> simp
  · split <;> simp
  · split <;> simp
  · unfold recvImport
    split <;> simp
  · unfold habReceiveImportAckFail
    split <;> simp
  · simp
  all_goals rfl

@[simp] theorem after_openHandler (pchan : RecvPchan) (a : Arrival)
    (type : Option HabPayloadType) : after held (openHandler t pchan a type) = held := by
  have hadd : after held (habOpenRequestAdd t pchan a) = held := by
    unfold habOpenRequestAdd
    split
    · rfl
    · split <;> simp
  unfold openHandler
  split
  · exact hadd
  · exact hadd
  · exact hadd
  · unfold habOpenReceiveCancel
    split
    · simp
    · split <;> simp
  · rfl

@[simp] theorem after_habMsgRecv (pchan : RecvPchan) (a : Arrival) :
    after held (habMsgRecv t pchan a) = held := by
  unfold habMsgRecv
  split
  · split <;> simp
  · split
    · split <;> simp
    · split <;> simp

end After

/-! ## Sending with a lock held -/

/-- `physical_channel_send` comes to a point where it may sleep. -/
def Transport.sendSleeps (t : Transport) (sizebytes : ℕ) (env : SendEnv) : Bool :=
  match t with
  | .vhost => env.hypData && !env.otherendClosed && decide (sizebytes ≤ inBufSize - headerSize)
  | .virtio =>
      env.vpc.isSome && decide (sizebytes ≤ outLargeBufSize) && env.pchanReady &&
        decide (env.noBuffer ≠ 0)
  | .loopback => true

theorem safe_getVhBufHeader {held : List SpinLock} {q : ℕ} {env : SendEnv}
    (htx : .vqTxLock q ∉ held) :
    Safe (.vqTxLock q :: held) (getVhBufHeader q env) ↔ env.noBuffer = 0 ∨ held = [] := by
  have hround : ∀ x ∈ List.range env.noBuffer, after (.vqTxLock q :: held)
      (unlocked (SpinLock.vqTxLock q) [.sleep]) = .vqTxLock q :: held := by
    intro _ _
    exact after_unlocked (by simp)
  rw [getVhBufHeader, safe_flatMap hround, safe_unlocked (by simp)]
  constructor
  · intro h
    by_cases hzero : env.noBuffer = 0
    · exact .inl hzero
    · have hwait := h 0 (List.mem_range.mpr (Nat.pos_of_ne_zero hzero))
      exact .inr hwait.2.1
  · rintro (hzero | hnil)
    · simp [hzero]
    · intro _ _
      exact ⟨htx, hnil, trivial⟩

/-- A send is in order if it holds no lock, or does not come to sleep. -/
theorem safe_physicalChannelSend {held : List SpinLock} (t : Transport)
    (pchan sizebytes : ℕ) (env : SendEnv) (htx : ∀ q, .vqTxLock q ∉ held) :
    Safe held (physicalChannelSend t pchan sizebytes env) ↔
      held = [] ∨ t.sendSleeps sizebytes env = false := by
  cases t with
  | vhost =>
      simp only [physicalChannelSend, Transport.sendSleeps]
      split
      · rename_i hearly
        have hquiet : (env.hypData && !env.otherendClosed &&
            decide (sizebytes ≤ inBufSize - headerSize)) = false := by
          simpa [or_assoc, imp_iff_not_or, or_comm, or_left_comm] using hearly
        rw [hquiet]
        simp
      · rename_i hsend
        have hsleeps : (env.hypData && !env.otherendClosed &&
            decide (sizebytes ≤ inBufSize - headerSize)) = true := by
          simpa [and_assoc] using hsend
        rw [hsleeps]
        split <;> simp
  | virtio =>
      simp only [physicalChannelSend, Transport.sendSleeps]
      cases hvpc : env.vpc with
      | none => simp
      | some q =>
          by_cases hsize : outLargeBufSize < sizebytes
          · simp [hsize, Nat.not_le.mpr hsize]
          · simp only [if_neg hsize]
            rw [safe_locked (by split <;> simp)]
            cases hready : env.pchanReady with
            | false => simp [htx q]
            | true =>
                rw [if_pos rfl, safe_getVhBufHeader (htx q)]
                simp [htx q, Nat.le_of_not_lt hsize, or_comm]
  | loopback =>
      simp only [physicalChannelSend, Transport.sendSleeps]
      constructor
      · intro h
        exact .inl h.1
      · intro h
        have hnil : held = [] := by simpa using h
        subst hnil
        split
        · simp [safe_locked]
        · simp

/-! ## Freeing a context -/

/-- The export is released here, and unmaps and detaches its dma-buf. -/
def FreedExport.detaches (e : FreedExport) : Bool :=
  !(e.remoteImported && e.newProto) && e.ctx.isSome && e.lastRef && e.attach

def FreedCtx.Detaches (f : FreedCtx) : Prop := ∃ e ∈ f.expWhse, e.detaches = true

/-- None of the UNIMPORT messages for what the context has imported comes to sleep. -/
def FreedCtx.Quiet (f : FreedCtx) (t : Transport) : Prop :=
  ∀ i ∈ f.impWhse, i.newProto = true → t.sendSleeps 4 i.send = false

/-- The core holds none of its own locks; the transport may hold its own. -/
def OnlyIo (held : List SpinLock) : Prop := ∀ l ∈ held, ∃ pchan, l = .ioLock pchan

theorem OnlyIo.notMem {held : List SpinLock} {l : SpinLock} (h : OnlyIo held)
    (hl : ∀ pchan, l ≠ .ioLock pchan) : l ∉ held := by
  intro hmem
  obtain ⟨pchan, hpchan⟩ := h l hmem
  exact hl pchan hpchan

section Freeing

variable {held : List SpinLock} (h : OnlyIo held) (t : Transport)

include h

theorem safe_habmemRemoveExport (e : FreedExport) :
    Safe held (habmemRemoveExport e) ↔
      held = [] ∨ (e.ctx.isSome && e.lastRef && e.attach) = false := by
  unfold habmemRemoveExport habmemExportPut habmemExpRelease
  cases e.ctx with
  | none => simp
  | some c =>
      cases e.lastRef <;> cases e.attach <;>
        simp [safe_append_of_after, safe_locked, h.notMem]

theorem safe_freeExport (ctx : ℕ) (e : FreedExport) :
    Safe (.expLock ctx :: held) (freeExport ctx e) ↔ held = [] ∨ e.detaches = false := by
  unfold freeExport FreedExport.detaches
  split
  · rename_i hspared
    simp [hspared, safe_locked, h.notMem]
  · rename_i hgone
    rw [safe_unlocked (by simp), safe_append_of_after (by simp), safe_habmemRemoveExport h]
    simp [hgone, safe_locked, h.notMem]

theorem safe_freeImport (ctx : ℕ) (i : FreedImport) :
    Safe (.impLock ctx :: held) (freeImport t i) ↔
      (i.newProto = true → t.sendSleeps 4 i.send = false) := by
  unfold freeImport
  cases i.newProto with
  | false => simp
  | true =>
      rw [if_pos rfl, safe_physicalChannelSend t _ _ _ (by simp [h.notMem])]
      simp

theorem safe_walkPchans (dev : ℕ × List ℕ) : Safe held (walkPchans dev) := by
  have hpchans : after (.pchanLock dev.1 :: held)
      (dev.2.flatMap fun p ↦ locked (SpinLock.vchansLock p) []) = .pchanLock dev.1 :: held := by
    apply after_flatMap
    intro _ _
    exact after_locked rfl
  rw [walkPchans, safe_locked hpchans, safe_flatMap (by simp)]
  refine ⟨h.notMem (by simp), ?_⟩
  intro p _
  simp [safe_locked, h.notMem]

/-- Freeing a context sends with `imp_lock` held, and detaches dma-bufs with none of the
locks of the core. -/
theorem safe_habCtxFree (f : FreedCtx) :
    Safe held (habCtxFree t f) ↔ (held = [] ∨ ¬ f.Detaches) ∧ f.Quiet t := by
  have hexports : Safe (.expLock f.ctx :: held) (f.expWhse.flatMap (freeExport f.ctx)) ↔
      held = [] ∨ ¬ f.Detaches := by
    rw [safe_flatMap (by simp)]
    simp only [safe_freeExport h, FreedCtx.Detaches, not_exists, not_and, Bool.not_eq_true]
    by_cases hnil : held = [] <;> simp [hnil]
  have himports : Safe (.impLock f.ctx :: held) (f.impWhse.flatMap (freeImport t)) ↔
      f.Quiet t := by
    rw [safe_flatMap (by simp)]
    simp only [safe_freeImport h, FreedCtx.Quiet]
  have hwalk : Safe held (f.devp.flatMap walkPchans) := by
    rw [safe_flatMap (by simp)]
    intro dev _
    exact safe_walkPchans h dev
  have hexpLock : after (.expLock f.ctx :: held) (f.expWhse.flatMap (freeExport f.ctx)) =
      .expLock f.ctx :: held := by simp
  have himpLock : after (.impLock f.ctx :: held) (f.impWhse.flatMap (freeImport t)) =
      .impLock f.ctx :: held := by simp
  rw [habCtxFree, safe_append_of_after (by simp),
    safe_append_of_after (after_locked hexpLock), safe_locked hexpLock, hexports,
    safe_append_of_after (after_locked himpLock), safe_locked himpLock, himports]
  simp [safe_append_of_after, safe_locked, h.notMem, hwalk]

/-- The context that goes with the last reference to a vchan. -/
def RecvVchan.freedCtx (vchan : RecvVchan) : Option FreedCtx := vchan.free.bind FreedVchan.ctx

theorem safe_habVchanPut (pchan : RecvPchan) (vchan : RecvVchan) :
    Safe held (habVchanPut t pchan vchan) ↔
      ∀ f, vchan.freedCtx = some f → (held = [] ∨ ¬ f.Detaches) ∧ f.Quiet t := by
  unfold habVchanPut RecvVchan.freedCtx
  cases vchan.free with
  | none => simp
  | some v =>
      have hpchan : Safe held (if v.pchan = true then habPchanFree pchan else []) := by
        split
        · simp [habPchanFree, safe_append_of_after, safe_locked, h.notMem]
        · trivial
      cases hc : v.ctx with
      | none => simp [habVchanFree, safe_append_of_after, safe_locked, h.notMem, hc, hpchan]
      | some ctx =>
          simp [habVchanFree, safe_append_of_after, safe_locked, h.notMem, hc, hpchan,
            safe_habCtxFree h]

end Freeing

/-! ## Receiving -/

/-- What the transport holds when it calls `hab_msg_recv`. -/
def Transport.recvHeld (t : Transport) (pchan : ℕ) : List SpinLock :=
  match t with
  | .vhost | .virtio => []
  | .loopback => [.ioLock pchan]

namespace Arrival

/-- The vchan whose handler the message comes to. -/
def handled (a : Arrival) : Option RecvVchan :=
  if a.type.any HabPayloadType.isOpen then none
  else a.vchan.filter fun vchan ↦ !vchan.otherendClosed

/-- An IMPORT that is answered. -/
def AsksForImport (a : Arrival) : Prop :=
  a.type = some .import ∧ a.handled.isSome ∧ a.read = true

/-- A descriptor that is answered: with an ack under the legacy protocol if it is well
formed, and with an UNIMPORT under the new one if it is not kept. -/
def AnswersExport (a : Arrival) (pchan : RecvPchan) : Prop :=
  (a.type = some .export ∨ a.type = some .importAck) ∧ a.handled.isSome ∧
    a.exportMsg.badSize = false ∧ a.alloc = true ∧ a.read = true ∧
    pchan.newProto = (a.exportMsg.malformed || pchan.newProto && !a.allocAck)

/-- The context that the last reference to the vchan takes with it. -/
def freedCtx (a : Arrival) : Option FreedCtx :=
  if a.type.any HabPayloadType.isOpen then none else a.vchan.bind RecvVchan.freedCtx

/-- The message does not make the driver send with a spinlock held, nor detach a dma-buf
with the lock of the loopback held. -/
def Quiet (a : Arrival) (t : Transport) (pchan : RecvPchan) : Prop :=
  (a.AsksForImport → t.sendSleeps a.importAnswerSize a.send = false) ∧
    (a.AnswersExport pchan → t ≠ .loopback) ∧
    ∀ f, a.freedCtx = some f → (t ≠ .loopback ∨ ¬ f.Detaches) ∧ f.Quiet t

end Arrival

section Receiving

variable (t : Transport) (pchan : RecvPchan) (a : Arrival) (vchan : RecvVchan)

theorem onlyIo_recvHeld (p : ℕ) : OnlyIo (t.recvHeld p) := by
  intro l hl
  cases t with
  | vhost => cases hl
  | virtio => cases hl
  | loopback => exact ⟨p, List.mem_singleton.mp hl⟩

theorem recvHeld_eq_nil (p : ℕ) : t.recvHeld p = [] ↔ t ≠ .loopback := by
  cases t <;> simp [Transport.recvHeld]

theorem notMem_recvHeld {l : SpinLock} {p : ℕ} (hl : ∀ q, l ≠ .ioLock q) :
    l ∉ t.recvHeld p := (onlyIo_recvHeld t p).notMem hl

/-- Where the loopback sends from a handler, it would take its own lock again. -/
theorem safe_physicalChannelSend_recvHeld (p q sizebytes : ℕ) (env : SendEnv) :
    Safe (t.recvHeld p) (physicalChannelSend t q sizebytes env) ↔ t ≠ .loopback := by
  rw [safe_physicalChannelSend t _ _ _ (by simp [notMem_recvHeld]), recvHeld_eq_nil]
  cases t <;> simp [Transport.sendSleeps]

theorem safe_physicalChannelRead (p : ℕ) : Safe (t.recvHeld p) (physicalChannelRead t) := by
  cases t <;> simp [physicalChannelRead, Transport.recvHeld]

theorem safe_channelReads (p : ℕ) (sizes : List ℕ) :
    Safe (t.recvHeld p) (channelReads t sizes) := by
  rw [channelReads, safe_flatMap (by simp)]
  intro _ _
  exact safe_physicalChannelRead t p

theorem safe_recvMsg (p : ℕ) : Safe (t.recvHeld p) (recvMsg t a vchan) := by
  simp only [recvMsg]
  split
  · simp [safe_channelReads]
  · simp [safe_append_of_after, safe_channelReads, safe_locked, notMem_recvHeld]

theorem safe_habMsgDrop (p : ℕ) : Safe (t.recvHeld p) (habMsgDrop t a) :=
  safe_channelReads t p _

theorem safe_habRecvUnimportMsg (p : ℕ) : Safe (t.recvHeld p) (habRecvUnimportMsg t pchan) := by
  simp [habRecvUnimportMsg, safe_append_of_after, safe_physicalChannelRead, safe_locked,
    notMem_recvHeld]

theorem safe_openHandler (p : ℕ) (type : Option HabPayloadType) :
    Safe (t.recvHeld p) (openHandler t pchan a type) := by
  have hadd : Safe (t.recvHeld p) (habOpenRequestAdd t pchan a) := by
    unfold habOpenRequestAdd
    split
    · trivial
    · split <;> simp [safe_append_of_after, safe_physicalChannelRead, safe_locked,
        notMem_recvHeld]
  unfold openHandler
  split
  · exact hadd
  · exact hadd
  · exact hadd
  · unfold habOpenReceiveCancel
    split
    · simp [safe_physicalChannelRead]
    · split <;> simp [safe_append_of_after, safe_physicalChannelRead, safe_locked,
        notMem_recvHeld]
  · trivial

theorem safe_habReceiveExportDesc (p : ℕ) :
    Safe (t.recvHeld p) (habReceiveExportDesc t pchan a vchan) ↔
      (a.exportMsg.badSize = false ∧ a.alloc = true ∧ a.read = true ∧
        pchan.newProto = (a.exportMsg.malformed || pchan.newProto && !a.allocAck) →
          t ≠ .loopback) := by
  unfold habReceiveExportDesc
  split
  · rename_i hearly
    rw [Bool.or_eq_true] at hearly
    rcases hearly with hbad | halloc
    · simp [hbad]
    · have hfail : a.alloc = false := by simpa using halloc
      simp [hfail]
  · rename_i hkept
    simp only [Bool.or_eq_true, Bool.not_eq_true', not_or, Bool.not_eq_true,
      Bool.not_eq_false] at hkept
    rw [safe_append_of_after (by simp)]
    cases a.read with
    | false => simp [safe_physicalChannelRead]
    | true =>
        cases pchan.newProto <;> cases a.exportMsg.malformed <;> cases a.allocAck <;>
          simp [hkept, safe_physicalChannelRead, safe_append_of_after, safe_locked,
            notMem_recvHeld, safe_physicalChannelSend_recvHeld]

theorem safe_recvImport (p : ℕ) :
    Safe (t.recvHeld p) (recvImport t pchan a) ↔
      (a.read = true → t.sendSleeps a.importAnswerSize a.send = false) := by
  unfold recvImport
  cases a.read with
  | false => simp [safe_physicalChannelRead]
  | true =>
      have htx : ∀ q, SpinLock.vqTxLock q ∉ .expidLock pchan.addr :: t.recvHeld p := by
        simp [notMem_recvHeld]
      simp [safe_append_of_after, safe_physicalChannelRead, safe_locked, notMem_recvHeld,
        safe_physicalChannelSend t _ _ _ htx]

/-- Only two handlers send: that of IMPORT with `expid_lock` held, that of a descriptor
with nothing held but what the transport holds. -/
theorem safe_vchanHandler (p : ℕ) (type : Option HabPayloadType) :
    Safe (t.recvHeld p) (vchanHandler t pchan a vchan type) ↔
      (type = some .import ∧ a.read = true → t.sendSleeps a.importAnswerSize a.send = false) ∧
        ((type = some .export ∨ type = some .importAck) ∧ a.exportMsg.badSize = false ∧
          a.alloc = true ∧ a.read = true ∧
            pchan.newProto = (a.exportMsg.malformed || pchan.newProto && !a.allocAck) →
              t ≠ .loopback) := by
  have hrecv : ∀ n, Safe (t.recvHeld p) (if a.sizebytes < n then [] else recvMsg t a vchan) := by
    intro n
    split
    · trivial
    · exact safe_recvMsg t a vchan p
  have hack : Safe (t.recvHeld p) (habReceiveCreateExportAck t a vchan) := by
    unfold habReceiveCreateExportAck
    split
    · trivial
    · split <;> simp [safe_append_of_after, safe_physicalChannelRead, safe_locked,
        notMem_recvHeld]
  have hfail : Safe (t.recvHeld p) (habReceiveImportAckFail t a vchan) := by
    unfold habReceiveImportAckFail
    split <;> simp [safe_append_of_after, safe_physicalChannelRead, safe_locked,
      notMem_recvHeld]
  cases type with
  | none => simp [vchanHandler]
  | some type =>
      cases type with
      | msg => simp [vchanHandler, safe_recvMsg]
      | init => simp [vchanHandler]
      | initAck => simp [vchanHandler]
      | initDone => simp [vchanHandler]
      | «export» => simpa [vchanHandler] using safe_habReceiveExportDesc t pchan a vchan p
      | exportAck => simp [vchanHandler, hack]
      | profile => simp [vchanHandler, hrecv]
      | close => simp [vchanHandler]
      | initCancel => simp [vchanHandler]
      | scheMsg => simp [vchanHandler, hrecv]
      | scheMsgAck => simp [vchanHandler, hrecv]
      | scheResultReq => simp [vchanHandler, safe_recvMsg]
      | scheResultRsp => simp [vchanHandler, safe_recvMsg]
      | «import» => simpa [vchanHandler] using safe_recvImport t pchan a p
      | importAck => simpa [vchanHandler] using safe_habReceiveExportDesc t pchan a vchan p
      | importAckFail => simp [vchanHandler, hfail]
      | unimport => simp [vchanHandler, safe_habRecvUnimportMsg]

/-- `hab_msg_recv`, for every message and whatever its handling finds. -/
theorem safe_habMsgRecv (p : ℕ) :
    Safe (t.recvHeld p) (habMsgRecv t pchan a) ↔ a.Quiet t pchan := by
  unfold habMsgRecv Arrival.Quiet Arrival.AsksForImport Arrival.AnswersExport Arrival.handled
    Arrival.freedCtx
  cases hopen : a.type.any HabPayloadType.isOpen with
  | true =>
      have hsafe : Safe (t.recvHeld p) (if a.sizebytes = openSendDataSize then
          openHandler t pchan a a.type else habMsgDrop t a) := by
        split
        · exact safe_openHandler t pchan a p _
        · exact safe_habMsgDrop t a p
      simp [hsafe]
  | false =>
      rw [if_neg (by simp), safe_append_of_after (by simp)]
      have hvid : Safe (t.recvHeld p) (locked (.vidLock pchan.addr) []) := by
        simp [safe_locked, notMem_recvHeld]
      cases hvchan : a.vchan with
      | none =>
          have hsafe : Safe (t.recvHeld p) (if a.type = some .unimport then
              habRecvUnimportMsg t pchan else habMsgDrop t a) := by
            split
            · exact safe_habRecvUnimportMsg t pchan p
            · exact safe_habMsgDrop t a p
          simp [hvid, hsafe]
      | some vchan =>
          have hput := safe_habVchanPut (onlyIo_recvHeld t p) t pchan vchan
          simp only [recvHeld_eq_nil] at hput
          cases hclosed : vchan.otherendClosed with
          | true =>
              simp [hvid, safe_append_of_after, safe_habMsgDrop, hput, hclosed]
          | false =>
              simp [hvid, safe_append_of_after, safe_vchanHandler, hput, hclosed, and_assoc]

end Receiving

/-! ## Paths -/

/-- No message makes the core send, or a freed context detach, where it must not. -/
def Path.Quiet (t : Transport) : Path → Prop
  | .dispatch pchan _ msgs => ∀ a ∈ msgs, a.Quiet t pchan
  | .ctxFree f => f.Quiet t

theorem safe_dispatch (t : Transport) (pchan : RecvPchan) (vpc : ℕ) (msgs : List Arrival) :
    Safe [] (Locking.dispatch t pchan vpc msgs) ↔ ∀ a ∈ msgs, a.Quiet t pchan := by
  cases t with
  | vhost =>
      have hmsg := fun a ↦ safe_habMsgRecv .vhost pchan a pchan.addr
      simp only [Transport.recvHeld] at hmsg
      simp [Locking.dispatch, safe_flatMap, physicalChannelRead, hmsg]
  | virtio =>
      have hmsg := fun a ↦ safe_habMsgRecv .virtio pchan a pchan.addr
      simp only [Transport.recvHeld] at hmsg
      have hround : ∀ a ∈ msgs, after [.vqRxLock vpc]
          (unlocked (.vqRxLock vpc) (habMsgRecv .virtio pchan a)) = [.vqRxLock vpc] := by
        intro a _
        exact after_unlocked (by simp)
      rw [Locking.dispatch, safe_locked (after_flatMap hround), safe_flatMap hround]
      simp [safe_unlocked, hmsg]
  | loopback =>
      have hmsg := fun a ↦ safe_habMsgRecv .loopback pchan a pchan.addr
      simp only [Transport.recvHeld] at hmsg
      simp [Locking.dispatch, safe_append_of_after, safe_locked, safe_flatMap, hmsg]

/-- Message handling and context frees keep to the rules for spinlocks exactly on the
paths where the core does not send while it, or the transport that calls it, holds one. -/
theorem Path.safe_iff_quiet (t : Transport) (path : Path) :
    Safe [] (path.ops t) ↔ path.Quiet t := by
  cases path with
  | dispatch pchan vpc msgs => exact safe_dispatch t pchan vpc msgs
  | ctxFree f =>
      have hheld : OnlyIo [] := fun _ hl ↦ by cases hl
      simpa [Path.ops, Path.Quiet] using safe_habCtxFree hheld t f

/-- An IMPORT, for an export that does not exist, from a peer that is paired. -/
def importRequest : Arrival where
  header := ⟨0x001D0000, 12⟩
  vchan := some ⟨1, 1, false, none⟩
  read := true
  alloc := true
  allocAck := true
  scatter := true
  desc := ⟨0, 0, 0, 0, 0, 0⟩
  exported := none
  pageCnt := 1
  cancelled := false
  send := ⟨true, false, none, true, 0, true⟩

/-- The host answers it with `expid_lock` held, and allocates with `GFP_KERNEL` there. -/
theorem not_forall_safe : ¬ ∀ (t : Transport) (path : Path), Safe [] (path.ops t) := by
  intro h
  exact absurd (h .vhost (.dispatch ⟨1, 1, true⟩ 1 [importRequest])) (by decide)

end Locking

end Hab
