import Hab.Export
import Hab.Library.Bytes

/-!
# The answer to an IMPORT

The exporter answers a request with an IMPORT_ACK, which it may fail to send, or with an
IMPORT_ACK_FAIL.  It takes no notice of what `physical_channel_send` returns, and it
answers nothing if it cannot read the request.
-/

namespace Hab

/-- `sizeof(struct hab_import_data)`. -/
def importDataSize : ℕ := 12

/-- The first two words of a request; the third is reserved. -/
def HabImportData.ofBytes (mem : List UInt8) : HabImportData where
  expId := UInt32.ofNat ((Bytes.word mem 0 4).getD 0)
  pageCnt := UInt32.ofNat ((Bytes.word mem 4 4).getD 0)

/-- What the exporter answers. -/
inductive ImportReply where
  /-- An IMPORT_ACK with the descriptor at an address. -/
  | ack (e : ℕ)
  | ackFail (exportId : UInt32)
deriving DecidableEq

/-- A call of `physical_channel_send`, and whether it returns 0. -/
structure ReplyAttempt where
  reply : ImportReply
  sent : Bool
deriving DecidableEq

namespace ExportVm

variable {π : Type*} {vm : ExportVm π}

/-- The IMPORT case of `hab_msg_recv`: what it tries to send, and the exports after it.
`payload` is what the transport delivers, `sent` says what becomes of each reply. -/
def habMsgRecvImport (vm : ExportVm π) (vchan : ExportVchan π) (payload : List UInt8)
    (sent : ImportReply → Bool) : List ReplyAttempt × ExportVm π :=
  if payload.length < importDataSize then ([], vm)
  else
    let data := HabImportData.ofBytes payload
    match vm.acknowledged vchan.pchan data with
    | some e =>
        ([⟨.ack e, sent (.ack e)⟩], vm.recvImport vchan data (sent (.ack e)))
    | none =>
        ([⟨.ackFail data.expId, sent (.ackFail data.expId)⟩], vm.recvImport vchan data false)

end ExportVm

/-- The descriptors that have gone out in an IMPORT_ACK. -/
def acksSent (attempts : List ReplyAttempt) : List ℕ :=
  attempts.filterMap fun a ↦
    match a.reply with
    | .ack e => if a.sent then some e else none
    | .ackFail _ => none

/-- The exports for which an IMPORT_ACK_FAIL was sent off. -/
def failsTried (attempts : List ReplyAttempt) : List UInt32 :=
  attempts.filterMap fun a ↦
    match a.reply with
    | .ack _ => none
    | .ackFail exportId => some exportId

/-- What is claimed of the handling of a request. -/
structure AnsweredOnce {π : Type*} (vm after : ExportVm π) (vchan : ExportVchan π)
    (payload : List UInt8) (attempts : List ReplyAttempt) : Prop where
  once : (∃ e, acksSent attempts = [e] ∧ failsTried attempts = []) ∨
    (acksSent attempts = [] ∧ ∃ exportId, failsTried attempts = [exportId])
  truthful : ∀ a ∈ attempts, ∀ e, a.reply = .ack e →
    vm.acknowledged vchan.pchan (.ofBytes payload) = some e
  imported : ∀ e, (after.desc e).remoteImported = true →
    (vm.desc e).remoteImported = true ∨ e ∈ acksSent attempts

namespace ExportVm

variable {π : Type*} {vm : ExportVm π} {vchan : ExportVchan π}
  {payload : List UInt8} {sent : ImportReply → Bool}

/-- The condition: the request can be read, and if there is something to acknowledge, the
IMPORT_ACK can be sent. -/
def Answerable (vm : ExportVm π) (vchan : ExportVchan π) (payload : List UInt8)
    (sent : ImportReply → Bool) : Prop :=
  importDataSize ≤ payload.length ∧
    ∀ e, vm.acknowledged vchan.pchan (.ofBytes payload) = some e → sent (.ack e) = true

/-- Only the export that is acknowledged gets the mark. -/
theorem remoteImported_recvImport {data : HabImportData} {b : Bool} {e : ℕ}
    (h : ((vm.recvImport vchan data b).desc e).remoteImported = true) :
    (vm.desc e).remoteImported = true ∨ vm.acknowledged vchan.pchan data = some e := by
  rw [recvImport] at h
  split at h
  next => exact .inl h
  next e' hack =>
    by_cases he : e = e'
    · exact .inr (he ▸ hack)
    · left
      simpa [habSendImportAck, setDesc, setLog, he] using h

theorem habMsgRecvImport_short (h : payload.length < importDataSize) :
    vm.habMsgRecvImport vchan payload sent = ([], vm) := by
  rw [habMsgRecvImport, if_pos h]

theorem habMsgRecvImport_fail (hread : importDataSize ≤ payload.length)
    (hack : vm.acknowledged vchan.pchan (.ofBytes payload) = none) :
    vm.habMsgRecvImport vchan payload sent =
      ([⟨.ackFail (HabImportData.ofBytes payload).expId,
        sent (.ackFail (HabImportData.ofBytes payload).expId)⟩], vm) := by
  rw [habMsgRecvImport, if_neg (Nat.not_lt.mpr hread)]
  simp only [hack, recvImport]

theorem habMsgRecvImport_ack {e : ℕ} (hread : importDataSize ≤ payload.length)
    (hack : vm.acknowledged vchan.pchan (.ofBytes payload) = some e) :
    vm.habMsgRecvImport vchan payload sent =
      ([⟨.ack e, sent (.ack e)⟩],
        vm.recvImport vchan (.ofBytes payload) (sent (.ack e))) := by
  rw [habMsgRecvImport, if_neg (Nat.not_lt.mpr hread)]
  simp only [hack]

/-- A request is answered once and truthfully exactly if it can be read and the IMPORT_ACK,
where it is due, can be sent. -/
theorem answeredOnce_iff :
    AnsweredOnce vm (vm.habMsgRecvImport vchan payload sent).2 vchan payload
        (vm.habMsgRecvImport vchan payload sent).1 ↔
      vm.Answerable vchan payload sent := by
  by_cases hread : importDataSize ≤ payload.length
  · cases hack : vm.acknowledged vchan.pchan (.ofBytes payload) with
    | none =>
        rw [habMsgRecvImport_fail hread hack]
        refine iff_of_true ?_ ⟨hread, ?_⟩
        · refine ⟨.inr ⟨rfl, _, rfl⟩, ?_, fun e ↦ Or.inl⟩
          intro a ha e he
          rw [List.mem_singleton.mp ha] at he
          cases he
        · intro e he
          rw [hack] at he
          cases he
    | some e =>
        rw [habMsgRecvImport_ack hread hack]
        have hacks : acksSent [⟨.ack e, sent (.ack e)⟩] =
            if sent (.ack e) = true then [e] else [] := by
          cases h : sent (.ack e) <;> rfl
        constructor
        · intro hanswered
          refine ⟨hread, ?_⟩
          intro e' he'
          cases hack.symm.trans he'
          by_contra hunsent
          rw [if_neg hunsent] at hacks
          rcases hanswered.once with ⟨x, hx, _⟩ | ⟨_, exportId, hfail⟩
          · rw [hacks] at hx
            cases hx
          · cases hfail
        · rintro ⟨_, hsent⟩
          rw [if_pos (hsent e hack)] at hacks
          refine ⟨.inl ⟨e, hacks, rfl⟩, ?_, ?_⟩
          · intro a ha e' he'
            rw [List.mem_singleton.mp ha] at he'
            cases he'
            exact hack
          · intro e' he'
            refine (remoteImported_recvImport he').imp_right ?_
            intro hack'
            rw [hacks, Option.some.inj (hack.symm.trans hack')]
            exact List.mem_singleton_self e'
  · rw [habMsgRecvImport_short (Nat.not_le.mp hread)]
    refine iff_of_false ?_ fun h ↦ hread h.1
    intro hanswered
    rcases hanswered.once with ⟨e, he, _⟩ | ⟨_, exportId, hfail⟩
    · cases he
    · cases hfail

/-- One export of one page. -/
def oneExport : ExportVm Unit :=
  ((start fun _ ↦ true).habmemAddExport ⟨0, 0, ()⟩ 1 1).publishExport 0

/-- An IMPORT_ACK that cannot be sent is not followed by an IMPORT_ACK_FAIL. -/
theorem not_answeredOnce :
    ¬ ∀ (vm : ExportVm Unit) (vchan : ExportVchan Unit) (payload : List UInt8)
      (sent : ImportReply → Bool),
      AnsweredOnce vm (vm.habMsgRecvImport vchan payload sent).2 vchan payload
        (vm.habMsgRecvImport vchan payload sent).1 := by
  intro h
  have hanswered := h oneExport ⟨0, 0, ()⟩ [1, 0, 0, 0, 1, 0, 0, 0, 0, 0, 0, 0] fun _ ↦ false
  have hattempts : (oneExport.habMsgRecvImport ⟨0, 0, ()⟩ [1, 0, 0, 0, 1, 0, 0, 0, 0, 0, 0, 0]
      fun _ ↦ false).1 = [⟨.ack 0, false⟩] := by
    decide
  rcases hanswered.once with ⟨e, he, _⟩ | ⟨_, exportId, hfail⟩
  · rw [hattempts] at he
    cases he
  · rw [hattempts] at hfail
    cases hfail

end ExportVm

end Hab
