import Hab.Frame

/-!
# Messages on a stream

A transport that carries a stream of bytes keeps to the frames only if `hab_msg_recv`
reads all of each payload and nothing behind it.
-/

namespace Hab

/-- A stream after reads of these sizes; `none` if one of them falls short. -/
def takeOff : List ℕ → List UInt8 → Option (List UInt8)
  | [], stream => some stream
  | n :: reads, stream => if n ≤ stream.length then takeOff reads (stream.drop n) else none

theorem takeOff_eq {reads : List ℕ} {stream : List UInt8} (h : reads.sum ≤ stream.length) :
    takeOff reads stream = some (stream.drop reads.sum) := by
  induction reads generalizing stream with
  | nil => rfl
  | cons n reads ih =>
      rw [List.sum_cons] at h ⊢
      rw [takeOff, if_pos (by omega), ih (by rw [List.length_drop]; omega), List.drop_drop]

/-- What is claimed of a message: all of its payload is read, and the next byte is the next
message's. -/
structure FramingKept (env : RecvEnv) (header : HabHeader) : Prop where
  consumes : (habMsgRecvReads env header).sum = header.payloadSize.toNat
  next : ∀ payload rest : List UInt8, payload.length = header.payloadSize.toNat →
    takeOff (habMsgRecvReads env header) (payload ++ rest) = some rest

theorem framingKept_iff_sum {env : RecvEnv} {header : HabHeader} :
    FramingKept env header ↔
      (habMsgRecvReads env header).sum = header.payloadSize.toNat := by
  constructor
  · exact FramingKept.consumes
  · intro h
    refine ⟨h, ?_⟩
    intro payload rest hpayload
    rw [takeOff_eq (by rw [h, ← hpayload, List.length_append]; exact Nat.le_add_right _ _), h,
      ← hpayload, List.drop_left]

/-- The sizes of which the handler of a type reads exactly so much. -/
def HabPayloadType.WellSized (sizebytes : ℕ) : HabPayloadType → Prop
  | .msg | .scheResultReq | .scheResultRsp => True
  | .init | .initAck | .initDone | .initCancel => True
  | .export | .importAck => sizebytes = 0 ∨ exportDescSizeMin ≤ sizebytes
  | .exportAck => sizebytes ≤ exportAckSize
  | .close => sizebytes = 0
  | .profile => sizebytes = 0 ∨ xingVmStatSize ≤ sizebytes
  | .scheMsg | .scheMsgAck => sizebytes = 0 ∨ 8 ≤ sizebytes
  | .import => sizebytes = 12
  | .importAckFail | .unimport => sizebytes = 4

/-- A message that reaches a handler is of a known type and of a size that the handler
reads; an UNIMPORT is handled without a vchan, too. -/
def WellSized (env : RecvEnv) (header : HabHeader) : Prop :=
  match HabPayloadType.ofNumber header.getType with
  | none => env.vchan = true → env.otherendClosed = false → header.payloadSize.toNat = 0
  | some type =>
      (env.vchan = true → env.otherendClosed = false → type.WellSized header.payloadSize.toNat) ∧
        (type = .unimport → env.vchan = false → header.payloadSize.toNat = 4)

section Reads

variable {env : RecvEnv} {sizebytes : ℕ}

theorem sum_habMsgAllocReads_eq (halloc : env.alloc = true) (hsize : sizebytes ≤ habHeaderSizeMax) :
    (habMsgAllocReads env sizebytes).sum = sizebytes := by
  rw [habMsgAllocReads, if_neg (Nat.not_lt.mpr hsize), if_pos halloc, List.sum_singleton]

theorem sum_habMsgDropReads_eq (halloc : env.alloc = true) (hsize : sizebytes ≤ habHeaderSizeMax) :
    (habMsgDropReads env sizebytes).sum = sizebytes := by
  rw [habMsgDropReads]
  split
  next h =>
    rcases h with hzero | hlarge | hnone
    · exact hzero.symm
    · exact absurd hsize (Nat.not_le.mpr hlarge)
    · rw [halloc] at hnone
      cases hnone
  next => exact List.sum_singleton

theorem sum_ite_eq_iff {c : Prop} [Decidable c] {reads : List ℕ} (h : reads.sum = sizebytes) :
    (if c then [] else reads).sum = sizebytes ↔ sizebytes = 0 ∨ ¬ c := by
  by_cases hc : c
  · rw [if_pos hc, List.sum_nil]
    exact ⟨fun hzero ↦ .inl hzero.symm, fun hor ↦ (hor.resolve_right fun hno ↦ hno hc).symm⟩
  · rw [if_neg hc]
    exact ⟨fun _ ↦ .inr hc, fun _ ↦ h⟩

theorem sum_handlerReads_eq_iff (halloc : env.alloc = true)
    (hsize : sizebytes ≤ habHeaderSizeMax) (type : HabPayloadType) :
    (handlerReads env sizebytes type).sum = sizebytes ↔ type.WellSized sizebytes := by
  have hmsg := sum_habMsgAllocReads_eq halloc hsize
  have hall : [sizebytes].sum = sizebytes := List.sum_singleton
  cases type with
  | msg | scheResultReq | scheResultRsp => exact iff_of_true hmsg trivial
  | init | initAck | initDone =>
      refine iff_of_true ?_ trivial
      rw [handlerReads, halloc]
      exact hall
  | initCancel => exact iff_of_true hall trivial
  | «export» | importAck =>
      refine (sum_ite_eq_iff hall).trans (or_congr_right ?_)
      simp only [not_or, Nat.not_lt, halloc]
      exact ⟨fun h ↦ h.2.1, fun h ↦ ⟨hsize, h, Bool.noConfusion⟩⟩
  | exportAck =>
      refine (sum_ite_eq_iff hall).trans ?_
      simp only [not_or, Nat.not_lt, halloc, HabPayloadType.WellSized]
      exact ⟨fun h ↦ h.elim (fun hzero ↦ hzero ▸ Nat.zero_le _) And.right,
        fun h ↦ .inr ⟨Bool.noConfusion, h⟩⟩
  | close => exact eq_comm
  | profile => exact (sum_ite_eq_iff hmsg).trans (or_congr_right Nat.not_lt)
  | scheMsg | scheMsgAck => exact (sum_ite_eq_iff hmsg).trans (or_congr_right Nat.not_lt)
  | «import» => exact eq_comm
  | importAckFail | unimport => exact eq_comm

end Reads

/-- A message is read whole, and nothing behind it, exactly if it is well sized. -/
theorem framingKept_iff {env : RecvEnv} {header : HabHeader} (halloc : env.alloc = true)
    (hsize : header.payloadSize.toNat ≤ habHeaderSizeMax) :
    FramingKept env header ↔ WellSized env header := by
  rw [framingKept_iff_sum]
  have hdrop := sum_habMsgDropReads_eq halloc hsize
  simp only [habMsgRecvReads, WellSized]
  cases HabPayloadType.ofNumber header.getType with
  | none =>
      by_cases hvchan : env.vchan = true ∧ ¬ env.otherendClosed = true
      · rw [if_pos hvchan, List.sum_nil]
        have hopen : env.otherendClosed = false := by simpa using hvchan.2
        exact ⟨fun hzero _ _ ↦ hzero.symm, fun h ↦ (h hvchan.1 hopen).symm⟩
      · rw [if_neg hvchan]
        refine iff_of_true hdrop ?_
        intro h h'
        exact absurd ⟨h, by simp [h']⟩ hvchan
  | some type =>
      have hhandler := sum_handlerReads_eq_iff halloc hsize type
      by_cases hopen : type.isOpen = true
      · -- an open message needs no vchan, and is dropped where its size is wrong
        have hwell : type.WellSized header.payloadSize.toNat ∧ type ≠ .unimport := by
          cases type <;> first | exact ⟨trivial, by simp⟩ | cases hopen
        simp only [if_pos hopen]
        refine iff_of_true ?_ ⟨fun _ _ ↦ hwell.1, fun h ↦ absurd h hwell.2⟩
        split
        · exact hhandler.mpr hwell.1
        · exact hdrop
      · simp only [if_neg hopen]
        cases hvchan : env.vchan with
        | false =>
            by_cases hunimport : type = .unimport
            · have hread : 4 = header.payloadSize.toNat ↔ header.payloadSize.toNat = 4 := eq_comm
              simpa [hunimport] using hread
            · simp [hunimport, hdrop]
        | true =>
            cases hclosed : env.otherendClosed with
            | true => simp [hdrop]
            | false => simp [hhandler]

/-- A data message of 100 bytes. -/
theorem framingKept_iff_msg : FramingKept ⟨true, false, true, true⟩ ⟨0x00100000, 100⟩ :=
  (framingKept_iff rfl (by decide)).mpr ⟨fun _ _ ↦ trivial, fun h ↦ by cases h⟩

/-- Of an IMPORT_ACK without a page table, as an exporter sends it, nothing is read. -/
theorem not_framingKept :
    ¬ ∀ (env : RecvEnv) (header : HabHeader), env.alloc = true →
      header.payloadSize.toNat ≤ habHeaderSizeMax → FramingKept env header := by
  intro h
  have hkept := h ⟨true, false, true, true⟩ ⟨0x001E0000, 89⟩ rfl (by decide)
  exact absurd hkept.consumes (by decide)

end Hab
