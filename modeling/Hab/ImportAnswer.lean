import Hab.ImportPointers

/-!
# The answers to an IMPORT

By the new protocol an importer sleeps until an entry of `imp_rxq` answers its request.
`hab_msg_recv` makes such an entry of every IMPORT_ACK_FAIL, but of an IMPORT_ACK only if
`hab_receive_export_desc` gets as far as the checks of the descriptor.
-/

namespace Hab

/-- An answer to an IMPORT on a vchan: the size that its header gives, and what the
transport delivers of the payload. -/
inductive ImportAnswer where
  | ack (sizebytes : ℕ) (payload : List UInt8)
  | ackFail (payload : List UInt8)

/-- A zeroed block of `n` bytes after `physical_channel_read` into it. -/
def readInto (n : ℕ) (payload : List UInt8) : List UInt8 :=
  payload.take n ++ List.replicate (n - payload.length) 0

namespace RawImporter

/-- `hab_receive_import_ack_fail`, which does not look at what the read returns. -/
def habReceiveImportAckFail (s : RawImporter) (vchan : RawVchan) (payload : List UInt8) :
    RawImporter :=
  let expId := UInt32.ofNat ((Bytes.word (readInto 4 payload) 0 4).getD 0)
  s.queueAck ⟨expId, vchan.id, vchan.otherendId, false⟩

/-- `hab_msg_recv` for an answer, where all allocations succeed.  A block that is too short
for a descriptor fails the first test of `hab_receive_export_desc`. -/
def habMsgRecvAnswer (s : RawImporter) (vchan : RawVchan) :
    ImportAnswer → List ImportAction × RawImporter
  | .ack sizebytes payload =>
      match RawExportDesc.ofBytes (readInto sizebytes payload) with
      | none => ([.returns (some .einval)], s)
      | some msg =>
          s.habReceiveExportDesc vchan msg (sizebytes ≤ payload.length) true true true
  | .ackFail payload => ([], s.habReceiveImportAckFail vchan payload)

/-- One descriptor has been inserted into the warehouse. -/
def Inserted (s t : RawImporter) : Prop :=
  ∃ front back x, s.impWhse = front ++ back ∧ t.impWhse = front ++ x :: back

/-- `t` is `s` with one more entry in the queue, which says whether a descriptor went into the
warehouse. -/
def Woken (s t : RawImporter) : Prop :=
  ∃ ack, t.impRxq = s.impRxq ++ [⟨ack, 0⟩] ∧ (ack.impWhseAdded = true ↔ s.Inserted t)

end RawImporter

/-- The export that an answer is about. -/
def ImportAnswer.exportId : ImportAnswer → UInt32
  | .ack sizebytes payload => (ExportMsg.ofBytes (readInto sizebytes payload)).exportId
  | .ackFail payload => UInt32.ofNat ((Bytes.word (readInto 4 payload) 0 4).getD 0)

/-- The descriptor in an IMPORT_ACK is rejected. -/
def ImportAnswer.Malformed : ImportAnswer → Prop
  | .ack sizebytes payload =>
      (ExportMsg.ofBytes (readInto sizebytes payload)).badSize = true ∨
        payload.length < sizebytes ∨
          (ExportMsg.ofBytes (readInto sizebytes payload)).malformed = true
  | .ackFail _ => False

/-- What is claimed of an answer. -/
structure RawImporter.Answered (s : RawImporter) (vchan : RawVchan) (answer : ImportAnswer) :
    Prop where
  wakes : s.Woken (s.habMsgRecvAnswer vchan answer).2
  unimports : answer.Malformed →
    .sendUnimport vchan.pchan answer.exportId ∈ (s.habMsgRecvAnswer vchan answer).1

/-- The condition: a descriptor is of a size that is read, and all of it arrives. -/
def ImportAnswer.Whole : ImportAnswer → Prop
  | .ack sizebytes payload =>
      exportDescSizeMin ≤ sizebytes ∧ sizebytes ≤ habHeaderSizeMax ∧ sizebytes ≤ payload.length
  | .ackFail _ => True

theorem length_readInto (n : ℕ) (payload : List UInt8) : (readInto n payload).length = n := by
  rw [readInto, List.length_append, List.length_take, List.length_replicate]
  omega

namespace RawExportDesc

theorem ofBytes_eq_none {mem : List UInt8} (h : mem.length < payloadOffset) :
    ofBytes mem = none := by
  have hcount : Bytes.word mem 84 4 = none := by
    rw [← Option.not_isSome_iff_eq_none, Bytes.isSome_word]
    exact Nat.not_le.mpr h
  rw [ofBytes, hcount]
  simp only [Option.bind_eq_bind, Option.bind_none, Option.bind_fun_none]

/-- What `hab_receive_export_desc` checks is the same in the block and in the descriptor. -/
theorem exists_ofBytes {mem : List UInt8} (h : payloadOffset ≤ mem.length) :
    ∃ d, ofBytes mem = some d ∧ d.checked = .ofBytes mem := by
  have hword : ∀ off w, off + w ≤ payloadOffset → ∃ n, Bytes.word mem off w = some n := by
    intro off w hoff
    exact Bytes.exists_word (hoff.trans h)
  obtain ⟨exportId, hexportId⟩ := hword 0 4 (by decide)
  obtain ⟨readonly, hreadonly⟩ := hword 4 4 (by decide)
  obtain ⟨importIndex, himportIndex⟩ := hword 8 8 (by decide)
  obtain ⟨vchan, hvchan⟩ := hword 16 8 (by decide)
  obtain ⟨ctx, hctx⟩ := hword 24 8 (by decide)
  obtain ⟨pchan, hpchan⟩ := hword 32 8 (by decide)
  obtain ⟨vcidLocal, hvcidLocal⟩ := hword 40 4 (by decide)
  obtain ⟨vcidRemote, hvcidRemote⟩ := hword 44 4 (by decide)
  obtain ⟨domidLocal, hdomidLocal⟩ := hword 48 4 (by decide)
  obtain ⟨domidRemote, hdomidRemote⟩ := hword 52 4 (by decide)
  obtain ⟨flags, hflags⟩ := hword 56 4 (by decide)
  obtain ⟨nodeNext, hnodeNext⟩ := hword 60 8 (by decide)
  obtain ⟨nodePrev, hnodePrev⟩ := hword 68 8 (by decide)
  obtain ⟨kva, hkva⟩ := hword 76 8 (by decide)
  obtain ⟨payloadCount, hpayloadCount⟩ := hword 84 4 (by decide)
  refine ⟨_, by
    rw [ofBytes, hexportId, hreadonly, himportIndex, hvchan, hctx, hpchan, hvcidLocal,
      hvcidRemote, hdomidLocal, hdomidRemote, hflags, hnodeNext, hnodePrev, hkva, hpayloadCount]
    rfl, ?_⟩
  rw [ExportMsg.ofBytes, hexportId, hvcidLocal, hvcidRemote, hpayloadCount, checked]
  simp only [Option.getD_some, List.length_drop, Bytes.word_drop h, Nat.add_sub_cancel' h]

end RawExportDesc

namespace RawImporter

variable {s : RawImporter} {vchan : RawVchan}

theorem not_inserted_self : ¬ s.Inserted s := by
  rintro ⟨front, back, x, hs, ht⟩
  have hlen := congrArg List.length (hs.symm.trans ht)
  simp only [List.length_append, List.length_cons] at hlen
  omega

theorem Woken.of_rejected {t : RawImporter} {ack : HabImportAck}
    (hwhse : t.impWhse = s.impWhse) (hrxq : t.impRxq = s.impRxq ++ [⟨ack, 0⟩])
    (hadded : ack.impWhseAdded = false) : s.Woken t := by
  refine ⟨ack, hrxq, ?_⟩
  rw [hadded, Inserted, hwhse]
  exact iff_of_false Bool.noConfusion not_inserted_self

theorem not_woken_of_eq {t : RawImporter} (hrxq : t.impRxq = s.impRxq) : ¬ s.Woken t := by
  rintro ⟨ack, hack, _⟩
  rw [hrxq] at hack
  exact absurd (List.self_eq_append_right.mp hack) (List.cons_ne_nil _ _)

theorem inserted_habRbExpInsert (x : RawImport) : s.Inserted (s.habRbExpInsert x) :=
  ⟨_, _, x, List.takeWhile_append_dropWhile.symm, rfl⟩

theorem woken_enqueueExport (hproto : s.memProto vchan.pchan = true) (exp : RawExportDesc)
    (addr : ℕ) : s.Woken (s.enqueueExport vchan exp addr).2 := by
  rw [enqueueExport]
  simp only [hproto, if_true]
  cases (s.habRbExpFind exp.exportId exp.pchan).isNone with
  | true =>
      refine ⟨_, rfl, ?_⟩
      exact iff_of_true rfl (inserted_habRbExpInsert ⟨addr, exp, .init⟩)
  | false => exact .of_rejected rfl rfl rfl

theorem woken_rejectExport (hproto : s.memProto vchan.pchan = true) (exportId : UInt32)
    (addr : ℕ) (error : Errno) :
    s.Woken (s.rejectExport vchan exportId addr true error).2 ∧
      .sendUnimport vchan.pchan exportId ∈
        (s.rejectExport vchan exportId addr true error).1 := by
  rw [rejectExport, if_pos hproto]
  exact ⟨.of_rejected rfl rfl rfl, List.mem_cons_self⟩

/-- `hab_receive_export_desc` makes an entry exactly if the size is right and all of the
descriptor arrives. -/
theorem woken_habReceiveExportDesc_iff (hproto : s.memProto vchan.pchan = true)
    {msg : RawExportDesc} {read : Bool} :
    s.Woken (s.habReceiveExportDesc vchan msg read true true true).2 ↔
      msg.checked.badSize = false ∧ read = true := by
  rw [habReceiveExportDesc]
  cases hsize : msg.checked.badSize with
  | true => exact iff_of_false (not_woken_of_eq rfl) (by simp)
  | false =>
      cases read with
      | false => exact iff_of_false (not_woken_of_eq rfl) (by simp)
      | true =>
          refine iff_of_true ?_ ⟨rfl, rfl⟩
          cases hmalformed : msg.checked.malformed with
          | true =>
              exact (woken_rejectExport (s := { s with nextAddr := s.nextAddr + 1 }) hproto _ _ _).1
          | false =>
              simp only [Bool.false_eq_true, if_false, Bool.not_true, Bool.and_false]
              exact woken_enqueueExport (s := { s with nextAddr := s.nextAddr + 1 }) hproto _ _

/-- A descriptor that has been read and is rejected is given back. -/
theorem sendUnimport_of_malformed (hproto : s.memProto vchan.pchan = true)
    {msg : RawExportDesc} (hsize : msg.checked.badSize = false)
    (hmalformed : msg.checked.malformed = true) :
    .sendUnimport vchan.pchan msg.exportId ∈
      (s.habReceiveExportDesc vchan msg true true true true).1 := by
  rw [habReceiveExportDesc, hsize, hmalformed]
  exact (woken_rejectExport (s := { s with nextAddr := s.nextAddr + 1 }) hproto _ _ _).2

theorem woken_habReceiveImportAckFail (payload : List UInt8) :
    s.Woken (s.habReceiveImportAckFail vchan payload) :=
  .of_rejected rfl rfl rfl

/-- A block that holds a descriptor is handled as this descriptor. -/
theorem exists_habMsgRecvAnswer {sizebytes : ℕ} (payload : List UInt8)
    (h : payloadOffset ≤ sizebytes) :
    ∃ msg, msg.checked = .ofBytes (readInto sizebytes payload) ∧
      s.habMsgRecvAnswer vchan (.ack sizebytes payload) =
        s.habReceiveExportDesc vchan msg (sizebytes ≤ payload.length) true true true := by
  have hlen := length_readInto sizebytes payload
  obtain ⟨msg, hmsg, hchecked⟩ := RawExportDesc.exists_ofBytes (hlen.symm ▸ h)
  refine ⟨msg, hchecked, ?_⟩
  rw [habMsgRecvAnswer, hmsg]

theorem checked_whole_iff {sizebytes : ℕ} {payload : List UInt8} {msg : RawExportDesc}
    (hchecked : msg.checked = .ofBytes (readInto sizebytes payload)) :
    (msg.checked.badSize = false ∧ decide (sizebytes ≤ payload.length) = true) ↔
      ImportAnswer.Whole (.ack sizebytes payload) := by
  have hsize : msg.checked.sizebytes = sizebytes :=
    hchecked ▸ length_readInto sizebytes payload
  rw [ExportMsg.badSize, hsize]
  simp only [Bool.or_eq_false_iff, decide_eq_false_iff_not, Nat.not_lt, decide_eq_true_eq,
    ImportAnswer.Whole]
  tauto

theorem woken_habMsgRecvAnswer_iff (hproto : s.memProto vchan.pchan = true)
    {answer : ImportAnswer} :
    s.Woken (s.habMsgRecvAnswer vchan answer).2 ↔ answer.Whole := by
  cases answer with
  | ackFail payload => exact iff_of_true (woken_habReceiveImportAckFail payload) trivial
  | ack sizebytes payload =>
      by_cases hshort : sizebytes < payloadOffset
      · have hnone : RawExportDesc.ofBytes (readInto sizebytes payload) = none :=
          RawExportDesc.ofBytes_eq_none ((length_readInto sizebytes payload).symm ▸ hshort)
        refine iff_of_false (not_woken_of_eq ?_) ?_
        · rw [habMsgRecvAnswer, hnone]
        · rintro ⟨hmin, _⟩
          exact absurd (lt_of_le_of_lt hmin hshort) (by decide)
      · obtain ⟨msg, hchecked, hrecv⟩ :=
          exists_habMsgRecvAnswer (s := s) payload (Nat.not_lt.mp hshort)
        rw [hrecv, woken_habReceiveExportDesc_iff hproto]
        exact checked_whole_iff hchecked

/-- A descriptor that is read whole and is rejected is answered. -/
theorem sendUnimport_habMsgRecvAnswer (hproto : s.memProto vchan.pchan = true)
    {answer : ImportAnswer} (hwhole : answer.Whole) (hmalformed : answer.Malformed) :
    .sendUnimport vchan.pchan answer.exportId ∈ (s.habMsgRecvAnswer vchan answer).1 := by
  cases answer with
  | ackFail payload => exact hmalformed.elim
  | ack sizebytes payload =>
      have hle : payloadOffset ≤ sizebytes := le_trans (by decide) hwhole.1
      obtain ⟨msg, hchecked, hrecv⟩ := exists_habMsgRecvAnswer (s := s) payload hle
      obtain ⟨hsize, hread⟩ := (checked_whole_iff hchecked).mpr hwhole
      have hid : ImportAnswer.exportId (.ack sizebytes payload) = msg.exportId := by
        rw [ImportAnswer.exportId, ← hchecked]
        rfl
      rw [hrecv, hread, hid]
      rcases hmalformed with hbad | hless | hmalformed
      · rw [← hchecked, hsize] at hbad
        cases hbad
      · exact absurd hwhole.2.2 (Nat.not_le.mpr hless)
      · exact sendUnimport_of_malformed hproto hsize (hchecked ▸ hmalformed)

/-- An answer has its effects exactly if it is an IMPORT_ACK_FAIL, or an IMPORT_ACK of the
right size that arrives whole. -/
theorem answered_iff {answer : ImportAnswer} (hproto : s.memProto vchan.pchan = true) :
    s.Answered vchan answer ↔ answer.Whole := by
  have hwakes : s.Woken (s.habMsgRecvAnswer vchan answer).2 ↔ answer.Whole :=
    woken_habMsgRecvAnswer_iff hproto
  constructor
  · intro hanswered
    exact hwakes.mp hanswered.wakes
  · intro hwhole
    exact ⟨hwakes.mpr hwhole, sendUnimport_habMsgRecvAnswer hproto hwhole⟩

/-- A descriptor of one page. -/
theorem answered_iff_onePage :
    (start false fun _ ↦ true).Answered ⟨1, 1, 1, 0, 0⟩ (.ack 113 (onePageAt 0).bytes) :=
  (answered_iff rfl).mpr ⟨by decide, by decide, by decide⟩

/-- An IMPORT_ACK that ends before the page table, as an exporter sends it, wakes nobody. -/
theorem not_answered :
    ¬ ∀ (s : RawImporter) (vchan : RawVchan) (answer : ImportAnswer),
      s.memProto vchan.pchan = true → s.Answered vchan answer := by
  intro h
  have hanswered := h (start false fun _ ↦ true) ⟨1, 1, 1, 0, 0⟩
    (.ack 89 ((onePageAt 0).bytes.take 89)) rfl
  obtain ⟨hmin, _⟩ := (woken_habMsgRecvAnswer_iff rfl).mp hanswered.wakes
  exact absurd hmin (by decide)

end RawImporter

end Hab
