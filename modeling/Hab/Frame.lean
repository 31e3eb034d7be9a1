import Mathlib.Algebra.BigOperators.Group.List.Basic
import Hab.ExportLayout
import Hab.Open

/-!
# What a transport lets `hab_msg_recv` read of a frame

A frame is what the peer has placed on a virtqueue: a header and a payload, of any
length.  `hab_msg_recv` reads the payload with `physical_channel_read`, in pieces that
depend on the header.  The guest reads from the input buffer, where the bytes of earlier
frames lie behind this one, and takes the length that the peer has put into the ring, which
may be more than the buffer has; the host reads through an iterator over the frame.
-/

namespace Hab

/-- `sizeof(struct hab_header)`. -/
def headerSize : ℕ := 20

/-- The fields of `struct hab_header` that decide what is read. -/
structure HabHeader where
  idType : UInt32
  payloadSize : UInt32
deriving DecidableEq

def HabHeader.ofBytes (mem : List UInt8) : HabHeader where
  idType := UInt32.ofNat ((Bytes.word mem 0 4).getD 0)
  payloadSize := UInt32.ofNat ((Bytes.word mem 4 4).getD 0)

/-- `HAB_HEADER_GET_TYPE`. -/
def HabHeader.getType (header : HabHeader) : UInt32 :=
  ((header.idType &&& 0x000F0000) >>> 16) ||| ((header.idType &&& 0x0000000F) <<< 4)

/-- The payload type with a number; there is none from `HAB_PAYLOAD_TYPE_MAX` on. -/
def HabPayloadType.ofNumber (n : UInt32) : Option HabPayloadType :=
  [msg, init, initAck, initDone, «export», exportAck, profile, close, initCancel, scheMsg,
    scheMsgAck, scheResultReq, scheResultRsp, «import», importAck, importAckFail,
    unimport][n.toNat]?

/-- What else decides which reads `hab_msg_recv` makes. -/
structure RecvEnv where
  /-- `hab_vchan_get` finds the vchan. -/
  vchan : Bool
  otherendClosed : Bool
  /-- `kzalloc` for the message, the request or the descriptor. -/
  alloc : Bool
  /-- All allocations of `hab_scatter_msg_alloc`. -/
  scatter : Bool

/-! ## The reads of `hab_msg_recv` -/

/-- The sizes that `hab_scatter_msg_alloc` asks for. -/
def scatterReads (sizebytes : ℕ) : List ℕ :=
  List.replicate (sizebytes / pageSize) pageSize ++
    if sizebytes % pageSize = 0 then [] else [sizebytes % pageSize]

def habMsgAllocReads (env : RecvEnv) (sizebytes : ℕ) : List ℕ :=
  if habHeaderSizeMax < sizebytes then []
  else if env.alloc then [sizebytes]
  else if pageSize < sizebytes ∧ env.scatter then scatterReads sizebytes
  else []

def habMsgDropReads (env : RecvEnv) (sizebytes : ℕ) : List ℕ :=
  if sizebytes = 0 ∨ habHeaderSizeMax < sizebytes ∨ env.alloc = false then [] else [sizebytes]

/-- `sizeof(struct hab_open_send_data)`. -/
def openSendDataSize : ℕ := 24

/-- `sizeof(struct hab_export_ack)`. -/
def exportAckSize : ℕ := 12

/-- `sizeof(struct habmm_xing_vm_stat)`. -/
def xingVmStatSize : ℕ := 32

/-- The reads of the handler that the `switch` of `hab_msg_recv` enters. -/
def handlerReads (env : RecvEnv) (sizebytes : ℕ) : HabPayloadType → List ℕ
  | .msg | .scheResultReq | .scheResultRsp => habMsgAllocReads env sizebytes
  | .init | .initAck | .initDone => if env.alloc = false then [] else [sizebytes]
  | .initCancel => [sizebytes]
  | .export | .importAck =>
      if habHeaderSizeMax < sizebytes ∨ sizebytes < exportDescSizeMin ∨ env.alloc = false then []
      else [sizebytes]
  | .exportAck => if env.alloc = false ∨ exportAckSize < sizebytes then [] else [sizebytes]
  | .close => []
  | .profile => if sizebytes < xingVmStatSize then [] else habMsgAllocReads env sizebytes
  | .scheMsg | .scheMsgAck => if sizebytes < 8 then [] else habMsgAllocReads env sizebytes
  | .import => [12]
  | .importAckFail | .unimport => [4]

/-- An open message, which needs no vchan. -/
def HabPayloadType.isOpen : HabPayloadType → Bool
  | .init | .initAck | .initDone | .initCancel => true
  | _ => false

/-- The sizes that `hab_msg_recv` asks `physical_channel_read` for. -/
def habMsgRecvReads (env : RecvEnv) (header : HabHeader) : List ℕ :=
  let sizebytes := header.payloadSize.toNat
  match HabPayloadType.ofNumber header.getType with
  | none => if env.vchan ∧ ¬ env.otherendClosed then [] else habMsgDropReads env sizebytes
  | some type =>
      if type.isOpen then
        if sizebytes = openSendDataSize then handlerReads env sizebytes type
        else habMsgDropReads env sizebytes
      else if ¬ env.vchan then
        if type = .unimport then [4] else habMsgDropReads env sizebytes
      else if env.otherendClosed then habMsgDropReads env sizebytes
      else handlerReads env sizebytes type

/-- A message is read at most once. -/
theorem sum_scatterReads (sizebytes : ℕ) : (scatterReads sizebytes).sum = sizebytes := by
  have hdiv := Nat.div_add_mod sizebytes pageSize
  rw [scatterReads, List.sum_append, List.sum_replicate_nat, Nat.mul_comm]
  split
  · rename_i hzero
    rw [hzero] at hdiv
    simpa using hdiv
  · simpa using hdiv

theorem sum_habMsgAllocReads (env : RecvEnv) (sizebytes : ℕ) :
    (habMsgAllocReads env sizebytes).sum ≤ habHeaderSizeMax := by
  unfold habMsgAllocReads
  split
  · exact Nat.zero_le _
  · rename_i hmax
    have hle : sizebytes ≤ habHeaderSizeMax := Nat.le_of_not_lt hmax
    split
    · simpa using hle
    · split
      · rw [sum_scatterReads]
        exact hle
      · exact Nat.zero_le _

theorem sum_habMsgDropReads (env : RecvEnv) (sizebytes : ℕ) :
    (habMsgDropReads env sizebytes).sum ≤ habHeaderSizeMax := by
  unfold habMsgDropReads
  split
  · exact Nat.zero_le _
  · rename_i h
    simp only [not_or, not_lt] at h
    simpa using h.2.1

theorem sum_ite_le {c : Prop} [Decidable c] {reads : List ℕ} {m : ℕ}
    (h : ¬ c → reads.sum ≤ m) : (if c then [] else reads).sum ≤ m := by
  split
  · exact Nat.zero_le m
  · rename_i hc
    exact h hc

theorem sum_handlerReads (env : RecvEnv) {sizebytes : ℕ} {type : HabPayloadType}
    (hopen : type.isOpen = true → sizebytes = openSendDataSize) :
    (handlerReads env sizebytes type).sum ≤ habHeaderSizeMax := by
  have hsmall : type.isOpen = true → [sizebytes].sum ≤ habHeaderSizeMax := by
    intro h
    rw [hopen h]
    decide
  have hdesc : ¬ (habHeaderSizeMax < sizebytes ∨ sizebytes < exportDescSizeMin ∨
      env.alloc = false) → [sizebytes].sum ≤ habHeaderSizeMax := by
    intro h
    simp only [not_or, not_lt] at h
    simpa using h.1
  cases type with
  | msg => exact sum_habMsgAllocReads env sizebytes
  | scheResultReq => exact sum_habMsgAllocReads env sizebytes
  | scheResultRsp => exact sum_habMsgAllocReads env sizebytes
  | profile => exact sum_ite_le fun _ ↦ sum_habMsgAllocReads env sizebytes
  | scheMsg => exact sum_ite_le fun _ ↦ sum_habMsgAllocReads env sizebytes
  | scheMsgAck => exact sum_ite_le fun _ ↦ sum_habMsgAllocReads env sizebytes
  | init => exact sum_ite_le fun _ ↦ hsmall rfl
  | initAck => exact sum_ite_le fun _ ↦ hsmall rfl
  | initDone => exact sum_ite_le fun _ ↦ hsmall rfl
  | initCancel => exact hsmall rfl
  | «export» => exact sum_ite_le hdesc
  | importAck => exact sum_ite_le hdesc
  | exportAck =>
      refine sum_ite_le fun h ↦ ?_
      simp only [not_or, not_lt, exportAckSize] at h
      simp only [List.sum_singleton, habHeaderSizeMax]
      omega
  | close => exact Nat.zero_le _
  | «import» => exact show 12 ≤ habHeaderSizeMax by decide
  | importAckFail => exact show 4 ≤ habHeaderSizeMax by decide
  | unimport => exact show 4 ≤ habHeaderSizeMax by decide

/-- All reads for one message together ask for no more than the largest message. -/
theorem sum_habMsgRecvReads (env : RecvEnv) (header : HabHeader) :
    (habMsgRecvReads env header).sum ≤ habHeaderSizeMax := by
  simp only [habMsgRecvReads]
  split
  · split
    · exact Nat.zero_le _
    · exact sum_habMsgDropReads _ _
  · rename_i type _
    split
    · split
      · rename_i hsize
        exact sum_handlerReads env fun _ ↦ hsize
      · exact sum_habMsgDropReads _ _
    · rename_i hopen
      split
      · split
        · decide
        · exact sum_habMsgDropReads _ _
      · split
        · exact sum_habMsgDropReads _ _
        · exact sum_handlerReads env fun h ↦ absurd h hopen

/-! ## The transports -/

/-- One copy that `physical_channel_read` makes, of `length` bytes from `start` on, counted
from the first byte of the frame. -/
structure FrameCopy where
  requested : ℕ
  start : ℕ
  length : ℕ
deriving DecidableEq

/-- `vpc->read_size` and `vpc->read_offset` of the guest. -/
structure RxRead where
  readSize : UInt64
  readOffset : Int32

/-- `physical_channel_read` of `hab_virtio.c`, where `size_t` has 64 bits. -/
def RxRead.physicalChannelRead (rx : RxRead) (readSize : UInt64) : FrameCopy × RxRead :=
  let offset := rx.readOffset.toInt64.toUInt64
  let copied := if rx.readSize < readSize + 20 + offset then rx.readSize - offset - 20 else readSize
  (⟨readSize.toNat, (20 + offset).toNat, copied.toNat⟩,
    { rx with readOffset := rx.readOffset + copied.toUInt32.toInt32 })

def RxRead.copies : RxRead → List ℕ → List FrameCopy
  | _, [] => []
  | rx, n :: reads =>
      let next := rx.physicalChannelRead (UInt64.ofNat n)
      next.1 :: copies next.2 reads

/-- `out_iter` of the host: how far it has got in a frame of `count` bytes, the first
`readable` of which can be read without a fault. -/
structure OutIter where
  pos : ℕ
  count : ℕ
  readable : ℕ

/-- `copy_from_iter`: how many bytes it copies. -/
def OutIter.copyFromIter (iter : OutIter) (n : ℕ) : ℕ × OutIter :=
  let copied := min n (min iter.count iter.readable - iter.pos)
  (copied, { iter with pos := iter.pos + copied })

/-- `physical_channel_read` of `hab_vhost.c`. -/
def OutIter.physicalChannelRead (iter : OutIter) (readSize : ℕ) : FrameCopy × OutIter :=
  let next := iter.copyFromIter readSize
  (⟨readSize, iter.pos, next.1⟩, next.2)

def OutIter.copies : OutIter → List ℕ → List FrameCopy
  | _, [] => []
  | iter, n :: reads =>
      let next := iter.physicalChannelRead n
      next.1 :: copies next.2 reads

/-- What becomes of a frame: how many bytes of the header that `hab_msg_recv` is entered
with are the frame's, and what is copied meanwhile. -/
structure FrameHandling where
  headerBytes : ℕ
  copies : List FrameCopy

/-- `IN_BUF_SIZE`. -/
def inBufSize : ℕ := 5120

/-- What an input buffer of the guest holds. -/
structure Inbuf where
  mem : List UInt8
  size : mem.length = inBufSize

/-- A frame that arrives. -/
inductive Delivery where
  /-- In the guest: `inbuf` as it is now, returned by the peer as used for `len` bytes. -/
  | virtio (inbuf : Inbuf) (len : UInt32)
  /-- In the host, where `tx_worker` keeps `header` on its stack from frame to frame. -/
  | vhost (frame : List UInt8) (readable : ℕ) (header : List UInt8)

namespace Delivery

/-- How many bytes there are of the frame. -/
def length : Delivery → ℕ
  | virtio inbuf len => min len.toNat inbuf.mem.length
  | vhost frame _ _ => frame.length

/-- `virthab_recv_rxq` and `tx_worker`, up to the end of `hab_msg_recv`. -/
def handle (env : RecvEnv) : Delivery → Option FrameHandling
  | virtio inbuf len =>
      some
        { headerBytes := min headerSize len.toNat
          copies := (RxRead.mk (UInt64.ofNat len.toNat) 0).copies
            (habMsgRecvReads env (HabHeader.ofBytes inbuf.mem)) }
  | vhost frame readable header =>
      if frame.length = 0 then none
      else
        let next := (OutIter.mk 0 frame.length readable).copyFromIter headerSize
        let header := frame.take next.1 ++ header.drop next.1
        some
          { headerBytes := next.1
            copies := next.2.copies (habMsgRecvReads env (HabHeader.ofBytes header)) }

/-- The condition: the header can be taken from the frame, or the host has nothing to
look at; and in the guest the peer's length is no more than the buffer has, or nothing is
asked for from behind the buffer. -/
def Whole (env : RecvEnv) : Delivery → Prop
  | virtio inbuf len =>
      headerSize ≤ len.toNat ∧
        (len.toNat ≤ inBufSize ∨
          headerSize + (habMsgRecvReads env (HabHeader.ofBytes inbuf.mem)).sum ≤ inBufSize)
  | vhost frame readable _ => frame = [] ∨ headerSize ≤ min frame.length readable

end Delivery

/-- Copies that follow one another from `pos` on, within a frame of `len` bytes, and copy
no more than was asked for. -/
def CopiesWithin (len : ℕ) : ℕ → List FrameCopy → Prop
  | _, [] => True
  | pos, c :: copies =>
      c.start = pos ∧ c.length ≤ c.requested ∧ pos + c.length ≤ len ∧
        CopiesWithin len (pos + c.length) copies

/-- The header is the frame's, and the copies are its bytes after the header. -/
def FrameHandling.Confined (handling : FrameHandling) (len : ℕ) : Prop :=
  handling.headerBytes = headerSize ∧ CopiesWithin len headerSize handling.copies

/-! ### The guest -/

theorem toUInt64_ofNat {o : ℕ} (h : o < 2 ^ 31) :
    (Int32.ofNat o).toInt64.toUInt64 = UInt64.ofNat o := by
  have hmsb : (BitVec.ofNat 32 o).msb = false := by
    rw [BitVec.msb_eq_decide]
    simp only [BitVec.toNat_ofNat, decide_eq_false_iff_not, Nat.not_le]
    omega
  have hextend : ((Int32.ofNat o).toInt64.toUInt64).toBitVec = (BitVec.ofNat 32 o).signExtend 64 :=
    rfl
  apply UInt64.toBitVec_inj.mp
  rw [hextend, BitVec.signExtend_eq_setWidth_of_msb_false hmsb]
  apply BitVec.eq_of_toNat_eq
  simp only [BitVec.toNat_setWidth, BitVec.toNat_ofNat, UInt64.toBitVec_ofNat']
  omega

theorem readOffset_add (o n : ℕ) :
    Int32.ofNat o + (UInt64.ofNat n).toUInt32.toInt32 = Int32.ofNat (o + n) := by
  rw [Int32.ofNat_add]
  congr 1
  simp

/-- A read from a frame that is at least a header long, with what it has read so far. -/
theorem physicalChannelRead_eq {len o n : ℕ} (hlen : len < 2 ^ 32) (ho : headerSize + o ≤ len)
    (hmax : o + n ≤ habHeaderSizeMax) :
    RxRead.physicalChannelRead ⟨UInt64.ofNat len, Int32.ofNat o⟩ (UInt64.ofNat n) =
      (⟨n, headerSize + o, min n (len - headerSize - o)⟩,
        ⟨UInt64.ofNat len, Int32.ofNat (o + min n (len - headerSize - o))⟩) := by
  simp only [headerSize, habHeaderSizeMax] at ho hmax ⊢
  have hoffset : (Int32.ofNat o).toInt64.toUInt64 = UInt64.ofNat o := toUInt64_ofNat (by omega)
  have hcopied : (if UInt64.ofNat len < UInt64.ofNat n + 20 + UInt64.ofNat o
      then UInt64.ofNat len - UInt64.ofNat o - 20 else UInt64.ofNat n) =
        UInt64.ofNat (min n (len - 20 - o)) := by
    apply UInt64.toNat_inj.mp
    have hlt : (UInt64.ofNat len < UInt64.ofNat n + 20 + UInt64.ofNat o) ↔ len < n + 20 + o := by
      rw [UInt64.lt_iff_toNat_lt]
      simp only [UInt64.toNat_add, UInt64.toNat_ofNat', UInt64.reduceToNat]
      omega
    by_cases hshort : len < n + 20 + o
    · rw [if_pos (hlt.mpr hshort)]
      simp only [UInt64.toNat_sub, UInt64.toNat_ofNat', UInt64.reduceToNat]
      omega
    · rw [if_neg (fun h ↦ hshort (hlt.mp h))]
      simp only [UInt64.toNat_ofNat']
      omega
  have hfield : ∀ k : ℕ, k < 2 ^ 64 → (UInt64.ofNat k).toNat = k := by
    intro k hk
    rw [UInt64.toNat_ofNat', Nat.mod_eq_of_lt hk]
  have hstart : (20 + UInt64.ofNat o).toNat = 20 + o := by
    rw [UInt64.toNat_add, hfield o (by omega), show UInt64.toNat 20 = 20 from rfl]
    exact Nat.mod_eq_of_lt (by omega)
  simp only [RxRead.physicalChannelRead, hoffset, hcopied, readOffset_add, hstart,
    hfield n (by omega), hfield (min n (len - 20 - o)) (by omega)]

/-- In the guest the copies end at the peer's length or where nothing more is asked for,
whichever comes first; so they stay within `held` bytes exactly if one of the two does. -/
theorem copiesWithin_virtio {len held o : ℕ} {reads : List ℕ} (hlen : len < 2 ^ 32)
    (ho : headerSize + o ≤ min len held) (hmax : o + reads.sum ≤ habHeaderSizeMax) :
    CopiesWithin held (headerSize + o) (RxRead.copies ⟨UInt64.ofNat len, Int32.ofNat o⟩ reads) ↔
      len ≤ held ∨ headerSize + o + reads.sum ≤ held := by
  induction reads generalizing o with
  | nil =>
      refine iff_of_true trivial (.inr ?_)
      rw [List.sum_nil]
      omega
  | cons n reads ih =>
      rw [List.sum_cons] at hmax ⊢
      rw [RxRead.copies, physicalChannelRead_eq hlen (by omega) (by omega)]
      have hcopied : min n (len - headerSize - o) ≤ n := Nat.min_le_left _ _
      have hend : headerSize + o + min n (len - headerSize - o) = len ∨
          min n (len - headerSize - o) = n := by omega
      simp only [CopiesWithin, true_and, hcopied]
      by_cases hin : headerSize + o + min n (len - headerSize - o) ≤ held
      · have hnext := @ih (o + min n (len - headerSize - o)) (by omega) (by omega)
        rw [← Nat.add_assoc] at hnext
        rw [hnext, and_iff_right hin]
        omega
      · refine iff_of_false (fun h ↦ hin h.1) ?_
        omega

/-! ### The host -/

theorem copiesWithin_vhost {iter : OutIter} (hpos : iter.pos ≤ min iter.count iter.readable)
    (reads : List ℕ) : CopiesWithin iter.count iter.pos (iter.copies reads) := by
  induction reads generalizing iter with
  | nil => trivial
  | cons n reads ih =>
      have hle := Nat.min_le_right n (min iter.count iter.readable - iter.pos)
      have hend : iter.pos + min n (min iter.count iter.readable - iter.pos) ≤
          min iter.count iter.readable := by omega
      refine ⟨rfl, Nat.min_le_left _ _, ?_, ?_⟩
      · exact Nat.le_trans hend (Nat.min_le_left _ _)
      · exact @ih (iter.physicalChannelRead n).2 hend

/-! ## Both -/

/-- `hab_msg_recv` is entered with a header of the frame, and all that it reads is the
rest of the frame, exactly if the transport could take a whole header from it and the guest
does not read past the end of the input buffer. -/
theorem confined_iff (env : RecvEnv) (d : Delivery) :
    (∀ handling, d.handle env = some handling → handling.Confined d.length) ↔
      d.Whole env := by
  cases d with
  | virtio inbuf len =>
      simp only [Delivery.handle, Delivery.length, Delivery.Whole, Option.some.injEq, forall_eq',
        FrameHandling.Confined, inbuf.size, min_eq_left_iff]
      refine and_congr_right fun hheader ↦ ?_
      have hin : headerSize ≤ inBufSize := by decide
      have hiff := @copiesWithin_virtio len.toNat (min len.toNat inBufSize) 0
        (habMsgRecvReads env (HabHeader.ofBytes inbuf.mem)) len.toNat_lt
        (by omega) ((Nat.zero_add _).symm ▸ sum_habMsgRecvReads _ _)
      refine hiff.trans ?_
      omega
  | vhost frame readable header =>
      simp only [Delivery.handle, Delivery.length, Delivery.Whole]
      by_cases hempty : frame.length = 0
      · rw [if_pos hempty]
        refine ⟨fun _ ↦ Or.inl (List.length_eq_zero_iff.mp hempty), fun _ handling h ↦ ?_⟩
        cases h
      · rw [if_neg hempty]
        simp only [Option.some.injEq, forall_eq']
        constructor
        · intro h
          refine Or.inr ?_
          have hheader : min headerSize (min frame.length readable - 0) = headerSize := h.1
          exact min_eq_left_iff.mp hheader
        · intro h
          rcases h with hnil | h
          · exact absurd (List.length_eq_zero_iff.mpr hnil) hempty
          · have hheader : min headerSize (min frame.length readable - 0) = headerSize :=
              Nat.min_eq_left h
            refine ⟨hheader, ?_⟩
            have hpos : (OutIter.copyFromIter ⟨0, frame.length, readable⟩ headerSize).2.pos =
                headerSize := by
              rw [OutIter.copyFromIter, hheader, Nat.zero_add]
            have hwithin := @copiesWithin_vhost
              (OutIter.copyFromIter ⟨0, frame.length, readable⟩ headerSize).2 (by rw [hpos]; exact h)
            rw [hpos] at hwithin
            exact hwithin _

/-- An input buffer that has been filled with zeros. -/
def zeroInbuf : Inbuf := ⟨List.replicate inBufSize 0, List.length_replicate⟩

/-- A guest handles an empty frame with the header of an earlier one. -/
theorem not_forall_confined :
    ¬ ∀ (env : RecvEnv) (d : Delivery) (handling : FrameHandling),
      d.handle env = some handling → handling.Confined d.length := by
  intro h
  have hconfined := h ⟨true, false, true, true⟩ (.virtio zeroInbuf 0) _ rfl
  exact absurd hconfined.1 (by decide)

end Hab
