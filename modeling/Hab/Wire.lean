import Hab.HeaderCodec
import Hab.ReceivedFrames
import Hab.VmCalls

/-!
# The messages of the opens and the vchans as frames

`hab_open_request_send`, `hab_vchan_send` and `hab_send_close_msg` fill in a header and
give it to `physical_channel_send` with a payload; `hab_msg_recv` takes both apart again.
What it has read of the payload depends on what it has found, and where it has not read
all of it, it drops the message.
-/

namespace Hab

/-! ## Payload types -/

def HabPayloadType.number : HabPayloadType → UInt32
  | .msg => 0
  | .init => 1
  | .initAck => 2
  | .initDone => 3
  | .export => 4
  | .exportAck => 5
  | .profile => 6
  | .close => 7
  | .initCancel => 8
  | .scheMsg => 9
  | .scheMsgAck => 10
  | .scheResultReq => 11
  | .scheResultRsp => 12
  | .import => 13
  | .importAck => 14
  | .importAckFail => 15
  | .unimport => 16

theorem HabPayloadType.ofNumber_number (type : HabPayloadType) : ofNumber type.number = some type := by
  cases type <;> rfl

theorem HabPayloadType.number_lt (type : HabPayloadType) : type.number < 256 := by
  cases type <;> decide

/-! ## Open requests -/

namespace HabOpenSendData

def fields (xdata : HabOpenSendData) : List (ℕ × ℕ) :=
  [(4, xdata.vchanId.toNat), (4, xdata.subId.toNat), (4, xdata.openId.toNat),
    (4, xdata.verFe.toNat), (4, xdata.verBe.toNat), (4, xdata.verProto.toNat)]

def bytes (xdata : HabOpenSendData) : List UInt8 := Bytes.layout xdata.fields

def ofBytes (mem : List UInt8) : HabOpenSendData where
  vchanId := UInt32.ofNat ((Bytes.word mem 0 4).getD 0)
  subId := UInt32.ofNat ((Bytes.word mem 4 4).getD 0)
  openId := UInt32.ofNat ((Bytes.word mem 8 4).getD 0)
  verFe := UInt32.ofNat ((Bytes.word mem 12 4).getD 0)
  verBe := UInt32.ofNat ((Bytes.word mem 16 4).getD 0)
  verProto := UInt32.ofNat ((Bytes.word mem 20 4).getD 0)

@[simp] theorem length_bytes (xdata : HabOpenSendData) : xdata.bytes.length = openSendDataSize := by
  rw [bytes, Bytes.length_layout]
  rfl

end HabOpenSendData

theorem HabOpenSendData.ofBytes_bytes (xdata : HabOpenSendData) : ofBytes xdata.bytes = xdata := by
  have hword (i : ℕ) (x : UInt32) (h : xdata.fields[i]? = some (4, x.toNat)) :
      UInt32.ofNat ((Bytes.word xdata.bytes (Bytes.size (xdata.fields.take i)) 4).getD 0) = x := by
    have hword := word_layout_uint32 h []
    rwa [List.append_nil] at hword
  rw [ofBytes]
  congr
  · exact hword 0 _ rfl
  · exact hword 1 _ rfl
  · exact hword 2 _ rfl
  · exact hword 3 _ rfl
  · exact hword 4 _ rfl
  · exact hword 5 _ rfl

/-! ## Headers -/

def HabFullHeader.ofBytes (mem : List UInt8) : HabFullHeader where
  toHabHeader := HabHeader.ofBytes mem
  sessionId := UInt32.ofNat ((Bytes.word mem 8 4).getD 0)
  signature := UInt32.ofNat ((Bytes.word mem 12 4).getD 0)
  sequence := UInt32.ofNat ((Bytes.word mem 16 4).getD 0)

theorem HabFullHeader.ofBytes_bytes (header : HabFullHeader) : ofBytes header.bytes = header := by
  have hword (i : ℕ) (x : UInt32) (h : header.fields[i]? = some (4, x.toNat)) :
      UInt32.ofNat ((Bytes.word header.bytes (Bytes.size (header.fields.take i)) 4).getD 0) = x := by
    have hword := word_layout_uint32 h []
    rwa [List.append_nil] at hword
  rw [ofBytes, HabHeader.ofBytes]
  congr
  · exact hword 0 _ rfl
  · exact hword 1 _ rfl
  · exact hword 2 _ rfl
  · exact hword 3 _ rfl
  · exact hword 4 _ rfl

/-! ## Messages -/

namespace HabMsg

/-- `HAB_HEADER_INITIALIZER` with what the sender sets. -/
def header : HabMsg → HabFullHeader
  | .request type _ =>
      { toHabHeader := HabHeader.setType ⟨0, UInt32.ofNat openSendDataSize⟩ type.number
        sessionId := 0
        signature := 0
        sequence := 0 }
  | .data id sessionId message =>
      { toHabHeader :=
          (HabHeader.setType ⟨0, UInt32.ofNat message.data.length⟩ message.type.number).setId
            (UInt32.ofNat id)
        sessionId
        signature := 0
        sequence := 0 }
  | .close id sessionId =>
      { toHabHeader := (HabHeader.setType ⟨0, 0⟩ HabPayloadType.close.number).setId (UInt32.ofNat id)
        sessionId
        signature := 0
        sequence := 0 }

def payload : HabMsg → List UInt8
  | .request _ xdata => xdata.bytes
  | .data _ _ message => message.data
  | .close _ _ => []

/-- What `hab_msg_recv` does by the opens and the vchans for a message with this header,
and with this payload read.  The other types are those of exports and imports. -/
def decode (header : HabFullHeader) (payload : List UInt8) : Option HabMsg :=
  match HabPayloadType.ofNumber header.getType with
  | none => none
  | some type =>
      if type.isOpen then
        if header.payloadSize.toNat = openSendDataSize then
          some (.request type (.ofBytes payload))
        else none
      else if type = .close then some (.close (habVcidGetId header.getId) header.sessionId)
      else if (habVchanSendMin type).isSome then
        some (.data (habVcidGetId header.getId) header.sessionId ⟨type, payload⟩)
      else none

/-- A message as the senders make them. -/
def Sound : HabMsg → Prop
  | .request type _ => type.isOpen = true
  | .data _ _ message => message.Sendable
  | .close _ _ => True

/-- No time stamp is put into it on its way. -/
def Plain : HabMsg → Prop
  | .data _ _ message => message.type ≠ .profile
  | _ => True

variable {msg : HabMsg}

/-- The payload type that a message travels under. -/
def type : HabMsg → HabPayloadType
  | .request type _ => type
  | .data _ _ message => message.type
  | .close _ _ => .close

theorem getType_header (msg : HabMsg) : msg.header.getType = msg.type.number := by
  cases msg with
  | request type xdata => exact HabHeader.getType_setType _ type.number_lt
  | data id sessionId message =>
      exact (HabHeader.getType_setId _ _).trans (HabHeader.getType_setType _ message.type.number_lt)
  | close id sessionId =>
      exact (HabHeader.getType_setId _ _).trans (HabHeader.getType_setType _ (by decide))

theorem length_le_of_sound (h : msg.Sound) : msg.payload.length ≤ habHeaderSizeMax := by
  cases msg with
  | request type xdata =>
      rw [payload, HabOpenSendData.length_bytes]
      decide
  | data id sessionId message => exact h.1
  | close id sessionId => exact Nat.zero_le _

theorem payloadSize_header (h : msg.Sound) : msg.header.payloadSize.toNat = msg.payload.length := by
  have hlen := length_le_of_sound h
  have hmax : habHeaderSizeMax < 2 ^ 32 := by decide
  have hsize (n : ℕ) (hn : n < 2 ^ 32) : (UInt32.ofNat n).toNat = n := by
    rw [UInt32.toNat_ofNat', Nat.mod_eq_of_lt hn]
  cases msg with
  | request type xdata =>
      rw [payload, HabOpenSendData.length_bytes]
      rfl
  | data id sessionId message => exact hsize _ (Nat.lt_of_le_of_lt hlen hmax)
  | close id sessionId => rfl

theorem getId_header (id : Fin 4096) (header : HabHeader) :
    habVcidGetId (header.setId (UInt32.ofNat id)).getId = id := by
  rw [HabHeader.getId_setId, habVcidGetId_ofNat, habVcidGetId_ofNat]

theorem not_isOpen_of_sendable {message : Message} (h : message.Sendable) :
    ¬ message.type.isOpen = true := by
  obtain ⟨-, least, hleast, -⟩ := h
  intro hopen
  cases htype : message.type <;> rw [htype] at hopen hleast <;> cases hopen <;> cases hleast

theorem decode_data {id : Fin 4096} {sessionId : UInt32} {message : Message}
    (h : message.Sendable) (payload : List UInt8) :
    decode (header (.data id sessionId message)) payload =
      some (.data id sessionId ⟨message.type, payload⟩) := by
  have hopen := not_isOpen_of_sendable h
  obtain ⟨-, least, hleast, -⟩ := h
  have hid := getId_header id
    (HabHeader.setType ⟨0, UInt32.ofNat message.data.length⟩ message.type.number)
  have hclose : message.type ≠ .close := by
    intro hclose
    rw [hclose] at hleast
    cases hleast
  rw [decode, getType_header, HabPayloadType.ofNumber_number]
  dsimp only
  rw [HabMsg.type, if_neg hopen, if_neg hclose, if_pos (Option.isSome_of_eq_some hleast), header, hid]

/-- A sound message is found again in its header and its payload. -/
theorem decode_header (h : msg.Sound) : decode msg.header msg.payload = some msg := by
  cases msg with
  | request type xdata =>
      have hopen : type.isOpen = true := h
      have hsize := payloadSize_header h
      rw [payload, HabOpenSendData.length_bytes] at hsize
      rw [decode, getType_header, HabPayloadType.ofNumber_number]
      dsimp only
      rw [HabMsg.type, if_pos hopen, if_pos hsize, payload, HabOpenSendData.ofBytes_bytes]
  | data id sessionId message => exact decode_data h message.data
  | close id sessionId =>
      have hid := getId_header id (HabHeader.setType ⟨0, 0⟩ HabPayloadType.close.number)
      rw [decode, getType_header, HabPayloadType.ofNumber_number]
      dsimp only
      rw [HabMsg.type, if_neg (by decide), if_pos rfl, header, hid]

/-- Whether a message is one of these does not depend on what was read of it. -/
theorem decode_eq_none_congr {header header' : HabFullHeader} (htype : header.getType = header'.getType)
    (hsize : header.payloadSize = header'.payloadSize) {payload payload' : List UInt8}
    (h : decode header payload = none) : decode header' payload' = none := by
  rw [decode, htype, hsize] at h
  rw [decode]
  split
  next => rfl
  next type heq =>
    rw [heq] at h
    dsimp only at h
    split_ifs at h ⊢ <;> rfl

end HabMsg

/-! ## Frames -/

/-- The node that a sender makes of the message. -/
def SendNode.IsFor (node : SendNode) (msg : HabMsg) : Prop :=
  node.header = msg.header ∧ node.payload = msg.payload

instance (node : SendNode) (msg : HabMsg) : Decidable (node.IsFor msg) :=
  inferInstanceAs (Decidable (_ ∧ _))

/-- The senders fill in the size, and check that a profiling message has room for the time
stamps. -/
def HabMsg.node (msg : HabMsg) (h : msg.Sound) : SendNode where
  header := msg.header
  payload := msg.payload
  sized := (payloadSize_header h).symm
  profiled := by
    intro hprofile
    rw [getType_header] at hprofile
    cases msg with
    | request type xdata =>
        have hopen : type.isOpen = true := h
        cases type <;> cases hopen <;> cases hprofile
    | data id sessionId message =>
        obtain ⟨-, least, hleast, hle⟩ := h
        have htype : message.type = .profile := by
          cases hmessage : message.type <;> rw [type, hmessage] at hprofile <;> first
            | rfl
            | cases hprofile
        rw [htype] at hleast
        cases hleast
        exact hle
    | close id sessionId => cases hprofile

/-- What a node says to the opens and the vchans. -/
def SendNode.habMsg (node : SendNode) : Option HabMsg := HabMsg.decode node.header node.payload

/-- `hab_msg_recv`, when all of its reads are done. -/
def HabVm.habMsgRecv (vm : HabVm) (pchan : HabPchan) (env : Env) (r : Received) : HabVm :=
  match HabMsg.decode (.ofBytes r.header) r.payload with
  | none => vm
  | some msg => vm.receive pchan env msg

/-- What the call found when it was entered is still so when it has read the message, and it
got the memory it asked for. -/
structure Received.Agrees (r : Received) (vm : HabVm) (pchan : HabPchan) (env : Env) : Prop where
  vchan : r.env.vchan = (vm.vchanGet pchan (habVcidGetId (HabFullHeader.ofBytes r.header).getId)
    (HabFullHeader.ofBytes r.header).sessionId).isSome
  otherendClosed : r.env.otherendClosed = false
  alloc : r.env.alloc = true
  queued : env.alloc = true

section Recv

variable {node : SendNode} {msg : HabMsg} {sequence : UInt32} {clock : RxClock} {r : Received}
  {vm : HabVm} {pchan : HabPchan} {env : Env}

theorem SendNode.IsFor.habMsg (h : node.IsFor msg) (hsound : msg.Sound) :
    node.habMsg = some msg := by
  rw [SendNode.habMsg, h.1, h.2, HabMsg.decode_header hsound]

/-- The stamps change nothing that decides what a message is. -/
theorem Received.Gets.ofBytes_header (h : r.Gets (node.stamp sequence clock)) :
    HabFullHeader.ofBytes r.header =
      { node.header with sequence, signature := habHeadSignature } := by
  rw [h.header, HabFullHeader.ofBytes_bytes]
  rfl

theorem HabMsg.Plain.ne_profile (h : msg.Plain) (hsound : msg.Sound) : msg.type ≠ .profile := by
  cases msg with
  | request type xdata =>
      rintro hprofile
      have hopen : type.isOpen = true := hsound
      rw [show type = .profile from hprofile] at hopen
      cases hopen
  | data id sessionId message => exact h
  | close id sessionId => exact HabPayloadType.noConfusion

theorem SendNode.IsFor.stampedPayload (h : node.IsFor msg) (hsound : msg.Sound)
    (hplain : msg.Plain) : node.stampedPayload clock = msg.payload := by
  rw [SendNode.stampedPayload, if_neg, h.2]
  intro hprofile
  rw [h.1, HabMsg.getType_header] at hprofile
  have htype := HabPayloadType.ofNumber_number msg.type
  rw [hprofile] at htype
  exact hplain.ne_profile hsound (Option.some.inj htype).symm

/-- The reads of a call that finds what it needs make up the payload, except where the
handler does without it. -/
theorem Received.Gets.payload_eq (h : r.Gets (node.stamp sequence clock)) (hfor : node.IsFor msg)
    (hsound : msg.Sound) (hplain : msg.Plain) :
    r.payload = msg.payload.take (habMsgRecvReads r.env msg.header.toHabHeader).sum := by
  have hpayload := h.payload
  have hheader : (node.stamp sequence clock).header.toHabHeader = msg.header.toHabHeader := by
    rw [← hfor.1]
    rfl
  have hstamped : (node.stamp sequence clock).payload = msg.payload :=
    hfor.stampedPayload hsound hplain
  rwa [hheader, hstamped] at hpayload

theorem handlerReads_of_isOpen {renv : RecvEnv} (halloc : renv.alloc = true) {type : HabPayloadType}
    (h : type.isOpen = true) (sizebytes : ℕ) : handlerReads renv sizebytes type = [sizebytes] := by
  cases type <;> simp_all [HabPayloadType.isOpen, handlerReads]

/-- The reads for a data message: all of it, unless it is too short for its type. -/
theorem handlerReads_of_sendable {renv : RecvEnv} (halloc : renv.alloc = true) {message : Message}
    (h : message.Sendable) (hplain : message.type ≠ .profile) :
    handlerReads renv message.data.length message.type = [message.data.length] ∨
      (message.type = .scheMsg ∨ message.type = .scheMsgAck) ∧ message.data.length < 8 ∧
        handlerReads renv message.data.length message.type = [] := by
  obtain ⟨hmax, least, hleast, -⟩ := h
  have hall : habMsgAllocReads renv message.data.length = [message.data.length] := by
    rw [habMsgAllocReads, if_neg (Nat.not_lt.mpr hmax), if_pos halloc]
  cases htype : message.type <;> rw [htype] at hleast hplain <;> cases hleast
  case msg | scheResultReq | scheResultRsp => exact .inl hall
  case profile => exact absurd rfl hplain
  case scheMsg | scheMsgAck =>
    by_cases hshort : message.data.length < 8
    · exact .inr ⟨by simp, hshort, if_pos hshort⟩
    · exact .inl ((if_neg hshort).trans hall)

/-- A message for a vchan that is not there has no effect. -/
theorem HabVm.receive_data_of_vchanGet_eq_none {id : Fin 4096} {sessionId : UInt32}
    (h : vm.vchanGet pchan id sessionId = none) (message : Message) :
    vm.receive pchan env (.data id sessionId message) = vm := by
  simp only [HabVm.receive, h]

/-- A message that is too short for its type is dropped, read or not. -/
theorem Message.received_of_length_lt {type : HabPayloadType} (hsche : type = .scheMsg ∨
    type = .scheMsgAck) {data : List UInt8} (hdata : data.length < 8) (clock : List UInt8) :
    (Message.mk type data).received clock = none := by
  have hmax : ¬ habHeaderSizeMax < data.length := by
    have hle : 8 ≤ habHeaderSizeMax := by decide
    omega
  rcases hsche with rfl | rfl <;> simp only [Message.received, if_neg hmax, if_pos hdata]

/-- `hab_msg_recv` hands a sound message on as it was sent. -/
theorem HabVm.habMsgRecv_eq (hfor : node.IsFor msg) (hsound : msg.Sound) (hplain : msg.Plain)
    (hgets : r.Gets (node.stamp sequence clock)) (hagrees : r.Agrees vm pchan env) :
    vm.habMsgRecv pchan env r = vm.receive pchan env msg := by
  have hheader := hgets.ofBytes_header
  have hpayload := hgets.payload_eq hfor hsound hplain
  have hsize := HabMsg.payloadSize_header hsound
  have hmax : ¬ habHeaderSizeMax < msg.payload.length :=
    Nat.not_lt.mpr (HabMsg.length_le_of_sound hsound)
  have hdecode (payload : List UInt8) :
      HabMsg.decode (.ofBytes r.header) payload = HabMsg.decode msg.header payload := by
    rw [hheader, ← hfor.1]
    rfl
  have hreads : habMsgRecvReads r.env msg.header.toHabHeader =
      if msg.type.isOpen then
        if msg.payload.length = openSendDataSize then handlerReads r.env msg.payload.length msg.type
        else habMsgDropReads r.env msg.payload.length
      else if ¬ r.env.vchan then
        if msg.type = .unimport then [4] else habMsgDropReads r.env msg.payload.length
      else handlerReads r.env msg.payload.length msg.type := by
    rw [habMsgRecvReads, HabMsg.getType_header, HabPayloadType.ofNumber_number, hsize]
    simp only [hagrees.otherendClosed, Bool.false_eq_true, if_false]
  have hwhole (hsum : (habMsgRecvReads r.env msg.header.toHabHeader).sum = msg.payload.length) :
      vm.habMsgRecv pchan env r = vm.receive pchan env msg := by
    rw [hsum, List.take_length] at hpayload
    rw [HabVm.habMsgRecv, hdecode, hpayload, HabMsg.decode_header hsound]
  cases msg with
  | request type xdata =>
      apply hwhole
      have hopen : type.isOpen = true := hsound
      rw [hreads, HabMsg.type, HabMsg.payload, HabOpenSendData.length_bytes, if_pos hopen,
        if_pos rfl]
      rw [handlerReads_of_isOpen hagrees.alloc hopen, List.sum_singleton]
  | close id sessionId =>
      have hnil : r.payload = [] := hpayload.trans List.take_nil
      rw [HabVm.habMsgRecv, hdecode, hnil]
      have hclose := HabMsg.decode_header hsound
      rw [HabMsg.payload] at hclose
      rw [hclose]
  | data id sessionId message =>
      have hmessage : message.Sendable := hsound
      have hrecv : vm.habMsgRecv pchan env r =
          vm.receive pchan env (.data id sessionId ⟨message.type, r.payload⟩) := by
        rw [HabVm.habMsgRecv, hdecode, HabMsg.decode_data hmessage]
      have hvchan : r.env.vchan = (vm.vchanGet pchan id sessionId).isSome := by
        have hfound := hagrees.vchan
        rw [hheader, hfor.1] at hfound
        rw [hfound]
        exact congrArg (fun i ↦ (vm.vchanGet pchan i sessionId).isSome) (HabMsg.getId_header id _)
      cases hfind : vm.vchanGet pchan id sessionId with
      | none => rw [hrecv, receive_data_of_vchanGet_eq_none hfind,
          receive_data_of_vchanGet_eq_none hfind]
      | some v =>
          rw [hfind, Option.isSome_some] at hvchan
          have hclosed : ¬ message.type.isOpen = true := HabMsg.not_isOpen_of_sendable hmessage
          rw [HabMsg.type, if_neg hclosed, if_neg (not_not_intro hvchan)] at hreads
          rcases handlerReads_of_sendable hagrees.alloc hmessage hplain with hall | ⟨hsche, hshort, hnone⟩
          · apply hwhole
            rw [hreads]
            exact (congrArg List.sum hall).trans (List.sum_singleton)
          · -- the handler reads nothing of a message that is shorter than a time stamp
            have hnil : r.payload = [] := by
              rw [hpayload, hreads]
              exact (congrArg (fun reads : List ℕ ↦ message.data.take reads.sum) hnone).trans
                List.take_zero
            rw [hrecv, hnil]
            simp only [HabVm.receive, hfind]
            rw [Message.received_of_length_lt hsche (by decide),
              Message.received_of_length_lt hsche hshort]

/-- A message of another type has no effect here. -/
theorem HabVm.habMsgRecv_of_habMsg_eq_none (h : node.habMsg = none)
    (hgets : r.Gets (node.stamp sequence clock)) : vm.habMsgRecv pchan env r = vm := by
  have hnone : HabMsg.decode (.ofBytes r.header) r.payload = none := by
    rw [hgets.ofBytes_header]
    exact HabMsg.decode_eq_none_congr rfl rfl h
  rw [HabVm.habMsgRecv, hnone]

end Recv

namespace HabVm

variable {vm vm' : HabVm} {i : ℕ} {env : Env} {call : Call} {act : VmAct}
  {out : List (HabPchan × HabMsg)} {msg : HabMsg}

theorem Advance.sound_out (hsound : vm.CallsSound) (hi : vm.calls.get i = some call)
    (h : vm.Advance i env call vm' out) (hmsg : msg ∈ out.map Prod.snd) : msg.Sound := by
  cases h
  case frontInit | frontCancel | frontAccept | roundAck | roundCancel =>
    rw [List.mem_singleton.mp hmsg]
    rfl
  case roundRetry r recv hout =>
    rcases hout with rfl | rfl
    · cases hmsg
    · rw [List.mem_singleton.mp hmsg]
      rfl
  case sent v message nonblocking =>
    rw [List.mem_singleton.mp hmsg]
    exact hsound i _ hi
  case closeSent v hopen =>
    rw [List.mem_singleton.mp hmsg]
    trivial
  all_goals cases hmsg

/-- What a VM sends are the messages that its peer understands. -/
theorem Step.sound_out (hsound : vm.CallsSound) (h : vm.Step env act vm' out)
    (hmsg : msg ∈ out.map Prod.snd) : msg.Sound := by
  cases h
  case advances i call hi hadvance => exact hadvance.sound_out hsound hi hmsg
  all_goals cases hmsg

end HabVm

end Hab
