import Hab.Library.Channel
import Hab.VhostDelivery

/-!
# What a receiver has of a frame

`hab_msg_recv` is entered with the header of a frame and reads from the payload, one
`physical_channel_read` after the other.  A frame of a `SendNode` comes out as the header
that its sender stamped and as much of the payload as was asked for.
-/

namespace Hab

/-- A frame as one call of `hab_msg_recv` got it. -/
structure Received where
  env : RecvEnv
  header : List UInt8
  payload : List UInt8

namespace Received

/-- The call was entered with the header of this frame, and what it read is the frame's. -/
structure Reads (r : Received) (frame : List UInt8) : Prop where
  header : r.header = frame.take headerSize
  payload : r.payload = (frame.drop headerSize).take
    (habMsgRecvReads r.env (HabHeader.ofBytes frame)).sum

/-- The call got this message. -/
structure Gets (r : Received) (node : SendNode) : Prop where
  header : r.header = node.header.bytes
  payload : r.payload = node.payload.take (habMsgRecvReads r.env node.header.toHabHeader).sum

/-- In the middle of a call: so many bytes were asked for, and these reads are to come. -/
structure Reading (r : Received) (frame : List UInt8) (done : ℕ) (reads : List ℕ) : Prop where
  header : r.header = frame.take headerSize
  payload : r.payload = (frame.drop headerSize).take done
  total : done + reads.sum = (habMsgRecvReads r.env (HabHeader.ofBytes frame)).sum

end Received

theorem HabHeader.ofBytes_take (frame rest : List UInt8) (h : 8 ≤ frame.length) :
    HabHeader.ofBytes (frame ++ rest) = HabHeader.ofBytes frame := by
  have hword (off : ℕ) (hoff : off + 4 ≤ 8) :
      Bytes.word (frame ++ rest) off 4 = Bytes.word frame off 4 := by
    rw [← Bytes.word_take (k := frame.length) (by omega), List.take_left]
  rw [HabHeader.ofBytes, HabHeader.ofBytes, hword 0 (by omega), hword 4 (by omega)]

theorem SendNode.bytes_take (node : SendNode) :
    node.bytes.take headerSize = node.header.bytes ∧ node.bytes.drop headerSize = node.payload := by
  have hlen : node.header.bytes.length = headerSize := by
    rw [HabFullHeader.bytes, Bytes.length_layout]
    rfl
  exact ⟨List.take_left' hlen, List.drop_left' hlen⟩

def HabFullHeader.fields (header : HabFullHeader) : List (ℕ × ℕ) :=
  [(4, header.idType.toNat), (4, header.payloadSize.toNat), (4, header.sessionId.toNat),
    (4, header.signature.toNat), (4, header.sequence.toNat)]

/-- A field of 32 bits is found again at its offset. -/
theorem word_layout_uint32 {fields : List (ℕ × ℕ)} {i : ℕ} {x : UInt32}
    (h : fields[i]? = some (4, x.toNat)) (rest : List UInt8) :
    UInt32.ofNat
      ((Bytes.word (Bytes.layout fields ++ rest) (Bytes.size (fields.take i)) 4).getD 0) = x := by
  have hword := Bytes.word_layout h rest
  have hx : x.toNat % 256 ^ 4 = x.toNat := Nat.mod_eq_of_lt x.toNat_lt
  rw [hx] at hword
  rw [hword, Option.getD_some, UInt32.ofNat_toNat]

theorem SendNode.word_bytes (node : SendNode) {i : ℕ} {x : UInt32}
    (h : node.header.fields[i]? = some (4, x.toNat)) :
    UInt32.ofNat ((Bytes.word node.bytes (Bytes.size (node.header.fields.take i)) 4).getD 0) = x :=
  word_layout_uint32 h node.payload

theorem SendNode.ofBytes_bytes (node : SendNode) :
    HabHeader.ofBytes node.bytes = node.header.toHabHeader :=
  congrArg₂ HabHeader.mk (node.word_bytes (i := 0) rfl) (node.word_bytes (i := 1) rfl)

namespace Received

variable {r : Received} {frame : List UInt8} {done n : ℕ} {reads : List ℕ}

theorem Reads.gets {node : SendNode} (h : r.Reads node.bytes) : r.Gets node where
  header := h.header.trans node.bytes_take.1
  payload := by
    have hpayload := h.payload
    rw [node.bytes_take.2, node.ofBytes_bytes] at hpayload
    exact hpayload

namespace Reading

theorem start (env : RecvEnv) (frame : List UInt8) :
    Reading ⟨env, frame.take headerSize, []⟩ frame 0
      (habMsgRecvReads env (HabHeader.ofBytes frame)) :=
  ⟨rfl, List.take_zero.symm, Nat.zero_add _⟩

/-- A read that goes on where the last one ended. -/
theorem read (h : Reading r frame done (n :: reads)) {piece : List UInt8}
    (hpiece : piece = ((frame.drop headerSize).drop done).take n) :
    Reading { r with payload := r.payload ++ piece } frame (done + n) reads where
  header := h.header
  payload := by
    rw [h.payload, hpiece, List.take_add]
  total := by
    have htotal := h.total
    rw [List.sum_cons, ← Nat.add_assoc] at htotal
    exact htotal

theorem finish (h : Reading r frame done []) : r.Reads frame where
  header := h.header
  payload := by
    have htotal := h.total
    rw [List.sum_nil, Nat.add_zero] at htotal
    rw [h.payload, htotal]

/-- All reads of a call together are bounded. -/
theorem le_max (h : Reading r frame done reads) : done + reads.sum ≤ habHeaderSizeMax :=
  h.total.trans_le (sum_habMsgRecvReads _ _)

end Reading

end Received

end Hab
