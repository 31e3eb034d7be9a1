import Hab.ReceivedFrames

/-!
# The worker of the host as a channel

With input buffers of `IN_BUF_SIZE` bytes each message of `send_list` needs one turn of
the loop in `rx_send_one_node_locked`, and is never begun again.
-/

namespace Hab

/-- The buffers that an event makes available. -/
def RxEvent.bufs : RxEvent → List RxBuffer
  | .addBuffers bufs => bufs
  | _ => []

namespace VhostRx

/-- `vhost_exceeds_weight(vq, 0, total_len)`. -/
def vhostExceedsWeight (totalLen : ℕ) : Bool := decide (vhostHabWeight ≤ totalLen)

/-- The messages of which nothing is copied yet. -/
def unsent (s : VhostRx) : List SendNode :=
  match s.worker with
  | .sending data _ => if data = 0 then s.sendList else s.sendList.tail
  | _ => s.sendList

/-- The frame that the `k`-th message becomes. -/
def Stamped (sequence : UInt32) (k : ℕ) (node : SendNode) (frame : List UInt8) : Prop :=
  ∃ clock, frame = (node.stamp (sequence + UInt32.ofNat (k + 1)) clock).bytes

def channel (s : VhostRx) : Channel.State SendNode (List UInt8) := ⟨s.queued, s.unsent, s.used⟩

/-- Every message fits in every buffer, and a message that was begun is copied whole. -/
structure Roomy (sequence : UInt32) (s : VhostRx) : Prop where
  nodes : ∀ node ∈ s.sendList, node.payload.length ≤ inBufSize - headerSize
  bufs : ∀ buf ∈ s.avail, buf.inLen = inBufSize ∧ buf.outLen = 0
  turn : ∀ data totalLen, s.worker = .sending data totalLen → data = 0 ∧ totalLen = 0 ∨
    ∃ node rest, s.sendList = node :: rest ∧ data = node.bytes.length
  sequenceTx : s.sequenceTx = sequence + UInt32.ofNat s.used.length

/-- A step other than a turn with a buffer. -/
structure Quiet (s t : VhostRx) (bufs : List RxBuffer) : Prop where
  used : t.used = s.used
  avail : t.avail = s.avail ++ bufs

/-- A turn writes one frame to the next buffer. -/
structure Fills (s t : VhostRx) (frame : List UInt8) : Prop where
  used : t.used = s.used ++ [frame]
  avail : ∃ buf, s.avail = buf :: t.avail
  header : headerSize ≤ frame.length
  fits : frame.length ≤ inBufSize

variable {sequence : UInt32} {s t : VhostRx}

theorem roomy_start (sequence : UInt32) : Roomy sequence (start sequence) where
  nodes := fun _ h ↦ by cases h
  bufs := fun _ h ↦ by cases h
  turn := fun _ _ h ↦ RxWorker.noConfusion h
  sequenceTx := (UInt32.add_zero sequence).symm

theorem unsent_sending_zero {totalLen : ℕ} (h : s.worker = .sending 0 totalLen) :
    s.unsent = s.sendList := by
  rw [unsent, h]
  exact if_pos rfl

theorem unsent_sending_pos {data totalLen : ℕ} (h : s.worker = .sending data totalLen)
    (hdata : data ≠ 0) : s.unsent = s.sendList.tail := by
  rw [unsent, h]
  exact if_neg hdata

/-- The state after a turn that had a buffer for the whole message. -/
def sent (s : VhostRx) (clock : RxClock) (node : SendNode) (rest : List SendNode)
    (bufs : List RxBuffer) : VhostRx :=
  let stamped := node.stamp (s.sequenceTx + 1) clock
  { s with
    sendList := stamped :: rest
    avail := bufs
    sequenceTx := s.sequenceTx + 1
    used := s.used ++ [stamped.bytes]
    worker := .sending stamped.bytes.length inBufSize }

theorem sendTurn_nil (havail : s.avail = []) (clock : RxClock) (node : SendNode)
    (rest : List SendNode) (data totalLen : ℕ) :
    s.sendTurn vhostExceedsWeight clock node rest data totalLen = { s with worker := .idle } := by
  rw [sendTurn, havail]

theorem sendTurn_cons {buf : RxBuffer} {bufs : List RxBuffer} (havail : s.avail = buf :: bufs)
    (hbuf : buf.inLen = inBufSize ∧ buf.outLen = 0) (clock : RxClock) {node : SendNode}
    (hnode : node.payload.length ≤ inBufSize - headerSize) (rest : List SendNode) :
    s.sendTurn vhostExceedsWeight clock node rest 0 0 = s.sent clock node rest bufs := by
  have hlen : (node.stamp (s.sequenceTx + 1) clock).bytes.length ≤ inBufSize := by
    rw [SendNode.length_bytes_stamp, SendNode.length_bytes]
    simp only [inBufSize, headerSize] at hnode ⊢
    omega
  have hweight : vhostExceedsWeight (inBufSize + 0) = false := by decide
  rw [sendTurn, havail]
  simp only [hbuf.1, hbuf.2, List.drop_zero, List.take_of_length_le hlen, Nat.zero_add, hweight]
  rfl

section Work

variable {node : SendNode} {rest : List SendNode}

theorem work_begin (hworker : s.worker = .looking) (hlist : s.sendList = node :: rest)
    (clock : RxClock) : s.step vhostExceedsWeight (.work clock) =
      some { s with worker := .sending 0 0 } := by
  rw [VhostRx.step, workStep, hworker]
  dsimp only
  rw [hlist]
  rfl

theorem work_sent {buf : RxBuffer} {bufs : List RxBuffer} (hworker : s.worker = .sending 0 0)
    (hlist : s.sendList = node :: rest) (havail : s.avail = buf :: bufs)
    (hbuf : buf.inLen = inBufSize ∧ buf.outLen = 0)
    (hnode : node.payload.length ≤ inBufSize - headerSize) (clock : RxClock) :
    s.step vhostExceedsWeight (.work clock) = some (s.sent clock node rest bufs) := by
  rw [VhostRx.step, workStep, hworker]
  dsimp only
  rw [hlist]
  dsimp only
  rw [if_pos node.length_bytes_pos, sendTurn_cons havail hbuf clock hnode]

theorem work_done {totalLen : ℕ} (hworker : s.worker = .sending node.bytes.length totalLen)
    (hlist : s.sendList = node :: rest) (clock : RxClock) :
    s.step vhostExceedsWeight (.work clock) =
      some { s with sendList := rest, worker := .looking } := by
  rw [VhostRx.step, workStep, hworker]
  dsimp only
  rw [hlist]
  exact if_neg (Nat.lt_irrefl _)

theorem work_stop (hworker : s.worker = .looking) (hlist : s.sendList = []) (clock : RxClock) :
    s.step vhostExceedsWeight (.work clock) = some { s with worker := .idle } := by
  rw [VhostRx.step, workStep, hworker]
  dsimp only
  rw [hlist]
  rfl

end Work

/-- A message for which there is a buffer is written to it whole. -/
theorem Roomy.sent (h : Roomy sequence s) {node : SendNode} {rest : List SendNode}
    (hworker : s.worker = .sending 0 0) (hlist : s.sendList = node :: rest) (clock : RxClock)
    {buf : RxBuffer} {bufs : List RxBuffer} (havail : s.avail = buf :: bufs) :
    Roomy sequence (s.sent clock node rest bufs) ∧
      Channel.Step (Stamped sequence) s.channel (s.sent clock node rest bufs).channel ∧
      ∃ frame, Fills s (s.sent clock node rest bufs) frame := by
  have hnode := h.nodes node (hlist ▸ List.mem_cons_self)
  have hpos : (node.stamp (s.sequenceTx + 1) clock).bytes.length ≠ 0 :=
    (SendNode.length_bytes_pos _).ne'
  refine ⟨⟨?_, ?_, ?_, ?_⟩, ?_, _, rfl, ⟨buf, havail⟩, ?_, ?_⟩
  · intro node' hmem
    rcases List.mem_cons.mp hmem with rfl | hmem
    · exact (node.length_stampedPayload clock).trans_le hnode
    · exact h.nodes node' (hlist ▸ List.mem_cons_of_mem node hmem)
  · intro buf' hmem
    exact h.bufs buf' (havail ▸ List.mem_cons_of_mem buf hmem)
  · intro data totalLen hsending
    cases hsending
    exact .inr ⟨_, rest, rfl, rfl⟩
  · have hlen : (s.sent clock node rest bufs).used.length = s.used.length + 1 := by
      rw [VhostRx.sent, List.length_append, List.length_singleton]
    rw [hlen, UInt32.ofNat_add, ← UInt32.add_assoc, ← h.sequenceTx]
    rfl
  · have hstamped : Stamped sequence s.used.length node
        (node.stamp (s.sequenceTx + 1) clock).bytes := by
      refine ⟨clock, ?_⟩
      rw [h.sequenceTx, UInt32.ofNat_add, ← UInt32.add_assoc]
      rfl
    have hflying : s.channel.flying = node :: rest := (unsent_sending_zero hworker).trans hlist
    have hafter : (s.sent clock node rest bufs).unsent = rest := unsent_sending_pos rfl hpos
    have hnext := Channel.Step.deliver node rest _ hflying hstamped
    rw [channel, channel, hafter]
    exact hnext
  · rw [SendNode.length_bytes_stamp, SendNode.length_bytes]
    exact Nat.le_add_right _ _
  · rw [SendNode.length_bytes_stamp, SendNode.length_bytes]
    simp only [inBufSize, headerSize] at hnode ⊢
    omega

/-- A message that the host accepts is the last of those of which nothing is copied. -/
theorem Roomy.unsent_concat (h : Roomy sequence s) (node : SendNode) :
    VhostRx.unsent { s with
      queued := s.queued ++ [node], sendList := s.sendList ++ [node] } = s.unsent ++ [node] := by
  cases hworker : s.worker with
  | idle | looking => simp only [unsent, hworker]
  | sending data totalLen =>
      rcases h.turn data totalLen hworker with ⟨rfl, -⟩ | ⟨head, rest, hlist, rfl⟩
      · rw [unsent_sending_zero hworker, unsent_sending_zero rfl]
      · have hpos := head.length_bytes_pos.ne'
        rw [unsent_sending_pos hworker hpos, unsent_sending_pos rfl hpos, hlist]
        rfl

theorem Roomy.concat (h : Roomy sequence s) {node : SendNode}
    (hsize : node.payload.length ≤ inBufSize - headerSize) :
    Roomy sequence { s with
      queued := s.queued ++ [node], sendList := s.sendList ++ [node] } := by
  refine ⟨?_, h.bufs, ?_, h.sequenceTx⟩
  · intro node' hmem
    rcases List.mem_append.mp hmem with hmem | hmem
    · exact h.nodes node' hmem
    · rw [List.mem_singleton.mp hmem]
      exact hsize
  · intro data totalLen hworker
    rcases h.turn data totalLen hworker with hzero | ⟨head, rest, hlist, hdata⟩
    · exact .inl hzero
    · exact .inr ⟨head, rest ++ [node], by simp [hlist], hdata⟩

/-- The worker stops where there is nothing to send, or no buffer for it. -/
theorem Roomy.stopped (h : Roomy sequence s) : Roomy sequence { s with worker := .idle } :=
  ⟨h.nodes, h.bufs, fun _ _ hidle ↦ RxWorker.noConfusion hidle, h.sequenceTx⟩

/-- It looks at the list again. -/
theorem Roomy.looked (h : Roomy sequence s) :
    Roomy sequence
        { s with worker := if s.sendList.isEmpty then .idle else .sending 0 0 } ∧
      VhostRx.unsent { s with worker := if s.sendList.isEmpty then .idle else .sending 0 0 } =
        s.sendList := by
  refine ⟨⟨h.nodes, h.bufs, ?_, h.sequenceTx⟩, ?_⟩
  · intro data totalLen hsending
    dsimp only at hsending
    split at hsending <;> cases hsending
    exact .inl ⟨rfl, rfl⟩
  · rw [unsent]
    split
    next data totalLen hsending =>
      dsimp only at hsending
      split at hsending <;> cases hsending
      exact if_pos rfl
    next => rfl

/-- A message that has been copied whole leaves the list. -/
theorem Roomy.done (h : Roomy sequence s) {node : SendNode} {rest : List SendNode}
    (hlist : s.sendList = node :: rest) :
    Roomy sequence { s with sendList := rest, worker := .looking } := by
  refine ⟨fun node' hmem ↦ ?_, h.bufs, fun _ _ hlooking ↦ RxWorker.noConfusion hlooking,
    h.sequenceTx⟩
  exact h.nodes node' (hlist ▸ List.mem_cons_of_mem _ hmem)

/-- A turn of the worker with a message in hand. -/
theorem Roomy.sending (h : Roomy sequence s) {clock : RxClock} {data totalLen : ℕ}
    (hworker : s.worker = .sending data totalLen)
    (hstep : s.workStep vhostExceedsWeight clock = some t) :
    Roomy sequence t ∧ Channel.Step (Stamped sequence) s.channel t.channel ∧
      (Quiet s t [] ∨ ∃ frame, Fills s t frame) := by
  rw [workStep, hworker] at hstep
  dsimp only at hstep
  split at hstep
  next => cases hstep
  next node rest hlist =>
    rcases h.turn data totalLen hworker with ⟨rfl, rfl⟩ | ⟨head, tail, hhead, rfl⟩
    · rw [if_pos node.length_bytes_pos] at hstep
      cases hstep
      cases havail : s.avail with
      | nil =>
          rw [sendTurn_nil havail]
          refine ⟨h.stopped, ?_, .inl ⟨rfl, (List.append_nil _).symm⟩⟩
          rw [channel, channel, unsent_sending_zero hworker]
          exact .stay
      | cons buf bufs =>
          have hbuf := h.bufs buf (havail ▸ List.mem_cons_self)
          have hnode := h.nodes node (hlist ▸ List.mem_cons_self)
          rw [sendTurn_cons havail hbuf clock hnode]
          obtain ⟨hroomy, hchannel, hfills⟩ := h.sent hworker hlist clock havail
          exact ⟨hroomy, hchannel, .inr hfills⟩
    · rw [hlist] at hhead
      cases hhead
      rw [if_neg (Nat.lt_irrefl _)] at hstep
      cases hstep
      refine ⟨h.done hlist, ?_, .inl ⟨rfl, (List.append_nil _).symm⟩⟩
      rw [channel, channel, unsent_sending_pos hworker node.length_bytes_pos.ne', hlist]
      exact .stay

/-- A step of the host is a step of a channel; it leaves the buffers alone or fills the
next one. -/
theorem Roomy.step (h : Roomy sequence s) {e : RxEvent}
    (hbufs : ∀ buf ∈ e.bufs, buf.inLen = inBufSize ∧ buf.outLen = 0)
    (hstep : s.step vhostExceedsWeight e = some t) :
    Roomy sequence t ∧ Channel.Step (Stamped sequence) s.channel t.channel ∧
      (Quiet s t e.bufs ∨ ∃ frame, Fills s t frame) := by
  cases e with
  | physicalChannelSend node =>
      rw [VhostRx.step] at hstep
      split at hstep
      next =>
        cases hstep
        exact ⟨h, .stay, .inl ⟨rfl, (List.append_nil _).symm⟩⟩
      next hsize =>
        cases hstep
        refine ⟨h.concat (Nat.le_of_not_lt hsize), ?_, .inl ⟨rfl, (List.append_nil _).symm⟩⟩
        rw [channel, channel, h.unsent_concat]
        exact .accept node
  | addBuffers bufs =>
      cases hstep
      refine ⟨⟨h.nodes, ?_, h.turn, h.sequenceTx⟩, .stay, .inl ⟨rfl, rfl⟩⟩
      intro buf hmem
      exact (List.mem_append.mp hmem).elim (h.bufs buf) (hbufs buf)
  | rxWorker =>
      rw [VhostRx.step] at hstep
      split at hstep
      next hidle =>
        cases hstep
        refine ⟨⟨h.nodes, h.bufs, fun _ _ hlooking ↦ RxWorker.noConfusion hlooking,
          h.sequenceTx⟩, ?_, .inl ⟨rfl, (List.append_nil _).symm⟩⟩
        have hsame : s.unsent = s.sendList := by rw [unsent, hidle]
        rw [channel, channel, hsame]
        exact .stay
      next => cases hstep
  | work clock =>
      rw [VhostRx.step] at hstep
      cases hworker : s.worker with
      | idle =>
          rw [workStep, hworker] at hstep
          cases hstep
      | looking =>
          rw [workStep, hworker] at hstep
          cases hstep
          obtain ⟨hroomy, hunsent⟩ := h.looked
          have hsame : s.unsent = s.sendList := by rw [unsent, hworker]
          refine ⟨hroomy, ?_, .inl ⟨rfl, (List.append_nil _).symm⟩⟩
          rw [channel, channel, hunsent, hsame]
          exact .stay
      | sending data totalLen => exact h.sending hworker hstep

end VhostRx

end Hab
