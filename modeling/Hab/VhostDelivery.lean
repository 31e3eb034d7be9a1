import Hab.Frame
import Hab.Library.Runs
import Hab.MessageBuffers
import Hab.Pipe

/-!
# What the host writes into the guest's input buffers

`physical_channel_send` queues a message on `send_list`; `rx_worker` copies the message
at the head of the list to the input buffers that the guest has made available, and
takes it off the list when `rx_send_one_node_locked` returns 0.  How far it has come in
a message is a local variable of that function.  The worker holds `vq->mutex` from its
first step to its last; senders and the guest go on beside it.
-/

namespace Hab

/-- `struct hab_header`. -/
structure HabFullHeader extends HabHeader where
  sessionId : UInt32
  signature : UInt32
  sequence : UInt32
deriving DecidableEq

def HabFullHeader.bytes (header : HabFullHeader) : List UInt8 :=
  Bytes.layout [(4, header.idType.toNat), (4, header.payloadSize.toNat),
    (4, header.sessionId.toNat), (4, header.signature.toNat), (4, header.sequence.toNat)]

/-- `HAB_PAYLOAD_TYPE_PROFILE`. -/
def payloadTypeProfile : UInt32 := 6

/-- `struct vhost_hab_send_node`.  A profiling message holds a whole
`struct habmm_xing_vm_stat`: `hab_vchan_send` sends no shorter one. -/
structure SendNode where
  header : HabFullHeader
  payload : List UInt8
  sized : payload.length = header.payloadSize.toNat
  profiled : header.getType = payloadTypeProfile → xingVmStatSize ≤ payload.length

namespace SendNode

/-- What the copy to the guest reads, from the header on. -/
def bytes (node : SendNode) : List UInt8 := node.header.bytes ++ node.payload

/-- `pstat->tx_sec` and `pstat->tx_usec` are set in a profiling message. -/
def stampedPayload (node : SendNode) (clock : RxClock) : List UInt8 :=
  if node.header.getType = payloadTypeProfile then
    Bytes.encode 8 clock.sec.toNat ++ Bytes.encode 8 clock.usec.toNat ++ node.payload.drop 16
  else node.payload

@[simp] theorem length_stampedPayload (node : SendNode) (clock : RxClock) :
    (node.stampedPayload clock).length = node.payload.length := by
  unfold stampedPayload
  split
  next hprofile =>
    have hsize := node.profiled hprofile
    simp only [xingVmStatSize] at hsize
    simp only [List.length_append, Bytes.length_encode, List.length_drop]
    omega
  next => rfl

/-- The node as a turn of the loop leaves it. -/
def stamp (node : SendNode) (sequence : UInt32) (clock : RxClock) : SendNode where
  header := { node.header with sequence, signature := habHeadSignature }
  payload := node.stampedPayload clock
  sized := (node.length_stampedPayload clock).trans node.sized
  profiled := fun h ↦ (node.profiled h).trans_eq (node.length_stampedPayload clock).symm

@[simp] theorem length_bytes (node : SendNode) :
    node.bytes.length = headerSize + node.payload.length := by
  rw [bytes, List.length_append, HabFullHeader.bytes, Bytes.length_layout]
  rfl

@[simp] theorem length_bytes_stamp (node : SendNode) (sequence : UInt32) (clock : RxClock) :
    (node.stamp sequence clock).bytes.length = node.bytes.length := by
  rw [length_bytes, length_bytes, stamp, length_stampedPayload]

theorem length_bytes_pos (node : SendNode) : 0 < node.bytes.length := by
  rw [length_bytes, headerSize]
  omega

end SendNode

/-- A buffer of the guest: what it has for input, and what it has for output although
nothing is read from it here. -/
structure RxBuffer where
  inLen : ℕ
  outLen : ℕ
  positive : 0 < inLen

/-- Where `rx_worker` stands.  In `rx_send_one_node_locked` it keeps how far `data` has
moved over the node and `total_len`. -/
inductive RxWorker
  | idle
  | looking
  | sending (data totalLen : ℕ)

structure VhostRx where
  /-- All messages that `physical_channel_send` has put on the list. -/
  queued : List SendNode
  sendList : List SendNode
  avail : List RxBuffer
  sequenceTx : UInt32
  worker : RxWorker
  /-- What was written to the buffers given back to the guest. -/
  used : List (List UInt8)

inductive RxEvent
  | physicalChannelSend (node : SendNode)
  | addBuffers (bufs : List RxBuffer)
  | rxWorker
  | work (clock : RxClock)

namespace VhostRx

def start (sequenceTx : UInt32) : VhostRx := ⟨[], [], [], sequenceTx, .idle, []⟩

section Worker

-- `vhost_exceeds_weight` for the bytes counted so far
variable (exceedsWeight : ℕ → Bool)

/-- One turn of the loop in `rx_send_one_node_locked`, for the node at the head of
the list. -/
def sendTurn (s : VhostRx) (clock : RxClock) (node : SendNode) (rest : List SendNode)
    (data totalLen : ℕ) : VhostRx :=
  match s.avail with
  | [] => { s with worker := .idle } -- `-EAGAIN`: the node stays on the list
  | buf :: bufs =>
      let total := totalLen + (buf.inLen + buf.outLen)
      let stamped := node.stamp (s.sequenceTx + 1) clock
      let filled := (stamped.bytes.drop data).take buf.inLen
      { s with
        sendList := stamped :: rest
        avail := bufs
        sequenceTx := s.sequenceTx + 1
        used := s.used ++ [filled]
        worker := if exceedsWeight total then .idle else .sending (data + filled.length) total }

/-- One step of `rx_worker`. -/
def workStep (s : VhostRx) (clock : RxClock) : Option VhostRx :=
  match s.worker with
  | .idle => none
  | .looking =>
      some { s with worker := if s.sendList.isEmpty then .idle else .sending 0 0 }
  | .sending data totalLen =>
      match s.sendList with
      | [] => none
      | node :: rest =>
          if data < node.bytes.length then
            some (s.sendTurn exceedsWeight clock node rest data totalLen)
          else some { s with sendList := rest, worker := .looking }

def step (s : VhostRx) : RxEvent → Option VhostRx
  | .physicalChannelSend node =>
      if inBufSize - headerSize < node.payload.length then some s -- `-EINVAL`
      else some { s with queued := s.queued ++ [node], sendList := s.sendList ++ [node] }
  | .addBuffers bufs => some { s with avail := s.avail ++ bufs }
  | .rxWorker =>
      match s.worker with
      | .idle => some { s with worker := .looking }
      | _ => none
  | .work clock => s.workStep exceedsWeight clock

end Worker

/-! ## What the guest is to see -/

/-- The bytes of the messages with consecutive sequence numbers, each with the clock
that was read for it. -/
def delivery : UInt32 → List (SendNode × RxClock) → List UInt8
  | _, [] => []
  | sequence, (node, clock) :: rest =>
      (node.stamp (sequence + 1) clock).bytes ++ delivery (sequence + 1) rest

/-- The messages off the list were delivered whole, and nothing but a beginning of the
others was. -/
def ExactlyOnce (sequence : UInt32) (s : VhostRx) : Prop :=
  ∃ clocks : List RxClock, clocks.length = s.queued.length ∧
    delivery sequence ((s.queued.zip clocks).take (s.queued.length - s.sendList.length)) <+:
      s.used.flatten ∧
    s.used.flatten <+: delivery sequence (s.queued.zip clocks)

/-- A buffer taken for a message has room for all of it, and does not reach the weight
limit. -/
def Whole (exceedsWeight : ℕ → Bool) (s : VhostRx) (e : RxEvent) : Prop :=
  match e, s.worker, s.sendList, s.avail with
  | .work _, .sending data totalLen, node :: _, buf :: _ =>
      data < node.bytes.length →
        node.bytes.length - data ≤ buf.inLen ∧
          exceedsWeight (totalLen + (buf.inLen + buf.outLen)) = false
  | _, _, _, _ => True

theorem delivery_append (sequence : UInt32) (sent later : List (SendNode × RxClock)) :
    delivery sequence (sent ++ later) =
      delivery sequence sent ++ delivery (sequence + UInt32.ofNat sent.length) later := by
  induction sent generalizing sequence with
  | nil => simp [delivery]
  | cons message sent ih =>
      obtain ⟨node, clock⟩ := message
      have hnext : sequence + 1 + UInt32.ofNat sent.length =
          sequence + UInt32.ofNat (sent.length + 1) := by
        rw [UInt32.ofNat_add, UInt32.add_assoc, UInt32.add_comm 1]
        rfl
      rw [List.cons_append, delivery, delivery, ih, List.append_assoc, List.length_cons, hnext]

theorem delivery_concat (sequence : UInt32) (sent : List (SendNode × RxClock)) (node : SendNode)
    (clock : RxClock) :
    delivery sequence (sent ++ [(node, clock)]) =
      delivery sequence sent ++
        (node.stamp (sequence + UInt32.ofNat sent.length + 1) clock).bytes := by
  rw [delivery_append, delivery, delivery, List.append_nil]

theorem delivery_isPrefix (sequence : UInt32) (sent later : List (SendNode × RxClock)) :
    delivery sequence sent <+: delivery sequence (sent ++ later) :=
  ⟨_, (delivery_append sequence sent later).symm⟩

/-- The messages `sent` are in the guest's buffers, and nothing of those in `rest`. -/
structure Delivering (sequence : UInt32) (sent : List (SendNode × RxClock))
    (rest : List SendNode) (s : VhostRx) : Prop where
  queued : s.queued = sent.map Prod.fst ++ rest
  used : s.used.flatten = delivery sequence sent
  sequenceTx : s.sequenceTx = sequence + UInt32.ofNat sent.length
  /-- The last message sent may still be on the list, with nothing left to copy. -/
  held : (s.sendList = rest ∧ ∀ data totalLen, s.worker = .sending data totalLen → data = 0) ∨
    ∃ node totalLen, s.sendList = node :: rest ∧ s.worker = .sending node.bytes.length totalLen

variable {exceedsWeight : ℕ → Bool} {sequence : UInt32} {s t : VhostRx}

namespace Delivering

variable {sent : List (SendNode × RxClock)} {rest : List SendNode}

theorem start (sequence : UInt32) : Delivering sequence [] [] (start sequence) where
  queued := rfl
  used := rfl
  sequenceTx := (UInt32.add_zero sequence).symm
  held := .inl ⟨rfl, fun _ _ h ↦ RxWorker.noConfusion h⟩

theorem exactlyOnce (h : Delivering sequence sent rest s) : ExactlyOnce sequence s := by
  have hqueued : s.queued.length = sent.length + rest.length := by
    rw [h.queued, List.length_append, List.length_map]
  have hlen : s.queued.length - s.sendList.length ≤ sent.length := by
    rcases h.held with ⟨hlist, -⟩ | ⟨node, -, hlist, -⟩
    · rw [hqueued, hlist]
      omega
    · rw [hqueued, hlist, List.length_cons]
      omega
  have hzip : s.queued.zip (sent.map Prod.snd ++ rest.map fun _ ↦ ⟨0, 0, 0⟩) =
      sent ++ rest.zip (rest.map fun _ ↦ ⟨0, 0, 0⟩) := by
    rw [h.queued, List.zip_append (by simp), List.zip_map', List.map_id']
  refine ⟨sent.map Prod.snd ++ rest.map fun _ ↦ ⟨0, 0, 0⟩, by simp [hqueued], ?_, ?_⟩
  · rw [hzip, List.take_append_of_le_length hlen, h.used]
    conv_rhs => rw [← List.take_append_drop (s.queued.length - s.sendList.length) sent]
    exact delivery_isPrefix sequence _ _
  · rw [hzip, h.used]
    exact delivery_isPrefix sequence _ _

theorem sendTurn (h : Delivering sequence sent rest s) {node : SendNode} {nodes : List SendNode}
    {data totalLen : ℕ} (hworker : s.worker = .sending data totalLen)
    (hlist : s.sendList = node :: nodes) (hdata : data < node.bytes.length) (clock : RxClock)
    (hwhole : Whole exceedsWeight s (.work clock)) :
    ∃ sent' rest', Delivering sequence sent' rest'
      (s.sendTurn exceedsWeight clock node nodes data totalLen) := by
  rcases h.held with ⟨hrest, hzero⟩ | ⟨last, total, hrest, hlast⟩
  · obtain rfl : data = 0 := hzero data totalLen hworker
    rw [hlist] at hrest
    cases havail : s.avail with
    | nil =>
        refine ⟨sent, rest, ?_⟩
        rw [VhostRx.sendTurn, havail]
        exact ⟨h.queued, h.used, h.sequenceTx,
          .inl ⟨hlist.trans hrest, fun _ _ hidle ↦ RxWorker.noConfusion hidle⟩⟩
    | cons buf bufs =>
        simp only [Whole, hworker, hlist, havail] at hwhole
        obtain ⟨hroom, hweight⟩ := hwhole hdata
        have hfilled : ((node.stamp (s.sequenceTx + 1) clock).bytes.drop 0).take buf.inLen =
            (node.stamp (s.sequenceTx + 1) clock).bytes := by
          rw [List.drop_zero, List.take_of_length_le]
          rw [SendNode.length_bytes_stamp]
          omega
        refine ⟨sent ++ [(node, clock)], nodes, ?_⟩
        rw [VhostRx.sendTurn, havail]
        simp only [hfilled, hweight, Bool.false_eq_true, if_false, Nat.zero_add]
        refine ⟨?_, ?_, ?_, .inr ⟨_, _, rfl, rfl⟩⟩
        · rw [h.queued, ← hrest, List.map_append, List.append_assoc]
          rfl
        · simp only [List.flatten_append, List.flatten_cons, List.flatten_nil, List.append_nil]
          rw [h.used, delivery_concat, ← h.sequenceTx]
        · rw [h.sequenceTx, List.length_append, List.length_singleton, UInt32.ofNat_add,
            UInt32.add_assoc]
          rfl
  · rw [hlist] at hrest
    rw [hworker] at hlast
    cases hrest
    cases hlast
    exact absurd hdata (Nat.lt_irrefl _)

theorem step (h : Delivering sequence sent rest s) {e : RxEvent}
    (hwhole : Whole exceedsWeight s e) (hstep : s.step exceedsWeight e = some t) :
    ∃ sent' rest', Delivering sequence sent' rest' t := by
  cases e with
  | physicalChannelSend node =>
      rw [VhostRx.step] at hstep
      split at hstep
      next =>
        cases hstep
        exact ⟨sent, rest, h⟩
      next =>
        cases hstep
        refine ⟨sent, rest ++ [node], ?_, h.used, h.sequenceTx, ?_⟩
        · simp [h.queued]
        · rcases h.held with ⟨hlist, hzero⟩ | ⟨last, total, hlist, hworker⟩
          · exact .inl ⟨by simp [hlist], hzero⟩
          · exact .inr ⟨last, total, by simp [hlist], hworker⟩
  | addBuffers bufs =>
      cases hstep
      exact ⟨sent, rest, h.queued, h.used, h.sequenceTx, h.held⟩
  | rxWorker =>
      rw [VhostRx.step] at hstep
      split at hstep
      next hidle =>
        cases hstep
        rcases h.held with ⟨hlist, -⟩ | ⟨last, total, -, hworker⟩
        · exact ⟨sent, rest, h.queued, h.used, h.sequenceTx,
            .inl ⟨hlist, fun _ _ hlooking ↦ RxWorker.noConfusion hlooking⟩⟩
        · rw [hidle] at hworker
          cases hworker
      next => cases hstep
  | work clock =>
      rw [VhostRx.step, workStep] at hstep
      split at hstep
      next => cases hstep
      next hlooking =>
        cases hstep
        rcases h.held with ⟨hlist, -⟩ | ⟨last, total, -, hworker⟩
        · refine ⟨sent, rest, h.queued, h.used, h.sequenceTx, .inl ⟨hlist, ?_⟩⟩
          intro data totalLen hsending
          dsimp only at hsending
          split at hsending
          next => cases hsending
          next =>
            cases hsending
            rfl
        · rw [hlooking] at hworker
          cases hworker
      next data totalLen hworker =>
        split at hstep
        next => cases hstep
        next node nodes hlist =>
          split at hstep
          next hdata =>
            cases hstep
            exact h.sendTurn hworker hlist hdata clock hwhole
          next hdata =>
            cases hstep
            rcases h.held with ⟨-, hzero⟩ | ⟨last, total, hrest, -⟩
            · rw [hzero data totalLen hworker] at hdata
              exact absurd node.length_bytes_pos hdata
            · rw [hlist] at hrest
              cases hrest
              exact ⟨sent, _, h.queued, h.used, h.sequenceTx,
                .inl ⟨rfl, fun _ _ hlooking ↦ RxWorker.noConfusion hlooking⟩⟩

end Delivering

/-- A message that is given a buffer for itself alone reaches the guest once. -/
theorem exactlyOnce_of_meets {events : List RxEvent}
    (hmeets : Runs.Meets (step exceedsWeight) (Whole exceedsWeight) (start sequence) events)
    (hrun : Runs.exec (step exceedsWeight) (start sequence) events = some s) :
    ExactlyOnce sequence s := by
  have hkeep (u : VhostRx) (e : RxEvent) (v : VhostRx)
      (hu : ∃ sent rest, Delivering sequence sent rest u)
      (hwhole : Whole exceedsWeight u e) (hstep : u.step exceedsWeight e = some v) :
      ∃ sent rest, Delivering sequence sent rest v := by
    obtain ⟨sent, rest, h⟩ := hu
    exact h.step hwhole hstep
  obtain ⟨sent, rest, h⟩ :=
    Runs.invariant_of_meets hkeep ⟨[], [], Delivering.start sequence⟩ hmeets hrun
  exact h.exactlyOnce

/-- A message of four bytes. -/
def fourBytes : SendNode where
  header :=
    { idType := 0x00100000, payloadSize := 4, sessionId := 1, signature := 0, sequence := 0 }
  payload := [1, 2, 3, 4]
  sized := rfl
  profiled := by decide

def vhostHabWeight : ℕ := 0x80000

/-- One run of the worker for two messages and two buffers. -/
def wholeRun : List RxEvent :=
  [.physicalChannelSend fourBytes, .physicalChannelSend fourBytes,
    .addBuffers [⟨24, 0, by decide⟩, ⟨5120, 0, by decide⟩], .rxWorker] ++
    List.replicate 7 (.work ⟨0, 0, 0⟩)

theorem exactlyOnce_of_meets_twoMessages :
    ∃ s, Runs.exec (step fun n ↦ decide (vhostHabWeight ≤ n)) (start 6) wholeRun = some s ∧
      (s.sendList.length, s.used.map List.length) = (0, [24, 24]) ∧ ExactlyOnce 6 s := by
  have hseen : (Runs.exec (step fun n ↦ decide (vhostHabWeight ≤ n)) (start 6) wholeRun).map
      (fun s ↦ (s.sendList.length, s.used.map List.length)) = some (0, [24, 24]) := by
    decide
  obtain ⟨s, hrun, hused⟩ := Option.map_eq_some_iff.mp hseen
  have hroom (buf : RxBuffer) (hbuf : buf = ⟨24, 0, by decide⟩ ∨ buf = ⟨5120, 0, by decide⟩) :
      24 ≤ buf.inLen ∧ decide (vhostHabWeight ≤ 0 + (buf.inLen + buf.outLen)) = false := by
    rcases hbuf with rfl | rfl <;> decide
  refine ⟨s, hrun, hused, exactlyOnce_of_meets ?_ hrun⟩
  exact ⟨trivial, trivial, trivial, trivial, trivial, fun _ ↦ hroom _ (.inl rfl),
    fun h ↦ absurd h (Nat.lt_irrefl _), trivial, fun _ ↦ hroom _ (.inr rfl),
    trivial, trivial, trivial⟩

/-- The first buffer ends in the middle of the header. -/
def splitRun : List RxEvent :=
  [.physicalChannelSend fourBytes, .addBuffers [⟨10, 0, by decide⟩], .rxWorker] ++
    List.replicate 3 (.work ⟨0, 0, 0⟩) ++ [.addBuffers [⟨24, 0, by decide⟩], .rxWorker] ++
    List.replicate 3 (.work ⟨0, 0, 0⟩)

/-- The run that found no further buffer is forgotten, and the message is sent from its
header again. -/
theorem not_exactlyOnce :
    ¬ ∀ (events : List RxEvent) (s : VhostRx),
      Runs.exec (step fun n ↦ decide (vhostHabWeight ≤ n)) (start 0) events = some s →
        ExactlyOnce 0 s := by
  intro h
  obtain ⟨clocks, hclocks, -, hprefix⟩ := h splitRun _ rfl
  have hbound := hprefix.length_le
  obtain ⟨clock, rfl⟩ := List.length_eq_one_iff.mp hclocks
  have hlen : (delivery 0 [(fourBytes, clock)]).length = 24 := by
    rw [delivery, delivery, List.append_nil, SendNode.length_bytes_stamp]
    rfl
  exact absurd (hbound.trans_eq hlen) (by decide)

end VhostRx

end Hab
