import Hab.Library.Virtqueue
import Hab.VhostChannel
import Hab.VirtioLayout

/-!
# From the host to the guest

The guest keeps its input buffers in the rx virtqueue.  `rx_worker` takes one for each
turn of its loop; `virthab_recv_rxq` collects what was written, hands each buffer to
`hab_msg_recv` and makes it available again.  The whole way is a channel that keeps the
order, and no buffer is lost, unless `hab_stat_log` is called while one waits to be
collected.
-/

namespace Hab

/-- Where `virthab_recv_rxq` stands: between two buffers, or in `hab_msg_recv` for one of
them, with the reads that are to come. -/
inductive RxTask
  | idle
  | handling (index : ℕ) (rx : RxRead) (received : Received) (reads : List ℕ)

/-- An rx virtqueue with the host at one end and the guest at the other. -/
structure RxLink where
  host : VhostRx
  /-- The input buffers by their index, with the bytes the host has written. -/
  ring : Virtqueue ℕ
  /-- `hd->buf`. -/
  mem : ℕ → List UInt8
  task : RxTask
  /-- `vpc->in_cnt`. -/
  inCnt : ℤ
  /-- `pchan->sequence_rx`. -/
  sequenceRx : UInt32
  /-- The calls of `hab_msg_recv` that have returned. -/
  handled : List Received

inductive RxLinkEvent
  /-- The host: a sender, or a step of `rx_worker`. -/
  | physicalChannelSend (node : SendNode)
  | rxWorker
  | work (clock : RxClock)
  /-- The guest collects a buffer and enters `hab_msg_recv`. -/
  | getBuf (env : RecvEnv)
  | physicalChannelRead
  /-- `hab_msg_recv` returns, and the buffer is added again. -/
  | addInbuf
  /-- `hab_stat_log` collects a buffer, if there is one, to show its length. -/
  | habStatLog

namespace RxLink

/-- `IN_BUF_NUM`. -/
def inBufNum : ℕ := VhPool.ptIn.bufNum

/-- `virthab_queue_inbufs`, on an rx virtqueue of `num` entries that accepts no more. -/
def queueInbufs (num : ℕ) : Virtqueue ℕ :=
  (List.range (min num inBufNum)).foldl (fun q i ↦ q.add i inBufSize) .empty

def inbuf : RxBuffer := ⟨inBufSize, 0, by decide⟩

/-- The virtqueue has been set up, and nothing was sent. -/
def start (num : ℕ) (sequence : UInt32) : RxLink where
  host := { VhostRx.start sequence with avail := List.replicate (min num inBufNum) inbuf }
  ring := queueInbufs num
  mem := fun _ ↦ List.replicate inBufSize 0
  task := .idle
  inCnt := 0
  sequenceRx := sequence
  handled := []

/-- A step of the host, and what it writes. -/
def hostStep (s : RxLink) (e : RxEvent) : Option RxLink :=
  match s.host.step VhostRx.vhostExceedsWeight e with
  | none => none
  | some host =>
      match host.used.drop s.host.used.length with
      | [] => some { s with host }
      | filled :: _ =>
          match s.ring.take with
          | none => none
          | some (i, _, ring) =>
              some { s with
                host
                ring := ring.give i filled.length
                mem := Function.update s.mem i (filled ++ (s.mem i).drop filled.length) }

/-- `virtqueue_get_buf` and the call of `hab_msg_recv`. -/
def getBuf (s : RxLink) (env : RecvEnv) : Option RxLink :=
  match s.task, s.ring.collect with
  | .idle, some (i, len, ring) =>
      let s := { s with ring, inCnt := s.inCnt - 1 }
      if inBufNum < i then some s -- "corrupted inbuf"
      else
        some { s with
          task := .handling i ⟨UInt64.ofNat len, 0⟩ ⟨env, (s.mem i).take headerSize, []⟩
            (habMsgRecvReads env (HabHeader.ofBytes (s.mem i))) }
  | _, _ => none

def physicalChannelRead (s : RxLink) : Option RxLink :=
  match s.task with
  | .handling i rx received (n :: reads) =>
      let next := rx.physicalChannelRead (UInt64.ofNat n)
      let piece := ((s.mem i).drop next.1.start).take next.1.length
      some { s with
        task := .handling i next.2 { received with payload := received.payload ++ piece } reads }
  | _ => none

/-- `pchan->sequence_rx` is set, and the buffer given to the host again. -/
def addInbuf (s : RxLink) : Option RxLink :=
  match s.task with
  | .handling i _ received [] =>
      some { s with
        host := { s.host with avail := s.host.avail ++ [inbuf] }
        ring := s.ring.add i inBufSize
        task := .idle
        inCnt := s.inCnt + 1
        sequenceRx := UInt32.ofNat ((Bytes.word (s.mem i) 16 4).getD 0)
        handled := s.handled ++ [received] }
  | _ => none

/-- The buffer that was collected is not added again. -/
def habStatLog (s : RxLink) : RxLink :=
  match s.ring.collect with
  | some (_, _, ring) => { s with ring }
  | none => s

def step (s : RxLink) : RxLinkEvent → Option RxLink
  | .physicalChannelSend node => s.hostStep (.physicalChannelSend node)
  | .rxWorker => s.hostStep .rxWorker
  | .work clock => s.hostStep (.work clock)
  | .getBuf env => s.getBuf env
  | .physicalChannelRead => s.physicalChannelRead
  | .addInbuf => s.addInbuf
  | .habStatLog => some s.habStatLog

/-! ## What is to hold -/

/-- The buffer that the guest is reading from. -/
def inHand (s : RxLink) : List ℕ :=
  match s.task with
  | .idle => []
  | .handling i _ _ _ => [i]

/-- The frames that were written and are not handled yet. -/
def written (s : RxLink) : List (List UInt8) :=
  (match s.task with
    | .idle => []
    | .handling i rx _ _ => [(s.mem i).take rx.readSize.toNat]) ++
    s.ring.used.map fun b ↦ (s.mem b.1).take b.2

/-- All buffers of the guest are in the virtqueue or in its hand, each once. -/
def Conserved (num : ℕ) (s : RxLink) : Prop :=
  (s.ring.holds ++ s.inHand).Perm (List.range (min num inBufNum))

/-- The statistics are read while nothing waits to be collected. -/
def Undisturbed (s : RxLink) : RxLinkEvent → Prop
  | .habStatLog => s.ring.used = []
  | _ => True

instance (s : RxLink) : ∀ e, Decidable (Undisturbed s e)
  | .habStatLog => inferInstanceAs (Decidable (s.ring.used = []))
  | .physicalChannelSend _ | .rxWorker | .work _ | .getBuf _ | .physicalChannelRead | .addInbuf =>
      isTrue trivial

/-- Where the call of `hab_msg_recv` has got to in its frame. -/
def Handling (s : RxLink) : Prop :=
  match s.task with
  | .idle => True
  | .handling i rx received reads => ∃ len done,
      rx = ⟨UInt64.ofNat len, Int32.ofNat (min done (len - headerSize))⟩ ∧
        headerSize ≤ len ∧ len ≤ inBufSize ∧ (s.mem i).length = inBufSize ∧
        received.Reading ((s.mem i).take len) done reads

/-- The buffers that the guest still knows of. -/
def owned (s : RxLink) : List ℕ := s.ring.holds ++ s.inHand

structure Inv (num : ℕ) (sequence : UInt32) (s : RxLink) : Prop where
  roomy : s.host.Roomy sequence
  host : Channel.Lossless (VhostRx.Stamped sequence) s.host.channel
  room : s.host.avail.length = s.ring.avail.length
  taken : s.ring.taken = []
  nodup : s.owned.Nodup
  index : ∀ i ∈ s.owned, i < min num inBufNum
  sizes : ∀ i, (s.mem i).length = inBufSize
  lens : ∀ b ∈ s.ring.used, headerSize ≤ b.2 ∧ b.2 ≤ inBufSize
  handling : s.Handling

variable {num : ℕ} {sequence : UInt32} {s t : RxLink}

/-! ### The start -/

theorem queueInbufs_eq (num : ℕ) :
    queueInbufs num = ⟨(List.range (min num inBufNum)).map fun i ↦ (i, inBufSize), [], []⟩ := by
  have hadd (is : List ℕ) (q : Virtqueue ℕ) :
      is.foldl (fun q i ↦ q.add i inBufSize) q =
        { q with avail := q.avail ++ is.map fun i ↦ (i, inBufSize) } := by
    induction is generalizing q with
    | nil => simp
    | cons i is ih =>
        rw [List.foldl_cons, ih, Virtqueue.add, List.map_cons, List.append_assoc]
        rfl
  rw [queueInbufs, hadd]
  rfl

theorem owned_start (num : ℕ) (sequence : UInt32) :
    (start num sequence).owned = List.range (min num inBufNum) := by
  have hfst (is : List ℕ) : (is.map fun i ↦ (i, inBufSize)).map Prod.fst = is := by
    rw [List.map_map]
    exact List.map_id is
  simp only [owned, start, inHand, queueInbufs_eq, Virtqueue.holds, hfst, List.map_nil,
    List.append_nil]

theorem inv_start (num : ℕ) (sequence : UInt32) : Inv num sequence (start num sequence) where
  roomy := by
    have h := VhostRx.roomy_start sequence
    refine ⟨h.nodes, ?_, h.turn, h.sequenceTx⟩
    intro buf hbuf
    rw [List.eq_of_mem_replicate hbuf]
    exact ⟨rfl, rfl⟩
  host := .start
  room := by
    simp only [start, queueInbufs_eq, List.length_replicate, List.length_map, List.length_range]
  taken := by
    simp only [start, queueInbufs_eq]
  nodup := by
    rw [owned_start]
    exact List.nodup_range
  index := by
    intro i hi
    rw [owned_start] at hi
    exact List.mem_range.mp hi
  sizes := fun _ ↦ List.length_replicate
  lens := by
    intro b hb
    rw [start, queueInbufs_eq] at hb
    cases hb
  handling := trivial

/-! ### A write of the host -/

/-- What a step of the host changes. -/
inductive HostSteps (s : RxLink) (host : VhostRx) : RxLink → Prop
  | quiet (hused : host.used = s.host.used) (havail : host.avail = s.host.avail) :
      HostSteps s host { s with host }
  | fills (frame : List UInt8) (i n : ℕ) (ring : Virtqueue ℕ)
      (hfills : VhostRx.Fills s.host host frame) (htake : s.ring.take = some (i, n, ring)) :
      HostSteps s host { s with
        host
        ring := ring.give i frame.length
        mem := Function.update s.mem i (frame ++ (s.mem i).drop frame.length) }

theorem Inv.hostStep (h : Inv num sequence s) {e : RxEvent} (he : e.bufs = [])
    (hstep : s.hostStep e = some t) :
    ∃ host, host.Roomy sequence ∧
      Channel.Step (VhostRx.Stamped sequence) s.host.channel host.channel ∧
      HostSteps s host t := by
  rw [RxLink.hostStep] at hstep
  split at hstep
  next => cases hstep
  next host hhost =>
    obtain ⟨hroomy, hchannel, hcases⟩ := h.roomy.step (by rw [he]; simp) hhost
    refine ⟨host, hroomy, hchannel, ?_⟩
    rcases hcases with hquiet | ⟨frame, hfills⟩
    · have havail := hquiet.avail
      rw [he, List.append_nil] at havail
      rw [hquiet.used, List.drop_length] at hstep
      cases hstep
      exact .quiet hquiet.used havail
    · rw [hfills.used, List.drop_left] at hstep
      dsimp only at hstep
      split at hstep
      next => cases hstep
      next i n ring htake =>
        cases hstep
        exact .fills frame i n ring hfills htake

/-- A buffer that the host takes is not one that was written or is being read. -/
theorem Inv.ne_of_take (h : Inv num sequence s) {i n : ℕ} {ring : Virtqueue ℕ}
    (htake : s.ring.take = some (i, n, ring)) :
    (∀ b ∈ s.ring.used, b.1 ≠ i) ∧ i ∉ s.inHand := by
  obtain ⟨havail, -, -⟩ := Virtqueue.take_eq_some htake
  have hmem : (i, n) ∈ s.ring.avail := havail ▸ List.mem_cons_self
  obtain ⟨hholds, -, hdisjoint⟩ := List.nodup_append.mp h.nodup
  refine ⟨?_, ?_⟩
  · intro b hb heq
    exact Virtqueue.ne_of_avail_of_used hholds hmem hb heq.symm
  · intro hi
    exact hdisjoint i (Virtqueue.mem_holds_of_avail hmem) i hi rfl

theorem HostSteps.owned {host : VhostRx} (h : HostSteps s host t) : t.owned.Perm s.owned := by
  cases h with
  | quiet => exact List.Perm.refl _
  | fills frame i n ring hfills htake =>
      obtain ⟨-, htaken, -⟩ := Virtqueue.take_eq_some htake
      have hgive := Virtqueue.holds_give (q := ring) (htaken ▸ List.mem_cons_self) frame.length
      exact (hgive.trans (Virtqueue.holds_take htake)).append_right _

theorem Inv.congr_owned (h : Inv num sequence s) (howned : t.owned.Perm s.owned) :
    t.owned.Nodup ∧ ∀ i ∈ t.owned, i < min num inBufNum :=
  ⟨howned.nodup_iff.mpr h.nodup, fun i hi ↦ h.index i (howned.mem_iff.mp hi)⟩

/-- The buffer being read is not written to. -/
theorem Inv.handling_update (h : Inv num sequence s) {i : ℕ} (hi : i ∉ s.inHand)
    (bytes : List UInt8) : Handling { s with mem := Function.update s.mem i bytes } := by
  have hhandling := h.handling
  unfold Handling inHand at *
  cases htask : s.task with
  | idle => trivial
  | handling j rx received reads =>
      rw [htask] at hhandling hi
      have hne : j ≠ i := fun heq ↦ hi (heq ▸ List.mem_singleton_self j)
      simp only [Function.update_of_ne hne]
      exact hhandling

theorem Inv.hostSteps (h : Inv num sequence s) {host : VhostRx} (hroomy : host.Roomy sequence)
    (hchannel : Channel.Step (VhostRx.Stamped sequence) s.host.channel host.channel)
    (hsteps : HostSteps s host t) : Inv num sequence t := by
  obtain ⟨hnodup, hindex⟩ := h.congr_owned hsteps.owned
  have hhost := h.host.step hchannel
  cases hsteps with
  | quiet hused havail =>
      exact ⟨hroomy, hhost, (congrArg List.length havail).trans h.room, h.taken, hnodup, hindex,
        h.sizes, h.lens, h.handling⟩
  | fills frame i n ring hfills htake =>
      obtain ⟨havail, htaken, hused⟩ := Virtqueue.take_eq_some htake
      obtain ⟨-, hhand⟩ := h.ne_of_take htake
      refine ⟨hroomy, hhost, ?_, ?_, hnodup, hindex, ?_, ?_, h.handling_update hhand _⟩
      · obtain ⟨buf, hbuf⟩ := hfills.avail
        have hroom := h.room
        rw [hbuf, havail, List.length_cons, List.length_cons] at hroom
        exact Nat.succ.inj hroom
      · rw [Virtqueue.give, htaken, h.taken]
        exact List.erase_cons_head i []
      · intro j
        have hj := h.sizes j
        have hfits := hfills.fits
        dsimp only
        by_cases hji : j = i
        · subst hji
          rw [Function.update_self, List.length_append, List.length_drop, hj]
          omega
        · rw [Function.update_of_ne hji, hj]
      · intro b hb
        rcases List.mem_append.mp hb with hb | hb
        · exact h.lens b (hused ▸ hb)
        · rw [List.mem_singleton.mp hb]
          exact ⟨hfills.header, hfills.fits⟩

/-! ### The steps of the guest -/

/-- A buffer is collected, and the call entered. -/
theorem Inv.getBuf (h : Inv num sequence s) {env : RecvEnv} (hstep : s.getBuf env = some t) :
    ∃ i len ring, s.task = .idle ∧ s.ring.collect = some (i, len, ring) ∧
      t = { s with
        ring
        inCnt := s.inCnt - 1
        task := .handling i ⟨UInt64.ofNat len, 0⟩ ⟨env, (s.mem i).take headerSize, []⟩
          (habMsgRecvReads env (HabHeader.ofBytes (s.mem i))) } := by
  rw [RxLink.getBuf] at hstep
  split at hstep
  next i len ring htask hcollect =>
    obtain ⟨hused, -, -⟩ := Virtqueue.collect_eq_some hcollect
    have hi : i < min num inBufNum := by
      apply h.index
      exact List.mem_append_left _ (Virtqueue.mem_holds_of_used (hused ▸ List.mem_cons_self))
    rw [if_neg (by omega)] at hstep
    cases hstep
    exact ⟨i, len, ring, htask, hcollect, rfl⟩
  next => cases hstep

theorem owned_getBuf {i len : ℕ} {ring : Virtqueue ℕ} (htask : s.task = .idle)
    (hcollect : s.ring.collect = some (i, len, ring)) (rx : RxRead) (received : Received)
    (reads : List ℕ) (inCnt : ℤ) :
    (owned { s with ring, inCnt, task := .handling i rx received reads }).Perm s.owned := by
  have hhand : s.inHand = [] := by
    rw [inHand, htask]
  rw [owned, owned, hhand, List.append_nil]
  exact (List.perm_append_singleton i ring.holds).trans (Virtqueue.holds_collect hcollect).symm

/-- What `physical_channel_read` copies goes on where the last copy ended. -/
theorem piece_eq (bytes : List UInt8) {len : ℕ} (hheader : headerSize ≤ len) (done n : ℕ) :
    (bytes.drop (headerSize + min done (len - headerSize))).take
        (min n (len - headerSize - min done (len - headerSize))) =
      (((bytes.take len).drop headerSize).drop done).take n := by
  rw [List.drop_drop, List.drop_take, List.take_take]
  rcases Nat.le_total done (len - headerSize) with hdone | hdone
  · rw [Nat.min_eq_left hdone]
    congr 1
    omega
  · rw [Nat.min_eq_right hdone, Nat.sub_self, Nat.min_zero, List.take_zero]
    have hzero : min n (len - (headerSize + done)) = 0 := by omega
    rw [hzero, List.take_zero]

theorem Handling.start (env : RecvEnv) {i len : ℕ} (hheader : headerSize ≤ len)
    (hlen : len ≤ inBufSize) (hsize : (s.mem i).length = inBufSize)
    (htask : s.task = .handling i ⟨UInt64.ofNat len, 0⟩ ⟨env, (s.mem i).take headerSize, []⟩
      (habMsgRecvReads env (HabHeader.ofBytes (s.mem i)))) : s.Handling := by
  have hframe : ((s.mem i).take len).length = len := by
    rw [List.length_take, hsize, Nat.min_eq_left hlen]
  have hparse : HabHeader.ofBytes (s.mem i) = HabHeader.ofBytes ((s.mem i).take len) := by
    have htake := HabHeader.ofBytes_take ((s.mem i).take len) ((s.mem i).drop len)
      (by rw [hframe]; exact Nat.le_trans (by decide) hheader)
    rw [List.take_append_drop] at htake
    exact htake
  have hfirst : (s.mem i).take headerSize = ((s.mem i).take len).take headerSize := by
    rw [List.take_take, Nat.min_eq_left hheader]
  rw [Handling, htask]
  refine ⟨len, 0, ?_, hheader, hlen, hsize, ?_⟩
  · rw [Nat.zero_min]
    rfl
  · rw [hparse, hfirst]
    exact .start env _

theorem Handling.read (h : s.Handling) (hstep : s.physicalChannelRead = some t) :
    t.Handling ∧ t.written = s.written ∧ t.inHand = s.inHand ∧
      ∃ task, t = { s with task } := by
  rw [RxLink.physicalChannelRead] at hstep
  split at hstep
  next i rx received n reads htask =>
    cases hstep
    rw [Handling, htask] at h
    obtain ⟨len, done, rfl, hheader, hlen, hsize, hreading⟩ := h
    have hmax := hreading.le_max
    rw [List.sum_cons] at hmax
    have hsmall : len < 2 ^ 32 := Nat.lt_of_le_of_lt hlen (by decide)
    have hnext := physicalChannelRead_eq hsmall
      (o := min done (len - headerSize)) (n := n) (by omega) (by omega)
    refine ⟨?_, ?_, ?_, _, rfl⟩
    · refine ⟨len, done + n, ?_, hheader, hlen, hsize, ?_⟩
      · rw [hnext]
        dsimp only
        congr 2
        omega
      · rw [hnext]
        exact hreading.read (piece_eq (s.mem i) hheader done n)
    · simp only [written, htask, hnext]
    · simp only [inHand, htask]
  next => cases hstep

theorem Handling.addInbuf (h : s.Handling) (hstep : s.addInbuf = some t) :
    ∃ i rx received, s.task = .handling i rx received [] ∧
      received.Reads ((s.mem i).take rx.readSize.toNat) ∧
      t = { s with
        host := { s.host with avail := s.host.avail ++ [inbuf] }
        ring := s.ring.add i inBufSize
        task := .idle
        inCnt := s.inCnt + 1
        sequenceRx := UInt32.ofNat ((Bytes.word (s.mem i) 16 4).getD 0)
        handled := s.handled ++ [received] } := by
  rw [RxLink.addInbuf] at hstep
  split at hstep
  next i rx received htask =>
    cases hstep
    rw [Handling, htask] at h
    obtain ⟨len, done, rfl, -, hlen, -, hreading⟩ := h
    refine ⟨i, _, received, htask, ?_, rfl⟩
    have hsmall : (UInt64.ofNat len).toNat = len := by
      rw [UInt64.toNat_ofNat']
      exact Nat.mod_eq_of_lt (Nat.lt_of_le_of_lt hlen (by decide))
    rw [hsmall]
    exact hreading.finish
  next => cases hstep

theorem owned_addInbuf {i : ℕ} {rx : RxRead} {received : Received} {reads : List ℕ}
    (htask : s.task = .handling i rx received reads) (host : VhostRx) (inCnt : ℤ)
    (sequenceRx : UInt32) (handled : List Received) :
    (owned { s with
      host, inCnt, sequenceRx, handled, ring := s.ring.add i inBufSize, task := .idle }).Perm
        s.owned := by
  have hhand : s.inHand = [i] := by
    rw [inHand, htask]
  rw [owned, owned, hhand, inHand, List.append_nil]
  exact (Virtqueue.holds_add s.ring i inBufSize).trans (List.perm_append_singleton i _).symm

/-- A look at the statistics takes a buffer away, if one waits to be collected. -/
theorem owned_habStatLog (s : RxLink) :
    s.ring.used = [] ∧ s.habStatLog = s ∨
      ∃ i len ring, s.ring.collect = some (i, len, ring) ∧ s.habStatLog = { s with ring } ∧
        s.owned.Perm (i :: s.habStatLog.owned) := by
  cases hcollect : s.ring.collect with
  | none =>
      refine .inl ⟨Virtqueue.collect_eq_none.mp hcollect, ?_⟩
      rw [habStatLog, hcollect]
  | some next =>
      obtain ⟨i, len, ring⟩ := next
      have hlog : s.habStatLog = { s with ring } := by
        rw [habStatLog, hcollect]
      refine .inr ⟨i, len, ring, rfl, hlog, ?_⟩
      rw [hlog]
      exact (Virtqueue.holds_collect hcollect).append_right _

/-- A step keeps the buffers, except that the statistics may lose one. -/
theorem Inv.owned_step (h : Inv num sequence s) {e : RxLinkEvent} (hstep : s.step e = some t) :
    Undisturbed s e ∧ t.owned.Perm s.owned ∨
      ¬ Undisturbed s e ∧ ∃ i, s.owned.Perm (i :: t.owned) := by
  cases e with
  | physicalChannelSend | rxWorker | work =>
      obtain ⟨host, -, -, hsteps⟩ := h.hostStep rfl hstep
      exact .inl ⟨trivial, hsteps.owned⟩
  | getBuf env =>
      obtain ⟨i, len, ring, htask, hcollect, rfl⟩ := h.getBuf hstep
      exact .inl ⟨trivial, owned_getBuf htask hcollect _ _ _ _⟩
  | physicalChannelRead =>
      obtain ⟨-, -, hhand, task, rfl⟩ := h.handling.read hstep
      rw [owned, hhand]
      exact .inl ⟨trivial, List.Perm.refl _⟩
  | addInbuf =>
      obtain ⟨i, rx, received, htask, -, rfl⟩ := h.handling.addInbuf hstep
      exact .inl ⟨trivial, owned_addInbuf htask _ _ _ _⟩
  | habStatLog =>
      cases hstep
      rcases owned_habStatLog s with ⟨hused, hsame⟩ | ⟨i, len, ring, hcollect, -, hperm⟩
      · rw [hsame]
        exact .inl ⟨hused, List.Perm.refl _⟩
      · refine .inr ⟨fun hguard ↦ ?_, i, hperm⟩
        rw [Virtqueue.collect_eq_none.mpr (hguard)] at hcollect
        cases hcollect

theorem Inv.step (h : Inv num sequence s) {e : RxLinkEvent} (hstep : s.step e = some t) :
    Inv num sequence t := by
  have hkept : t.owned.Nodup ∧ ∀ i ∈ t.owned, i < min num inBufNum := by
    rcases h.owned_step hstep with ⟨-, hperm⟩ | ⟨-, i, hperm⟩
    · exact h.congr_owned hperm
    · have hnodup := (hperm.nodup_iff.mp h.nodup)
      exact ⟨(List.nodup_cons.mp hnodup).2,
        fun j hj ↦ h.index j (hperm.mem_iff.mpr (List.mem_cons_of_mem i hj))⟩
  obtain ⟨hnodup, hindex⟩ := hkept
  cases e with
  | physicalChannelSend | rxWorker | work =>
      obtain ⟨host, hroomy, hchannel, hsteps⟩ := h.hostStep rfl hstep
      exact h.hostSteps hroomy hchannel hsteps
  | getBuf env =>
      obtain ⟨i, len, ring, htask, hcollect, rfl⟩ := h.getBuf hstep
      obtain ⟨hused, havail, htaken⟩ := Virtqueue.collect_eq_some hcollect
      obtain ⟨hheader, hlen⟩ := h.lens (i, len) (hused ▸ List.mem_cons_self)
      exact ⟨h.roomy, h.host, h.room.trans (congrArg List.length havail.symm),
        htaken.trans h.taken, hnodup, hindex, h.sizes,
        fun b hb ↦ h.lens b (hused ▸ List.mem_cons_of_mem _ hb),
        .start env hheader hlen (h.sizes i) rfl⟩
  | physicalChannelRead =>
      obtain ⟨hhandling, -, -, task, rfl⟩ := h.handling.read hstep
      exact ⟨h.roomy, h.host, h.room, h.taken, hnodup, hindex, h.sizes, h.lens, hhandling⟩
  | addInbuf =>
      obtain ⟨i, rx, received, -, -, rfl⟩ := h.handling.addInbuf hstep
      have hbufs : ∀ buf ∈ (RxEvent.addBuffers [inbuf]).bufs,
          buf.inLen = inBufSize ∧ buf.outLen = 0 := by
        intro buf hbuf
        rw [List.mem_singleton.mp hbuf]
        exact ⟨rfl, rfl⟩
      obtain ⟨hroomy, hchannel, -⟩ := h.roomy.step hbufs rfl
      refine ⟨hroomy, h.host.step hchannel, ?_, h.taken, hnodup, hindex, h.sizes, h.lens, trivial⟩
      rw [Virtqueue.add, List.length_append, List.length_append, h.room]
      rfl
  | habStatLog =>
      cases hstep
      rcases owned_habStatLog s with ⟨-, hsame⟩ | ⟨i, len, ring, hcollect, hlog, -⟩
      · rw [hsame]
        exact h
      · obtain ⟨hused, havail, htaken⟩ := Virtqueue.collect_eq_some hcollect
        rw [hlog] at hnodup hindex ⊢
        exact ⟨h.roomy, h.host, h.room.trans (congrArg List.length havail.symm),
          htaken.trans h.taken, hnodup, hindex, h.sizes,
          fun b hb ↦ h.lens b (hused ▸ List.mem_cons_of_mem _ hb), h.handling⟩

/-! ### The frames in order -/

/-- The second half of the way: from what the host has written to what was handled. -/
structure Frames (sequence : UInt32) (s : RxLink) : Prop where
  channel : Channel.Lossless (fun _ frame r ↦ r.Reads frame) ⟨s.host.used, s.written, s.handled⟩
  sequenceRx : s.sequenceRx = sequence + UInt32.ofNat s.handled.length

theorem frames_start (num : ℕ) (sequence : UInt32) : Frames sequence (start num sequence) where
  channel := by
    have hwritten : (start num sequence).written = [] := by
      simp only [written, start, queueInbufs_eq, List.map_nil, List.append_nil]
    rw [hwritten]
    exact .start
  sequenceRx := (UInt32.add_zero sequence).symm

theorem written_fills (h : Inv num sequence s) {frame : List UInt8} {i n : ℕ} {ring : Virtqueue ℕ}
    (htake : s.ring.take = some (i, n, ring)) (host : VhostRx) :
    (written { s with
      host
      ring := ring.give i frame.length
      mem := Function.update s.mem i (frame ++ (s.mem i).drop frame.length) }) =
        s.written ++ [frame] := by
  obtain ⟨-, -, hused⟩ := Virtqueue.take_eq_some htake
  obtain ⟨hring, hhand⟩ := h.ne_of_take htake
  have hmap : (s.ring.used.map fun b ↦ (Function.update s.mem i
      (frame ++ (s.mem i).drop frame.length) b.1).take b.2) =
        s.ring.used.map fun b ↦ (s.mem b.1).take b.2 := by
    apply List.map_congr_left
    intro b hb
    rw [Function.update_of_ne (hring b hb)]
  have htask : (match s.task with
      | .idle => []
      | .handling j rx _ _ => [(Function.update s.mem i
          (frame ++ (s.mem i).drop frame.length) j).take rx.readSize.toNat]) =
        match s.task with
          | .idle => []
          | .handling j rx _ _ => [(s.mem j).take rx.readSize.toNat] := by
    cases hcase : s.task with
    | idle => rfl
    | handling j rx received reads =>
        rw [inHand, hcase] at hhand
        have hne : j ≠ i := fun heq ↦ hhand (heq ▸ List.mem_singleton_self j)
        simp only [Function.update_of_ne hne]
  simp only [written, Virtqueue.give, List.map_append, List.map_cons, List.map_nil, hused,
    hmap, Function.update_self, List.take_left, List.append_assoc]
  rw [htask]

/-- The sequence number of the frame that is handled next. -/
theorem Inv.sequence_eq (h : Inv num sequence s) (hframes : Frames sequence s) {i : ℕ}
    {frame : List UInt8} {rest : List (List UInt8)} (hwritten : s.written = frame :: rest)
    (hframe : ∃ later, s.mem i = frame ++ later) :
    UInt32.ofNat ((Bytes.word (s.mem i) 16 4).getD 0) =
      sequence + UInt32.ofNat (s.handled.length + 1) := by
  have hdrop := hframes.channel.flying.symm.trans hwritten
  have hget : s.host.used[s.handled.length]? = some frame := by
    rw [← List.head?_drop, hdrop]
    rfl
  obtain ⟨node, -, clock, rfl⟩ := h.host.carries.exists_sent hget
  obtain ⟨later, hmem⟩ := hframe
  have hword := SendNode.word_bytes
    (node.stamp (sequence + UInt32.ofNat (s.handled.length + 1)) clock) (i := 4) rfl
  have hlen := SendNode.length_bytes
    (node.stamp (sequence + UInt32.ofNat (s.handled.length + 1)) clock)
  rw [headerSize] at hlen
  have htake : Bytes.word (s.mem i) 16 4 = Bytes.word
      (node.stamp (sequence + UInt32.ofNat (s.handled.length + 1)) clock).bytes 16 4 := by
    rw [hmem, ← Bytes.word_take (k := (node.stamp (sequence +
      UInt32.ofNat (s.handled.length + 1)) clock).bytes.length) (by omega), List.take_left]
  rw [htake]
  exact hword

theorem Inv.frames_step (h : Inv num sequence s) (hframes : Frames sequence s) {e : RxLinkEvent}
    (hguard : Undisturbed s e) (hstep : s.step e = some t) : Frames sequence t := by
  cases e with
  | physicalChannelSend | rxWorker | work =>
      obtain ⟨host, -, -, hsteps⟩ := h.hostStep rfl hstep
      cases hsteps with
      | quiet hused havail =>
          refine ⟨?_, hframes.sequenceRx⟩
          rw [hused]
          exact hframes.channel
      | fills frame i n ring hfills htake =>
          refine ⟨?_, hframes.sequenceRx⟩
          rw [written_fills h htake, hfills.used]
          exact hframes.channel.step (.accept frame)
  | getBuf env =>
      obtain ⟨i, len, ring, htask, hcollect, rfl⟩ := h.getBuf hstep
      obtain ⟨hused, -, -⟩ := Virtqueue.collect_eq_some hcollect
      have hlen := (h.lens (i, len) (hused ▸ List.mem_cons_self)).2
      have hsmall : (UInt64.ofNat len).toNat = len := by
        rw [UInt64.toNat_ofNat']
        exact Nat.mod_eq_of_lt (Nat.lt_of_le_of_lt hlen (by decide))
      refine ⟨?_, hframes.sequenceRx⟩
      have hchannel := hframes.channel
      simp only [written, htask, hused, List.map_cons, List.nil_append] at hchannel
      simp only [written, hsmall]
      exact hchannel
  | physicalChannelRead =>
      obtain ⟨-, hwritten, -, task, rfl⟩ := h.handling.read hstep
      refine ⟨?_, hframes.sequenceRx⟩
      rw [hwritten]
      exact hframes.channel
  | addInbuf =>
      obtain ⟨i, rx, received, htask, hreads, rfl⟩ := h.handling.addInbuf hstep
      have hwritten : s.written = (s.mem i).take rx.readSize.toNat ::
          s.ring.used.map fun b ↦ (s.mem b.1).take b.2 := by
        simp only [written, htask]
        rfl
      refine ⟨hframes.channel.step (.deliver _ _ received hwritten hreads), ?_⟩
      rw [List.length_append, List.length_singleton]
      exact h.sequence_eq hframes hwritten ⟨_, (List.take_append_drop _ _).symm⟩
  | habStatLog =>
      cases hstep
      rcases owned_habStatLog s with ⟨-, hsame⟩ | ⟨i, len, ring, hcollect, -, -⟩
      · rw [hsame]
        exact hframes
      · rw [Virtqueue.collect_eq_none.mpr (hguard)] at hcollect
        cases hcollect

/-! ### Whole runs -/

/-- The `k`-th call of `hab_msg_recv` gets the `k`-th message that was accepted, with the
`k`-th sequence number. -/
def Arrives (sequence : UInt32) (k : ℕ) (node : SendNode) (r : Received) : Prop :=
  ∃ clock, r.Gets (node.stamp (sequence + UInt32.ofNat (k + 1)) clock)

/-- Nothing is on its way. -/
def Idle (s : RxLink) : Prop := s.host.unsent = [] ∧ s.ring.used = [] ∧ s.task = .idle

theorem Inv.of_meets (h : Inv num sequence s) (hframes : Frames sequence s)
    {events : List RxLinkEvent} (hmeets : Runs.Meets RxLink.step Undisturbed s events)
    (hrun : Runs.exec RxLink.step s events = some t) : Inv num sequence t ∧ Frames sequence t := by
  have hkeep (u : RxLink) (e : RxLinkEvent) (v : RxLink)
      (hu : Inv num sequence u ∧ Frames sequence u) (hguard : Undisturbed u e)
      (huv : u.step e = some v) : Inv num sequence v ∧ Frames sequence v :=
    ⟨hu.1.step huv, hu.1.frames_step hu.2 hguard huv⟩
  exact Runs.invariant_of_meets hkeep ⟨h, hframes⟩ hmeets hrun

theorem inv_of_meets {events : List RxLinkEvent}
    (hmeets : Runs.Meets step Undisturbed (start num sequence) events)
    (hrun : Runs.exec step (start num sequence) events = some s) :
    Inv num sequence s ∧ Frames sequence s :=
  (inv_start num sequence).of_meets (frames_start num sequence) hmeets hrun

/-- The host's channel and the guest's, one behind the other. -/
theorem Inv.carries (h : Inv num sequence s) (hframes : Frames sequence s) :
    Channel.Carries (Arrives sequence) s.host.queued s.handled := by
  refine (h.host.carries.comp hframes.channel.carries).mono ?_
  rintro k node r ⟨frame, ⟨clock, rfl⟩, hreads⟩
  exact ⟨clock, hreads.gets⟩

theorem Inv.length_eq_of_idle (h : Inv num sequence s) (hframes : Frames sequence s)
    (hidle : s.Idle) : s.handled.length = s.host.queued.length := by
  obtain ⟨hunsent, hused, htask⟩ := hidle
  have hwritten : s.written = [] := by
    rw [written, htask, hused]
    rfl
  exact (hframes.channel.length_eq hwritten).trans (h.host.length_eq hunsent)

theorem host_to_guest_arrives {events : List RxLinkEvent}
    (hmeets : Runs.Meets step Undisturbed (start num sequence) events)
    (hrun : Runs.exec step (start num sequence) events = some s) :
    Channel.Carries (Arrives sequence) s.host.queued s.handled ∧
      s.sequenceRx = sequence + UInt32.ofNat s.handled.length ∧
      (s.Idle → s.handled.length = s.host.queued.length) := by
  obtain ⟨h, hframes⟩ := inv_of_meets hmeets hrun
  exact ⟨h.carries hframes, hframes.sequenceRx, h.length_eq_of_idle hframes⟩

/-! ### One message at a time -/

/-- All that was accepted is handled, and the host has a buffer. -/
structure Ready (num : ℕ) (sequence : UInt32) (s : RxLink) : Prop where
  inv : Inv num sequence s
  frames : Frames sequence s
  sendList : s.host.sendList = []
  worker : s.host.worker = .idle
  avail : s.ring.avail ≠ []
  used : s.ring.used = []
  task : s.task = .idle

/-- The next message is in a buffer of the guest. -/
structure Written (s : RxLink) (node : SendNode) (t : RxLink) : Prop where
  sendList : t.host.sendList = []
  worker : t.host.worker = .idle
  used : ∃ i len, i ≤ inBufNum ∧ t.ring.used = [(i, len)]
  task : t.task = .idle
  accepted : t.host.queued = s.host.queued
  handled : t.handled = s.handled

/-- The guest has handled it. -/
structure Handled (s : RxLink) (env : RecvEnv) (t : RxLink) : Prop where
  sendList : t.host.sendList = s.host.sendList
  worker : t.host.worker = s.host.worker
  avail : t.ring.avail ≠ []
  used : t.ring.used = []
  task : t.task = .idle
  accepted : t.host.queued = s.host.queued
  handled : ∃ r, r.env = env ∧ t.handled = s.handled ++ [r]

variable {node : SendNode} {clock : RxClock} {env : RecvEnv}

theorem ready_start (hnum : 0 < num) : Ready num sequence (start num sequence) where
  inv := inv_start num sequence
  frames := frames_start num sequence
  sendList := rfl
  worker := rfl
  avail := by
    have hpos : 0 < min num inBufNum := Nat.lt_min.mpr ⟨hnum, by decide⟩
    rw [start, queueInbufs_eq]
    simp only [ne_eq, List.map_eq_nil_iff, List.range_eq_nil]
    exact hpos.ne'
  used := by
    rw [start, queueInbufs_eq]
  task := rfl

theorem Ready.idle (h : Ready num sequence s) : s.Idle := by
  refine ⟨?_, h.used, h.task⟩
  rw [VhostRx.unsent, h.worker]
  exact h.sendList

/-- A step of the host in which it writes nothing. -/
theorem hostStep_of_used_eq {e : RxEvent} (host : VhostRx)
    (hhost : s.host.step VhostRx.vhostExceedsWeight e = some host)
    (hused : host.used = s.host.used) : s.hostStep e = some { s with host } := by
  rw [hostStep, hhost]
  dsimp only
  rw [hused, List.drop_length]

/-- A step of the host in which it fills a buffer. -/
theorem hostStep_of_used_concat {e : RxEvent} {filled : List UInt8} {i n : ℕ}
    {ring : Virtqueue ℕ} (host : VhostRx)
    (hhost : s.host.step VhostRx.vhostExceedsWeight e = some host)
    (hused : host.used = s.host.used ++ [filled]) (htake : s.ring.take = some (i, n, ring)) :
    s.hostStep e = some { s with
      host
      ring := ring.give i filled.length
      mem := Function.update s.mem i (filled ++ (s.mem i).drop filled.length) } := by
  rw [hostStep, hhost]
  dsimp only
  rw [hused, List.drop_left]
  dsimp only
  rw [htake]

/-- The state after `physical_channel_send`. -/
def accept (s : RxLink) (node : SendNode) : RxLink :=
  { s with host := { s.host with
      queued := s.host.queued ++ [node]
      sendList := s.host.sendList ++ [node] } }

theorem step_accept (hnode : node.payload.length ≤ 512) :
    s.step (.physicalChannelSend node) = some (s.accept node) := by
  refine hostStep_of_used_eq _ ?_ rfl
  rw [VhostRx.step, if_neg]
  exact Nat.not_lt.mpr (hnode.trans (by decide))

/-- One run of `rx_worker` for one message. -/
theorem Ready.exists_written (h : Ready num sequence s) (hnode : node.payload.length ≤ 512)
    (clock : RxClock) :
    ∃ t, Runs.exec step (s.accept node) (.rxWorker :: List.replicate 4 (.work clock)) = some t ∧
      Written (s.accept node) node t := by
  obtain ⟨⟨i, n⟩, avail, havail⟩ := List.exists_cons_of_ne_nil h.avail
  obtain ⟨buf, bufs, hbufs⟩ : ∃ buf bufs, s.host.avail = buf :: bufs := by
    refine List.exists_cons_of_ne_nil fun hnil ↦ ?_
    have hroom := h.inv.room
    rw [hnil, havail] at hroom
    cases hroom
  have hbuf := h.inv.roomy.bufs buf (hbufs ▸ List.mem_cons_self)
  have hsize : node.payload.length ≤ inBufSize - headerSize := hnode.trans (by decide)
  have hindex : i < min num inBufNum := by
    refine h.inv.index i (List.mem_append_left _ (Virtqueue.mem_holds_of_avail (n := n) ?_))
    rw [havail]
    exact List.mem_cons_self
  have htake : s.ring.take = some (i, n, ⟨avail, i :: s.ring.taken, s.ring.used⟩) := by
    rw [Virtqueue.take, havail]
  have hlist : (s.accept node).host.sendList = [node] := by
    rw [accept, h.sendList]
    rfl
  -- `rx_worker` is woken, takes the message up, writes it, takes it off the list and stops
  let looking : VhostRx := { (s.accept node).host with worker := .looking }
  let sending : VhostRx := { looking with worker := .sending 0 0 }
  let sent : VhostRx := sending.sent clock node [] bufs
  let taken : VhostRx := { sent with sendList := [], worker := .looking }
  let frame := (node.stamp (s.host.sequenceTx + 1) clock).bytes
  let link : RxLink := { s.accept node with
    ring := Virtqueue.give ⟨avail, i :: s.ring.taken, s.ring.used⟩ i frame.length
    mem := Function.update s.mem i (frame ++ (s.mem i).drop frame.length) }
  have hlook : (s.accept node).step .rxWorker = some { s.accept node with host := looking } := by
    refine hostStep_of_used_eq looking ?_ rfl
    rw [VhostRx.step, show (s.accept node).host.worker = .idle from h.worker]
  have hbegin : step { s.accept node with host := looking } (.work clock) =
      some { s.accept node with host := sending } :=
    hostStep_of_used_eq (s := { s.accept node with host := looking }) sending
      (VhostRx.work_begin (s := looking) rfl hlist clock) rfl
  have hwrite : step { s.accept node with host := sending } (.work clock) =
      some { link with host := sent } :=
    hostStep_of_used_concat (s := { s.accept node with host := sending }) sent
      (VhostRx.work_sent (s := sending) rfl hlist hbufs hbuf hsize clock) rfl htake
  have htaken : step { link with host := sent } (.work clock) =
      some { link with host := taken } :=
    hostStep_of_used_eq (s := { link with host := sent }) taken
      (VhostRx.work_done (s := sent) rfl rfl clock) rfl
  have hstop : step { link with host := taken } (.work clock) =
      some { link with host := { taken with worker := .idle } } :=
    hostStep_of_used_eq (s := { link with host := taken }) { taken with worker := .idle }
      (VhostRx.work_stop (s := taken) rfl rfl clock) rfl
  refine ⟨{ link with host := { taken with worker := .idle } }, ?_, rfl, rfl, ?_, h.task, rfl, rfl⟩
  · refine (Runs.exec_cons hlook _).trans ((Runs.exec_cons hbegin _).trans ?_)
    refine (Runs.exec_cons hwrite _).trans ((Runs.exec_cons htaken _).trans ?_)
    exact Runs.exec_cons hstop []
  · refine ⟨i, frame.length, (hindex.trans_le (Nat.min_le_right _ _)).le, ?_⟩
    show s.ring.used ++ [(i, frame.length)] = [(i, frame.length)]
    rw [h.used, List.nil_append]

/-- The reads of a call of `hab_msg_recv`, one after the other. -/
theorem exec_reads {i : ℕ} {rx : RxRead} {received : Received} {reads : List ℕ}
    (htask : s.task = .handling i rx received reads) :
    ∃ rx' received', received'.env = received.env ∧
      Runs.exec step s (List.replicate reads.length .physicalChannelRead) =
        some { s with task := .handling i rx' received' [] } := by
  induction reads generalizing s rx received with
  | nil =>
      refine ⟨rx, received, rfl, ?_⟩
      rw [← htask]
      rfl
  | cons n reads ih =>
      obtain ⟨rx', received', hread, henv⟩ : ∃ rx' received',
          s.step .physicalChannelRead =
              some { s with task := .handling i rx' received' reads } ∧
            received'.env = received.env := by
        rw [step, physicalChannelRead, htask]
        exact ⟨_, _, rfl, rfl⟩
      obtain ⟨rx'', received'', henv', hrun⟩ :=
        ih (s := { s with task := .handling i rx' received' reads }) rfl
      refine ⟨rx'', received'', henv'.trans henv, ?_⟩
      rw [List.length_cons, List.replicate_succ, Runs.exec_cons hread]
      exact hrun

/-- Nothing of this is the statistics. -/
theorem undisturbed_of_ne {events : List RxLinkEvent} (h : RxLinkEvent.habStatLog ∉ events) :
    ∀ e ∈ events, ∀ s, Undisturbed s e := by
  intro e he s
  cases e with
  | habStatLog => exact absurd he h
  | physicalChannelSend | rxWorker | work | getBuf | physicalChannelRead | addInbuf => trivial

/-- `virthab_recv_rxq` for one buffer. -/
theorem Written.exists_handled (h : Written s node t) (env : RecvEnv) :
    ∃ n u v, Runs.exec step t (.getBuf env :: List.replicate n .physicalChannelRead) = some u ∧
      u.host.queued = t.host.queued ∧ u.handled = t.handled ∧ u.step .addInbuf = some v ∧
        Handled t env v := by
  obtain ⟨i, len, hi, hused⟩ := h.used
  have hget : t.step (.getBuf env) = some { t with
      ring := { t.ring with used := [] }
      inCnt := t.inCnt - 1
      task := .handling i ⟨UInt64.ofNat len, 0⟩ ⟨env, (t.mem i).take headerSize, []⟩
        (habMsgRecvReads env (HabHeader.ofBytes (t.mem i))) } := by
    rw [step, getBuf, h.task, Virtqueue.collect, hused]
    exact if_neg (Nat.not_lt.mpr hi)
  obtain ⟨rx, received, henv, hrun⟩ := exec_reads (s := { t with
      ring := { t.ring with used := [] }
      inCnt := t.inCnt - 1
      task := .handling i ⟨UInt64.ofNat len, 0⟩ ⟨env, (t.mem i).take headerSize, []⟩
        (habMsgRecvReads env (HabHeader.ofBytes (t.mem i))) }) rfl
  refine ⟨_, _, _, (Runs.exec_cons hget _).trans hrun, rfl, rfl, rfl, rfl, rfl, ?_, rfl, rfl, rfl,
    received, henv, rfl⟩
  exact List.append_ne_nil_of_right_ne_nil _ (List.cons_ne_nil _ _)

/-- Two messages, and a look at the statistics when both have been collected. -/
def twoMessages : List RxLinkEvent :=
  let env : RecvEnv := ⟨true, false, true, true⟩
  [.physicalChannelSend VhostRx.fourBytes, .physicalChannelSend VhostRx.fourBytes, .rxWorker] ++
    List.replicate 7 (.work ⟨0, 0, 0⟩) ++
    [.getBuf env, .physicalChannelRead, .addInbuf, .getBuf env, .habStatLog,
      .physicalChannelRead, .addInbuf]

theorem host_to_guest_arrives_twoMessages :
    ∃ s, Runs.exec step (start 2 6) twoMessages = some s ∧
      s.handled.map Received.payload = [[1, 2, 3, 4], [1, 2, 3, 4]] ∧ s.Idle ∧
      Channel.Carries (Arrives 6) s.host.queued s.handled ∧
      s.sequenceRx = 6 + UInt32.ofNat s.handled.length ∧
      (s.Idle → s.handled.length = s.host.queued.length) := by
  have hseen : (Runs.exec step (start 2 6) twoMessages).map (fun s ↦
      (s.handled.map Received.payload, s.host.unsent.length, s.ring.used, s.inHand)) =
        some ([[1, 2, 3, 4], [1, 2, 3, 4]], 0, [], []) := by
    decide +kernel
  obtain ⟨s, hrun, hend⟩ := Option.map_eq_some_iff.mp hseen
  simp only [Prod.mk.injEq, List.length_eq_zero_iff] at hend
  obtain ⟨hhandled, hunsent, hused, hhand⟩ := hend
  have hidle : s.task = .idle := by
    rw [inHand] at hhand
    split at hhand
    next htask => exact htask
    next => cases hhand
  exact ⟨s, hrun, hhandled, ⟨hunsent, hused, hidle⟩, host_to_guest_arrives (by decide +kernel) hrun⟩

theorem Inv.owned_subperm (h : Inv num sequence s) :
    s.owned.Subperm (List.range (min num inBufNum)) :=
  List.subperm_of_subset h.nodup fun i hi ↦ List.mem_range.mpr (h.index i hi)

/-- The guest has all its buffers exactly if the statistics took none of them. -/
theorem buffers_conserved_iff {events : List RxLinkEvent}
    (hrun : Runs.exec step (start num sequence) events = some s) :
    Conserved num s ↔ Runs.Meets step Undisturbed (start num sequence) events := by
  refine Runs.iff_meets_of_exec (J := Inv num sequence) (fun u e v hu huv ↦ hu.step huv) ?_
    (inv_start num sequence) ?_ hrun
  · intro u e v hu huv
    rcases hu.owned_step huv with ⟨hguard, hperm⟩ | ⟨hguard, i, hperm⟩
    · exact ⟨fun hv ↦ ⟨hguard, hperm.symm.trans hv⟩, fun h ↦ hperm.trans h.2⟩
    · refine iff_of_false ?_ fun h ↦ hguard h.1
      -- one buffer fewer than before, and there were no more than all of them
      intro hv
      have hle := hu.owned_subperm.length_le
      rw [hperm.length_eq, List.length_cons, ← hv.length_eq] at hle
      exact absurd hle (Nat.not_succ_le_self _)
  · exact List.Perm.of_eq (owned_start num sequence)

theorem buffers_conserved_iff_twoMessages :
    ∃ s, Runs.exec step (start 2 6) twoMessages = some s ∧ s.handled.length = 2 ∧
      (Conserved 2 s ↔ Runs.Meets step Undisturbed (start 2 6) twoMessages) := by
  have hseen : (Runs.exec step (start 2 6) twoMessages).map (fun s ↦ s.handled.length) =
      some 2 := by
    decide +kernel
  obtain ⟨s, hrun, hhandled⟩ := Option.map_eq_some_iff.mp hseen
  exact ⟨s, hrun, hhandled, buffers_conserved_iff hrun⟩

end RxLink

/-! ## Suspend and resume -/

/-- The link with the list of the buffers that are not queued. -/
structure RxGuest where
  link : RxLink
  /-- `vpc->in_list`, by index. -/
  inList : List ℕ

inductive RxGuestEvent
  | link (e : RxLinkEvent)
  /-- `virthab_freeze` and `virthab_restore`, while `virthab_recv_rxq` does not run. -/
  | suspend

namespace RxGuest

/-- `virthab_queue_inbufs`, on a new virtqueue of `num` entries. -/
def virthabQueueInbufs (num : ℕ) (alloc : Bool) (s : RxGuest) : RxGuest :=
  let inList := if alloc then List.range RxLink.inBufNum else s.inList
  let queued := inList.take num
  { link := { s.link with
      host := { s.link.host with avail := List.replicate queued.length RxLink.inbuf }
      ring := queued.foldl (fun q i ↦ q.add i inBufSize) .empty
      inCnt := (if alloc then (inList.length : ℤ) else s.link.inCnt) - inList.length }
    inList := [] }

/-- After `virthab_probe`. -/
def start (num : ℕ) (sequence : UInt32) : RxGuest :=
  virthabQueueInbufs num true ⟨RxLink.start 0 sequence, []⟩

def step (num : ℕ) (s : RxGuest) : RxGuestEvent → Option RxGuest
  | .link e => (s.link.step e).map fun link ↦ { s with link }
  | .suspend =>
      match s.link.task with
      | .idle => some (virthabQueueInbufs num false s)
      | _ => none

/-- No buffer of the guest is queued, and none will be. -/
structure Deaf (s : RxGuest) : Prop where
  avail : s.link.ring.avail = []
  used : s.link.ring.used = []
  host : s.link.host.avail = []
  task : s.link.task = .idle
  inList : s.inList = []

variable {num : ℕ} {sequence : UInt32} {s t : RxGuest}

/-- The worker writes nothing without a buffer. -/
theorem host_step_of_avail_nil {s t : VhostRx} {e : RxEvent} (havail : s.avail = [])
    (he : e.bufs = []) (hstep : s.step VhostRx.vhostExceedsWeight e = some t) :
    t.avail = [] ∧ t.used = s.used := by
  cases e with
  | physicalChannelSend node =>
      rw [VhostRx.step] at hstep
      split at hstep <;> cases hstep <;> exact ⟨havail, rfl⟩
  | addBuffers bufs =>
      cases hstep
      exact ⟨by rw [havail, show bufs = [] from he]; rfl, rfl⟩
  | rxWorker =>
      rw [VhostRx.step] at hstep
      split at hstep <;> cases hstep
      exact ⟨havail, rfl⟩
  | work clock =>
      rw [VhostRx.step, VhostRx.workStep] at hstep
      split at hstep
      next => cases hstep
      next =>
        cases hstep
        exact ⟨havail, rfl⟩
      next =>
        split at hstep
        next => cases hstep
        next =>
          split at hstep
          next =>
            cases hstep
            rw [VhostRx.sendTurn_nil havail]
            exact ⟨havail, rfl⟩
          next =>
            cases hstep
            exact ⟨havail, rfl⟩

theorem Deaf.hostStep (h : Deaf s) {e : RxEvent} (he : e.bufs = []) {link : RxLink}
    (hstep : s.link.hostStep e = some link) :
    Deaf { s with link } ∧ link.handled = s.link.handled := by
  rw [RxLink.hostStep] at hstep
  split at hstep
  next => cases hstep
  next host hhost =>
    obtain ⟨havail, hused⟩ := host_step_of_avail_nil h.host he hhost
    rw [hused, List.drop_length] at hstep
    cases hstep
    exact ⟨⟨h.avail, h.used, havail, h.task, h.inList⟩, rfl⟩

theorem Deaf.step (h : Deaf s) {e : RxGuestEvent} (hstep : s.step num e = some t) :
    Deaf t ∧ t.link.handled = s.link.handled := by
  cases e with
  | suspend =>
      rw [RxGuest.step, h.task] at hstep
      cases hstep
      refine ⟨⟨?_, ?_, ?_, h.task, rfl⟩, rfl⟩ <;> simp [virthabQueueInbufs, h.inList, Virtqueue.empty]
  | link e =>
      obtain ⟨link, hlink, rfl⟩ := Option.map_eq_some_iff.mp hstep
      cases e with
      | physicalChannelSend | rxWorker | work => exact h.hostStep rfl hlink
      | getBuf env =>
          have hnone : s.link.ring.collect = none := Virtqueue.collect_eq_none.mpr h.used
          rw [RxLink.step, RxLink.getBuf, h.task, hnone] at hlink
          cases hlink
      | physicalChannelRead =>
          rw [RxLink.step, RxLink.physicalChannelRead, h.task] at hlink
          cases hlink
      | addInbuf =>
          rw [RxLink.step, RxLink.addInbuf, h.task] at hlink
          cases hlink
      | habStatLog =>
          have hnone : s.link.ring.collect = none := Virtqueue.collect_eq_none.mpr h.used
          have hsame : s.link.habStatLog = s.link := by rw [RxLink.habStatLog, hnone]
          cases hlink
          rw [hsame]
          exact ⟨h, rfl⟩

/-- `in_list` is empty ever since the probe. -/
theorem inList_step (h : s.inList = []) {e : RxGuestEvent} (hstep : s.step num e = some t) :
    t.inList = [] := by
  cases e with
  | suspend =>
      rw [RxGuest.step] at hstep
      split at hstep <;> cases hstep
      rfl
  | link e =>
      obtain ⟨link, -, rfl⟩ := Option.map_eq_some_iff.mp hstep
      exact h

theorem deaf_suspend (h : s.inList = []) (hstep : s.step num .suspend = some t) :
    Deaf t ∧ t.link.handled = s.link.handled := by
  rw [RxGuest.step] at hstep
  split at hstep
  next htask =>
    cases hstep
    refine ⟨⟨?_, ?_, ?_, htask, rfl⟩, rfl⟩ <;> simp [virthabQueueInbufs, h, Virtqueue.empty]
  next => cases hstep

/-- The guest receives nothing after a suspend: the buffers went with the old virtqueue,
and `in_list`, from which the new one is filled, has been empty since the probe. -/
theorem handled_eq_of_suspend {before later : List RxGuestEvent} {u : RxGuest}
    (hbefore : Runs.exec (step num) (start num sequence) before = some s)
    (hsuspend : s.step num .suspend = some t) (hlater : Runs.exec (step num) t later = some u) :
    u.link.handled = s.link.handled := by
  have hlist : s.inList = [] := Runs.invariant_of_exec (I := fun s ↦ s.inList = [])
    (fun _ _ _ h hstep ↦ inList_step h hstep) rfl hbefore
  obtain ⟨hdeaf, hhandled⟩ := deaf_suspend hlist hsuspend
  have hkeep : ∀ (v : RxGuest) (e : RxGuestEvent) (w : RxGuest),
      Deaf v ∧ v.link.handled = t.link.handled → v.step num e = some w →
        Deaf w ∧ w.link.handled = t.link.handled := by
    rintro v e w ⟨hv, hsame⟩ hstep
    obtain ⟨hw, hnext⟩ := hv.step hstep
    exact ⟨hw, hnext.trans hsame⟩
  exact (Runs.invariant_of_exec hkeep ⟨hdeaf, rfl⟩ hlater).2.trans hhandled

/-- A message that is sent after the suspend. -/
def oneLater : List RxGuestEvent :=
  [.link (.physicalChannelSend VhostRx.fourBytes), .link .rxWorker, .link (.work ⟨0, 0, 0⟩),
    .link (.work ⟨0, 0, 0⟩)]

theorem handled_eq_of_suspend_oneLater :
    ∃ s t u, Runs.exec (step 2) (start 2 6) ((RxLink.twoMessages.take 13).map .link) = some s ∧
      s.step 2 .suspend = some t ∧ Runs.exec (step 2) t oneLater = some u ∧
      u.link.handled = s.link.handled := by
  have hseen : ((Runs.exec (step 2) (start 2 6) ((RxLink.twoMessages.take 13).map .link)).bind
      fun s ↦ (s.step 2 .suspend).bind fun t ↦ Runs.exec (step 2) t oneLater).isSome := by
    decide +kernel
  obtain ⟨u, hseen⟩ := Option.isSome_iff_exists.mp hseen
  obtain ⟨s, hbefore, hseen⟩ := Option.bind_eq_some_iff.mp hseen
  obtain ⟨t, hsuspend, hlater⟩ := Option.bind_eq_some_iff.mp hseen
  exact ⟨s, t, u, hbefore, hsuspend, hlater, handled_eq_of_suspend hbefore hsuspend hlater⟩

end RxGuest

end Hab
