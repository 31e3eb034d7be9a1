import Hab.GuardBand
import Hab.Library.Virtqueue
import Hab.VhostChannel

/-!
# From the guest to the host

`physical_channel_send` of the guest copies a message into a buffer of a pool and adds
it to the tx virtqueue.  `tx_worker` reads it there, through an iterator, while the guest
goes on filling other buffers; `virthab_recv_txq` puts a buffer back on its list when the
host has given it back.-/

namespace Hab

/-- Where `tx_worker` stands: it does not run, it looks for a buffer, or it is in
`hab_msg_recv` for one, with the reads that are to come. -/
inductive TxWorker
  | idle
  | looking (totalLen : ℕ)
  | handling (hd : VhBufHeader) (outIter : OutIter) (totalLen : ℕ) (received : Received)
      (reads : List ℕ)

/-- A tx virtqueue with the guest at one end and the host at the other. -/
structure TxLink where
  guest : VqPchan
  /-- The messages that were added to the virtqueue. -/
  accepted : List SendNode
  /-- The buffers with the host, with the length of `sgout`. -/
  ring : Virtqueue VhBufHeader
  /-- `s_pool`, `m_pool` and `l_pool`. -/
  pools : PoolType → List UInt8
  worker : TxWorker
  /-- `pchan->sequence_rx`. -/
  sequenceRx : UInt32
  /-- How often `tx_worker` has found a wrong sequence number. -/
  gaps : ℕ
  /-- The calls of `hab_msg_recv` that have returned. -/
  handled : List Received

inductive TxLinkEvent
  /-- The guest: a sender, or the set-up. -/
  | pchanReady
  | linkVpc
  | physicalChannelSend (message : SendNode) (clock : RxClock) (accepts : Bool)
  | wake (i : ℕ) (clock : RxClock) (accepts : Bool)
  /-- `virthab_recv_txq` collects all buffers that were given back. -/
  | recvTxq
  /-- The host. -/
  | txWorker
  | getVqDesc (env : RecvEnv)
  | physicalChannelRead
  | addUsed
  /-- `hab_stat_log` collects a buffer, if there is one, to show its length. -/
  | habStatLog

namespace TxLink

def start : TxLink where
  guest := VqPchan.start
  accepted := []
  ring := .empty
  pools := fun p ↦ List.replicate (VhPool.out p).poolSize 0
  worker := .idle
  sequenceRx := 0
  gaps := 0
  handled := []

/-- A call that fills a buffer: which one, with which message, and whether the virtqueue
accepts it. -/
structure Taking where
  hd : VhBufHeader
  message : SendNode
  clock : RxClock
  accepts : Bool

/-- The buffer that an event of the guest fills. -/
def taking (guest : VqPchan) : VirtioEvent → Option Taking
  | .physicalChannelSend message clock accepts =>
      if guest.linked ∧ message.payload.length ≤ PoolType.bufSize .outLarge ∧ guest.pchanReady then
        (guest.freeList (PoolType.ofSize message.payload.length)).head?.map
          fun hd ↦ ⟨hd, message, clock, accepts⟩
      else none
  | .wake i clock accepts =>
      (guest.waiting.get i).bind fun message ↦
        (guest.freeList (PoolType.ofSize message.payload.length)).head?.map
          fun hd ↦ ⟨hd, message, clock, accepts⟩
  | _ => none

/-- A step of the guest, and what it copies; `none` where a copy leaves the pool. -/
def guestStep (s : TxLink) (e : VirtioEvent) : Option TxLink :=
  match s.guest.step e with
  | none => none
  | some guest =>
      match taking s.guest e with
      | none => some { s with guest }
      | some ⟨hd, message, clock, accepts⟩ =>
          let stamped := message.stamp (s.guest.sequenceTx + 1) clock
          match fillAt s.pools hd stamped with
          | none => none
          | some pool =>
              let s := { s with guest, pools := Function.update s.pools hd.poolType pool }
              if accepts then
                some { s with
                  ring := s.ring.add hd (headerSize + stamped.payload.length)
                  accepted := s.accepted ++ [message] }
              else some s

/-- `virthab_recv_txq`. -/
def recvTxq (s : TxLink) : Option TxLink :=
  if s.guest.pchanReady then
    match s.guest.recvTxq (s.ring.used.map Prod.fst) with
    | none => none
    | some guest => some { s with guest, ring := { s.ring with used := [] } }
  else some s

/-- `vhost_get_vq_desc`, the copy of the header and the call of `hab_msg_recv`. -/
def getVqDesc (s : TxLink) (env : RecvEnv) : Option TxLink :=
  match s.worker with
  | .looking totalLen =>
      match s.ring.take with
      | none => some { s with worker := .idle } -- no more tx buf
      | some (hd, outLen, ring) =>
          let frame := frameAt s.pools hd outLen
          let next := (OutIter.mk 0 outLen outLen).copyFromIter headerSize
          some { s with
            ring
            worker := .handling hd next.2 (totalLen + outLen) ⟨env, frame.take next.1, []⟩
              (habMsgRecvReads env (HabHeader.ofBytes (frame.take next.1))) }
  | _ => none

def physicalChannelRead (s : TxLink) : Option TxLink :=
  match s.worker with
  | .handling hd outIter totalLen received (n :: reads) =>
      let next := outIter.physicalChannelRead n
      let piece := ((frameAt s.pools hd outIter.count).drop next.1.start).take next.1.length
      some { s with
        worker := .handling hd next.2 totalLen
          { received with payload := received.payload ++ piece } reads }
  | _ => none

/-- `hab_msg_recv` returns; the sequence number is checked, and the buffer given back. -/
def addUsed (s : TxLink) : Option TxLink :=
  match s.worker with
  | .handling hd _ totalLen received [] =>
      let sequence := UInt32.ofNat ((Bytes.word received.header 16 4).getD 0)
      some { s with
        ring := s.ring.give hd 0
        worker := if VhostRx.vhostExceedsWeight totalLen then .idle else .looking totalLen
        sequenceRx := sequence
        gaps := if s.sequenceRx + 1 = sequence then s.gaps else s.gaps + 1
        handled := s.handled ++ [received] }
  | _ => none

/-- The buffer that was collected is not put on its list again. -/
def habStatLog (s : TxLink) : TxLink :=
  match s.ring.collect with
  | some (_, _, ring) => { s with ring }
  | none => s

def step (s : TxLink) : TxLinkEvent → Option TxLink
  | .pchanReady => s.guestStep .pchanReady
  | .linkVpc => s.guestStep .linkVpc
  | .physicalChannelSend message clock accepts =>
      s.guestStep (.physicalChannelSend message clock accepts)
  | .wake i clock accepts => s.guestStep (.wake i clock accepts)
  | .recvTxq => s.recvTxq
  | .txWorker =>
      match s.worker with
      | .idle => some { s with worker := .looking 0 }
      | _ => none
  | .getVqDesc env => s.getVqDesc env
  | .physicalChannelRead => s.physicalChannelRead
  | .addUsed => s.addUsed
  | .habStatLog => some s.habStatLog

/-! ## What is to hold -/

/-- The buffer that the host is reading from. -/
def inHand (s : TxLink) : List VhBufHeader :=
  match s.worker with
  | .handling hd _ _ _ _ => [hd]
  | _ => []

/-- The frames that were added and are not handled yet. -/
def written (s : TxLink) : List (List UInt8) :=
  (match s.worker with
    | .handling hd outIter _ _ _ => [frameAt s.pools hd outIter.count]
    | _ => []) ++
    s.ring.avail.map fun b ↦ frameAt s.pools b.1 b.2

/-- The virtqueue refuses no buffer, and the statistics are read while none waits to be
collected. -/
def Undisturbed (s : TxLink) : TxLinkEvent → Prop
  | .physicalChannelSend message clock accepts =>
      s.guest.Accepted (.physicalChannelSend message clock accepts)
  | .wake i clock accepts => s.guest.Accepted (.wake i clock accepts)
  | .habStatLog => s.ring.used = []
  | _ => True

/-- Where the call of `hab_msg_recv` has got to in its frame. -/
def Handling (s : TxLink) : Prop :=
  match s.worker with
  | .handling hd outIter _ received reads => ∃ len done,
      outIter = ⟨min (headerSize + done) len, len, len⟩ ∧ headerSize ≤ len ∧
        len ≤ headerSize + hd.poolType.bufSize ∧ hd.index < hd.poolType.bufNum ∧
        received.Reading (frameAt s.pools hd len) done reads
  | _ => True

/-! ## The guest -/

section Guest

variable {g g' : VqPchan} {e : VirtioEvent} {k : Taking}

/-- A step of the guest that fills no buffer. -/
structure Rests (g g' : VqPchan) : Prop where
  txq : g'.txq = g.txq
  out : g'.out = g.out
  sequenceTx : g'.sequenceTx = g.sequenceTx

/-- A step of the guest that fills a buffer and adds it. -/
structure Adds (g : VqPchan) (k : Taking) (g' : VqPchan) : Prop where
  accepts : k.accepts = true
  free : k.hd ∈ g.freeList (PoolType.ofSize k.message.payload.length)
  size : k.message.payload.length ≤ PoolType.bufSize .outLarge
  txq : g'.txq = g.txq ++ [k.hd]
  out : g'.out = g.out ++ [(k.message.stamp (g.sequenceTx + 1) k.clock).bytes]
  sequenceTx : g'.sequenceTx = g.sequenceTx + 1

/-- The calls that wait have passed the check of the size. -/
def Waits (g : VqPchan) : Prop :=
  ∀ i message, g.waiting.get i = some message → message.payload.length ≤ PoolType.bufSize .outLarge

/-- A call that gets its buffer, where the virtqueue accepts it. -/
theorem adds_of_sendLocked {message : SendNode} {clock : RxClock} {accepts : Bool}
    (h : g.sendLocked message clock accepts = some g')
    (hsize : message.payload.length ≤ PoolType.bufSize .outLarge)
    (haccepts : g.freeList (PoolType.ofSize message.payload.length) ≠ [] → accepts = true) :
    ∃ hd, (g.freeList (PoolType.ofSize message.payload.length)).head? = some hd ∧
      Adds g ⟨hd, message, clock, accepts⟩ g' ∧ g'.waiting = g.waiting := by
  rw [VqPchan.sendLocked] at h
  split at h
  next => cases h
  next hd rest hlist =>
    have haccept := haccepts (hlist ▸ List.cons_ne_nil hd rest)
    cases h
    refine ⟨hd, by rw [hlist]; rfl,
      ⟨haccept, hlist ▸ List.mem_cons_self, hsize, if_pos haccept, if_pos haccept, rfl⟩, rfl⟩

theorem head?_eq_none_of_sendLocked {message : SendNode} {clock : RxClock} {accepts : Bool}
    (h : g.sendLocked message clock accepts = none) :
    (g.freeList (PoolType.ofSize message.payload.length)).head? = none :=
  List.head?_eq_none_iff.mpr (VqPchan.sendLocked_eq_none.mp h)

/-- What a step of the guest does with the buffers. -/
theorem guest_step_cases (hwaits : Waits g) (haccepted : g.Accepted e)
    (hrecv : ∀ done, e ≠ .recvTxq done) (hstep : g.step e = some g') :
    Waits g' ∧ (taking g e = none ∧ Rests g g' ∨ ∃ k, taking g e = some k ∧ Adds g k g') := by
  cases e with
  | pchanReady | linkVpc =>
      cases hstep
      exact ⟨hwaits, .inl ⟨rfl, rfl, rfl, rfl⟩⟩
  | physicalChannelSend message clock accepts =>
      rw [VqPchan.step] at hstep
      rw [taking]
      by_cases hlinked : g.linked = true
      · rw [if_neg (by simp [hlinked])] at hstep
        by_cases hsize : message.payload.length ≤ PoolType.bufSize .outLarge
        · obtain ⟨hready, haccepts⟩ := haccepted hlinked hsize
          rw [if_neg (Nat.not_lt.mpr hsize), if_neg (by simp [hready])] at hstep
          rw [if_pos ⟨hlinked, hsize, hready⟩]
          split at hstep
          next u hu =>
            cases hstep
            obtain ⟨hd, hhead, hadds, hwaiting⟩ := adds_of_sendLocked hu hsize haccepts
            refine ⟨by rw [Waits, hwaiting]; exact hwaits, .inr ⟨_, ?_, hadds⟩⟩
            rw [hhead]
            rfl
          next hnone =>
            cases hstep
            refine ⟨?_, .inl ⟨?_, rfl, rfl, rfl⟩⟩
            · intro i message' hget
              rcases Pool.get_spawn.mp hget with ⟨-, rfl⟩ | hget
              · exact hsize
              · exact hwaits i message' hget
            · rw [head?_eq_none_of_sendLocked hnone]
              rfl
        · rw [if_pos (Nat.lt_of_not_le hsize)] at hstep
          cases hstep
          exact ⟨hwaits, .inl ⟨if_neg fun h ↦ hsize h.2.1, rfl, rfl, rfl⟩⟩
      · rw [if_pos (by simp [hlinked])] at hstep
        cases hstep
        exact ⟨hwaits, .inl ⟨if_neg fun h ↦ hlinked h.1, rfl, rfl, rfl⟩⟩
  | wake i clock accepts =>
      rw [VqPchan.step] at hstep
      rw [taking]
      split at hstep
      next => cases hstep
      next message hget =>
        rw [hget, Option.bind_some]
        have hsize := hwaits i message hget
        split at hstep
        next u hu =>
          cases hstep
          obtain ⟨hd, hhead, hadds, hwaiting⟩ :=
            adds_of_sendLocked hu hsize (haccepted message hget)
          refine ⟨?_, .inr ⟨⟨hd, message, clock, accepts⟩, ?_, hadds.accepts, hadds.free,
            hadds.size, hadds.txq, hadds.out, hadds.sequenceTx⟩⟩
          · intro j message' hget'
            dsimp only at hget'
            rw [hwaiting] at hget'
            rcases (Pool.get_set (Pool.lt_next hget)).mp hget' with ⟨-, hnone⟩ | ⟨-, hget'⟩
            · cases hnone
            · exact hwaits j message' hget'
          · rw [hhead]
            rfl
        next hnone =>
          cases hstep
          refine ⟨hwaits, .inl ⟨?_, rfl, rfl, rfl⟩⟩
          rw [head?_eq_none_of_sendLocked hnone]
          rfl
  | recvTxq done => exact absurd rfl (hrecv done)

/-- A call that fills a buffer has passed its checks, and goes through. -/
theorem taking_eq_some (hwaits : Waits g) (h : taking g e = some k) :
    k.hd ∈ g.freeList (PoolType.ofSize k.message.payload.length) ∧
      k.message.payload.length ≤ PoolType.bufSize .outLarge ∧ ∃ g', g.step e = some g' := by
  cases e with
  | pchanReady | linkVpc | recvTxq => cases h
  | physicalChannelSend message clock accepts =>
      rw [taking] at h
      split at h
      next hchecks =>
        obtain ⟨hd, hhead, rfl⟩ := Option.map_eq_some_iff.mp h
        refine ⟨List.mem_of_mem_head? hhead, hchecks.2.1, ?_⟩
        rw [VqPchan.step, if_neg (by simp [hchecks.1]), if_neg (Nat.not_lt.mpr hchecks.2.1),
          if_neg (by simp [hchecks.2.2])]
        split <;> exact ⟨_, rfl⟩
      next => cases h
  | wake i clock accepts =>
      rw [taking] at h
      obtain ⟨message, hget, hmap⟩ := Option.bind_eq_some_iff.mp h
      obtain ⟨hd, hhead, rfl⟩ := Option.map_eq_some_iff.mp hmap
      refine ⟨List.mem_of_mem_head? hhead, hwaits i message hget, ?_⟩
      rw [VqPchan.step, hget]
      dsimp only
      split <;> exact ⟨_, rfl⟩

/-- The buffers that are collected are the ones that leave the virtqueue. -/
theorem recvTxq_cases {done : List VhBufHeader} (h : g.recvTxq done = some g') :
    g.txq.Perm (done ++ g'.txq) ∧ g'.out = g.out ∧ g'.sequenceTx = g.sequenceTx ∧
      g'.waiting = g.waiting := by
  induction done generalizing g with
  | nil =>
      cases h
      exact ⟨List.Perm.refl _, rfl, rfl, rfl⟩
  | cons hd done ih =>
      rw [VqPchan.recvTxq] at h
      split at h
      next hmem =>
        obtain ⟨hperm, hout, hsequence, hwaiting⟩ := ih h
        exact ⟨(List.perm_cons_erase hmem).trans (hperm.cons hd), hout, hsequence, hwaiting⟩
      next => cases h

end Guest

/-! ## Both ends -/

structure Inv (s : TxLink) : Prop where
  conserved : s.guest.Conserved
  waits : Waits s.guest
  txq : s.guest.txq.Perm s.ring.holds
  taken : s.ring.taken = s.inHand
  pools : ∀ p, (s.pools p).length = (VhPool.out p).poolSize
  lens : ∀ b ∈ s.ring.avail, headerSize ≤ b.2 ∧ b.2 ≤ headerSize + b.1.poolType.bufSize
  handling : s.Handling
  out : Channel.Carries (VhostRx.Stamped 0) s.accepted s.guest.out
  all : s.guest.out.length = s.accepted.length
  sequenceTx : s.guest.sequenceTx = UInt32.ofNat s.guest.out.length
  channel : Channel.Lossless (fun _ frame r ↦ r.Reads frame) ⟨s.guest.out, s.written, s.handled⟩
  sequenceRx : s.sequenceRx = UInt32.ofNat s.handled.length
  gaps : s.gaps = 0

variable {s t : TxLink} {hd : VhBufHeader}

theorem inv_start : Inv start where
  conserved := VqPchan.conserved_start
  waits := by
    intro i message hget
    cases hget
  txq := List.Perm.refl _
  taken := rfl
  pools := fun _ ↦ List.length_replicate
  lens := by
    intro b hb
    cases hb
  handling := trivial
  out := .nil
  all := rfl
  sequenceTx := rfl
  channel := .start
  sequenceRx := rfl
  gaps := rfl

theorem Inv.index_lt (h : Inv s) (hhd : hd ∈ s.ring.holds) : hd.index < hd.poolType.bufNum := by
  have hcount := h.conserved.once hd
  have hpos := List.count_pos_iff.mpr (h.txq.mem_iff.mpr hhd)
  by_contra hge
  rw [if_neg hge] at hcount
  omega

/-- A buffer on a list of the guest is not with the host. -/
theorem Inv.free (h : Inv s) {p : PoolType} (hfree : hd ∈ s.guest.freeList p) :
    hd.poolType = p ∧ hd.index < hd.poolType.bufNum ∧ hd ∉ s.ring.holds := by
  obtain rfl := h.conserved.own p hd hfree
  have hcount := h.conserved.once hd
  have hpos := List.count_pos_iff.mpr hfree
  refine ⟨rfl, ?_, ?_⟩
  · by_contra hge
    rw [if_neg hge] at hcount
    omega
  · intro hmem
    have hpos' := List.count_pos_iff.mpr (h.txq.mem_iff.mpr hmem)
    split at hcount <;> omega

theorem le_bufSize_ofSize {n : ℕ} (h : n ≤ PoolType.bufSize .outLarge) :
    n ≤ (PoolType.ofSize n).bufSize := by
  rcases Nat.lt_or_ge 512 n with hlarge | hsmall
  · rw [ofSize_large hlarge]
    exact h
  · rw [ofSize_small hsmall]
    exact hsmall

theorem mem_holds_of_inHand (h : Inv s) (hhd : hd ∈ s.inHand) : hd ∈ s.ring.holds :=
  List.mem_append_right _ (List.mem_append_left _ (h.taken ▸ hhd))

/-- What the guest writes to a free buffer is not seen by the host. -/
theorem Inv.written_fill (h : Inv s) {p : PoolType} (hfree : hd ∈ s.guest.freeList p)
    {frame : SendNode} {mem : List UInt8} (hfill : fillAt s.pools hd frame = some mem)
    (hsize : frame.payload.length ≤ hd.poolType.bufSize) :
    written { s with pools := Function.update s.pools hd.poolType mem } = s.written ∧
      Handling { s with pools := Function.update s.pools hd.poolType mem } := by
  obtain ⟨-, hindex, hout⟩ := h.free hfree
  have hsame (hd' : VhBufHeader) (len : ℕ) (hhd' : hd' ∈ s.ring.holds)
      (hlen : len ≤ headerSize + hd'.poolType.bufSize) :
      frameAt (Function.update s.pools hd.poolType mem) hd' len = frameAt s.pools hd' len :=
    frameAt_fill_of_ne hindex hfill hsize (fun heq ↦ hout (heq ▸ hhd')) hlen
  have havail : (s.ring.avail.map fun b ↦
      frameAt (Function.update s.pools hd.poolType mem) b.1 b.2) =
        s.ring.avail.map fun b ↦ frameAt s.pools b.1 b.2 := by
    apply List.map_congr_left
    intro b hb
    exact hsame b.1 b.2 (Virtqueue.mem_holds_of_avail hb) (h.lens b hb).2
  have hhandling := h.handling
  have hhand (hd' : VhBufHeader) (hmem : hd' ∈ s.inHand) := mem_holds_of_inHand h hmem
  unfold written Handling inHand at *
  cases hworker : s.worker with
  | idle | looking totalLen => simp only [havail, and_self]
  | handling hd' outIter totalLen received reads =>
      rw [hworker] at hhandling hhand
      obtain ⟨len, done, rfl, hheader, hlen, hindex', hreading⟩ := hhandling
      have heq := hsame hd' len (hhand hd' (List.mem_singleton_self hd')) hlen
      simp only [havail, heq, true_and]
      refine ⟨len, done, rfl, hheader, hlen, hindex', ?_⟩
      rw [heq]
      exact hreading

/-- A step of the guest that fills no buffer. -/
theorem Inv.rests (h : Inv s) {g : VqPchan} (hconserved : g.Conserved) (hwaits : Waits g)
    (hrests : Rests s.guest g) : Inv { s with guest := g } where
  conserved := hconserved
  waits := hwaits
  txq := by
    rw [hrests.txq]
    exact h.txq
  taken := h.taken
  pools := h.pools
  lens := h.lens
  handling := h.handling
  out := by
    rw [hrests.out]
    exact h.out
  all := by
    rw [hrests.out]
    exact h.all
  sequenceTx := by
    rw [hrests.out, hrests.sequenceTx]
    exact h.sequenceTx
  channel := by
    rw [hrests.out]
    exact h.channel
  sequenceRx := h.sequenceRx
  gaps := h.gaps

/-- A step of the guest that fills a buffer and adds it. -/
theorem Inv.adds (h : Inv s) {g : VqPchan} {k : Taking} (hconserved : g.Conserved)
    (hwaits : Waits g) (hadds : Adds s.guest k g) {mem : List UInt8}
    (hfill : fillAt s.pools k.hd (k.message.stamp (s.guest.sequenceTx + 1) k.clock) = some mem) :
    Inv { s with
      guest := g
      pools := Function.update s.pools k.hd.poolType mem
      ring := s.ring.add k.hd
        (headerSize + (k.message.stamp (s.guest.sequenceTx + 1) k.clock).payload.length)
      accepted := s.accepted ++ [k.message] } := by
  generalize hframe : k.message.stamp (s.guest.sequenceTx + 1) k.clock = frame at hfill ⊢
  obtain ⟨hpool, hindex, hout⟩ := h.free hadds.free
  have hsize : frame.payload.length ≤ k.hd.poolType.bufSize := by
    rw [hpool, ← hframe]
    exact (k.message.length_stampedPayload k.clock).trans_le (le_bufSize_ofSize hadds.size)
  obtain ⟨hwritten, hhandling⟩ := h.written_fill hadds.free hfill hsize
  have hself := frameAt_fill_self hindex hfill
  have hbytes : g.out = s.guest.out ++ [frame.bytes] := hframe ▸ hadds.out
  have hlen : g.out.length = s.guest.out.length + 1 := by
    rw [hbytes, List.length_append, List.length_singleton]
  refine ⟨hconserved, hwaits, ?_, h.taken, ?_, ?_, hhandling, ?_, ?_, ?_, ?_, h.sequenceRx, h.gaps⟩
  · rw [hadds.txq]
    refine (List.perm_append_singleton k.hd _).trans ?_
    exact (h.txq.cons k.hd).trans (Virtqueue.holds_add s.ring k.hd _).symm
  · intro p
    dsimp only
    by_cases hp : p = k.hd.poolType
    · subst hp
      rw [fillAt_eq hindex] at hfill
      rw [Function.update_self, (length_of_fill hfill).1, h.pools]
    · rw [Function.update_of_ne hp, h.pools]
  · intro b hb
    rcases List.mem_append.mp hb with hb | hb
    · exact h.lens b hb
    · rw [List.mem_singleton.mp hb]
      dsimp only
      omega
  · rw [hbytes]
    refine (h.out.append [k.message]).concat (a := k.message) ?_ ?_
    · rw [h.all, List.getElem?_concat_length]
    · refine ⟨k.clock, ?_⟩
      rw [← hframe, h.sequenceTx, UInt32.ofNat_add, UInt32.zero_add]
      rfl
  · rw [hlen, List.length_append, h.all]
    rfl
  · rw [hadds.sequenceTx, hlen, h.sequenceTx, UInt32.ofNat_add]
    rfl
  · have hchannel := h.channel.step (.accept frame.bytes)
    have hnext : written { s with
        guest := g
        pools := Function.update s.pools k.hd.poolType mem
        ring := s.ring.add k.hd (headerSize + frame.payload.length)
        accepted := s.accepted ++ [k.message] } = s.written ++ [frame.bytes] := by
      rw [← hwritten]
      simp only [written, Virtqueue.add, List.map_append, List.map_cons, List.map_nil, hself,
        List.append_assoc]
    rw [hbytes, hnext]
    exact hchannel

theorem Inv.guestStep (h : Inv s) {e : VirtioEvent} (haccepted : s.guest.Accepted e)
    (hrecv : ∀ done, e ≠ .recvTxq done) (hstep : s.guestStep e = some t) : Inv t := by
  rw [TxLink.guestStep] at hstep
  split at hstep
  next => cases hstep
  next g hg =>
    have hconserved := h.conserved.step haccepted hg
    obtain ⟨hwaits, ⟨htaking, hrests⟩ | ⟨k, htaking, hadds⟩⟩ :=
      guest_step_cases h.waits haccepted hrecv hg
    · rw [htaking] at hstep
      cases hstep
      exact h.rests hconserved hwaits hrests
    · rw [htaking] at hstep
      obtain ⟨hd, message, clock, accepts⟩ := k
      dsimp only at hstep
      split at hstep
      next => cases hstep
      next mem hfill =>
        rw [if_pos hadds.accepts] at hstep
        cases hstep
        exact h.adds hconserved hwaits hadds hfill

theorem Inv.recvTxq (h : Inv s) (hstep : s.recvTxq = some t) : Inv t := by
  rw [TxLink.recvTxq] at hstep
  split at hstep
  next =>
    split at hstep
    next => cases hstep
    next g hg =>
      cases hstep
      obtain ⟨hperm, hout, hsequence, hwaiting⟩ := recvTxq_cases hg
      have hholds : s.ring.holds.Perm (s.ring.used.map Prod.fst ++
          Virtqueue.holds { s.ring with used := [] }) := by
        rw [Virtqueue.holds, Virtqueue.holds, List.map_nil, List.append_nil, ← List.append_assoc]
        exact List.perm_append_comm
      refine ⟨h.conserved.recvTxq hg, ?_, ?_, h.taken, h.pools, h.lens, h.handling, ?_, ?_, ?_, ?_,
        h.sequenceRx, h.gaps⟩
      · rw [Waits, hwaiting]
        exact h.waits
      · exact (List.perm_append_left_iff _).mp (hperm.symm.trans (h.txq.trans hholds))
      · rw [hout]
        exact h.out
      · rw [hout]
        exact h.all
      · rw [hout, hsequence]
        exact h.sequenceTx
      · rw [hout]
        exact h.channel
  next =>
    cases hstep
    exact h

theorem Inv.getVqDesc (h : Inv s) {env : RecvEnv} (hstep : s.getVqDesc env = some t) : Inv t := by
  rw [TxLink.getVqDesc] at hstep
  split at hstep
  next totalLen hworker =>
    split at hstep
    next hnone =>
      cases hstep
      have hhand : s.inHand = [] := by
        rw [inHand, hworker]
      have hwritten : s.written = s.ring.avail.map fun b ↦ frameAt s.pools b.1 b.2 := by
        rw [written, hworker, List.nil_append]
      refine ⟨h.conserved, h.waits, h.txq, h.taken.trans hhand, h.pools, h.lens, trivial, h.out,
        h.all, h.sequenceTx, ?_, h.sequenceRx, h.gaps⟩
      have hchannel := h.channel
      rw [hwritten] at hchannel
      exact hchannel
    next hd len ring htake =>
      cases hstep
      obtain ⟨havail, htaken, hused⟩ := Virtqueue.take_eq_some htake
      have hmem : (hd, len) ∈ s.ring.avail := havail ▸ List.mem_cons_self
      obtain ⟨hheader, hlen⟩ := h.lens _ hmem
      have hindex := h.index_lt (Virtqueue.mem_holds_of_avail hmem)
      have hhand : s.inHand = [] := by
        rw [inHand, hworker]
      have hcopied : ((OutIter.mk 0 len len).copyFromIter headerSize).1 = headerSize := by
        rw [OutIter.copyFromIter, Nat.min_self, Nat.sub_zero, Nat.min_eq_left hheader]
      have hnext : ((OutIter.mk 0 len len).copyFromIter headerSize).2 =
          ⟨min (headerSize + 0) len, len, len⟩ := by
        rw [OutIter.copyFromIter, Nat.min_self, Nat.sub_zero, Nat.zero_add, Nat.add_zero]
      refine ⟨h.conserved, h.waits, h.txq.trans (Virtqueue.holds_take htake).symm, ?_, h.pools,
        fun b hb ↦ h.lens b (havail ▸ List.mem_cons_of_mem _ hb), ?_, h.out, h.all,
        h.sequenceTx, ?_, h.sequenceRx, h.gaps⟩
      · rw [htaken, h.taken, hhand]
        rfl
      · refine ⟨len, 0, hnext, hheader, hlen, hindex, ?_⟩
        rw [hcopied]
        have hframe : (frameAt s.pools hd len).take headerSize ++
            (frameAt s.pools hd len).drop headerSize = frameAt s.pools hd len :=
          List.take_append_drop _ _
        have hfull := le_length_frameAt hindex (h.pools _) hheader
        have hparse := HabHeader.ofBytes_take ((frameAt s.pools hd len).take headerSize)
          ((frameAt s.pools hd len).drop headerSize)
          (by rw [List.length_take, Nat.min_eq_left hfull]; decide)
        rw [hframe] at hparse
        rw [← hparse]
        exact .start env _
      · have hchannel := h.channel
        rw [written, hworker, havail] at hchannel
        simp only [written, hnext]
        exact hchannel
  next => cases hstep

/-- What the iterator copies goes on where the last copy ended. -/
theorem piece_eq {frame : List UInt8} {len : ℕ} (hlen : frame.length ≤ len) (done n : ℕ) :
    (frame.drop (min (headerSize + done) len)).take (min n (len - min (headerSize + done) len)) =
      ((frame.drop headerSize).drop done).take n := by
  rw [List.drop_drop]
  rcases Nat.le_total (headerSize + done) len with hdone | hdone
  · rw [Nat.min_eq_left hdone]
    apply List.take_eq_take_iff.mpr
    rw [List.length_drop]
    omega
  · rw [Nat.min_eq_right hdone, List.drop_eq_nil_of_le hlen,
      List.drop_eq_nil_of_le (hlen.trans hdone), List.take_nil, List.take_nil]

theorem Inv.physicalChannelRead (h : Inv s) (hstep : s.physicalChannelRead = some t) : Inv t := by
  rw [TxLink.physicalChannelRead] at hstep
  split at hstep
  next hd outIter totalLen received n reads hworker =>
    cases hstep
    have hhandling := h.handling
    rw [Handling, hworker] at hhandling
    obtain ⟨len, done, rfl, hheader, hlen, hindex, hreading⟩ := hhandling
    refine ⟨h.conserved, h.waits, h.txq, ?_, h.pools, h.lens, ?_, h.out, h.all, h.sequenceTx, ?_,
      h.sequenceRx, h.gaps⟩
    · rw [h.taken, inHand, hworker]
      rfl
    · refine ⟨len, done + n, ?_, hheader, hlen, hindex, ?_⟩
      · simp only [OutIter.physicalChannelRead, OutIter.copyFromIter, Nat.min_self]
        congr 1
        omega
      · refine hreading.read ?_
        simp only [OutIter.physicalChannelRead, OutIter.copyFromIter, Nat.min_self]
        exact piece_eq (List.length_take_le _ _) done n
    · have hchannel := h.channel
      simp only [written, hworker] at hchannel
      exact hchannel
  next => cases hstep

theorem Inv.addUsed (h : Inv s) (hstep : s.addUsed = some t) : Inv t := by
  rw [TxLink.addUsed] at hstep
  split at hstep
  next hd outIter totalLen received hworker =>
    cases hstep
    have hhandling := h.handling
    rw [Handling, hworker] at hhandling
    obtain ⟨len, done, rfl, hheader, hlen, hindex, hreading⟩ := hhandling
    have hreads := hreading.finish
    have hwritten : s.written = frameAt s.pools hd len ::
        s.ring.avail.map fun b ↦ frameAt s.pools b.1 b.2 := by
      simp only [written, hworker]
      rfl
    have htaken : s.ring.taken = [hd] := by
      rw [h.taken, inHand, hworker]
    -- the header is that of the frame, with its number
    have hdrop := h.channel.flying.symm.trans hwritten
    have hget : s.guest.out[s.handled.length]? = some (frameAt s.pools hd len) := by
      rw [← List.head?_drop, hdrop]
      rfl
    obtain ⟨node, -, clock, hframe⟩ := h.out.exists_sent hget
    rw [hframe] at hreads
    have hnumber : UInt32.ofNat ((Bytes.word received.header 16 4).getD 0) =
        UInt32.ofNat (s.handled.length + 1) := by
      have hword := SendNode.word_bytes
        (node.stamp (0 + UInt32.ofNat (s.handled.length + 1)) clock) (i := 4) rfl
      have htake : Bytes.word ((node.stamp (0 + UInt32.ofNat (s.handled.length + 1))
          clock).bytes.take headerSize) 16 4 = Bytes.word
            (node.stamp (0 + UInt32.ofNat (s.handled.length + 1)) clock).bytes 16 4 :=
        Bytes.word_take (by decide)
      rw [hreads.header, htake]
      exact hword.trans (UInt32.zero_add _)
    have hnext : s.sequenceRx + 1 = UInt32.ofNat (s.handled.length + 1) := by
      rw [h.sequenceRx, UInt32.ofNat_add]
      rfl
    have hhand (totalLen : ℕ) : inHand { s with
        worker := if VhostRx.vhostExceedsWeight totalLen then .idle else .looking totalLen } =
          [] := by
      rw [inHand]
      split
      next hsome =>
        dsimp only at hsome
        split at hsome <;> cases hsome
      next => rfl
    refine ⟨h.conserved, h.waits, ?_, ?_, h.pools, h.lens, ?_, h.out, h.all, h.sequenceTx, ?_, ?_,
      ?_⟩
    · exact h.txq.trans (Virtqueue.holds_give (htaken ▸ List.mem_singleton_self hd) 0).symm
    · rw [Virtqueue.give, htaken]
      refine (List.erase_cons_head hd []).trans ?_
      exact (hhand totalLen).symm
    · rw [Handling]
      split
      next hsome =>
        dsimp only at hsome
        split at hsome <;> cases hsome
      next => trivial
    · have hchannel := h.channel.step (.deliver _ _ received hwritten (hframe ▸ hreads))
      have hrest : written { s with
          ring := s.ring.give hd 0
          worker := if VhostRx.vhostExceedsWeight totalLen then .idle else .looking totalLen } =
            s.ring.avail.map fun b ↦ frameAt s.pools b.1 b.2 := by
        rw [written]
        split
        next hsome =>
          dsimp only at hsome
          split at hsome <;> cases hsome
        next => rfl
      rw [← hrest] at hchannel
      exact hchannel
    · rw [List.length_append, List.length_singleton]
      exact hnumber
    · rw [hnumber, if_pos hnext]
      exact h.gaps
  next => cases hstep

theorem Inv.step (h : Inv s) {e : TxLinkEvent} (hguard : Undisturbed s e)
    (hstep : s.step e = some t) : Inv t := by
  cases e with
  | pchanReady => exact h.guestStep (e := .pchanReady) trivial (by rintro done ⟨⟩) hstep
  | linkVpc => exact h.guestStep (e := .linkVpc) trivial (by rintro done ⟨⟩) hstep
  | physicalChannelSend message clock accepts =>
      exact h.guestStep (e := .physicalChannelSend message clock accepts) hguard
        (by rintro done ⟨⟩) hstep
  | wake i clock accepts =>
      exact h.guestStep (e := .wake i clock accepts) hguard (by rintro done ⟨⟩) hstep
  | recvTxq => exact h.recvTxq hstep
  | txWorker =>
      rw [TxLink.step] at hstep
      split at hstep
      next hidle =>
        cases hstep
        refine ⟨h.conserved, h.waits, h.txq, ?_, h.pools, h.lens, trivial, h.out, h.all,
          h.sequenceTx, ?_, h.sequenceRx, h.gaps⟩
        · rw [h.taken, inHand, hidle]
          rfl
        · have hchannel := h.channel
          rw [written, hidle] at hchannel
          exact hchannel
      next => cases hstep
  | getVqDesc env => exact h.getVqDesc hstep
  | physicalChannelRead => exact h.physicalChannelRead hstep
  | addUsed => exact h.addUsed hstep
  | habStatLog =>
      cases hstep
      have hnone : s.habStatLog = s := by
        rw [TxLink.habStatLog, Virtqueue.collect_eq_none.mpr hguard]
      rw [hnone]
      exact h

/-! ## Whole runs -/

/-- The `k`-th call of `hab_msg_recv` gets the `k`-th message that was added, with the
`k`-th sequence number. -/
def Arrives (k : ℕ) (message : SendNode) (r : Received) : Prop :=
  ∃ clock, r.Gets (message.stamp (UInt32.ofNat (k + 1)) clock)

/-- Nothing is on its way. -/
def Idle (s : TxLink) : Prop := s.ring.avail = [] ∧ s.inHand = []

theorem inv_of_meets {events : List TxLinkEvent}
    (hmeets : Runs.Meets step Undisturbed start events)
    (hrun : Runs.exec step start events = some s) : Inv s :=
  Runs.invariant_of_meets (fun _ _ _ hu hguard huv ↦ hu.step hguard huv) inv_start hmeets hrun

/-- The guest's channel and the host's, one behind the other. -/
theorem Inv.carries (h : Inv s) : Channel.Carries Arrives s.accepted s.handled := by
  refine (h.out.comp h.channel.carries).mono ?_
  rintro k message r ⟨frame, ⟨clock, rfl⟩, hreads⟩
  rw [UInt32.zero_add] at hreads
  exact ⟨clock, hreads.gets⟩

theorem Inv.length_eq_of_idle (h : Inv s) (hidle : s.Idle) :
    s.handled.length = s.accepted.length := by
  obtain ⟨havail, hhand⟩ := hidle
  have hwritten : s.written = [] := by
    rw [written, havail]
    rw [inHand] at hhand
    split at hhand
    next => cases hhand
    next => rfl
  exact (h.channel.length_eq hwritten).trans h.all

/-- Every message comes to the host once, in order and unchanged, although its buffer is
shared with the guest while it is read. -/
theorem guest_to_host_arrives {events : List TxLinkEvent}
    (hmeets : Runs.Meets step Undisturbed start events)
    (hrun : Runs.exec step start events = some s) :
    Channel.Carries Arrives s.accepted s.handled ∧ s.gaps = 0 ∧ s.guest.Conserved ∧
      s.guest.txq.Perm s.ring.holds ∧
      (s.Idle → s.handled.length = s.accepted.length) := by
  have h := inv_of_meets hmeets hrun
  exact ⟨h.carries, h.gaps, h.conserved, h.txq, h.length_eq_of_idle⟩

/-- A call that has its buffer leaves the pool exactly if the buffer is the last one and
has no room for header and payload; everywhere else an overlong message ends in the guard
band that follows. -/
theorem guestStep_guardBand {events : List TxLinkEvent}
    (hmeets : Runs.Meets step Undisturbed start events)
    (hrun : Runs.exec step start events = some s) {e : VirtioEvent} {k : Taking}
    (htaking : taking s.guest e = some k) :
    (s.guestStep e = none ↔ k.hd.index + 1 = k.hd.poolType.bufNum ∧
      k.hd.poolType.bufSize < headerSize + k.message.payload.length) ∧
    ∀ t, s.guestStep e = some t →
      Filled k.hd (k.message.stamp (s.guest.sequenceTx + 1) k.clock) (s.pools k.hd.poolType)
          (t.pools k.hd.poolType) ∧
        ∀ p, p ≠ k.hd.poolType → t.pools p = s.pools p := by
  have h := inv_of_meets hmeets hrun
  obtain ⟨hfree, hsize, g, hg⟩ := taking_eq_some h.waits htaking
  obtain ⟨hpool, hindex, -⟩ := h.free hfree
  have hlen := k.message.length_stampedPayload k.clock
  have hpayload : (k.message.stamp (s.guest.sequenceTx + 1) k.clock).payload.length =
      k.message.payload.length := hlen
  have hroom : (k.message.stamp (s.guest.sequenceTx + 1) k.clock).payload.length ≤
      k.hd.poolType.bufSize := by
    rw [hpayload, hpool]
    exact le_bufSize_ofSize hsize
  have hfill := fillAt_eq_none_iff hindex (h.pools k.hd.poolType) hroom
  rw [hpayload] at hfill
  rw [← hfill, guestStep, hg, htaking]
  dsimp only
  split
  next hnone => exact ⟨iff_of_true rfl hnone, fun t ht ↦ absurd ht.symm (Option.some_ne_none t)⟩
  next mem hmem =>
    have hfilled := filled_of_fillAt hindex (h.pools k.hd.poolType) hroom hmem
    refine ⟨iff_of_false ?_ (by rw [hmem]; exact Option.some_ne_none mem), fun t ht ↦ ?_⟩
    · split <;> exact Option.some_ne_none _
    · have hpools : t.pools = Function.update s.pools k.hd.poolType mem := by
        split at ht <;> cases ht <;> rfl
      rw [hpools, Function.update_self]
      exact ⟨hfilled, fun p hp ↦ Function.update_of_ne hp _ _⟩

/-! ### One message at a time -/

/-- The set-up is done. -/
def linked (pools : PoolType → List UInt8) : TxLink :=
  { start with guest := { VqPchan.start with linked := true, pchanReady := true }, pools }

theorem step_pchanReady : step start .pchanReady =
    some { start with guest := { VqPchan.start with pchanReady := true } } := rfl

theorem step_linkVpc :
    step { start with guest := { VqPchan.start with pchanReady := true } } .linkVpc =
      some (linked start.pools) := rfl

/-- A call that fills its buffer and adds it. -/
theorem guestStep_eq_some {e : VirtioEvent} {g : VqPchan} {k : Taking}
    {pool : List UInt8} (hguest : s.guest.step e = some g) (htaking : taking s.guest e = some k)
    (haccepts : k.accepts = true)
    (hfill : fillAt s.pools k.hd (k.message.stamp (s.guest.sequenceTx + 1) k.clock) = some pool) :
    s.guestStep e = some { s with
      guest := g
      pools := Function.update s.pools k.hd.poolType pool
      ring := s.ring.add k.hd
        (headerSize + (k.message.stamp (s.guest.sequenceTx + 1) k.clock).payload.length)
      accepted := s.accepted ++ [k.message] } := by
  rw [guestStep, hguest, htaking]
  dsimp only
  rw [hfill]
  dsimp only
  rw [if_pos haccepts]

/-- The guest is set up and has taken its first `k` small buffers, and the host has handled
what was sent. -/
structure Ready (k : ℕ) (s : TxLink) : Prop where
  inv : Inv s
  linked : s.guest.linked = true
  pchanReady : s.guest.pchanReady = true
  free : s.guest.freeList .outSmall = (VqPchan.initPoolList .outSmall).drop k
  avail : s.ring.avail = []
  worker : s.worker = .idle

/-- The next message waits for the host. -/
structure Sent (s : TxLink) (k : ℕ) (node : SendNode) (clock : RxClock) (t : TxLink) : Prop where
  linked : t.guest.linked = true
  pchanReady : t.guest.pchanReady = true
  free : t.guest.freeList .outSmall = (VqPchan.initPoolList .outSmall).drop (k + 1)
  avail : t.ring.avail = [(⟨.outSmall, k⟩, headerSize + node.payload.length)]
  worker : t.worker = .idle
  accepted : t.accepted = s.accepted ++ [node]
  handled : t.handled = s.handled
  frame : frameAt t.pools ⟨.outSmall, k⟩ (headerSize + node.payload.length) =
    (node.stamp (s.guest.sequenceTx + 1) clock).bytes

/-- The host has handled it. -/
structure Handled (s : TxLink) (env : RecvEnv) (t : TxLink) : Prop where
  guest : t.guest = s.guest
  avail : t.ring.avail = []
  worker : t.worker = .idle ∨ ∃ totalLen, t.worker = .looking totalLen
  accepted : t.accepted = s.accepted
  handled : ∃ r, r.env = env ∧ t.handled = s.handled ++ [r]

variable {k : ℕ} {node : SendNode} {clock : RxClock} {env : RecvEnv}

theorem ready_linked (hinv : Inv (TxLink.linked start.pools)) :
    Ready 0 (TxLink.linked start.pools) :=
  ⟨hinv, rfl, rfl, rfl, rfl, rfl⟩

theorem Ready.idle (h : Ready k s) : s.Idle := by
  refine ⟨h.avail, ?_⟩
  rw [inHand, h.worker]

theorem initPoolList_drop (hk : k < 200) : (VqPchan.initPoolList .outSmall).drop k =
    ⟨.outSmall, k⟩ :: (VqPchan.initPoolList .outSmall).drop (k + 1) := by
  have hlen : k < (VqPchan.initPoolList .outSmall).length := by
    rw [VqPchan.initPoolList, List.length_map, List.length_range]
    exact hk
  rw [List.drop_eq_getElem_cons hlen]
  simp [VqPchan.initPoolList]

/-- A call that finds a small buffer. -/
theorem guest_send {g : VqPchan} {rest : List VhBufHeader} (hlinked : g.linked = true)
    (hready : g.pchanReady = true) (hnode : node.payload.length ≤ 512)
    (hlist : g.freeList .outSmall = hd :: rest) (clock : RxClock) :
    ∃ g', g.step (.physicalChannelSend node clock true) = some g' ∧ g'.linked = true ∧
      g'.pchanReady = true ∧ g'.freeList .outSmall = rest := by
  have hsize : node.payload.length ≤ PoolType.bufSize .outLarge := hnode.trans (by decide)
  rw [VqPchan.step, if_neg (by simp [hlinked]), if_neg (Nat.not_lt.mpr hsize),
    if_neg (by simp [hready]), VqPchan.sendLocked, ofSize_small hnode, hlist]
  exact ⟨_, rfl, hlinked, hready, Function.update_self .outSmall rest g.freeList⟩

/-- The last buffer is left out, behind which the pool ends. -/
theorem Ready.exists_sent (h : Ready k s) (hk : k + 1 < 200) (node : SendNode)
    (hnode : node.payload.length ≤ 512) (clock : RxClock) :
    s.guest.Accepted (.physicalChannelSend node clock true) ∧
      ∃ t, s.step (.physicalChannelSend node clock true) = some t ∧ Sent s k node clock t := by
  refine ⟨fun _ _ ↦ ⟨h.pchanReady, fun _ ↦ rfl⟩, ?_⟩
  have hfree := h.free.trans (initPoolList_drop (Nat.lt_of_succ_lt hk))
  have htaking : taking s.guest (.physicalChannelSend node clock true) =
      some ⟨⟨.outSmall, k⟩, node, clock, true⟩ := by
    rw [taking, if_pos ⟨h.linked, hnode.trans (by decide), h.pchanReady⟩, ofSize_small hnode, hfree]
    rfl
  have hlen : (node.stamp (s.guest.sequenceTx + 1) clock).payload.length = node.payload.length :=
    node.length_stampedPayload clock
  have hindex : (VhBufHeader.mk .outSmall k).index < PoolType.bufNum .outSmall :=
    Nat.lt_of_succ_lt hk
  obtain ⟨mem, hmem⟩ : ∃ mem, fillAt s.pools ⟨.outSmall, k⟩
      (node.stamp (s.guest.sequenceTx + 1) clock) = some mem := by
    refine Option.ne_none_iff_exists'.mp fun hnone ↦ ?_
    have hlast := ((fillAt_eq_none_iff hindex (h.inv.pools _) (hlen.trans_le hnode)).mp hnone).1
    exact absurd hlast (Nat.ne_of_lt hk)
  obtain ⟨g, hg, hlinked, hready, hrest⟩ := guest_send h.linked h.pchanReady hnode hfree clock
  refine ⟨_, guestStep_eq_some hg htaking rfl hmem, hlinked, hready, hrest, ?_, h.worker, rfl,
    rfl, ?_⟩
  · rw [Virtqueue.add, h.avail, hlen]
    rfl
  · rw [← hlen]
    exact frameAt_fill_self hindex hmem

/-- The reads of a call of `hab_msg_recv`, one after the other. -/
theorem exec_reads {outIter : OutIter} {totalLen : ℕ} {received : Received} {reads : List ℕ}
    (hworker : s.worker = .handling hd outIter totalLen received reads) :
    ∃ outIter' received', received'.env = received.env ∧
      Runs.exec step s (List.replicate reads.length .physicalChannelRead) =
        some { s with worker := .handling hd outIter' totalLen received' [] } := by
  induction reads generalizing s outIter received with
  | nil =>
      refine ⟨outIter, received, rfl, ?_⟩
      rw [← hworker]
      rfl
  | cons n reads ih =>
      obtain ⟨outIter', received', hread, henv⟩ : ∃ outIter' received',
          s.step .physicalChannelRead =
              some { s with worker := .handling hd outIter' totalLen received' reads } ∧
            received'.env = received.env := by
        rw [step, physicalChannelRead, hworker]
        exact ⟨_, _, rfl, rfl⟩
      obtain ⟨outIter'', received'', henv', hrun⟩ :=
        ih (s := { s with worker := .handling hd outIter' totalLen received' reads }) rfl
      refine ⟨outIter'', received'', henv'.trans henv, ?_⟩
      rw [List.length_cons, List.replicate_succ, Runs.exec_cons hread]
      exact hrun

/-- What the host does for one message. -/
def handles (node : SendNode) (env : RecvEnv) : List TxLinkEvent :=
  [.txWorker, .getVqDesc env] ++
    List.replicate (habMsgRecvReads env node.header.toHabHeader).length .physicalChannelRead

theorem undisturbed_handles : ∀ e ∈ handles node env, ∀ s, Undisturbed s e := by
  intro e he s
  rcases List.mem_append.mp he with he | he
  · rcases List.mem_cons.mp he with rfl | he
    · trivial
    · rw [List.mem_singleton.mp he]
      trivial
  · rw [List.eq_of_mem_replicate he]
    trivial

/-- The host takes the buffer and enters `hab_msg_recv`. -/
theorem Sent.exists_getVqDesc (h : Sent s k node clock t) (env : RecvEnv) :
    ∃ outIter totalLen header ring, ring.avail = [] ∧
      Runs.exec step t [.txWorker, .getVqDesc env] = some { t with
        ring
        worker := .handling ⟨.outSmall, k⟩ outIter totalLen ⟨env, header, []⟩
          (habMsgRecvReads env node.header.toHabHeader) } := by
  have hlook : t.step .txWorker = some { t with worker := .looking 0 } := by
    rw [step, h.worker]
  have hreads : habMsgRecvReads env (HabHeader.ofBytes
      (node.stamp (s.guest.sequenceTx + 1) clock).header.bytes) =
        habMsgRecvReads env node.header.toHabHeader := by
    have height : 8 ≤ (node.stamp (s.guest.sequenceTx + 1) clock).header.bytes.length := by
      rw [length_header]
      decide
    rw [← HabHeader.ofBytes_take _ (node.stamp (s.guest.sequenceTx + 1) clock).payload height]
    exact congrArg _ (SendNode.ofBytes_bytes _)
  have hget : step { t with worker := .looking 0 } (.getVqDesc env) = some { t with
      ring := ⟨[], ⟨.outSmall, k⟩ :: t.ring.taken, t.ring.used⟩
      worker := .handling ⟨.outSmall, k⟩
        ⟨0 + headerSize, headerSize + node.payload.length, headerSize + node.payload.length⟩
        (0 + (headerSize + node.payload.length))
        ⟨env, (node.stamp (s.guest.sequenceTx + 1) clock).header.bytes, []⟩
        (habMsgRecvReads env node.header.toHabHeader) } := by
    have hcopied : min headerSize (min (headerSize + node.payload.length)
        (headerSize + node.payload.length) - 0) = headerSize := by
      rw [Nat.min_self, Nat.sub_zero, Nat.min_eq_left (Nat.le_add_right _ _)]
    rw [step, getVqDesc, Virtqueue.take]
    dsimp only
    rw [h.avail]
    dsimp only [OutIter.copyFromIter]
    rw [h.frame, hcopied, (SendNode.bytes_take _).1, hreads]
  have hrun := (Runs.exec_cons hlook [.getVqDesc env]).trans (Runs.exec_cons hget [])
  exact ⟨_, _, _, ⟨[], ⟨.outSmall, k⟩ :: t.ring.taken, t.ring.used⟩, rfl, hrun⟩

theorem Sent.exists_handled (h : Sent s k node clock t) (env : RecvEnv) :
    ∃ u v, Runs.exec step t (handles node env) = some u ∧ u.accepted = t.accepted ∧
      u.handled = t.handled ∧ u.step .addUsed = some v ∧ Handled t env v := by
  obtain ⟨outIter, totalLen, header, ring, havail, htake⟩ := h.exists_getVqDesc env
  obtain ⟨outIter', received, henv, hrun⟩ := exec_reads (s := { t with
    ring
    worker := .handling ⟨.outSmall, k⟩ outIter totalLen ⟨env, header, []⟩
      (habMsgRecvReads env node.header.toHabHeader) }) rfl
  refine ⟨_, _, (Runs.exec_append htake).trans hrun, rfl, rfl, rfl, ?_⟩
  refine ⟨rfl, havail, ?_, rfl, received, henv, rfl⟩
  dsimp only
  split
  · exact .inl rfl
  · exact .inr ⟨_, rfl⟩

/-- The worker stops when it finds no further buffer. -/
theorem Handled.exists_ready (hsent : Sent s k node clock t) (h : Handled t env u) (hinv : Inv u) :
    ∃ es v, (∀ e ∈ es, e = .getVqDesc env) ∧ Runs.exec step u es = some v ∧
      v.accepted = u.accepted ∧ v.handled = u.handled ∧ Ready (k + 1) v := by
  have hlinked := h.guest ▸ hsent.linked
  have hready := h.guest ▸ hsent.pchanReady
  have hfree := h.guest ▸ hsent.free
  rcases h.worker with hidle | ⟨totalLen, hlooking⟩
  · exact ⟨[], u, List.forall_mem_nil _, rfl, rfl, rfl, hinv, hlinked, hready, hfree, h.avail,
      hidle⟩
  · have hstop : u.step (.getVqDesc env) = some { u with worker := .idle } := by
      rw [step, getVqDesc, hlooking, Virtqueue.take, h.avail]
    refine ⟨[.getVqDesc env], _, List.forall_mem_singleton.mpr rfl,
      (Runs.exec_cons hstop []).trans rfl, rfl, rfl, ?_, hlinked, hready, hfree, h.avail, rfl⟩
    exact hinv.step (e := .getVqDesc env) trivial hstop

/-- The set-up, a message of four bytes, and how the host reads it. -/
def oneMessage : List TxLinkEvent :=
  [.pchanReady, .linkVpc, .physicalChannelSend VhostRx.fourBytes ⟨0, 0, 0⟩ true, .txWorker,
    .getVqDesc ⟨true, false, true, true⟩, .physicalChannelRead, .addUsed]

theorem guest_to_host_arrives_oneMessage :
    ∃ s, Runs.exec step start oneMessage = some s ∧
      s.handled.map Received.payload = [[1, 2, 3, 4]] ∧
      Channel.Carries Arrives s.accepted s.handled ∧ s.gaps = 0 ∧ s.guest.Conserved ∧
      s.guest.txq.Perm s.ring.holds ∧ (s.Idle → s.handled.length = s.accepted.length) := by
  let env : RecvEnv := ⟨true, false, true, true⟩
  have hlinked : Inv (linked start.pools) :=
    (inv_start.step (e := .pchanReady) trivial step_pchanReady).step (e := .linkVpc) trivial
      step_linkVpc
  obtain ⟨haccepted, t, hsend, ht⟩ := (ready_linked hlinked).exists_sent (by decide)
    VhostRx.fourBytes (by decide) ⟨0, 0, 0⟩
  obtain ⟨u, v, hhandles, -, -, hused, hv⟩ := ht.exists_handled env
  obtain ⟨r, henv, hr⟩ := hv.handled
  have hevents : oneMessage = [.pchanReady, .linkVpc] ++
      .physicalChannelSend VhostRx.fourBytes ⟨0, 0, 0⟩ true ::
        (handles VhostRx.fourBytes env ++ [.addUsed]) := rfl
  have hset : Runs.exec step start [.pchanReady, .linkVpc] = some (linked start.pools) :=
    (Runs.exec_cons step_pchanReady _).trans (Runs.exec_cons step_linkVpc [])
  have hrun : Runs.exec step start oneMessage = some v := by
    rw [hevents, Runs.exec_append hset, Runs.exec_cons hsend, Runs.exec_append hhandles]
    exact Runs.exec_cons hused []
  have hmeets : Runs.Meets step Undisturbed start oneMessage := by
    rw [hevents, Runs.meets_append hset, Runs.meets_cons hsend, Runs.meets_append hhandles,
      Runs.meets_cons hused]
    refine ⟨?_, haccepted, Runs.meets_of_forall undisturbed_handles t, trivial, trivial⟩
    exact (Runs.meets_cons step_pchanReady).mpr ⟨trivial,
      (Runs.meets_cons step_linkVpc).mpr ⟨trivial, trivial⟩⟩
  have harrives := guest_to_host_arrives hmeets hrun
  refine ⟨v, hrun, ?_, harrives⟩
  have hone : v.handled = [r] := by
    rw [hr, ht.handled]
    rfl
  have hnodes : v.accepted = [VhostRx.fourBytes] := by
    rw [hv.accepted, ht.accepted]
    rfl
  obtain ⟨clock, hgets⟩ := harrives.1.related 0 VhostRx.fourBytes r (by rw [hnodes]; rfl)
    (by rw [hone]; rfl)
  have hplain : VhostRx.fourBytes.stampedPayload clock = [1, 2, 3, 4] := if_neg (by decide)
  have hreads : (habMsgRecvReads env VhostRx.fourBytes.header.toHabHeader).sum = 4 := by decide
  rw [hone, List.map_singleton, hgets.payload, henv]
  show [(VhostRx.fourBytes.stampedPayload clock).take
    (habMsgRecvReads env VhostRx.fourBytes.header.toHabHeader).sum] = _
  rw [hplain, hreads]
  rfl

/-- A message of 500 bytes, for which a small buffer is chosen. -/
def fiveHundredBytes : SendNode where
  header :=
    { idType := 0x00100000, payloadSize := 500, sessionId := 1, signature := 0, sequence := 0 }
  payload := List.replicate 500 1
  sized := List.length_replicate
  profiled := by decide

theorem guestStep_guardBand_fiveHundredBytes :
    ∃ t, (linked start.pools).guestStep (.physicalChannelSend fiveHundredBytes ⟨0, 0, 0⟩ true) =
        some t ∧
      PoolType.bufSize .outSmall < headerSize + fiveHundredBytes.payload.length ∧
      Filled ⟨.outSmall, 0⟩ (fiveHundredBytes.stamp 1 ⟨0, 0, 0⟩)
        ((linked start.pools).pools .outSmall) (t.pools .outSmall) := by
  have hset : step start .pchanReady = some
      { start with guest := { VqPchan.start with pchanReady := true } } := rfl
  have hlink : step { start with guest := { VqPchan.start with pchanReady := true } } .linkVpc =
      some (linked start.pools) := rfl
  have hrun : Runs.exec step start [.pchanReady, .linkVpc] = some (linked start.pools) := by
    rw [Runs.exec_cons hset, Runs.exec_cons hlink]
    rfl
  have hmeets : Runs.Meets step Undisturbed start [.pchanReady, .linkVpc] := by
    rw [Runs.meets_cons hset, Runs.meets_cons hlink]
    exact ⟨trivial, trivial, trivial⟩
  have hlen : fiveHundredBytes.payload.length = 500 := List.length_replicate
  have htaking : taking (linked start.pools).guest
      (.physicalChannelSend fiveHundredBytes ⟨0, 0, 0⟩ true) =
        some ⟨⟨.outSmall, 0⟩, fiveHundredBytes, ⟨0, 0, 0⟩, true⟩ := by
    rw [taking, hlen, if_pos ⟨rfl, by decide, rfl⟩, ofSize_small (by decide)]
    rfl
  obtain ⟨hnone, hfilled⟩ := guestStep_guardBand hmeets hrun htaking
  obtain ⟨t, ht⟩ := Option.ne_none_iff_exists'.mp fun h ↦ absurd (hnone.mp h).1 (by decide)
  have hpool := (hfilled t ht).1
  exact ⟨t, ht, by rw [hlen]; decide, hpool⟩

end TxLink

end Hab
