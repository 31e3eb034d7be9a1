import Mathlib.Data.List.Count
import Hab.Library.Pool
import Hab.VhostDelivery

/-!
# The output buffers of the guest

`physical_channel_send` of the guest takes a buffer from one of three pools, fills it and
adds it to the tx virtqueue; the callback `virthab_recv_txq` puts the buffers that the
host has done with back.  Both hold the tx lock, which a sender gives up only while it
waits for a buffer.
-/

namespace Hab

/-- `enum pool_type_t`, without the pool of input buffers. -/
inductive PoolType
  | outSmall
  | outMedium
  | outLarge
deriving DecidableEq

/-- `OUT_SMALL_BUF_NUM`, `OUT_MEDIUM_BUF_NUM` and `OUT_LARGE_BUF_NUM`. -/
def PoolType.bufNum : PoolType → ℕ
  | .outSmall => 200
  | .outMedium => 100
  | .outLarge => 10

/-- `OUT_SMALL_BUF_SIZE`, `OUT_MEDIUM_BUF_SIZE` and `OUT_LARGE_BUF_SIZE`. -/
def PoolType.bufSize : PoolType → ℕ
  | .outSmall => 512
  | .outMedium => 5120
  | .outLarge => 51200

/-- The pool that `physical_channel_send` takes a buffer from.  For the medium pool the
size is compared with the number of its buffers, not with their size. -/
def PoolType.ofSize (sizebytes : ℕ) : PoolType :=
  if sizebytes ≤ bufSize .outSmall then .outSmall
  else if sizebytes ≤ bufNum .outMedium then .outMedium
  else .outLarge

/-- `struct vh_buf_header`, named by its pool and its index there. -/
structure VhBufHeader where
  poolType : PoolType
  index : ℕ
deriving DecidableEq

/-- What a call returned, without the sign, and whether its message was added to the
virtqueue. -/
structure SendReport where
  ret : Option Errno
  added : Bool

structure VqPchan where
  /-- `link->vpc` is set. -/
  linked : Bool
  pchanReady : Bool
  /-- `s_list`, `m_list` and `l_list`. -/
  freeList : PoolType → List VhBufHeader
  /-- `s_cnt`, `m_cnt` and `l_cnt`. -/
  cnt : PoolType → ℤ
  /-- The buffers that were added and that `virtqueue_get_buf` has not returned. -/
  txq : List VhBufHeader
  /-- What was added, in order. -/
  out : List (List UInt8)
  sequenceTx : UInt32
  /-- The calls that wait in `get_vh_buf_header`. -/
  waiting : Pool SendNode
  reports : List SendReport

inductive VirtioEvent
  | pchanReady
  | linkVpc
  /-- A call, the clock it reads and whether `virtqueue_add_outbuf` accepts the buffer. -/
  | physicalChannelSend (message : SendNode) (clock : RxClock) (accepts : Bool)
  /-- A waiting call takes the lock again. -/
  | wake (i : ℕ) (clock : RxClock) (accepts : Bool)
  /-- The callback finds these buffers. -/
  | recvTxq (done : List VhBufHeader)

namespace VqPchan

/-- `init_pool_list` for one pool. -/
def initPoolList (p : PoolType) : List VhBufHeader := (List.range p.bufNum).map fun i ↦ ⟨p, i⟩

def start : VqPchan where
  linked := false
  pchanReady := false
  freeList := initPoolList
  cnt := fun p ↦ p.bufNum
  txq := []
  out := []
  sequenceTx := 0
  waiting := Pool.empty
  reports := []

/-- The part of `physical_channel_send` from the buffer on; there is none while the
list is empty. -/
def sendLocked (s : VqPchan) (message : SendNode) (clock : RxClock) (accepts : Bool) :
    Option VqPchan :=
  let p := PoolType.ofSize message.payload.length
  match s.freeList p with
  | [] => none
  | hd :: rest =>
      some { s with
        freeList := Function.update s.freeList p rest
        cnt := Function.update s.cnt p (s.cnt p - 1)
        sequenceTx := s.sequenceTx + 1
        txq := if accepts then s.txq ++ [hd] else s.txq
        out := if accepts then s.out ++ [(message.stamp (s.sequenceTx + 1) clock).bytes] else s.out
        -- a buffer that was refused is on no list, and the call returns 0
        reports := s.reports ++ [⟨none, accepts⟩] }

def report (s : VqPchan) (ret : Option Errno) : VqPchan :=
  { s with reports := s.reports ++ [⟨ret, false⟩] }

/-- The loop of `virthab_recv_txq`. -/
def recvTxq (s : VqPchan) : List VhBufHeader → Option VqPchan
  | [] => some s
  | hd :: done =>
      if hd ∈ s.txq then
        recvTxq { s with
          txq := s.txq.erase hd
          freeList := Function.update s.freeList hd.poolType (s.freeList hd.poolType ++ [hd])
          cnt := Function.update s.cnt hd.poolType (s.cnt hd.poolType + 1) } done
      else none

def step (s : VqPchan) : VirtioEvent → Option VqPchan
  | .pchanReady => some { s with pchanReady := true }
  | .linkVpc => some { s with linked := true }
  | .physicalChannelSend message clock accepts =>
      if !s.linked then some (s.report (some .enodev))
      else if PoolType.bufSize .outLarge < message.payload.length then
        some (s.report (some .einval))
      else if !s.pchanReady then some (s.report none) -- `rc = -ENODEV` is not returned
      else
        match s.sendLocked message clock accepts with
        | some t => some t
        | none => some { s with waiting := s.waiting.spawn message }
  | .wake i clock accepts =>
      match s.waiting.get i with
      | none => none
      | some message =>
          match s.sendLocked message clock accepts with
          | some t => some { t with waiting := t.waiting.set i none }
          | none => some s
  | .recvTxq done => if s.pchanReady then s.recvTxq done else some s

/-- Every buffer is in one place, and the counters count the lists. -/
structure Conserved (s : VqPchan) : Prop where
  own : ∀ p, ∀ hd ∈ s.freeList p, hd.poolType = p
  once : ∀ hd, (s.freeList hd.poolType).count hd + s.txq.count hd =
    if hd.index < hd.poolType.bufNum then 1 else 0
  counted : ∀ p, s.cnt p = (s.freeList p).length

/-- Every call returned 0 exactly when its message was added. -/
def Truthful (s : VqPchan) : Prop := ∀ r ∈ s.reports, r.ret = none ↔ r.added = true

/-- A call that gets past its first checks finds the channel ready, and the virtqueue
accepts a buffer that is taken. -/
def Accepted (s : VqPchan) : VirtioEvent → Prop
  | .physicalChannelSend message _ accepts =>
      s.linked = true → message.payload.length ≤ PoolType.bufSize .outLarge →
        s.pchanReady = true ∧
          (s.freeList (PoolType.ofSize message.payload.length) ≠ [] → accepts = true)
  | .wake i _ accepts =>
      ∀ message, s.waiting.get i = some message →
        s.freeList (PoolType.ofSize message.payload.length) ≠ [] → accepts = true
  | _ => True

variable {s t : VqPchan} {message : SendNode} {clock : RxClock} {accepts : Bool}

theorem sendLocked_eq_none :
    s.sendLocked message clock accepts = none ↔
      s.freeList (PoolType.ofSize message.payload.length) = [] := by
  rw [sendLocked]
  cases s.freeList (PoolType.ofSize message.payload.length) <;> simp

/-- What a call that has its buffer changes. -/
structure Sends (s : VqPchan) (message : SendNode) (accepts : Bool) (t : VqPchan) : Prop where
  taken : ∃ hd rest, s.freeList (PoolType.ofSize message.payload.length) = hd :: rest ∧
    t.freeList = Function.update s.freeList (PoolType.ofSize message.payload.length) rest ∧
    t.txq = if accepts then s.txq ++ [hd] else s.txq
  cnt : t.cnt = Function.update s.cnt (PoolType.ofSize message.payload.length)
    (s.cnt (PoolType.ofSize message.payload.length) - 1)
  reports : t.reports = s.reports ++ [⟨none, accepts⟩]

theorem sends_of_sendLocked (h : s.sendLocked message clock accepts = some t) :
    Sends s message accepts t := by
  rw [sendLocked] at h
  split at h
  next => cases h
  next hd rest hlist =>
    cases h
    exact ⟨⟨hd, rest, hlist, rfl, rfl⟩, rfl, rfl⟩

/-! ## Conservation -/

theorem conserved_start : Conserved start where
  own := by
    intro p hd hmem
    obtain ⟨i, -, rfl⟩ := List.mem_map.mp hmem
    rfl
  once := by
    intro hd
    have hinj : Function.Injective (VhBufHeader.mk hd.poolType) := by
      intro i j hij
      exact (VhBufHeader.mk.inj hij).2
    have hcount := List.count_map_of_injective (List.range hd.poolType.bufNum) _ hinj hd.index
    change List.count (VhBufHeader.mk hd.poolType hd.index) (initPoolList hd.poolType) + 0 = _
    rw [initPoolList, hcount, List.count_range, Nat.add_zero]
  counted := by
    intro p
    change (p.bufNum : ℤ) = (initPoolList p).length
    rw [initPoolList, List.length_map, List.length_range]

theorem Conserved.sends (h : Conserved s) (hsends : Sends s message true t) : Conserved t := by
  obtain ⟨hd, rest, hlist, hfree, htxq⟩ := hsends.taken
  have hcnt := hsends.cnt
  generalize PoolType.ofSize message.payload.length = p at hlist hfree hcnt
  obtain rfl : hd.poolType = p := h.own p hd (hlist ▸ List.mem_cons_self)
  rw [if_pos rfl] at htxq
  refine ⟨?_, ?_, ?_⟩
  · intro q hd' hmem
    rw [hfree] at hmem
    by_cases hq : q = hd.poolType
    · subst hq
      rw [Function.update_self] at hmem
      exact h.own _ hd' (hlist ▸ List.mem_cons_of_mem hd hmem)
    · rw [Function.update_of_ne hq] at hmem
      exact h.own q hd' hmem
  · intro hd'
    have honce := h.once hd'
    rw [hfree, htxq, List.count_append, List.count_singleton]
    by_cases hq : hd'.poolType = hd.poolType
    · rw [hq, Function.update_self]
      rw [hq, hlist, List.count_cons] at honce
      omega
    · have hne : (hd == hd') = false := by
        rw [beq_eq_false_iff_ne]
        rintro rfl
        exact hq rfl
      rw [Function.update_of_ne hq, hne]
      simpa using honce
  · intro q
    rw [hfree, hcnt]
    by_cases hq : q = hd.poolType
    · subst hq
      have hlen := h.counted hd.poolType
      rw [hlist, List.length_cons] at hlen
      rw [Function.update_self, Function.update_self]
      omega
    · rw [Function.update_of_ne hq, Function.update_of_ne hq]
      exact h.counted q

theorem Conserved.recvTxq (h : Conserved s) {done : List VhBufHeader}
    (hrecv : s.recvTxq done = some t) : Conserved t := by
  induction done generalizing s with
  | nil =>
      cases hrecv
      exact h
  | cons hd done ih =>
      rw [VqPchan.recvTxq] at hrecv
      split at hrecv
      next hmem =>
        apply ih _ hrecv
        refine ⟨?_, ?_, ?_⟩
        · intro q hd' hmem'
          by_cases hq : q = hd.poolType
          · subst hq
            dsimp only at hmem'
            rw [Function.update_self, List.mem_append, List.mem_singleton] at hmem'
            rcases hmem' with hmem' | rfl
            · exact h.own _ hd' hmem'
            · rfl
          · dsimp only at hmem'
            rw [Function.update_of_ne hq] at hmem'
            exact h.own q hd' hmem'
        · intro hd'
          have honce := h.once hd'
          dsimp only
          by_cases hhd : hd' = hd
          · subst hhd
            have hpos := List.count_pos_iff.mpr hmem
            rw [Function.update_self, List.count_append, List.count_singleton_self,
              List.count_erase_self]
            omega
          · rw [List.count_erase_of_ne hhd]
            by_cases hq : hd'.poolType = hd.poolType
            · rw [hq, Function.update_self, List.count_append,
                List.count_singleton, if_neg (by simpa using Ne.symm hhd), ← hq]
              exact honce
            · rw [Function.update_of_ne hq]
              exact honce
        · intro q
          dsimp only
          by_cases hq : q = hd.poolType
          · subst hq
            rw [Function.update_self, Function.update_self, h.counted, List.length_append]
            rfl
          · rw [Function.update_of_ne hq, Function.update_of_ne hq]
            exact h.counted q
      next => cases hrecv

theorem reports_recvTxq {done : List VhBufHeader} (hrecv : s.recvTxq done = some t) :
    t.reports = s.reports := by
  induction done generalizing s with
  | nil =>
      cases hrecv
      rfl
  | cons hd done ih =>
      rw [VqPchan.recvTxq] at hrecv
      split at hrecv
      next =>
        have hrest := ih hrecv
        exact hrest
      next => cases hrecv

/-! ## Reports -/

theorem truthful_concat {r : SendReport} (h : t.reports = s.reports ++ [r]) :
    Truthful t ↔ (r.ret = none ↔ r.added = true) ∧ Truthful s := by
  simp only [Truthful, h, List.forall_mem_append, List.forall_mem_singleton]
  exact and_comm

theorem truthful_congr (h : t.reports = s.reports) : Truthful t ↔ Truthful s := by
  rw [Truthful, Truthful, h]

/-- A step leaves all calls truthful exactly if they were and the step is an
accepted one. -/
theorem truthful_step {e : VirtioEvent} (hstep : s.step e = some t) :
    Truthful t ↔ Accepted s e ∧ Truthful s := by
  cases e with
  | pchanReady | linkVpc =>
      cases hstep
      exact (and_iff_right trivial).symm
  | physicalChannelSend message clock accepts =>
      rw [step] at hstep
      split at hstep
      next hlink =>
        cases hstep
        rw [truthful_concat rfl]
        have hguard : Accepted s (.physicalChannelSend message clock accepts) := by
          intro hlinked
          simp [hlinked] at hlink
        exact and_congr_left fun _ ↦ iff_of_true (by simp) hguard
      next hlink =>
        split at hstep
        next hsize =>
          cases hstep
          rw [truthful_concat rfl]
          have hguard : Accepted s (.physicalChannelSend message clock accepts) := by
            intro _ hle
            omega
          exact and_congr_left fun _ ↦ iff_of_true (by simp) hguard
        next hsize =>
          have hlinked : s.linked = true := by simpa using hlink
          have hle : message.payload.length ≤ PoolType.bufSize .outLarge := by omega
          split at hstep
          next hready =>
            cases hstep
            rw [truthful_concat rfl]
            refine and_congr_left fun _ ↦ iff_of_false (by simp) fun hguard ↦ ?_
            rw [(hguard hlinked hle).1] at hready
            cases hready
          next hready =>
            have hisReady : s.pchanReady = true := by simpa using hready
            split at hstep
            next u hu =>
              cases hstep
              have hsends := sends_of_sendLocked hu
              obtain ⟨hd, rest, hlist, -, -⟩ := hsends.taken
              rw [truthful_concat hsends.reports]
              refine and_congr_left fun _ ↦ ?_
              simp [Accepted, hlinked, hle, hisReady, hlist]
            next hnone =>
              cases hstep
              have hempty := sendLocked_eq_none.mp hnone
              rw [truthful_congr rfl]
              exact (and_iff_right fun _ _ ↦ ⟨hisReady, fun h ↦ absurd hempty h⟩).symm
  | wake i clock accepts =>
      rw [step] at hstep
      split at hstep
      next => cases hstep
      next message hget =>
        split at hstep
        next u hu =>
          cases hstep
          have hsends := sends_of_sendLocked hu
          obtain ⟨hd, rest, hlist, -, -⟩ := hsends.taken
          refine (truthful_concat (r := ⟨none, accepts⟩) hsends.reports).trans ?_
          refine and_congr_left fun _ ↦ ?_
          simp [Accepted, hget, hlist]
        next hnone =>
          cases hstep
          have hempty := sendLocked_eq_none.mp hnone
          refine (and_iff_right ?_).symm
          intro message' hget' hlist
          rw [hget] at hget'
          cases hget'
          exact absurd hempty hlist
  | recvTxq done =>
      rw [step] at hstep
      refine Iff.trans ?_ (and_iff_right trivial).symm
      split at hstep
      next => exact truthful_congr (reports_recvTxq hstep)
      next =>
        cases hstep
        exact Iff.rfl

theorem Conserved.step (h : Conserved s) {e : VirtioEvent} (haccepted : Accepted s e)
    (hstep : s.step e = some t) : Conserved t := by
  cases e with
  | pchanReady | linkVpc =>
      cases hstep
      exact ⟨h.own, h.once, h.counted⟩
  | physicalChannelSend message clock accepts =>
      rw [VqPchan.step] at hstep
      split at hstep
      next =>
        cases hstep
        exact ⟨h.own, h.once, h.counted⟩
      next hlink =>
        split at hstep
        next =>
          cases hstep
          exact ⟨h.own, h.once, h.counted⟩
        next hsize =>
          have haccepts := (haccepted (by simpa using hlink) (by omega)).2
          split at hstep
          next =>
            cases hstep
            exact ⟨h.own, h.once, h.counted⟩
          next =>
            split at hstep
            next u hu =>
              cases hstep
              have hsends := sends_of_sendLocked hu
              obtain ⟨hd, rest, hlist, -, -⟩ := hsends.taken
              obtain rfl : accepts = true := haccepts (hlist ▸ List.cons_ne_nil hd rest)
              exact h.sends hsends
            next =>
              cases hstep
              exact ⟨h.own, h.once, h.counted⟩
  | wake i clock accepts =>
      rw [VqPchan.step] at hstep
      split at hstep
      next => cases hstep
      next message hget =>
        split at hstep
        next u hu =>
          cases hstep
          have hsends := sends_of_sendLocked hu
          obtain ⟨hd, rest, hlist, -, -⟩ := hsends.taken
          obtain rfl : accepts = true :=
            haccepted message hget (hlist ▸ List.cons_ne_nil hd rest)
          have hconserved := h.sends hsends
          exact ⟨hconserved.own, hconserved.once, hconserved.counted⟩
        next =>
          cases hstep
          exact h
  | recvTxq done =>
      rw [VqPchan.step] at hstep
      split at hstep
      next => exact h.recvTxq hstep
      next =>
        cases hstep
        exact h

/-- The buffers are conserved and the calls report the truth exactly in the runs in which
no call meets a channel that is not ready and no buffer is refused. -/
theorem conserved_truthful_iff {events : List VirtioEvent}
    (hrun : Runs.exec step start events = some s) :
    Conserved s ∧ Truthful s ↔ Runs.Meets step Accepted start events := by
  constructor
  · rintro ⟨-, htruthful⟩
    have hback (u : VqPchan) (e : VirtioEvent) (v : VqPchan) (huv : u.step e = some v)
        (hv : Truthful v) : Accepted u e ∧ Truthful u := (truthful_step huv).mp hv
    exact (Runs.meets_of_exec hback hrun htruthful).1
  · intro hmeets
    refine Runs.invariant_of_meets (I := fun u ↦ Conserved u ∧ Truthful u) ?_
      ⟨conserved_start, by simp [Truthful, start]⟩ hmeets hrun
    intro u e v hu haccepted huv
    exact ⟨hu.1.step haccepted huv, (truthful_step huv).mpr ⟨haccepted, hu.2⟩⟩

/-- A message is sent, and its buffer comes back. -/
def oneSend : List VirtioEvent :=
  [.pchanReady, .linkVpc, .physicalChannelSend VhostRx.fourBytes ⟨0, 0, 0⟩ true,
    .recvTxq [⟨.outSmall, 0⟩]]

theorem conserved_truthful_iff_oneSend :
    ∃ s, Runs.exec step start oneSend = some s ∧ s.out.length = 1 ∧
      (Conserved s ∧ Truthful s ↔ Runs.Meets step Accepted start oneSend) := by
  have hseen : (Runs.exec step start oneSend).map (fun s ↦ s.out.length) = some 1 := by
    decide
  obtain ⟨s, hrun, hout⟩ := Option.map_eq_some_iff.mp hseen
  exact ⟨s, hrun, hout, conserved_truthful_iff hrun⟩

/-- The virtqueue refuses the first buffer. -/
def refusedSend : List VirtioEvent :=
  [.pchanReady, .linkVpc, .physicalChannelSend VhostRx.fourBytes ⟨0, 0, 0⟩ false]

/-- A refused buffer is lost, and the call that took it returned 0. -/
theorem not_conserved_not_truthful :
    (¬ ∀ events s, Runs.exec step start events = some s → Conserved s) ∧
      ¬ ∀ events s, Runs.exec step start events = some s → Truthful s := by
  have hseen : (Runs.exec step start refusedSend).map (fun s ↦
      ((s.freeList .outSmall).count ⟨.outSmall, 0⟩ + s.txq.count ⟨.outSmall, 0⟩,
        s.reports.map fun r ↦ (r.ret, r.added))) = some (0, [(none, false)]) := by
    decide
  obtain ⟨s, hrun, hseen⟩ := Option.map_eq_some_iff.mp hseen
  rw [Prod.mk.injEq] at hseen
  obtain ⟨hlost, hreports⟩ := hseen
  constructor
  · intro h
    have honce := (h refusedSend s hrun).once ⟨.outSmall, 0⟩
    exact absurd (hlost.symm.trans honce) (by decide)
  · intro h
    obtain ⟨r, hr, hret⟩ := List.map_eq_singleton_iff.mp hreports
    have htrue := h refusedSend s hrun r (hr ▸ List.mem_singleton_self r)
    rw [Prod.mk.injEq] at hret
    rw [hret.1, hret.2] at htrue
    exact absurd (htrue.mp rfl) Bool.false_ne_true

end VqPchan

end Hab
