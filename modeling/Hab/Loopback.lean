import Hab.Library.Slab
import Hab.ReceivedFrames

/-!
# The loopback transport (`hab_comm.c`)

A message is copied into a block of its own and put on `msg_list`; `lb_kthread` takes one
after the other off the list, with `io_lock` held for all of it, hands it to
`hab_msg_recv` and frees the block.  `physical_channel_read` reads from the start of the
payload each time: a message that is read in pieces is not read on.
-/

namespace Hab

open Slab

/-- `struct loopback_msg`, in the block that `kmalloc` returned for it. -/
structure LoopbackMsg where
  block : ℕ
  header : HabFullHeader
  payload : List UInt8

/-- Where `lb_kthread` stands: it waits, it is in the loop over the list with the lock held,
or in `hab_msg_recv` for `current_msg`, with the reads that are to come. -/
inductive LbKthread
  | waiting
  | looping
  | handling (currentMsg : LoopbackMsg) (received : Received) (reads : List ℕ)

structure LoopbackDev where
  msgList : List LoopbackMsg
  msgCnt : ℤ
  kthread : LbKthread
  /-- The pchan is there: `habhyp_commdev_dealloc` was not called. -/
  present : Bool
  heap : Heap
  /-- The messages that `physical_channel_send` has put on the list. -/
  accepted : List SendNode
  /-- The calls of `hab_msg_recv` that have returned. -/
  handled : List Received

inductive LoopbackEvent
  /-- A call, the clock it reads and whether there is memory for the message. -/
  | physicalChannelSend (node : SendNode) (clock : RxClock) (alloc : Bool)
  /-- The thread is woken, and takes the lock. -/
  | lockList
  /-- The thread takes the next message, or gives the lock back. -/
  | nextMsg (env : RecvEnv)
  | physicalChannelRead
  | freeMsg
  | commdevDealloc

namespace LoopbackDev

def start : LoopbackDev := ⟨[], 0, .waiting, true, ⟨0, []⟩, [], []⟩

/-- No one else gets `io_lock` while the thread is in its loop. -/
def Locked (s : LoopbackDev) : Bool :=
  match s.kthread with
  | .waiting => false
  | _ => true

def physicalChannelSend (s : LoopbackDev) (node : SendNode) (clock : RxClock) (alloc : Bool) :
    LoopbackDev :=
  match s.heap.alloc alloc with
  | (none, _) => s -- `-ENOMEM`
  | (some block, heap) =>
      { s with
        heap
        msgList := s.msgList ++ [⟨block, node.header, node.stampedPayload clock⟩]
        msgCnt := s.msgCnt + 1
        accepted := s.accepted ++ [node] }

/-- The copy for one read, from the start of the payload on. -/
def readFrom (payload : List UInt8) (readSize : ℕ) : List UInt8 := payload.take readSize

def nextMsg (s : LoopbackDev) (env : RecvEnv) : LoopbackDev :=
  match s.msgList with
  | [] => { s with kthread := .waiting }
  | msg :: rest =>
      { s with
        msgList := rest
        msgCnt := s.msgCnt - 1
        kthread := .handling msg ⟨env, msg.header.bytes, []⟩
          (habMsgRecvReads env msg.header.toHabHeader) }

/-- What is left on the list is freed, and the thread stopped. -/
def commdevDealloc (s : LoopbackDev) : LoopbackDev :=
  { s with
    present := false
    heap := (s.msgList.map LoopbackMsg.block).foldl Heap.free s.heap
    msgCnt := s.msgCnt - s.msgList.length
    msgList := [] }

def step (s : LoopbackDev) : LoopbackEvent → Option LoopbackDev
  | .physicalChannelSend node clock alloc =>
      if s.present ∧ ¬ s.Locked then some (s.physicalChannelSend node clock alloc) else none
  | .lockList =>
      match s.kthread with
      | .waiting => some { s with kthread := .looping }
      | _ => none
  | .nextMsg env =>
      match s.kthread with
      | .looping => some (s.nextMsg env)
      | _ => none
  | .physicalChannelRead =>
      match s.kthread with
      | .handling msg received (n :: reads) =>
          some { s with
            kthread := .handling msg
              { received with payload := received.payload ++ readFrom msg.payload n } reads }
      | _ => none
  | .freeMsg =>
      match s.kthread with
      | .handling msg received [] =>
          some { s with
            heap := s.heap.free msg.block
            kthread := .looping
            handled := s.handled ++ [received] }
      | _ => none
  | .commdevDealloc => if s.present ∧ ¬ s.Locked then some s.commdevDealloc else none

/-! ## What is to hold -/

def current (s : LoopbackDev) : List LoopbackMsg :=
  match s.kthread with
  | .handling msg _ _ => [msg]
  | _ => []

/-- The messages that are not freed yet. -/
def pending (s : LoopbackDev) : List LoopbackMsg := s.current ++ s.msgList

/-- The copy of a message. -/
def Copy (node : SendNode) (msg : LoopbackMsg) : Prop :=
  msg.header = node.header ∧ ∃ clock, msg.payload = node.stampedPayload clock

/-- What a call of `hab_msg_recv` gets of a message: each read starts anew. -/
def Arrives (_ : ℕ) (node : SendNode) (r : Received) : Prop :=
  r.header = node.header.bytes ∧ ∃ clock, r.payload =
    (habMsgRecvReads r.env node.header.toHabHeader).flatMap (readFrom (node.stampedPayload clock))

/-- Where the call of `hab_msg_recv` has got to. -/
def Handling (s : LoopbackDev) : Prop :=
  match s.kthread with
  | .handling msg received reads => received.header = msg.header.bytes ∧ ∃ done,
      received.payload = done.flatMap (readFrom msg.payload) ∧
        done ++ reads = habMsgRecvReads received.env msg.header.toHabHeader
  | _ => True

structure Inv (s : LoopbackDev) : Prop where
  carries : Channel.Carries Arrives s.accepted s.handled
  copies : s.present = true → List.Forall₂ Copy (s.accepted.drop s.handled.length) s.pending
  gone : s.present = false → s.pending = []
  handling : s.Handling
  msgCnt : s.msgCnt = s.msgList.length
  heap : Holds ⟨0, []⟩ s.heap (s.pending.map LoopbackMsg.block)

variable {s t : LoopbackDev}

theorem inv_start : Inv start where
  carries := .nil
  copies := fun _ ↦ .nil
  gone := fun h ↦ by cases h
  handling := trivial
  msgCnt := rfl
  heap := Holds.refl _

theorem current_eq_nil (h : ¬ s.Locked = true) : s.current = [] := by
  unfold Locked at h
  unfold current
  split
  next hworker =>
    rw [hworker] at h
    exact absurd rfl h
  next => rfl

theorem Inv.physicalChannelSend (h : Inv s) (hpresent : s.present = true)
    (hlocked : ¬ s.Locked = true) (node : SendNode) (clock : RxClock) (alloc : Bool) :
    Inv (s.physicalChannelSend node clock alloc) := by
  cases alloc with
  | false => exact h
  | true =>
      have hcurrent := current_eq_nil hlocked
      have hpending : s.pending = s.msgList := by
        rw [pending, hcurrent, List.nil_append]
      have hnext : pending (s.physicalChannelSend node clock true) =
          s.pending ++ [⟨s.heap.next, node.header, node.stampedPayload clock⟩] := by
        rw [pending, pending, List.append_assoc]
        rfl
      refine ⟨h.carries.append [node], fun _ ↦ ?_, fun hgone ↦ ?_, h.handling, ?_, ?_⟩
      · have hcopy : Copy node ⟨s.heap.next, node.header, node.stampedPayload clock⟩ :=
          ⟨rfl, clock, rfl⟩
        rw [hnext]
        have hdrop : (s.physicalChannelSend node clock true).accepted.drop s.handled.length =
            s.accepted.drop s.handled.length ++ [node] :=
          List.drop_append_of_le_length h.carries.le
        refine Eq.mpr (congrArg (List.Forall₂ Copy · _) hdrop) ?_
        exact List.rel_append (h.copies hpresent) (.cons hcopy .nil)
      · exact absurd (hpresent.symm.trans hgone) Bool.noConfusion
      · have hcnt := h.msgCnt
        simp only [LoopbackDev.physicalChannelSend, Heap.alloc, if_true, List.length_append,
          List.length_singleton]
        omega
      · rw [hnext, List.map_append]
        exact h.heap.alloc

theorem Inv.nextMsg (h : Inv s) (hlooping : s.kthread = .looping) (env : RecvEnv) :
    Inv (s.nextMsg env) := by
  have hpending : s.pending = s.msgList := by
    rw [pending, current, hlooping]
    rfl
  rw [LoopbackDev.nextMsg]
  split
  next hnil =>
    have hsame : pending { s with kthread := .waiting } = s.pending := by
      rw [hpending]
      rfl
    exact ⟨h.carries, fun hp ↦ hsame ▸ h.copies hp, fun hp ↦ hsame ▸ h.gone hp, trivial,
      h.msgCnt, hsame ▸ h.heap⟩
  next msg rest hlist =>
    have hsame : pending { s with
        msgList := rest
        msgCnt := s.msgCnt - 1
        kthread := .handling msg ⟨env, msg.header.bytes, []⟩
          (habMsgRecvReads env msg.header.toHabHeader) } = s.pending := by
      rw [hpending, hlist]
      rfl
    refine ⟨h.carries, fun hp ↦ hsame ▸ h.copies hp, fun hp ↦ hsame ▸ h.gone hp,
      ⟨rfl, [], rfl, rfl⟩, ?_, hsame ▸ h.heap⟩
    have hcnt := h.msgCnt
    rw [hlist, List.length_cons] at hcnt
    dsimp only
    omega

theorem Inv.freeMsg (h : Inv s) {msg : LoopbackMsg} {received : Received}
    (hhandling : s.kthread = .handling msg received []) :
    Inv { s with
      heap := s.heap.free msg.block
      kthread := .looping
      handled := s.handled ++ [received] } := by
  have hpending : s.pending = msg :: s.msgList := by
    rw [pending, current, hhandling]
    rfl
  have hpresent : s.present = true := by
    by_contra hgone
    have hnil := h.gone (Bool.eq_false_iff.mpr hgone)
    rw [hpending] at hnil
    cases hnil
  obtain ⟨hheader, done, hpayload, hreads⟩ :
      received.header = msg.header.bytes ∧ ∃ done,
        received.payload = done.flatMap (readFrom msg.payload) ∧
          done ++ [] = habMsgRecvReads received.env msg.header.toHabHeader := by
    have hread := h.handling
    rw [Handling, hhandling] at hread
    exact hread
  rw [List.append_nil] at hreads
  have hcopies := h.copies hpresent
  rw [hpending] at hcopies
  cases hdrop : s.accepted.drop s.handled.length with
  | nil =>
      rw [hdrop] at hcopies
      cases hcopies
  | cons node nodes =>
      rw [hdrop] at hcopies
      obtain ⟨⟨hcopy, clock, hbytes⟩, hrest⟩ := List.forall₂_cons.mp hcopies
      have hget : s.accepted[s.handled.length]? = some node := by
        rw [← List.head?_drop, hdrop]
        rfl
      refine ⟨h.carries.concat hget ⟨hheader.trans (congrArg _ hcopy), clock, ?_⟩, fun _ ↦ ?_,
        fun hgone ↦ ?_, trivial, h.msgCnt, ?_⟩
      · rw [hpayload, hreads, hcopy, hbytes]
      · have hnext : s.accepted.drop (s.handled ++ [received]).length = nodes := by
          rw [List.length_append, List.length_singleton, ← List.drop_drop, hdrop]
          rfl
        exact Eq.mpr (congrArg (List.Forall₂ Copy · _) hnext) hrest
      · exact absurd (hpresent.symm.trans hgone) Bool.noConfusion
      · have hheap := h.heap
        rw [hpending] at hheap
        exact hheap.free

theorem Inv.step (h : Inv s) {e : LoopbackEvent} (hstep : s.step e = some t) : Inv t := by
  cases e with
  | physicalChannelSend node clock alloc =>
      rw [LoopbackDev.step] at hstep
      split at hstep
      next hopen =>
        cases hstep
        exact h.physicalChannelSend hopen.1 hopen.2 node clock alloc
      next => cases hstep
  | lockList =>
      rw [LoopbackDev.step] at hstep
      split at hstep
      next hwaiting =>
        cases hstep
        have hsame : pending { s with kthread := .looping } = s.pending := by
          rw [pending, pending, current, current, hwaiting]
        exact ⟨h.carries, fun hp ↦ hsame ▸ h.copies hp, fun hp ↦ hsame ▸ h.gone hp, trivial,
          h.msgCnt, hsame ▸ h.heap⟩
      next => cases hstep
  | nextMsg env =>
      rw [LoopbackDev.step] at hstep
      split at hstep
      next hlooping =>
        cases hstep
        exact h.nextMsg hlooping env
      next => cases hstep
  | physicalChannelRead =>
      rw [LoopbackDev.step] at hstep
      split at hstep
      next msg received n reads hhandling =>
        cases hstep
        have hread := h.handling
        rw [Handling, hhandling] at hread
        obtain ⟨hheader, done, hpayload, hreads⟩ := hread
        have hsame (received' : Received) : pending { s with
            kthread := .handling msg received' reads } = s.pending := by
          rw [pending, pending, current, current, hhandling]
        refine ⟨h.carries, fun hp ↦ hsame _ ▸ h.copies hp, fun hp ↦ hsame _ ▸ h.gone hp, ?_,
          h.msgCnt, hsame _ ▸ h.heap⟩
        refine ⟨hheader, done ++ [n], ?_, ?_⟩
        · rw [hpayload, List.flatMap_append, List.flatMap_singleton]
        · rw [List.append_assoc]
          exact hreads
      next => cases hstep
  | freeMsg =>
      rw [LoopbackDev.step] at hstep
      split at hstep
      next msg received hhandling =>
        cases hstep
        exact h.freeMsg hhandling
      next => cases hstep
  | commdevDealloc =>
      rw [LoopbackDev.step] at hstep
      split at hstep
      next hopen =>
        cases hstep
        have hcurrent := current_eq_nil hopen.2
        have hpending : s.pending = s.msgList := by
          rw [pending, hcurrent, List.nil_append]
        have hnil : s.commdevDealloc.pending = [] := by
          rw [pending, List.append_eq_nil_iff]
          exact ⟨hcurrent, rfl⟩
        refine ⟨h.carries, fun hp ↦ ?_, fun _ ↦ hnil, h.handling, ?_, ?_⟩
        · cases hp
        · rw [commdevDealloc, h.msgCnt, sub_self]
          rfl
        · have hheap := h.heap
          rw [hpending, ← List.append_nil (s.msgList.map _)] at hheap
          rw [hnil]
          exact hheap.freeAll
      next => cases hstep

theorem Inv.of_exec {events : List LoopbackEvent}
    (hrun : Runs.exec LoopbackDev.step start events = some s) : Inv s :=
  Runs.invariant_of_exec (fun _ _ _ hu huv ↦ hu.step huv) inv_start hrun

/-- In every run the messages are handled in the order in which they were sent, each once;
the counter counts the list, and each block that is not pending was freed once. -/
theorem loopback_arrives {events : List LoopbackEvent}
    (hrun : Runs.exec LoopbackDev.step start events = some s) :
    Channel.Carries Arrives s.accepted s.handled ∧ s.msgCnt = s.msgList.length ∧
      Holds ⟨0, []⟩ s.heap (s.pending.map LoopbackMsg.block) ∧
      (s.present = true → s.pending = [] → s.handled.length = s.accepted.length) ∧
      (s.present = false → FreedExactly ⟨0, []⟩ s.heap) := by
  have h : Inv s := .of_exec hrun
  refine ⟨h.carries, h.msgCnt, h.heap, ?_, ?_⟩
  · intro hpresent hpending
    have hcopies := h.copies hpresent
    rw [hpending, List.forall₂_nil_right_iff] at hcopies
    exact Nat.le_antisymm h.carries.le (List.drop_eq_nil_iff.mp hcopies)
  · intro hgone
    have hheap := h.heap
    rw [h.gone hgone] at hheap
    exact hheap

/-- A message of four bytes is handled, and another is left when the channel goes. -/
def twoMessages : List LoopbackEvent :=
  [.physicalChannelSend VhostRx.fourBytes ⟨0, 0, 0⟩ true, .lockList,
    .nextMsg ⟨true, false, true, true⟩, .physicalChannelRead, .freeMsg,
    .nextMsg ⟨true, false, true, true⟩, .physicalChannelSend VhostRx.fourBytes ⟨0, 0, 0⟩ true,
    .commdevDealloc]

theorem loopback_arrives_twoMessages :
    ∃ s, Runs.exec LoopbackDev.step start twoMessages = some s ∧
      (s.present, s.handled.map Received.payload, s.heap.freed) = (false, [[1, 2, 3, 4]], [1, 0]) ∧
      Channel.Carries Arrives s.accepted s.handled ∧ s.msgCnt = s.msgList.length ∧
      Holds ⟨0, []⟩ s.heap (s.pending.map LoopbackMsg.block) ∧
      (s.present = true → s.pending = [] → s.handled.length = s.accepted.length) ∧
      (s.present = false → FreedExactly ⟨0, []⟩ s.heap) := by
  have hseen : (Runs.exec LoopbackDev.step start twoMessages).map (fun s ↦
      (s.present, s.handled.map Received.payload, s.heap.freed)) =
        some (false, [[1, 2, 3, 4]], [1, 0]) := by
    decide
  obtain ⟨s, hrun, hend⟩ := Option.map_eq_some_iff.mp hseen
  exact ⟨s, hrun, hend, loopback_arrives hrun⟩

/-! ## Messages that are read in pieces -/

/-- Pieces of one size, each from the start of the payload. -/
theorem flatMap_replicate_readFrom {payload : List UInt8} {n k : ℕ} (hn : 0 < n)
    (hk : k * n ≤ payload.length) :
    ((List.replicate k n).flatMap (readFrom payload)).length = k * n ∧
      ∀ i < k * n, ((List.replicate k n).flatMap (readFrom payload))[i]? = payload[i % n]? := by
  induction k with
  | zero => simp
  | succ k ih =>
      rw [Nat.succ_mul] at hk ⊢
      obtain ⟨hlen, hget⟩ := ih (by omega)
      have hfirst : (readFrom payload n).length = n := by
        rw [readFrom, List.length_take]
        omega
      rw [List.replicate_succ, List.flatMap_cons]
      refine ⟨?_, ?_⟩
      · rw [List.length_append, hlen, hfirst]
        omega
      · intro i hi
        rcases Nat.lt_or_ge i n with hin | hout
        · rw [List.getElem?_append_left (by omega), readFrom, List.getElem?_take_of_lt hin,
            Nat.mod_eq_of_lt hin]
        · rw [List.getElem?_append_right (by omega), hfirst, hget _ (by omega),
            ← Nat.mod_eq_sub_mod hout]

/-- A message that is read page by page shows its first page on each of them. -/
theorem flatMap_scatterReads (payload : List UInt8) :
    ((scatterReads payload.length).flatMap (readFrom payload)).length = payload.length ∧
      ∀ i < payload.length, ((scatterReads payload.length).flatMap (readFrom payload))[i]? =
        payload[i % pageSize]? := by
  have hpage : 0 < pageSize := by decide
  have hdiv := Nat.div_add_mod payload.length pageSize
  rw [Nat.mul_comm] at hdiv
  have hmod := Nat.mod_lt payload.length hpage
  have hpages : payload.length / pageSize * pageSize ≤ payload.length := by omega
  obtain ⟨hlen, hget⟩ := flatMap_replicate_readFrom hpage hpages
  rw [scatterReads, List.flatMap_append]
  have hrest : ((if payload.length % pageSize = 0 then [] else [payload.length % pageSize]).flatMap
      (readFrom payload)) = payload.take (payload.length % pageSize) := by
    split
    next hzero => rw [hzero, List.flatMap_nil, List.take_zero]
    next => rw [List.flatMap_singleton, readFrom]
  rw [hrest]
  refine ⟨?_, ?_⟩
  · rw [List.length_append, hlen, List.length_take]
    omega
  · intro i hi
    rcases Nat.lt_or_ge i (payload.length / pageSize * pageSize) with hin | hout
    · rw [List.getElem?_append_left (by omega), hget i hin]
    · rw [List.getElem?_append_right (by omega), hlen, List.getElem?_take_of_lt (by omega)]
      have hcell : i % pageSize = i - payload.length / pageSize * pageSize := by
        conv_lhs => rw [← Nat.sub_add_cancel hout, Nat.add_mul_mod_self_right]
        exact Nat.mod_eq_of_lt (by omega)
      rw [hcell]

/-- The first page of a payload comes again on each page. -/
def Repeats (payload : List UInt8) : Prop :=
  ∀ i < payload.length, payload[i]? = payload[i % pageSize]?

theorem flatMap_scatterReads_eq_iff (payload : List UInt8) :
    (scatterReads payload.length).flatMap (readFrom payload) = payload ↔ Repeats payload := by
  obtain ⟨hlen, hget⟩ := flatMap_scatterReads payload
  constructor
  · intro heq i hi
    have hi' := hget i hi
    rw [heq] at hi'
    exact hi'
  · intro h
    apply List.ext_getElem?
    intro i
    rcases Nat.lt_or_ge i payload.length with hi | hi
    · rw [hget i hi, ← h i hi]
    · rw [List.getElem?_eq_none (hlen.trans_le hi), List.getElem?_eq_none hi]

/-- A data message to an open vchan. -/
structure DataMessage (node : SendNode) (env : RecvEnv) : Prop where
  type : HabPayloadType.ofNumber node.header.getType = some .msg
  vchan : env.vchan = true
  otherend : env.otherendClosed = false
  size : node.payload.length ≤ habHeaderSizeMax

theorem DataMessage.reads {node : SendNode} {env : RecvEnv} (h : DataMessage node env) :
    habMsgRecvReads env node.header.toHabHeader = habMsgAllocReads env node.payload.length := by
  have htype : HabPayloadType.ofNumber node.header.toHabHeader.getType = some .msg := h.type
  rw [habMsgRecvReads, htype, node.sized]
  simp only [HabPayloadType.isOpen, Bool.false_eq_true, if_false, h.vchan, not_true_eq_false,
    h.otherend, handlerReads]

theorem DataMessage.stampedPayload {node : SendNode} {env : RecvEnv} (h : DataMessage node env)
    (clock : RxClock) : node.stampedPayload clock = node.payload := by
  rw [SendNode.stampedPayload, if_neg]
  intro hprofile
  have htype := h.type
  rw [hprofile] at htype
  cases htype

/-- What `hab_msg_recv` queues of a data message: what was read into the message, if
`hab_msg_alloc` has returned one. -/
def queuedData (r : Received) (sizebytes : ℕ) : Option (List UInt8) :=
  if habHeaderSizeMax < sizebytes then none
  else if r.env.alloc then some r.payload
  else if pageSize < sizebytes ∧ r.env.scatter then some r.payload
  else none

/-- A data message is queued unchanged by the loopback exactly if there was one block for
it, or it has a block for each page and its pages are all alike. -/
theorem loopback_queued_iff {events : List LoopbackEvent}
    (hrun : Runs.exec LoopbackDev.step start events = some s) {k : ℕ} {node : SendNode}
    {r : Received} (hsent : s.accepted[k]? = some node) (hgot : s.handled[k]? = some r)
    (hdata : DataMessage node r.env) :
    queuedData r node.payload.length = some node.payload ↔ r.env.alloc = true ∨
      pageSize < node.payload.length ∧ r.env.scatter = true ∧ Repeats node.payload := by
  obtain ⟨-, clock, hpayload⟩ := (Inv.of_exec hrun).carries.related k node r hsent hgot
  have hmax := Nat.not_lt.mpr hdata.size
  rw [hdata.reads, hdata.stampedPayload, habMsgAllocReads, if_neg hmax] at hpayload
  rw [queuedData, if_neg hmax]
  cases halloc : r.env.alloc with
  | true =>
      rw [halloc, if_pos rfl, List.flatMap_singleton, readFrom, List.take_length] at hpayload
      rw [if_pos rfl, hpayload]
      exact iff_of_true rfl (.inl rfl)
  | false =>
      rw [halloc, if_neg Bool.false_ne_true] at hpayload
      rw [if_neg Bool.false_ne_true, or_iff_right Bool.false_ne_true]
      by_cases hscatter : pageSize < node.payload.length ∧ r.env.scatter = true
      · rw [if_pos hscatter] at hpayload
        rw [if_pos hscatter, Option.some.injEq, hpayload, flatMap_scatterReads_eq_iff,
          ← and_assoc, and_iff_right hscatter]
      · rw [if_neg hscatter]
        exact iff_of_false (Option.some_ne_none _).symm fun h ↦ hscatter ⟨h.1, h.2.1⟩

/-- A message for which `hab_msg_recv` makes two reads. -/
def twoPieces (node : SendNode) (env : RecvEnv) : List LoopbackEvent :=
  [.physicalChannelSend node ⟨0, 0, 0⟩ true, .lockList, .nextMsg env, .physicalChannelRead,
    .physicalChannelRead, .freeMsg]

theorem exec_twoPieces {node : SendNode} {env : RecvEnv} {m n : ℕ}
    (hreads : habMsgRecvReads env node.header.toHabHeader = [m, n]) :
    ∃ s payload, Runs.exec LoopbackDev.step start (twoPieces node env) = some s ∧
      s.accepted[0]? = some node ∧ s.handled[0]? = some ⟨env, node.header.bytes, payload⟩ := by
  simp [twoPieces, Runs.exec, LoopbackDev.step, start, Locked, physicalChannelSend, nextMsg,
    Heap.alloc, hreads]

/-- A page and one byte more, which is not as the first. -/
def pageAndOne : SendNode where
  header :=
    { idType := 0x00100000, payloadSize := 4097, sessionId := 1, signature := 0, sequence := 0 }
  payload := List.replicate 4096 7 ++ [8]
  sized := by rw [List.length_append, List.length_replicate]; rfl
  profiled := by decide

/-- There is no block for the whole of it: its last byte is read from the start again. -/
theorem loopback_queued_iff_pageAndOne :
    ∃ s r, Runs.exec LoopbackDev.step start (twoPieces pageAndOne ⟨true, false, false, true⟩) =
        some s ∧ s.handled[0]? = some r ∧ r.env.alloc = false ∧
      queuedData r pageAndOne.payload.length ≠ some pageAndOne.payload := by
  have hlen : pageAndOne.payload.length = 4097 := pageAndOne.sized
  have hdata : DataMessage pageAndOne ⟨true, false, false, true⟩ :=
    ⟨by decide, rfl, rfl, by rw [hlen]; decide⟩
  have hreads : habMsgRecvReads ⟨true, false, false, true⟩ pageAndOne.header.toHabHeader =
      [4096, 1] := by
    rw [hdata.reads, hlen]
    decide
  obtain ⟨s, payload, hrun, hsent, hgot⟩ := exec_twoPieces hreads
  refine ⟨s, _, hrun, hgot, rfl, fun hqueued ↦ ?_⟩
  rcases (loopback_queued_iff hrun hsent hgot hdata).mp hqueued with halloc | ⟨-, -, hrepeats⟩
  · cases halloc
  · have hlast := hrepeats 4096 (by rw [hlen]; decide)
    have hpage : (List.replicate 4096 (7 : UInt8)).length = 4096 := List.length_replicate
    rw [pageAndOne, List.getElem?_append_right hpage.le, hpage,
      List.getElem?_append_left (by rw [hpage]; decide),
      List.getElem?_replicate_of_lt (by decide)] at hlast
    cases hlast

end LoopbackDev

end Hab
