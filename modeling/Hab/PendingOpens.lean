import Hab.Library.Runs
import Hab.VmRequests

/-!
# Pending opens (`hab_open.c`, `hab.c`)

While an open waits for its answer, its `pending_open`, which is on its stack, is on
the list of its context.  `hab_open_pending_exit` goes by what the node says and not by
the node; it finds the right one since the vchan ids of the opens in progress differ.
-/

namespace Hab

open Runs

/-- `struct hab_open_node pending_open`, with the call that has it on its stack. -/
structure PendingNode where
  owner : ℕ
  request : HabOpenRequest HabPchan

/-- `ctx->pending_open` and `ctx->pending_cnt`. -/
structure PendingOpens where
  pendingOpen : List PendingNode
  pendingCnt : ℤ

/-- What `hab_open_pending_exit` compares. -/
def HabOpenRequest.samePending (node pending : HabOpenRequest HabPchan) : Bool :=
  node.type = pending.type && node.pchan = pending.pchan &&
    node.xdata.vchanId = pending.xdata.vchanId && node.xdata.subId = pending.xdata.subId &&
      node.xdata.openId = pending.xdata.openId

def habOpenPendingEnter (ctx : PendingOpens) (pending : PendingNode) : PendingOpens :=
  ⟨ctx.pendingOpen ++ [pending], ctx.pendingCnt + 1⟩

/-- The loop of `hab_open_pending_exit`: what it leaves and the nodes it deletes.  Nobody
looks at what it returns. -/
def habOpenPendingExit (pending : HabOpenRequest HabPchan) :
    List PendingNode → ℤ → PendingOpens × List PendingNode
  | [], cnt => (⟨[], cnt⟩, [])
  | node :: nodes, cnt =>
      if node.request.samePending pending then
        let (ctx, removed) := habOpenPendingExit pending nodes (cnt - 1)
        (ctx, node :: removed)
      else
        let (ctx, removed) := habOpenPendingExit pending nodes cnt
        (⟨node :: ctx.pendingOpen, ctx.pendingCnt⟩, removed)

/-- What a call does to the list of its context. -/
inductive PendingOp where
  | enter (ctx : ℕ) (request : HabOpenRequest HabPchan)
  | exit (ctx : ℕ)

/-- The context of an open and the request that its `pending_open` holds. -/
def Call.pendingRequest (vchan : ℕ → Vchan) : Call → Option (ℕ × HabOpenRequest HabPchan)
  | .front o _ => some (o.ctx, ⟨.init, o.pchan, o.xdata .init (vchan o.vchan).id⟩)
  | .round r _ =>
      some (r.listen.ctx, ⟨.initAck, r.init.pchan, r.xdata .initAck (vchan r.vchan).id⟩)
  | _ => none

/-- What a call does to the list of its context in the step that ends with `next`.
`backend_listen` calls `hab_open_pending_exit` right after its wait, once more if it then
leaves the loop, which finds nothing (`habOpenPendingExit_again`), and after its
INIT_CANCEL. -/
def Call.pendingOp (vchan : ℕ → Vchan) (next : Option Call) : Call → Option PendingOp
  | .front o .init =>
      if next.isSome then
        some (.enter o.ctx ⟨.init, o.pchan, o.xdata .init (vchan o.vchan).id⟩)
      else none
  | .front o (.woken _ _) =>
      match next with
      | some (.front _ (.cancel _ _)) => none
      | _ => some (.exit o.ctx)
  | .front o (.cancel _ _) => some (.exit o.ctx)
  | .round r .ack =>
      if next.isSome then
        some (.enter r.listen.ctx
          ⟨.initAck, r.init.pchan, r.xdata .initAck (vchan r.vchan).id⟩)
      else none
  | .round r (.answered _ _) | .round r (.cancel _ _) => some (.exit r.listen.ctx)
  | _ => none

/-- A VM with the pending opens of its contexts.  The last field is not in the source:
for each node that was deleted, the call that did it and the call that owned it. -/
structure PendingVm where
  vm : HabVm
  ctx : ℕ → PendingOpens
  /-- `pending_open.request` of each call that has set it; before that it is zero, with no
  pchan, and like no node. -/
  pending : ℕ → Option (HabOpenRequest HabPchan)
  removed : List (ℕ × ℕ)

namespace PendingVm

def init : PendingVm := ⟨HabVm.init, fun _ ↦ ⟨[], 0⟩, fun _ ↦ none, []⟩

/-- A call sets its `pending_open` and puts it on the list. -/
def enter (s : PendingVm) (i ctx : ℕ) (request : HabOpenRequest HabPchan) : PendingVm :=
  { s with
    ctx := Function.update s.ctx ctx (habOpenPendingEnter (s.ctx ctx) ⟨i, request⟩)
    pending := Function.update s.pending i (some request) }

/-- A call takes its `pending_open` off the list. -/
def exit (s : PendingVm) (i ctx : ℕ) : PendingVm :=
  match s.pending i with
  | none => s
  | some request =>
      let exited := habOpenPendingExit request (s.ctx ctx).pendingOpen (s.ctx ctx).pendingCnt
      { s with
        ctx := Function.update s.ctx ctx exited.1
        removed := s.removed ++ exited.2.map fun node ↦ (i, node.owner) }

def apply (s : PendingVm) (i : ℕ) : Option PendingOp → PendingVm
  | none => s
  | some (.enter ctx request) => s.enter i ctx request
  | some (.exit ctx) => s.exit i ctx

/-- What the step that leads to `vm` does to the lists. -/
def pendingOp (s : PendingVm) (vm : HabVm) : VmAct → Option PendingOp
  | .advance i => (s.vm.calls.get i).bind (Call.pendingOp s.vm.vchan (vm.calls.get i))
  | _ => none

/-- The call that makes a step. -/
def actor : VmAct → ℕ
  | .advance i => i
  | _ => 0

/-- The next step of a VM. -/
def run (s : PendingVm) (act : VmAct × Env) : Option PendingVm :=
  (s.vm.step act.1 act.2).map fun next ↦
    { s.apply (actor act.1) (s.pendingOp next.1 act.1) with vm := next.1 }

/-- No open leaves anything behind. -/
structure Tidy (s : PendingVm) : Prop where
  /-- A node on a list is that of a `frontend_open` or `backend_listen` that has not
  returned. -/
  inProgress : ∀ ctx, ∀ node ∈ (s.ctx ctx).pendingOpen,
    ∃ call, s.vm.calls.get node.owner = some call ∧ call.handshake = true
  own : ∀ entry ∈ s.removed, entry.1 = entry.2
  counted : ∀ ctx, (s.ctx ctx).pendingCnt = (s.ctx ctx).pendingOpen.length

end PendingVm

/-! ## The loop -/

@[simp] theorem HabOpenRequest.samePending_self (request : HabOpenRequest HabPchan) :
    request.samePending request = true := by
  simp [samePending]

theorem HabOpenRequest.vchanId_of_samePending {node pending : HabOpenRequest HabPchan}
    (h : node.samePending pending = true) : node.xdata.vchanId = pending.xdata.vchanId := by
  simp only [samePending, Bool.and_eq_true, decide_eq_true_eq] at h
  exact h.1.1.2

section Exit

variable (pending : HabOpenRequest HabPchan) (nodes : List PendingNode) (cnt : ℤ)

theorem pendingOpen_exit : (habOpenPendingExit pending nodes cnt).1.pendingOpen =
    nodes.filter fun node ↦ !node.request.samePending pending := by
  induction nodes generalizing cnt with
  | nil => rfl
  | cons node nodes ih =>
      by_cases h : node.request.samePending pending = true <;>
        simp [habOpenPendingExit, h, ih]

theorem removed_exit : (habOpenPendingExit pending nodes cnt).2 =
    nodes.filter fun node ↦ node.request.samePending pending := by
  induction nodes generalizing cnt with
  | nil => rfl
  | cons node nodes ih =>
      by_cases h : node.request.samePending pending = true <;>
        simp [habOpenPendingExit, h, ih]

/-- The counter goes down once for each node that is deleted. -/
theorem pendingCnt_exit : (habOpenPendingExit pending nodes cnt).1.pendingCnt + nodes.length =
    cnt + (habOpenPendingExit pending nodes cnt).1.pendingOpen.length := by
  induction nodes generalizing cnt with
  | nil => rfl
  | cons node nodes ih =>
      by_cases h : node.request.samePending pending = true
      · have hrest := ih (cnt - 1)
        simp only [habOpenPendingExit, h, if_true, List.length_cons]
        omega
      · have hrest := ih cnt
        simp only [habOpenPendingExit, h, Bool.false_eq_true, if_false, List.length_cons]
        omega

/-- Nothing is left for a second call. -/
theorem habOpenPendingExit_again :
    habOpenPendingExit pending (habOpenPendingExit pending nodes cnt).1.pendingOpen
      (habOpenPendingExit pending nodes cnt).1.pendingCnt =
        ((habOpenPendingExit pending nodes cnt).1, []) := by
  induction nodes generalizing cnt with
  | nil => rfl
  | cons node nodes ih =>
      by_cases h : node.request.samePending pending = true <;>
        simp [habOpenPendingExit, h, ih]

end Exit

/-! ## What becomes of a node -/

namespace Call

/-- The call has set its `pending_open` up. -/
def entered : Call → Bool
  | .front _ .wait | .front _ (.woken _ _) | .front _ (.cancel _ _) => true
  | .round _ .wait | .round _ (.answered _ _) | .round _ (.cancel _ _) => true
  | _ => false

/-- The `pending_open` of the call is on the list. -/
def listed : Call → Bool
  | .front _ .wait | .front _ (.woken _ _) | .front _ (.cancel _ _) => true
  | .round _ .wait | .round _ (.answered _ _) => true
  | _ => false

variable {call k : Call} {vchan vchan' : ℕ → Vchan}

theorem entered_of_listed (h : call.listed = true) : call.entered = true := by
  cases call with
  | front o stage =>
      cases stage with
      | wait | woken | cancel => rfl
      | _ => cases h
  | round r stage =>
      cases stage with
      | wait | answered | cancel => rfl
      | ack => cases h
  | _ => cases h

theorem handshake_of_entered (h : call.entered = true) : call.handshake = true := by
  cases call with
  | front | round => rfl
  | _ => cases h

theorem opening_of_entered (h : call.entered = true) : call.opening = true := by
  cases call with
  | front | round => rfl
  | _ => cases h

/-- What the `pending_open` of a call holds stays the same as the call goes on. -/
theorem GoesOn.pendingRequest (h : call.GoesOn k) (hk : k.entered = true) :
    k.pendingRequest vchan = call.pendingRequest vchan := by
  cases h with
  | front | round => rfl
  | _ => cases hk

theorem pendingRequest_of_id (h : ∀ v, call.vchan = some v → (vchan' v).id = (vchan v).id) :
    call.pendingRequest vchan' = call.pendingRequest vchan := by
  cases call with
  | front o stage => rw [pendingRequest, pendingRequest, h o.vchan rfl]
  | round r stage => rw [pendingRequest, pendingRequest, h r.vchan rfl]
  | _ => rfl

/-- The `pending_open` of a call names its vchan. -/
theorem vchanId_pendingRequest {ctx : ℕ} {request : HabOpenRequest HabPchan}
    (h : call.pendingRequest vchan = some (ctx, request)) :
    ∃ v, call.vchan = some v ∧ request.xdata.vchanId = (vchan v).id := by
  cases call with
  | front o stage =>
      cases h
      exact ⟨o.vchan, rfl, rfl⟩
  | round r stage =>
      cases h
      exact ⟨r.vchan, rfl, rfl⟩
  | _ => cases h

end Call

/-- What becomes of the `pending_open` of a call in a step that ends with `next`. -/
inductive PendingStep (vchan : ℕ → Vchan) (call : Call) (next : Option Call) :
    Option PendingOp → Prop where
  | keeps (hlisted : call.listed = true → ∃ k, next = some k ∧ k.listed = true)
      (hentered : ∀ k, next = some k → k.entered = true → call.entered = true) :
      PendingStep vchan call next none
  | enters (ctx : ℕ) (request : HabOpenRequest HabPchan)
      (hrequest : call.pendingRequest vchan = some (ctx, request))
      (hentered : call.entered = false)
      (hlisted : ∃ k, next = some k ∧ k.listed = true) :
      PendingStep vchan call next (some (.enter ctx request))
  | exits (ctx : ℕ) (request : HabOpenRequest HabPchan)
      (hrequest : call.pendingRequest vchan = some (ctx, request))
      (hentered : call.entered = true) : PendingStep vchan call next (some (.exit ctx))

namespace HabVm

variable {vm vm' : HabVm} {i : ℕ} {env : Env} {call : Call} {out : List (HabPchan × HabMsg)}

theorem pendingStep_front {o : FrontOpen} {stage : FrontStage}
    (hi : vm.calls.get i = some (.front o stage))
    (h : vm.advanceFront i env o stage = (vm', out)) :
    PendingStep vm.vchan (.front o stage) (vm'.calls.get i)
      ((Call.front o stage).pendingOp vm.vchan (vm'.calls.get i)) := by
  have hset : ∀ next : Option Call, (vm.calls.set i next).get i = next :=
    Pool.get_set_self (Pool.lt_next hi)
  cases stage with
  | init =>
      cases hsent : env.sent with
      | none =>
          simp only [advanceFront, hsent, Prod.mk.injEq] at h
          obtain ⟨rfl, -⟩ := h
          have hnext : (vm.become i (some (.front o .wait))).calls.get i =
              some (.front o .wait) := hset _
          rw [hnext]
          exact .enters _ _ rfl rfl ⟨_, rfl, rfl⟩
      | some error =>
          simp only [advanceFront, hsent, Prod.mk.injEq] at h
          obtain ⟨rfl, -⟩ := h
          rw [calls_openErr, hset]
          refine .keeps ?_ ?_
          · rintro ⟨⟩
          · rintro _ ⟨⟩
  | wait =>
      have hkeeps : ∀ stage', (Call.front o stage').listed = true →
          vm'.calls.get i = some (.front o stage') →
            PendingStep vm.vchan (.front o .wait) (vm'.calls.get i) none := by
        intro stage' hlisted hget
        exact .keeps (fun _ ↦ ⟨_, hget, hlisted⟩) fun _ _ _ ↦ rfl
      simp only [advanceFront] at h
      split at h
      · rw [Prod.mk.injEq] at h
        obtain ⟨rfl, -⟩ := h
        exact hkeeps .wait rfl hi
      · rw [Prod.mk.injEq] at h
        obtain ⟨rfl, -⟩ := h
        exact hkeeps (.woken _ _) rfl (hset _)
  | woken ended recv =>
      simp only [advanceFront] at h
      split at h
      · split at h <;> (rw [Prod.mk.injEq] at h; obtain ⟨rfl, -⟩ := h)
        · rw [calls_openErr, hset]
          exact .exits _ _ rfl rfl
        case isFalse request _ _ =>
          have hnext : (vm.frontPair i o request).calls.get i =
              some (.front o (.paired request)) := hset _
          rw [hnext]
          exact .exits _ _ rfl rfl
      · rw [Prod.mk.injEq] at h
        obtain ⟨rfl, -⟩ := h
        have hnext : ∀ stage', (vm.become i (some (.front o stage'))).calls.get i =
            some (.front o stage') := fun _ ↦ hset _
        rw [hnext]
        exact .keeps (fun _ ↦ ⟨_, rfl, rfl⟩) fun _ _ _ ↦ rfl
  | cancel recv error => exact .exits _ _ rfl rfl
  | paired request =>
      refine .keeps (fun hlisted ↦ by cases hlisted) ?_
      intro k hk hentered
      cases hsent : env.sent with
      | none =>
          simp only [advanceFront, hsent, Prod.mk.injEq] at h
          obtain ⟨rfl, -⟩ := h
          cases (hset _).symm.trans hk
          cases hentered
      | some error =>
          simp only [advanceFront, hsent, Prod.mk.injEq] at h
          obtain ⟨rfl, -⟩ := h
          rw [calls_openErr, hset] at hk
          cases hk

theorem pendingStep_round {r : BackRound} {stage : RoundStage}
    (hi : vm.calls.get i = some (.round r stage))
    (h : vm.advanceRound i env r stage = (vm', out)) :
    PendingStep vm.vchan (.round r stage) (vm'.calls.get i)
      ((Call.round r stage).pendingOp vm.vchan (vm'.calls.get i)) := by
  have hset : ∀ next : Option Call, (vm.calls.set i next).get i = next :=
    Pool.get_set_self (Pool.lt_next hi)
  cases stage with
  | ack =>
      cases hsent : env.sent with
      | none =>
          simp only [advanceRound, hsent, Prod.mk.injEq] at h
          obtain ⟨rfl, -⟩ := h
          have hnext : (vm.become i (some (.round r .wait))).calls.get i =
              some (.round r .wait) := hset _
          rw [hnext]
          exact .enters _ _ rfl rfl ⟨_, rfl, rfl⟩
      | some error =>
          simp only [advanceRound, hsent, Prod.mk.injEq] at h
          obtain ⟨rfl, -⟩ := h
          rw [calls_openErr, hset]
          refine .keeps ?_ ?_
          · rintro ⟨⟩
          · rintro _ ⟨⟩
  | wait =>
      have hkeeps : ∀ stage', (Call.round r stage').listed = true →
          vm'.calls.get i = some (.round r stage') →
            PendingStep vm.vchan (.round r .wait) (vm'.calls.get i) none := by
        intro stage' hlisted hget
        exact .keeps (fun _ ↦ ⟨_, hget, hlisted⟩) fun _ _ _ ↦ rfl
      simp only [advanceRound] at h
      split at h
      · rw [Prod.mk.injEq] at h
        obtain ⟨rfl, -⟩ := h
        exact hkeeps .wait rfl hi
      · rw [Prod.mk.injEq] at h
        obtain ⟨rfl, -⟩ := h
        exact hkeeps (.answered _ _) rfl (hset _)
  | answered ended recv => exact .exits _ _ rfl rfl
  | cancel recv error => exact .exits _ _ rfl rfl

theorem pendingStep (hi : vm.calls.get i = some call)
    (h : vm.advance i env call = some (vm', out)) :
    PendingStep vm.vchan call (vm'.calls.get i)
      (call.pendingOp vm.vchan (vm'.calls.get i)) := by
  cases call with
  | front o stage => exact pendingStep_front hi (Option.some.inj h)
  | round r stage => exact pendingStep_round hi (Option.some.inj h)
  | _ =>
      refine .keeps (fun hlisted ↦ by cases hlisted) ?_
      intro k hk hentered
      rcases (advance_cases h).goesOn hi hk with rfl | hgoes
      · exact hentered
      · cases hgoes <;> cases hentered

/-- The calls in progress that do not make the step stay where they are. -/
theorem Step.calls_get {act : VmAct} (h : vm.Step env act vm' out) {j : ℕ}
    (hj : vm.calls.get j = some call) (hact : act ≠ .advance j) :
    vm'.calls.get j = some call := by
  have hspawn : ∀ new, (vm.calls.spawn new).get j = some call :=
    fun _ ↦ Pool.get_spawn.mpr (.inr hj)
  cases h with
  | opens | listens | sends | recvs | closes => exact hspawn _
  | receives pchan msg =>
      obtain ⟨dev, vchan, heq⟩ := vm.receive_eq pchan env msg
      rw [heq]
      exact hj
  | advances i call' vm' out hi hadvance =>
      have hne : j ≠ i := by
        rintro rfl
        exact hact rfl
      exact (hadvance.calls_of_ne hne).trans hj
  | _ => exact hj

/-- Vchans with the same vcid that are not yet freed are the same. -/
theorem Referenced.eq_of_id (h : vm.Referenced) {v w : ℕ} (hv : (vm.vchan v).refcount ≠ 0)
    (hw : (vm.vchan w).refcount ≠ 0) (hid : (vm.vchan v).id = (vm.vchan w).id) : v = w := by
  have hpchan : (vm.vchan v).pchan = (vm.vchan w).pchan := by
    have heq := congrArg vcidPchan hid
    simpa [Vchan.id] using heq
  have hidr : (vm.vchan v).idr = (vm.vchan w).idr := by
    have heq := congrArg habVcidGetId hid
    simpa [Vchan.id] using heq
  have hentered := h.entered v hv
  rw [hpchan, hidr, h.entered w hw] at hentered
  exact (Option.some.inj hentered).symm

/-- A call in progress that has set up its `pending_open` was in progress before. -/
theorem Step.get_of_entered {act : VmAct} (h : vm.Step env act vm' out) {j : ℕ}
    (hj : vm'.calls.get j = some call) (hact : act ≠ .advance j) (hentered : call.entered = true) :
    vm.calls.get j = some call := by
  have hspawn : ∀ new : Call, new.entered = false → (vm.calls.spawn new).get j = some call →
      vm.calls.get j = some call := by
    intro new hnew hget
    apply Pool.get_of_spawn hget
    rintro rfl
    rw [hentered] at hnew
    cases hnew
  cases h with
  | opens | listens | sends | recvs | closes => exact hspawn _ rfl hj
  | receives pchan msg =>
      obtain ⟨dev, vchan, heq⟩ := vm.receive_eq pchan env msg
      rw [heq] at hj
      exact hj
  | advances i call' vm' out hi hadvance =>
      have hne : j ≠ i := by
        rintro rfl
        exact hact rfl
      exact (hadvance.calls_of_ne hne).symm.trans hj
  | _ => exact hj

/-- The request of a call in progress stays what it is. -/
theorem Later.pendingRequest (h : vm.Later vm') (href : vm.Referenced)
    (hi : vm.calls.get i = some call) :
    call.pendingRequest vm'.vchan = call.pendingRequest vm.vchan := by
  apply Call.pendingRequest_of_id
  intro v hv
  exact (h.vchan v (href.lt_nextVchan (href.refcount_ne_zero hi hv))).id_eq

end HabVm

namespace PendingVm

variable {s s' : PendingVm} {vm' : HabVm} {i : ℕ} {env : Env} {call : Call}
  {out : List (HabPchan × HabMsg)}

/-- A node on a list is that of a waiting call, and says what its `pending_open` says. -/
structure Kept (s : PendingVm) : Prop where
  referenced : s.vm.Referenced
  node : ∀ ctx, ∀ node ∈ (s.ctx ctx).pendingOpen, ∃ call, s.vm.calls.get node.owner = some call ∧
    call.listed = true ∧ call.pendingRequest s.vm.vchan = some (ctx, node.request)
  pending : ∀ i call ctx request, s.vm.calls.get i = some call → call.entered = true →
    call.pendingRequest s.vm.vchan = some (ctx, request) → s.pending i = some request
  own : ∀ entry ∈ s.removed, entry.1 = entry.2
  counted : ∀ ctx, (s.ctx ctx).pendingCnt = (s.ctx ctx).pendingOpen.length

theorem kept_init : init.Kept where
  referenced := HabVm.Referenced.init
  node := by
    intro ctx node h
    cases h
  pending := by
    intro i call ctx request h
    cases h
  own := by
    intro entry h
    cases h
  counted := fun _ ↦ rfl

theorem Kept.tidy (h : s.Kept) : s.Tidy where
  inProgress := by
    intro ctx node hnode
    obtain ⟨call, hcall, hlisted, -⟩ := h.node ctx node hnode
    exact ⟨call, hcall, Call.handshake_of_entered (Call.entered_of_listed hlisted)⟩
  own := h.own
  counted := h.counted

/-- A node that looks like that of a waiting call is that of this call. -/
theorem Kept.eq_of_samePending (h : s.Kept) (hi : s.vm.calls.get i = some call)
    (hentered : call.entered = true) {ctx ctx' : ℕ} {request : HabOpenRequest HabPchan}
    (hrequest : call.pendingRequest s.vm.vchan = some (ctx, request)) {node : PendingNode}
    (hnode : node ∈ (s.ctx ctx').pendingOpen) (hsame : node.request.samePending request = true) :
    node.owner = i := by
  obtain ⟨call', hcall', hlisted, hrequest'⟩ := h.node ctx' node hnode
  obtain ⟨v, hv, hid⟩ := Call.vchanId_pendingRequest hrequest
  obtain ⟨w, hw, hid'⟩ := Call.vchanId_pendingRequest hrequest'
  have hvw : w = v := by
    apply h.referenced.eq_of_id
    · exact h.referenced.refcount_ne_zero hcall' hw
    · exact h.referenced.refcount_ne_zero hi hv
    · rw [← hid', ← hid]
      exact HabOpenRequest.vchanId_of_samePending hsame
  subst hvw
  exact h.referenced.eq_of_opening hi (Call.opening_of_entered hentered) hv hcall' hw

theorem advance_ne {i j : ℕ} (h : j ≠ i) : VmAct.advance i ≠ .advance j := by
  rintro ⟨⟩
  exact h rfl

section Step

variable (h : s.Kept) {act : VmAct} (hstep : s.vm.Step env act vm' out)
include h hstep

/-- The node of a call that does not make the step stays as it is. -/
theorem Kept.node_of_ne {ctx : ℕ} {node : PendingNode} (hnode : node ∈ (s.ctx ctx).pendingOpen)
    (hact : act ≠ .advance node.owner) : ∃ call, vm'.calls.get node.owner = some call ∧
      call.listed = true ∧ call.pendingRequest vm'.vchan = some (ctx, node.request) := by
  obtain ⟨call, hcall, hlisted, hrequest⟩ := h.node ctx node hnode
  refine ⟨call, hstep.calls_get hcall hact, hlisted, ?_⟩
  exact ((HabVm.Later.step h.referenced hstep).pendingRequest h.referenced hcall).trans hrequest

theorem Kept.pending_of_ne {j ctx : ℕ} {request : HabOpenRequest HabPchan}
    (hj : vm'.calls.get j = some call) (hact : act ≠ .advance j) (hentered : call.entered = true)
    (hrequest : call.pendingRequest vm'.vchan = some (ctx, request)) :
    s.pending j = some request := by
  have hcall := hstep.get_of_entered hj hact hentered
  rw [(HabVm.Later.step h.referenced hstep).pendingRequest h.referenced hcall] at hrequest
  exact h.pending j call ctx request hcall hentered hrequest

/-- Whatever is not a step of an open leaves the lists alone. -/
theorem Kept.other (hact : ∀ i, act ≠ .advance i) : Kept { s with vm := vm' } where
  referenced := h.referenced.step hstep
  node := fun _ _ hnode ↦ h.node_of_ne hstep hnode (hact _)
  pending := fun j _ _ _ hj hentered hrequest ↦
    h.pending_of_ne hstep hj (hact j) hentered hrequest
  own := h.own
  counted := h.counted

end Step

section Advance

variable (h : s.Kept) (hi : s.vm.calls.get i = some call)
  (hadvance : s.vm.Advance i env call vm' out)
include h hi hadvance

/-- What a call goes on as has the same request. -/
theorem Kept.pendingRequest_advance {k : Call} (hk : vm'.calls.get i = some k)
    (hentered : k.entered = true) :
    k.pendingRequest vm'.vchan = call.pendingRequest s.vm.vchan := by
  refine Eq.trans ?_ ((HabVm.Later.advance hadvance).pendingRequest h.referenced hi)
  rcases hadvance.goesOn hi hk with rfl | hgoes
  · rfl
  · exact hgoes.pendingRequest hentered

theorem Kept.keeps (hlisted : call.listed = true → ∃ k, vm'.calls.get i = some k ∧ k.listed = true)
    (hentered : ∀ k, vm'.calls.get i = some k → k.entered = true → call.entered = true) :
    Kept { s with vm := vm' } := by
  have hstep : s.vm.Step env (.advance i) vm' out := .advances i call vm' out hi hadvance
  refine ⟨h.referenced.step hstep, ?_, ?_, h.own, h.counted⟩
  · intro ctx node hnode
    by_cases howner : node.owner = i
    · obtain ⟨call', hcall', hlisted', hrequest⟩ := h.node ctx node hnode
      rw [howner] at hcall' ⊢
      cases hi.symm.trans hcall'
      obtain ⟨k, hk, hklisted⟩ := hlisted hlisted'
      have hsame := h.pendingRequest_advance hi hadvance hk (Call.entered_of_listed hklisted)
      exact ⟨k, hk, hklisted, hsame.trans hrequest⟩
    · exact h.node_of_ne hstep hnode (advance_ne howner)
  · intro j k ctx request hj hkentered hrequest
    by_cases hji : j = i
    · subst hji
      rw [h.pendingRequest_advance hi hadvance hj hkentered] at hrequest
      exact h.pending j call ctx request hi (hentered k hj hkentered) hrequest
    · exact h.pending_of_ne hstep hj (advance_ne hji) hkentered hrequest

theorem Kept.enters {ctx : ℕ} {request : HabOpenRequest HabPchan}
    (hrequest : call.pendingRequest s.vm.vchan = some (ctx, request))
    (hentered : call.entered = false)
    (hlisted : ∃ k, vm'.calls.get i = some k ∧ k.listed = true) :
    Kept { s.enter i ctx request with vm := vm' } := by
  have hstep : s.vm.Step env (.advance i) vm' out := .advances i call vm' out hi hadvance
  obtain ⟨k, hk, hklisted⟩ := hlisted
  have hkentered := Call.entered_of_listed hklisted
  refine ⟨h.referenced.step hstep, ?_, ?_, h.own, ?_⟩
  · intro ctx' node hnode
    have hnew : node ∈ (s.ctx ctx').pendingOpen ∨ ctx' = ctx ∧ node = ⟨i, request⟩ := by
      by_cases hctx : ctx' = ctx
      · subst hctx
        simpa [enter, habOpenPendingEnter] using hnode
      · exact .inl (by simpa [enter, hctx] using hnode)
    rcases hnew with hold | ⟨rfl, rfl⟩
    · have howner : node.owner ≠ i := by
        intro howner
        obtain ⟨call', hcall', hlisted', -⟩ := h.node ctx' node hold
        rw [howner] at hcall'
        cases hi.symm.trans hcall'
        rw [Call.entered_of_listed hlisted'] at hentered
        cases hentered
      exact h.node_of_ne hstep hold (advance_ne howner)
    · exact ⟨k, hk, hklisted, (h.pendingRequest_advance hi hadvance hk hkentered).trans hrequest⟩
  · intro j k' ctx' request' hj hkentered' hrequest'
    by_cases hji : j = i
    · subst hji
      rw [h.pendingRequest_advance hi hadvance hj hkentered', hrequest] at hrequest'
      cases hrequest'
      simp [enter]
    · have hold := h.pending_of_ne hstep hj (advance_ne hji) hkentered' hrequest'
      simpa [enter, hji] using hold
  · intro ctx'
    have hcounted := h.counted ctx'
    by_cases hctx : ctx' = ctx
    · subst hctx
      simp [enter, habOpenPendingEnter, hcounted]
    · simpa [enter, hctx] using hcounted

theorem Kept.exits {ctx : ℕ} {request : HabOpenRequest HabPchan}
    (hrequest : call.pendingRequest s.vm.vchan = some (ctx, request))
    (hentered : call.entered = true) : Kept { s.exit i ctx with vm := vm' } := by
  have hstep : s.vm.Step env (.advance i) vm' out := .advances i call vm' out hi hadvance
  have hset := h.pending i call ctx request hi hentered hrequest
  -- a node of the call is on this list and says what its `pending_open` says
  have hmine : ∀ ctx', ∀ node ∈ (s.ctx ctx').pendingOpen, node.owner = i →
      ctx' = ctx ∧ node.request = request := by
    intro ctx' node hnode howner
    obtain ⟨call', hcall', -, hrequest'⟩ := h.node ctx' node hnode
    rw [howner, hi] at hcall'
    cases hcall'
    rw [hrequest] at hrequest'
    cases hrequest'
    exact ⟨rfl, rfl⟩
  simp only [exit, hset]
  refine ⟨h.referenced.step hstep, ?_, ?_, ?_, ?_⟩
  · intro ctx' node hnode
    have hold : node ∈ (s.ctx ctx').pendingOpen ∧ node.owner ≠ i := by
      by_cases hctx : ctx' = ctx
      · subst hctx
        simp only [Function.update_self, pendingOpen_exit, List.mem_filter] at hnode
        refine ⟨hnode.1, fun howner ↦ ?_⟩
        obtain ⟨-, heq⟩ := hmine ctx' node hnode.1 howner
        simp [heq] at hnode
      · simp only [Function.update_of_ne hctx] at hnode
        exact ⟨hnode, fun howner ↦ hctx (hmine ctx' node hnode howner).1⟩
    exact h.node_of_ne hstep hold.1 (advance_ne hold.2)
  · intro j k ctx' request' hj hkentered hrequest'
    by_cases hji : j = i
    · subst hji
      rw [h.pendingRequest_advance hi hadvance hj hkentered, hrequest] at hrequest'
      cases hrequest'
      exact hset
    · exact h.pending_of_ne hstep hj (advance_ne hji) hkentered hrequest'
  · intro entry hentry
    rcases List.mem_append.mp hentry with hold | hnew
    · exact h.own entry hold
    · obtain ⟨node, hnode, rfl⟩ := List.mem_map.mp hnew
      rw [removed_exit, List.mem_filter] at hnode
      exact (h.eq_of_samePending hi hentered hrequest hnode.1 hnode.2).symm
  · intro ctx'
    have hcounted := h.counted ctx'
    by_cases hctx : ctx' = ctx
    · subst hctx
      have hcnt := pendingCnt_exit request (s.ctx ctx').pendingOpen (s.ctx ctx').pendingCnt
      simp only [Function.update_self]
      omega
    · simpa [hctx] using hcounted

end Advance

/-- A call makes a step, and does to its list what it does. -/
theorem Kept.advance (h : s.Kept) (hi : s.vm.calls.get i = some call)
    (hadvance : s.vm.advance i env call = some (vm', out)) :
    Kept { s.apply i (call.pendingOp s.vm.vchan (vm'.calls.get i)) with vm := vm' } := by
  have hcases := HabVm.advance_cases hadvance
  have hpending := HabVm.pendingStep hi hadvance
  generalize call.pendingOp s.vm.vchan (vm'.calls.get i) = op at hpending ⊢
  cases hpending with
  | keeps hlisted hentered => exact h.keeps hi hcases hlisted hentered
  | enters ctx request hrequest hentered hlisted =>
      exact h.enters hi hcases hrequest hentered hlisted
  | exits ctx request hrequest hentered => exact h.exits hi hcases hrequest hentered

theorem Kept.run {act : VmAct × Env} (h : s.Kept) (hrun : s.run act = some s') : s'.Kept := by
  obtain ⟨⟨vm', out⟩, hstep, rfl⟩ := Option.map_eq_some_iff.mp hrun
  obtain ⟨act, env⟩ := act
  cases act with
  | advance i =>
      simp only [HabVm.step] at hstep
      split at hstep
      · cases hstep
      case h_2 call hi =>
        have hadvance := h.advance hi hstep
        simpa [pendingOp, actor, hi] using hadvance
  | _ =>
      apply h.other (HabVm.step_cases hstep)
      rintro i ⟨⟩

/-- However many opens a context has in progress, and however their sends and waits end,
the nodes on its list are those of opens that have not returned, an open deletes no node
but its own, and the counter is the length of the list. -/
theorem tidy_of_exec {acts : List (VmAct × Env)} {s : PendingVm}
    (hrun : exec PendingVm.run init acts = some s) : s.Tidy :=
  (invariant_of_exec (fun _ _ _ h hstep ↦ h.run hstep) kept_init hrun).tidy

/-- Two opens of one context, of which the first is interrupted and returns. -/
def firstInterrupted (pchan : HabPchan) (id id' : Fin 4096) : List (VmAct × Env) :=
  [(.frontendOpen 0 pchan 0 zeroRequest, { idr := some id }), (.advance 0, {}),
    (.frontendOpen 0 pchan 0 zeroRequest, { idr := some id' }), (.advance 1, {}),
    (.advance 0, { ended := some .signal }), (.advance 0, {}), (.advance 0, {})]

/-- The second one still waits; its node is the only one left. -/
theorem tidy_of_exec_firstInterrupted :
    ∃ s, exec PendingVm.run init (firstInterrupted ⟨⟨0, by decide⟩, ⟨0, by decide⟩⟩ ⟨1, by decide⟩
      ⟨2, by decide⟩) = some s ∧ s.Tidy ∧
        (s.removed, (s.ctx 0).pendingOpen.map PendingNode.owner) = ([(0, 0)], [1]) := by
  have hseen : (exec PendingVm.run init (firstInterrupted ⟨⟨0, by decide⟩, ⟨0, by decide⟩⟩
      ⟨1, by decide⟩ ⟨2, by decide⟩)).map (fun s ↦
        (s.removed, (s.ctx 0).pendingOpen.map PendingNode.owner)) = some ([(0, 0)], [1]) := by
    decide
  obtain ⟨s, hs, heq⟩ := Option.map_eq_some_iff.mp hseen
  exact ⟨s, hs, tidy_of_exec hs, heq⟩

end PendingVm

end Hab
