import Hab.Library.Runs
import Hab.VmRequests

/-!
# Cancelled opens

`hab_open_request_find` hands an INIT_CANCEL to whoever waits for a request of its
sub id, and the opens do not look at the type of what they took.  The run theorem
says what the opens of a VM have come to as long as no wait looks at a queue in which
an INIT_CANCEL is the first request for it; the last part is a run in which a
`backend_listen` takes an INIT_CANCEL for its INIT_DONE.
-/

namespace Hab

open Runs

theorem HabOpenRequest.answers_iff {request : HabOpenRequest HabPchan}
    {listen : HabOpenRequest (Option HabPchan)} :
    request.answers listen = true ↔
      (request.type = listen.type ∨ request.type = .initCancel) ∧
        request.xdata.subId = listen.xdata.subId ∧
          (listen.xdata.openId = 0 ∨ request.xdata.openId = listen.xdata.openId) ∧
            (listen.pchan = none ∨ listen.pchan = some request.pchan) := by
  simp [HabOpenRequest.answers, and_assoc]

/-- A request that an open waits for, or an INIT_CANCEL, with the sub id. -/
def HabOpenRequest.isFor (type : HabPayloadType) (subId : UInt32)
    (request : HabOpenRequest HabPchan) : Bool :=
  (request.type = type || request.type = .initCancel) && request.xdata.subId = subId

/-- A request with this open id that has come in on this pchan. -/
def HabOpenRequest.isOf (openId : UInt32) (pchan : HabPchan) (request : HabOpenRequest HabPchan) :
    Bool :=
  request.xdata.openId = openId && request.pchan = pchan

/-- An INIT without an open id. -/
def HabOpenRequest.unnumbered (request : HabOpenRequest HabPchan) : Bool :=
  request.type = .init && request.xdata.openId = 0

theorem FrontOpen.answers_listen {o : FrontOpen} (hopenId : o.openId ≠ 0)
    (request : HabOpenRequest HabPchan) :
    request.answers o.listen =
      (request.isFor .initAck o.subId && request.isOf o.openId o.pchan) := by
  rw [Bool.eq_iff_iff, HabOpenRequest.answers_iff]
  simp [FrontOpen.listen, habOpenRequestInit, HabOpenRequest.isFor, HabOpenRequest.isOf, hopenId,
    eq_comm (a := o.pchan), and_assoc]

theorem BackListen.answers_request (l : BackListen) (request : HabOpenRequest HabPchan) :
    request.answers l.request = request.isFor .init l.subId := by
  rw [Bool.eq_iff_iff, HabOpenRequest.answers_iff]
  simp [BackListen.request, habOpenRequestInit, HabOpenRequest.isFor]

theorem BackRound.answers_request {r : BackRound} (hopenId : r.init.xdata.openId ≠ 0)
    (request : HabOpenRequest HabPchan) :
    request.answers r.request = (request.isFor .initDone r.listen.subId &&
      request.isOf r.init.xdata.openId r.init.pchan) := by
  rw [Bool.eq_iff_iff, HabOpenRequest.answers_iff]
  simp [BackRound.request, habOpenRequestInit, HabOpenRequest.isFor, HabOpenRequest.isOf, hopenId,
    eq_comm (a := r.init.pchan), and_assoc]

/-- A wait of a context that is stopped ends with an error. -/
theorem habOpenListen_forbidden (timed closing : Bool) (ended : WaitEnd) :
    habOpenListen timed closing ended true ≠ none := by
  cases timed <;> cases closing <;> cases ended <;> simp [habOpenListen]

/-- What an open has come to agrees with what its last wait took. -/
structure OpenReturn.Safe (vm : HabVm) (ret : OpenReturn) : Prop where
  /-- A `backend_listen` that returns a vchan has taken the INIT_DONE of its open. -/
  back : ret.front = false → ret.error = none →
    ∃ v request, ret.vchan = some v ∧ ret.taken = some request ∧ request.type = .initDone ∧
      request.xdata.openId = (vm.vchan v).sessionId ∧ request.xdata.subId = ret.subId ∧
        request.pchan = (vm.vchan v).pchan
  /-- A `frontend_open` that returns a vchan has taken the INIT_ACK of its open. -/
  front : ret.front = true → ret.error = none →
    ∃ v request, ret.vchan = some v ∧ ret.taken = some request ∧ request.type = .initAck ∧
      request.xdata.openId = (vm.vchan v).sessionId
  /-- An open that took an INIT_CANCEL last returns an error and gives its vchan back. -/
  cancelled : ∀ request, ret.taken = some request → request.type = .initCancel →
    ret.error ≠ none ∧ ∀ v, ret.vchan = some v → (vm.vchan v).refcount = 0

namespace HabVm

/-- What the opens of a VM have done and come to. -/
structure CancelSafe (vm : HabVm) : Prop where
  /-- A `backend_listen` that has a vchan has taken an INIT for it. -/
  allocated : ∀ i r stage, vm.calls.get i = some (.round r stage) → r.init.type = .init
  /-- One that starts over has taken nothing. -/
  retried : ∀ i r recv, vm.calls.get i = some (.round r (.cancel recv none)) → recv = none
  returned : ∀ ret ∈ vm.returns, ret.Safe vm

/-- Whether an open with this open id on this pchan waits for a request of this type and
sub id with an INIT_CANCEL as the first request for it in the open queue; `good` if it would
go on with that. -/
def cancelFirst (vm : HabVm) (type : HabPayloadType) (subId openId : UInt32) (pchan : HabPchan)
    (good : HabOpenRequest HabPchan → Bool) : Bool :=
  !vm.pchanClosed pchan &&
    (vm.dev.firstQueued fun request ↦
      request.isFor type subId && request.isOf openId pchan).any fun request ↦
        request.type = .initCancel && good request

/-- The condition on a step: an INIT that arrives and a `frontend_open` have an open id, and no
wait of an open that is not stopped looks at a queue in which an INIT_CANCEL is the first
request for it, unless that has other versions. -/
def orderly (vm : HabVm) : VmAct → Bool
  | .frontendOpen _ _ _ _ => UInt32.ofNat (vm.openIdCounter + 1) ≠ 0
  | .receive _ (.request .init xdata) => xdata.openId ≠ 0
  | .advance i =>
      match vm.calls.get i with
      | some (.front o .wait) =>
          vm.forbidden o.ctx o.subId ||
            !vm.cancelFirst .initAck o.subId o.openId o.pchan fun request ↦
              majorVer request.xdata.verFe = majorVer request.xdata.verBe
      | some (.listen l .wait) =>
          vm.forbidden l.ctx l.subId ||
            !(vm.dev.firstQueued fun request ↦ request.isFor .init l.subId).any fun request ↦
              request.type = .initCancel && majorVer request.xdata.verFe = majorVer habApiVer
      | some (.round r .wait) =>
          vm.forbidden r.listen.ctx r.listen.subId ||
            !vm.cancelFirst .initDone r.listen.subId r.init.xdata.openId r.init.pchan fun _ ↦ true
      | _ => true
  | _ => true

/-- A VM with what the kernel answers in each step. -/
def run (vm : HabVm) (act : VmAct × Env) : Option HabVm :=
  (vm.step act.1 act.2).map Prod.fst

end HabVm

/-! ## The invariant -/

/-- What the guarded steps have made sure of: an open has an open id, and what it has taken is
an INIT_CANCEL only if it does not go on with that. -/
def Call.Orderly (forbidden : ℕ → UInt32 → Bool) : Call → Prop
  | .front o stage =>
      o.openId ≠ 0 ∧ ∀ request, stage.taken = some request → request.type = .initCancel →
        (∀ request, stage ≠ .paired request) ∧
          (forbidden o.ctx o.subId = true ∨
            majorVer request.xdata.verFe ≠ majorVer request.xdata.verBe)
  | .listen l stage =>
      ∀ ended request, stage = .woken ended (some request) → request.type = .initCancel →
        forbidden l.ctx l.subId = true ∨ majorVer request.xdata.verFe ≠ majorVer habApiVer
  | .round r stage =>
      (r.init.type = .init ∧ r.init.xdata.openId ≠ 0) ∧
        ∀ request, stage.taken = some request → request.type = .initCancel →
          forbidden r.listen.ctx r.listen.subId = true
  | _ => True

/-- The contexts that are stopped stay so. -/
theorem Call.Orderly.mono {forbidden forbidden' : ℕ → UInt32 → Bool} {call : Call}
    (h : call.Orderly forbidden)
    (hmono : ∀ ctx subId, forbidden ctx subId = true → forbidden' ctx subId = true) :
    call.Orderly forbidden' := by
  cases call with
  | front o stage =>
      refine ⟨h.1, fun request htaken hcancel ↦ ?_⟩
      obtain ⟨hunpaired, hrefuse⟩ := h.2 request htaken hcancel
      exact ⟨hunpaired, hrefuse.imp_left (hmono _ _)⟩
  | listen l stage =>
      exact fun ended request hstage hcancel ↦
        (h ended request hstage hcancel).imp_left (hmono _ _)
  | round r stage =>
      exact ⟨h.1, fun request htaken hcancel ↦ hmono _ _ (h.2 request htaken hcancel)⟩
  | _ => trivial

/-- What a return tells of the vchan it names, whichever way it went. -/
structure OpenReturn.Kept (vm : HabVm) (ret : OpenReturn) : Prop where
  safe : ret.Safe vm
  bound : ∀ v, ret.vchan = some v → v < vm.nextVchan

namespace HabVm

variable {vm vm' : HabVm} {i : ℕ} {env : Env} {call : Call} {out : List (HabPchan × HabMsg)}

/-- What the opens have come to does not change. -/
theorem Later.kept (h : vm.Later vm') {ret : OpenReturn} (hret : ret.Kept vm) : ret.Kept vm' := by
  constructor
  · constructor
    · intro hback hnone
      obtain ⟨v, request, hv, htaken, htype, hopenId, hsubId, hpchan⟩ := hret.safe.back hback hnone
      have hvchan := h.vchan v (hret.bound v hv)
      exact ⟨v, request, hv, htaken, htype, hopenId.trans hvchan.sessionId.symm, hsubId,
        hpchan.trans hvchan.pchan.symm⟩
    · intro hfront hnone
      obtain ⟨v, request, hv, htaken, htype, hopenId⟩ := hret.safe.front hfront hnone
      have hvchan := h.vchan v (hret.bound v hv)
      exact ⟨v, request, hv, htaken, htype, hopenId.trans hvchan.sessionId.symm⟩
    · intro request htaken htype
      obtain ⟨herror, hfreed⟩ := hret.safe.cancelled request htaken htype
      exact ⟨herror, fun v hv ↦ (h.vchan v (hret.bound v hv)).freed (hfreed v hv)⟩
  · exact fun v hv ↦ Nat.lt_of_lt_of_le (hret.bound v hv) h.nextVchan

structure Opened (vm : HabVm) : Prop where
  referenced : vm.Referenced
  sound : vm.CallsSound
  numbered : vm.requests HabOpenRequest.unnumbered = 0
  orderly : ∀ i call, vm.calls.get i = some call → call.Orderly vm.forbidden
  returned : ∀ ret ∈ vm.returns, ret.Kept vm

theorem Opened.init : HabVm.init.Opened where
  referenced := Referenced.init
  sound := CallsSound.init
  numbered := rfl
  orderly := by
    intro i call h
    cases h
  returned := by
    intro ret h
    cases h

theorem Opened.cancelSafe (h : vm.Opened) : vm.CancelSafe where
  allocated := fun i r stage hi ↦ (h.orderly i (.round r stage) hi).1.1
  retried := fun i r recv hi ↦ (h.sound i (.round r (.cancel recv none)) hi).retry recv rfl
  returned := fun ret hret ↦ (h.returned ret hret).safe

theorem forbidden_release {w : ℕ} {next : Option Call} :
    (vm.release i w next).forbidden = vm.forbidden := by
  rw [HabVm.release, HabVm.become, vchanPut]
  split <;> rfl

/-- A context that is stopped stays so. -/
theorem Step.forbidden {act : VmAct} (hstep : vm.Step env act vm' out) {ctx : ℕ} {subId : UInt32}
    (h : vm.forbidden ctx subId = true) : vm'.forbidden ctx subId = true := by
  cases hstep
  case stops ctx' subId' =>
    show Function.update vm.forbidden ctx' _ ctx subId = true
    by_cases hctx : ctx = ctx'
    · subst hctx
      rw [Function.update_self]
      by_cases hsubId : subId = subId'
      · rw [hsubId, Function.update_self]
      · rw [Function.update_of_ne hsubId]
        exact h
    · rw [Function.update_of_ne hctx]
      exact h
  case receives pchan msg =>
    obtain ⟨dev, vchan, heq⟩ := vm.receive_eq pchan env msg
    rw [heq]
    exact h
  case advances i call hi hadvance =>
    have hopenErr : ∀ {w : ℕ} {pchan : HabPchan} {next : Option Call} {result : List OpenReturn},
        (vm.openErr i w pchan next result).forbidden = vm.forbidden := by
      intro w pchan next result
      exact @forbidden_release vm i w next
    cases hadvance
    case frontErr | frontCancel | roundErr | roundCancel | roundRetry =>
      rw [hopenErr]
      exact h
    case sent | sendErr | dequeue | stopped =>
      rw [forbidden_release]
      exact h
    all_goals exact h
  all_goals exact h

/-- An INIT_CANCEL that a wait of an open has taken is not one that it goes on with. -/
theorem good_eq_false {type : HabPayloadType} {subId openId : UInt32} {pchan : HabPchan}
    {listen : HabOpenRequest (Option HabPchan)} {dev : HabDevice HabPchan}
    {recv : Option (HabOpenRequest HabPchan)} {good : HabOpenRequest HabPchan → Bool}
    (hdev : Polled vm.pchanClosed vm.dev listen dev recv) (hpchan : listen.pchan = some pchan)
    (hanswers : ∀ request : HabOpenRequest HabPchan,
      request.answers listen = (request.isFor type subId && request.isOf openId pchan))
    (hcancel : vm.cancelFirst type subId openId pchan good = false)
    {request : HabOpenRequest HabPchan} (hrecv : recv = some request)
    (htype : request.type = .initCancel) : good request = false := by
  obtain ⟨hopen, hfirst⟩ := hdev.first request hrecv
  have hopen' : vm.pchanClosed pchan = false := by simpa [hpchan] using hopen
  simp only [hanswers] at hfirst
  simpa [cancelFirst, hopen', hfirst, htype] using hcancel

section Advanced

variable {call' : Call}

/-- What a `frontend_open` has taken, when it goes on. -/
theorem orderly_of_front {o : FrontOpen} {stage : FrontStage}
    (hi : vm.calls.get i = some (.front o stage))
    (hcall : (Call.front o stage).Orderly vm.forbidden) (horderly : vm.orderly (.advance i) = true)
    (hstep : vm.Advance i env (.front o stage) vm' out) (hi' : vm'.calls.get i = some call') :
    call'.Orderly vm.forbidden := by
  simp only [HabVm.orderly, hi] at horderly
  cases hstep with
  | frontInit _ =>
      cases next_eq_of_set_self hi hi'
      exact ⟨hcall.1, fun request hrecv ↦ by cases hrecv⟩
  | frontPoll _ dev hdev =>
      cases hi.symm.trans hi'
      exact hcall
  | frontWoken _ dev ended recv hdev hmet =>
      cases next_eq_of_set_self hi hi'
      refine ⟨hcall.1, fun request hrecv htype ↦ ⟨(fun _ ↦ by simp), ?_⟩⟩
      rcases Bool.or_eq_true_iff.mp horderly with hforbidden | hfirst
      · exact .inl hforbidden
      · refine .inr ?_
        have hgood := good_eq_false hdev rfl (FrontOpen.answers_listen hcall.1)
          (by simpa using hfirst) hrecv htype
        simpa using hgood
  | frontPair _ ended request haccept =>
      cases next_eq_of_set_self hi hi'
      refine ⟨hcall.1, ?_⟩
      rintro _ ⟨⟩ htype
      -- an INIT_CANCEL is not accepted
      obtain ⟨-, hforbidden | hversion⟩ := hcall.2 request rfl htype
      · have hopen := haccept.1
        rw [hforbidden] at hopen
        exact absurd hopen (habOpenListen_forbidden _ _ _)
      · exact absurd haccept.2 hversion
  | frontGiveUp _ ended recv error =>
      cases next_eq_of_set_self hi hi'
      refine ⟨hcall.1, fun request hrecv htype ↦ ⟨(fun _ ↦ by simp), ?_⟩⟩
      exact (hcall.2 request hrecv htype).2
  | frontErr _ stage error =>
      rw [calls_openErr] at hi'
      exact absurd hi' (not_get_set_none hi)
  | frontCancel _ recv error =>
      rw [calls_openErr] at hi'
      exact absurd hi' (not_get_set_none hi)
  | frontAccept _ request =>
      cases next_eq_of_set_self hi hi'
      trivial

/-- The INIT that a `backend_listen` goes on with. -/
theorem orderly_of_listen {l : BackListen} {stage : ListenStage}
    (h : vm.Opened) (hi : vm.calls.get i = some (.listen l stage))
    (horderly : vm.orderly (.advance i) = true)
    (hstep : vm.Advance i env (.listen l stage) vm' out) (hi' : vm'.calls.get i = some call') :
    call'.Orderly vm.forbidden := by
  have hcall := h.orderly i _ hi
  simp only [HabVm.orderly, hi] at horderly
  cases hstep with
  | listenPoll _ dev hdev =>
      cases hi.symm.trans hi'
      exact hcall
  | listenWoken _ dev ended recv hdev hmet =>
      cases next_eq_of_set_self hi hi'
      rintro _ request ⟨⟩ htype
      obtain ⟨-, hfirst⟩ := hdev.first request rfl
      simp only [BackListen.answers_request] at hfirst
      simpa [hfirst, htype] using horderly
  | listenErr _ ended recv error dev hdev memProto => exact absurd hi' (not_get_set_none hi)
  | listenTake _ ended request id haccept hfree =>
      cases next_eq_of_set_self hi hi'
      have hinit : request.type = .init := by
        obtain ⟨htype | htype, -⟩ :=
          HabOpenRequest.answers_iff.mp (h.sound i _ hi ended request rfl)
        · exact htype
        · rcases hcall ended request rfl htype with hforbidden | hversion
          · have hopen := haccept.1
            rw [hforbidden] at hopen
            exact absurd hopen (habOpenListen_forbidden _ _ _)
          · exact absurd haccept.2 hversion
      refine ⟨⟨hinit, fun hzero ↦ ?_⟩, fun request hrecv ↦ by cases hrecv⟩
      have hnumbered := taken_of_requests h.numbered hi (r := request) rfl
      have hne : request.xdata.openId ≠ 0 := by
        simpa [HabOpenRequest.unnumbered, hinit] using hnumbered
      exact hne hzero

/-- What a `backend_listen` has taken after its INIT_ACK. -/
theorem orderly_of_round {r : BackRound} {stage : RoundStage}
    (hi : vm.calls.get i = some (.round r stage))
    (hcall : (Call.round r stage).Orderly vm.forbidden) (horderly : vm.orderly (.advance i) = true)
    (hstep : vm.Advance i env (.round r stage) vm' out) (hi' : vm'.calls.get i = some call') :
    call'.Orderly vm.forbidden := by
  simp only [HabVm.orderly, hi] at horderly
  cases hstep with
  | roundAck _ =>
      cases next_eq_of_set_self hi hi'
      exact ⟨hcall.1, fun request hrecv ↦ by cases hrecv⟩
  | roundPoll _ dev hdev =>
      cases hi.symm.trans hi'
      exact hcall
  | roundAnswered _ dev ended recv hdev hmet =>
      cases next_eq_of_set_self hi hi'
      refine ⟨hcall.1, fun request hrecv htype ↦ ?_⟩
      rcases Bool.or_eq_true_iff.mp horderly with hforbidden | hfirst
      · exact hforbidden
      · have hgood := good_eq_false hdev rfl (BackRound.answers_request hcall.1.2)
          (by simpa using hfirst) hrecv htype
        cases hgood
  | roundAccept _ ended request haccept =>
      cases next_eq_of_set_self hi hi'
      trivial
  | roundGiveUp _ ended recv error hrefuse hretry hcancel =>
      cases next_eq_of_set_self hi hi'
      exact hcall
  | roundErr _ stage error hrefuse =>
      rw [calls_openErr] at hi'
      exact absurd hi' (not_get_set_none hi)
  | roundCancel _ recv error =>
      rw [calls_openErr] at hi'
      exact absurd hi' (not_get_set_none hi)
  | roundRetry _ recv out hout =>
      rw [calls_openErr] at hi'
      cases next_eq_of_set_self hi hi'
      rintro _ _ ⟨⟩

/-- What the call that makes the step has made sure of. -/
theorem Opened.advanced_orderly (h : vm.Opened) (hi : vm.calls.get i = some call)
    (horderly : vm.orderly (.advance i) = true) (hstep : vm.Advance i env call vm' out)
    (hi' : vm'.calls.get i = some call') : call'.Orderly vm.forbidden := by
  have hcall := h.orderly i call hi
  cases call with
  | front o stage => exact orderly_of_front hi hcall horderly hstep hi'
  | listen l stage => exact orderly_of_listen h hi horderly hstep hi'
  | round r stage => exact orderly_of_round hi hcall horderly hstep hi'
  | opened v =>
      cases hstep with
      | publish => exact absurd hi' (not_get_set_none hi)
  | sending v message nonblocking =>
      cases hstep with
      | sendAgain =>
          cases hi.symm.trans hi'
          trivial
      | sent | sendErr =>
          rw [calls_release] at hi'
          exact absurd hi' (not_get_set_none hi)
  | receiving v =>
      cases hstep with
      | dequeue =>
          rw [calls_release] at hi'
          exact absurd hi' (not_get_set_none hi)
  | closing v =>
      cases hstep with
      | closeSent | closeSkip =>
          cases next_eq_of_set_self hi hi'
          trivial
  | stopping v =>
      cases hstep with
      | stopped =>
          rw [calls_release] at hi'
          exact absurd hi' (not_get_set_none hi)

end Advanced

section Returns

/-- A failed open has given its vchan back, whatever it took. -/
theorem kept_of_error {front : Bool} {subId : UInt32} {v : ℕ}
    {taken : Option (HabOpenRequest HabPchan)} {error : Errno} (hzero : (vm.vchan v).refcount = 0)
    (hbound : v < vm.nextVchan) : (OpenReturn.mk front subId (some v) taken (some error)).Kept vm := by
  refine ⟨⟨?_, ?_, fun request _ _ ↦ ⟨(fun hnone ↦ by cases hnone), ?_⟩⟩, ?_⟩
  · rintro - ⟨⟩
  · rintro - ⟨⟩
  · rintro w ⟨⟩
    exact hzero
  · rintro w ⟨⟩
    exact hbound

/-- One that fails before it has a vchan has none to give back. -/
theorem kept_of_noVchan {front : Bool} {subId : UInt32}
    {taken : Option (HabOpenRequest HabPchan)} {error : Errno} :
    (OpenReturn.mk front subId none taken (some error)).Kept vm := by
  refine ⟨⟨?_, ?_, fun request _ _ ↦ ⟨(fun hnone ↦ by cases hnone), ?_⟩⟩, ?_⟩
  · rintro - ⟨⟩
  · rintro - ⟨⟩
  · rintro _ ⟨⟩
  · rintro _ ⟨⟩

/-- A `frontend_open` that returns its vchan took the INIT_ACK of its open. -/
theorem Opened.kept_front (h : vm.Opened) {o : FrontOpen} {request : HabOpenRequest HabPchan}
    (hi : vm.calls.get i = some (.front o (.paired request))) :
    (OpenReturn.mk true o.subId (some o.vchan) (some request) none).Kept vm := by
  have hsound : o.Sound (.paired request) (vm.vchan o.vchan) := h.sound i _ hi
  obtain ⟨hne, hcancel⟩ := h.orderly i _ hi
  obtain ⟨htype, hopenId⟩ : request.type = .initAck ∧ request.xdata.openId = o.openId := by
    obtain ⟨htype | htype, -, hzero | hopenId, -⟩ :=
      HabOpenRequest.answers_iff.mp (hsound.answers request rfl)
    · exact absurd hzero hne
    · exact ⟨htype, hopenId⟩
    · exact absurd rfl ((hcancel request rfl htype).1 request)
    · exact absurd rfl ((hcancel request rfl htype).1 request)
  refine ⟨⟨?_, fun _ _ ↦ ?_, ?_⟩, ?_⟩
  · rintro ⟨⟩
  · exact ⟨o.vchan, request, rfl, rfl, htype, hopenId.trans hsound.openId.symm⟩
  · rintro _ ⟨⟩ hcancel
    rw [htype] at hcancel
    cases hcancel
  · rintro _ ⟨⟩
    exact h.referenced.lt_nextVchan (h.referenced.refcount_ne_zero hi rfl)

/-- A `backend_listen` that returns its vchan took the INIT_DONE of its open. -/
theorem Opened.kept_round (h : vm.Opened) {r : BackRound} {ended : WaitEnd}
    {request : HabOpenRequest HabPchan}
    (hi : vm.calls.get i = some (.round r (.answered ended (some request))))
    (haccept : vm.RoundAccepts r ended) :
    (OpenReturn.mk false r.listen.subId (some r.vchan) (some request) none).Kept vm := by
  have hsound : r.Sound (.answered ended (some request)) (vm.vchan r.vchan) := h.sound i _ hi
  obtain ⟨⟨-, hne⟩, hrefuse⟩ := h.orderly i _ hi
  have hcancel : request.type ≠ .initCancel := by
    intro htype
    have hopen : habOpenListen true false ended _ = none := haccept
    rw [hrefuse request rfl htype] at hopen
    exact absurd hopen (habOpenListen_forbidden _ _ _)
  obtain ⟨htype | htype, hsubId, hzero | hopenId, hpchan⟩ :=
    HabOpenRequest.answers_iff.mp (hsound.answers request rfl)
  · exact absurd hzero hne
  · refine ⟨⟨fun _ _ ↦ ?_, ?_, ?_⟩, ?_⟩
    · refine ⟨r.vchan, request, rfl, rfl, htype, hopenId.trans hsound.openId.symm, hsubId, ?_⟩
      rcases hpchan with hnone | hpchan
      · cases hnone
      · exact (Option.some.inj hpchan).symm.trans hsound.pchan.symm
    · rintro ⟨⟩
    · rintro _ ⟨⟩ hcancel'
      exact absurd hcancel' hcancel
    · rintro _ ⟨⟩
      exact h.referenced.lt_nextVchan (h.referenced.refcount_ne_zero hi rfl)
  · exact absurd htype hcancel
  · exact absurd htype hcancel

/-- What the step adds to the returns. -/
theorem Opened.advanced_returned (h : vm.Opened) (hi : vm.calls.get i = some call)
    (hstep : vm.Advance i env call vm' out) :
    ∀ ret ∈ vm'.returns, ret.Kept vm' := by
  have hlater := Later.advance hstep
  have hold : ∀ ret ∈ vm.returns, ret.Kept vm' := fun ret hret ↦ hlater.kept (h.returned ret hret)
  have hbound : ∀ {v}, call.vchan = some v → v < vm'.nextVchan := fun hv ↦
    Nat.lt_of_lt_of_le (h.referenced.lt_nextVchan (h.referenced.refcount_ne_zero hi hv))
      hlater.nextVchan
  have hadd : ∀ {new : OpenReturn}, new.Kept vm' → ∀ ret ∈ vm.returns ++ [new], ret.Kept vm' := by
    intro new hnew ret hret
    rcases List.mem_append.mp hret with hret | hret
    · exact hold ret hret
    · rw [List.mem_singleton.mp hret]
      exact hnew
  cases hstep with
  | frontErr o stage error =>
      exact hadd (kept_of_error (h.referenced.openErr_freed hi rfl rfl) (hbound rfl))
  | frontCancel o recv error =>
      exact hadd (kept_of_error (h.referenced.openErr_freed hi rfl rfl) (hbound rfl))
  | frontAccept o request => exact hadd (hlater.kept (h.kept_front hi))
  | listenErr l ended recv error dev hdev memProto => exact hadd kept_of_noVchan
  | roundAccept r ended request haccept => exact hadd (hlater.kept (h.kept_round hi haccept))
  | roundErr r stage error hrefuse =>
      exact hadd (kept_of_error (h.referenced.openErr_freed hi rfl rfl) (hbound rfl))
  | roundCancel r recv error =>
      exact hadd (kept_of_error (h.referenced.openErr_freed hi rfl rfl) (hbound rfl))
  | roundRetry r recv out hout =>
      intro ret hret
      exact hold ret (by simpa [HabVm.openErr] using hret)
  | sent v message nonblocking | sendErr v message nonblocking | dequeue v rsize waited
  | stopped v =>
      intro ret hret
      rw [returns_release] at hret
      exact hold ret hret
  | _ => exact hold

end Returns

/-- No INIT without an open id arrives. -/
theorem arrives_unnumbered {act : VmAct} (horderly : vm.orderly act = true) :
    act.arrives HabOpenRequest.unnumbered = 0 := by
  cases act with
  | receive pchan msg =>
      cases msg with
      | request type xdata =>
          cases type with
          | init =>
              have hne : xdata.openId ≠ 0 := by simpa [HabVm.orderly] using horderly
              simp [VmAct.arrives, queuedRequest, HabOpenRequest.unnumbered, hne]
          | _ => simp [VmAct.arrives, queuedRequest, HabOpenRequest.unnumbered]
      | _ => rfl
  | _ => rfl

theorem Opened.step (h : vm.Opened) {act : VmAct} (horderly : vm.orderly act = true)
    (hstep : vm.Step env act vm' out) : vm'.Opened := by
  have hlater := Later.step h.referenced hstep
  have hold : ∀ ret ∈ vm.returns, ret.Kept vm' := fun ret hret ↦ hlater.kept (h.returned ret hret)
  have hkept : ∀ {call : Call}, call.Orderly vm.forbidden → call.Orderly vm'.forbidden :=
    fun hcall ↦ hcall.mono fun _ _ ↦ hstep.forbidden
  refine ⟨h.referenced.step hstep, h.sound.step h.referenced hstep, ?_, ?_, ?_⟩
  · have hle := hstep.requests_le HabOpenRequest.unnumbered
    rw [h.numbered, arrives_unnumbered horderly] at hle
    exact Nat.eq_zero_of_le_zero hle
  · intro j call' hj
    apply hkept
    cases hstep with
    | advances i call vm' out hi hadvance =>
        by_cases hji : j = i
        · subst hji
          exact h.advanced_orderly hi horderly hadvance hj
        · exact h.orderly j call' (hadvance.calls_of_ne hji ▸ hj)
    | receives pchan msg =>
        obtain ⟨dev, vchan, heq⟩ := vm.receive_eq pchan env msg
        rw [heq] at hj
        exact h.orderly j call' hj
    | opens ctx pchan subId request id hfree =>
        rcases Pool.get_spawn.mp hj with ⟨-, rfl⟩ | hj
        · refine ⟨by simpa [HabVm.orderly] using horderly, fun request hrecv ↦ by cases hrecv⟩
        · exact h.orderly j call' hj
    | listens l =>
        rcases Pool.get_spawn.mp hj with ⟨-, rfl⟩ | hj
        · rintro _ _ ⟨⟩
        · exact h.orderly j call' hj
    | sends ctx vcid message nonblocking v hv hmessage =>
        rcases Pool.get_spawn.mp hj with ⟨-, rfl⟩ | hj
        · trivial
        · exact h.orderly j call' hj
    | recvs ctx vcid v hv =>
        rcases Pool.get_spawn.mp hj with ⟨-, rfl⟩ | hj
        · trivial
        · exact h.orderly j call' hj
    | closes ctx vcid v hv =>
        rcases Pool.get_spawn.mp hj with ⟨-, rfl⟩ | hj
        · trivial
        · exact h.orderly j call' hj
    | _ => exact h.orderly j call' hj
  · cases hstep with
    | advances i call vm' out hi hadvance => exact h.advanced_returned hi hadvance
    | receives pchan msg =>
        obtain ⟨dev, vchan, heq⟩ := vm.receive_eq pchan env msg
        have hreturns : (vm.receive pchan env msg).returns = vm.returns := by rw [heq]
        intro ret hret
        exact hold ret (hreturns ▸ hret)
    | openFails ctx pchan subId request =>
        intro ret hret
        rcases List.mem_append.mp hret with hret | hret
        · exact hold ret hret
        · rw [List.mem_singleton.mp hret]
          exact kept_of_noVchan
    | _ => exact hold

/-- As long as no wait finds an INIT_CANCEL first, a `backend_listen` has a vchan only for an
INIT it took and returns one only for the INIT_DONE of that open, a `frontend_open` returns
one only for its INIT_ACK, and an open that took an INIT_CANCEL fails and gives its vchan
back. -/
theorem cancelSafe_of_meets {acts : List (VmAct × Env)} {vm : HabVm}
    (hmeets : Meets run (fun vm act ↦ vm.orderly act.1 = true) HabVm.init acts)
    (hrun : exec run HabVm.init acts = some vm) : vm.CancelSafe := by
  have hopened : vm.Opened := by
    refine invariant_of_meets ?_ Opened.init hmeets hrun
    intro vm act vm' h horderly hstep
    obtain ⟨⟨vm₁, out⟩, hstep', rfl⟩ := Option.map_eq_some_iff.mp hstep
    exact h.step horderly (step_cases hstep')
  exact hopened.cancelSafe

/-! ## A `backend_listen` that takes an INIT_CANCEL -/

/-- A `backend_listen` takes an INIT and sends its INIT_ACK; a last message arrives,
and the call goes on with it. -/
def listenThen (pchan : HabPchan) (id : Fin 4096) (last : HabPayloadType) : List (VmAct × Env) :=
  let xdata : HabOpenSendData := ⟨1, 0, 1, habApiVer, 0, habVerProt⟩
  [(.backendListen ⟨0, 0, false⟩, {}),
    (.receive pchan (.request .init xdata), {}),
    (.advance 0, {}),
    (.advance 0, { idr := some id }),
    (.advance 0, {}),
    (.receive pchan (.request last xdata), {}),
    (.advance 0, {}),
    (.advance 0, {})]

/-- The condition can be met: the last message is the INIT_DONE. -/
theorem cancelSafe_of_meets_initDone :
    ∃ vm, exec run HabVm.init (listenThen ⟨⟨0, by decide⟩, ⟨0, by decide⟩⟩ ⟨1, by decide⟩
      .initDone) = some vm ∧ vm.CancelSafe := by
  have hmeets : Meets run (fun vm act ↦ vm.orderly act.1 = true) HabVm.init
      (listenThen ⟨⟨0, by decide⟩, ⟨0, by decide⟩⟩ ⟨1, by decide⟩ .initDone) := by decide
  exact ⟨_, rfl, cancelSafe_of_meets hmeets rfl⟩

/-- Without it an open ends well with an INIT_CANCEL: the front end is interrupted after
the INIT was taken. -/
theorem not_cancelSafe_initCancel :
    ∃ vm, exec run HabVm.init (listenThen ⟨⟨0, by decide⟩, ⟨0, by decide⟩⟩ ⟨1, by decide⟩
      .initCancel) = some vm ∧ ¬ vm.CancelSafe := by
  refine ⟨_, rfl, ?_⟩
  intro h
  have hret := h.returned ⟨false, 0, some 0, some ⟨.initCancel, ⟨⟨0, by decide⟩, ⟨0, by decide⟩⟩,
    ⟨1, 0, 1, habApiVer, 0, 0⟩⟩, none⟩ (by decide)
  exact (hret.cancelled _ rfl rfl).1 rfl

end HabVm

end Hab
