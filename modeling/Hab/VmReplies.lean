import Hab.VmVchans

/-!
# The replies to an open

A back end that has a vchan for an open replies to its INIT once.  The reply is about to be
sent, on its way, in the open queue of the front end or taken there, or the front end has
returned its vchan.
-/

namespace Hab

/-- A `frontend_open` with the session takes the request for the answer to its INIT, or the
cancel of the back end withdraws it. -/
def HabOpenRequest.replies (session : UInt32) (request : HabOpenRequest HabPchan) : Bool :=
  (request.type = .init || request.type = .initAck || request.type = .initCancel) &&
    request.xdata.openId = session

/-- The message brings such a request, and is no cancel. -/
def HabMsg.replies (session : UInt32) : HabMsg → Bool
  | .request type xdata => (type = .init || type = .initAck) && xdata.openId = session
  | _ => false

/-- The call is to send the INIT_ACK. -/
def Call.replies (session : UInt32) : Call → Bool
  | .round r .ack => r.init.xdata.openId = session
  | _ => false

namespace HabVm

variable {vm vm' : HabVm} {i v : ℕ} {env : Env} {call : Call} {act : VmAct}
  {out : List (HabPchan × HabMsg)} {p : HabPchan}

/-! ## The back end -/

/-- A back end has a new vchan for each reply that it is to send. -/
theorem Advance.replies_le (href : vm.Referenced) (hback : vm.AtBack)
    (hi : vm.calls.get i = some call) (hstep : vm.Advance i env call vm' out)
    (session : UInt32) :
    vm'.calls.count (Call.replies session) + (out.map Prod.snd).countP (HabMsg.replies session) +
        vm.sessions session ≤
      vm.calls.count (Call.replies session) + vm'.sessions session := by
  have hcall : ∀ o stage, call ≠ .front o stage := by
    rintro o stage rfl
    cases hback i _ hi
  have hset : ∀ next, vm'.calls = vm.calls.set i next →
      vm'.calls.count (Call.replies session) + (call.replies session).toNat =
        vm.calls.count (Call.replies session) + (next.any (Call.replies session)).toNat := by
    intro next hcalls
    rw [hcalls]
    exact Pool.count_set hi next
  have hkeep : ∀ next, vm'.calls = vm.calls.set i next → vm'.nextVchan = vm.nextVchan →
      (next.any (Call.replies session)).toNat +
          (out.map Prod.snd).countP (HabMsg.replies session) ≤ (call.replies session).toNat →
      vm'.calls.count (Call.replies session) +
          (out.map Prod.snd).countP (HabMsg.replies session) + vm.sessions session ≤
        vm.calls.count (Call.replies session) + vm'.sessions session := by
    intro next hcalls hnext hless
    have hcount := hset next hcalls
    have hsessions := sessions_later (Later.step href (.advances i call vm' out hi hstep)) hnext
      session
    omega
  cases hstep
  case frontInit | frontPoll | frontWoken | frontPair | frontGiveUp | frontErr | frontCancel
      | frontAccept => exact absurd rfl (hcall _ _)
  case listenPoll | roundPoll | sendAgain => exact Nat.le_refl _
  case listenTake l ended request id haccept hfree =>
    have hcount := hset _ rfl
    have hround : (Option.any (Call.replies session)
        (some (.round ⟨l, request, vm.nextVchan⟩ .ack))) =
          decide (request.xdata.openId = session) := rfl
    have hsessions := @sessions_backTake vm i l request id session
    rw [show (vm.backHear request).nextVchan = vm.nextVchan from rfl, hround] at hcount
    rw [hsessions, List.map_nil, List.countP_nil]
    omega
  case roundAck r =>
    apply hkeep _ rfl rfl
    by_cases hr : r.init.xdata.openId = session <;>
      simp [Call.replies, HabMsg.replies, BackRound.xdata, habOpenRequestInit, hr]
  case listenWoken | listenErr | roundAnswered | roundAccept | roundGiveUp | publish =>
    exact hkeep _ rfl rfl (Nat.zero_le _)
  case roundErr => exact hkeep _ calls_openErr (nextVchan_openErr _ _ _) (Nat.zero_le _)
  case roundCancel => exact hkeep _ calls_openErr (nextVchan_openErr _ _ _) (Nat.zero_le _)
  case roundRetry r recv hout =>
    apply hkeep _ calls_openErr (nextVchan_openErr _ _ _)
    rcases hout with rfl | rfl <;> exact Nat.zero_le _
  case sent | sendErr | dequeue | stopped =>
    exact hkeep _ calls_release nextVchan_release (Nat.zero_le _)
  case closeSent | closeSkip => exact hkeep _ rfl rfl (Nat.zero_le _)

theorem Step.replies_le (href : vm.Referenced) (hback : vm.AtBack) (hact : act.onBack = true)
    (hstep : vm.Step env act vm' out) (session : UInt32) :
    vm'.calls.count (Call.replies session) + (out.map Prod.snd).countP (HabMsg.replies session) +
        vm.sessions session ≤
      vm.calls.count (Call.replies session) + vm'.sessions session := by
  have hspawn : ∀ {call : Call}, call.replies session = false →
      (vm.calls.spawn call).count (Call.replies session) + 0 + vm.sessions session ≤
        vm.calls.count (Call.replies session) + vm.sessions session := by
    intro call hno
    rw [Pool.count_spawn, hno]
    exact Nat.le_refl _
  have hlater := Later.step href hstep
  cases hstep
  case opens => simp [VmAct.onBack] at hact
  case openFails => simp [VmAct.onBack] at hact
  case receives => simp [VmAct.onBack] at hact
  case listens => exact hspawn rfl
  case sends | recvs | closes =>
    rw [sessions_later hlater rfl]
    exact hspawn rfl
  case sendLeaks =>
    rw [sessions_later hlater rfl]
    exact Nat.le_refl _
  case advances i call hi hadvance => exact hadvance.replies_le href hback hi session
  all_goals exact Nat.le_refl _

/-- A round that is refused its INIT_ACK sends none. -/
theorem replies_lt_of_refused {r : BackRound} (hi : vm.calls.get i = some (.round r .ack))
    (hsent : env.sent ≠ none) (hstep : vm.step (.advance i) env = some (vm', out)) :
    out = [] ∧ vm'.calls.count (Call.replies r.init.xdata.openId) + 1 =
      vm.calls.count (Call.replies r.init.xdata.openId) := by
  obtain ⟨error, hsent⟩ := Option.ne_none_iff_exists'.mp hsent
  simp only [HabVm.step, hi, HabVm.advance, advanceRound, hsent, Option.some.injEq,
    Prod.mk.injEq] at hstep
  obtain ⟨rfl, rfl⟩ := hstep
  refine ⟨rfl, ?_⟩
  have hcount : (vm.calls.set i none).count (Call.replies r.init.xdata.openId) +
      (Call.replies r.init.xdata.openId (.round r .ack)).toNat =
        vm.calls.count (Call.replies r.init.xdata.openId) + 0 := Pool.count_set hi none
  have hself : (Call.replies r.init.xdata.openId (.round r .ack)).toNat = 1 := by
    simp [Call.replies]
  rw [calls_openErr]
  omega

/-- A wait that times out, or takes a request that the round goes by, does not end the round
without a message. -/
theorem givesUp_answered {r : BackRound} {ended : WaitEnd}
    {recv : Option (HabOpenRequest HabPchan)} (hmet : recv ≠ none → ended = .met)
    (htells : ended = .timeout ∨ recv.any (fun request ↦
      !vm.forbidden r.listen.ctx r.listen.subId || request.type = .initCancel) = true) :
    vm.givesUp env r (.answered ended recv) = false := by
  rcases htells with rfl | htaken
  · simp [givesUp, habOpenListen]
  · obtain ⟨request, rfl, hgood⟩ := (Option.any_eq_true _ _).mp htaken
    obtain rfl := hmet (by simp)
    cases hforbidden : vm.forbidden r.listen.ctx r.listen.subId with
    | false => simp [givesUp, habOpenListen, hforbidden]
    | true =>
        have htype : request.type = .initCancel := by simpa [hforbidden] using hgood
        simp [givesUp, habOpenListen, hforbidden, htype]

/-! ## The front end -/

/-- What has been received of replies is in the queue, or taken, or the vchan is returned. -/
theorem Step.received_le (hsound : vm.Sound) (hfront : vm.AtFront) (hnum : vm.Numbered)
    (hact : act.onFront p = true) (hstep : vm.Step env act vm' out) (hv : v < vm.nextVchan) :
    vm'.requests (HabOpenRequest.replies (vm.vchan v).sessionId) + vm'.returned v ≤
      vm.requests (HabOpenRequest.replies (vm.vchan v).sessionId) + vm.returned v := by
  have hrequests := hstep.requests_le (HabOpenRequest.replies (vm.vchan v).sessionId)
  have hnone : act.arrives (HabOpenRequest.replies (vm.vchan v).sessionId) = 0 := by
    cases act <;> first | rfl | simp [VmAct.onFront] at hact
  have hsame : vm'.returned v = vm.returned v →
      vm'.requests (HabOpenRequest.replies (vm.vchan v).sessionId) + vm'.returned v ≤
        vm.requests (HabOpenRequest.replies (vm.vchan v).sessionId) + vm.returned v := by
    intro heq
    omega
  cases hstep
  case openFails => exact hsame (by simp [returned, OpenReturn.returns])
  case receives => simp [VmAct.onFront] at hact
  case advances i call hi hadvance =>
    rcases hadvance.returned_cases v with
      heq | ⟨hcall, -, ⟨o, request, rfl⟩ | ⟨r, ended, request, rfl, -⟩⟩
    · exact hsame heq
    · cases hadvance
      case frontErr => exact hsame (by simp [returned, openErr, OpenReturn.returns])
      case frontAccept =>
        -- the request that was taken is used up
        obtain rfl := Option.some.inj hcall
        have hcalls : (vm.frontAccept i o request).calls =
            vm.calls.set i (some (.opened o.vchan)) := rfl
        have hset := requests_set hi hcalls (HabOpenRequest.replies (vm.vchan o.vchan).sessionId)
        have hqueue : (vm.frontAccept i o request).dev.countQueued
            (HabOpenRequest.replies (vm.vchan o.vchan).sessionId) =
              vm.dev.countQueued (HabOpenRequest.replies (vm.vchan o.vchan).sessionId) := rfl
        have hreturned : (vm.frontAccept i o request).returned o.vchan =
            vm.returned o.vchan + 1 := by
          simp [returned, OpenReturn.returns, HabVm.frontAccept]
        have hreplies : request.replies (vm.vchan o.vchan).sessionId = true := by
          have hopen := hsound.calls i _ hi
          have hanswers := hopen.answers request rfl
          have hpos := (hnum.le o.vchan hv).1
          simp only [HabOpenRequest.answers, Bool.and_eq_true, Bool.or_eq_true,
            decide_eq_true_eq] at hanswers
          obtain ⟨⟨⟨htype, -⟩, hzero | hopenId⟩, -⟩ := hanswers
          · have hne : o.openId = 0 := hzero
            rw [hopen.openId, hne] at hpos
            exact absurd hpos (by decide)
          · have hsession : request.xdata.openId = (vm.vchan o.vchan).sessionId :=
              hopenId.trans hopen.openId.symm
            rcases htype with htype | htype
            · have hack : request.type = .initAck := htype
              simp [HabOpenRequest.replies, hack, hsession]
            · simp [HabOpenRequest.replies, htype, hsession]
        have htaken : (Option.any (HabOpenRequest.replies (vm.vchan o.vchan).sessionId)
            (Call.taken (.front o (.paired request)))) = true := by
          simpa [Call.taken, FrontStage.taken] using hreplies
        simp only [Call.taken, Option.any_some, Option.any_none, Bool.toNat_false] at hset htaken
        rw [htaken, hqueue, Bool.toNat_true] at hset
        omega
    · cases hfront i _ hi
  all_goals exact hsame rfl

/-- A cancel withdraws a reply that waits in the queue. -/
theorem replies_withdrawn {xdata : HabOpenSendData}
    (hwaits : vm.dev.openqList.any (fun node ↦ node.request.cancelledBy xdata) = true) :
    (vm.receive p env (.request .initCancel xdata)).requests
        (HabOpenRequest.replies xdata.openId) + 1 =
      vm.requests (HabOpenRequest.replies xdata.openId) := by
  have hqueue : (vm.receive p env (.request .initCancel xdata)).dev.openqList =
      vm.dev.openqList.eraseP (fun node ↦ node.request.cancelledBy xdata) := by
    simp only [HabVm.receive, habOpenReceiveCancel, if_pos hwaits]
  have hcalls : (vm.receive p env (.request .initCancel xdata)).calls = vm.calls := rfl
  obtain ⟨node, hnode, hcancelled⟩ := List.any_eq_true.mp hwaits
  obtain ⟨first, front, back, -, hfirst, hlist, herase⟩ := List.exists_of_eraseP
    (p := fun node : HabOpenNode HabPchan ↦ node.request.cancelledBy xdata) hnode hcancelled
  have hreplies : first.request.replies xdata.openId = true := by
    simp only [HabOpenRequest.cancelledBy, Bool.and_eq_true, Bool.or_eq_true,
      decide_eq_true_eq] at hfirst
    obtain ⟨⟨⟨htype, -⟩, hopenId⟩, -⟩ := hfirst
    rcases htype with htype | htype <;> simp [HabOpenRequest.replies, htype, hopenId]
  rw [requests, requests, hcalls, HabDevice.countQueued, HabDevice.countQueued, hqueue, herase,
    hlist, List.countP_append, List.countP_append, List.countP_cons, hreplies, if_pos rfl]
  omega

end HabVm

end Hab
