import Hab.VmHistory

/-!
# What the calls in progress know

An open works on a vchan that nobody else uses.  What it has noted of it, and of
the requests it took, therefore stays true while other calls make their steps and
messages arrive.
-/

namespace Hab

/-- What an arriving message may change on a vchan. -/
def Vchan.Quiet (vchan vchan' : Vchan) : Prop :=
  ∃ rxList otherendClosed,
    vchan' = { vchan with rxList := rxList, otherendClosed := otherendClosed }

theorem Vchan.Quiet.of_eq {vchan vchan' : Vchan} (h : vchan' = vchan) : vchan.Quiet vchan' :=
  ⟨vchan.rxList, vchan.otherendClosed, h⟩

/-- Nothing has been sent or handed out on the vchan, and it is not closed. -/
structure Vchan.Fresh (vchan : Vchan) : Prop where
  log : vchan.log = []
  handed : vchan.handed = []
  closed : vchan.closed = false

theorem Vchan.Fresh.quiet {vchan vchan' : Vchan} (h : vchan.Fresh) (hq : vchan.Quiet vchan') :
    vchan'.Fresh := by
  obtain ⟨_, _, rfl⟩ := hq
  exact ⟨h.log, h.handed, h.closed⟩

/-- What a `frontend_open` knows of its vchan. -/
structure FrontOpen.Sound (o : FrontOpen) (stage : FrontStage) (vchan : Vchan) : Prop where
  openId : vchan.sessionId = o.openId
  pchan : vchan.pchan = o.pchan
  answers : ∀ request, stage.taken = some request → request.answers o.listen = true
  unpaired : (∀ request, stage ≠ .paired request) → vchan.otherendId = 0
  paired : ∀ request, stage = .paired request → vchan.otherendId = request.xdata.vchanId
  fresh : vchan.Fresh

theorem FrontOpen.Sound.unpairedStage {o : FrontOpen} {stage stage' : FrontStage} {vchan : Vchan}
    (h : o.Sound stage vchan) (hold : ∀ request, stage ≠ .paired request)
    (hnew : ∀ request, stage' ≠ .paired request)
    (htaken : ∀ request, stage'.taken = some request → request.answers o.listen = true) :
    o.Sound stage' vchan :=
  ⟨h.openId, h.pchan, htaken, fun _ ↦ h.unpaired hold,
    fun request hstage ↦ absurd hstage (hnew request), h.fresh⟩

/-- What a `backend_listen` knows of its vchan. -/
structure BackRound.Sound (r : BackRound) (stage : RoundStage) (vchan : Vchan) : Prop where
  openId : vchan.sessionId = r.init.xdata.openId
  pchan : vchan.pchan = r.init.pchan
  otherendId : vchan.otherendId = r.init.xdata.vchanId
  init : r.init.answers r.listen.request = true
  answers : ∀ request, stage.taken = some request → request.answers r.request = true
  met : ∀ ended recv, stage = .answered ended recv → recv ≠ none → ended = .met
  retry : ∀ recv, stage = .cancel recv none → recv = none
  cancelled : ∀ recv error, stage = .cancel recv (some error) →
    recv.any (fun request ↦ request.type = .initCancel) = true
  fresh : vchan.Fresh

theorem BackRound.Sound.stage {r : BackRound} {stage stage' : RoundStage} {vchan : Vchan}
    (h : r.Sound stage vchan)
    (htaken : ∀ request, stage'.taken = some request → request.answers r.request = true)
    (hmet : ∀ ended recv, stage' = .answered ended recv → recv ≠ none → ended = .met)
    (hretry : ∀ recv, stage' = .cancel recv none → recv = none)
    (hcancelled : ∀ recv error, stage' = .cancel recv (some error) →
      recv.any (fun request ↦ request.type = .initCancel) = true) : r.Sound stage' vchan :=
  ⟨h.openId, h.pchan, h.otherendId, h.init, htaken, hmet, hretry, hcancelled, h.fresh⟩

/-- What a call knows. -/
def Call.Sound (vchan : ℕ → Vchan) : Call → Prop
  | .front o stage => o.Sound stage (vchan o.vchan)
  | .listen l stage =>
      ∀ ended request, stage = .woken ended (some request) → request.answers l.request = true
  | .round r stage => r.Sound stage (vchan r.vchan)
  | .opened v => (vchan v).Fresh
  | .sending _ message _ => message.Sendable
  | .receiving _ | .closing _ | .stopping _ => True

namespace HabVm

variable {vm vm' : HabVm} {i : ℕ} {env : Env} {call : Call} {out : List (HabPchan × HabMsg)}

theorem Advance.vchan_eq (h : vm.Advance i env call vm' out) {w : ℕ} (hw : w < vm.nextVchan)
    (hne : call.vchan ≠ some w) : vm'.vchan w = vm.vchan w := by
  have hopenErr : ∀ {v pchan next result}, w ≠ v →
      (vm.openErr i v pchan next result).vchan w = vm.vchan w := by
    intro v pchan next result hwv
    rw [vchan_openErr, if_neg hwv]
  have hne' : ∀ {v}, call.vchan = some v → w ≠ v := by
    rintro v hv rfl
    exact hne hv
  cases h with
  | frontPair o ended request haccept => exact Function.update_of_ne (hne' rfl) _ _
  | frontErr o stage error => exact hopenErr (hne' rfl)
  | frontCancel o recv error => exact hopenErr (hne' rfl)
  | listenTake l ended request id haccept hfree =>
      exact Function.update_of_ne (Nat.ne_of_lt hw) _ _
  | roundErr r stage error hrefuse => exact hopenErr (hne' rfl)
  | roundCancel r recv error => exact hopenErr (hne' rfl)
  | roundRetry r recv out hout => exact hopenErr (hne' rfl)
  | sent v message nonblocking =>
      rw [vchan_release, if_neg (hne' rfl)]
      exact Function.update_of_ne (hne' rfl) _ _
  | sendErr v message nonblocking => rw [vchan_release, if_neg (hne' rfl)]
  | dequeue v rsize waited =>
      rw [vchan_release, if_neg (hne' rfl)]
      exact Function.update_of_ne (hne' rfl) _ _
  | closeSent v hopen => exact Function.update_of_ne (hne' rfl) _ _
  | stopped v =>
      rw [vchan_release, if_neg (hne' rfl)]
      exact Function.update_of_ne (hne' rfl) _ _
  | _ => rfl

theorem Advance.calls_of_ne (h : vm.Advance i env call vm' out) {j : ℕ} (hj : j ≠ i) :
    vm'.calls.get j = vm.calls.get j := by
  have hset : ∀ next, (vm.calls.set i next).get j = vm.calls.get j := Pool.get_set_of_ne hj
  have hrelease : ∀ {vm₁ : HabVm} {v next}, vm₁.calls = vm.calls →
      (vm₁.release i v next).calls.get j = vm.calls.get j := by
    intro vm₁ v next heq
    rw [calls_release, heq]
    exact hset next
  cases h with
  | frontPoll o dev hdev => rfl
  | listenPoll l dev hdev => rfl
  | roundPoll r dev hdev => rfl
  | sendAgain v message nonblocking => rfl
  | frontErr o stage error => exact hrelease rfl
  | frontCancel o recv error => exact hrelease rfl
  | roundErr r stage error hrefuse => exact hrelease rfl
  | roundCancel r recv error => exact hrelease rfl
  | roundRetry r recv out hout => exact hrelease rfl
  | sent v message nonblocking => exact hrelease rfl
  | sendErr v message nonblocking => exact hrelease rfl
  | dequeue v rsize waited => exact hrelease rfl
  | stopped v => exact hrelease rfl
  | _ => exact hset _

/-- What arrives concerns the open queue and the vchans only. -/
theorem receive_eq (vm : HabVm) (pchan : HabPchan) (env : Env) (msg : HabMsg) :
    ∃ dev vchan, vm.receive pchan env msg = { vm with dev := dev, vchan := vchan } := by
  cases msg with
  | request type xdata =>
      simp only [receive]
      split <;> exact ⟨_, _, rfl⟩
  | data id sessionId message =>
      simp only [receive]
      split
      · exact ⟨_, _, rfl⟩
      · split <;> exact ⟨_, _, rfl⟩
  | close id sessionId =>
      simp only [receive]
      split <;> exact ⟨_, _, rfl⟩

/-- What arrives changes no more than the queue of a vchan and whether the other
end is closed. -/
theorem quiet_receive (vm : HabVm) (pchan : HabPchan) (env : Env) (msg : HabMsg) (w : ℕ) :
    (vm.vchan w).Quiet ((vm.receive pchan env msg).vchan w) := by
  cases msg with
  | request type xdata =>
      simp only [receive]
      split <;> exact .of_eq rfl
  | data id sessionId message =>
      simp only [receive]
      split
      · exact .of_eq rfl
      · split
        · exact .of_eq rfl
        case h_2 v _ _ message _ =>
          by_cases hw : w = v
          · subst hw
            exact ⟨_, _, Function.update_self _ _ _⟩
          · exact .of_eq (Function.update_of_ne hw _ _)
  | close id sessionId =>
      simp only [receive]
      split
      · exact .of_eq rfl
      case h_2 v _ =>
        by_cases hw : w = v
        · subst hw
          exact ⟨_, _, Function.update_self _ _ _⟩
        · exact .of_eq (Function.update_of_ne hw _ _)

/-- The vchan of an open is left alone by all but the open itself. -/
theorem Step.quiet_of_opening (h : vm.Referenced) {act : VmAct} (hstep : vm.Step env act vm' out)
    {j w : ℕ} (hj : vm.calls.get j = some call) (hopen : call.opening = true)
    (hw : call.vchan = some w) (hact : act ≠ .advance j) :
    (vm.vchan w).Quiet (vm'.vchan w) := by
  have hlt := h.lt_nextVchan (h.refcount_ne_zero hj hw)
  have hlisted : ∀ {v}, v ∈ vm.vchannels → w ≠ v := by
    rintro v hv rfl
    exact h.not_listed_of_opening hj hopen hw hv
  cases hstep with
  | opens ctx pchan subId request id hfree =>
      exact .of_eq (Function.update_of_ne (Nat.ne_of_lt hlt) _ _)
  | sendLeaks ctx vcid message nonblocking v hv =>
      exact .of_eq (Function.update_of_ne (hlisted (vchanFromVcid_eq_some hv).1) _ _)
  | sends ctx vcid message nonblocking v hv hmessage =>
      exact .of_eq (Function.update_of_ne (hlisted (vchanFromVcid_eq_some hv).1) _ _)
  | recvs ctx vcid v hv =>
      exact .of_eq (Function.update_of_ne (hlisted (vchanFromVcid_eq_some hv).1) _ _)
  | closes ctx vcid v hv => exact .of_eq (Function.update_of_ne (hlisted hv) _ _)
  | receives pchan msg => exact quiet_receive vm pchan env msg w
  | advances i call' vm' out hi hadvance =>
      apply Vchan.Quiet.of_eq
      apply hadvance.vchan_eq hlt
      intro hw'
      have hij := h.eq_of_opening hj hopen hw hi hw'
      exact hact (congrArg VmAct.advance hij)
  | _ => exact .of_eq rfl

/-! ## The invariant -/

/-- Every call in progress is right about what it knows. -/
def CallsSound (vm : HabVm) : Prop :=
  ∀ i call, vm.calls.get i = some call → call.Sound vm.vchan

theorem CallsSound.init : HabVm.init.CallsSound := by
  intro i call h
  cases h

end HabVm

namespace Call

theorem sound_of_quiet {call : Call} {vchan vchan' : ℕ → Vchan} (h : call.Sound vchan)
    (hquiet : ∀ w, call.opening = true → call.vchan = some w → (vchan w).Quiet (vchan' w)) :
    call.Sound vchan' := by
  cases call with
  | front o stage =>
      obtain ⟨rxList, otherendClosed, heq⟩ := hquiet o.vchan rfl rfl
      have hfresh := h.fresh.quiet ⟨rxList, otherendClosed, heq⟩
      refine ⟨?_, ?_, h.answers, fun hstage ↦ ?_, fun request hstage ↦ ?_, hfresh⟩
      · rw [heq]
        exact h.openId
      · rw [heq]
        exact h.pchan
      · rw [heq]
        exact h.unpaired hstage
      · rw [heq]
        exact h.paired request hstage
  | listen l stage => exact h
  | round r stage =>
      obtain ⟨rxList, otherendClosed, heq⟩ := hquiet r.vchan rfl rfl
      have hfresh := h.fresh.quiet ⟨rxList, otherendClosed, heq⟩
      refine ⟨?_, ?_, ?_, h.init, h.answers, h.met, h.retry, h.cancelled, hfresh⟩
      · rw [heq]
        exact h.openId
      · rw [heq]
        exact h.pchan
      · rw [heq]
        exact h.otherendId
  | opened v => exact Vchan.Fresh.quiet h (hquiet v rfl rfl)
  | sending v message nonblocking => exact h
  | receiving v => trivial
  | closing v => trivial
  | stopping v => trivial

end Call

namespace HabVm

variable {vm vm' : HabVm} {i : ℕ} {env : Env} {call : Call} {out : List (HabPchan × HabMsg)}

theorem next_eq_of_set_self (hi : vm.calls.get i = some call) {next : Option Call} {call' : Call}
    (h : (vm.calls.set i next).get i = some call') : next = some call' :=
  (Pool.get_set_self (Pool.lt_next hi) next).symm.trans h

theorem not_get_set_none (hi : vm.calls.get i = some call) {call' : Call} :
    ¬ (vm.calls.set i none).get i = some call' := by
  intro h
  cases next_eq_of_set_self hi h

section Advanced

variable {call' : Call}

/-- What a `frontend_open` knows when it goes on. -/
theorem sound_of_front {o : FrontOpen} {stage : FrontStage}
    (hi : vm.calls.get i = some (.front o stage)) (h : o.Sound stage (vm.vchan o.vchan))
    (hstep : vm.Advance i env (.front o stage) vm' out) (hi' : vm'.calls.get i = some call') :
    call'.Sound vm'.vchan := by
  cases hstep with
  | frontInit _ =>
      cases next_eq_of_set_self hi hi'
      apply h.unpairedStage
      · rintro request ⟨⟩
      · rintro request ⟨⟩
      · rintro request ⟨⟩
  | frontPoll _ dev hdev =>
      cases hi.symm.trans hi'
      exact h
  | frontWoken _ dev ended recv hdev hmet =>
      cases next_eq_of_set_self hi hi'
      apply h.unpairedStage
      · rintro request ⟨⟩
      · rintro request ⟨⟩
      · exact hdev.answers
  | frontPair _ ended request haccept =>
      cases next_eq_of_set_self hi hi'
      have hpaired : o.Sound (.paired request)
          { vm.vchan o.vchan with otherendId := request.xdata.vchanId } := by
        refine ⟨h.openId, h.pchan, h.answers, fun hstage ↦ ?_, ?_, ?_⟩
        · exact absurd rfl (hstage request)
        · rintro _ ⟨⟩
          rfl
        · exact ⟨h.fresh.log, h.fresh.handed, h.fresh.closed⟩
      simpa [Call.Sound, HabVm.frontPair, HabVm.write, HabVm.become] using hpaired
  | frontGiveUp _ ended recv error =>
      cases next_eq_of_set_self hi hi'
      apply h.unpairedStage
      · rintro request ⟨⟩
      · rintro request ⟨⟩
      · exact h.answers
  | frontErr _ stage error =>
      rw [calls_openErr] at hi'
      exact absurd hi' (not_get_set_none hi)
  | frontCancel _ recv error =>
      rw [calls_openErr] at hi'
      exact absurd hi' (not_get_set_none hi)
  | frontAccept _ request =>
      cases next_eq_of_set_self hi hi'
      exact h.fresh

/-- What a `backend_listen` knows when its wait for an INIT goes on. -/
theorem sound_of_listen {l : BackListen} {stage : ListenStage}
    (hi : vm.calls.get i = some (.listen l stage)) (h : (Call.listen l stage).Sound vm.vchan)
    (hstep : vm.Advance i env (.listen l stage) vm' out) (hi' : vm'.calls.get i = some call') :
    call'.Sound vm'.vchan := by
  cases hstep with
  | listenPoll _ dev hdev =>
      cases hi.symm.trans hi'
      exact h
  | listenWoken _ dev ended recv hdev hmet =>
      cases next_eq_of_set_self hi hi'
      rintro _ request ⟨⟩
      exact hdev.answers request rfl
  | listenErr _ ended recv error dev hdev memProto => exact absurd hi' (not_get_set_none hi)
  | listenTake _ ended request id haccept hfree =>
      cases next_eq_of_set_self hi hi'
      have hanswers := h ended request rfl
      constructor
      · simp [HabVm.backTake, HabVm.become, HabVm.vchanAlloc, HabVm.backHear]
      · simp [HabVm.backTake, HabVm.become, HabVm.vchanAlloc, HabVm.backHear]
      · simp [HabVm.backTake, HabVm.become, HabVm.vchanAlloc, HabVm.backHear]
      · exact hanswers
      · rintro _ ⟨⟩
      · rintro _ _ ⟨⟩
      · rintro _ ⟨⟩
      · rintro _ _ ⟨⟩
      · constructor <;> simp [HabVm.backTake, HabVm.become, HabVm.vchanAlloc, HabVm.backHear]

/-- What a `backend_listen` knows when it goes on with a vchan. -/
theorem sound_of_round {r : BackRound} {stage : RoundStage}
    (hi : vm.calls.get i = some (.round r stage)) (h : r.Sound stage (vm.vchan r.vchan))
    (hstep : vm.Advance i env (.round r stage) vm' out) (hi' : vm'.calls.get i = some call') :
    call'.Sound vm'.vchan := by
  cases hstep with
  | roundAck _ =>
      cases next_eq_of_set_self hi hi'
      apply h.stage
      · rintro request ⟨⟩
      · rintro ended recv ⟨⟩
      · rintro recv ⟨⟩
      · rintro recv error ⟨⟩
  | roundPoll _ dev hdev =>
      cases hi.symm.trans hi'
      exact h
  | roundAnswered _ dev ended recv hdev hmet =>
      cases next_eq_of_set_self hi hi'
      apply h.stage
      · exact hdev.answers
      · rintro _ _ ⟨⟩
        exact hmet
      · rintro recv ⟨⟩
      · rintro recv error ⟨⟩
  | roundAccept _ ended request haccept =>
      cases next_eq_of_set_self hi hi'
      exact h.fresh
  | roundGiveUp _ ended recv error hrefuse hretry hcancel =>
      cases next_eq_of_set_self hi hi'
      apply h.stage
      · exact h.answers
      · rintro _ _ ⟨⟩
      · rintro _ ⟨⟩
        by_contra hrecv
        exact hretry rfl (h.met ended recv rfl hrecv)
      · rintro _ _ ⟨⟩
        exact hcancel (by simp)
  | roundErr _ stage error hrefuse =>
      rw [calls_openErr] at hi'
      exact absurd hi' (not_get_set_none hi)
  | roundCancel _ recv error =>
      rw [calls_openErr] at hi'
      exact absurd hi' (not_get_set_none hi)
  | roundRetry _ recv out hout =>
      rw [calls_openErr] at hi'
      cases next_eq_of_set_self hi hi'
      rintro _ _ ⟨⟩

/-- What the call that makes the step knows afterwards. -/
theorem CallsSound.advanced (h : vm.CallsSound) (hi : vm.calls.get i = some call)
    (hstep : vm.Advance i env call vm' out) (hi' : vm'.calls.get i = some call') :
    call'.Sound vm'.vchan := by
  have hcall := h i call hi
  cases call with
  | front o stage => exact sound_of_front hi hcall hstep hi'
  | listen l stage => exact sound_of_listen hi hcall hstep hi'
  | round r stage => exact sound_of_round hi hcall hstep hi'
  | opened v =>
      cases hstep with
      | publish => exact absurd hi' (not_get_set_none hi)
  | sending v message nonblocking =>
      cases hstep with
      | sendAgain =>
          cases hi.symm.trans hi'
          exact hcall
      | sent | sendErr =>
          rw [calls_release] at hi'
          exact absurd hi' (not_get_set_none hi)
  | receiving v =>
      cases hstep with
      | dequeue =>
          rw [calls_release] at hi'
          exact absurd hi' (not_get_set_none hi)
  | closing v =>
      cases hstep with
      | closeSent | closeSkip =>
          cases next_eq_of_set_self hi hi'
          trivial
  | stopping v =>
      cases hstep with
      | stopped =>
          rw [calls_release] at hi'
          exact absurd hi' (not_get_set_none hi)

end Advanced

theorem CallsSound.step (h : vm.CallsSound) (href : vm.Referenced) {act : VmAct}
    (hstep : vm.Step env act vm' out) : vm'.CallsSound := by
  intro j call' hj
  have hkeep : vm.calls.get j = some call' → act ≠ .advance j → call'.Sound vm'.vchan := by
    intro hold hact
    exact Call.sound_of_quiet (h j call' hold)
      (fun w hopen hw ↦ hstep.quiet_of_opening href hold hopen hw hact)
  cases hstep with
  | openFails ctx pchan subId request => exact hkeep hj (fun heq ↦ by cases heq)
  | opens ctx pchan subId request id hfree =>
      rcases Pool.get_spawn.mp hj with ⟨-, rfl⟩ | hold
      · constructor
        · simp [HabVm.vchanAlloc, HabVm.countOpen]
        · simp [HabVm.vchanAlloc, HabVm.countOpen]
        · rintro _ ⟨⟩
        · simp [HabVm.vchanAlloc, HabVm.countOpen]
        · rintro _ ⟨⟩
        · constructor <;> simp [HabVm.vchanAlloc, HabVm.countOpen]
      · exact hkeep hold (fun heq ↦ by cases heq)
  | listens l =>
      rcases Pool.get_spawn.mp hj with ⟨-, rfl⟩ | hold
      · rintro _ _ ⟨⟩
      · exact hkeep hold (fun heq ↦ by cases heq)
  | sendFails ctx vcid message nonblocking => exact hkeep hj (fun heq ↦ by cases heq)
  | sendLeaks ctx vcid message nonblocking v hv => exact hkeep hj (fun heq ↦ by cases heq)
  | sends ctx vcid message nonblocking v hv hmessage =>
      rcases Pool.get_spawn.mp hj with ⟨-, rfl⟩ | hold
      · exact hmessage
      · exact hkeep hold (fun heq ↦ by cases heq)
  | recvFails ctx vcid => exact hkeep hj (fun heq ↦ by cases heq)
  | recvs ctx vcid v hv =>
      rcases Pool.get_spawn.mp hj with ⟨-, rfl⟩ | hold
      · trivial
      · exact hkeep hold (fun heq ↦ by cases heq)
  | closes ctx vcid v hv =>
      rcases Pool.get_spawn.mp hj with ⟨-, rfl⟩ | hold
      · trivial
      · exact hkeep hold (fun heq ↦ by cases heq)
  | stops ctx subId => exact hkeep hj (fun heq ↦ by cases heq)
  | closesPchan pchan => exact hkeep hj (fun heq ↦ by cases heq)
  | receives pchan msg =>
      have hcalls : (vm.receive pchan env msg).calls = vm.calls := by
        obtain ⟨dev, vchan, heq⟩ := vm.receive_eq pchan env msg
        rw [heq]
      rw [hcalls] at hj
      exact hkeep hj (fun heq ↦ by cases heq)
  | advances i call vm' out hi hadvance =>
      by_cases hji : j = i
      · subst hji
        exact h.advanced hi hadvance hj
      · refine hkeep ?_ (fun heq ↦ hji (VmAct.advance.inj heq).symm)
        exact hadvance.calls_of_ne hji ▸ hj

end HabVm

end Hab
