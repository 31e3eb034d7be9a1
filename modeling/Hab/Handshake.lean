import Hab.Link

/-!
# The handshake pairs the right ends

An open is known on the back end by its open id, and each open id is given to one vchan of
the front end.  As long as the front end has not cancelled the open there is one INIT of
it: about to be sent, on its way, waiting in the queue, taken, or turned into a vchan.
-/

namespace Hab

/-- The request gives a `backend_listen` that waits for an INIT a vchan with the session. -/
def HabOpenRequest.asksFor (session : UInt32) (request : HabOpenRequest HabPchan) : Bool :=
  (request.type = .init || request.type = .initCancel) && request.xdata.openId = session

/-- The message brings such a request. -/
def HabMsg.asksFor (session : UInt32) : HabMsg → Bool
  | .request type xdata => (type = .init || type = .initCancel) && xdata.openId = session
  | _ => false

/-- The call is to send the INIT of the open. -/
def Call.asksFor (session : UInt32) : Call → Bool
  | .front o .init => o.openId = session
  | _ => false

namespace HabVm

variable {vm vm' : HabVm} {i v : ℕ} {env : Env} {call : Call} {act : VmAct}
  {out : List (HabPchan × HabMsg)} {p : HabPchan}

/-- The vchans have been numbered by the opens. -/
structure Numbered (vm : HabVm) : Prop where
  le : ∀ v, v < vm.nextVchan →
    0 < (vm.vchan v).sessionId.toNat ∧ (vm.vchan v).sessionId.toNat ≤ vm.openIdCounter
  inj : ∀ v w, v < vm.nextVchan → w < vm.nextVchan →
    (vm.vchan v).sessionId = (vm.vchan w).sessionId → v = w

/-- A request with this open id and this vchan id may be one that the front end has sent: it
names an open of the front end and, if it asks for a vchan, the id of its vchan. -/
def Sent (vm : HabVm) (type : HabPayloadType) (openId vchanId : UInt32) : Prop :=
  ∃ v < vm.nextVchan, (vm.vchan v).sessionId = openId ∧
    (type = .init ∨ type = .initCancel → vchanId = (vm.vchan v).id)

/-- The same for a request that the back end has sent. -/
def Answered (vm : HabVm) (openId vchanId : UInt32) : Prop :=
  ∃ w < vm.nextVchan, (vm.vchan w).sessionId = openId ∧ (vm.vchan w).id = vchanId

/-- The vchan is there, or has been returned. -/
def Known (vm : HabVm) (v : ℕ) : Prop := (vm.vchan v).refcount ≠ 0 ∨ vm.returned v ≠ 0

theorem Later.sent {type : HabPayloadType} {openId vchanId : UInt32} (h : vm.Later vm')
    (hsent : vm.Sent type openId vchanId) : vm'.Sent type openId vchanId := by
  obtain ⟨v, hv, hsession, hid⟩ := hsent
  have hlater := h.vchan v hv
  refine ⟨v, Nat.lt_of_lt_of_le hv h.nextVchan, hlater.sessionId.trans hsession, fun htype ↦ ?_⟩
  rw [hlater.id_eq]
  exact hid htype

theorem Later.answered {openId vchanId : UInt32} (h : vm.Later vm')
    (hanswered : vm.Answered openId vchanId) : vm'.Answered openId vchanId := by
  obtain ⟨w, hw, hsession, hid⟩ := hanswered
  have hlater := h.vchan w hw
  exact ⟨w, Nat.lt_of_lt_of_le hw h.nextVchan, hlater.sessionId.trans hsession,
    hlater.id_eq.trans hid⟩

theorem openIdCounter_release (next : Option Call) :
    (vm.release i v next).openIdCounter = vm.openIdCounter := by
  by_cases h : (vm.vchan v).refcount = 1 <;>
    simp [HabVm.release, HabVm.become, vchanPut, h, write]

theorem openIdCounter_openErr (pchan : HabPchan) (next : Option Call) (result : List OpenReturn) :
    (vm.openErr i v pchan next result).openIdCounter = vm.openIdCounter :=
  @openIdCounter_release vm i v next

theorem Advance.openIdCounter_eq (h : vm.Advance i env call vm' out) :
    vm'.openIdCounter = vm.openIdCounter := by
  cases h
  case frontErr | frontCancel | roundErr | roundCancel | roundRetry =>
    exact openIdCounter_openErr _ _ _
  case sent | sendErr | dequeue | stopped => exact openIdCounter_release _
  all_goals rfl

theorem Step.openIdCounter_le (h : vm.Step env act vm' out) :
    vm.openIdCounter ≤ vm'.openIdCounter := by
  cases h
  case openFails | opens => exact Nat.le_succ _
  case receives pchan msg =>
    obtain ⟨dev, vchan, heq⟩ := vm.receive_eq pchan env msg
    rw [heq]
  case advances i call hi hadvance => exact hadvance.openIdCounter_eq.ge
  all_goals exact Nat.le_refl _

/-- A call of a front end gets no vchan. -/
theorem Advance.nextVchan_eq (h : vm.Advance i env call vm' out)
    (hlisten : ∀ l stage, call ≠ .listen l stage) : vm'.nextVchan = vm.nextVchan := by
  cases h
  case frontErr | frontCancel | roundErr | roundCancel | roundRetry =>
    exact nextVchan_openErr _ _ _
  case sent | sendErr | dequeue | stopped => exact nextVchan_release
  case listenTake => exact absurd rfl (hlisten _ _)
  all_goals rfl

theorem Numbered.later (h : vm.Numbered) (hlater : vm.Later vm')
    (hnext : vm'.nextVchan = vm.nextVchan) (hcounter : vm.openIdCounter ≤ vm'.openIdCounter) :
    vm'.Numbered := by
  constructor
  · intro v hv
    rw [hnext] at hv
    rw [(hlater.vchan v hv).sessionId]
    exact ⟨(h.le v hv).1, (h.le v hv).2.trans hcounter⟩
  · intro v w hv hw
    rw [hnext] at hv hw
    rw [(hlater.vchan v hv).sessionId, (hlater.vchan w hw).sessionId]
    exact h.inj v w hv hw

theorem Numbered.step (h : vm.Numbered) (href : vm.Referenced) (hfront : vm.AtFront)
    (hact : act.onFront p = true ∨ ∃ msg, act = .receive p msg) (hstep : vm.Step env act vm' out)
    (hcounter : vm'.openIdCounter < 2 ^ 32) : vm'.Numbered := by
  have hlater := Later.step href hstep
  have hle := hstep.openIdCounter_le
  cases hstep
  case opens ctx pchan subId request id hfree =>
    have hnum : (UInt32.ofNat (vm.openIdCounter + 1)).toNat = vm.openIdCounter + 1 :=
      UInt32.toNat_ofNat_of_lt' hcounter
    -- the session of the new vchan is larger than all others
    have hsession : ∀ v, v < vm.nextVchan + 1 →
        v < vm.nextVchan ∧ (((vm.countOpen pchan).vchanAlloc ctx pchan
          (UInt32.ofNat (vm.openIdCounter + 1)) 0 id).vchan v).sessionId =
            (vm.vchan v).sessionId ∨
        v = vm.nextVchan ∧ (((vm.countOpen pchan).vchanAlloc ctx pchan
          (UInt32.ofNat (vm.openIdCounter + 1)) 0 id).vchan v).sessionId.toNat =
            vm.openIdCounter + 1 := by
      intro v hv
      rcases Nat.lt_succ_iff_lt_or_eq.mp hv with hv | rfl
      · exact .inl ⟨hv, congrArg Vchan.sessionId (Function.update_of_ne (Nat.ne_of_lt hv) _ _)⟩
      · refine .inr ⟨rfl, ?_⟩
        show (Function.update vm.vchan vm.nextVchan _ vm.nextVchan).sessionId.toNat = _
        rw [Function.update_self]
        exact hnum
    constructor
    · intro v hv
      rcases hsession v hv with ⟨hv, heq⟩ | ⟨-, heq⟩
      · rw [heq]
        exact ⟨(h.le v hv).1, Nat.le_succ_of_le (h.le v hv).2⟩
      · rw [heq]
        exact ⟨Nat.succ_pos _, Nat.le_refl _⟩
    · intro v w hv hw heq
      rcases hsession v hv with ⟨hv, hveq⟩ | ⟨hv, hveq⟩ <;>
        rcases hsession w hw with ⟨hw, hweq⟩ | ⟨hw, hweq⟩
      · rw [hveq, hweq] at heq
        exact h.inj v w hv hw heq
      · have hle := (h.le v hv).2
        have hnat := congrArg UInt32.toNat heq
        rw [hveq, hweq] at hnat
        omega
      · have hle := (h.le w hw).2
        have hnat := congrArg UInt32.toNat heq
        rw [hveq, hweq] at hnat
        omega
      · rw [hv, hw]
  case receives pchan msg =>
    refine h.later hlater ?_ hle
    obtain ⟨dev, vchan, heq⟩ := vm.receive_eq pchan env msg
    rw [heq]
  case advances i call hi hadvance =>
    refine h.later hlater (hadvance.nextVchan_eq ?_) hle
    rintro l stage rfl
    cases hfront i _ hi
  case listens l => simp [VmAct.onFront] at hact
  all_goals exact h.later hlater rfl hle

/-! ## What the front end sends -/

theorem Advance.sent_out (h : vm.CallsSound) (href : vm.Referenced) (hfront : vm.AtFront)
    (hi : vm.calls.get i = some call) (hstep : vm.Advance i env call vm' out)
    {type : HabPayloadType} {xdata : HabOpenSendData}
    (hmsg : .request type xdata ∈ out.map Prod.snd) : vm.Sent type xdata.openId xdata.vchanId := by
  have hknown : ∀ {o : FrontOpen} {stage : FrontStage}, call = .front o stage →
      o.vchan < vm.nextVchan ∧ (vm.vchan o.vchan).sessionId = o.openId := by
    rintro o stage rfl
    have hsound := h i _ hi
    exact ⟨href.lt_nextVchan (href.refcount_ne_zero hi rfl), hsound.openId⟩
  have hround : ∀ {r : BackRound} {stage : RoundStage}, call ≠ .round r stage := by
    rintro r stage rfl
    cases hfront i _ hi
  cases hstep
  case frontInit o =>
    cases List.mem_singleton.mp hmsg
    exact ⟨o.vchan, (hknown rfl).1, (hknown rfl).2, fun _ ↦ rfl⟩
  case frontCancel o recv error =>
    cases List.mem_singleton.mp hmsg
    exact ⟨o.vchan, (hknown rfl).1, (hknown rfl).2, fun _ ↦ rfl⟩
  case frontAccept o request =>
    cases List.mem_singleton.mp hmsg
    exact ⟨o.vchan, (hknown rfl).1, (hknown rfl).2, fun htype ↦ by simp at htype⟩
  case roundAck | roundCancel | roundRetry => exact absurd rfl hround
  case sent | closeSent => cases List.mem_singleton.mp hmsg
  all_goals cases hmsg

theorem Step.sent_out (h : vm.CallsSound) (href : vm.Referenced) (hfront : vm.AtFront)
    (hstep : vm.Step env act vm' out) {type : HabPayloadType} {xdata : HabOpenSendData}
    (hmsg : .request type xdata ∈ out.map Prod.snd) : vm'.Sent type xdata.openId xdata.vchanId := by
  apply (Later.step href hstep).sent
  cases hstep
  case advances i call hi hadvance => exact hadvance.sent_out h href hfront hi hmsg
  all_goals cases hmsg

/-- What is asked for in a step, by the calls and the messages that go out, was asked for
before, or it is cancelled. -/
theorem Advance.asksFor_le (hfront : vm.AtFront) (hi : vm.calls.get i = some call)
    (hstep : vm.Advance i env call vm' out) (session : UInt32) :
    vm'.calls.count (Call.asksFor session) +
          (out.map Prod.snd).countP (HabMsg.asksFor session) ≤
        vm.calls.count (Call.asksFor session) ∨
      ∃ o recv error, call = .front o (.cancel recv error) ∧ o.openId = session ∧
        (vm'.vchan o.vchan).refcount = (vm.vchan o.vchan).refcount - 1 ∧
          vm'.returned o.vchan = vm.returned o.vchan := by
  have hset : ∀ {next : Option Call}, vm'.calls = vm.calls.set i next →
      next.any (Call.asksFor session) = false →
      vm'.calls.count (Call.asksFor session) + (call.asksFor session).toNat =
        vm.calls.count (Call.asksFor session) := by
    intro next hcalls hnext
    have hcount : (vm.calls.set i next).count (Call.asksFor session) +
        (call.asksFor session).toNat = vm.calls.count (Call.asksFor session) +
          (next.any (Call.asksFor session)).toNat := Pool.count_set hi next
    rw [hnext, Bool.toNat_false, Nat.add_zero] at hcount
    rw [hcalls]
    exact hcount
  have hround : ∀ {r : BackRound} {stage : RoundStage}, call ≠ .round r stage := by
    rintro r stage rfl
    cases hfront i _ hi
  have hless : ∀ {next : Option Call}, vm'.calls = vm.calls.set i next →
      next.any (Call.asksFor session) = false →
      (out.map Prod.snd).countP (HabMsg.asksFor session) = 0 →
      vm'.calls.count (Call.asksFor session) +
          (out.map Prod.snd).countP (HabMsg.asksFor session) ≤
        vm.calls.count (Call.asksFor session) := by
    intro next hcalls hnext hout
    have hcount := hset hcalls hnext
    omega
  cases hstep
  case frontInit o =>
    left
    have hcount := hset rfl rfl
    have hout : (([(o.pchan, HabMsg.request .init (o.xdata .init (vm.vchan o.vchan).id))].map
        Prod.snd).countP (HabMsg.asksFor session)) = (Call.asksFor session (.front o .init)).toNat := by
      by_cases ho : o.openId = session <;>
        simp [HabMsg.asksFor, Call.asksFor, FrontOpen.xdata, habOpenRequestInit, ho]
    rw [hout]
    exact hcount.le
  case frontCancel o recv error =>
    by_cases ho : o.openId = session
    · refine .inr ⟨o, recv, error, rfl, ho, ?_, ?_⟩
      · rw [vchan_openErr, if_pos rfl, Vchan.refcount_put]
      · simp [returned, openErr, OpenReturn.returns]
    · left
      apply hless calls_openErr rfl
      simp [HabMsg.asksFor, FrontOpen.xdata, habOpenRequestInit, ho]
  case roundAck | roundCancel | roundRetry => exact absurd rfl hround
  case frontPoll | listenPoll | roundPoll | sendAgain => exact .inl (Nat.le_refl _)
  case frontErr | roundErr => exact .inl (hless calls_openErr rfl rfl)
  case sent | sendErr | dequeue | stopped => exact .inl (hless calls_release rfl rfl)
  case frontAccept =>
    left
    apply hless rfl rfl
    simp [HabMsg.asksFor]
  case closeSent => exact .inl (hless rfl rfl rfl)
  all_goals exact .inl (hless rfl rfl rfl)

/-- A call returns its vchan, or no vchan is returned. -/
theorem Advance.returned_cases (hstep : vm.Advance i env call vm' out) (v : ℕ) :
    vm'.returned v = vm.returned v ∨
      call.vchan = some v ∧ vm'.vchan = vm.vchan ∧
        ((∃ o request, call = .front o (.paired request)) ∨
          ∃ r ended request, call = .round r (.answered ended (some request)) ∧
            vm.RoundAccepts r ended) := by
  have happend : ∀ {result : List OpenReturn}, vm'.returns = vm.returns ++ result →
      result.countP (OpenReturn.returns v) = 0 → vm'.returned v = vm.returned v := by
    intro result hreturns hzero
    rw [returned, hreturns, List.countP_append, hzero]
    rfl
  cases hstep
  case frontAccept o request =>
    by_cases hv : o.vchan = v
    · exact .inr ⟨congrArg some hv, rfl, .inl ⟨o, request, rfl⟩⟩
    · left
      apply happend rfl
      simp [OpenReturn.returns, hv]
  case roundAccept r ended request haccept =>
    by_cases hv : r.vchan = v
    · exact .inr ⟨congrArg some hv, rfl, .inr ⟨r, ended, request, rfl, haccept⟩⟩
    · left
      apply happend rfl
      simp [OpenReturn.returns, hv]
  case frontErr | frontCancel | roundErr | roundCancel | roundRetry | listenErr =>
    left
    apply happend rfl
    simp [OpenReturn.returns]
  case sent | sendErr | dequeue | stopped =>
    left
    rw [returned, returns_release]
    rfl
  all_goals exact .inl rfl

theorem Step.returned_cases (hstep : vm.Step env act vm' out) (v : ℕ) :
    vm'.returned v = vm.returned v ∨
      ∃ i call, vm.calls.get i = some call ∧ call.vchan = some v ∧ vm'.vchan = vm.vchan ∧
        ((∃ o request, call = .front o (.paired request)) ∨
          ∃ r ended request, call = .round r (.answered ended (some request)) ∧
            vm.RoundAccepts r ended) := by
  cases hstep
  case openFails => exact .inl (by simp [returned, OpenReturn.returns])
  case receives pchan msg =>
    obtain ⟨dev, vchan, heq⟩ := vm.receive_eq pchan env msg
    rw [heq]
    exact .inl rfl
  case advances i call hi hadvance =>
    rcases hadvance.returned_cases v with heq | ⟨hv, hvchan, hcall⟩
    · exact .inl heq
    · exact .inr ⟨i, call, hi, hv, hvchan, hcall⟩
  all_goals exact .inl rfl

/-- What is known after a step and is not new was known before. -/
theorem Step.known (href : vm.Referenced) (hstep : vm.Step env act vm' out)
    (hv : v < vm.nextVchan) (hknown : vm'.Known v) : vm.Known v := by
  by_cases hfreed : (vm.vchan v).refcount = 0
  · rcases hknown with hcount | hreturned
    · exact absurd (((Later.step href hstep).vchan v hv).freed hfreed) hcount
    · right
      rcases hstep.returned_cases v with heq | ⟨i, call, hi, hholds, -⟩
      · rw [← heq]
        exact hreturned
      · exact absurd hfreed (href.refcount_ne_zero hi hholds)
  · exact .inl hfreed

/-- The opens that ask for the session of a vchan: none that is new, and the message of none
that is not accounted for. -/
theorem Step.asksFor_le (hsound : vm.CallsSound) (href : vm.Referenced) (hfront : vm.AtFront)
    (hnum : vm.Numbered) (honce : vm.ReturnsOnce)
    (hact : act.onFront p = true ∨ ∃ msg, act = .receive p msg)
    (hstep : vm.Step env act vm' out) (hcounter : vm'.openIdCounter < 2 ^ 32)
    (hv : v < vm'.nextVchan) (hknown : vm'.Known v) :
    vm'.calls.count (Call.asksFor (vm'.vchan v).sessionId) +
        (out.map Prod.snd).countP (HabMsg.asksFor (vm'.vchan v).sessionId) ≤
      vm.calls.count (Call.asksFor (vm'.vchan v).sessionId) +
        if v < vm.nextVchan then 0 else 1 := by
  have hlater := Later.step href hstep
  have hspawn : ∀ {call : Call} (session : UInt32), call.asksFor session = false →
      (vm.calls.spawn call).count (Call.asksFor session) =
        vm.calls.count (Call.asksFor session) := by
    intro call session hno
    rw [Pool.count_spawn, hno]
    rfl
  cases hstep
  case opens ctx pchan subId request id hfree =>
    refine (Pool.count_spawn _).le.trans (Nat.add_le_add_left ?_ _)
    split
    case isTrue hold =>
      -- the new open id is larger than all others
      have hnum' : (UInt32.ofNat (vm.openIdCounter + 1)).toNat = vm.openIdCounter + 1 :=
        UInt32.toNat_ofNat_of_lt' hcounter
      show (decide (UInt32.ofNat (vm.openIdCounter + 1) = _)).toNat ≤ 0
      rw [decide_eq_false]
      · exact Nat.le_refl 0
      · intro heq
        have hle := (hnum.le v hold).2
        rw [← (hlater.vchan v hold).sessionId, ← heq, hnum'] at hle
        omega
    case isFalse => exact Bool.toNat_le _
  case listens | sends | recvs | closes =>
    exact (hspawn _ rfl).le.trans (Nat.le_add_right _ _)
  case receives pchan msg =>
    obtain ⟨dev, vchan, heq⟩ := vm.receive_eq pchan env msg
    rw [heq]
    exact Nat.le_add_right _ _
  case advances i call hi hadvance =>
    have hnext : vm'.nextVchan = vm.nextVchan := by
      apply hadvance.nextVchan_eq
      rintro l stage rfl
      cases hfront i _ hi
    rw [hnext] at hv
    rw [if_pos hv]
    rcases hadvance.asksFor_le hfront hi (vm'.vchan v).sessionId with
      hle | ⟨o, recv, error, rfl, ho, hcount, hreturned⟩
    · exact hle
    · -- the open has been cancelled, and its vchan is gone
      exfalso
      have hsame : o.vchan = v := by
        apply hnum.inj _ _ (href.lt_nextVchan (href.refcount_ne_zero hi rfl)) hv
        rw [← (hlater.vchan v hv).sessionId, ← ho]
        exact (hsound i _ hi).openId
      subst hsame
      rcases hknown with hknown | hknown
      · rw [hcount, href.opening i _ _ hi rfl rfl] at hknown
        exact hknown rfl
      · have hpos : 0 < vm.calls.count (Call.opens o.vchan) :=
          Pool.count_pos hi (by simp [Call.opens, Call.handshake, Call.holds, Call.vchan])
        have hle := honce.once o.vchan
        rw [hreturned] at hknown
        omega
  all_goals exact Nat.le_add_right _ _

/-! ## What the back end makes of it -/

/-- How many vchans there are, or have been, with this session. -/
def sessions (vm : HabVm) (session : UInt32) : ℕ :=
  Pool.countBelow (fun vchan : Vchan ↦ vchan.sessionId = session) (fun v ↦ some (vm.vchan v))
    vm.nextVchan

theorem countBelow_later (h : vm.Later vm') (session : UInt32) {n : ℕ} (hn : n ≤ vm.nextVchan) :
    Pool.countBelow (fun vchan : Vchan ↦ vchan.sessionId = session)
        (fun v ↦ some (vm'.vchan v)) n =
      Pool.countBelow (fun vchan : Vchan ↦ vchan.sessionId = session)
        (fun v ↦ some (vm.vchan v)) n := by
  induction n with
  | zero => rfl
  | succ n ih =>
      rw [Pool.countBelow, Pool.countBelow, ih (Nat.le_of_succ_le hn), Option.any_some,
        Option.any_some, (h.vchan n hn).sessionId]

theorem sessions_later (h : vm.Later vm') (hnext : vm'.nextVchan = vm.nextVchan)
    (session : UInt32) : vm'.sessions session = vm.sessions session := by
  rw [sessions, sessions, hnext]
  exact countBelow_later h session (Nat.le_refl _)

theorem sessions_backTake (l : BackListen) (request : HabOpenRequest HabPchan) (id : Fin 4096)
    (session : UInt32) :
    ((vm.backHear request).backTake i l request id).sessions session =
      vm.sessions session + (decide (request.xdata.openId = session)).toNat := by
  have hhear : vm.Later (vm.backHear request) := .of_eq rfl rfl
  have hlater := hhear.trans (Later.backTake i l request id)
  have hnew : (((vm.backHear request).backTake i l request id).vchan vm.nextVchan).sessionId =
      request.xdata.openId := by
    simp [backTake, HabVm.become, HabVm.vchanAlloc, backHear]
  rw [sessions, sessions, ← countBelow_later hlater session (Nat.le_refl _)]
  show Pool.countBelow _ _ (vm.nextVchan + 1) = _
  rw [Pool.countBelow, Option.any_some, hnew]

/-- What `backend_listen` takes first asks for a vchan. -/
theorem CallsSound.init_of_taken (h : vm.CallsSound) {l : BackListen} {ended : WaitEnd}
    {request : HabOpenRequest HabPchan}
    (hi : vm.calls.get i = some (.listen l (.woken ended (some request)))) :
    request.type = .init ∨ request.type = .initCancel := by
  have hanswers : request.answers l.request = true := h i _ hi ended request rfl
  simp only [HabOpenRequest.answers, Bool.and_eq_true, Bool.or_eq_true, decide_eq_true_eq]
    at hanswers
  exact hanswers.1.1.1

/-- A vchan comes of a request that asks for it. -/
theorem Step.asked_le (hsound : vm.CallsSound) (href : vm.Referenced)
    (hact : act.onBack = true ∨ ∃ msg, act = .receive p msg) (hstep : vm.Step env act vm' out)
    (session : UInt32) :
    vm'.requests (HabOpenRequest.asksFor session) + vm'.sessions session ≤
      vm.requests (HabOpenRequest.asksFor session) + vm.sessions session +
        act.arrives (HabOpenRequest.asksFor session) := by
  have hlater := Later.step href hstep
  have hrequests := hstep.requests_le (HabOpenRequest.asksFor session)
  have hsame : vm'.nextVchan = vm.nextVchan →
      vm'.requests (HabOpenRequest.asksFor session) + vm'.sessions session ≤
        vm.requests (HabOpenRequest.asksFor session) + vm.sessions session +
          act.arrives (HabOpenRequest.asksFor session) := by
    intro hnext
    rw [sessions_later hlater hnext]
    omega
  cases hstep
  case opens => simp [VmAct.onBack] at hact
  case receives pchan msg =>
    apply hsame
    obtain ⟨dev, vchan, heq⟩ := vm.receive_eq pchan env msg
    rw [heq]
  case advances i call hi hadvance =>
    cases hadvance
    case listenTake l ended request id haccept hfree =>
      have hinit := hsound.init_of_taken hi
      have hasks : HabOpenRequest.asksFor session request =
          decide (request.xdata.openId = session) := by
        rw [HabOpenRequest.asksFor]
        rcases hinit with hinit | hinit <;> simp [hinit]
      have htake := requests_backTake hi id (HabOpenRequest.asksFor session)
      rw [hasks] at htake
      rw [sessions_backTake]
      omega
    case frontErr | frontCancel | roundErr | roundCancel | roundRetry =>
      exact hsame (nextVchan_openErr _ _ _)
    case sent | sendErr | dequeue | stopped => exact hsame nextVchan_release
    all_goals exact hsame rfl
  all_goals exact hsame rfl

/-- What the back end sends names a vchan of it, with its session. -/
theorem Step.answered_out (hsound : vm.CallsSound) (href : vm.Referenced) (hback : vm.AtBack)
    (hstep : vm.Step env act vm' out) {type : HabPayloadType} {xdata : HabOpenSendData}
    (hmsg : .request type xdata ∈ out.map Prod.snd) :
    vm'.Answered xdata.openId xdata.vchanId := by
  apply (Later.step href hstep).answered
  cases hstep
  case advances i call hi hadvance =>
    have hknown : ∀ {r : BackRound} {stage : RoundStage}, call = .round r stage →
        r.vchan < vm.nextVchan ∧ (vm.vchan r.vchan).sessionId = r.init.xdata.openId := by
      rintro r stage rfl
      have hsound' := hsound i _ hi
      exact ⟨href.lt_nextVchan (href.refcount_ne_zero hi rfl), hsound'.openId⟩
    have hfront : ∀ {o : FrontOpen} {stage : FrontStage}, call ≠ .front o stage := by
      rintro o stage rfl
      cases hback i _ hi
    cases hadvance
    case roundAck r =>
      cases List.mem_singleton.mp hmsg
      exact ⟨r.vchan, (hknown rfl).1, (hknown rfl).2, rfl⟩
    case roundCancel r recv error =>
      cases List.mem_singleton.mp hmsg
      exact ⟨r.vchan, (hknown rfl).1, (hknown rfl).2, rfl⟩
    case roundRetry r recv hout =>
      rcases hout with rfl | rfl
      · cases hmsg
      · cases List.mem_singleton.mp hmsg
        exact ⟨r.vchan, (hknown rfl).1, (hknown rfl).2, rfl⟩
    case frontInit | frontCancel | frontAccept => exact absurd rfl hfront
    case sent | closeSent => cases List.mem_singleton.mp hmsg
    all_goals cases hmsg
  all_goals cases hmsg

/-- The other end of a vchan is set by the `frontend_open` that works on it. -/
theorem Advance.otherendId_eq (hstep : vm.Advance i env call vm' out) (hv : v < vm.nextVchan)
    (hpair : ∀ o stage, call = .front o stage → o.vchan ≠ v) :
    (vm'.vchan v).otherendId = (vm.vchan v).otherendId := by
  have hput : ∀ vchan : Vchan, vchan.put.otherendId = vchan.otherendId := by
    intro vchan
    obtain ⟨refcount, rxList, heq⟩ := vchan.put_eq
    rw [heq]
  have hwrite : ∀ {x : HabVm} {w : ℕ} {vchan : Vchan}, vchan.otherendId = (x.vchan w).otherendId →
      (Function.update x.vchan w vchan v).otherendId = (x.vchan v).otherendId := by
    intro x w vchan heq
    by_cases hw : v = w
    · subst hw
      rw [Function.update_self, heq]
    · rw [Function.update_of_ne hw]
  have hrelease : ∀ {x : HabVm} {w : ℕ} {next : Option Call},
      ((x.release i w next).vchan v).otherendId = (x.vchan v).otherendId := by
    intro x w next
    rw [vchan_release]
    split
    case isTrue hw =>
      subst hw
      exact hput _
    case isFalse => rfl
  have hopenErr : ∀ {w : ℕ} {pchan : HabPchan} {next : Option Call} {result : List OpenReturn},
      ((vm.openErr i w pchan next result).vchan v).otherendId = (vm.vchan v).otherendId := by
    intro w pchan next result
    exact @hrelease vm w next
  cases hstep
  case frontPair o ended request haccept =>
    exact congrArg Vchan.otherendId (Function.update_of_ne (hpair o _ rfl).symm _ _)
  case frontErr | frontCancel | roundErr | roundCancel | roundRetry => exact hopenErr
  case listenTake =>
    exact congrArg Vchan.otherendId (Function.update_of_ne (Nat.ne_of_lt hv) _ _)
  case sent | dequeue | stopped => exact hrelease.trans (hwrite rfl)
  case sendErr => exact hrelease
  case closeSent => exact hwrite rfl
  all_goals rfl

theorem Step.otherendId_eq (hstep : vm.Step env act vm' out) (hv : v < vm.nextVchan)
    (hpair : ∀ i o stage, vm.calls.get i = some (.front o stage) → o.vchan ≠ v) :
    (vm'.vchan v).otherendId = (vm.vchan v).otherendId := by
  have hwrite : ∀ {w : ℕ} {vchan : Vchan}, vchan.otherendId = (vm.vchan w).otherendId →
      (Function.update vm.vchan w vchan v).otherendId = (vm.vchan v).otherendId := by
    intro w vchan heq
    by_cases hw : v = w
    · subst hw
      rw [Function.update_self, heq]
    · rw [Function.update_of_ne hw]
  cases hstep
  case opens => exact congrArg Vchan.otherendId (Function.update_of_ne (Nat.ne_of_lt hv) _ _)
  case sendLeaks | sends | recvs | closes => exact hwrite rfl
  case receives pchan msg =>
    obtain ⟨rxList, otherendClosed, heq⟩ := quiet_receive vm pchan env msg v
    rw [heq]
  case advances i call hi hadvance =>
    exact hadvance.otherendId_eq hv fun o stage hcall ↦ hpair i o stage (hcall ▸ hi)
  all_goals rfl

/-- A vchan that a back end gets is that of a request which one of its calls has taken. -/
theorem Step.taken_of_new (hsound : vm.CallsSound)
    (hact : act.onBack = true ∨ ∃ msg, act = .receive p msg) (hstep : vm.Step env act vm' out)
    (hv : v < vm'.nextVchan) (hnew : ¬ v < vm.nextVchan) :
    ∃ i call request, vm.calls.get i = some call ∧ call.taken = some request ∧
      (request.type = .init ∨ request.type = .initCancel) ∧
        (vm'.vchan v).sessionId = request.xdata.openId ∧
          (vm'.vchan v).otherendId = request.xdata.vchanId := by
  have hsame : vm'.nextVchan ≠ vm.nextVchan := by
    intro hsame
    exact hnew (hsame ▸ hv)
  cases hstep
  case opens => simp [VmAct.onBack] at hact
  case receives pchan msg =>
    obtain ⟨dev, vchan, heq⟩ := vm.receive_eq pchan env msg
    rw [heq] at hsame
    exact absurd rfl hsame
  case advances i call hi hadvance =>
    cases hadvance
    case listenTake l ended request id haccept hfree =>
      have hlast : v = vm.nextVchan :=
        Nat.le_antisymm (Nat.le_of_lt_succ hv) (Nat.le_of_not_lt hnew)
      subst hlast
      refine ⟨i, _, request, hi, rfl, hsound.init_of_taken hi, ?_, ?_⟩ <;>
        simp [backTake, HabVm.become, HabVm.vchanAlloc, backHear]
    case frontErr | frontCancel | roundErr | roundCancel | roundRetry =>
      exact absurd (nextVchan_openErr _ _ _) hsame
    case sent | sendErr | dequeue | stopped => exact absurd nextVchan_release hsame
    all_goals exact absurd rfl hsame
  all_goals exact absurd rfl hsame

theorem exists_of_requests {test : HabOpenRequest HabPchan → Bool} (h : vm.requests test ≠ 0) :
    ∃ r, vm.requests (fun request ↦ request = r) ≠ 0 ∧ test r = true := by
  by_cases hqueue : vm.dev.countQueued test = 0
  · have hcalls : vm.calls.count (fun call ↦ call.taken.any test) ≠ 0 := by
      rw [requests, hqueue, Nat.zero_add] at h
      exact h
    obtain ⟨i, call, hi, htest⟩ := Pool.exists_of_count_ne_zero hcalls
    obtain ⟨r, hr, htest⟩ := (Option.any_eq_true _ _).mp htest
    exact ⟨r, requests_of_taken hi hr, htest⟩
  · obtain ⟨node, hnode, htest⟩ := List.countP_pos_iff.mp (Nat.pos_of_ne_zero hqueue)
    refine ⟨node.request, ?_, htest⟩
    have hpos : 0 < vm.dev.countQueued fun request ↦ request = node.request :=
      List.countP_pos_iff.mpr ⟨node, hnode, by simp⟩
    rw [requests]
    omega

end HabVm

/-! ## The invariant -/

namespace Link

/-- How often a vchan with the session has been asked for and not been refused. -/
def asked (s : Link) (session : UInt32) : ℕ :=
  s.front.calls.count (Call.asksFor session) + s.toBack.countP (HabMsg.asksFor session) +
    s.back.requests (HabOpenRequest.asksFor session) + s.back.sessions session

end Link

/-- What is true of a VM in itself. -/
structure HabVm.Sound (vm : HabVm) : Prop where
  referenced : vm.Referenced
  calls : vm.CallsSound
  once : vm.ReturnsOnce

theorem HabVm.Sound.step {vm vm' : HabVm} (h : vm.Sound) {env : Env} {act : VmAct}
    {out : List (HabPchan × HabMsg)} (hstep : vm.Step env act vm' out) : vm'.Sound :=
  ⟨h.referenced.step hstep, h.calls.step h.referenced hstep, h.once.step h.referenced hstep⟩

namespace Link

variable {s : Link} {p q : HabPchan} {env : Env} {act : VmAct} {vm' : HabVm}
  {out : List (HabPchan × HabMsg)}

structure Handshake (s : Link) : Prop where
  front : s.front.Sound
  back : s.back.Sound
  atFront : s.front.AtFront
  atBack : s.back.AtBack
  numbered : s.front.Numbered
  toBack : ∀ type xdata, .request type xdata ∈ s.toBack →
    s.front.Sent type xdata.openId xdata.vchanId
  backRequests : ∀ r, s.back.requests (fun request ↦ request = r) ≠ 0 →
    s.front.Sent r.type r.xdata.openId r.xdata.vchanId
  backVchan : ∀ w < s.back.nextVchan,
    s.front.Sent .init (s.back.vchan w).sessionId (s.back.vchan w).otherendId
  toFront : ∀ type xdata, .request type xdata ∈ s.toFront →
    s.back.Answered xdata.openId xdata.vchanId
  frontRequests : ∀ r, s.front.requests (fun request ↦ request = r) ≠ 0 →
    s.back.Answered r.xdata.openId r.xdata.vchanId
  /-- A vchan that the front end has returned is paired. -/
  paired : ∀ v, s.front.returned v ≠ 0 →
    s.back.Answered (s.front.vchan v).sessionId (s.front.vchan v).otherendId
  asked : ∀ v < s.front.nextVchan, s.front.Known v →
    s.asked (s.front.vchan v).sessionId ≤ 1

/-- What arrives and is put into the queue is what was sent. -/
theorem arrives_eq {pchan : HabPchan} {msg : HabMsg}
    {r : HabOpenRequest HabPchan}
    (hr : (VmAct.receive pchan msg).arrives (fun request ↦ request = r) ≠ 0) :
    ∃ type xdata, msg = .request type xdata ∧ r.type = type ∧ r.xdata.openId = xdata.openId ∧
      r.xdata.vchanId = xdata.vchanId := by
  cases msg with
  | request type xdata =>
      have heq : queuedRequest type pchan xdata = r := by
        by_contra hne
        simp [VmAct.arrives, hne] at hr
      subst heq
      refine ⟨type, xdata, rfl, rfl, ?_, ?_⟩
      · simp only [queuedRequest]
        split <;> rfl
      · simp only [queuedRequest]
        split <;> rfl
  | data id sessionId message => exact absurd rfl hr
  | close id sessionId => exact absurd rfl hr

theorem arrives_asksFor (pchan : HabPchan) (msg : HabMsg) (session : UInt32) :
    (VmAct.receive pchan msg).arrives (HabOpenRequest.asksFor session) =
      (msg.asksFor session).toNat := by
  cases msg with
  | request type xdata =>
      have hopenId : (queuedRequest type pchan xdata).xdata.openId = xdata.openId := by
        simp only [queuedRequest]
        split <;> rfl
      simp only [VmAct.arrives, HabOpenRequest.asksFor, hopenId, HabMsg.asksFor]
      rfl
  | data id sessionId message => rfl
  | close id sessionId => rfl

/-- A session that no vchan of the front end has has not been asked for. -/
theorem Handshake.asked_eq_zero (h : s.Handshake) {session : UInt32}
    (hnew : ∀ v < s.front.nextVchan, (s.front.vchan v).sessionId ≠ session) :
    s.asked session = 0 := by
  have hsent : ∀ {type openId vchanId}, s.front.Sent type openId vchanId → openId ≠ session := by
    rintro type openId vchanId ⟨v, hv, rfl, -⟩
    exact hnew v hv
  have hcalls : s.front.calls.count (Call.asksFor session) = 0 := by
    apply Pool.count_eq_zero
    intro i call hi
    cases call with
    | front o stage =>
        cases stage with
        | init =>
            have hsound := h.front.calls i _ hi
            have hlt := h.front.referenced.lt_nextVchan (h.front.referenced.refcount_ne_zero hi rfl)
            apply decide_eq_false
            rw [← hsound.openId]
            exact hnew o.vchan hlt
        | _ => rfl
    | _ => rfl
  have htoBack : s.toBack.countP (HabMsg.asksFor session) = 0 := by
    rw [List.countP_eq_zero]
    intro msg hmsg
    cases msg with
    | request type xdata =>
        have hne := hsent (h.toBack type xdata hmsg)
        simp [HabMsg.asksFor, hne]
    | data id sessionId message => simp [HabMsg.asksFor]
    | close id sessionId => simp [HabMsg.asksFor]
  have hrequests : s.back.requests (HabOpenRequest.asksFor session) = 0 := by
    by_contra hpos
    obtain ⟨r, hr, hasks⟩ := HabVm.exists_of_requests hpos
    have hne := hsent (h.backRequests r hr)
    simp [HabOpenRequest.asksFor, hne] at hasks
  have hsessions : s.back.sessions session = 0 := by
    apply Pool.countBelow_eq_zero
    rintro w hw _ ⟨⟩
    exact decide_eq_false (hsent (h.backVchan w hw))
  rw [Link.asked, hcalls, htoBack, hrequests, hsessions]

theorem Handshake.frontStep (h : s.Handshake) {toFront : List HabMsg}
    (hact : act.onFront p = true ∨ ∃ msg, act = .receive p msg)
    (hstep : s.front.Step env act vm' out) (hcounter : vm'.openIdCounter < 2 ^ 32)
    (harrives : ∀ r, act.arrives (fun request ↦ request = r) ≠ 0 →
      s.back.Answered r.xdata.openId r.xdata.vchanId)
    (hkeep : ∀ msg ∈ toFront, msg ∈ s.toFront) :
    Handshake ⟨vm', s.back, s.toBack ++ out.map Prod.snd, toFront⟩ := by
  have hlater := HabVm.Later.step h.front.referenced hstep
  have hnumbered := h.numbered.step h.front.referenced h.atFront hact hstep hcounter
  constructor
  case front => exact h.front.step hstep
  case back => exact h.back
  case atFront => exact h.atFront.step hact hstep
  case atBack => exact h.atBack
  case numbered => exact hnumbered
  case toBack =>
    intro type xdata hmsg
    rcases List.mem_append.mp hmsg with hmsg | hmsg
    · exact hlater.sent (h.toBack type xdata hmsg)
    · exact hstep.sent_out h.front.calls h.front.referenced h.atFront hmsg
  case backRequests => exact fun r hr ↦ hlater.sent (h.backRequests r hr)
  case backVchan => exact fun w hw ↦ hlater.sent (h.backVchan w hw)
  case toFront => exact fun type xdata hmsg ↦ h.toFront type xdata (hkeep _ hmsg)
  case frontRequests =>
    intro r hr
    have hnew : vm'.requests (fun request ↦ request = r) ≠ 0 := hr
    have hle := hstep.requests_le fun request ↦ request = r
    by_cases hold : s.front.requests (fun request ↦ request = r) = 0
    · apply harrives
      intro hzero
      omega
    · exact h.frontRequests r hold
  case paired =>
    intro v hv
    by_cases hold : s.front.returned v = 0
    · -- a `frontend_open` returns the vchan, with the answer it has taken
      rcases hstep.returned_cases v with heq | ⟨i, call, hi, hcall, hvchan, hreturns⟩
      · exact absurd (heq.trans hold) hv
      · rcases hreturns with ⟨o, request, rfl⟩ | ⟨r, ended, request, rfl, -⟩
        · cases hcall
          have hsound := h.front.calls i _ hi
          have hlt := h.front.referenced.lt_nextVchan (h.front.referenced.refcount_ne_zero hi rfl)
          have hknown := h.frontRequests request (HabVm.requests_of_taken hi rfl)
          have hopenId : request.xdata.openId = o.openId := by
            have hanswers := hsound.answers request rfl
            have hpos := (h.numbered.le o.vchan hlt).1
            rw [hsound.openId] at hpos
            rw [HabOpenRequest.answers] at hanswers
            simp only [Bool.and_eq_true, Bool.or_eq_true, decide_eq_true_eq] at hanswers
            rcases hanswers.1.2 with hzero | heq
            · have hne : o.openId = 0 := hzero
              rw [hne] at hpos
              exact absurd hpos (by decide)
            · exact heq
          rw [hopenId] at hknown
          show s.back.Answered (vm'.vchan o.vchan).sessionId (vm'.vchan o.vchan).otherendId
          rw [hvchan, hsound.openId, hsound.paired request rfl]
          exact hknown
        · cases h.atFront i _ hi
    · have hlt := h.front.once.lt v hold
      have hother : (vm'.vchan v).otherendId = (s.front.vchan v).otherendId := by
        apply hstep.otherendId_eq hlt
        rintro i o stage hi rfl
        have hpos : 0 < s.front.calls.count (Call.opens o.vchan) :=
          Pool.count_pos hi (by simp [Call.opens, Call.handshake, Call.holds, Call.vchan])
        have honce := h.front.once.once o.vchan
        omega
      show s.back.Answered (vm'.vchan v).sessionId (vm'.vchan v).otherendId
      rw [hother, (hlater.vchan v hlt).sessionId]
      exact h.paired v hold
  case asked =>
    intro v hv hknown
    have hle := hstep.asksFor_le h.front.calls h.front.referenced h.atFront h.numbered h.front.once
      hact hcounter hv hknown
    have hcount : Link.asked ⟨vm', s.back, s.toBack ++ out.map Prod.snd, toFront⟩
        (vm'.vchan v).sessionId ≤ s.asked (vm'.vchan v).sessionId +
          if v < s.front.nextVchan then 0 else 1 := by
      simp only [Link.asked, List.countP_append]
      omega
    refine hcount.trans ?_
    by_cases hold : v < s.front.nextVchan
    · rw [if_pos hold, (hlater.vchan v hold).sessionId]
      exact h.asked v hold (hstep.known h.front.referenced hold hknown)
    · rw [if_neg hold, h.asked_eq_zero]
      intro u hu heq
      have hsame : u = v := by
        apply hnumbered.inj u v (Nat.lt_of_lt_of_le hu hlater.nextVchan) hv
        rw [(hlater.vchan u hu).sessionId]
        exact heq
      exact hold (hsame ▸ hu)

theorem Handshake.backStep (h : s.Handshake) {toBack : List HabMsg}
    (hact : act.onBack = true ∨ ∃ msg, act = .receive q msg)
    (hstep : s.back.Step env act vm' out)
    (harrives : ∀ r, act.arrives (fun request ↦ request = r) ≠ 0 →
      s.front.Sent r.type r.xdata.openId r.xdata.vchanId)
    (hkeep : ∀ msg ∈ toBack, msg ∈ s.toBack)
    (hcount : ∀ session, toBack.countP (HabMsg.asksFor session) +
      act.arrives (HabOpenRequest.asksFor session) ≤ s.toBack.countP (HabMsg.asksFor session)) :
    Handshake ⟨s.front, vm', toBack, s.toFront ++ out.map Prod.snd⟩ := by
  have hlater := HabVm.Later.step h.back.referenced hstep
  constructor
  case front => exact h.front
  case back => exact h.back.step hstep
  case atFront => exact h.atFront
  case atBack => exact h.atBack.step hact hstep
  case numbered => exact h.numbered
  case toBack => exact fun type xdata hmsg ↦ h.toBack type xdata (hkeep _ hmsg)
  case backRequests =>
    intro r hr
    have hnew : vm'.requests (fun request ↦ request = r) ≠ 0 := hr
    have hle := hstep.requests_le fun request ↦ request = r
    by_cases hold : s.back.requests (fun request ↦ request = r) = 0
    · apply harrives
      intro hzero
      omega
    · exact h.backRequests r hold
  case backVchan =>
    intro w hw
    show s.front.Sent .init (vm'.vchan w).sessionId (vm'.vchan w).otherendId
    by_cases hold : w < s.back.nextVchan
    · have hother : (vm'.vchan w).otherendId = (s.back.vchan w).otherendId := by
        apply hstep.otherendId_eq hold
        intro i o stage hi
        cases h.atBack i _ hi
      rw [hother, (hlater.vchan w hold).sessionId]
      exact h.backVchan w hold
    · obtain ⟨i, call, request, hi, htaken, hinit, hsession, hother⟩ :=
        hstep.taken_of_new h.back.calls hact hw hold
      obtain ⟨v, hv, hopenId, hid⟩ := h.backRequests request (HabVm.requests_of_taken hi htaken)
      rw [hsession, hother]
      exact ⟨v, hv, hopenId, fun _ ↦ hid hinit⟩
  case toFront =>
    intro type xdata hmsg
    rcases List.mem_append.mp hmsg with hmsg | hmsg
    · exact hlater.answered (h.toFront type xdata hmsg)
    · exact hstep.answered_out h.back.calls h.back.referenced h.atBack hmsg
  case frontRequests => exact fun r hr ↦ hlater.answered (h.frontRequests r hr)
  case paired => exact fun v hv ↦ hlater.answered (h.paired v hv)
  case asked =>
    intro v hv hknown
    have hle := hstep.asked_le h.back.calls h.back.referenced hact (s.front.vchan v).sessionId
    have hout := hcount (s.front.vchan v).sessionId
    have hold := h.asked v hv hknown
    simp only [Link.asked] at hold ⊢
    omega

theorem Handshake.start : start.Handshake := by
  have hrequests : ∀ test, HabVm.init.requests test = 0 := fun _ ↦ rfl
  constructor
  case front => exact ⟨.init, .init, .init⟩
  case back => exact ⟨.init, .init, .init⟩
  case numbered => exact ⟨fun v hv ↦ absurd hv (Nat.not_lt_zero v),
    fun v _ hv ↦ absurd hv (Nat.not_lt_zero v)⟩
  case atFront | atBack => exact fun i call hi ↦ by cases hi
  case toBack | toFront => exact fun type xdata hmsg ↦ by cases hmsg
  case backRequests | frontRequests => exact fun r hr ↦ absurd (hrequests _) hr
  case backVchan => exact fun w hw ↦ absurd hw (Nat.not_lt_zero w)
  case paired => exact fun v hv ↦ absurd rfl hv
  case asked => exact fun v hv ↦ absurd hv (Nat.not_lt_zero v)

theorem Step.openIdCounter_le {t : Link} (hstep : s.Step p q t) :
    s.front.openIdCounter ≤ t.front.openIdCounter := by
  cases hstep with
  | front act env vm' out hact hstep => exact hstep.openIdCounter_le
  | back act env vm' out hact hstep => exact Nat.le_refl _
  | deliverBack env msg rest hmsgs => exact Nat.le_refl _
  | deliverFront env msg rest hmsgs => exact (HabVm.Step.receives p msg).openIdCounter_le

theorem Handshake.step {t : Link} (h : s.Handshake) (hstep : s.Step p q t)
    (hcounter : t.front.openIdCounter < 2 ^ 32) : t.Handshake := by
  cases hstep with
  | front act env vm' out hact hstep =>
      apply h.frontStep (.inl hact) hstep hcounter
      · intro r hr
        cases act <;> first | exact absurd rfl hr | simp [VmAct.onFront] at hact
      · exact fun msg hmsg ↦ hmsg
  | back act env vm' out hact hstep =>
      have hnone : ∀ test, act.arrives test = 0 := by
        intro test
        cases act <;> first | rfl | simp [VmAct.onBack] at hact
      apply h.backStep (q := q) (.inl hact) hstep
      · exact fun r hr ↦ absurd (hnone _) hr
      · exact fun msg hmsg ↦ hmsg
      · intro session
        rw [hnone]
        exact Nat.le_refl _
  | deliverBack env msg rest hmsgs =>
      have hnext : Handshake ⟨s.front, s.back.receive q env msg, rest,
          s.toFront ++ ([] : List (HabPchan × HabMsg)).map Prod.snd⟩ := by
        apply h.backStep (.inr ⟨msg, rfl⟩) (.receives q msg)
        · intro r hr
          obtain ⟨type, xdata, rfl, htype, hopenId, hid⟩ := arrives_eq hr
          rw [htype, hopenId, hid]
          exact h.toBack type xdata (by simp [hmsgs])
        · exact fun msg' hmsg ↦ hmsgs ▸ List.mem_cons_of_mem msg hmsg
        · intro session
          rw [arrives_asksFor, hmsgs, List.countP_cons]
          by_cases hasks : HabMsg.asksFor session msg = true <;> simp [hasks]
      rw [List.map_nil, List.append_nil] at hnext
      exact hnext
  | deliverFront env msg rest hmsgs =>
      have hnext : Handshake ⟨s.front.receive p env msg, s.back,
          s.toBack ++ ([] : List (HabPchan × HabMsg)).map Prod.snd, rest⟩ := by
        apply h.frontStep (.inr ⟨msg, rfl⟩) (.receives p msg) hcounter
        · intro r hr
          obtain ⟨type, xdata, rfl, htype, hopenId, hid⟩ := arrives_eq hr
          rw [hopenId, hid]
          exact h.toFront type xdata (by simp [hmsgs])
        · exact fun msg' hmsg ↦ hmsgs ▸ List.mem_cons_of_mem msg hmsg
      rw [List.map_nil, List.append_nil] at hnext
      exact hnext

theorem Handshake.exec {acts : List LinkAct} {t : Link} (h : s.Handshake)
    (hrun : Runs.exec (Link.step p q) s acts = some t) (hcounter : t.front.openIdCounter < 2 ^ 32) :
    t.Handshake := by
  -- the counter only grows, so it has been small all along
  have hinv : t.front.openIdCounter < 2 ^ 32 → t.Handshake := by
    refine Runs.invariant_of_exec (I := fun s ↦ s.front.openIdCounter < 2 ^ 32 → s.Handshake)
      ?_ (fun _ ↦ h) hrun
    intro s act t hs hstep hcounter
    have hcases := step_cases hstep
    exact (hs (Nat.lt_of_le_of_lt hcases.openIdCounter_le hcounter)).step hcases hcounter
  exact hinv hcounter

/-- The vchans of one session that a `frontend_open` and a `backend_listen` have returned
are the two ends of it, and there is no other. -/
theorem paired_of_exec (p q : HabPchan) (acts : List LinkAct) (s : Link)
    (hrun : Runs.exec (Link.step p q) start acts = some s) (hcounter : s.front.openIdCounter < 2 ^ 32)
    (f b : ℕ) (hf : s.front.returned f ≠ 0) (hb : s.back.returned b ≠ 0)
    (hsession : (s.back.vchan b).sessionId = (s.front.vchan f).sessionId) :
    (s.front.vchan f).otherendId = (s.back.vchan b).id ∧
      (s.back.vchan b).otherendId = (s.front.vchan f).id ∧
        s.back.returned b = 1 ∧
          ∀ w, s.back.returned w ≠ 0 →
            (s.back.vchan w).sessionId = (s.front.vchan f).sessionId → w = b := by
  have h := Handshake.start.exec hrun hcounter
  have hlt := h.front.once.lt f hf
  have hsame : ∀ w < s.back.nextVchan,
      (s.back.vchan w).sessionId = (s.front.vchan f).sessionId → w = b := by
    intro w hw hsession'
    have hasked := h.asked f hlt (.inr hf)
    have hsessions : s.back.sessions (s.front.vchan f).sessionId ≤ 1 :=
      (Nat.le_add_left _ _).trans hasked
    apply Pool.eq_of_countBelow_le_one hsessions hw (h.back.once.lt b hb) rfl rfl
    · exact decide_eq_true hsession'
    · exact decide_eq_true hsession
  refine ⟨?_, ?_, ?_, fun w hw ↦ hsame w (h.back.once.lt w hw)⟩
  · obtain ⟨w, hw, hsession', hid⟩ := h.paired f hf
    rw [← hid, hsame w hw hsession']
  · obtain ⟨v, hv, hsession', hid⟩ := h.backVchan b (h.back.once.lt b hb)
    have hvf : v = f := h.numbered.inj v f hv hlt (hsession'.trans hsession)
    rw [hid (.inl rfl), hvf]
  · have honce := h.back.once.once b
    omega

/-- An open: INIT, INIT_ACK, INIT_DONE. -/
def oneOpen (pchan : HabPchan) (id : Fin 4096) : List LinkAct :=
  [.front (.frontendOpen 0 pchan 0 zeroRequest) { idr := some id },
    .front (.advance 0) {},
    .back (.backendListen ⟨0, 0, false⟩) {},
    .deliverBack {},
    .back (.advance 0) {},
    .back (.advance 0) { idr := some id },
    .back (.advance 0) {},
    .deliverFront {},
    .front (.advance 0) {},
    .front (.advance 0) {},
    .front (.advance 0) {},
    .deliverBack {},
    .back (.advance 0) {},
    .back (.advance 0) {}]

theorem paired_of_exec_oneOpen :
    ∃ s, Runs.exec (Link.step ⟨⟨0, by decide⟩, ⟨0, by decide⟩⟩ ⟨⟨0, by decide⟩, ⟨0, by decide⟩⟩)
        start (oneOpen ⟨⟨0, by decide⟩, ⟨0, by decide⟩⟩ ⟨1, by decide⟩) = some s ∧
      (s.front.vchan 0).otherendId = (s.back.vchan 0).id := by
  have hseen : (Runs.exec (Link.step ⟨⟨0, by decide⟩, ⟨0, by decide⟩⟩
      ⟨⟨0, by decide⟩, ⟨0, by decide⟩⟩) start
      (oneOpen ⟨⟨0, by decide⟩, ⟨0, by decide⟩⟩ ⟨1, by decide⟩)).map
        (fun s ↦ (s.front.openIdCounter, s.front.returned 0, s.back.returned 0,
          (s.back.vchan 0).sessionId, (s.front.vchan 0).sessionId)) = some (1, 1, 1, 1, 1) := by
    decide
  obtain ⟨s, hrun, hs⟩ := Option.map_eq_some_iff.mp hseen
  simp only [Prod.mk.injEq] at hs
  obtain ⟨hcounter, hf, hb, hback, hfront⟩ := hs
  refine ⟨s, hrun, (paired_of_exec _ _ _ _ hrun ?_ 0 0 ?_ ?_ ?_).1⟩
  · rw [hcounter]
    decide
  · rw [hf]
    decide
  · rw [hb]
    decide
  · rw [hback, hfront]

end Link

end Hab
