import Hab.VmCalls

/-!
# Requests and results of the opens of a VM

A request that has arrived is in the open queue, or a call has taken it, or it is used
up.  An open returns once.
-/

namespace Hab

/-- What the last wait of a call took. -/
def Call.taken : Call → Option (HabOpenRequest HabPchan)
  | .front _ stage => stage.taken
  | .listen _ (.woken _ recv) => recv
  | .round _ stage => stage.taken
  | _ => none

/-- The call is a `frontend_open` or a `backend_listen` with a vchan. -/
def Call.handshake : Call → Bool
  | .front _ _ | .round _ _ => true
  | _ => false

/-- The open returns the vchan. -/
def OpenReturn.returns (v : ℕ) (ret : OpenReturn) : Bool :=
  ret.error = none && ret.vchan = some v

/-- The call is an open that works on the vchan. -/
def Call.opens (v : ℕ) (call : Call) : Bool := call.handshake && call.holds v

/-- How many requests that pass the test arrive in a step, at most. -/
def VmAct.arrives (test : HabOpenRequest HabPchan → Bool) : VmAct → ℕ
  | .receive pchan (.request type xdata) => (test (queuedRequest type pchan xdata)).toNat
  | _ => 0

theorem Call.toNat_opens {v w : ℕ} {call : Call} (hopen : call.handshake = true)
    (hw : call.vchan = some w) : (call.opens v).toNat = if v = w then 1 else 0 := by
  rw [Call.opens, hopen, Bool.true_and, Call.toNat_holds hw]

namespace HabVm

variable {vm vm' : HabVm} {i v : ℕ} {env : Env} {call : Call} {act : VmAct}
  {out : List (HabPchan × HabMsg)}

/-- How many requests that pass the test are in the open queue or taken. -/
def requests (vm : HabVm) (test : HabOpenRequest HabPchan → Bool) : ℕ :=
  vm.dev.countQueued test + vm.calls.count fun call ↦ call.taken.any test

/-- What a call has taken passes no test that nothing passes. -/
theorem taken_of_requests {test : HabOpenRequest HabPchan → Bool} (hzero : vm.requests test = 0)
    (hi : vm.calls.get i = some call) {r : HabOpenRequest HabPchan} (hr : call.taken = some r) :
    test r = false := by
  have hcount : vm.calls.count (fun call ↦ call.taken.any test) = 0 := by
    rw [requests] at hzero
    omega
  simpa [hr] using Pool.eq_false_of_count_eq_zero hcount hi

theorem requests_of_taken (hi : vm.calls.get i = some call) {r : HabOpenRequest HabPchan}
    (hr : call.taken = some r) : vm.requests (fun request ↦ request = r) ≠ 0 := by
  intro hzero
  simpa using taken_of_requests hzero hi hr

/-- A call goes on, and the open queue has changed. -/
theorem requests_set (hi : vm.calls.get i = some call) {next : Option Call}
    (hcalls : vm'.calls = vm.calls.set i next) (test : HabOpenRequest HabPchan → Bool) :
    vm'.requests test + vm.dev.countQueued test + (call.taken.any test).toNat =
      vm.requests test + vm'.dev.countQueued test +
        (next.any fun call ↦ call.taken.any test).toNat := by
  have hcount : (vm.calls.set i next).count (fun call ↦ call.taken.any test) +
      (call.taken.any test).toNat = vm.calls.count (fun call ↦ call.taken.any test) +
        (next.any fun call ↦ call.taken.any test).toNat := Pool.count_set hi next
  rw [requests, requests, hcalls]
  omega

theorem openqList_release (next : Option Call) :
    (vm.release i v next).dev.openqList = vm.dev.openqList := by
  by_cases h : (vm.vchan v).refcount = 1 <;>
    simp [HabVm.release, HabVm.become, vchanPut, h, write]

theorem openqList_openErr (pchan : HabPchan) (next : Option Call) (result : List OpenReturn) :
    (vm.openErr i v pchan next result).dev.openqList = vm.dev.openqList := by
  by_cases h : (vm.vchan v).refcount = 1 <;>
    simp [openErr, vchanPut, h, write]

theorem nextVchan_openErr (pchan : HabPchan) (next : Option Call) (result : List OpenReturn) :
    (vm.openErr i v pchan next result).nextVchan = vm.nextVchan :=
  @nextVchan_release vm i v next

theorem countQueued_congr {dev dev' : HabDevice HabPchan} (h : dev'.openqList = dev.openqList)
    (test : HabOpenRequest HabPchan → Bool) : dev'.countQueued test = dev.countQueued test := by
  rw [HabDevice.countQueued, HabDevice.countQueued, h]

/-- A call goes on with what it has taken, or without it. -/
theorem requests_le_of_set (hi : vm.calls.get i = some call) {next : Option Call}
    (hcalls : vm'.calls = vm.calls.set i next) (hqueue : vm'.dev.openqList = vm.dev.openqList)
    (htaken : (next.bind Call.taken) = none ∨ (next.bind Call.taken) = call.taken)
    (test : HabOpenRequest HabPchan → Bool) : vm'.requests test ≤ vm.requests test := by
  have hset := requests_set hi hcalls test
  have hcount := countQueued_congr hqueue test
  have hany : (next.any fun call ↦ call.taken.any test) = (next.bind Call.taken).any test := by
    cases next <;> rfl
  rw [hany, hcount] at hset
  rcases htaken with htaken | htaken
  · rw [htaken] at hset
    simp only [Option.any_none, Bool.toNat_false] at hset
    omega
  · rw [htaken] at hset
    omega

/-- A call looks at the queue again. -/
theorem requests_poll {listen : HabOpenRequest (Option HabPchan)} {dev : HabDevice HabPchan}
    (hdev : Polled vm.pchanClosed vm.dev listen dev none) (test : HabOpenRequest HabPchan → Bool) :
    requests { vm with dev := dev } test ≤ vm.requests test := by
  have hcount := hdev.count_le test
  simp only [Option.any_none, Bool.toNat_false, Nat.add_zero] at hcount
  exact Nat.add_le_add_right hcount _

theorem requests_woken (hi : vm.calls.get i = some call) {next : Call}
    {listen : HabOpenRequest (Option HabPchan)} {recv : Option (HabOpenRequest HabPchan)}
    (hdev : Polled vm.pchanClosed vm.dev listen vm'.dev recv)
    (hcalls : vm'.calls = vm.calls.set i (some next)) (hnext : next.taken = recv)
    (test : HabOpenRequest HabPchan → Bool) : vm'.requests test ≤ vm.requests test := by
  have hcount := hdev.count_le test
  have hset := requests_set hi hcalls test
  simp only [Option.any_some, hnext] at hset
  omega

/-- A call does not bring requests about. -/
theorem Advance.requests_le (hi : vm.calls.get i = some call) (h : vm.Advance i env call vm' out)
    (test : HabOpenRequest HabPchan → Bool) : vm'.requests test ≤ vm.requests test := by
  cases h
  case frontPoll dev hdev => exact requests_poll hdev test
  case listenPoll dev hdev => exact requests_poll hdev test
  case roundPoll dev hdev => exact requests_poll hdev test
  case sendAgain => exact Nat.le_refl _
  case frontWoken dev ended recv hdev hmet =>
    apply requests_woken hi hdev
    · rfl
    · rfl
  case listenWoken dev ended recv hdev hmet =>
    apply requests_woken hi hdev
    · rfl
    · rfl
  case roundAnswered dev ended recv hdev hmet =>
    apply requests_woken hi hdev
    · rfl
    · rfl
  case frontPair | frontGiveUp | roundGiveUp =>
    apply requests_le_of_set hi
    · rfl
    · rfl
    · exact .inr rfl
  case listenErr hqueue _ =>
    apply requests_le_of_set hi
    · rfl
    · exact hqueue
    · exact .inl rfl
  case frontErr | frontCancel | roundErr | roundCancel | roundRetry =>
    apply requests_le_of_set hi
    · exact calls_release
    · exact openqList_openErr _ _ _
    · exact .inl rfl
  case sent | sendErr | dequeue | stopped =>
    apply requests_le_of_set hi
    · exact calls_release
    · exact openqList_release _
    · exact .inl rfl
  all_goals
    apply requests_le_of_set hi
    · rfl
    · rfl
    · exact .inl rfl

/-- `backend_listen` uses up the request that it gets a vchan for. -/
theorem requests_backTake {l : BackListen} {ended : WaitEnd} {request : HabOpenRequest HabPchan}
    (hi : vm.calls.get i = some (.listen l (.woken ended (some request)))) (id : Fin 4096)
    (test : HabOpenRequest HabPchan → Bool) :
    ((vm.backHear request).backTake i l request id).requests test + (test request).toNat =
      vm.requests test := by
  have hcalls : ((vm.backHear request).backTake i l request id).calls =
      vm.calls.set i (some (.round ⟨l, request, vm.nextVchan⟩ .ack)) := rfl
  have hset := requests_set hi hcalls test
  have hcount : ((vm.backHear request).backTake i l request id).dev.countQueued test =
      vm.dev.countQueued test := rfl
  rw [hcount] at hset
  simp only [Call.taken, Option.any_some, RoundStage.taken, Option.any_none, Bool.toNat_false]
    at hset
  omega

theorem requests_receive (vm : HabVm) (pchan : HabPchan) (env : Env) (msg : HabMsg)
    (test : HabOpenRequest HabPchan → Bool) :
    (vm.receive pchan env msg).requests test ≤
      vm.requests test + (VmAct.receive pchan msg).arrives test := by
  have hcalls : (vm.receive pchan env msg).calls = vm.calls := by
    obtain ⟨dev, vchan, heq⟩ := vm.receive_eq pchan env msg
    rw [heq]
  rw [requests, requests, hcalls]
  suffices hdev : (vm.receive pchan env msg).dev.countQueued test ≤
      vm.dev.countQueued test + (VmAct.receive pchan msg).arrives test by
    omega
  cases msg with
  | request type xdata =>
      cases type with
      | init => exact countQueued_requestAdd vm.dev pchan (by simp) xdata env.alloc env.now test
      | initAck => exact countQueued_requestAdd vm.dev pchan (by simp) xdata env.alloc env.now test
      | initDone => exact countQueued_requestAdd vm.dev pchan (by simp) xdata env.alloc env.now test
      | initCancel => exact countQueued_receiveCancel vm.dev pchan xdata env.alloc env.now test
      | _ => exact Nat.le_add_right _ _
  | data id sessionId message =>
      simp only [receive]
      split
      · exact Nat.le_refl _
      · split <;> exact Nat.le_refl _
  | close id sessionId =>
      simp only [receive]
      split <;> exact Nat.le_refl _

theorem requests_spawn (hcalls : vm'.calls = vm.calls.spawn call) (htaken : call.taken = none)
    (hqueue : vm'.dev.openqList = vm.dev.openqList) (test : HabOpenRequest HabPchan → Bool) :
    vm'.requests test = vm.requests test := by
  rw [requests, requests, hcalls, Pool.count_spawn, htaken, countQueued_congr hqueue]
  rfl

/-- Only what arrives adds to the requests of a VM. -/
theorem Step.requests_le (h : vm.Step env act vm' out) (test : HabOpenRequest HabPchan → Bool) :
    vm'.requests test ≤ vm.requests test + act.arrives test := by
  cases h
  case opens | listens | sends | recvs | closes =>
    apply Nat.le_of_eq
    apply requests_spawn
    · rfl
    · rfl
    · rfl
  case receives pchan msg => exact requests_receive vm pchan env msg test
  case advances i call hi hadvance => exact hadvance.requests_le hi test
  all_goals exact Nat.le_refl _

/-! ## Returning once -/

/-- How many opens have returned the vchan. -/
def returned (vm : HabVm) (v : ℕ) : ℕ := vm.returns.countP (OpenReturn.returns v)

/-- An open that works on a vchan has not returned it, and is the only one that does. -/
structure ReturnsOnce (vm : HabVm) : Prop where
  once : ∀ v, vm.returned v + vm.calls.count (Call.opens v) ≤ 1
  lt : ∀ v, vm.returned v ≠ 0 → v < vm.nextVchan

theorem ReturnsOnce.init : HabVm.init.ReturnsOnce where
  once := fun _ ↦ Nat.zero_le 1
  lt := fun _ h ↦ absurd rfl h

/-- The call goes on, and may return. -/
theorem ReturnsOnce.set (h : vm.ReturnsOnce) (href : vm.Referenced)
    (hi : vm.calls.get i = some call) {next : Option Call} {result : List OpenReturn}
    (hcalls : vm'.calls = vm.calls.set i next) (hreturns : vm'.returns = vm.returns ++ result)
    (hnext : vm'.nextVchan = vm.nextVchan)
    (hcount : ∀ v, result.countP (OpenReturn.returns v) + (next.any (Call.opens v)).toNat ≤
      (call.opens v).toNat) : vm'.ReturnsOnce := by
  constructor
  · intro v
    have hold := h.once v
    have hset : (vm.calls.set i next).count (Call.opens v) + (call.opens v).toNat =
        vm.calls.count (Call.opens v) + (next.any (Call.opens v)).toNat := Pool.count_set hi next
    have hv := hcount v
    rw [returned, hreturns, hcalls, List.countP_append, ← returned]
    omega
  · intro v hv
    rw [returned, hreturns, List.countP_append, ← returned] at hv
    rw [hnext]
    by_cases hold : vm.returned v = 0
    · have hopens : call.opens v = true := by
        by_contra hno
        have hle := hcount v
        rw [Bool.not_eq_true] at hno
        rw [hno, Bool.toNat_false] at hle
        omega
      rw [Call.opens, Bool.and_eq_true, Call.holds_eq_true] at hopens
      exact href.lt_nextVchan (href.refcount_ne_zero hi hopens.2)
    · exact h.lt v hold

/-- An open starts to work on a new vchan. -/
theorem ReturnsOnce.take (h : vm.ReturnsOnce) (href : vm.Referenced) {calls : Pool Call}
    (hcalls : ∀ v, calls.count (Call.opens v) ≤
      vm.calls.count (Call.opens v) + if v = vm.nextVchan then 1 else 0)
    (hvm : vm'.calls = calls) (hreturns : vm'.returns = vm.returns)
    (hnext : vm'.nextVchan = vm.nextVchan + 1) : vm'.ReturnsOnce := by
  have hreturned : ∀ v, vm'.returned v = vm.returned v := by
    intro v
    rw [returned, hreturns, returned]
  constructor
  · intro v
    have hold := h.once v
    have hle := hcalls v
    rw [hreturned, hvm]
    by_cases hv : v = vm.nextVchan
    · subst hv
      have hzero : vm.calls.count (Call.opens vm.nextVchan) = 0 := by
        apply Pool.count_eq_zero
        intro j k hk
        have hne := href.not_holds_nextVchan hk
        simp [Call.opens, Call.holds, hne]
      have hnone : vm.returned vm.nextVchan = 0 := by
        by_contra hsome
        exact Nat.lt_irrefl _ (h.lt _ hsome)
      rw [if_pos rfl] at hle
      omega
    · rw [if_neg hv] at hle
      omega
  · intro v hv
    rw [hnext]
    exact Nat.lt_succ_of_lt (h.lt v (hreturned v ▸ hv))

theorem ReturnsOnce.advance (h : vm.ReturnsOnce) (href : vm.Referenced)
    (hi : vm.calls.get i = some call) (hstep : vm.Advance i env call vm' out) :
    vm'.ReturnsOnce := by
  cases hstep
  case frontPoll | listenPoll | roundPoll | sendAgain => exact ⟨h.once, h.lt⟩
  case frontAccept o request =>
    apply h.set href hi
    · rfl
    · rfl
    · rfl
    · intro v
      by_cases hv : o.vchan = v <;>
        simp [OpenReturn.returns, Call.opens, Call.handshake, Call.holds, Call.vchan, hv]
  case roundAccept r ended request haccept =>
    apply h.set href hi
    · rfl
    · rfl
    · rfl
    · intro v
      by_cases hv : r.vchan = v <;>
        simp [OpenReturn.returns, Call.opens, Call.handshake, Call.holds, Call.vchan, hv]
  case listenTake l ended request id haccept hfree =>
    apply h.take href
    · intro v
      have hset : (vm.calls.set i (some (.round ⟨l, request, vm.nextVchan⟩ .ack))).count
          (Call.opens v) + _ = vm.calls.count (Call.opens v) + _ := Pool.count_set hi _
      have hnew : (Call.opens v (.round ⟨l, request, vm.nextVchan⟩ .ack)).toNat =
          if v = vm.nextVchan then 1 else 0 := Call.toNat_opens rfl rfl
      rw [Option.any_some, hnew] at hset
      exact Nat.le_trans (Nat.le_add_right _ _) hset.le
    · rfl
    · rfl
    · rfl
  case frontErr | frontCancel | roundErr | roundCancel | roundRetry =>
    apply h.set href hi
    · exact calls_release
    · rfl
    · exact nextVchan_openErr _ _ _
    · intro v
      simp [OpenReturn.returns, Call.opens, Call.handshake]
  case sent | sendErr | dequeue | stopped =>
    apply h.set href hi
    · exact calls_release
    · exact returns_release.trans (List.append_nil _).symm
    · exact nextVchan_release
    · intro v
      exact Nat.zero_le _
  case listenErr =>
    apply h.set href hi
    · rfl
    · rfl
    · rfl
    · intro v
      simp [OpenReturn.returns]
  all_goals
    apply h.set href hi
    · rfl
    · exact (List.append_nil _).symm
    · rfl
    · intro v
      simp [Call.opens, Call.handshake, Call.holds, Call.vchan]

theorem ReturnsOnce.congr (h : vm.ReturnsOnce) (hreturns : vm'.returns = vm.returns)
    (hcalls : ∀ v, vm'.calls.count (Call.opens v) = vm.calls.count (Call.opens v))
    (hnext : vm'.nextVchan = vm.nextVchan) : vm'.ReturnsOnce := by
  have hreturned : ∀ v, vm'.returned v = vm.returned v := by
    intro v
    rw [returned, hreturns, returned]
  constructor
  · intro v
    rw [hreturned, hcalls]
    exact h.once v
  · intro v hv
    rw [hnext]
    exact h.lt v (hreturned v ▸ hv)

theorem ReturnsOnce.step (h : vm.ReturnsOnce) (href : vm.Referenced)
    (hstep : vm.Step env act vm' out) : vm'.ReturnsOnce := by
  have hspawn : ∀ {call : Call} (v : ℕ), call.handshake = false →
      (vm.calls.spawn call).count (Call.opens v) = vm.calls.count (Call.opens v) := by
    intro call v hno
    rw [Pool.count_spawn, Call.opens, hno]
    rfl
  cases hstep
  case openFails =>
    refine ⟨fun v ↦ ?_, fun v hv ↦ h.lt v ?_⟩
    · have hold := h.once v
      simpa [returned, OpenReturn.returns] using hold
    · simpa [returned, OpenReturn.returns] using hv
  case opens ctx pchan subId request id hfree =>
    apply h.take href
    · intro v
      have hnew : (Call.opens v (.front ⟨ctx, pchan, subId, UInt32.ofNat (vm.openIdCounter + 1),
          vm.nextVchan, request⟩ .init)).toNat = if v = vm.nextVchan then 1 else 0 :=
        Call.toNat_opens rfl rfl
      rw [Pool.count_spawn, hnew]
    · rfl
    · rfl
    · rfl
  case listens | sends | recvs | closes => exact h.congr rfl (fun v ↦ hspawn v rfl) rfl
  case receives pchan msg =>
    obtain ⟨dev, vchan, heq⟩ := vm.receive_eq pchan env msg
    rw [heq]
    exact h.congr rfl (fun _ ↦ rfl) rfl
  case advances i call hi hadvance => exact h.advance href hi hadvance
  all_goals exact h.congr rfl (fun _ ↦ rfl) rfl

end HabVm

/-! ## How calls go on -/

/-- What a call can become. -/
inductive Call.GoesOn : Call → Call → Prop where
  | front (o : FrontOpen) (stage stage' : FrontStage) : GoesOn (.front o stage) (.front o stage')
  | frontReturns (o : FrontOpen) (stage : FrontStage) : GoesOn (.front o stage) (.opened o.vchan)
  | listen (l : BackListen) (stage stage' : ListenStage) :
      GoesOn (.listen l stage) (.listen l stage')
  | take (l : BackListen) (stage : ListenStage) (request : HabOpenRequest HabPchan) (v : ℕ) :
      GoesOn (.listen l stage) (.round ⟨l, request, v⟩ .ack)
  | round (r : BackRound) (stage stage' : RoundStage) : GoesOn (.round r stage) (.round r stage')
  | retry (r : BackRound) (stage : RoundStage) : GoesOn (.round r stage) (.listen r.listen .wait)
  | roundReturns (r : BackRound) (stage : RoundStage) : GoesOn (.round r stage) (.opened r.vchan)
  | closing (v : ℕ) : GoesOn (.closing v) (.stopping v)

/-- What call starts with an act. -/
inductive VmAct.Starts : VmAct → Call → Prop where
  | front (ctx : ℕ) (pchan : HabPchan) (subId : UInt32)
      (request : HabOpenRequest (Option HabPchan)) (openId : UInt32) (v : ℕ) :
      Starts (.frontendOpen ctx pchan subId request)
        (.front ⟨ctx, pchan, subId, openId, v, request⟩ .init)
  | listen (l : BackListen) : Starts (.backendListen l) (.listen l .wait)
  | sending (ctx : ℕ) (vcid : UInt32) (message : Message) (nonblocking : Bool) (v : ℕ) :
      Starts (.send ctx vcid message nonblocking) (.sending v message nonblocking)
  | receiving (ctx : ℕ) (vcid : UInt32) (v : ℕ) : Starts (.recv ctx vcid) (.receiving v)
  | closing (ctx : ℕ) (vcid : UInt32) (v : ℕ) : Starts (.close ctx vcid) (.closing v)

namespace HabVm

variable {vm vm' : HabVm} {i v : ℕ} {env : Env} {call : Call} {act : VmAct}
  {out : List (HabPchan × HabMsg)}

/-- The call that makes the step is afterwards what it was, or what it goes on as. -/
theorem Advance.goesOn (hi : vm.calls.get i = some call) (h : vm.Advance i env call vm' out)
    {k : Call} (hk : vm'.calls.get i = some k) : k = call ∨ call.GoesOn k := by
  have hlt := Pool.lt_next hi
  have hset : ∀ {next : Option Call}, (vm.calls.set i next).get i = some k → next = some k :=
    fun hnext ↦ (Pool.get_set_self hlt _).symm.trans hnext
  cases h
  case frontPoll | listenPoll | roundPoll | sendAgain =>
    exact .inl (Option.some.inj (hk.symm.trans hi))
  case frontErr | frontCancel | roundErr | roundCancel | roundRetry =>
    rw [openErr] at hk
    simp only [calls_release] at hk
    cases hset hk
    all_goals exact .inr (.retry _ _)
  case sent | sendErr | dequeue | stopped =>
    rw [calls_release] at hk
    cases hset hk
  case frontInit | frontWoken | frontPair | frontGiveUp =>
    cases hset hk
    exact .inr (.front _ _ _)
  case frontAccept =>
    cases hset hk
    exact .inr (.frontReturns _ _)
  case listenWoken =>
    cases hset hk
    exact .inr (.listen _ _ _)
  case listenErr | publish => cases hset hk
  case listenTake =>
    cases hset hk
    exact .inr (.take _ _ _ _)
  case roundAck | roundAnswered | roundGiveUp =>
    cases hset hk
    exact .inr (.round _ _ _)
  case roundAccept =>
    cases hset hk
    exact .inr (.roundReturns _ _)
  case closeSent | closeSkip =>
    cases hset hk
    exact .inr (.closing _)

/-- What holds of all calls, of what they go on as and of those that start, holds after a
step. -/
theorem Step.forall_calls {P : Call → Prop} (h : vm.Step env act vm' out)
    (hold : ∀ i call, vm.calls.get i = some call → P call)
    (hgoesOn : ∀ call k : Call, call.GoesOn k → P call → P k)
    (hstart : ∀ k, act.Starts k → P k) : ∀ i call, vm'.calls.get i = some call → P call := by
  intro j k hk
  have hspawn : ∀ {new : Call}, act.Starts new → (vm.calls.spawn new).get j = some k → P k := by
    intro new hnew hget
    rcases Pool.get_spawn.mp hget with ⟨-, rfl⟩ | hget
    · exact hstart _ hnew
    · exact hold j k hget
  cases h
  case opens => exact hspawn (.front _ _ _ _ _ _) hk
  case listens => exact hspawn (.listen _) hk
  case sends => exact hspawn (.sending _ _ _ _ _) hk
  case recvs => exact hspawn (.receiving _ _ _) hk
  case closes => exact hspawn (.closing _ _ _) hk
  case receives pchan msg =>
    obtain ⟨dev, vchan, heq⟩ := vm.receive_eq pchan env msg
    rw [heq] at hk
    exact hold j k hk
  case advances i call hi hadvance =>
    by_cases hj : j = i
    · subst hj
      rcases hadvance.goesOn hi hk with rfl | hgoes
      · exact hold j k hi
      · exact hgoesOn call k hgoes (hold j call hi)
    · rw [hadvance.calls_of_ne hj] at hk
      exact hold j k hk
  all_goals exact hold j k hk

end HabVm

end Hab
