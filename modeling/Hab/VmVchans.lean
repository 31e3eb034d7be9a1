import Hab.Sessions

/-!
# What becomes of the vchans of a VM

A vchan is worked on by an open, then listed until `hab_vchan_close`; an open that fails
gives it back.  A close marks it first, then sends the CLOSE if there is somebody to send
it to.
-/

namespace Hab

namespace HabVm

variable {vm vm' : HabVm} {i v : ℕ} {env : Env} {call : Call} {act : VmAct}
  {out : List (HabPchan × HabMsg)}

/-- Where a vchan stands. -/
inductive Stands (vm : HabVm) (v : ℕ) : Prop where
  /-- An open works on it. -/
  | opening (i : ℕ) (call : Call) (hi : vm.calls.get i = some call)
      (hopening : call.opening = true) (hv : call.vchan = some v)
  | listed (hv : v ∈ vm.vchannels)
  | closed (hclosed : (vm.vchan v).closed = true)
  | refused (hcount : (vm.vchan v).refcount = 0) (hreturned : vm.returned v = 0)

structure Placed (vm : HabVm) : Prop where
  stands : ∀ v < vm.nextVchan, vm.Stands v
  returned : ∀ v < vm.nextVchan, (vm.vchan v).closed = true → vm.returned v ≠ 0

theorem Placed.init : HabVm.init.Placed where
  stands := fun v hv ↦ absurd hv (Nat.not_lt_zero v)
  returned := fun v hv ↦ absurd hv (Nat.not_lt_zero v)

/-- A vchan that has been returned is there until it is closed. -/
theorem Placed.refcount_ne_zero (h : vm.Placed) (href : vm.Referenced) (hv : v < vm.nextVchan)
    (hreturned : vm.returned v ≠ 0) (hclosed : (vm.vchan v).closed = false) :
    (vm.vchan v).refcount ≠ 0 := by
  cases h.stands v hv with
  | opening i call hi hopening hcall => exact href.refcount_ne_zero hi hcall
  | listed hlisted => exact href.listed_ne_zero hlisted
  | closed hyes => exact absurd (hyes.symm.trans hclosed) Bool.noConfusion
  | refused hcount hno => exact absurd hno hreturned

/-- A vchan that has not been returned is there as long as its open is in progress. -/
theorem Placed.exists_opening (h : vm.Placed) (hspeaks : vm.Speaks) (hv : v < vm.nextVchan)
    (hnot : vm.returned v = 0) (hcount : (vm.vchan v).refcount ≠ 0) :
    ∃ i call, vm.calls.get i = some call ∧ call.opening = true ∧ call.vchan = some v := by
  cases h.stands v hv with
  | opening i call hi hopening hcall => exact ⟨i, call, hi, hopening, hcall⟩
  | listed hlisted => exact absurd hnot (hspeaks.listed v hlisted)
  | closed hclosed => exact absurd hnot (h.returned v hv hclosed)
  | refused hzero => exact absurd hzero hcount

theorem stands_openErr (href : vm.Referenced) (honce : vm.ReturnsOnce)
    (hi : vm.calls.get i = some call) (hcall : call.handshake = true) (hv : call.vchan = some v)
    {pchan : HabPchan} {next : Option Call} {result : List OpenReturn}
    (hresult : result.countP (OpenReturn.returns v) = 0) :
    (vm.openErr i v pchan next result).Stands v := by
  have hopening : call.opening = true := by
    cases call <;> first | rfl | cases hcall
  have hpos : 0 < vm.calls.count (Call.opens v) :=
    Pool.count_pos hi (by simp [Call.opens, hcall, Call.holds, hv])
  have hle := honce.once v
  apply Stands.refused
  · rw [vchan_openErr, if_pos rfl, Vchan.refcount_put, href.opening i call v hi hopening hv]
  · show (vm.returns ++ result).countP (OpenReturn.returns v) = 0
    rw [List.countP_append, hresult, ← HabVm.returned]
    omega

theorem Advance.stands (href : vm.Referenced) (honce : vm.ReturnsOnce)
    (hi : vm.calls.get i = some call) (h : vm.Advance i env call vm' out)
    (hopening : call.opening = true) (hv : call.vchan = some v) : vm'.Stands v := by
  have hlt := Pool.lt_next hi
  have hbecome : ∀ {next : Call}, vm'.calls = vm.calls.set i (some next) → next.opening = true →
      next.vchan = some v → vm'.Stands v := by
    intro next hcalls hnext hvnext
    apply Stands.opening i next _ hnext hvnext
    rw [hcalls]
    exact Pool.get_set_self hlt _
  have hpoll : vm'.calls = vm.calls → vm'.Stands v := by
    intro hcalls
    apply Stands.opening i call _ hopening hv
    rw [hcalls]
    exact hi
  cases h
  case frontPoll | roundPoll => exact hpoll rfl
  case frontInit | frontWoken | frontGiveUp | roundAck | roundAnswered | roundGiveUp =>
    exact hbecome rfl rfl hv
  case frontPair | frontAccept | roundAccept => exact hbecome rfl rfl hv
  case frontErr | frontCancel | roundErr | roundCancel | roundRetry =>
    cases hv
    apply stands_openErr href honce hi rfl rfl
    simp [OpenReturn.returns]
  case publish w =>
    cases hv
    exact .listed (List.mem_append_right _ (List.mem_singleton_self v))
  all_goals cases hopening

theorem Step.closed_cases (hstep : vm.Step env act vm' out) (hv : v < vm.nextVchan)
    (hclosed : (vm'.vchan v).closed = true) :
    (vm.vchan v).closed = true ∨
      v ∈ vm.vchannels ∧ ∃ i, vm'.calls.get i = some (.closing v) := by
  have hwrite : ∀ {x : HabVm} {w : ℕ} {vchan : Vchan}, vchan.closed = (x.vchan w).closed →
      (Function.update x.vchan w vchan v).closed = (x.vchan v).closed := by
    intro x w vchan heq
    by_cases hw : v = w
    · subst hw
      rw [Function.update_self, heq]
    · rw [Function.update_of_ne hw]
  have hrelease : ∀ {x : HabVm} {i w : ℕ} {next : Option Call},
      ((x.release i w next).vchan v).closed = (x.vchan v).closed := by
    intro x i w next
    obtain ⟨refcount, rxList, heq⟩ := @release_eq x i w next v
    rw [heq]
  have hopenErr : ∀ {i w : ℕ} {pchan : HabPchan} {next : Option Call}
      {result : List OpenReturn},
      ((vm.openErr i w pchan next result).vchan v).closed = (vm.vchan v).closed := by
    intro i w pchan next result
    exact @hrelease vm i w next
  have hsame : (vm'.vchan v).closed = (vm.vchan v).closed → (vm.vchan v).closed = true :=
    fun heq ↦ heq.symm.trans hclosed
  cases hstep
  case opens =>
    exact .inl (hsame (congrArg Vchan.closed (Function.update_of_ne (Nat.ne_of_lt hv) _ _)))
  case sendLeaks | sends | recvs => exact .inl (hsame (hwrite rfl))
  case closes ctx vcid w hw =>
    by_cases hvw : v = w
    · subst hvw
      exact .inr ⟨hw, vm.calls.next, Pool.get_spawn.mpr (.inl ⟨rfl, rfl⟩)⟩
    · exact .inl (hsame (congrArg Vchan.closed (Function.update_of_ne hvw _ _)))
  case receives pchan msg =>
    left
    apply hsame
    obtain ⟨rxList, otherendClosed, heq⟩ := quiet_receive vm pchan env msg v
    rw [heq]
  case advances i call hi hadvance =>
    left
    apply hsame
    cases hadvance
    case frontPair => exact hwrite rfl
    case frontErr | frontCancel | roundErr | roundCancel | roundRetry => exact hopenErr
    case listenTake => exact congrArg Vchan.closed (Function.update_of_ne (Nat.ne_of_lt hv) _ _)
    case sent | dequeue | stopped => exact hrelease.trans (hwrite rfl)
    case sendErr => exact hrelease
    case closeSent => exact hwrite rfl
    all_goals rfl
  all_goals exact .inl hclosed

/-- A call goes on only in its own steps. -/
theorem Step.get_cases (hstep : vm.Step env act vm' out) (hi : vm.calls.get i = some call) :
    vm'.calls.get i = some call ∨ act = .advance i ∧ vm.Advance i env call vm' out := by
  have hspawn : ∀ {new : Call}, (vm.calls.spawn new).get i = some call :=
    Pool.get_spawn.mpr (.inr hi)
  cases hstep
  case opens | listens | sends | recvs | closes => exact .inl hspawn
  case receives pchan msg =>
    obtain ⟨dev, vchan, heq⟩ := vm.receive_eq pchan env msg
    rw [heq]
    exact .inl hi
  case advances j call' hj hadvance =>
    by_cases hij : i = j
    · subst hij
      obtain rfl := Option.some.inj (hj.symm.trans hi)
      exact .inr ⟨rfl, hadvance⟩
    · rw [hadvance.calls_of_ne hij]
      exact .inl hi
  all_goals exact .inl hi

theorem Step.listed_cases (hstep : vm.Step env act vm' out) (hv : v ∈ vm.vchannels) :
    v ∈ vm'.vchannels ∨ (vm'.vchan v).closed = true := by
  cases hstep
  case closes ctx vcid w hw =>
    by_cases hvw : v = w
    · subst hvw
      right
      simp [HabVm.vchanClosed, write]
    · exact .inl ((List.mem_erase_of_ne hvw).mpr hv)
  case receives pchan msg =>
    obtain ⟨dev, vchan, heq⟩ := vm.receive_eq pchan env msg
    rw [heq]
    exact .inl hv
  case advances i call hi hadvance =>
    left
    cases hadvance
    case publish => exact List.mem_append_left _ hv
    case frontErr | frontCancel | roundErr | roundCancel | roundRetry =>
      rw [openErr]
      simpa only [vchannels_release] using hv
    case sent | sendErr | dequeue | stopped =>
      rw [vchannels_release]
      exact hv
    all_goals exact hv
  all_goals exact .inl hv

theorem Step.stands (href : vm.Referenced) (honce : vm.ReturnsOnce)
    (hstep : vm.Step env act vm' out) (hv : v < vm.nextVchan) (h : vm.Stands v) :
    vm'.Stands v := by
  have hlater := (Later.step href hstep).vchan v hv
  cases h with
  | opening i call hi hopening hcall =>
      rcases hstep.get_cases hi with hi' | ⟨-, hadvance⟩
      · exact .opening i call hi' hopening hcall
      · exact hadvance.stands href honce hi hopening hcall
  | listed hlisted =>
      rcases hstep.listed_cases hlisted with hlisted' | hclosed
      · exact .listed hlisted'
      · exact .closed hclosed
  | closed hclosed => exact .closed (hlater.closed hclosed)
  | refused hcount hreturned =>
      apply Stands.refused (hlater.freed hcount)
      rcases hstep.returned_cases v with heq | ⟨i, call, hi, hcall, -⟩
      · exact heq.trans hreturned
      · exact absurd hcount (href.refcount_ne_zero hi hcall)

/-- A new vchan is worked on by the open that has allocated it. -/
theorem Step.stands_new (hstep : vm.Step env act vm' out) (hv : v < vm'.nextVchan)
    (hnew : ¬ v < vm.nextVchan) :
    vm'.Stands v ∧ (vm'.vchan v).closed = false ∧ (vm'.vchan v).refcount ≠ 0 := by
  have hsame : vm'.nextVchan ≠ vm.nextVchan := by
    intro hsame
    exact hnew (hsame ▸ hv)
  cases hstep
  case opens ctx pchan subId request id hfree =>
    have hlast : v = vm.nextVchan :=
      Nat.le_antisymm (Nat.le_of_lt_succ hv) (Nat.le_of_not_lt hnew)
    subst hlast
    refine ⟨.opening vm.calls.next _ (Pool.get_spawn.mpr (.inl ⟨rfl, rfl⟩)) rfl rfl, ?_⟩
    simp [HabVm.vchanAlloc, countOpen]
  case receives pchan msg =>
    obtain ⟨dev, vchan, heq⟩ := vm.receive_eq pchan env msg
    rw [heq] at hsame
    exact absurd rfl hsame
  case advances i call hi hadvance =>
    cases hadvance
    case listenTake l ended request id haccept hfree =>
      have hlast : v = vm.nextVchan :=
        Nat.le_antisymm (Nat.le_of_lt_succ hv) (Nat.le_of_not_lt hnew)
      subst hlast
      refine ⟨.opening i _ (Pool.get_set_self (Pool.lt_next hi) _) rfl rfl, ?_⟩
      simp [backTake, HabVm.become, HabVm.vchanAlloc, backHear]
    case frontErr | frontCancel | roundErr | roundCancel | roundRetry =>
      exact absurd (nextVchan_openErr _ _ _) hsame
    case sent | sendErr | dequeue | stopped => exact absurd nextVchan_release hsame
    all_goals exact absurd rfl hsame
  all_goals exact absurd rfl hsame

theorem Placed.step (h : vm.Placed) (href : vm.Referenced) (honce : vm.ReturnsOnce)
    (hspeaks : vm.Speaks) (hstep : vm.Step env act vm' out) : vm'.Placed := by
  constructor
  case stands =>
    intro v hv
    by_cases hold : v < vm.nextVchan
    · exact hstep.stands href honce hold (h.stands v hold)
    · exact (hstep.stands_new hv hold).1
  case returned =>
    intro v hv hclosed
    by_cases hold : v < vm.nextVchan
    · apply hstep.returned_ne_zero
      rcases hstep.closed_cases hold hclosed with hclosed | ⟨hlisted, -⟩
      · exact h.returned v hold hclosed
      · exact hspeaks.listed v hlisted
    · exact absurd (hclosed.symm.trans (hstep.stands_new hv hold).2.1) Bool.noConfusion

/-! ## What a CLOSE says -/

/-- A CLOSE goes out for a vchan that is closed. -/
theorem Step.close_out (hspeaks : vm.Speaks) (href : vm.Referenced)
    (hstep : vm.Step env act vm' out) {id : Fin 4096} {sessionId : UInt32}
    (hmsg : .close id sessionId ∈ out.map Prod.snd) :
    ∃ v < vm.nextVchan, (vm.vchan v).sessionId = sessionId ∧ (vm.vchan v).closed = true := by
  cases hstep
  case advances i call hi hadvance =>
    cases hadvance
    case closeSent v hopen =>
      cases List.mem_singleton.mp hmsg
      exact ⟨v, href.lt_nextVchan (href.refcount_ne_zero hi rfl), rfl, (hspeaks.calls i _ hi).2⟩
    case roundRetry r recv hout =>
      rcases hout with rfl | rfl
      · cases hmsg
      · cases List.mem_singleton.mp hmsg
    case frontInit | frontCancel | frontAccept => cases List.mem_singleton.mp hmsg
    case roundAck | roundCancel | sent => cases List.mem_singleton.mp hmsg
    all_goals cases hmsg
  all_goals cases hmsg

/-- A close sends the CLOSE, if the other end is open and it can be sent. -/
theorem Advance.closing_out (h : vm.Advance i env (.closing v) vm' out) :
    (vm.vchan v).outgoing none ∈ out.map Prod.snd ∨ (vm.vchan v).otherendClosed = true ∨
      env.sent ≠ none := by
  cases h
  case closeSent hopen => exact .inl (List.mem_singleton_self _)
  case closeSkip hskip => exact .inr hskip

theorem Step.stopping_cases (hstep : vm.Step env act vm' out)
    (hi : vm'.calls.get i = some (.stopping v)) :
    vm.calls.get i = some (.stopping v) ∨
      act = .advance i ∧ vm.calls.get i = some (.closing v) ∧
        vm.Advance i env (.closing v) vm' out := by
  have hspawn : ∀ {new : Call}, new ≠ .stopping v →
      (vm.calls.spawn new).get i = some (.stopping v) → vm.calls.get i = some (.stopping v) :=
    fun hnew hget ↦ Pool.get_of_spawn hget hnew
  cases hstep
  case opens | listens | sends | recvs | closes =>
    left
    apply hspawn _ hi
    rintro ⟨⟩
  case receives pchan msg =>
    obtain ⟨dev, vchan, heq⟩ := vm.receive_eq pchan env msg
    rw [heq] at hi
    exact .inl hi
  case advances j call hj hadvance =>
    by_cases hij : i = j
    · subst hij
      rcases hadvance.goesOn hj hi with rfl | hgoes
      · exact .inl hj
      · cases hgoes
        exact .inr ⟨rfl, hj, hadvance⟩
    · rw [hadvance.calls_of_ne hij] at hi
      exact .inl hi
  all_goals exact .inl hi

theorem Step.otherendClosed_cases (hstep : vm.Step env act vm' out)
    (hact : ∀ pchan msg, act ≠ .receive pchan msg) (hv : v < vm.nextVchan)
    (hclosed : (vm'.vchan v).otherendClosed = true) :
    (vm.vchan v).otherendClosed = true ∨ ∃ i, vm.calls.get i = some (.stopping v) := by
  have hwrite : ∀ {x : HabVm} {w : ℕ} {vchan : Vchan},
      vchan.otherendClosed = (x.vchan w).otherendClosed →
        (Function.update x.vchan w vchan v).otherendClosed = (x.vchan v).otherendClosed := by
    intro x w vchan heq
    by_cases hw : v = w
    · subst hw
      rw [Function.update_self, heq]
    · rw [Function.update_of_ne hw]
  have hrelease : ∀ {x : HabVm} {i w : ℕ} {next : Option Call},
      ((x.release i w next).vchan v).otherendClosed = (x.vchan v).otherendClosed := by
    intro x i w next
    obtain ⟨refcount, rxList, heq⟩ := @release_eq x i w next v
    rw [heq]
  have hopenErr : ∀ {i w : ℕ} {pchan : HabPchan} {next : Option Call}
      {result : List OpenReturn},
      ((vm.openErr i w pchan next result).vchan v).otherendClosed =
        (vm.vchan v).otherendClosed := by
    intro i w pchan next result
    exact @hrelease vm i w next
  have hsame : (vm'.vchan v).otherendClosed = (vm.vchan v).otherendClosed →
      (vm.vchan v).otherendClosed = true := fun heq ↦ heq.symm.trans hclosed
  cases hstep
  case opens =>
    left
    exact hsame (congrArg Vchan.otherendClosed (Function.update_of_ne (Nat.ne_of_lt hv) _ _))
  case sendLeaks | sends | recvs | closes => exact .inl (hsame (hwrite rfl))
  case receives pchan msg => exact absurd rfl (hact pchan msg)
  case advances i call hi hadvance =>
    cases hadvance
    case stopped w =>
      by_cases hvw : v = w
      · subst hvw
        exact .inr ⟨i, hi⟩
      · left
        apply hsame
        exact hrelease.trans
          (congrArg Vchan.otherendClosed (Function.update_of_ne hvw _ _))
    case frontPair => exact .inl (hsame (hwrite rfl))
    case frontErr | frontCancel | roundErr | roundCancel | roundRetry =>
      exact .inl (hsame hopenErr)
    case listenTake =>
      left
      exact hsame (congrArg Vchan.otherendClosed (Function.update_of_ne (Nat.ne_of_lt hv) _ _))
    case sent | dequeue => exact .inl (hsame (hrelease.trans (hwrite rfl)))
    case sendErr => exact .inl (hsame hrelease)
    case closeSent => exact .inl (hsame (hwrite rfl))
    all_goals exact .inl hclosed
  all_goals exact .inl hclosed

theorem otherendClosed_receive {pchan : HabPchan} {msg : HabMsg} (href : vm.Referenced)
    (hclosed : ((vm.receive pchan env msg).vchan v).otherendClosed = true) :
    (vm.vchan v).otherendClosed = true ∨ ∃ id, msg = .close id (vm.vchan v).sessionId := by
  cases msg with
  | request type xdata =>
      simp only [HabVm.receive] at hclosed
      split at hclosed <;> exact .inl hclosed
  | data id sessionId message =>
      left
      simp only [HabVm.receive] at hclosed
      split at hclosed
      · exact hclosed
      · split at hclosed
        · exact hclosed
        · rw [msgQueue] at hclosed
          simp only [write, Function.update_apply] at hclosed
          split at hclosed
          case isTrue hv => exact hv ▸ hclosed
          case isFalse => exact hclosed
  | close id sessionId =>
      rcases vchan_receive_close href env v with ⟨-, heq⟩ | ⟨hears, -⟩
      · rw [heq] at hclosed
        exact .inl hclosed
      · exact .inr ⟨id, congrArg (HabMsg.close id) hears.2.2.2.1.symm⟩

/-! ## Giving a vchan up -/

/-- The step ends a round of `backend_listen` without returning its vchan. -/
def givesUp (vm : HabVm) (env : Env) (r : BackRound) : RoundStage → Bool
  | .ack => env.sent ≠ none
  | .wait => false
  | .answered ended recv =>
      let error := habOpenListen true false ended (vm.forbidden r.listen.ctx r.listen.subId)
      if error ≠ none ∧ recv.any (fun request ↦ request.type = .initCancel) then false
      else if error = some .enxio then true
      else if error = some .eagain then false
      else error ≠ none || recv = none
  | .cancel _ _ => true

theorem vchan_advanceRound {r : BackRound} {stage : RoundStage}
    (hno : vm.givesUp env r stage = false) :
    (vm.advanceRound i env r stage).1.vchan = vm.vchan := by
  cases stage with
  | ack =>
      have hsent : env.sent = none := by simpa [givesUp] using hno
      simp only [advanceRound, hsent]
      rfl
  | wait =>
      simp only [advanceRound]
      split <;> rfl
  | answered ended recv =>
      simp only [givesUp] at hno
      simp only [advanceRound]
      split at hno
      case isTrue hcancel =>
        rw [if_pos hcancel]
        rfl
      case isFalse hcancel =>
        rw [if_neg hcancel]
        split at hno
        case isTrue => cases hno
        case isFalse henxio =>
          rw [if_neg henxio]
          split at hno
          case isTrue heagain =>
            rw [if_pos heagain]
            rfl
          case isFalse heagain =>
            rw [if_neg heagain]
            simp only [Bool.or_eq_false_iff, decide_eq_false_iff_not, not_not] at hno
            obtain ⟨request, rfl⟩ := Option.ne_none_iff_exists'.mp hno.2
            rw [hno.1]
            rfl
  | cancel recv error => cases hno

/-- A vchan that has not been returned is there until its round gives it up. -/
theorem refcount_of_not_givesUp (href : vm.Referenced) (hspeaks : vm.Speaks) (hback : vm.AtBack)
    (hstep : vm.step act env = some (vm', out)) (hcount : (vm.vchan v).refcount ≠ 0)
    (hnot : vm.returned v = 0)
    (hkeep : ∀ i r stage, act = .advance i → vm.calls.get i = some (.round r stage) →
      r.vchan = v → vm.givesUp env r stage = false) : (vm'.vchan v).refcount ≠ 0 := by
  have hv := href.lt_nextVchan hcount
  have hwrite : ∀ {w : ℕ} {vchan : Vchan}, (vm.vchan w).refcount ≤ vchan.refcount →
      (Function.update vm.vchan w vchan v).refcount ≠ 0 := by
    intro w vchan hle
    by_cases hw : v = w
    · subst hw
      rw [Function.update_self]
      omega
    · rw [Function.update_of_ne hw]
      exact hcount
  have hcases := step_cases hstep
  cases hcases
  case opens =>
    exact (congrArg Vchan.refcount (Function.update_of_ne (Nat.ne_of_lt hv) _ _)).trans_ne hcount
  case sendLeaks | sends | recvs => exact hwrite (Nat.le_succ _)
  case closes => exact hwrite (Nat.le_refl _)
  case receives pchan msg =>
    obtain ⟨rxList, otherendClosed, heq⟩ := quiet_receive vm pchan env msg v
    rw [heq]
    exact hcount
  case advances i call hi hadvance =>
    by_cases hcall : call.vchan = some v
    · have hcall' := hspeaks.calls i call hi
      cases call with
      | front o stage => cases hback i _ hi
      | listen l stage => cases hcall
      | round r stage =>
          have hno := hkeep i r stage rfl hi (Option.some.inj hcall)
          simp only [HabVm.step, hi, HabVm.advance, Option.some.injEq] at hstep
          have heq := @vchan_advanceRound vm i env r stage hno
          rw [hstep] at heq
          rw [heq]
          exact hcount
      | opened w | sending w | receiving w =>
          cases hcall
          exact absurd hnot hcall'
      | closing w | stopping w =>
          cases hcall
          exact absurd hnot hcall'.1
    · rw [hadvance.vchan_eq hv hcall]
      exact hcount
  all_goals exact hcount

end HabVm

end Hab
